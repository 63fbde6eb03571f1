import InfixCalculator.Proofs.Parser.Moments

/-!
# Steps move on token by token

No step of the parser changes its state but by moving on.  A step that succeeds has taken some
tokens, and so has one that refuses a token; one that meets a faulty lexeme has taken the tokens
before it.
-/

namespace InfixCalculator

open Relation

namespace Parsing

variable {α β : Type} {s s' : ParserState} {fault : Fault}

/-- Moving on from one state succeeds and leads to another one. -/
def Advances (s s' : ParserState) : Prop := advance s = .ok () s'

theorem advance_of_eof (h : s.current.kind = .eof) :
    advance s = .error ⟨.noMoreTokens, some s.current.position⟩ s := if_pos h

theorem Advances.ne_eof (h : Advances s s') : s.current.kind ≠ .eof := fun heof => by
  rw [Advances, advance_of_eof heof] at h
  cases h

theorem Advances.precedes (h : Advances s s') : s.Precedes s' :=
  (Moment.advance_ends h.ne_eof).of_ok h

/-- Moving on takes a token, or reaches the end of the source. -/
theorem Advances.pull (h : Advances s s') :
    (∃ t next, s.cursor.pull = (.token t, next) ∧ s' = { s with current := t, cursor := next }) ∨
    ∃ next, s.cursor.pull = (.exhausted, next) ∧
      s' = { s with current := ⟨.eof, none, s.length⟩, cursor := next } := by
  have hs := h.ne_eof
  unfold Advances advance at h
  rw [if_neg hs] at h
  split at h
  · next t next hpull =>
    cases h
    exact .inl ⟨t, next, hpull, rfl⟩
  · next next hpull =>
    cases h
    exact .inr ⟨next, hpull, rfl⟩
  · cases h

/-- A faulty lexeme is met at the cursor, and the token ahead stays. -/
theorem pull_of_failed (h : advance s = .error fault s') (hlexical : fault.cause.isLexical = true) :
    s.current.kind ≠ .eof ∧ ∃ next, s.cursor.pull = (.failed fault, next) ∧
      s' = { s with cursor := next } := by
  have hs : s.current.kind ≠ .eof := fun heof => by
    rw [advance_of_eof heof] at h
    cases h
    simp [FaultCause.isLexical] at hlexical
  unfold advance at h
  rw [if_neg hs] at h
  split at h
  · cases h
  · cases h
  · next fault' next hpull =>
    cases h
    exact ⟨hs, next, hpull, rfl⟩

/-- Some tokens are taken.  If the fault is lexical then it is met behind them. -/
def Halts (s : ParserState) (fault : Fault) (s' : ParserState) : Prop :=
  if fault.cause.isLexical then ∃ s₁, ReflTransGen Advances s s₁ ∧ advance s₁ = .error fault s'
  else ReflTransGen Advances s s'

theorem Halts.of_leads {s₁ : ParserState} (h : ReflTransGen Advances s s₁)
    (hhalts : Halts s₁ fault s') : Halts s fault s' := by
  by_cases hlexical : fault.cause.isLexical = true
  · rw [Halts, if_pos hlexical] at *
    obtain ⟨s₂, hs₂, hfault⟩ := hhalts
    exact ⟨s₂, h.trans hs₂, hfault⟩
  · rw [Halts, if_neg hlexical] at *
    exact h.trans hhalts

theorem Halts.refl (h : fault.cause.isLexical = false) : Halts s fault s := by
  rw [Halts, h]
  exact .refl

/-- Wherever the step starts, it only moves on. -/
def Settles (step : Parsing α) : Prop :=
  ∀ s, Ends step s (fun _ s' => ReflTransGen Advances s s') (Halts s)

theorem settles_pure (a : α) : Settles (pure a) := fun _ => .refl

theorem settles_current : Settles current := fun _ => .refl

theorem settles_fail {cause : FaultCause} (h : cause.isLexical = false) :
    Settles (fail cause : Parsing α) := fun _ => .refl h

theorem Settles.bind {step : Parsing β} {next : β → Parsing α} (h : Settles step)
    (hnext : ∀ b, Settles (next b)) : Settles (step >>= next) := fun s => by
  rw [ends_bind]
  refine (h s).mono (fun b s₁ hs₁ => ?_) fun _ _ => id
  exact (hnext b s₁).mono (fun _ _ hs₂ => hs₁.trans hs₂) fun _ _ => .of_leads hs₁

theorem settles_advance : Settles advance := fun s => by
  by_cases heof : s.current.kind = .eof
  · unfold Ends
    rw [advance_of_eof heof]
    exact .refl rfl
  · unfold Ends
    cases hadvance : advance s with
    | ok a s' => exact .single hadvance
    | error fault s' =>
      have hcursor := (Moment.advance_ends heof).of_error hadvance
      dsimp only
      rw [Halts, if_pos (Cursor.isLexical_of_pullAll hcursor)]
      exact ⟨s, .refl, hadvance⟩

theorem settles_expect (kind : TokenKind) : Settles (expect kind) := by
  refine settles_current.bind fun token => ?_
  split
  · exact settles_advance
  · exact settles_fail rfl

section Readers

variable {nested : Int → Parsing Expr} (h : ∀ n, Settles (nested n))

include h

theorem settles_operand : Settles (operand nested) := by
  refine settles_current.bind fun token => ?_
  split
  · exact settles_advance.bind fun _ => (h _).bind fun _ => settles_pure _
  · exact settles_advance.bind fun _ => settles_pure _
  · refine settles_advance.bind fun _ => (h _).bind fun inner => ?_
    refine (settles_expect _).bind fun _ => settles_current.bind fun next => ?_
    split
    · exact (h _).bind fun _ => settles_pure _
    · exact settles_pure _
  · exact settles_fail rfl
  · exact settles_fail rfl

theorem settles_operators (n : Int) (bound : List Char) (left : Expr) :
    Settles (operators nested n bound left) := by
  induction bound generalizing left with
  | nil =>
    rw [operators]
    refine settles_current.bind fun token => ?_
    split
    · exact settles_pure _
    · split
      · exact settles_fail rfl
      · exact settles_advance.bind fun _ => (h _).bind fun _ => settles_pure _
  | cons c bound ih =>
    rw [operators]
    refine settles_current.bind fun token => ?_
    split
    · exact settles_pure _
    · split
      · exact settles_fail rfl
      · exact settles_advance.bind fun _ => (h _).bind fun _ => ih _

end Readers

theorem settles_expression (limit : Nat) (n : Int) : Settles (expression limit n) := by
  induction limit generalizing n with
  | zero => exact fun s => .refl rfl
  | succ limit ih =>
    rw [expression_succ]
    exact (settles_operand ih).bind fun left s => settles_operators ih n _ left s

theorem settles_whole (limit : Nat) : Settles (whole limit) := by
  refine (settles_expression limit _).bind fun e => settles_current.bind fun token => ?_
  split
  · exact settles_pure _
  · exact settles_fail rfl

end Parsing

end InfixCalculator
