import InfixCalculator.Proofs.Parser.SharedTokens

/-!
# Sources with relocated tokens

The parser looks at the positions of tokens only to say where a fault is.  So if two sources have
the same tokens, but for their positions, it reads the same expression from both, or finds the same
fault in both, each at the place where its source has it.
-/

namespace InfixCalculator

open Relation Parsing

def Token.relocate (f : Nat → Nat) (t : Token) : Token := { t with position := f t.position }

@[simp] theorem Token.kind_relocate (f : Nat → Nat) (t : Token) : (t.relocate f).kind = t.kind :=
  rfl

@[simp] theorem Token.number_relocate (f : Nat → Nat) (t : Token) :
    (t.relocate f).number = t.number := rfl

namespace FaultCause

def relocate (f : Nat → Nat) : FaultCause → FaultCause
  | expected kind found => expected kind (found.relocate f)
  | operandExpected found => operandExpected (found.relocate f)
  | operatorExpected found => operatorExpected (found.relocate f)
  | leftoverToken found => leftoverToken (found.relocate f)
  | cause => cause

@[simp] theorem kind_relocate (f : Nat → Nat) (cause : FaultCause) :
    (cause.relocate f).kind = cause.kind := by
  cases cause <;> rfl

@[simp] theorem detail_relocate (f : Nat → Nat) (cause : FaultCause) :
    (cause.relocate f).detail = cause.detail := by
  cases cause <;> rfl

end FaultCause

def Fault.relocate (f : Nat → Nat) (fault : Fault) : Fault :=
  ⟨fault.cause.relocate f, fault.column.map f⟩

def Pull.relocate (f : Nat → Nat) : Pull → Pull
  | token t => .token (t.relocate f)
  | exhausted => exhausted
  | failed fault => .failed (fault.relocate f)

def ReadingAction.relocate (f : Nat → Nat) : ReadingAction → ReadingAction
  | refuse cause => refuse (cause.relocate f)
  | action => action

variable {f : Nat → Nat}

theorem CallStack.returned_relocate (callers : List WaitingCall) (e : Expr) (t : Token) :
    returned callers e (t.relocate f) = (returned callers e t).relocate f := by
  cases callers with
  | nil =>
    by_cases h : t.kind = .eof <;>
      simp [returned, h, ReadingAction.relocate, FaultCause.relocate]
  | cons caller callers =>
    obtain ⟨n, awaited⟩ := caller
    cases awaited with
    | bracketed =>
      by_cases h : t.kind = .rightParen <;>
        simp [returned, h, ReadingAction.relocate, FaultCause.relocate]
    | negated => rfl
    | factor left => rfl
    | rightOperand op left => rfl

/-- What a call does at a token depends on its position only where it refuses the token. -/
theorem CallStack.act_relocate (c : CallStack) (t : Token) :
    c.act (t.relocate f) = (c.act t).relocate f := by
  obtain ⟨n, stage, callers⟩ := c
  cases stage with
  | operand =>
    simp only [act, Token.kind_relocate, Token.number_relocate]
    cases t.kind <;> rfl
  | behindBracket inner =>
    by_cases h : t.kind = .leftParen <;> simp [act, h, ReadingAction.relocate]
  | operators left =>
    by_cases h : (t.precedence : Int) ≤ n ∨ t.kind = .eof
    · have h' : ((t.relocate f).precedence : Int) ≤ n ∨ (t.relocate f).kind = .eof := h
      rw [act, act, if_pos h, if_pos h']
      exact returned_relocate callers left t
    · have h' : ¬(((t.relocate f).precedence : Int) ≤ n ∨ (t.relocate f).kind = .eof) := h
      rw [act, act, if_neg h, if_neg h', Token.kind_relocate]
      cases t.kind.operator? <;> rfl

namespace ParserState

variable {s s' : ParserState}

/-- The state `s'` has ahead what `s` has, with positions mapped. -/
structure Relocates (f : Nat → Nat) (s s' : ParserState) : Prop where
  length_eq : s'.length = f s.length
  current_eq : s'.current = s.current.relocate f
  ahead_eq : s'.ahead = s.ahead.map (Pull.relocate f)

theorem ahead_eq_exhausted_iff : s.ahead = [.exhausted] ↔ s.current.kind = .eof := by
  unfold ahead
  split <;> simp_all

theorem Relocates.pullAll_eq (h : Relocates f s s') (hs : s.current.kind ≠ .eof) :
    s'.cursor.pullAll = s.cursor.pullAll.map (Pull.relocate f) := by
  have hs' : s'.current.kind ≠ .eof := by rwa [h.current_eq]
  have hahead := h.ahead_eq
  rw [ahead_of_ne_eof hs, ahead_of_ne_eof hs', List.map_cons] at hahead
  exact (List.cons.inj hahead).2

/-- States that are reached by moving on are relocated if what is ahead of them is. -/
theorem relocates_of_placed (hlength : s'.length = f s.length) (hs : s.Placed) (hs' : s'.Placed)
    (hahead : s'.ahead = s.ahead.map (Pull.relocate f)) : Relocates f s s' := by
  refine ⟨hlength, ?_, hahead⟩
  by_cases heof : s.current.kind = .eof
  · have heof' : s'.current.kind = .eof := by
      rw [← ahead_eq_exhausted_iff, hahead, ahead_eq_exhausted_iff.2 heof]
      rfl
    rw [hs heof, hs' heof', hlength]
    rfl
  · rw [ahead_of_ne_eof heof, List.map_cons] at hahead
    exact (current_of_ahead hahead).1

end ParserState

open ParserState

theorem Parsing.advance_relocate {s s' : ParserState} (h : Relocates f s s')
    (hs : s.current.kind ≠ .eof) :
    (∃ s₁ s₁', advance s = .ok () s₁ ∧ advance s' = .ok () s₁' ∧ Relocates f s₁ s₁') ∨
      ∃ fault s₁ s₁', advance s = .error fault s₁ ∧
        advance s' = .error (fault.relocate f) s₁' := by
  have hs' : s'.current.kind ≠ .eof := by rwa [h.current_eq]
  have hpulls := h.pullAll_eq hs
  by_cases hfailed : ∃ fault, s.cursor.pullAll = [.failed fault]
  · obtain ⟨fault, hfault⟩ := hfailed
    rw [hfault] at hpulls
    obtain ⟨s₁, hs₁⟩ := Moment.exists_advance_error hs hfault
    obtain ⟨s₁', hs₁'⟩ := Moment.exists_advance_error hs' hpulls
    exact .inr ⟨fault, s₁, s₁', hs₁, hs₁'⟩
  · have hfailed' : ∀ fault, s'.cursor.pullAll ≠ [.failed fault] := fun fault hfault => by
      rw [hpulls, List.map_eq_singleton_iff] at hfault
      obtain ⟨result, hresult, hrelocate⟩ := hfault
      cases result with
      | token t => cases hrelocate
      | exhausted => cases hrelocate
      | failed fault' => exact hfailed ⟨fault', hresult⟩
    obtain ⟨s₁, hs₁, hahead⟩ := Moment.exists_advance hs (not_exists.1 hfailed)
    obtain ⟨s₁', hs₁', hahead'⟩ := Moment.exists_advance hs' hfailed'
    have hprecedes := (Moment.advance_ends hs).of_ok hs₁
    have hprecedes' := (Moment.advance_ends hs').of_ok hs₁'
    refine .inl ⟨s₁, s₁', hs₁, hs₁', relocates_of_placed ?_ hprecedes.placed hprecedes'.placed ?_⟩
    · rw [hprecedes.length_eq, hprecedes'.length_eq, h.length_eq]
    · rw [hahead, hahead', hpulls]

namespace CallStack

variable {s s' : ParserState} {limit : Nat}

theorem result_outcome_relocate {c : CallStack} (h : Relocates f s s')
    (hlive : c.liveCalls ≤ limit) :
    result (c.outcome limit) s' =
      (result (c.outcome limit) s).mapError (Fault.relocate f) := by
  generalize hk : (⟨c, s⟩ : Moment).remaining = k
  induction k using Nat.strongRecOn generalizing c s s' with
  | ind k ih =>
    -- The next moment is one that the limit allows, or is too deep in both states.
    have hnext {c' : CallStack} {s₁ s₁' : ParserState} (hmoment : Moment.Next ⟨c, s⟩ ⟨c', s₁⟩)
        (h₁ : Relocates f s₁ s₁') : result (c'.outcome limit) s₁' =
          (result (c'.outcome limit) s₁).mapError (Fault.relocate f) := by
      by_cases hlive' : c'.liveCalls ≤ limit
      · exact ih _ (hk ▸ Moment.remaining_lt hmoment) h₁ hlive' rfl
      · have hdeep (s₂ : ParserState) : c'.outcome limit s₂ = .error .tooDeep s₂ :=
          Moment.outcome_of_next_of_lt hmoment hlive (Nat.lt_of_not_le hlive') s₂
        rw [result, result, hdeep, hdeep]
        rfl
    have hact : c.act s'.current = (c.act s.current).relocate f := by
      rw [h.current_eq, act_relocate]
    rw [result, result, outcome_act hlive, outcome_act hlive, hact]
    cases hc : c.act s.current with
    | read c' =>
      rcases advance_relocate h (ne_eof_of_read hc) with
        ⟨s₁, s₁', hs₁, hs₁', h₁⟩ | ⟨fault, s₁, s₁', hs₁, hs₁'⟩
      · have hboth := hnext (.read hc hs₁) h₁
        simpa only [ReadingAction.relocate, ReadingAction.outcome, result, bind, EStateM.bind, hs₁,
          hs₁'] using hboth
      · simp only [ReadingAction.relocate, ReadingAction.outcome, bind, EStateM.bind, hs₁, hs₁']
        rfl
    | turn c' => exact hnext (.turn hc) h
    | finish e => rfl
    | refuse cause =>
      simp only [ReadingAction.relocate, ReadingAction.outcome, fail, h.current_eq]
      rfl

end CallStack

namespace Expr

variable {limit : Nat} {source source' : String}

/-- A source with the same tokens at mapped positions is the same expression, or has the same fault
at a mapped place. -/
theorem parseWithin_relocate (hlength : source'.length = f source.length)
    (hpulls : (Cursor.ofSource source').pullAll =
      (Cursor.ofSource source).pullAll.map (Pull.relocate f)) :
    parseWithin limit source' = (parseWithin limit source).mapError (Fault.relocate f) := by
  rcases parseWithin_cases limit source with
    ⟨s, hs, hparse⟩ | ⟨hnone, hparse⟩ | ⟨fault, hfault, hparse⟩
  · have htoken := hs.ahead_eq
    rw [ahead_of_ne_eof hs.current_ne] at htoken
    rw [← htoken] at hpulls
    obtain ⟨s', hsource'⟩ := exists_ofSource hpulls
    have hs' := starts_of_ofSource hsource'
    have hrelocates : Relocates f s s' := by
      refine relocates_of_placed ?_ (fun h => absurd h hs.current_ne)
        (fun h => absurd h hs'.current_ne) ?_
      · rw [hs.length_eq, hs'.length_eq, hlength]
      · rw [hs'.ahead_eq, hpulls, ahead_of_ne_eof hs.current_ne]
    rw [hparse, parseWithin_of_ofSource hsource']
    rcases Nat.eq_zero_or_pos limit with rfl | hlimit
    · rfl
    · exact CallStack.result_outcome_relocate (c := .start) hrelocates hlimit
  · rw [hnone] at hpulls
    rw [hparse, parseWithin_of_no_token limit hpulls]
    rfl
  · rw [hfault] at hpulls
    rw [hparse, parseWithin_of_not_ofSource (ofSource_of_failed hpulls)]
    rfl

end Expr

end InfixCalculator
