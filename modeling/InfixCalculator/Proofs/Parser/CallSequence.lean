import InfixCalculator.Proofs.Parser.InStep

/-!
# Sequences of calls

A parser can be called again and again, after successes and after failures.  A call moves on over
some tokens, and may meet a faulty lexeme behind them, so wherever calls lead the parser is in step
with its source or cut off from it.  What calls give depends only on the column of the token ahead,
as long as none of them meets a faulty lexeme.
-/

namespace InfixCalculator

open Relation

inductive ParserCall where
  | advance
  | expect (kind : TokenKind)
  | operand
  | expression (threshold : Int)
  | whole
  deriving DecidableEq, Repr

namespace ParserCall

def step (limit : Nat) : ParserCall → Parsing (Option Expr)
  | advance => do
    Parsing.advance
    return none
  | expect kind => do
    Parsing.expect kind
    return none
  | operand => do
    let e ← Parsing.operand (Parsing.expression limit)
    return some e
  | expression n => do
    let e ← Parsing.expression limit n
    return some e
  | whole => do
    let e ← Parsing.whole limit
    return some e

def answer (limit : Nat) (call : ParserCall) (s : ParserState) : Except Fault (Option Expr) :=
  Parsing.result (call.step limit) s

def after (limit : Nat) (call : ParserCall) (s : ParserState) : ParserState :=
  match call.step limit s with
  | .ok _ s' => s'
  | .error _ s' => s'

def afterAll (limit : Nat) (calls : List ParserCall) (s : ParserState) : ParserState :=
  calls.foldl (fun s call => call.after limit s) s

/-- What calls give, one after the other, and the tokens that are ahead behind each of them. -/
def answers (limit : Nat) :
    List ParserCall → ParserState → List (Except Fault (Option Expr) × Token)
  | [], _ => []
  | call :: calls, s =>
    (call.answer limit s, (call.after limit s).current) :: answers limit calls (call.after limit s)

def isLexical : Except Fault (Option Expr) → Bool
  | .ok _ => false
  | .error fault => fault.cause.isLexical

/-- None of the calls meets a faulty lexeme. -/
def Unbroken (limit : Nat) (calls : List ParserCall) (s : ParserState) : Prop :=
  ∀ answer ∈ answers limit calls s, isLexical answer.1 = false

instance (limit : Nat) (calls : List ParserCall) (s : ParserState) :
    Decidable (Unbroken limit calls s) :=
  inferInstanceAs (Decidable (∀ answer ∈ answers limit calls s, isLexical answer.1 = false))

end ParserCall

open Parsing

namespace ParserCall

open ParserState

variable {limit : Nat} {call : ParserCall} {calls : List ParserCall} {source : String}
  {s : ParserState}

theorem settles_step (limit : Nat) (call : ParserCall) : Settles (call.step limit) := by
  cases call with
  | advance => exact settles_advance.bind fun _ => settles_pure _
  | expect kind => exact (settles_expect kind).bind fun _ => settles_pure _
  | operand => exact (settles_operand (settles_expression limit)).bind fun _ => settles_pure _
  | expression n => exact (settles_expression limit n).bind fun _ => settles_pure _
  | whole => exact (settles_whole limit).bind fun _ => settles_pure _

/-- A call takes some tokens, and may meet a faulty lexeme behind them. -/
theorem after_cases (limit : Nat) (call : ParserCall) (s : ParserState) :
    isLexical (call.answer limit s) = false ∧ ReflTransGen Advances s (call.after limit s) ∨
    ∃ fault s₁, call.answer limit s = .error fault ∧ fault.cause.isLexical = true ∧
        ReflTransGen Advances s s₁ ∧ Parsing.advance s₁ = .error fault (call.after limit s) := by
  have hends := settles_step limit call s
  unfold answer after result
  unfold Ends at hends
  cases hstep : call.step limit s with
  | ok e s' =>
    rw [hstep] at hends
    exact .inl ⟨rfl, hends⟩
  | error fault s' =>
    rw [hstep] at hends
    dsimp only at hends ⊢
    by_cases hlexical : fault.cause.isLexical = true
    · rw [Halts, if_pos hlexical] at hends
      obtain ⟨s₁, hs₁, hfailed⟩ := hends
      exact .inr ⟨fault, s₁, rfl, hlexical, hs₁, hfailed⟩
    · rw [Halts, if_neg hlexical] at hends
      exact .inl ⟨eq_false_of_ne_true hlexical, hends⟩

theorem afterAll_cons (limit : Nat) (call : ParserCall) (calls : List ParserCall)
    (s : ParserState) :
    afterAll limit (call :: calls) s = afterAll limit calls (call.after limit s) := rfl

theorem unbroken_cons : Unbroken limit (call :: calls) s ↔
    isLexical (call.answer limit s) = false ∧ Unbroken limit calls (call.after limit s) := by
  simp [Unbroken, answers]

theorem inStep_after (h : s.InStep source)
    (hunbroken : isLexical (call.answer limit s) = false) : (call.after limit s).InStep source := by
  rcases after_cases limit call s with ⟨-, hleads⟩ | ⟨fault, s₁, hanswer, hlexical, -⟩
  · exact h.leads hleads
  · rw [hanswer, isLexical, hlexical] at hunbroken
    cases hunbroken

theorem inStep_afterAll (h : s.InStep source) (hunbroken : Unbroken limit calls s) :
    (afterAll limit calls s).InStep source := by
  induction calls generalizing s with
  | nil => exact h
  | cons call calls ih =>
    rw [unbroken_cons] at hunbroken
    exact ih (inStep_after h hunbroken.1) hunbroken.2

theorem stands_after (h : s.InStep source ∨ s.CutOff source) :
    (call.after limit s).InStep source ∨ (call.after limit s).CutOff source := by
  rcases after_cases limit call s with ⟨-, hleads⟩ | ⟨fault, s₁, -, hlexical, hleads, hfailed⟩
  · rcases h with h | h
    · exact .inl (h.leads hleads)
    · exact .inr (h.leads hleads)
  · rcases h with h | h
    · exact .inr ((h.leads hleads).cutOff hfailed hlexical).1
    · exact absurd hfailed ((h.leads hleads).not_failed hlexical)

/-- Wherever calls lead, the parser is in step with the source or cut off from it. -/
theorem stands_afterAll (h : s.InStep source ∨ s.CutOff source) :
    (afterAll limit calls s).InStep source ∨ (afterAll limit calls s).CutOff source := by
  induction calls generalizing s with
  | nil => exact h
  | cons call calls ih => exact ih (stands_after h)

theorem length_ahead_after_le (limit : Nat) (call : ParserCall) (s : ParserState) :
    (call.after limit s).ahead.length ≤ s.ahead.length := by
  rcases after_cases limit call s with ⟨-, hleads⟩ | ⟨fault, s₁, -, hlexical, hleads, hfailed⟩
  · exact length_ahead_le_of_leads hleads
  · rw [length_ahead_of_failed hfailed hlexical]
    exact length_ahead_le_of_leads hleads

theorem tokensBehind_le (limit : Nat) (calls : List ParserCall) (s : ParserState) :
    s.tokensBehind source ≤ (afterAll limit calls s).tokensBehind source := by
  induction calls generalizing s with
  | nil => exact Nat.le_refl _
  | cons call calls ih =>
    have hlen := length_ahead_after_le limit call s
    exact Nat.le_trans (Nat.sub_le_sub_left hlen _) (ih _)

theorem after_of_eof (hs : s.current.kind = .eof) : call.after limit s = s := by
  rcases after_cases limit call s with ⟨-, hleads⟩ | ⟨fault, s₁, -, hlexical, hleads, hfailed⟩
  · exact eq_of_leads hs hleads
  · obtain rfl := eq_of_leads hs hleads
    exact absurd hs (pull_of_failed hfailed hlexical).1

theorem afterAll_of_eof (hs : s.current.kind = .eof) : afterAll limit calls s = s := by
  induction calls with
  | nil => rfl
  | cons call calls ih => rw [afterAll_cons, after_of_eof hs, ih]

/-- A call that meets a faulty lexeme leaves the last token before it ahead, and behind this token
the source ends. -/
theorem cutOff_after {fault : Fault} (h : s.InStep source ∨ s.CutOff source)
    (hanswer : call.answer limit s = .error fault) (hlexical : fault.cause.isLexical = true) :
    ∃ k s₁ s₂, call.after limit s = s₁ ∧
      (Cursor.ofSource source).pullAll[k]? = some (.token s₁.current) ∧
      (Cursor.ofSource source).pullAll[k + 1]? = some (.failed fault) ∧
      Parsing.advance s₁ = .ok () s₂ ∧ s₂.current = ⟨.eof, none, source.length⟩ := by
  rcases after_cases limit call s with ⟨hnot, -⟩ | ⟨fault', s₁, hanswer', -, hleads, hfailed⟩
  · rw [hanswer, isLexical, hlexical] at hnot
    cases hnot
  rw [hanswer] at hanswer'
  cases hanswer'
  rcases h with h | h
  · obtain ⟨hcut, hs, tokens, hentries⟩ := (h.leads hleads).cutOff hfailed hlexical
    obtain ⟨s₂, hadvance, hs₂⟩ := hcut.advance_eq hs
    refine ⟨tokens.length, _, s₂, rfl, ?_, ?_, hadvance, hs₂⟩
    · simp [hentries]
    · simp [hentries]
  · exact absurd hfailed ((h.leads hleads).not_failed hlexical)

theorem expect_of_ne {kind : TokenKind} (hs : s.current.kind ≠ kind) :
    (expect kind).answer limit s = .error ⟨.expected kind s.current, some s.current.position⟩ ∧
      (expect kind).after limit s = s := by
  have hstep : (expect kind).step limit s =
      .error ⟨.expected kind s.current, some s.current.position⟩ s := by
    change ((if s.current.kind = kind then Parsing.advance else Parsing.fail _) >>= _ :
      Parsing (Option Expr)) s = _
    rw [if_neg hs]
    rfl
  simp [answer, after, result, hstep]

theorem advance_of_eof (hs : s.current.kind = .eof) :
    advance.answer limit s = .error ⟨.noMoreTokens, some s.current.position⟩ := by
  simp [answer, step, result, bind, EStateM.bind, Parsing.advance_of_eof hs]

/-- Wherever calls lead from the beginning of a source, the token ahead is the next one of the
source, or its end, and no token is seen again.  The cursor stands right behind the token ahead, as
long as no faulty lexeme is met.  What is not expected is not taken, and at the end nothing changes
any more; a faulty lexeme leaves the token before it ahead, behind which the source then ends.  Two
sequences of calls that have met no faulty lexeme and have the same column ahead cannot be told
apart by further calls. -/
theorem calls_keep_in_step (limit : Nat) (h : ParserState.ofSource source = .ok s)
    (calls : List ParserCall) (s₁ : ParserState) (hs₁ : afterAll limit calls s = s₁) :
    IsAhead source (s₁.tokensBehind source) s₁.current ∧
    (∀ more, s₁.tokensBehind source ≤ (afterAll limit more s₁).tokensBehind source) ∧
    (Unbroken limit calls s → s₁.cursor =
      Cursor.along source.toList (Cursor.lexemeEnd source.toList s₁.current.position)) ∧
    (∀ kind, s₁.current.kind ≠ kind →
      (expect kind).answer limit s₁ =
        .error ⟨.expected kind s₁.current, some s₁.current.position⟩ ∧
      (expect kind).after limit s₁ = s₁) ∧
    (s₁.current.kind = .eof →
      advance.answer limit s₁ = .error ⟨.noMoreTokens, some source.length⟩ ∧
      ∀ more, afterAll limit more s₁ = s₁) ∧
    (∀ call fault, answer limit call s₁ = .error fault → fault.cause.isLexical = true →
      ∃ k s₂ s₃, after limit call s₁ = s₂ ∧
        (Cursor.ofSource source).pullAll[k]? = some (.token s₂.current) ∧
        (Cursor.ofSource source).pullAll[k + 1]? = some (.failed fault) ∧
        Parsing.advance s₂ = .ok () s₃ ∧ s₃.current = ⟨.eof, none, source.length⟩) ∧
    ∀ calls' s₁', afterAll limit calls' s = s₁' → Unbroken limit calls s →
      Unbroken limit calls' s → s₁.current.position = s₁'.current.position →
      s₁ = s₁' ∧ ∀ more, answers limit more s₁ = answers limit more s₁' := by
  have hstart := inStep_of_ofSource h
  have hstands : s₁.InStep source ∨ s₁.CutOff source := hs₁ ▸ stands_afterAll (.inl hstart)
  refine ⟨hstands.elim InStep.isAhead CutOff.isAhead, fun more => tokensBehind_le limit more s₁,
    fun hunbroken => ?behind, fun kind => expect_of_ne, fun heof => ⟨?refused, ?stays⟩,
    fun call fault => cutOff_after hstands, ?same⟩
  case behind =>
    subst hs₁
    exact (inStep_afterAll hstart hunbroken).cursor_eq
  case refused =>
    have hplaced : s₁.current.position = source.length := by
      rcases hstands with h | h
      · rw [h.placed heof, h.length_eq]
      · rw [h.placed heof, h.length_eq]
    rw [advance_of_eof heof, hplaced]
  case stays => exact fun more => afterAll_of_eof heof
  case same =>
    intro calls' s₁' hs₁' hunbroken hunbroken' hposition
    subst hs₁ hs₁'
    have hsame := (inStep_afterAll hstart hunbroken).eq_of_position
      (inStep_afterAll hstart hunbroken') hposition
    exact ⟨hsame, fun more => by rw [hsame]⟩

/-- In `1 2` an expression that is read, and a token that is skipped after another one was
expected, both leave the second number ahead. -/
theorem calls_keep_in_step_second_number : ∃ s, ParserState.ofSource "1 2" = .ok s ∧
    answers 5 [.whole, .advance] (afterAll 5 [.expression 0] s) =
      answers 5 [.whole, .advance] (afterAll 5 [.expect .caret, .advance] s) := by
  have hstart : ParserState.ofSource "1 2" =
      .ok ⟨3, ⟨.num, some (.ofLiteral ['1']), 0⟩, ⟨[' ', '2'], 1⟩⟩ := rfl
  have hkeep := calls_keep_in_step 5 hstart [.expression 0] _ rfl
  have hsame := hkeep.2.2.2.2.2.2 [.expect .caret, .advance] _ rfl
  exact ⟨_, hstart, (hsame (by decide +kernel) (by decide +kernel) (by decide +kernel)).2 _⟩

end ParserCall

end InfixCalculator
