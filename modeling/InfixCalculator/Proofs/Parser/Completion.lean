import InfixCalculator.Proofs.Grammar.Climbing
import InfixCalculator.Proofs.Parser.SharedTokens
import InfixCalculator.Proofs.Parser.Thresholds
import InfixCalculator.Proofs.Token.Concatenation

/-!
# Completing a reading

Whatever has been read without a fault can be completed: by a number, if an operand is due, and by
a closing bracket for every bracket that is open.  Signs, implied products and pending operators ask
for nothing more.
-/

namespace InfixCalculator

open Relation Parsing

namespace CallStack

def openBrackets (c : CallStack) : Nat := c.callers.countP (·.awaited = .bracketed)

/-- The kinds of the tokens that complete a reading. -/
def completion (c : CallStack) : List TokenKind :=
  (if c.stage = .operand then [.num] else []) ++ List.replicate c.openBrackets .rightParen

def completionText (c : CallStack) : List Char :=
  (if c.stage = .operand then ['1'] else []) ++ List.replicate c.openBrackets ')'

end CallStack

namespace Cursor

theorem pullAll_closings (k position : Nat) :
    ∃ tokens : List Token,
      pullAll ⟨List.replicate k ')', position⟩ = tokens.map .token ++ [.exhausted] ∧
      tokens.map Token.kind = List.replicate k .rightParen := by
  induction k generalizing position with
  | zero => exact ⟨[], rfl, rfl⟩
  | succ k ih =>
    obtain ⟨tokens, htokens, hkinds⟩ := ih (position + 1)
    refine ⟨⟨.rightParen, none, position⟩ :: tokens, ?_, ?_⟩
    · rw [List.replicate_succ, pullAll_of_symbol rfl, htokens]
      rfl
    · rw [List.map_cons, hkinds, List.replicate_succ]

theorem pullAll_completionText (c : CallStack) (position : Nat) :
    ∃ tokens : List Token,
      pullAll ⟨c.completionText, position⟩ = tokens.map .token ++ [.exhausted] ∧
      tokens.map Token.kind = c.completion := by
  unfold CallStack.completionText CallStack.completion
  by_cases hoperand : c.stage = .operand
  · obtain ⟨tokens, htokens, hkinds⟩ := pullAll_closings c.openBrackets (position + 1)
    have htake : (List.replicate c.openBrackets ')').takeWhile continuesNumber = [] := by
      cases c.openBrackets <;> rfl
    have hdrop : (List.replicate c.openBrackets ')').dropWhile continuesNumber =
        List.replicate c.openBrackets ')' := by
      cases c.openBrackets <;> rfl
    refine ⟨⟨.num, some (.ofLiteral ['1']), position⟩ :: tokens, ?_, ?_⟩
    · rw [if_pos hoperand, List.singleton_append, pullAll_of_number rfl (by rw [htake]; decide),
        htake, hdrop, List.length_singleton, htokens]
      rfl
    · rw [if_pos hoperand, List.map_cons, hkinds, List.singleton_append]
  · rw [if_neg hoperand, if_neg hoperand]
    exact pullAll_closings c.openBrackets position

end Cursor

namespace Moment

variable {s : ParserState} {n : Int} {callers : List WaitingCall} {tokens : List Token}
  {limit : Nat} {m m' : Moment} {r : Except Fault Expr}

/-- From the moment the reading succeeds, with no more than `limit` live calls. -/
def Succeeds (limit : Nat) (m : Moment) : Prop :=
  ∃ m' e, ReflTransGen (NextWithin limit) m m' ∧ m'.EndsWith (.ok e)

theorem Succeeds.head (h : Next m m') (hlive : m'.liveCalls ≤ limit) (hm' : m'.Succeeds limit) :
    m.Succeeds limit := by
  obtain ⟨m₁, e, hm₁, hend⟩ := hm'
  exact ⟨m₁, e, .head ⟨h, hlive⟩ hm₁, hend⟩

theorem current_of_closings {k : Nat} (hs : s.Lists tokens)
    (hkinds : tokens.map Token.kind = List.replicate k .rightParen) :
    s.current.kind = .rightParen ∨ s.current.kind = .eof := by
  cases tokens with
  | nil => exact .inr hs.current_of_nil
  | cons t tokens =>
    obtain ⟨rfl, -⟩ := hs.current_of_cons
    have hmem : s.current.kind ∈ List.replicate k .rightParen := by simp [← hkinds]
    exact .inl (List.eq_of_mem_replicate hmem)

theorem exists_advance_of_cons {t : Token} (hs : s.Lists (t :: tokens)) :
    ∃ s', advance s = .ok () s' ∧ s'.Lists tokens := by
  obtain ⟨rfl, heof⟩ := hs.current_of_cons
  obtain ⟨s', hs', -⟩ := exists_advance heof (hs.not_failed heof)
  exact ⟨s', hs', hs.tail ((advance_ends heof).of_ok hs')⟩

theorem act_of_closings {k : Nat} (left : Expr) (hthresholds : CallStack.Thresholds n callers)
    (hs : s.Lists tokens) (hkinds : tokens.map Token.kind = List.replicate k .rightParen) :
    CallStack.act ⟨n, .operators left, callers⟩ s.current =
      CallStack.returned callers left s.current := by
  apply if_pos
  rcases current_of_closings hs hkinds with hkind | hkind
  · left
    rw [Token.precedence, hkind]
    exact (CallStack.length_le_of_thresholds hthresholds).1
  · exact .inr hkind

theorem act_behindBracket_of_closings {k : Nat} (inner : Expr) (hs : s.Lists tokens)
    (hkinds : tokens.map Token.kind = List.replicate k .rightParen) :
    CallStack.act ⟨n, .behindBracket inner, callers⟩ s.current =
      .turn ⟨n, .operators inner, callers⟩ := by
  apply if_neg
  rcases current_of_closings hs hkinds with hkind | hkind <;> simp [hkind]

/-- Closing brackets complete what waits behind an operand, one call after the other. -/
theorem succeeds_operators (left : Expr) (hthresholds : CallStack.Thresholds n callers)
    (hlimit : callers.length < limit) (hs : s.Lists tokens)
    (hkinds : tokens.map Token.kind =
      List.replicate (callers.countP (·.awaited = .bracketed)) .rightParen) :
    Succeeds limit ⟨⟨n, .operators left, callers⟩, s⟩ := by
  -- A caller takes one closing bracket if it waits for one, and otherwise returns before it.
  induction callers generalizing n left s tokens with
  | nil =>
    have hact := act_of_closings left hthresholds hs hkinds
    obtain rfl : tokens = [] := by simpa using hkinds
    exact ⟨_, left, .refl, .finish (hact.trans (if_pos hs.current_of_nil))⟩
  | cons caller callers ih =>
    obtain ⟨m, awaited⟩ := caller
    have hact := act_of_closings left hthresholds hs hkinds
    have hlive : callers.length + 1 ≤ limit := Nat.le_of_lt hlimit
    have hcaller (left : Expr) (hawaited : awaited ≠ .bracketed) :
        Succeeds limit ⟨⟨m, .operators left, callers⟩, s⟩ :=
      ih left hthresholds.2 hlive hs (by simpa [hawaited] using hkinds)
    cases awaited with
    | bracketed =>
      rw [List.countP_cons_of_pos (by simp), List.replicate_succ, List.map_eq_cons_iff] at hkinds
      obtain ⟨t, rest, rfl, ht, hrest⟩ := hkinds
      obtain ⟨rfl, -⟩ := hs.current_of_cons
      obtain ⟨s₁, hadvance, hs₁⟩ := exists_advance_of_cons hs
      refine .head (.read (hact.trans (if_pos ht)) hadvance) hlive ?_
      refine .head (.turn (act_behindBracket_of_closings left hs₁ hrest)) hlive ?_
      exact ih left hthresholds.2 hlive hs₁ hrest
    | negated => exact .head (.turn hact) hlive (hcaller _ (by simp))
    | factor left' => exact .head (.turn hact) hlive (hcaller _ (by simp))
    | rightOperand op left' => exact .head (.turn hact) hlive (hcaller _ (by simp))

/-- A reading is completed by the tokens that it asks for. -/
theorem succeeds_of_completion {c : CallStack}
    (hthresholds : CallStack.Thresholds c.threshold c.callers) (hlive : c.liveCalls ≤ limit)
    (hs : s.Lists tokens) (hkinds : tokens.map Token.kind = c.completion) :
    Succeeds limit ⟨c, s⟩ := by
  obtain ⟨n, stage, callers⟩ := c
  unfold CallStack.completion at hkinds
  cases stage with
  | operand =>
    rw [if_pos rfl, List.singleton_append, List.map_eq_cons_iff] at hkinds
    obtain ⟨t, rest, rfl, ht, hrest⟩ := hkinds
    obtain ⟨rfl, -⟩ := hs.current_of_cons
    obtain ⟨s₁, hadvance, hs₁⟩ := exists_advance_of_cons hs
    have hact : CallStack.act ⟨n, .operand, callers⟩ s.current =
        .read ⟨n, .operators (.leaf s.current.number), callers⟩ := by
      simp only [CallStack.act, ht]
    exact .head (.read hact hadvance) hlive (succeeds_operators _ hthresholds hlive hs₁ hrest)
  | behindBracket inner =>
    refine .head (.turn (act_behindBracket_of_closings inner hs hkinds)) hlive ?_
    exact succeeds_operators inner hthresholds hlive hs hkinds
  | operators left => exact succeeds_operators _ hthresholds hlive hs hkinds

end Moment

end InfixCalculator
