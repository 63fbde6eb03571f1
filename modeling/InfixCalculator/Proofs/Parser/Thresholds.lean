import InfixCalculator.Proofs.Parser.Moments

/-!
# The thresholds of live calls

A call for the right operand of an operator has a higher threshold than its caller, and there are
four thresholds at most.  Only a call that opens a level may begin lower.  So between two openings
of a level there are four calls at most.
-/

namespace InfixCalculator

open Relation Parsing

/-- A call with threshold `n` that waits for what is awaited has made a call with threshold `m`. -/
def Awaited.Sets (n m : Int) : Awaited → Prop
  | negated => m = Precedence.negation
  | bracketed => m = Precedence.lowest
  | factor _ => m = Precedence.product
  | rightOperand _ _ => n < m ∧ m ≤ Precedence.power

namespace CallStack

def Thresholds : Int → List WaitingCall → Prop
  | n, [] => n = Precedence.lowest
  | n, caller :: callers =>
    caller.awaited.Sets caller.threshold n ∧ Thresholds caller.threshold callers

/-- Every level that is opened starts at a threshold of its own, the highest of them, a sign, with
one call and no operators; behind all others the thresholds count the calls. -/
theorem length_le_of_thresholds {n : Int} {callers : List WaitingCall} (h : Thresholds n callers) :
    0 ≤ n ∧ n ≤ 4 ∧ (callers.length : Int) + 1 ≤
      4 * callers.countP (·.awaited.opensLevel) + if n = 4 then 1 else n + 1 := by
  induction callers generalizing n with
  | nil =>
    obtain rfl : n = 0 := h
    simp
  | cons caller callers ih =>
    obtain ⟨m, awaited⟩ := caller
    obtain ⟨hsets, hcallers⟩ := h
    obtain ⟨hlow, hhigh, hlen⟩ := ih hcallers
    -- Only a right operand leaves the level as it is, and its threshold is higher.
    cases awaited with
    | negated =>
      obtain rfl : n = 4 := hsets
      grind [Awaited.opensLevel]
    | bracketed =>
      obtain rfl : n = 0 := hsets
      grind [Awaited.opensLevel]
    | factor left =>
      obtain rfl : n = 2 := hsets
      grind [Awaited.opensLevel]
    | rightOperand op left =>
      obtain ⟨hlt, hle⟩ : m < n ∧ n ≤ 3 := hsets
      grind [Awaited.opensLevel]

theorem liveCalls_le {c : CallStack} (h : Thresholds c.threshold c.callers) :
    c.liveCalls ≤ 4 * (c.openLevels + 1) := by
  have hlen := length_le_of_thresholds h
  unfold liveCalls openLevels
  split at hlen <;> omega

theorem precedence_le_power (kind : TokenKind) : kind.precedence ≤ Precedence.power := by
  cases kind <;> decide

theorem thresholds_of_act {c c' : CallStack} {t : Token}
    (h : Thresholds c.threshold c.callers) (hact : c.act t = .read c' ∨ c.act t = .turn c') :
    Thresholds c'.threshold c'.callers := by
  have hpower : (t.precedence : Int) ≤ Precedence.power := by
    exact_mod_cast precedence_le_power t.kind
  obtain ⟨n, stage, callers⟩ := c
  unfold act returned at hact
  cases stage with
  | operand => grind [Thresholds, Awaited.Sets]
  | behindBracket inner => grind [Thresholds, Awaited.Sets]
  | operators left => grind [Thresholds, Awaited.Sets]

end CallStack

namespace Moment

variable {m m' : Moment} {s : ParserState}

theorem act_of_next (h : Next m m') :
    m.calls.act m.state.current = .read m'.calls ∨
      m.calls.act m.state.current = .turn m'.calls := by
  cases h with
  | read act advanced => exact .inl act
  | turn act => exact .inr act

theorem thresholds (h : ReflTransGen Next (first s) m) :
    CallStack.Thresholds m.calls.threshold m.calls.callers := by
  induction h with
  | refl => rfl
  | tail _ hnext ih => exact CallStack.thresholds_of_act ih (act_of_next hnext)

/-- At every moment the open levels bound the live calls. -/
theorem liveCalls_le (h : ReflTransGen Next (first s) m) :
    m.liveCalls ≤ 4 * (m.openLevels + 1) :=
  CallStack.liveCalls_le (thresholds h)

end Moment

end InfixCalculator
