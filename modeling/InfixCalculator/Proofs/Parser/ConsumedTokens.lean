import Mathlib.Data.List.Basic
import InfixCalculator.Proofs.Expr.InOrder
import InfixCalculator.Proofs.Grammar.Climbing

/-!
# What the parser makes of the tokens it consumes

A reading that succeeds has consumed exactly the tokens of the expression that it gives, whatever
its threshold and wherever it starts.  So no operand and no operator is lost, taken twice or put in
another place.
-/

namespace InfixCalculator

open Token

namespace ParserState.Reaches

variable {s s' : ParserState} {tokens tokens' : List Token}

theorem exists_cons (h : s.Reaches tokens s') (hne : tokens ≠ []) :
    ∃ rest, tokens = s.current :: rest := by
  cases h with
  | refl => exact absurd rfl hne
  | step => exact ⟨_, rfl⟩

theorem unique (h : s.Reaches tokens s') (h' : s.Reaches tokens' s') : tokens' = tokens := by
  have heq := h'.ahead_eq.symm.trans h.ahead_eq
  have hpulls := List.append_cancel_right heq
  exact List.map_injective_iff.2 (fun _ _ ht => Pull.token.inj ht) hpulls

end ParserState.Reaches

namespace Parsing

variable {s : ParserState} {limit : Nat} {n : Int} {nested : Int → Parsing Expr}

/-- From `s` on, tokens were consumed that span the expression. -/
def Consumes (s : ParserState) (e : Expr) (s' : ParserState) : Prop :=
  ∃ tokens, s.Reaches tokens s' ∧ Spans tokens e

theorem operand_consumes (ih : ∀ n s, Ends (nested n) s (Consumes s) fun _ _ => True) :
    Ends (operand nested) s (Consumes s) fun _ _ => True := by
  refine ends_operand ?negative ?number ?bracket (by simp) (by simp) (by simp)
  case negative =>
    intro hk s₁ hs₁
    refine (ih _ s₁).mono ?_ fun _ _ => id
    rintro e s₂ ⟨tokens, hreach, hspans⟩
    exact ⟨_, .step (by simp [hk]) hs₁ hreach, .negative hk hspans⟩
  case number =>
    intro hk s₁ hs₁
    exact ⟨_, .step (by simp [hk]) hs₁ (.refl s₁), .number hk⟩
  case bracket =>
    intro hk s₁ hs₁
    refine (ih _ s₁).mono ?_ fun _ _ => id
    rintro inner s₂ ⟨tokens, hreach, hspans⟩
    apply ends_expect (by simp) _ (by simp) (by simp)
    intro hk₂ s₃ hs₃
    have hopening : s.Reaches (s.current :: tokens) s₂ := .step (by simp [hk]) hs₁ hreach
    have hclosing : s₂.Reaches [s₂.current] s₃ := .step (by simp [hk₂]) hs₃ (.refl s₃)
    constructor
    · intro hk₃
      refine (ih _ s₃).mono ?_ fun _ _ => id
      rintro right s₄ ⟨more, hreach₄, hspans₄⟩
      obtain ⟨rest, rfl⟩ := hreach₄.exists_cons hspans₄.ne_nil
      refine ⟨_, (hopening.trans hclosing).trans hreach₄, ?_⟩
      simpa using Spans.implied hk hspans hk₂ hk₃ hspans₄
    · intro _
      exact ⟨_, hopening.trans hclosing, .bracketed hk hspans hk₂⟩

theorem expression_consumes (limit : Nat) (n : Int) (s : ParserState) :
    Ends (expression limit n) s (Consumes s) fun _ _ => True := by
  induction limit generalizing n s with
  | zero => trivial
  | succ limit ih =>
    rw [expression_succ, ends_bind]
    refine (operand_consumes ih).mono ?_ fun _ _ => id
    intro left s₁ hs₁
    -- The left operand that grows in the loop spans all the tokens that were consumed so far.
    refine ends_fold (Consumes s) (fun _ _ h _ => h) (by simp) (by simp) ?_ hs₁
    rintro left s₂ ⟨tokens, hreach, hspans⟩ _ op hop s₃ hs₃
    refine (ih _ s₃).mono ?_ fun _ _ => id
    rintro right s₄ ⟨more, hreach₄, hspans₄⟩
    have hstep := ParserState.Reaches.step (TokenKind.ne_eof_of_operator? hop) hs₃ hreach₄
    exact ⟨_, hreach.trans hstep, .binary hspans hop hspans₄⟩

end Parsing

namespace Expr

variable {limit : Nat} {source : String} {e : Expr}

theorem spans_of_parseWithin (h : parseWithin limit source = .ok e) :
    ∃ tokens, Spells source tokens ∧ Spans tokens e := by
  rcases parseWithin_cases limit source with ⟨s, hs, heq⟩ | ⟨-, heq⟩ | ⟨fault, -, heq⟩
  · obtain ⟨s', hs'⟩ := Parsing.result_eq_ok.1 (heq.symm.trans h)
    obtain ⟨hexpr, heof⟩ := Parsing.expression_of_whole hs'
    obtain ⟨tokens, hreach, hspans⟩ := (Parsing.expression_consumes limit _ s).of_ok hexpr
    refine ⟨tokens, ?_, hspans⟩
    rw [Spells, ← hs.ahead_eq, hreach.ahead_eq, ParserState.ahead_of_eof heof]
  · simp [heq] at h
  · simp [heq] at h

/-- No operand and no operator is lost, taken twice or put in another place.  A reading that
succeeds, with any threshold and from any state, has consumed tokens that without their brackets,
and with the products that are implied, are the expression read from left to right.  The leaves of
an accepted source are its number literals in order, its negations are as many as its signs, and its
binary nodes as many as its operators and implied products. -/
theorem reading_keeps_order (limit : Nat) :
    (∀ s n e s', Parsing.expression limit n s = .ok e s' →
      ∃ tokens, s.Reaches tokens s' ∧ (∀ tokens', s.Reaches tokens' s' → tokens' = tokens) ∧
        e.inOrder = unbracketed tokens) ∧
    ∀ source e, parseWithin limit source = .ok e →
      ∃ tokens, Spells source tokens ∧ e.inOrder = unbracketed tokens ∧
        e.leaves = literals tokens ∧ e.negativeCount = signCount tokens ∧
        e.binaryCount = operatorCount tokens + impliedCount tokens := by
  constructor
  · intro s n e s' h
    obtain ⟨tokens, hreach, hspans⟩ := (Parsing.expression_consumes limit n s).of_ok h
    have haccounts := hspans.accounts none rfl
    exact ⟨tokens, hreach, fun _ h' => hreach.unique h', haccounts.items_eq.symm⟩
  · intro source e h
    obtain ⟨tokens, hspells, hspans⟩ := spans_of_parseWithin h
    obtain ⟨hitems, hsigns, hoperators⟩ := hspans.accounts none rfl
    exact ⟨tokens, hspells, hitems.symm, hspans.literals_eq.symm, hsigns.symm, hoperators.symm⟩

/-- In `1-(-2)(3)` the first minus sign is an operator and the second one a sign, and a product is
implied between the brackets; so it is, too, if reading starts there with a negative threshold. -/
theorem reading_keeps_order_implied :
    (∃ tokens, Spells "1-(-2)(3)" tokens ∧
      unbracketed tokens = [.number .one, .operator .subtract, .operator .subtract,
        .number (.ofLiteral ['2']), .operator .multiply, .number (.ofLiteral ['3'])] ∧
      literals tokens = [.one, .ofLiteral ['2'], .ofLiteral ['3']] ∧
      signCount tokens = 1 ∧ operatorCount tokens + impliedCount tokens = 2) ∧
    ∃ s' tokens, ParserState.Reaches ⟨7, ⟨.leftParen, none, 0⟩, ⟨['-', '2', ')', '(', '3', ')'], 1⟩⟩
        tokens s' ∧
      unbracketed tokens = [.operator .subtract, .number (.ofLiteral ['2']), .operator .multiply,
        .number (.ofLiteral ['3'])] := by
  constructor
  · obtain ⟨tokens, hspells, hitems, hleaves, hsigns, hoperators⟩ :=
      (reading_keeps_order 20).2 "1-(-2)(3)" (.binary .subtract (.leaf .one)
        (.binary .multiply (.negative (.leaf (.ofLiteral ['2']))) (.leaf (.ofLiteral ['3']))))
        (by decide +kernel)
    exact ⟨tokens, hspells, hitems.symm, hleaves.symm, hsigns.symm, hoperators.symm⟩
  · obtain ⟨tokens, hreach, -, hitems⟩ := (reading_keeps_order 20).1
      ⟨7, ⟨.leftParen, none, 0⟩, ⟨['-', '2', ')', '(', '3', ')'], 1⟩⟩ (-1)
      (.binary .multiply (.negative (.leaf (.ofLiteral ['2']))) (.leaf (.ofLiteral ['3'])))
      ⟨7, ⟨.eof, none, 7⟩, ⟨[], 7⟩⟩ (by decide +kernel)
    exact ⟨_, tokens, hreach, hitems.symm⟩

end Expr

end InfixCalculator
