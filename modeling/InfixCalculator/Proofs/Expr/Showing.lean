import InfixCalculator.Proofs.Expr.Readability
import InfixCalculator.Proofs.Expr.Stacks

/-!
# Showing with two stacks

An expression is shown by a walk with a stack of pending nodes and a stack of texts.  The text that
the walk ends with is the one that recursion on the expression gives, where the text of an operand
decides whether a minus sign before it is followed by brackets.  The brackets of the text are
balanced, as the numbers have none and all others come in pairs.
-/

namespace InfixCalculator

namespace Tree

variable {Op Leaf α : Type}

/-- The reading as one in which a node might have a fault, but none has. -/
def Reading.faultless (reading : Reading Op Leaf α) : FallibleReading Op Leaf Empty α where
  leaf value := .ok (reading.leaf value)
  binary op left right := .ok (reading.binary op left right)
  negative := reading.negative

theorem foldExcept_faultless (reading : Reading Op Leaf α) (tree : Tree Op Leaf) :
    tree.foldExcept reading.faultless = .ok (tree.fold reading) := by
  induction tree with
  | leaf value => rfl
  | binary op left right ihl ihr =>
    rw [foldExcept, ihl, ihr]
    rfl
  | negative operand ih =>
    rw [foldExcept, ih]
    rfl

theorem turns_faultless (reading : Reading Op Leaf α) (tree : Tree Op Leaf) (n : Nat) :
    turns reading.faultless (tree.stepCount + n) ⟨[(tree, false)], []⟩ =
      .ok ⟨[], [tree.fold reading]⟩ := by
  rw [turns_visit_add, foldExcept_faultless, push_ok]
  exact turns_of_done _ n _

theorem exists_turns_faultless (reading : Reading Op Leaf α) (tree : Tree Op Leaf) (n : Nat) :
    ∃ s, turns reading.faultless n ⟨[(tree, false)], []⟩ = .ok s :=
  exists_turns_of_le _ (Nat.le_add_left n tree.stepCount) (turns_faultless reading tree n)

end Tree

namespace Text

/-- The brackets of a text are balanced: no front part closes more brackets than it opens, and the
whole text closes all that it opens. -/
structure Balanced (text : List Char) : Prop where
  front : ∀ front, front <+: text → front.count ')' ≤ front.count '('
  closed : text.count ')' = text.count '('

variable {text more : List Char}

theorem balanced_of_notMem (hopening : '(' ∉ text) (hclosing : ')' ∉ text) : Balanced text where
  front front hfront := by
    rw [List.count_eq_zero.2 fun hc => hclosing (hfront.subset hc)]
    exact Nat.zero_le _
  closed := by rw [List.count_eq_zero.2 hclosing, List.count_eq_zero.2 hopening]

theorem Balanced.append (h : Balanced text) (hmore : Balanced more) : Balanced (text ++ more) where
  front front hfront := by
    rcases List.prefix_or_prefix_of_prefix hfront (List.prefix_append text more) with
      hinside | ⟨behind, rfl⟩
    · exact h.front front hinside
    · have hbehind := hmore.front behind ((List.prefix_append_right_inj text).1 hfront)
      rw [List.count_append, List.count_append, h.closed]
      exact Nat.add_le_add_left hbehind _
  closed := by rw [List.count_append, List.count_append, h.closed, hmore.closed]

theorem Balanced.bracketed (h : Balanced text) : Balanced ('(' :: (text ++ [')'])) where
  front front hfront := by
    rcases List.prefix_cons_iff.1 hfront with rfl | ⟨inside, rfl, hinside⟩
    · simp
    rcases List.prefix_concat_iff.1 hinside with rfl | hinside
    · simp [h.closed]
    · rw [List.count_cons_of_ne (by decide), List.count_cons_self]
      exact Nat.le_succ_of_le (h.front inside hinside)
  closed := by simp [h.closed]

end Text

open Text

theorem Binary64.balanced_textChars (x : Binary64) : Balanced x.textChars := by
  have hmagnitude (m : Magnitude) : Balanced (DecimalLayout.plain.writeMagnitude m) :=
    balanced_of_notMem (fun hc => (m.numeral_writeMagnitude.apart _ hc).2.1 rfl)
      fun hc => (m.numeral_writeMagnitude.apart _ hc).2.2 rfl
  cases x with
  | nan => exact balanced_of_notMem (by decide) (by decide)
  | signed negative m =>
    cases negative with
    | false => exact hmagnitude m
    | true =>
      have hsign : Balanced ['-'] := balanced_of_notMem (by decide) (by decide)
      exact hsign.append (hmagnitude m)

namespace Expr

/-- The text of an expression by recursion: a number by its text, a binary node in brackets with its
operator between blanks, and a minus sign before the text of an operand, which is put in brackets if
it starts with a minus sign itself. -/
def written : Expr → String
  | .leaf x => x.text
  | .binary op left right => "(" ++ written left ++ " " ++ op.symbol ++ " " ++ written right ++ ")"
  | .negative operand =>
    if (written operand).startsWith '-' then "-(" ++ written operand ++ ")"
    else "-" ++ written operand

theorem fold_showing (e : Expr) : e.fold showing = e.written := by
  induction e with
  | leaf x => rfl
  | binary op left right ihl ihr =>
    rw [Tree.fold, ihl, ihr, written]
    rfl
  | negative operand ih =>
    rw [Tree.fold, ih, written]
    rfl

theorem balanced_chars (e : Expr) : Balanced e.chars := by
  induction e with
  | leaf x =>
    rw [chars_leaf]
    exact x.balanced_textChars
  | binary op left right ihl ihr =>
    have hbetween : Balanced (' ' :: (op.symbol.toList ++ [' '])) := by
      cases op <;> exact balanced_of_notMem (by decide) (by decide)
    rw [chars_binary]
    simpa using ((ihl.append hbetween).append ihr).bracketed
  | negative operand ih =>
    have hsign : Balanced ['-'] := balanced_of_notMem (by decide) (by decide)
    rw [chars_negative]
    split
    · exact hsign.append ih.bracketed
    · exact hsign.append ih

/-- Showing with stacks is recursion.  On top of any stacks, the turns for an expression push its
text and leave the rest as it is.  From the expression alone the walk never finds too few texts, and
it ends with one, which is what the recursion gives; its brackets are balanced. -/
theorem showing_by_stacks (e : Expr) :
    e.render = e.written ∧
    (∀ steps texts, Tree.run showing (.visit e :: steps) texts =
      Tree.run showing steps (e.written :: texts)) ∧
    Tree.run showing [.visit e] [] = some [e.written] ∧
    (∀ pending texts,
      Tree.turns showing.faultless e.stepCount ⟨(e, false) :: pending, texts⟩ =
        .ok ⟨pending, e.written :: texts⟩) ∧
    (∀ n, ∃ s, Tree.turns showing.faultless n ⟨[(e, false)], []⟩ = .ok s) ∧
    (∀ n, Tree.turns showing.faultless (e.stepCount + n) ⟨[(e, false)], []⟩ =
      .ok ⟨[], [e.written]⟩) ∧
    Tree.loop showing.faultless ⟨[(e, false)], []⟩ = .ok e.written ∧
    Balanced e.render.toList := by
  refine ⟨?render, fun steps texts => ?walk, ?walkAlone, fun pending texts => ?turns,
    Tree.exists_turns_faultless showing e, fun n => ?done, ?loop, e.balanced_chars⟩
  case render => rw [render_eq_fold, fold_showing]
  case walk => rw [Tree.run_visit, fold_showing]
  case walkAlone => rw [Tree.run_visit_nil, fold_showing]
  case turns => rw [Tree.turns_visit, Tree.foldExcept_faultless, fold_showing, Tree.push_ok]
  case done => rw [Tree.turns_faultless, fold_showing]
  case loop =>
    rw [Tree.loop_visit, Tree.foldExcept_faultless, fold_showing]
    rfl

/-- The text of the operand decides: a negative number is wrapped, though it is no negation. -/
example : render (.negative (.leaf (.signed true .one))) = "-(-1.0)" := by decide +kernel

end Expr

end InfixCalculator
