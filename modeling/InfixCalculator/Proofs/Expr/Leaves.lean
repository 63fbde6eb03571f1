import InfixCalculator.Expr.Tree

/-!
# Leaves of trees

The leaves of a tree are counted from left to right, from zero on.  `Tree.replaceLeaf` puts a tree
in the place of one leaf and keeps everything else; `Tree.bindLeaves` puts one in the place of every
leaf.
-/

namespace InfixCalculator.Tree

variable {Op Leaf : Type} {op : Op} {left right tree inserted : Tree Op Leaf} {i : Nat}

def leafCount : Tree Op Leaf → Nat
  | leaf _ => 1
  | binary _ left right => left.leafCount + right.leafCount
  | negative operand => operand.leafCount

/-- The tree with its leaf number `i` replaced; without such a leaf the tree stays as it is. -/
def replaceLeaf : Tree Op Leaf → Nat → Tree Op Leaf → Tree Op Leaf
  | leaf value, i, inserted => if i = 0 then inserted else leaf value
  | binary op left right, i, inserted =>
    if i < left.leafCount then binary op (left.replaceLeaf i inserted) right
    else binary op left (right.replaceLeaf (i - left.leafCount) inserted)
  | negative operand, i, inserted => negative (operand.replaceLeaf i inserted)

theorem replaceLeaf_of_lt (h : i < left.leafCount) :
    (binary op left right).replaceLeaf i inserted = binary op (left.replaceLeaf i inserted) right :=
  if_pos h

theorem replaceLeaf_add (op : Op) (left right inserted : Tree Op Leaf) (i : Nat) :
    (binary op left right).replaceLeaf (left.leafCount + i) inserted =
      binary op left (right.replaceLeaf i inserted) := by
  rw [replaceLeaf, if_neg (by omega), Nat.add_sub_cancel_left]

/-! ## All leaves -/

/-- The tree with every leaf replaced by a tree for its value. -/
def bindLeaves (f : Leaf → Tree Op Leaf) : Tree Op Leaf → Tree Op Leaf
  | leaf value => f value
  | binary op left right => binary op (left.bindLeaves f) (right.bindLeaves f)
  | negative operand => negative (operand.bindLeaves f)

def AllLeaves (p : Leaf → Prop) : Tree Op Leaf → Prop
  | leaf value => p value
  | binary _ left right => left.AllLeaves p ∧ right.AllLeaves p
  | negative operand => operand.AllLeaves p

theorem bindLeaves_eq_self {f : Leaf → Tree Op Leaf}
    (h : tree.AllLeaves fun value => f value = leaf value) : tree.bindLeaves f = tree := by
  induction tree with
  | leaf value => exact h
  | binary op left right ihl ihr => rw [bindLeaves, ihl h.1, ihr h.2]
  | negative operand ih => rw [bindLeaves, ih h]

/-- A reading that takes every inserted tree for the leaf that it replaces. -/
theorem fold_bindLeaves {α : Type} {reading : Reading Op Leaf α} {f : Leaf → Tree Op Leaf}
    (h : ∀ value, (f value).fold reading = reading.leaf value) (tree : Tree Op Leaf) :
    (tree.bindLeaves f).fold reading = tree.fold reading := by
  induction tree with
  | leaf value => exact h value
  | binary op left right ihl ihr => rw [bindLeaves, fold, ihl, ihr, fold]
  | negative operand ih => rw [bindLeaves, fold, ih, fold]

theorem AllLeaves.imp {p q : Leaf → Prop} (h : tree.AllLeaves p)
    (hpq : ∀ value, p value → q value) : tree.AllLeaves q := by
  induction tree with
  | leaf value => exact hpq value h
  | binary op left right ihl ihr => exact ⟨ihl h.1, ihr h.2⟩
  | negative operand ih => exact ih h

end InfixCalculator.Tree
