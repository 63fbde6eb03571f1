import InfixCalculator.Expr.Tree

/-!
# Depth of trees

The depth of a tree is the number of nodes on its longest path from the root to a leaf.
`Tree.height` says so by recursion; `Tree.depth` finds it in one pass over the nodes, each taken
from a list together with its level.
-/

namespace InfixCalculator.Tree

variable {Op Leaf : Type}

/-- The number of nodes on the longest path from the root to a leaf. -/
def height : Tree Op Leaf → Nat
  | leaf _ => 1
  | binary _ left right => 1 + max left.height right.height
  | negative operand => 1 + operand.height

def nodeCount : Tree Op Leaf → Nat
  | leaf _ => 1
  | binary _ left right => left.nodeCount + right.nodeCount + 1
  | negative operand => operand.nodeCount + 1

def nodeCountAll : List (Tree Op Leaf × Nat) → Nat
  | [] => 0
  | (tree, _) :: trees => tree.nodeCount + nodeCountAll trees

/-- The deepest level among `deepest` and the nodes of the pending trees, each given with the level
of its root. -/
def deepestLevel : List (Tree Op Leaf × Nat) → Nat → Nat
  | [], deepest => deepest
  | (leaf _, level) :: pending, deepest => deepestLevel pending (max deepest level)
  | (binary _ left right, level) :: pending, deepest =>
    deepestLevel ((right, level + 1) :: (left, level + 1) :: pending) (max deepest level)
  | (negative operand, level) :: pending, deepest =>
    deepestLevel ((operand, level + 1) :: pending) (max deepest level)
termination_by pending => nodeCountAll pending
decreasing_by all_goals simp only [nodeCountAll, nodeCount]; omega

def depth (tree : Tree Op Leaf) : Nat := deepestLevel [(tree, 1)] 0

theorem height_pos (tree : Tree Op Leaf) : 0 < tree.height := by
  cases tree <;> simp only [height] <;> omega

/-- A pending tree takes the deepest level to that of its own deepest node. -/
theorem deepestLevel_cons (tree : Tree Op Leaf) (level : Nat) (pending : List (Tree Op Leaf × Nat))
    (deepest : Nat) :
    deepestLevel ((tree, level) :: pending) deepest
      = deepestLevel pending (max deepest (level + tree.height - 1)) := by
  induction tree generalizing level pending deepest with
  | leaf value => simp [deepestLevel, height]
  | binary op left right ihl ihr =>
    have := left.height_pos
    have := right.height_pos
    rw [deepestLevel, ihr, ihl, height]
    congr 1
    omega
  | negative operand ih =>
    have := operand.height_pos
    rw [deepestLevel, ih, height]
    congr 1
    omega

theorem depth_eq_height (tree : Tree Op Leaf) : tree.depth = tree.height := by
  have := tree.height_pos
  rw [depth, deepestLevel_cons, deepestLevel]
  omega

end InfixCalculator.Tree
