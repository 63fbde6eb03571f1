/-!
# Operator trees

Trees with binary nodes, negations and leaves.  Every way of reading a tree bottom-up is given by a
`Tree.Reading`: what a leaf is, and how the results of the children of a node are joined.
`Tree.fold` reads a tree by recursion; `Tree.walk` computes the same without recursion, with a list
of pending steps and a stack of results, so that trees as deep as a long chain of operators are
read in constant space on the call stack.
-/

namespace InfixCalculator

inductive Tree (Op Leaf : Type) where
  | leaf (value : Leaf)
  | binary (op : Op) (left right : Tree Op Leaf)
  | negative (operand : Tree Op Leaf)
  deriving DecidableEq, Repr

namespace Tree

variable {Op Leaf α : Type}

/-- How a tree is read bottom-up. -/
structure Reading (Op Leaf α : Type) where
  leaf : Leaf → α
  binary : Op → α → α → α
  negative : α → α

/-- The result of a reading, by recursion on the tree. -/
def fold (reading : Reading Op Leaf α) : Tree Op Leaf → α
  | leaf value => reading.leaf value
  | binary op left right => reading.binary op (left.fold reading) (right.fold reading)
  | negative operand => reading.negative (operand.fold reading)

/-- A step that a walk has yet to take: read a subtree, or join the results on the stack. -/
inductive Step (Op Leaf : Type) where
  | visit (tree : Tree Op Leaf)
  | join (op : Op)
  | negate

/-- The number of steps that the walk of a tree takes. -/
def stepCount : Tree Op Leaf → Nat
  | leaf _ => 1
  | binary _ left right => left.stepCount + right.stepCount + 2
  | negative operand => operand.stepCount + 2

def Step.count : Step Op Leaf → Nat
  | visit tree => tree.stepCount
  | join _ => 1
  | negate => 1

def Step.countAll : List (Step Op Leaf) → Nat
  | [] => 0
  | step :: steps => step.count + countAll steps

/-- Takes the pending steps on a stack of results.  There is no answer if a step finds too few
results on the stack. -/
def run (reading : Reading Op Leaf α) : List (Step Op Leaf) → List α → Option (List α)
  | [], results => some results
  | .visit (leaf value) :: steps, results => run reading steps (reading.leaf value :: results)
  | .visit (binary op left right) :: steps, results =>
    run reading (.visit left :: .visit right :: .join op :: steps) results
  | .visit (negative operand) :: steps, results =>
    run reading (.visit operand :: .negate :: steps) results
  | .join op :: steps, right :: left :: results =>
    run reading steps (reading.binary op left right :: results)
  | .negate :: steps, operand :: results =>
    run reading steps (reading.negative operand :: results)
  | .join _ :: _, _ => none
  | .negate :: _, [] => none
termination_by steps => Step.countAll steps
decreasing_by all_goals simp only [Step.countAll, Step.count, stepCount]; omega

/-- Reading a subtree first leaves the other steps and results alone and pushes its result. -/
theorem run_visit (reading : Reading Op Leaf α) (tree : Tree Op Leaf)
    (steps : List (Step Op Leaf)) (results : List α) :
    run reading (.visit tree :: steps) results
      = run reading steps (tree.fold reading :: results) := by
  induction tree generalizing steps results with
  | leaf value => rw [run, fold]
  | binary op left right ihl ihr => rw [run, ihl, ihr, run, fold]
  | negative operand ih => rw [run, ih, run, fold]

theorem run_visit_nil (reading : Reading Op Leaf α) (tree : Tree Op Leaf) :
    run reading [.visit tree] [] = some [tree.fold reading] := by
  rw [run_visit, run]

/-- The result of a reading, by a walk over the tree. -/
def walk (reading : Reading Op Leaf α) (tree : Tree Op Leaf) : α :=
  ((run reading [.visit tree] []).get (by simp [run_visit_nil])).head (by simp [run_visit_nil])

theorem walk_eq_fold (reading : Reading Op Leaf α) (tree : Tree Op Leaf) :
    tree.walk reading = tree.fold reading := by
  simp [walk, run_visit_nil]

/-- Two trees have the same shape and operators, and leaves that are equal by `leaves`. -/
def equalsBy [DecidableEq Op] (leaves : Leaf → Leaf → Bool) :
    Tree Op Leaf → Tree Op Leaf → Bool
  | leaf a, leaf b => leaves a b
  | binary op left right, binary op' left' right' =>
    op = op' && left.equalsBy leaves left' && right.equalsBy leaves right'
  | negative operand, negative operand' => operand.equalsBy leaves operand'
  | _, _ => false

end Tree

end InfixCalculator
