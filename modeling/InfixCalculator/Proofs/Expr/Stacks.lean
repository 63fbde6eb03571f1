import InfixCalculator.Expr.Tree

/-!
# Walks with two stacks

A walk over a tree keeps a stack of pending nodes, each with a mark that says whether its children
are done, and a stack of results.  Every turn takes the topmost node.  A node whose children are not
done is put back with the mark, below its children; all other nodes take the results of their
children and push their own.  A node may have no result: then its fault is raised and the walk
stops.

`Tree.turns_visit` says what the turns for one subtree do to the stacks, whatever lies on them, and
`Tree.loop_visit` that the walk gives what `Tree.foldExcept` gives by recursion.
-/

namespace InfixCalculator.Tree

variable {Op Leaf ε α : Type}

/-- How a tree is read bottom-up when a node may have a fault in place of a result. -/
structure FallibleReading (Op Leaf ε α : Type) where
  leaf : Leaf → Except ε α
  binary : Op → α → α → Except ε α
  negative : α → α

/-- The result of a reading by recursion on the tree.  The left child is read before the right one,
and both before their node, so the first fault in this order is the one that counts. -/
def foldExcept (reading : FallibleReading Op Leaf ε α) : Tree Op Leaf → Except ε α
  | leaf value => reading.leaf value
  | binary op left right => do
    let x ← left.foldExcept reading
    let y ← right.foldExcept reading
    reading.binary op x y
  | negative operand => do
    let x ← operand.foldExcept reading
    return reading.negative x

/-- The two stacks of a walk, the topmost entries first. -/
structure Stacks (Op Leaf α : Type) where
  pending : List (Tree Op Leaf × Bool)
  results : List α

inductive Halt (ε : Type) where
  | raised (fault : ε)
  | underflow
  deriving DecidableEq, Repr

def push (pending : List (Tree Op Leaf × Bool)) (results : List α) :
    Except ε α → Except (Halt ε) (Stacks Op Leaf α)
  | .ok x => .ok ⟨pending, x :: results⟩
  | .error fault => .error (.raised fault)

/-- Takes the topmost node, if there is one.  The right result lies above the left one. -/
def turn (reading : FallibleReading Op Leaf ε α) :
    Stacks Op Leaf α → Except (Halt ε) (Stacks Op Leaf α)
  | ⟨[], results⟩ => .ok ⟨[], results⟩
  | ⟨(leaf value, _) :: pending, results⟩ => push pending results (reading.leaf value)
  | ⟨(binary op left right, false) :: pending, results⟩ =>
    .ok ⟨(left, false) :: (right, false) :: (binary op left right, true) :: pending, results⟩
  | ⟨(binary op _ _, true) :: pending, right :: left :: results⟩ =>
    push pending results (reading.binary op left right)
  | ⟨(binary _ _ _, true) :: _, _⟩ => .error .underflow
  | ⟨(negative operand, false) :: pending, results⟩ =>
    .ok ⟨(operand, false) :: (negative operand, true) :: pending, results⟩
  | ⟨(negative _, true) :: pending, operand :: results⟩ =>
    .ok ⟨pending, reading.negative operand :: results⟩
  | ⟨(negative _, true) :: _, []⟩ => .error .underflow

def turns (reading : FallibleReading Op Leaf ε α) :
    Nat → Stacks Op Leaf α → Except (Halt ε) (Stacks Op Leaf α)
  | 0, s => .ok s
  | n + 1, s => turn reading s >>= turns reading n

def turnCount : List (Tree Op Leaf × Bool) → Nat
  | [] => 0
  | (tree, false) :: pending => tree.stepCount + turnCount pending
  | (_, true) :: pending => 1 + turnCount pending

theorem stepCount_pos (tree : Tree Op Leaf) : 0 < tree.stepCount := by
  cases tree <;> simp [stepCount]

theorem push_ok (pending : List (Tree Op Leaf × Bool)) (results : List α) (x : α) :
    push pending results (.ok x : Except ε α) = .ok ⟨pending, x :: results⟩ := rfl

theorem pending_of_push {pending : List (Tree Op Leaf × Bool)} {results : List α}
    {r : Except ε α} {s : Stacks Op Leaf α} (h : push pending results r = .ok s) :
    s.pending = pending := by
  cases r with
  | ok x =>
    cases h
    rfl
  | error fault => cases h

theorem pending_of_turn {reading : FallibleReading Op Leaf ε α} {node : Tree Op Leaf × Bool}
    {pending : List (Tree Op Leaf × Bool)} {results : List α} {s : Stacks Op Leaf α}
    (h : turn reading ⟨node :: pending, results⟩ = .ok s) :
    s.pending = pending ∨
      (∃ op left right, node = (binary op left right, false) ∧
        s.pending = (left, false) :: (right, false) :: (binary op left right, true) :: pending) ∨
      ∃ operand, node = (negative operand, false) ∧
        s.pending = (operand, false) :: (negative operand, true) :: pending := by
  obtain ⟨tree, childrenDone⟩ := node
  cases tree with
  | leaf value => exact .inl (pending_of_push h)
  | binary op left right =>
    cases childrenDone with
    | false =>
      cases h
      exact .inr (.inl ⟨op, left, right, rfl, rfl⟩)
    | true =>
      match results, h with
      | _ :: _ :: _, h => exact .inl (pending_of_push h)
  | negative operand =>
    cases childrenDone with
    | false =>
      cases h
      exact .inr (.inr ⟨operand, rfl, rfl⟩)
    | true =>
      match results, h with
      | _ :: _, rfl => exact .inl rfl

theorem turnCount_lt {reading : FallibleReading Op Leaf ε α} {node : Tree Op Leaf × Bool}
    {pending : List (Tree Op Leaf × Bool)} {results : List α} {s : Stacks Op Leaf α}
    (h : turn reading ⟨node :: pending, results⟩ = .ok s) :
    turnCount s.pending < turnCount (node :: pending) := by
  rcases pending_of_turn h with heq | ⟨op, left, right, rfl, heq⟩ | ⟨operand, rfl, heq⟩
  · obtain ⟨tree, _ | _⟩ := node
    · have hpos := tree.stepCount_pos
      rw [heq, turnCount]
      omega
    · rw [heq, turnCount]
      omega
  · simp only [heq, turnCount, stepCount]
    omega
  · simp only [heq, turnCount, stepCount]
    omega

/-- Takes nodes until none is pending.  The topmost result is then that of the walk. -/
def loop (reading : FallibleReading Op Leaf ε α) : Stacks Op Leaf α → Except (Halt ε) α
  | ⟨[], []⟩ => .error .underflow
  | ⟨[], x :: _⟩ => .ok x
  | ⟨node :: pending, results⟩ =>
    match _taken : turn reading ⟨node :: pending, results⟩ with
    | .ok s => loop reading s
    | .error halt => .error halt
termination_by s => turnCount s.pending
decreasing_by exact turnCount_lt _taken

section Turns

variable (reading : FallibleReading Op Leaf ε α)

theorem turns_succ_of_ok {n : Nat} {s s' : Stacks Op Leaf α} (h : turn reading s = .ok s') :
    turns reading (n + 1) s = turns reading n s' := by
  rw [turns, h]
  rfl

/-- The turns for a subtree push its result and leave what else is on the stacks as it is; if it
has no result then they raise its fault. -/
theorem turns_visit_add (tree : Tree Op Leaf) (n : Nat) (pending : List (Tree Op Leaf × Bool))
    (results : List α) :
    turns reading (tree.stepCount + n) ⟨(tree, false) :: pending, results⟩ =
      push pending results (tree.foldExcept reading) >>= turns reading n := by
  -- The right child is read above the result of the left one, so the stacks have to vary.
  induction tree generalizing n pending results with
  | leaf value =>
    rw [stepCount, Nat.add_comm]
    rfl
  | binary op left right ihl ihr =>
    have hcount : (binary op left right).stepCount + n =
        left.stepCount + (right.stepCount + (n + 1)) + 1 := by
      rw [stepCount]
      omega
    rw [hcount, turns_succ_of_ok reading rfl, ihl, foldExcept]
    cases left.foldExcept reading with
    | error fault => rfl
    | ok x =>
      rw [push_ok]
      refine (ihr (n + 1) _ _).trans ?_
      cases right.foldExcept reading with
      | error fault => rfl
      | ok y => rfl
  | negative operand ih =>
    have hcount : (negative operand).stepCount + n = operand.stepCount + (n + 1) + 1 := by
      rw [stepCount]
      omega
    rw [hcount, turns_succ_of_ok reading rfl, ih, foldExcept]
    cases operand.foldExcept reading with
    | error fault => rfl
    | ok x => rfl

theorem turns_visit (tree : Tree Op Leaf) (pending : List (Tree Op Leaf × Bool))
    (results : List α) :
    turns reading tree.stepCount ⟨(tree, false) :: pending, results⟩ =
      push pending results (tree.foldExcept reading) := by
  rw [← Nat.add_zero tree.stepCount, turns_visit_add]
  cases tree.foldExcept reading <;> rfl

theorem turns_add (m n : Nat) (s : Stacks Op Leaf α) :
    turns reading (m + n) s = turns reading m s >>= turns reading n := by
  induction m generalizing s with
  | zero =>
    rw [Nat.zero_add]
    rfl
  | succ m ih =>
    rw [Nat.add_right_comm, turns, turns, bind_assoc]
    congr 1
    funext s'
    exact ih s'

theorem turns_of_done (n : Nat) (results : List α) :
    turns reading n (⟨[], results⟩ : Stacks Op Leaf α) = .ok ⟨[], results⟩ := by
  induction n with
  | zero => rfl
  | succ n ih => exact (turns_succ_of_ok reading rfl).trans ih

theorem exists_turns_of_le {m n : Nat} {s s' : Stacks Op Leaf α} (hle : m ≤ n)
    (h : turns reading n s = .ok s') : ∃ s₁, turns reading m s = .ok s₁ := by
  obtain ⟨k, rfl⟩ := Nat.exists_eq_add_of_le hle
  rw [turns_add] at h
  cases hm : turns reading m s with
  | ok s₁ => exact ⟨s₁, rfl⟩
  | error halt =>
    rw [hm] at h
    cases h

theorem loop_eq_turn (s : Stacks Op Leaf α) : loop reading s = turn reading s >>= loop reading := by
  obtain ⟨_ | ⟨node, pending⟩, results⟩ := s
  · rfl
  · rw [loop]
    split
    · next s hs => rw [hs]; rfl
    · next halt hhalt => rw [hhalt]; rfl

theorem loop_eq_turns (n : Nat) (s : Stacks Op Leaf α) :
    loop reading s = turns reading n s >>= loop reading := by
  induction n generalizing s with
  | zero => rfl
  | succ n ih =>
    rw [loop_eq_turn, turns, bind_assoc]
    congr 1
    funext s'
    exact ih s'

/-- A walk from the root gives what the recursion gives. -/
theorem loop_visit (tree : Tree Op Leaf) :
    loop reading ⟨[(tree, false)], []⟩ = (tree.foldExcept reading).mapError .raised := by
  rw [loop_eq_turns reading tree.stepCount, turns_visit]
  cases tree.foldExcept reading with
  | ok x =>
    have hend : loop reading (⟨[], [x]⟩ : Stacks Op Leaf α) = .ok x := by rw [loop]
    exact hend
  | error fault => rfl

end Turns

end InfixCalculator.Tree
