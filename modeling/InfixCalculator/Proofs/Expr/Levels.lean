import InfixCalculator.Expr.Depth

/-!
# Depth in any order

The depth of a tree is found by visiting its nodes, each with its level, and keeping the deepest
level met so far.  `Survey.Visit` says what one visit does if any pending node may come next and its
children may be put anywhere among the others.  `Survey.found`, the level that the walk would find
from there on, is the same after every visit, and one node less is left.  So all walks of a tree end
after as many visits as it has nodes, and find its height.
-/

namespace InfixCalculator.Tree

variable {Op Leaf : Type}

def children : Tree Op Leaf → List (Tree Op Leaf)
  | leaf _ => []
  | binary _ left right => [left, right]
  | negative operand => [operand]

def childrenBelow (tree : Tree Op Leaf) (level : Nat) : List (Tree Op Leaf × Nat) :=
  tree.children.map (·, level + 1)

/-- The nodes that are pending, each with its level, and the deepest level met so far. -/
structure Survey (Op Leaf : Type) where
  pending : List (Tree Op Leaf × Nat)
  deepest : Nat

section Order

variable {pending pending' : List (Tree Op Leaf × Nat)}

/-- The order in which nodes are pending does not matter. -/
theorem deepestLevel_perm (h : pending.Perm pending') (deepest : Nat) :
    deepestLevel pending deepest = deepestLevel pending' deepest := by
  induction h generalizing deepest with
  | nil => rfl
  | cons node _ ih => rw [deepestLevel_cons, deepestLevel_cons, ih]
  | swap node node' pending =>
    obtain ⟨tree, level⟩ := node
    obtain ⟨tree', level'⟩ := node'
    simp only [deepestLevel_cons, Nat.max_right_comm]
  | trans _ _ ih ih' => rw [ih, ih']

theorem deepestLevel_visit (tree : Tree Op Leaf) (level : Nat)
    (pending : List (Tree Op Leaf × Nat)) (deepest : Nat) :
    deepestLevel ((tree, level) :: pending) deepest =
      deepestLevel (tree.childrenBelow level ++ pending) (max deepest level) := by
  cases tree with
  | leaf value =>
    rw [deepestLevel]
    rfl
  | binary op left right =>
    -- `deepestLevel` takes the right child first.
    rw [deepestLevel]
    exact deepestLevel_perm (.swap _ _ _) _
  | negative operand =>
    rw [deepestLevel]
    rfl

theorem le_deepestLevel (pending : List (Tree Op Leaf × Nat)) (deepest : Nat) :
    deepest ≤ deepestLevel pending deepest := by
  induction pending generalizing deepest with
  | nil => exact Nat.le_of_eq (by rw [deepestLevel])
  | cons node pending ih =>
    rw [deepestLevel_cons]
    exact Nat.le_trans (Nat.le_max_left _ _) (ih _)

theorem nodeCountAll_perm (h : pending.Perm pending') :
    nodeCountAll pending = nodeCountAll pending' := by
  induction h with
  | nil => rfl
  | cons node _ ih => rw [nodeCountAll, nodeCountAll, ih]
  | swap node node' pending => simp only [nodeCountAll, Nat.add_left_comm]
  | trans _ _ ih ih' => rw [ih, ih']

theorem nodeCountAll_visit (tree : Tree Op Leaf) (level : Nat)
    (pending : List (Tree Op Leaf × Nat)) :
    nodeCountAll ((tree, level) :: pending) =
      nodeCountAll (tree.childrenBelow level ++ pending) + 1 := by
  cases tree <;> simp only [childrenBelow, children, List.map_nil, List.map_cons, List.nil_append,
    List.cons_append, nodeCountAll, nodeCount] <;> omega

end Order

namespace Survey

variable {s s' : Survey Op Leaf} {n : Nat}

def start (tree : Tree Op Leaf) : Survey Op Leaf := ⟨[(tree, 1)], 0⟩

/-- One visit takes any of the pending nodes, and its children join the others in any order. -/
inductive Visit : Survey Op Leaf → Survey Op Leaf → Prop
  | visit {tree : Tree Op Leaf} {level deepest : Nat}
      {pending others pending' : List (Tree Op Leaf × Nat)}
      (taken : pending.Perm ((tree, level) :: others))
      (joined : pending'.Perm (tree.childrenBelow level ++ others)) :
      Visit ⟨pending, deepest⟩ ⟨pending', max deepest level⟩

inductive Visits : Nat → Survey Op Leaf → Survey Op Leaf → Prop
  | refl (s : Survey Op Leaf) : Visits 0 s s
  | step {n : Nat} {s s' s'' : Survey Op Leaf} (first : Visit s s') (more : Visits n s' s'') :
      Visits (n + 1) s s''

def found (s : Survey Op Leaf) : Nat := deepestLevel s.pending s.deepest

def remaining (s : Survey Op Leaf) : Nat := nodeCountAll s.pending

theorem found_start (tree : Tree Op Leaf) : (start tree).found = tree.height :=
  tree.depth_eq_height

theorem remaining_start (tree : Tree Op Leaf) : (start tree).remaining = tree.nodeCount :=
  Nat.add_zero _

theorem deepest_le_found (s : Survey Op Leaf) : s.deepest ≤ s.found := le_deepestLevel _ _

theorem remaining_eq_zero_iff : s.remaining = 0 ↔ s.pending = [] := by
  obtain ⟨_ | ⟨⟨tree, level⟩, pending⟩, deepest⟩ := s
  · simp [remaining, nodeCountAll]
  · simp [remaining, nodeCountAll_visit]

theorem found_of_pending (h : s.pending = []) : s.found = s.deepest := by
  rw [found, h, deepestLevel]

theorem Visit.found_eq (h : Visit s s') : s'.found = s.found := by
  cases h with
  | visit taken joined =>
    rw [found, deepestLevel_perm joined, ← deepestLevel_visit, found, deepestLevel_perm taken]

theorem Visit.remaining_eq (h : Visit s s') : s'.remaining + 1 = s.remaining := by
  cases h with
  | visit taken joined =>
    rw [remaining, nodeCountAll_perm joined, ← nodeCountAll_visit, remaining,
      nodeCountAll_perm taken]

theorem Visits.found_eq (h : Visits n s s') : s'.found = s.found := by
  induction h with
  | refl => rfl
  | step first _ ih => rw [ih, first.found_eq]

theorem Visits.remaining_eq (h : Visits n s s') : s'.remaining + n = s.remaining := by
  induction h with
  | refl => rfl
  | step first _ ih =>
    have hfirst := first.remaining_eq
    omega

theorem exists_visit (h : s.pending ≠ []) : ∃ s', Visit s s' := by
  obtain ⟨pending, deepest⟩ := s
  obtain ⟨⟨tree, level⟩, others, rfl⟩ := List.exists_cons_of_ne_nil h
  exact ⟨_, .visit (.refl _) (.refl _)⟩

/-- The walk that takes the topmost node each time is one of them. -/
theorem visits_deepestLevel (pending : List (Tree Op Leaf × Nat)) (deepest : Nat) :
    Visits (nodeCountAll pending) ⟨pending, deepest⟩ ⟨[], deepestLevel pending deepest⟩ := by
  fun_induction deepestLevel pending deepest with
  | case1 deepest => exact .refl _
  | case2 value level pending deepest ih =>
    rw [nodeCountAll_visit]
    exact .step (.visit (.refl _) (.refl _)) ih
  | case3 op left right level pending deepest ih =>
    have hswap : ((right, level + 1) :: (left, level + 1) :: pending).Perm
        ((binary op left right).childrenBelow level ++ pending) := .swap _ _ _
    rw [nodeCountAll_visit, ← nodeCountAll_perm hswap]
    exact .step (.visit (.refl _) hswap) ih
  | case4 operand level pending deepest ih =>
    rw [nodeCountAll_visit]
    exact .step (.visit (.refl _) (.refl _)) ih

/-- In whatever order nodes are visited, a walk makes no more visits than the tree has nodes and
meets no level deeper than its height.  Where nothing is pending it has visited all nodes, and the
deepest level is the height. -/
theorem Visits.of_start {tree : Tree Op Leaf} (h : Visits n (start tree) s) :
    n ≤ tree.nodeCount ∧ s.deepest ≤ tree.height ∧
      (s.pending = [] → n = tree.nodeCount ∧ s.deepest = tree.height) := by
  have hremaining : s.remaining + n = tree.nodeCount := h.remaining_eq.trans (remaining_start tree)
  have hfound : s.found = tree.height := h.found_eq.trans (found_start tree)
  refine ⟨hremaining ▸ Nat.le_add_left n _, hfound ▸ s.deepest_le_found, fun hpending => ⟨?_, ?_⟩⟩
  · rwa [remaining_eq_zero_iff.2 hpending, Nat.zero_add] at hremaining
  · rwa [found_of_pending hpending] at hfound

end Survey

theorem visits_depth (tree : Tree Op Leaf) :
    Survey.Visits tree.nodeCount (.start tree) ⟨[], tree.depth⟩ :=
  Survey.visits_deepestLevel [(tree, 1)] 0

end InfixCalculator.Tree
