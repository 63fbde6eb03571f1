import InfixCalculator.Proofs.Expr.Levels
import InfixCalculator.Proofs.Grammar.Reading
import InfixCalculator.Proofs.Parser.ConsumedTokens
import InfixCalculator.Proofs.Parser.Nesting

/-!
# Depth of what is read

Every token adds at most one level to the tree that is read.  In a chain of operators of one
precedence each operator takes all that stands before it as its left operand and one number as its
right operand, so each of them adds a level, and the tree is as deep as the chain has numbers.
-/

namespace InfixCalculator

open Grammar

theorem Spans.height_le_length {tokens : List Token} {e : Expr} (h : Spans tokens e) :
    e.height ≤ tokens.length := by
  induction h with
  | number => exact Nat.le_refl 1
  | negative _ _ ih =>
    simp only [Tree.height, List.length_cons]
    omega
  | bracketed _ _ _ ih =>
    simp only [List.length_cons, List.length_append]
    omega
  | implied _ _ _ _ _ ihinner ihfactor =>
    simp only [Tree.height, List.length_cons, List.length_append] at ihfactor ⊢
    omega
  | binary _ _ _ ihfirst ihsecond =>
    simp only [Tree.height, List.length_cons, List.length_append]
    omega

theorem Tree.height_binary_leaf {Op Leaf : Type} (op : Op) (left : Tree Op Leaf) (value : Leaf) :
    (binary op left (leaf value)).height = left.height + 1 := by
  have hpos := left.height_pos
  rw [height, height]
  omega

namespace Grammar

variable {layer : Layer} {tokens rest : List Token} {number : Token}

/-- The operators among the tokens are of one precedence. -/
def OfPrecedence (p : Nat) (tokens : List Token) : Prop :=
  ∀ t ∈ tokens, t.kind.operator?.isSome → t.precedence = p

theorem OfPrecedence.exists_layer {p : Nat} (h : OfPrecedence p tokens) :
    ∃ layer : Layer, OfPrecedence layer.precedence tokens := by
  by_cases hany : ∃ t ∈ tokens, t.kind.operator?.isSome
  · obtain ⟨t, ht, hsome⟩ := hany
    obtain ⟨op, hop⟩ := Option.isSome_iff_exists.1 hsome
    obtain ⟨layer, hlayer⟩ := Layer.exists_of_operator? hop
    have hprec : layer.precedence = p :=
      (Layer.precedence_of_operator? hlayer).2.symm.trans (h t ht hsome)
    exact ⟨layer, hprec ▸ h⟩
  · exact ⟨.sum, fun t ht hsome => absurd ⟨t, ht, hsome⟩ hany⟩

theorem reads_operand_of_num (literal : number.kind = .num)
    (hrest : ∀ t ∈ rest.head?, t.precedence = layer.precedence) :
    Reads layer.operand (number :: rest) (.leaf number.number) rest := by
  refine (Reads.number literal).operand_of_unary fun tighter htighter t ht => ?_
  have hprec : t.kind.precedence = layer.precedence := hrest t ht
  exact Layer.operator?_eq_none (by omega)

/-- A chain of a layer begins with a number.  What a repetition reads behind it adds a level for
each of the other numbers to what it starts with. -/
theorem exists_reads_repetition (hchain : IsChain tokens)
    (hlayer : OfPrecedence layer.precedence tokens) :
    ∃ number rest, Reads layer.operand tokens (.leaf number) rest ∧
      ∀ left, ∃ e, Reads (.repetition layer left) rest e [] ∧
        e.height + 1 = left.height + numberCount tokens := by
  induction hchain with
  | @single number literal =>
    refine ⟨_, [], reads_operand_of_num literal (by simp), fun left => ⟨left, .stop (by simp), ?_⟩⟩
    rw [numberCount_cons_num literal, numberCount_nil]
  | @link number operator tokens literal binary more ih =>
    obtain ⟨op, hop⟩ := Option.isSome_iff_exists.1 binary
    have hprec : operator.precedence = layer.precedence := hlayer operator (by simp) binary
    obtain ⟨next, rest, hnext, hrest⟩ := ih fun t ht => hlayer t (by simp [ht])
    refine ⟨_, operator :: tokens, reads_operand_of_num literal (by simpa using hprec),
      fun left => ?_⟩
    obtain ⟨e, he, hheight⟩ := hrest (.binary op left (.leaf next))
    refine ⟨e, .fold (Layer.operator?_of_precedence hop hprec) hnext he, ?_⟩
    rw [hheight, Tree.height_binary_leaf, numberCount_cons_num literal,
      numberCount_cons_of_ne (Token.kind_ne_num_of_operator? hop)]
    omega

/-- A chain of one precedence is read as a tree with a level for each of its numbers. -/
theorem exists_reads_of_chain {p : Nat} (hchain : IsChain tokens) (hprec : OfPrecedence p tokens) :
    ∃ e, Reads (.chain .sum) tokens e [] ∧ e.height = numberCount tokens := by
  obtain ⟨layer, hlayer⟩ := hprec.exists_layer
  obtain ⟨number, rest, hnumber, hrest⟩ := exists_reads_repetition hchain hlayer
  obtain ⟨e, he, hheight⟩ := hrest (.leaf number)
  refine ⟨e, (Reads.chain hnumber he).sum_of_chain (by simp), ?_⟩
  rw [Tree.height] at hheight
  omega

end Grammar

namespace Expr

variable {limit : Nat} {source : String} {e : Expr}

theorem exists_depth_le (h : parseWithin limit source = .ok e) :
    ∃ tokens, Spells source tokens ∧ e.depth ≤ tokens.length := by
  obtain ⟨tokens, hspells, hspans⟩ := spans_of_parseWithin h
  exact ⟨tokens, hspells, e.depth_eq_height ▸ hspans.height_le_length⟩

theorem depth_of_chain {tokens : List Token} {p : Nat} (hspells : Spells source tokens)
    (hchain : IsChain tokens) (hprec : OfPrecedence p tokens)
    (h : parseWithin limit source = .ok e) : e.depth = numberCount tokens := by
  obtain ⟨e', he', hheight⟩ := exists_reads_of_chain hchain hprec
  have heq : parseWithin limit source = .ok e' := parseWithin_of_reads hspells he' (by simp [h])
  obtain rfl : e' = e := by simpa [heq] using h
  rw [Tree.depth_eq_height, hheight]

/-- The depth of an expression is its height, in whatever order its nodes are visited.  While a node
is pending a walk can go on; no walk makes more visits than there are nodes or meets a level deeper
than the height, and where nothing is pending it has made them all and met the height.  Taking the
topmost node each time is one of these walks.  A chain of operators of one precedence is read as a
tree that is as deep as the chain has numbers, and no tree is deeper than its source has tokens. -/
theorem depth_of_every_walk :
    (∀ e : Expr, e.depth = e.height ∧
      Tree.Survey.Visits e.nodeCount (.start e) ⟨[], e.depth⟩ ∧
      ∀ n s, Tree.Survey.Visits n (.start e) s →
        n ≤ e.nodeCount ∧ s.deepest ≤ e.height ∧
        (s.pending ≠ [] → ∃ s', Tree.Survey.Visit s s') ∧
        (s.pending = [] → n = e.nodeCount ∧ s.deepest = e.height)) ∧
    (∀ limit source tokens p e, Spells source tokens → IsChain tokens → OfPrecedence p tokens →
      parseWithin limit source = .ok e → e.depth = numberCount tokens) ∧
    ∀ limit source e, parseWithin limit source = .ok e →
      ∃ tokens, Spells source tokens ∧ e.depth ≤ tokens.length := by
  refine ⟨fun e => ⟨e.depth_eq_height, e.visits_depth, fun n s hvisits => ?_⟩,
    fun _ _ _ _ _ => depth_of_chain, fun _ _ _ => exists_depth_le⟩
  obtain ⟨hcount, hdeepest, hdone⟩ := hvisits.of_start
  exact ⟨hcount, hdeepest, Tree.Survey.exists_visit, hdone⟩

/-- The tree of `-1+2` with the number that is negated visited last, a chain of powers, and brackets
that add no level. -/
theorem depth_of_every_walk_power_chain :
    let sum : Expr := .binary .add (.negative (.leaf .one)) (.leaf (.ofLiteral ['2']))
    let chain : Expr := .binary .power (.binary .power (.leaf (.ofLiteral ['2']))
      (.leaf (.ofLiteral ['3']))) (.leaf (.ofLiteral ['2']))
    let wrapped : Expr := .negative (.leaf (.ofLiteral ['2']))
    (Tree.Survey.Visits 4 (.start sum) ⟨[], 3⟩ ∧ 4 = sum.nodeCount ∧ 3 = sum.height) ∧
    (parseWithin 4 "2^3^2" = .ok chain ∧ chain.depth = 3) ∧
    parseWithin 20 "-((2))" = .ok wrapped ∧
      ∃ tokens, Spells "-((2))" tokens ∧ wrapped.depth ≤ tokens.length := by
  intro sum chain wrapped
  obtain ⟨hwalks, hchains, hsources⟩ := depth_of_every_walk
  have hvisits : Tree.Survey.Visits 4 (.start sum) ⟨[], 3⟩ :=
    .step (.visit (.refl _) (.refl _)) (.step (.visit (.refl _) (.refl _))
      (.step (.visit (.swap _ _ _) (.refl _)) (.step (.visit (.refl _) (.refl _)) (.refl _))))
  let tokens : List Token := [⟨.num, some (.ofLiteral ['2']), 0⟩, ⟨.caret, none, 1⟩,
    ⟨.num, some (.ofLiteral ['3']), 2⟩, ⟨.caret, none, 3⟩, ⟨.num, some (.ofLiteral ['2']), 4⟩]
  have hspells : Spells "2^3^2" tokens := rfl
  have hprec : OfPrecedence Precedence.power tokens := by
    simp [tokens, OfPrecedence, TokenKind.operator?, Token.precedence, TokenKind.precedence]
  have hchain : parseWithin 4 "2^3^2" = .ok chain := by decide +kernel
  have hwrapped : parseWithin 20 "-((2))" = .ok wrapped := by decide +kernel
  refine ⟨⟨hvisits, ((hwalks sum).2.2 4 _ hvisits).2.2.2 rfl⟩, ⟨hchain, ?_⟩, hwrapped,
    hsources 20 _ wrapped hwrapped⟩
  have hlinks : IsChain tokens := .link rfl rfl (.link rfl rfl (.single rfl))
  exact hchains 4 _ tokens _ chain hspells hlinks hprec hchain

end Expr

end InfixCalculator
