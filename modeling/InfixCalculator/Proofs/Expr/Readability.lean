import InfixCalculator.Proofs.Decimal.Notation
import InfixCalculator.Proofs.Expr.Leaves
import InfixCalculator.Proofs.Parser.ConsumedTokens

/-!
# Unique readability

An expression without negative numbers can be told from its text, however its numbers are written
and also where the text would not be accepted as a source.  A minus sign with an opening bracket
behind it leaves open whether a binary node or a negation is negated, and an exponent has a sign of
its own; but what stands between two brackets ends with the bracket or goes on with a blank, so the
text of an operand is divided from what is behind it in one way only.
-/

namespace InfixCalculator

def Binary64.Unsigned (x : Binary64) : Prop := ∃ m, x = .signed false m

theorem BinaryOp.symbol_append_inj {op op' : BinaryOp} {rest rest' : List Char}
    (h : op.symbol.toList ++ rest = op'.symbol.toList ++ rest') : op = op' ∧ rest = rest' := by
  cases op <;> cases op' <;> simp_all [symbol]

namespace Expr

variable {t u e f : Expr} {rest rest' : List Char}

/-- No text of an expression goes on in what begins with a blank or a closing bracket. -/
def Closes (rest : List Char) : Prop := ∀ c ∈ rest.head?, c = ' ' ∨ c = ')'

theorem closes_blank (rest : List Char) : Closes (' ' :: rest) := by
  simp [Closes]

theorem closes_bracket (rest : List Char) : Closes (')' :: rest) := by
  simp [Closes]

def chars (e : Expr) : List Char := e.render.toList

theorem chars_leaf (x : Binary64) : chars (.leaf x) = x.textChars := by
  rw [chars, render_eq_fold]
  exact String.toList_ofList

theorem chars_binary (op : BinaryOp) (left right : Expr) :
    chars (.binary op left right) = '(' :: (left.chars ++
      ' ' :: (op.symbol.toList ++ ' ' :: (right.chars ++ [')']))) := by
  simp [chars, render_eq_fold, Tree.fold, showing]

theorem chars_negative (operand : Expr) :
    chars (.negative operand) = '-' :: if operand.chars.head? = some '-' then
      '(' :: (operand.chars ++ [')']) else operand.chars := by
  simp only [chars, render_eq_fold, Tree.fold, showing, negativeText,
    String.startsWith_char_eq_head?, beq_iff_eq]
  split <;> simp

/-! ## The first character -/

theorem exists_chars_leaf {x : Binary64} (h : x.Unsigned) :
    ∃ c, (chars (.leaf x)).head? = some c ∧ c ≠ '-' ∧ c ≠ '(' := by
  obtain ⟨m, rfl⟩ := h
  have hnumeral := m.numeral_writeMagnitude
  obtain ⟨c, hc, -⟩ := hnumeral.first
  obtain ⟨tail, htext⟩ := List.head?_eq_some_iff.1 hc
  rw [htext] at hnumeral
  rw [chars_leaf]
  exact ⟨c, hc, hnumeral.first_ne '-' rfl (by decide), hnumeral.first_ne '(' rfl (by decide)⟩

theorem head?_chars_binary (op : BinaryOp) (left right : Expr) :
    (chars (.binary op left right)).head? = some '(' := by
  rw [chars_binary, List.head?_cons]

theorem head?_chars_negative (operand : Expr) : (chars (.negative operand)).head? = some '-' := by
  rw [chars_negative, List.head?_cons]

theorem chars_ne_nil (h : e.AllLeaves Binary64.Unsigned) : e.chars ≠ [] := by
  cases e with
  | leaf x =>
    obtain ⟨c, hc, -⟩ := exists_chars_leaf h
    exact List.ne_nil_of_mem (List.mem_of_head? hc)
  | binary op left right => simp [chars_binary]
  | negative operand => simp [chars_negative]

theorem exists_binary (h : e.AllLeaves Binary64.Unsigned) (hfirst : e.chars.head? = some '(') :
    ∃ op left right, e = .binary op left right := by
  cases e with
  | leaf x =>
    obtain ⟨c, hc, -, hne⟩ := exists_chars_leaf h
    rw [hc] at hfirst
    exact absurd (Option.some.inj hfirst) hne
  | binary op left right => exact ⟨op, left, right, rfl⟩
  | negative operand => simp [head?_chars_negative] at hfirst

theorem exists_negative (h : e.AllLeaves Binary64.Unsigned) (hfirst : e.chars.head? = some '-') :
    ∃ operand : Expr, e = .negative operand := by
  cases e with
  | leaf x =>
    obtain ⟨c, hc, hne, -⟩ := exists_chars_leaf h
    rw [hc] at hfirst
    exact absurd (Option.some.inj hfirst) hne
  | binary op left right => simp [head?_chars_binary] at hfirst
  | negative operand => exact ⟨operand, rfl⟩

/-! ## Where a text ends -/

def withinNumber (c : Char) : Bool := c != ' ' && c != ')'

theorem split_numeral {text : List Char} (h : Numeral text) (hrest : Closes rest) :
    (text ++ rest).takeWhile withinNumber = text ∧
      (text ++ rest).dropWhile withinNumber = rest := by
  have hwithin : ∀ c ∈ text, withinNumber c = true := by
    intro c hc
    obtain ⟨hblank, -, hbracket⟩ := h.apart c hc
    simp [withinNumber, hblank, hbracket]
  have hbehind : rest.takeWhile withinNumber = [] ∧ rest.dropWhile withinNumber = rest := by
    cases rest with
    | nil => exact ⟨rfl, rfl⟩
    | cons c rest => rcases hrest c rfl with rfl | rfl <;> exact ⟨rfl, rfl⟩
  rw [List.takeWhile_append_of_pos hwithin, List.dropWhile_append_of_pos hwithin, hbehind.1,
    hbehind.2, List.append_nil]
  exact ⟨rfl, rfl⟩

/-- The text of the expression can be told from what is behind it. -/
def SelfDelimiting (t : Expr) : Prop :=
  ∀ u rest rest', u.AllLeaves Binary64.Unsigned → Closes rest → Closes rest' →
    t.chars ++ rest = u.chars ++ rest' → t = u ∧ rest = rest'

theorem head?_eq (ht : t.AllLeaves Binary64.Unsigned) (hu : u.AllLeaves Binary64.Unsigned)
    (h : t.chars ++ rest = u.chars ++ rest') : t.chars.head? = u.chars.head? := by
  have hhead := congrArg List.head? h
  rwa [List.head?_append_of_ne_nil _ (chars_ne_nil ht),
    List.head?_append_of_ne_nil _ (chars_ne_nil hu)] at hhead

theorem selfDelimiting_leaf {x : Binary64} (hx : x.Unsigned) : SelfDelimiting (.leaf x) := by
  intro u rest rest' hu hrest hrest' h
  obtain ⟨c, hc, hminus, hbracket⟩ := exists_chars_leaf hx
  have hfirst := head?_eq (t := .leaf x) hx hu h
  rw [hc] at hfirst
  cases u with
  | leaf y =>
    obtain ⟨m, rfl⟩ := hx
    obtain ⟨m', rfl⟩ := hu
    have hm := split_numeral m.numeral_writeMagnitude hrest
    have hm' := split_numeral m'.numeral_writeMagnitude hrest'
    rw [chars_leaf, chars_leaf] at h
    change DecimalLayout.plain.writeMagnitude m ++ rest =
      DecimalLayout.plain.writeMagnitude m' ++ rest' at h
    rw [h] at hm
    have htext : Binary64.text (.signed false m) = Binary64.text (.signed false m') :=
      congrArg String.ofList (hm.1.symm.trans hm'.1)
    exact ⟨congrArg _ (Binary64.text_injective htext), hm.2.symm.trans hm'.2⟩
  | binary op left right =>
    rw [head?_chars_binary] at hfirst
    exact absurd (Option.some.inj hfirst) hbracket
  | negative operand =>
    rw [head?_chars_negative] at hfirst
    exact absurd (Option.some.inj hfirst) hminus

theorem selfDelimiting_binary {op : BinaryOp} {left right : Expr}
    (ht : Tree.AllLeaves Binary64.Unsigned (.binary op left right))
    (hleft : SelfDelimiting left) (hright : SelfDelimiting right) :
    SelfDelimiting (.binary op left right) := by
  intro u rest rest' hu hrest hrest' h
  have hfirst := head?_eq ht hu h
  rw [head?_chars_binary] at hfirst
  obtain ⟨op', left', right', rfl⟩ := exists_binary hu hfirst.symm
  simp only [chars_binary, List.cons_append, List.append_assoc, List.cons.injEq, true_and] at h
  obtain ⟨rfl, hsymbol⟩ := hleft left' _ _ hu.1 (closes_blank _) (closes_blank _) h
  obtain ⟨rfl, hoperand⟩ := BinaryOp.symbol_append_inj (List.cons.inj hsymbol).2
  obtain ⟨rfl, hend⟩ := hright right' _ _ hu.2 (closes_bracket _) (closes_bracket _)
    (List.cons.inj hoperand).2
  exact ⟨rfl, (List.cons.inj hend).2⟩

/-- An expression in brackets of its own is not taken for the left operand of a binary node, behind
which there is a blank. -/
theorem SelfDelimiting.next_eq {c c' : Char} (h : SelfDelimiting e)
    (hf : f.AllLeaves Binary64.Unsigned) (hc : Closes (c :: rest)) (hc' : Closes (c' :: rest'))
    (heq : e.chars ++ c :: rest = f.chars ++ c' :: rest') : c = c' :=
  (List.cons.inj (h f _ _ hf hc hc' heq).2).1

/-- Behind an opening bracket with which a text begins stands the left operand of a binary node. -/
theorem exists_left {text : List Char} (hf : f.AllLeaves Binary64.Unsigned)
    (h : f.chars ++ rest = '(' :: text) : ∃ op left right behind,
      f = .binary op left right ∧ chars left ++ ' ' :: behind = text := by
  have hbracket := congrArg List.head? h
  rw [List.head?_append_of_ne_nil _ (chars_ne_nil hf)] at hbracket
  obtain ⟨op, left, right, rfl⟩ := exists_binary hf hbracket
  simp only [chars_binary, List.cons_append, List.append_assoc, List.cons.injEq, true_and] at h
  exact ⟨op, left, right, _, rfl, h⟩

theorem selfDelimiting_negative (he : e.AllLeaves Binary64.Unsigned) (h : SelfDelimiting e)
    (hleft : ∀ op left right, e = .binary op left right → SelfDelimiting left) :
    SelfDelimiting (.negative e) := by
  intro u rest rest' hu hrest hrest' heq
  have hfirst := head?_eq (t := .negative e) he hu heq
  rw [head?_chars_negative] at hfirst
  obtain ⟨f, rfl⟩ := exists_negative hu hfirst.symm
  have hf : f.AllLeaves Binary64.Unsigned := hu
  simp only [chars_negative, List.cons_append, List.cons.injEq, true_and] at heq
  -- Either operand may be put in brackets; where only one is, the other one would be a binary node.
  by_cases hwrap : e.chars.head? = some '-' <;> by_cases hwrap' : (chars f).head? = some '-'
  · rw [if_pos hwrap, if_pos hwrap'] at heq
    simp only [List.cons_append, List.append_assoc, List.cons.injEq, true_and] at heq
    obtain ⟨rfl, hend⟩ := h f _ _ hf (closes_bracket _) (closes_bracket _) heq
    exact ⟨rfl, (List.cons.inj hend).2⟩
  · rw [if_pos hwrap, if_neg hwrap'] at heq
    obtain ⟨op, left, right, behind, rfl, hinside⟩ := exists_left hf heq.symm
    rw [List.append_eq, List.append_assoc] at hinside
    have hnext := h.next_eq hf.1 (closes_bracket _) (closes_blank _) hinside.symm
    exact absurd hnext (by decide)
  · rw [if_neg hwrap, if_pos hwrap'] at heq
    obtain ⟨op, left, right, behind, rfl, hinside⟩ := exists_left he heq
    rw [List.append_eq, List.append_assoc] at hinside
    have hnext := (hleft op left right rfl).next_eq hf (closes_blank _) (closes_bracket _) hinside
    exact absurd hnext (by decide)
  · rw [if_neg hwrap, if_neg hwrap'] at heq
    obtain ⟨rfl, hend⟩ := h f _ _ hf hrest hrest' heq
    exact ⟨rfl, hend⟩

/-- The text of every expression without negative numbers can be told from what is behind it. -/
theorem selfDelimiting (h : t.AllLeaves Binary64.Unsigned) : SelfDelimiting t := by
  -- A negated binary node shares its bracket with a wrapped operand, so the induction has to give
  -- the left operand of the node, too.
  have hboth : SelfDelimiting t ∧
      ∀ op left right, t = .binary op left right → SelfDelimiting left := by
    induction t with
    | leaf x => exact ⟨selfDelimiting_leaf h, by simp⟩
    | binary op left right ihl ihr =>
      have hleft := (ihl h.1).1
      refine ⟨selfDelimiting_binary h hleft (ihr h.2).1, ?_⟩
      rintro _ _ _ ⟨⟩
      exact hleft
    | negative operand ih => exact ⟨selfDelimiting_negative h (ih h).1 (ih h).2, by simp⟩
  exact hboth.1

theorem render_injective (ht : t.AllLeaves Binary64.Unsigned)
    (hu : u.AllLeaves Binary64.Unsigned) (h : t.render = u.render) : t = u := by
  have hnil : Closes [] := by simp [Closes]
  exact (selfDelimiting ht u [] [] hu hnil hnil (by rw [chars, chars, h])).1

/-! ## The numbers of sources -/

theorem allLeaves_iff {p : Binary64 → Prop} : e.AllLeaves p ↔ ∀ x ∈ e.leaves, p x := by
  induction e with
  | leaf x => simp [Tree.AllLeaves, Tree.leaves]
  | binary op left right ihl ihr =>
    simp only [Tree.AllLeaves, Tree.leaves, List.forall_mem_append, ihl, ihr]
  | negative operand ih => exact ih

theorem unsigned_of_mem_literals {source : String} {tokens : List Token} {x : Binary64}
    (h : Spells source tokens) (hx : x ∈ Token.literals tokens) : x.Unsigned := by
  simp only [Token.literals, List.mem_map, List.mem_filter, decide_eq_true_eq] at hx
  obtain ⟨t, ⟨ht, hnum⟩, rfl⟩ := hx
  have hpull : .token t ∈ (Cursor.ofSource source).pullAll := by
    rw [h]
    exact List.mem_append_left _ (List.mem_map_of_mem ht)
  obtain ⟨literal, hvalue⟩ := Cursor.exists_literal_of_num hpull hnum
  exact ⟨_, by rw [Token.number, hvalue, Option.getD_some, Binary64.ofLiteral]⟩

/-- Sources have no negative numbers: the leaves of what is read are the values of literals. -/
theorem unsigned_of_parseWithin {limit : Nat} {source : String}
    (h : parseWithin limit source = .ok e) : e.AllLeaves Binary64.Unsigned := by
  obtain ⟨tokens, hspells, hspans⟩ := spans_of_parseWithin h
  rw [allLeaves_iff, ← hspans.literals_eq]
  intro x hx
  exact unsigned_of_mem_literals hspells hx

/-- What is read from a source can be told from its text.  It has numbers with the positive sign
only, and two expressions with such numbers, of any depth and written in any notation, are the same
if their texts are. -/
theorem render_unambiguous :
    (∀ limit source e, parseWithin limit source = .ok e → e.AllLeaves Binary64.Unsigned) ∧
    ∀ t u : Expr, t.AllLeaves Binary64.Unsigned → u.AllLeaves Binary64.Unsigned →
      t.render = u.render → t = u :=
  ⟨fun _ _ _ => unsigned_of_parseWithin, fun _ _ => render_injective⟩

/-- A wrapped negation that is read from two sources. -/
theorem render_unambiguous_wrapped :
    let e : Expr := .negative (.negative (.leaf (.ofLiteral ['2'])))
    let e' : Expr := .negative (.negative (.leaf (.ofLiteral ['0', '2', '.'])))
    parseWithin 20 "-(-2)" = .ok e ∧ parseWithin 20 "--02." = .ok e' ∧
      e.render = "-(-2.0)" ∧ e = e' := by
  intro e e'
  have he : parseWithin 20 "-(-2)" = .ok e := by decide +kernel
  have he' : parseWithin 20 "--02." = .ok e' := by decide +kernel
  have htext : e.render = "-(-2.0)" := by decide +kernel
  have htext' : e'.render = "-(-2.0)" := by decide +kernel
  obtain ⟨hunsigned, hinjective⟩ := render_unambiguous
  exact ⟨he, he', htext, hinjective e e' (hunsigned 20 _ e he) (hunsigned 20 _ e' he')
    (htext.trans htext'.symm)⟩

end Expr

end InfixCalculator
