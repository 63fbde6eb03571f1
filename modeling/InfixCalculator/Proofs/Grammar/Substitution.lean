import InfixCalculator.Proofs.Grammar.Reading

/-!
# Substitution in readings

A sum in brackets may stand wherever a number stands.  If a number literal among the tokens that a
rule reads is replaced by the tokens of a sum in brackets, then the rule reads the same tree as
before, but with the tree of the sum in place of the leaf.
-/

namespace InfixCalculator.Grammar

variable {rule : Rule} {tokens mid rest front before after group : List Token}
  {number : Token} {layer : Layer} {left e f : Expr} {i : Nat}

theorem seam_cases (h : front ++ mid = before ++ number :: after) :
    (∃ more, front = before ++ number :: more ∧ after = more ++ mid) ∨
      ∃ more, before = front ++ more ∧ mid = more ++ number :: after := by
  rcases List.append_eq_append_iff.1 h with ⟨more, rfl, rfl⟩ | ⟨more, rfl, hmore⟩
  · exact .inr ⟨more, rfl, rfl⟩
  · cases more with
    | nil => exact .inr ⟨[], by simp, by simpa using hmore.symm⟩
    | cons token more =>
      obtain ⟨rfl, rfl⟩ := List.cons.inj hmore
      exact .inl ⟨more, rfl, rfl⟩

theorem before_of_cons {token : Token} (hnumber : number.kind = .num) (hkind : token.kind ≠ .num)
    (h : token :: tokens = before ++ number :: after) :
    ∃ more, before = token :: more ∧ tokens = more ++ number :: after ∧
      numberCount before = numberCount more := by
  cases before with
  | nil =>
    obtain ⟨rfl, -⟩ := List.cons.inj h
    exact absurd hnumber hkind
  | cons first more =>
    obtain ⟨rfl, htokens⟩ := List.cons.inj h
    exact ⟨more, rfl, htokens, numberCount_cons_of_ne hkind⟩

theorem not_suffix_of_append (h : mid = front ++ number :: after) : ¬mid <:+ after := fun hs => by
  have := hs.length_le
  simp only [h, List.length_append, List.length_cons] at this
  omega

theorem Reads.eq_of_repetition (h : Reads (.repetition layer left) (number :: tokens) e rest)
    (hnumber : number.kind = .num) : rest = number :: tokens := by
  cases h with
  | stop => rfl
  | fold operator => exact absurd hnumber (Layer.ne_num_of_operator? operator)

/-- What a repetition starts with only becomes a part of what it reads. -/
theorem Reads.replaceLeaf_left (h : Reads (.repetition layer left) tokens e rest)
    (hi : i < left.leafCount) :
    Reads (.repetition layer (left.replaceLeaf i f)) tokens (e.replaceLeaf i f) rest := by
  generalize hrule : Rule.repetition layer left = rule at h
  induction h generalizing left with
  | stop ahead =>
    obtain ⟨rfl, rfl⟩ := Rule.repetition.inj hrule
    exact .stop ahead
  | @fold _ _ op _ _ _ _ right _ operator operand _ _ ihmore =>
    obtain ⟨rfl, rfl⟩ := Rule.repetition.inj hrule
    have hi' : i < (Tree.binary op left right).leafCount := Nat.lt_add_right right.leafCount hi
    have hmore := ihmore hi' rfl
    rw [Tree.replaceLeaf_of_lt hi] at hmore
    exact .fold operator operand hmore
  | chain | negative | number | group | single | implied => cases hrule

/-- The tokens `group` may stand in the place of the number between `before` and `after`: the rule
then reads `f` where it has read the leaf. -/
def Substitutes (rule : Rule) (tokens : List Token) (e : Expr) (rest : List Token) (number : Token)
    (after group : List Token) (f : Expr) : Prop :=
  ∀ before, tokens = before ++ number :: after → rest <:+ after →
    Reads rule (before ++ group) (e.replaceLeaf (rule.leafCount + numberCount before) f) rest

/-- Substitution in an operand and in the repetition behind it, where `build` makes of the operand
what the repetition starts with, under `k` further leaves on the left. -/
theorem Substitutes.operand_repetition {right : Expr} {k : Nat} (build : Expr → Expr)
    (hcount : (build right).leafCount = k + right.leafCount)
    (hbuild : ∀ i < right.leafCount,
      (build right).replaceLeaf (k + i) f = build (right.replaceLeaf i f))
    (hnumber : number.kind = .num) (operand : Reads layer.operand tokens right mid)
    (ihoperand : Substitutes layer.operand tokens right mid number after group f)
    (more : Reads (.repetition layer (build right)) mid e rest)
    (ihmore : Substitutes (.repetition layer (build right)) mid e rest number after group f)
    (ht : tokens = before ++ number :: after) (hs : rest <:+ after) :
    ∃ right' mid', Reads layer.operand (before ++ group) right' mid' ∧
      Reads (.repetition layer (build right')) mid' (e.replaceLeaf (k + numberCount before) f)
        rest := by
  obtain ⟨front, rfl, hframe⟩ := operand.frame
  have hleaves := operand.leafCount_add
  rw [Layer.leafCount_operand, numberCount_append] at hleaves
  rcases seam_cases ht with ⟨inner, rfl, rfl⟩ | ⟨inner, rfl, rfl⟩
  · -- The number stands in the operand.
    rw [numberCount_append, numberCount_cons_num hnumber] at hleaves
    have hoperand := ihoperand before ht (List.suffix_append inner mid)
    rw [Layer.leafCount_operand, Nat.zero_add] at hoperand
    have hmore := more.replaceLeaf_left (f := f) (i := k + numberCount before) (by omega)
    rw [hbuild _ (by omega)] at hmore
    exact ⟨_, mid, hoperand, hmore⟩
  · -- The number stands behind the operand, and it is not the first token there.
    cases inner with
    | nil =>
      have hrest : rest = [] ++ number :: after := more.eq_of_repetition hnumber
      exact absurd hs (not_suffix_of_append hrest)
    | cons token inner =>
      have hmore := ihmore (token :: inner) rfl hs
      have hindex : (Rule.repetition layer (build right)).leafCount + numberCount (token :: inner)
          = k + numberCount (front ++ token :: inner) := by
        rw [Rule.leafCount, numberCount_append]
        omega
      rw [hindex] at hmore
      rw [List.append_assoc]
      exact ⟨right, _, hframe _ ⟨fun _ => id, id⟩, hmore⟩

theorem Reads.substitutes (hnumber : number.kind = .num) (hgroup : Reads .unary group f after)
    (h : Reads rule tokens e rest) : Substitutes rule tokens e rest number after group f := by
  induction h with
  | chain first more ihfirst ihmore =>
    intro before ht hs
    obtain ⟨right, mid, hfirst, hmore⟩ := Substitutes.operand_repetition id (k := 0)
      (by simp) (by simp) hnumber first ihfirst more ihmore ht hs
    exact .chain hfirst hmore
  | stop ahead =>
    intro before ht hs
    exact absurd hs (not_suffix_of_append ht)
  | @fold layer token op _ _ _ left _ _ operator operand more ihoperand ihmore =>
    intro before ht hs
    obtain ⟨before, rfl, htokens, hcount⟩ :=
      before_of_cons hnumber (Layer.ne_num_of_operator? operator) ht
    rw [hcount]
    obtain ⟨right, mid, hoperand, hmore⟩ :=
      Substitutes.operand_repetition (.binary op left) (k := left.leafCount) rfl
        (fun i _ => Tree.replaceLeaf_add op left _ f i) hnumber operand ihoperand more ihmore
        htokens hs
    exact .fold operator hoperand hmore
  | negative minus operand ih =>
    intro before ht hs
    obtain ⟨before, rfl, htokens, hcount⟩ := before_of_cons hnumber (by simp [minus]) ht
    rw [hcount]
    exact .negative minus (ih before htokens hs)
  | number literal =>
    intro before ht hs
    cases before with
    | nil =>
      obtain ⟨-, rfl⟩ := List.cons.inj ht
      exact hgroup
    | cons token before =>
      obtain ⟨-, rfl⟩ := List.cons.inj ht
      exact absurd hs (not_suffix_of_append rfl)
  | group brackets ih =>
    intro before ht hs
    exact .group (ih before ht hs)
  | single opens inner closes ahead ih =>
    intro before ht hs
    obtain ⟨before, rfl, htokens, hcount⟩ := before_of_cons hnumber (by simp [opens]) ht
    rw [hcount]
    refine .single opens (ih before htokens ?_) closes ahead
    obtain ⟨front, hfront, -⟩ := inner.frame
    rcases seam_cases (hfront.symm.trans htokens) with ⟨more, -, rfl⟩ | ⟨more, -, hmore⟩
    · exact List.suffix_append more _
    -- Behind the closing bracket the number would be among the tokens that are left.
    · obtain ⟨more, rfl, hrest, -⟩ := before_of_cons hnumber (by simp [closes]) hmore
      exact absurd hs (not_suffix_of_append hrest)
  | @implied _ closing next _ _ _ left _ opens inner closes ahead factor ihinner ihfactor =>
    intro before ht hs
    obtain ⟨before, rfl, htokens, hcount⟩ := before_of_cons hnumber (by simp [opens]) ht
    rw [hcount, Rule.leafCount, Nat.zero_add]
    obtain ⟨front, hfront, hframe⟩ := inner.frame
    have hleaves := inner.leafCount_add
    rw [hfront, numberCount_append, Rule.leafCount] at hleaves
    rcases seam_cases (hfront.symm.trans htokens) with ⟨more, rfl, rfl⟩ | ⟨more, rfl, hmore⟩
    · -- The number stands in the first bracket.
      rw [numberCount_append, numberCount_cons_num hnumber] at hleaves
      have hinner := ihinner before htokens (List.suffix_append more _)
      rw [Rule.leafCount, Nat.zero_add] at hinner
      rw [Tree.replaceLeaf_of_lt (by omega)]
      exact .implied opens hinner closes ahead factor
    · -- The number stands in the factor, whose leaves follow those of the bracket.
      obtain ⟨more, rfl, hnext, hcount'⟩ := before_of_cons hnumber (by simp [closes]) hmore
      obtain ⟨more, rfl, -, -⟩ := before_of_cons hnumber (by simp [ahead]) hnext
      have hfactor := ihfactor (next :: more) hnext hs
      have hindex : numberCount (front ++ closing :: next :: more)
          = left.leafCount + numberCount (next :: more) := by
        rw [numberCount_append, hcount']
        omega
      rw [Rule.leafCount, Nat.zero_add] at hfactor
      rw [hindex, Tree.replaceLeaf_add, List.cons_append, List.append_assoc]
      exact .implied opens (hframe _ ⟨fun _ => id, id⟩) closes ahead hfactor

end InfixCalculator.Grammar
