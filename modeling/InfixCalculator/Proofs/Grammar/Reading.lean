import InfixCalculator.Proofs.Expr.Leaves
import InfixCalculator.Proofs.Grammar.Layered
import InfixCalculator.Proofs.Token.Concatenation

/-!
# Readings as parts of readings

A rule reads a front part of the tokens and looks at one token behind it.  What it has read it reads
again before any other tokens that do not go on with an operator or an opening bracket where the
first ones did not.  Operands with operators between them, and sums in brackets, are thereby
composed to larger readings.
-/

namespace InfixCalculator.Grammar

variable {rule : Rule} {tokens mid rest rest' front : List Token} {token : Token} {e : Expr}

/-! ## What stands behind a reading -/

/-- Whatever may end before `rest` may end before `rest'`. -/
structure Frames (rest rest' : List Token) : Prop where
  operator : ∀ layer : Layer, (∀ token ∈ rest.head?, layer.operator? token.kind = none) →
    ∀ token ∈ rest'.head?, layer.operator? token.kind = none
  bracket : NotAhead .leftParen rest → NotAhead .leftParen rest'

/-- No operator and no opening bracket stands there. -/
def Closed (tokens : List Token) : Prop := ∀ token ∈ tokens.head?,
  token.kind.operator? = none ∧ token.kind ≠ .leftParen

theorem closed_nil : Closed [] := by simp [Closed]

theorem closed_rightParen (h : token.kind = .rightParen) : Closed (token :: rest) := by
  simp [Closed, h, TokenKind.operator?]

theorem Layer.operator?_eq_none_of_operator? {layer : Layer} {kind : TokenKind}
    (h : kind.operator? = none) : layer.operator? kind = none := by
  cases hop : layer.operator? kind with
  | none => rfl
  | some op => simp [(precedence_of_operator? hop).1] at h

theorem Closed.operator? (h : Closed tokens) (layer : Layer) :
    ∀ token ∈ tokens.head?, layer.operator? token.kind = none := fun token ht =>
  Layer.operator?_eq_none_of_operator? (h token ht).1

theorem Closed.frames (h : Closed rest') (rest : List Token) : Frames rest rest' :=
  ⟨fun layer _ => h.operator? layer, fun _ token ht => (h token ht).2⟩

theorem Frames.append (h : Frames rest rest') (front : List Token) :
    Frames (front ++ rest) (front ++ rest') := by
  cases front with
  | nil => exact h
  | cons token front => exact ⟨fun _ => id, id⟩

/-- A reading takes a front part of the tokens, and takes it before other tokens too. -/
theorem Reads.frame (h : Reads rule tokens e rest) : ∃ front, tokens = front ++ rest ∧
    ∀ rest', Frames rest rest' → Reads rule (front ++ rest') e rest' := by
  induction h with
  | chain _ _ ihfirst ihmore =>
    obtain ⟨front, rfl, hfirst⟩ := ihfirst
    obtain ⟨back, rfl, hmore⟩ := ihmore
    refine ⟨front ++ back, by simp, fun rest' hf => ?_⟩
    rw [List.append_assoc]
    exact .chain (hfirst _ (hf.append back)) (hmore _ hf)
  | @stop layer _ _ ahead =>
    exact ⟨[], rfl, fun rest' hf => .stop (hf.operator layer ahead)⟩
  | @fold _ token _ _ _ _ _ _ _ operator _ _ ihoperand ihmore =>
    obtain ⟨front, rfl, hoperand⟩ := ihoperand
    obtain ⟨back, rfl, hmore⟩ := ihmore
    refine ⟨token :: (front ++ back), by simp, fun rest' hf => ?_⟩
    rw [List.cons_append, List.append_assoc]
    exact .fold operator (hoperand _ (hf.append back)) (hmore _ hf)
  | negative minus _ ih =>
    obtain ⟨front, rfl, hoperand⟩ := ih
    exact ⟨_ :: front, rfl, fun rest' hf => .negative minus (hoperand _ hf)⟩
  | number literal => exact ⟨[_], rfl, fun rest' _ => .number literal⟩
  | group _ ih =>
    obtain ⟨front, rfl, hbrackets⟩ := ih
    exact ⟨front, rfl, fun rest' hf => .group (hbrackets _ hf)⟩
  | @single opening closing _ _ _ opens _ closes ahead ih =>
    obtain ⟨front, rfl, hinner⟩ := ih
    refine ⟨opening :: (front ++ [closing]), by simp, fun rest' hf => ?_⟩
    rw [List.cons_append, List.append_assoc]
    exact .single opens (hinner _ (hf.append [closing])) closes (hf.bracket ahead)
  | @implied opening closing next _ _ _ _ _ opens _ closes ahead _ ihinner ihfactor =>
    obtain ⟨front, rfl, hinner⟩ := ihinner
    obtain ⟨back, hback, hfactor⟩ := ihfactor
    obtain ⟨token, back, rfl⟩ : ∃ token tail, back = token :: tail := by
      refine List.exists_cons_of_ne_nil fun hnil => ?_
      exact (hfactor [] (closed_nil.frames _)).tokens_ne_nil (by simp) (by simp [hnil])
    obtain ⟨rfl, rfl⟩ := List.cons.inj hback
    refine ⟨opening :: (front ++ closing :: next :: back), by simp, fun rest' hf => ?_⟩
    have hclosing := (hf.append (next :: back)).append [closing]
    rw [List.cons_append, List.append_assoc]
    exact .implied opens (hinner _ hclosing) closes ahead (hfactor _ hf)

/-! ## Numbers and positions -/

def numberCount (tokens : List Token) : Nat := tokens.countP (·.kind = .num)

@[simp] theorem numberCount_nil : numberCount [] = 0 := rfl

theorem numberCount_cons_num (h : token.kind = .num) :
    numberCount (token :: tokens) = numberCount tokens + 1 := by
  simp [numberCount, h]

theorem numberCount_cons_of_ne (h : token.kind ≠ .num) :
    numberCount (token :: tokens) = numberCount tokens := by
  simp [numberCount, h]

theorem numberCount_append (tokens tokens' : List Token) :
    numberCount (tokens ++ tokens') = numberCount tokens + numberCount tokens' :=
  List.countP_append

theorem numberCount_map_bare (tokens : List Token) :
    numberCount (tokens.map Token.bare) = numberCount tokens := by
  rw [numberCount, List.countP_map]
  rfl

theorem Layer.ne_num_of_operator? {layer : Layer} {op : BinaryOp}
    (h : layer.operator? token.kind = some op) : token.kind ≠ .num := fun hnum => by
  cases layer <;> simp [operator?, hnum] at h

def Rule.leafCount : Rule → Nat
  | .repetition _ left => left.leafCount
  | .chain _ | .unary | .group => 0

theorem Layer.leafCount_operand (layer : Layer) : layer.operand.leafCount = 0 := by
  cases layer <;> rfl

theorem Reads.leafCount_add (h : Reads rule tokens e rest) :
    rule.leafCount + numberCount tokens = e.leafCount + numberCount rest := by
  induction h with
  | chain _ _ ihfirst ihmore =>
    rw [Layer.leafCount_operand] at ihfirst
    simp only [Rule.leafCount] at ihmore ⊢
    omega
  | stop => rfl
  | fold operator _ _ ihoperand ihmore =>
    rw [numberCount_cons_of_ne (Layer.ne_num_of_operator? operator)]
    rw [Layer.leafCount_operand] at ihoperand
    simp only [Rule.leafCount, Tree.leafCount] at ihmore ⊢
    omega
  | negative minus _ ih =>
    rw [numberCount_cons_of_ne (by simp [minus])]
    exact ih
  | number literal =>
    rw [numberCount_cons_num literal]
    simp only [Rule.leafCount, Tree.leafCount]
    omega
  | group _ ih => exact ih
  | single opens _ closes _ ih =>
    rw [numberCount_cons_of_ne (by simp [closes])] at ih
    rw [numberCount_cons_of_ne (by simp [opens])]
    exact ih
  | implied opens _ closes _ _ ihinner ihfactor =>
    rw [numberCount_cons_of_ne (by simp [closes])] at ihinner
    rw [numberCount_cons_of_ne (by simp [opens])]
    simp only [Rule.leafCount, Tree.leafCount] at ihinner ihfactor ⊢
    omega

theorem Reads.map_bare (h : Reads rule tokens e rest) :
    Reads rule (tokens.map Token.bare) e (rest.map Token.bare) := by
  induction h with
  | chain _ _ ihfirst ihmore => exact .chain ihfirst ihmore
  | stop ahead => exact .stop (by simpa using ahead)
  | fold operator _ _ ihoperand ihmore => exact .fold operator ihoperand ihmore
  | negative minus _ ih => exact .negative minus ih
  | @number token _ literal => exact .number (literal : token.bare.kind = .num)
  | group _ ih => exact .group ih
  | single opens _ closes ahead ih =>
    exact .single opens ih closes (by simpa [NotAhead] using ahead)
  | implied opens _ closes ahead _ ihinner ihfactor =>
    exact .implied opens ihinner closes ahead ihfactor

theorem Reads.of_map_bare {lexemes rest : List Token} (h : Reads rule lexemes e rest)
    {tokens : List Token} (hl : tokens.map Token.bare = lexemes) :
    ∃ rest', rest'.map Token.bare = rest ∧ Reads rule tokens e rest' := by
  induction h generalizing tokens with
  | chain _ _ ihfirst ihmore =>
    obtain ⟨mid, hmid, hfirst⟩ := ihfirst hl
    obtain ⟨rest, hrest, hmore⟩ := ihmore hmid
    exact ⟨rest, hrest, .chain hfirst hmore⟩
  | stop ahead =>
    subst hl
    exact ⟨tokens, rfl, .stop (by simpa using ahead)⟩
  | fold operator _ _ ihoperand ihmore =>
    obtain ⟨token, tokens, rfl, rfl, htail⟩ := List.map_eq_cons_iff.1 hl
    obtain ⟨mid, hmid, hoperand⟩ := ihoperand htail
    obtain ⟨rest, hrest, hmore⟩ := ihmore hmid
    exact ⟨rest, hrest, .fold operator hoperand hmore⟩
  | negative minus _ ih =>
    obtain ⟨token, tokens, rfl, rfl, htail⟩ := List.map_eq_cons_iff.1 hl
    obtain ⟨rest, hrest, hoperand⟩ := ih htail
    exact ⟨rest, hrest, .negative minus hoperand⟩
  | number literal =>
    obtain ⟨token, tokens, rfl, rfl, htail⟩ := List.map_eq_cons_iff.1 hl
    exact ⟨tokens, htail, .number literal⟩
  | group _ ih =>
    obtain ⟨rest, hrest, hbrackets⟩ := ih hl
    exact ⟨rest, hrest, .group hbrackets⟩
  | single opens _ closes ahead ih =>
    obtain ⟨opening, tokens, rfl, rfl, htail⟩ := List.map_eq_cons_iff.1 hl
    obtain ⟨_, hmid, hinner⟩ := ih htail
    obtain ⟨closing, rest, rfl, rfl, rfl⟩ := List.map_eq_cons_iff.1 hmid
    exact ⟨rest, rfl, .single opens hinner closes (by simpa [NotAhead] using ahead)⟩
  | implied opens _ closes ahead _ ihinner ihfactor =>
    obtain ⟨opening, tokens, rfl, rfl, htail⟩ := List.map_eq_cons_iff.1 hl
    obtain ⟨_, hmid, hinner⟩ := ihinner htail
    obtain ⟨closing, _, rfl, rfl, hnext⟩ := List.map_eq_cons_iff.1 hmid
    obtain ⟨rest, hrest, hfactor⟩ := ihfactor hnext
    obtain ⟨next, mid, rfl, rfl, -⟩ := List.map_eq_cons_iff.1 hnext
    exact ⟨rest, hrest, .implied opens hinner closes ahead hfactor⟩

/-! ## Composition -/

/-- An operand of the tightest layer is an operand of every layer that is looser than the operator
that follows. -/
theorem Reads.operand_of_unary {layer : Layer} (h : Reads .unary tokens e rest)
    (hrest : ∀ tighter : Layer, layer.precedence < tighter.precedence →
      ∀ token ∈ rest.head?, tighter.operator? token.kind = none) :
    Reads layer.operand tokens e rest := by
  cases layer with
  | sum =>
    have hpower : Reads (.chain .power) tokens e rest :=
      .chain h (.stop (hrest .power (by decide)))
    exact .chain hpower (.stop (hrest .product (by decide)))
  | product => exact .chain h (.stop (hrest .power (by decide)))
  | power => exact h

/-- A chain of any layer is a sum if no operator follows. -/
theorem Reads.sum_of_chain {layer : Layer} (h : Reads (.chain layer) tokens e rest)
    (hrest : ∀ layer : Layer, ∀ token ∈ rest.head?, layer.operator? token.kind = none) :
    Reads (.chain .sum) tokens e rest := by
  cases layer with
  | sum => exact h
  | product => exact .chain h (.stop (hrest _))
  | power => exact .chain (.chain h (.stop (hrest _))) (.stop (hrest _))

theorem Reads.sum_of_unary (h : Reads .unary tokens e rest)
    (hrest : ∀ layer : Layer, ∀ token ∈ rest.head?, layer.operator? token.kind = none) :
    Reads (.chain .sum) tokens e rest :=
  .chain (h.operand_of_unary fun layer _ => hrest layer) (.stop (hrest _))

theorem Reads.binary {op : BinaryOp} {left right : Expr}
    (hleft : Reads .unary tokens left (token :: mid)) (hop : token.kind.operator? = some op)
    (hright : Reads .unary mid right rest)
    (hrest : ∀ layer : Layer, ∀ token ∈ rest.head?, layer.operator? token.kind = none) :
    Reads (.chain .sum) tokens (.binary op left right) rest := by
  obtain ⟨layer, hlayer⟩ := Layer.exists_of_operator? hop
  have hprec := (Layer.precedence_of_operator? hlayer).2
  have hfirst : Reads layer.operand tokens left (token :: mid) := by
    refine hleft.operand_of_unary fun tighter hlt other hother => ?_
    obtain rfl : token = other := by simpa using hother
    exact Layer.operator?_eq_none (by omega)
  have hsecond : Reads layer.operand mid right rest :=
    hright.operand_of_unary fun tighter _ => hrest tighter
  exact (Reads.chain hfirst (.fold hlayer hsecond (.stop (hrest layer)))).sum_of_chain hrest

theorem Reads.bracket {opening closing : Token} (h : Reads (.chain .sum) tokens e [])
    (opens : opening.kind = .leftParen) (closes : closing.kind = .rightParen)
    (hrest : NotAhead .leftParen rest) :
    Reads .unary (opening :: (tokens ++ closing :: rest)) e rest := by
  obtain ⟨front, rfl, hframe⟩ := h.frame
  rw [List.append_nil]
  exact .group (.single opens (hframe _ ((closed_rightParen closes).frames _)) closes hrest)

end InfixCalculator.Grammar
