import InfixCalculator.Proofs.Grammar.Climbing
import InfixCalculator.Proofs.Grammar.Reading

/-!
# Texts of expressions

`Expr.SumText text e` says that a text, wherever it stands, is divided into tokens that a sum reads
as `e`; these are the texts that the parser accepts.  `Expr.OperandText text e` says the same of
an operand before whatever it is not multiplied by.  Operands are numbers, sums in brackets and
operands behind a minus sign; a sum is an operand, or two of them with an operator between them.
-/

namespace InfixCalculator

open Grammar

def Token.symbol (kind : TokenKind) : Token := ⟨kind, none, 0⟩

@[simp] theorem Token.kind_symbol (kind : TokenKind) : (symbol kind).kind = kind := rfl

/-- Every operator is written as one character, which is a token of its own. -/
theorem BinaryOp.exists_symbol (op : BinaryOp) : ∃ c kind, op.symbol.toList = [c] ∧
    TokenKind.ofChar? c = some kind ∧ kind.operator? = some op := by
  cases op <;> exact ⟨_, _, rfl, rfl, rfl⟩

def Expr.bracketed (text : List Char) : List Char := '(' :: (text ++ [')'])

theorem Cursor.Lexes.bracketed {text : List Char} {lexemes : List Token} (h : Lexes text lexemes) :
    Lexes (Expr.bracketed text) (.symbol .leftParen :: (lexemes ++ [.symbol .rightParen])) :=
  (h.append_symbol rfl).symbol_append rfl

namespace Expr

variable {limit : Nat} {source : String} {text text' between : List Char} {e f : Expr}

theorem not_joins_bracketed (text more : List Char) : ¬Cursor.Joins (bracketed text) more :=
  Cursor.not_joins_of_last ('(' :: text) rfl

/-- The text is a sum that is read as `e`. -/
def SumText (text : List Char) (e : Expr) : Prop :=
  ∃ lexemes, Cursor.Lexes text lexemes ∧ Reads (.chain .sum) lexemes e []

/-- The text is an operand that is read as `e`, if no opening bracket follows. -/
def OperandText (text : List Char) (e : Expr) : Prop :=
  ∃ lexemes, Cursor.Lexes text lexemes ∧
    ∀ rest, NotAhead .leftParen rest → Reads .unary (lexemes ++ rest) e rest

namespace SumText

theorem of_parseWithin (h : parseWithin limit source = .ok e) : SumText source.toList e := by
  obtain ⟨tokens, htokens, hr⟩ := reads_of_parseWithin h
  exact ⟨_, .of_pullAll htokens, hr.map_bare⟩

theorem parseWithin (h : SumText source.toList e)
    (hlimit : parseWithin limit source ≠ .error .tooDeep) : parseWithin limit source = .ok e := by
  obtain ⟨lexemes, hlexemes, hr⟩ := h
  obtain ⟨tokens, htokens, rfl⟩ := hlexemes.exists_tokens 0
  obtain ⟨rest, hrest, hreads⟩ := hr.of_map_bare rfl
  obtain rfl := List.map_eq_nil_iff.1 hrest
  exact parseWithin_of_reads htokens hreads hlimit

theorem bracketed (h : SumText text e) : OperandText (bracketed text) e := by
  obtain ⟨lexemes, hlexemes, hr⟩ := h
  refine ⟨_, hlexemes.bracketed, fun rest hrest => ?_⟩
  simpa using hr.bracket rfl rfl hrest

end SumText

namespace OperandText

theorem sum (h : OperandText text e) : SumText text e := by
  obtain ⟨lexemes, hlexemes, hr⟩ := h
  have hunary := hr [] (by simp [NotAhead])
  rw [List.append_nil] at hunary
  exact ⟨lexemes, hlexemes, hunary.sum_of_unary closed_nil.operator?⟩

theorem negative (h : OperandText text e) : OperandText ('-' :: text) (.negative e) := by
  obtain ⟨lexemes, hlexemes, hr⟩ := h
  exact ⟨_, hlexemes.symbol_append rfl, fun rest hrest => .negative rfl (hr rest hrest)⟩

theorem binary {op : BinaryOp} {kind : TokenKind} (h : OperandText text e)
    (h' : OperandText text' f) (hop : kind.operator? = some op)
    (hbetween : Cursor.Lexes between [.symbol kind]) (hj : ¬Cursor.Joins text between)
    (hj' : ¬Cursor.Joins between text') :
    SumText (text ++ (between ++ text')) (.binary op e f) := by
  obtain ⟨lexemes, hlexemes, hr⟩ := h
  obtain ⟨lexemes', hlexemes', hr'⟩ := h'
  have hright := hr' [] (by simp [NotAhead])
  rw [List.append_nil] at hright
  have hleft := hr (.symbol kind :: lexemes') (by
    rintro token htoken hopen
    obtain rfl : Token.symbol kind = token := by simpa using htoken
    obtain rfl : kind = .leftParen := hopen
    simp [TokenKind.operator?] at hop)
  refine ⟨lexemes ++ .symbol kind :: lexemes', ?_, hleft.binary hop hright closed_nil.operator?⟩
  have hne : between ≠ [] := by
    rintro rfl
    simpa [Cursor.pullAll_nil, Pull.bare] using hbetween 0
  have hlexes := (hlexemes.append hbetween hj).append hlexemes' fun h => hj' (h.of_append hne)
  simpa using hlexes

end OperandText

end Expr

end InfixCalculator
