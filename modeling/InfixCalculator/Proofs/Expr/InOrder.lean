import InfixCalculator.Token.Basic

/-!
# Reading from left to right

An expression is read in order: a number for itself, a negation as a minus sign and its operand, a
binary node as its operator between its operands.  Tokens are read in order by leaving out the
brackets, with a multiplication wherever a closing bracket stands right before an opening one.

`Spans tokens e` says that the tokens are those of `e` in some way of placing brackets, whatever
binds tighter.  It is enough to know that the readings agree, and that nothing is lost or counted
twice.
-/

namespace InfixCalculator

namespace Tree

variable {Op Leaf : Type}

def leaves : Tree Op Leaf → List Leaf
  | leaf value => [value]
  | binary _ left right => left.leaves ++ right.leaves
  | negative operand => operand.leaves

def binaryCount : Tree Op Leaf → Nat
  | leaf _ => 0
  | binary _ left right => left.binaryCount + right.binaryCount + 1
  | negative operand => operand.binaryCount

def negativeCount : Tree Op Leaf → Nat
  | leaf _ => 0
  | binary _ left right => left.negativeCount + right.negativeCount
  | negative operand => operand.negativeCount + 1

end Tree

inductive Item where
  | number (value : Binary64)
  | operator (op : BinaryOp)
  deriving DecidableEq, Repr

/-- An expression read from left to right, with the minus sign before the operand of a negation. -/
def Expr.inOrder : Expr → List Item
  | .leaf value => [.number value]
  | .binary op left right => inOrder left ++ .operator op :: inOrder right
  | .negative operand => .operator .subtract :: inOrder operand

/-! ## Tokens in order -/

namespace Token

def item? (t : Token) : Option Item :=
  match t.kind.operator? with
  | some op => some (.operator op)
  | none => if t.kind = .num then some (.number t.number) else none

/-- The tokens, each with the kind of the token before it. -/
def withPrevious (previous : Option TokenKind) : List Token → List (Option TokenKind × Token)
  | [] => []
  | t :: tokens => (previous, t) :: withPrevious (some t.kind) tokens

def lastKind (previous : Option TokenKind) : List Token → Option TokenKind
  | [] => previous
  | t :: tokens => lastKind (some t.kind) tokens

def endsOperand : Option TokenKind → Bool
  | some .num | some .rightParen => true
  | _ => false

/-- A minus sign where an operand is due. -/
def isSign (place : Option TokenKind × Token) : Bool :=
  !endsOperand place.1 && place.2.kind == .subtract

/-- An operator behind an operand. -/
def isInfix (place : Option TokenKind × Token) : Bool :=
  endsOperand place.1 && place.2.kind.operator?.isSome

/-- An opening bracket right behind a closing one. -/
def isImplied (place : Option TokenKind × Token) : Bool :=
  place.1 == some .rightParen && place.2.kind == .leftParen

/-- What is read at a token: a multiplication if one is implied, and the token unless it is a
bracket. -/
def items (place : Option TokenKind × Token) : List Item :=
  (if isImplied place then [.operator .multiply] else []) ++ place.2.item?.toList

/-- Tokens read from left to right without their brackets. -/
def unbracketed (tokens : List Token) : List Item := (withPrevious none tokens).flatMap items

def literals (tokens : List Token) : List Binary64 :=
  (tokens.filter (·.kind = .num)).map number

def signCount (tokens : List Token) : Nat := (withPrevious none tokens).countP isSign

def operatorCount (tokens : List Token) : Nat := (withPrevious none tokens).countP isInfix

def impliedCount (tokens : List Token) : Nat := (withPrevious none tokens).countP isImplied

theorem lastKind_append (previous : Option TokenKind) (tokens more : List Token) :
    lastKind previous (tokens ++ more) = lastKind (lastKind previous tokens) more := by
  induction tokens generalizing previous with
  | nil => rfl
  | cons t tokens ih => exact ih (some t.kind)

theorem withPrevious_append (previous : Option TokenKind) (tokens more : List Token) :
    withPrevious previous (tokens ++ more) =
      withPrevious previous tokens ++ withPrevious (lastKind previous tokens) more := by
  induction tokens generalizing previous with
  | nil => rfl
  | cons t tokens ih => exact congrArg ((previous, t) :: ·) (ih (some t.kind))

theorem literals_append (tokens more : List Token) :
    literals (tokens ++ more) = literals tokens ++ literals more := by
  rw [literals, List.filter_append, List.map_append, literals, literals]

theorem literals_cons_of_ne {t : Token} (h : t.kind ≠ .num) (tokens : List Token) :
    literals (t :: tokens) = literals tokens := by
  rw [literals, List.filter_cons_of_neg (by simpa using h), literals]

theorem kind_ne_num_of_operator? {t : Token} {op : BinaryOp} (h : t.kind.operator? = some op) :
    t.kind ≠ .num := by
  intro hnum
  simp [hnum, TokenKind.operator?] at h

end Token

open Token

/-- The tokens are those of the expression: numbers and operators in order, with any brackets around
operands, and products implied between brackets. -/
inductive Spans : List Token → Expr → Prop
  | number {t : Token} (literal : t.kind = .num) : Spans [t] (.leaf t.number)
  | negative {sign : Token} {tokens : List Token} {e : Expr} (minus : sign.kind = .subtract)
      (operand : Spans tokens e) : Spans (sign :: tokens) (.negative e)
  | bracketed {opening closing : Token} {tokens : List Token} {e : Expr}
      (opens : opening.kind = .leftParen) (inner : Spans tokens e)
      (closes : closing.kind = .rightParen) : Spans (opening :: (tokens ++ [closing])) e
  | implied {opening closing next : Token} {tokens more : List Token} {left right : Expr}
      (opens : opening.kind = .leftParen) (inner : Spans tokens left)
      (closes : closing.kind = .rightParen) (ahead : next.kind = .leftParen)
      (factor : Spans (next :: more) right) :
      Spans (opening :: (tokens ++ closing :: next :: more)) (.binary .multiply left right)
  | binary {t : Token} {op : BinaryOp} {tokens more : List Token} {left right : Expr}
      (first : Spans tokens left) (operator : t.kind.operator? = some op)
      (second : Spans more right) : Spans (tokens ++ t :: more) (.binary op left right)

namespace Spans

variable {tokens : List Token} {e : Expr}

theorem ne_nil (h : Spans tokens e) : tokens ≠ [] := by
  cases h <;> simp

theorem endsOperand_lastKind (h : Spans tokens e) (previous : Option TokenKind) :
    endsOperand (lastKind previous tokens) = true := by
  induction h generalizing previous with
  | number literal => simp [lastKind, literal, endsOperand]
  | negative _ _ ih => exact ih _
  | bracketed _ _ closes _ =>
    rw [lastKind, lastKind_append]
    simp [lastKind, closes, endsOperand]
  | implied _ _ _ _ _ _ ih =>
    rw [lastKind, lastKind_append]
    exact ih none
  | binary _ _ _ _ ih =>
    rw [lastKind_append]
    exact ih _

theorem literals_eq (h : Spans tokens e) : literals tokens = e.leaves := by
  induction h with
  | number literal => simp [literals, literal, Tree.leaves]
  | negative minus _ ih => rw [literals_cons_of_ne (by simp [minus]), ih, Tree.leaves]
  | bracketed opens _ closes ih =>
    rw [literals_cons_of_ne (by simp [opens]), literals_append, ih,
      literals_cons_of_ne (by simp [closes])]
    exact List.append_nil _
  | implied opens _ closes _ _ ihinner ihfactor =>
    rw [literals_cons_of_ne (by simp [opens]), literals_append, ihinner,
      literals_cons_of_ne (by simp [closes]), ihfactor, Tree.leaves]
  | binary _ operator _ ihfirst ihsecond =>
    rw [literals_append, ihfirst, literals_cons_of_ne (kind_ne_num_of_operator? operator),
      ihsecond, Tree.leaves]

theorem endsOperand_of_operator? {kind : TokenKind} {op : BinaryOp}
    (h : kind.operator? = some op) : endsOperand (some kind) = false := by
  cases kind <;> simp_all [TokenKind.operator?, endsOperand]

end Spans

/-! ## Accounts -/

/-- At the places stand the items, and among them so many signs and operators, written or
implied. -/
structure Accounts (places : List (Option TokenKind × Token)) (read : List Item)
    (signs operators : Nat) : Prop where
  items_eq : places.flatMap items = read
  signs_eq : places.countP isSign = signs
  operators_eq : places.countP isInfix + places.countP isImplied = operators

namespace Accounts

variable {places places' : List (Option TokenKind × Token)} {read read' : List Item}
  {signs signs' operators operators' : Nat} {previous : Option TokenKind} {t : Token}

theorem append (h : Accounts places read signs operators)
    (h' : Accounts places' read' signs' operators') :
    Accounts (places ++ places') (read ++ read') (signs + signs') (operators + operators') := by
  constructor
  · rw [List.flatMap_append, h.items_eq, h'.items_eq]
  · rw [List.countP_append, h.signs_eq, h'.signs_eq]
  · rw [List.countP_append, List.countP_append, ← h.operators_eq, ← h'.operators_eq]
    omega

theorem nil : Accounts [] [] 0 0 := ⟨rfl, rfl, rfl⟩

theorem number (previous : Option TokenKind) (h : t.kind = .num) :
    Accounts [(previous, t)] [.number t.number] 0 0 := by
  constructor <;> simp [items, isSign, isInfix, isImplied, item?, h, TokenKind.operator?]

theorem sign (hprevious : endsOperand previous = false) (h : t.kind = .subtract)
    (hplaces : Accounts places read signs operators) :
    Accounts ((previous, t) :: places) (.operator .subtract :: read) (signs + 1) operators := by
  obtain ⟨rfl, rfl, rfl⟩ := hplaces
  constructor <;>
    simp [items, isSign, isInfix, isImplied, item?, h, hprevious, TokenKind.operator?]

theorem operator {op : BinaryOp} (hprevious : endsOperand previous = true)
    (h : t.kind.operator? = some op) (hplaces : Accounts places read signs operators) :
    Accounts ((previous, t) :: places) (.operator op :: read) signs (operators + 1) := by
  have hopen : t.kind ≠ .leftParen := by
    intro hopen
    simp [hopen, TokenKind.operator?] at h
  obtain ⟨rfl, rfl, rfl⟩ := hplaces
  constructor
  · simp [items, isImplied, item?, h, hopen]
  · simp [isSign, hprevious]
  · simp [isInfix, isImplied, h, hprevious, hopen, Nat.add_right_comm]

theorem opening_iff (hprevious : endsOperand previous = false) (h : t.kind = .leftParen) :
    Accounts ((previous, t) :: places) read signs operators ↔
      Accounts places read signs operators := by
  have hne : previous ≠ some .rightParen := by
    rintro rfl
    simp [endsOperand] at hprevious
  constructor <;> rintro ⟨rfl, rfl, rfl⟩ <;> constructor <;>
    simp [items, isSign, isInfix, isImplied, item?, h, hne, TokenKind.operator?]

theorem closing (previous : Option TokenKind) (h : t.kind = .rightParen)
    (hplaces : Accounts places read signs operators) :
    Accounts ((previous, t) :: places) read signs operators := by
  obtain ⟨rfl, rfl, rfl⟩ := hplaces
  constructor <;> simp [items, isSign, isInfix, isImplied, item?, h, TokenKind.operator?]

theorem implied (h : t.kind = .leftParen) (hplaces : Accounts places read signs operators) :
    Accounts ((some .rightParen, t) :: places) (.operator .multiply :: read) signs
      (operators + 1) := by
  obtain ⟨rfl, rfl, rfl⟩ := hplaces
  constructor <;>
    simp [items, isSign, isInfix, isImplied, item?, h, TokenKind.operator?, Nat.add_assoc]

end Accounts

/-- Where an operand is due, tokens account for the expression that they span. -/
theorem Spans.accounts {tokens : List Token} {e : Expr} (h : Spans tokens e)
    (previous : Option TokenKind) (hprevious : endsOperand previous = false) :
    Accounts (withPrevious previous tokens) e.inOrder e.negativeCount e.binaryCount := by
  induction h generalizing previous with
  | number literal => exact .number previous literal
  | @negative sign tokens e minus _ ih =>
    have hoperand := ih (some sign.kind) (by simp [minus, endsOperand])
    exact .sign hprevious minus hoperand
  | @bracketed opening closing tokens e opens inner closes ih =>
    have hinner := ih (some opening.kind) (by simp [opens, endsOperand])
    rw [withPrevious, Accounts.opening_iff hprevious opens, withPrevious_append,
      ← List.append_nil e.inOrder]
    exact hinner.append (.closing _ closes .nil)
  | @implied opening closing next tokens more left right opens _ closes ahead _ ihinner ihfactor =>
    have hinner := ihinner (some opening.kind) (by simp [opens, endsOperand])
    have hfactor := ihfactor none rfl
    rw [withPrevious, Accounts.opening_iff rfl ahead] at hfactor
    rw [withPrevious, Accounts.opening_iff hprevious opens, withPrevious_append, withPrevious,
      closes]
    exact hinner.append (.closing _ closes (.implied ahead hfactor))
  | @binary t op tokens more left right first operator second ihfirst ihsecond =>
    have hfirst := ihfirst previous hprevious
    have hsecond := ihsecond (some t.kind) (endsOperand_of_operator? operator)
    rw [withPrevious_append]
    exact hfirst.append (.operator (first.endsOperand_lastKind previous) operator hsecond)

end InfixCalculator
