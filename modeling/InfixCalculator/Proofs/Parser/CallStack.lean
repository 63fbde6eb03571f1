import InfixCalculator.Proofs.Parser.Climbing

/-!
# Live calls

While an expression is read, the reader is called again for the operand of a sign, for what stands
in brackets, for the factor of an implied product and for the right operand of an operator.  A
`CallStack` holds the calls that are live at one moment: the innermost one with what it does next,
and those that wait for it.  `CallStack.act` says what happens at the token ahead, one token or one
return at a time.

`CallStack.outcome` is what the parser makes of a moment under a limit of nesting.  The parser
starts as the outcome of a single call, and by `outcome_act` an action does not change the outcome,
so the actions, taken one after the other, are the run of the parser.
-/

namespace InfixCalculator

/-- What a live call waits for. -/
inductive Awaited where
  | negated
  | bracketed
  /-- The right factor of an implied product. -/
  | factor (left : Expr)
  | rightOperand (op : BinaryOp) (left : Expr)
  deriving DecidableEq, Repr

/-- A level is open as long as a call waits for anything but a right operand. -/
def Awaited.opensLevel : Awaited → Bool
  | rightOperand _ _ => false
  | _ => true

structure WaitingCall where
  threshold : Int
  awaited : Awaited
  deriving DecidableEq, Repr

/-- What the innermost call does next: it reads its operand, looks for a factor behind the bracket
that closes `inner`, or looks for operators behind `left`. -/
inductive ReadingStage where
  | operand
  | behindBracket (inner : Expr)
  | operators (left : Expr)
  deriving DecidableEq, Repr

/-- The innermost call and those that wait, the last one made first. -/
structure CallStack where
  threshold : Int
  stage : ReadingStage
  callers : List WaitingCall
  deriving DecidableEq, Repr

inductive ReadingAction where
  | read (next : CallStack)
  /-- A call is made, or returns, before the token. -/
  | turn (next : CallStack)
  | finish (e : Expr)
  | refuse (cause : FaultCause)
  deriving DecidableEq, Repr

namespace CallStack

def start : CallStack := ⟨Precedence.lowest, .operand, []⟩

def liveCalls (c : CallStack) : Nat := c.callers.length + 1

/-- The number of levels that are open: brackets, signs and implied products. -/
def openLevels (c : CallStack) : Nat := c.callers.countP (·.awaited.opensLevel)

def returned : List WaitingCall → Expr → Token → ReadingAction
  | [], e, t => if t.kind = .eof then .finish e else .refuse (.leftoverToken t)
  | ⟨n, .bracketed⟩ :: callers, e, t =>
    if t.kind = .rightParen then .read ⟨n, .behindBracket e, callers⟩
    else .refuse (.expected .rightParen t)
  | ⟨n, .negated⟩ :: callers, e, _ => .turn ⟨n, .operators (.negative e), callers⟩
  | ⟨n, .factor left⟩ :: callers, e, _ => .turn ⟨n, .operators (.binary .multiply left e), callers⟩
  | ⟨n, .rightOperand op left⟩ :: callers, e, _ =>
    .turn ⟨n, .operators (.binary op left e), callers⟩

def act : CallStack → Token → ReadingAction
  | ⟨n, .operand, callers⟩, t =>
    match t.kind with
    | .subtract => .read ⟨Precedence.negation, .operand, ⟨n, .negated⟩ :: callers⟩
    | .num => .read ⟨n, .operators (.leaf t.number), callers⟩
    | .leftParen => .read ⟨Precedence.lowest, .operand, ⟨n, .bracketed⟩ :: callers⟩
    | .eof => .refuse .unexpectedEnd
    | _ => .refuse (.operandExpected t)
  | ⟨n, .behindBracket inner, callers⟩, t =>
    if t.kind = .leftParen then .turn ⟨Precedence.product, .operand, ⟨n, .factor inner⟩ :: callers⟩
    else .turn ⟨n, .operators inner, callers⟩
  | ⟨n, .operators left, callers⟩, t =>
    if t.precedence ≤ n ∨ t.kind = .eof then returned callers left t
    else
      match t.kind.operator? with
      | none => .refuse (.operatorExpected t)
      | some op => .read ⟨t.precedence, .operand, ⟨n, .rightOperand op left⟩ :: callers⟩

theorem ne_eof_of_read {c next : CallStack} {t : Token} (h : c.act t = .read next) :
    t.kind ≠ .eof := by
  intro heof
  obtain ⟨n, stage, callers⟩ := c
  cases stage with
  | operand => simp [act, heof] at h
  | behindBracket inner => simp [act, heof] at h
  | operators left =>
    simp only [act, heof, or_true, if_true] at h
    unfold returned at h
    split at h <;> simp_all

end CallStack

namespace Parsing

/-- What follows a closing bracket: the factor of an implied product, if an opening bracket stands
there. -/
def impliedProduct (limit : Nat) (inner : Expr) : Parsing Expr := do
  let next ← current
  if next.kind = .leftParen then
    let right ← expression limit Precedence.product
    return .binary .multiply inner right
  else return inner

def complete (limit : Nat) : Awaited → Expr → Parsing Expr
  | .negated, e => return .negative e
  | .bracketed, e => do
    expect .rightParen
    impliedProduct limit e
  | .factor left, e => return .binary .multiply left e
  | .rightOperand op left, e => return .binary op left e

/-- What the waiting calls do, one after the other, when the innermost one returns `e`. -/
def resume (limit : Nat) : List WaitingCall → Expr → Parsing Expr
  | [], e => do
    let token ← current
    if token.kind = .eof then return e else fail (.leftoverToken token)
  | ⟨n, awaited⟩ :: callers, e => do
    let left ← complete (limit - (callers.length + 1)) awaited e
    let whole ← fold (limit - (callers.length + 1)) n left
    resume limit callers whole

end Parsing

namespace CallStack

open Parsing

variable {limit : Nat} {s : ParserState} {n : Int} {callers : List WaitingCall}

def returning (limit : Nat) (c : CallStack) : Parsing Expr :=
  match c.stage with
  | .operand => expression (limit - c.callers.length) c.threshold
  | .behindBracket inner => do
    let left ← impliedProduct (limit - c.liveCalls) inner
    fold (limit - c.liveCalls) c.threshold left
  | .operators left => fold (limit - c.liveCalls) c.threshold left

/-- What the parser makes of a moment under a limit of nesting. -/
def outcome (limit : Nat) (c : CallStack) : Parsing Expr :=
  c.returning limit >>= resume limit c.callers

theorem whole_eq_outcome (limit : Nat) : whole limit = start.outcome limit := rfl

theorem outcome_of_le (h : limit ≤ callers.length) :
    outcome limit ⟨n, .operand, callers⟩ s = .error .tooDeep s := by
  simp only [outcome, returning, Nat.sub_eq_zero_of_le h]
  rfl

end CallStack

def ReadingAction.outcome (limit : Nat) : ReadingAction → Parsing Expr
  | read next => do
    Parsing.advance
    next.outcome limit
  | turn next => next.outcome limit
  | finish e => return e
  | refuse cause => Parsing.fail cause

namespace CallStack

open Parsing

variable {limit : Nat} {s : ParserState} {n : Int} {callers : List WaitingCall}

theorem current_bind {α : Type} (next : Token → Parsing α) :
    (current >>= next) s = next s.current s := rfl

theorem fail_bind {α β : Type} (cause : FaultCause) (next : β → Parsing α) :
    fail cause >>= next = fail cause := rfl

theorem outcome_operand (l : Nat) :
    outcome (l + (callers.length + 1)) ⟨n, .operand, callers⟩ s =
      (act ⟨n, .operand, callers⟩ s.current).outcome (l + (callers.length + 1)) s := by
  have hl : l + (callers.length + 1) - callers.length = l + 1 := by omega
  simp only [outcome, returning, hl, expression_succ, operand, bind_assoc, current_bind, act]
  cases hk : s.current.kind <;>
    simp only [ReadingAction.outcome, outcome, returning, liveCalls, resume, complete,
      bind_assoc, pure_bind, fail_bind, List.length_cons, Nat.add_sub_cancel]
  rfl

theorem outcome_behindBracket (l : Nat) (inner : Expr) :
    outcome (l + (callers.length + 1)) ⟨n, .behindBracket inner, callers⟩ s =
      (act ⟨n, .behindBracket inner, callers⟩ s.current).outcome (l + (callers.length + 1)) s := by
  simp only [outcome, returning, liveCalls, Nat.add_sub_cancel, impliedProduct, bind_assoc,
    current_bind, act]
  split <;>
    simp only [ReadingAction.outcome, outcome, returning, liveCalls, resume, complete, bind_assoc,
      pure_bind, List.length_cons, Nat.add_sub_cancel]

theorem outcome_returned (e : Expr) :
    resume limit callers e s = (returned callers e s.current).outcome limit s := by
  cases callers with
  | nil =>
    simp only [resume, current_bind, returned]
    split <;> rfl
  | cons caller callers =>
    obtain ⟨n, awaited⟩ := caller
    cases awaited with
    | bracketed =>
      simp only [resume, complete, returned, expect, bind_assoc, current_bind]
      split
      · simp only [ReadingAction.outcome, outcome, returning, liveCalls, bind_assoc]
      · rfl
    | negated => rfl
    | factor left => rfl
    | rightOperand op left => rfl

theorem outcome_operators (l : Nat) (left : Expr) :
    outcome (l + (callers.length + 1)) ⟨n, .operators left, callers⟩ s =
      (act ⟨n, .operators left, callers⟩ s.current).outcome (l + (callers.length + 1)) s := by
  simp only [outcome, returning, liveCalls, Nat.add_sub_cancel, act]
  rw [fold_eq]
  simp only [turn, bind_assoc, current_bind]
  split
  · rw [pure_bind]
    exact outcome_returned left
  · cases hop : s.current.kind.operator? with
    | none => rfl
    | some op =>
      simp only [ReadingAction.outcome, outcome, returning, resume, complete, bind_assoc, pure_bind,
        List.length_cons, Nat.add_sub_cancel]

theorem outcome_act {c : CallStack} (h : c.liveCalls ≤ limit) :
    c.outcome limit s = (c.act s.current).outcome limit s := by
  obtain ⟨n, stage, callers⟩ := c
  obtain ⟨l, rfl⟩ : ∃ l, limit = l + (callers.length + 1) := ⟨_, (Nat.sub_add_cancel h).symm⟩
  cases stage with
  | operand => exact outcome_operand l
  | behindBracket inner => exact outcome_behindBracket l inner
  | operators left => exact outcome_operators l left

end CallStack

end InfixCalculator
