import InfixCalculator.Token.Cursor

/-!
# States of the parser

The parser sees one token ahead and pulls the others from a cursor.  A step that fails keeps what
it has consumed, so its state is part of the result in either case.
-/

namespace InfixCalculator

/-- The token ahead and the cursor behind it, in a source of the given length. -/
structure ParserState where
  length : Nat
  current : Token
  cursor : Cursor
  deriving DecidableEq, Repr

/-- The state before the first step; a source without a first token has none. -/
def ParserState.ofSource (source : String) : Except Fault ParserState :=
  match (Cursor.ofSource source).pull with
  | (.token token, cursor) => .ok ⟨source.length, token, cursor⟩
  | (.exhausted, _) => .error ⟨.emptyExpression, none⟩
  | (.failed fault, _) => .error fault

/-- A step of the parser: a result or a fault, with the state reached. -/
abbrev Parsing := EStateM Fault ParserState

namespace Parsing

def fail {α : Type} (cause : FaultCause) : Parsing α := fun s =>
  .error ⟨cause, some s.current.position⟩ s

def current : Parsing Token := fun s => .ok s.current s

/-- Moves on to the next token.  When the cursor is exhausted the end of the source is ahead; when
it fails the token ahead stays. -/
def advance : Parsing Unit := fun s =>
  if s.current.kind = .eof then fail .noMoreTokens s
  else
    match s.cursor.pull with
    | (.token token, cursor) => .ok () { s with current := token, cursor }
    | (.exhausted, cursor) => .ok () { s with current := ⟨.eof, none, s.length⟩, cursor }
    | (.failed fault, cursor) => .error fault { s with cursor }

def expect (kind : TokenKind) : Parsing Unit := do
  let token ← current
  if token.kind = kind then advance else fail (.expected kind token)

end Parsing

end InfixCalculator
