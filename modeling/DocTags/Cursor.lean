import DocTags.Token.Lexer
import DocTags.Error

/-!
# Cursors

A cursor walks over a list of tokens.  It can look ahead, and it can return to positions that were
saved on a stack.  Reading past the last token gives an end token.
-/

namespace DocTags

/-- A position in a list of tokens and the positions saved, the latest first. -/
structure Cursor where
  tokens : List Token
  position : Nat
  saved : List Nat
  deriving DecidableEq, Repr

namespace Cursor

/-- The cursor before the first token. -/
def start (tokens : List Token) : Cursor :=
  ⟨tokens, 0, []⟩

/-- The end token, at the position of the last token. -/
def ending (c : Cursor) : Token :=
  ⟨.eof, "", (c.tokens.getLast?.map Token.position).getD 0⟩

/-- The token at the cursor. -/
def current (c : Cursor) : Token :=
  c.tokens[c.position]?.getD c.ending

/-- The token at a distance from the cursor.  A place before the first token counts from the end of
the list, and fails if it is before the first token there too. -/
def peek (c : Cursor) (offset : Int) : Except Error Token :=
  let place : Int := c.position + offset
  if c.tokens.length ≤ place then .ok c.ending
  else
    let place := if place < 0 then place + c.tokens.length else place
    if place < 0 then .error (.misuse .index)
    else .ok (c.tokens[place.toNat]?.getD c.ending)

/-- Moves on by one token, unless the cursor is behind the last one. -/
def advance (c : Cursor) : Cursor :=
  if c.position < c.tokens.length then { c with position := c.position + 1 } else c

/-- `true` at an end token and behind the last token. -/
def isAtEnd (c : Cursor) : Bool :=
  c.tokens.length ≤ c.position || c.current.kind == .eof

/-- `true` when the token at the cursor has one of the kinds. -/
def isAt (c : Cursor) (kinds : List TokenKind) : Bool :=
  kinds.contains c.current.kind

/-- Moves over a token of the expected kind; the message, if not empty, replaces the usual one. -/
def consume (c : Cursor) (expected : TokenKind) (message : String) :
    Except Error (Token × Cursor) :=
  if c.current.kind == expected then .ok (c.current, c.advance)
  else
    let fault := if message.isEmpty then .expected expected c.current.kind else .custom message
    .error (.malformed fault (some c.current))

/-- Moves on to the next token that is not whitespace. -/
def skipWhitespace (c : Cursor) : Cursor :=
  { c with
    position :=
      c.position + ((c.tokens.drop c.position).takeWhile fun t => t.kind == .whitespace).length }

/-- Puts the position on the stack. -/
def save (c : Cursor) : Cursor :=
  { c with saved := c.position :: c.saved }

/-- Returns to the position saved last. -/
def restore (c : Cursor) : Except Error Cursor :=
  match c.saved with
  | [] => .error (.misuse .index)
  | p :: saved => .ok { c with position := p, saved }

/-- Forgets the position saved last. -/
def discard (c : Cursor) : Except Error Cursor :=
  match c.saved with
  | [] => .error (.misuse .index)
  | _ :: saved => .ok { c with saved }

end Cursor
end DocTags
