import DocTags.Text.Quoted

/-!
# Tokens

The pieces of a tag section.  A token knows its kind, its text and the number of characters before
it in the section.
-/

namespace DocTags

/-- The kinds of token. -/
inductive TokenKind where
  | atSign
  | leftParen
  | rightParen
  | comma
  | equals
  | leftBrace
  | rightBrace
  /-- A colon that is not next to another colon. -/
  | colon
  /-- A quoted literal, its quotes included. -/
  | string
  | whitespace
  /-- Raw text between the other tokens. -/
  | word
  /-- The end of the section. -/
  | eof
  deriving DecidableEq, Repr, Inhabited

namespace TokenKind

/-- The name of a kind in messages. -/
def name : TokenKind → String
  | atSign => "AT"
  | leftParen => "LPAREN"
  | rightParen => "RPAREN"
  | comma => "COMMA"
  | equals => "EQUALS"
  | leftBrace => "LBRACE"
  | rightBrace => "RBRACE"
  | colon => "COLON"
  | string => "STRING"
  | whitespace => "WHITESPACE"
  | word => "WORD"
  | eof => "EOF"

/-- All kinds, in the order of their declaration. -/
def all : List TokenKind :=
  [atSign, leftParen, rightParen, comma, equals, leftBrace, rightBrace, colon, string, whitespace,
    word, eof]

/-- The kind with the given name. -/
def ofName? (s : String) : Option TokenKind :=
  all.find? fun k => k.name == s

/-- The kind of a one-character symbol; the colon has rules of its own. -/
def ofSymbol? (c : Char) : Option TokenKind :=
  match c with
  | '@' => some atSign
  | '(' => some leftParen
  | ')' => some rightParen
  | ',' => some comma
  | '=' => some equals
  | '{' => some leftBrace
  | '}' => some rightBrace
  | _ => none

end TokenKind

/-- A token with its offset, in characters, from the start of the section. -/
structure Token where
  kind : TokenKind
  text : String
  position : Nat
  deriving DecidableEq, Repr, Inhabited

namespace Token

/-- Only a whitespace token that holds a line feed ends a line. -/
def hasNewline (t : Token) : Bool :=
  t.kind == .whitespace && t.text.toList.contains '\n'

/-- The token as listings show it. -/
def render (t : Token) : String :=
  "Token(" ++ t.kind.name ++ ", " ++ Text.quoted t.text ++ ", pos=" ++ toString t.position ++ ")"

end Token
end DocTags
