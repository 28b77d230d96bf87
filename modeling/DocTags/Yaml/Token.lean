import DocTags.Yaml.Scalar

/-!
# Tokens of schema files

A file is cut into the marks of its structure and the scalars between them.  Blocks are shown by
tokens of their own, which the lexer adds where the indentation grows and shrinks.
-/

namespace DocTags.Yaml

/-- The marks and scalars of a file. -/
inductive Token where
  | documentStart
  | documentEnd
  /-- A list begins, whose items have a dash each. -/
  | blockSequence
  /-- A mapping begins, whose pairs stand under each other. -/
  | blockMapping
  | blockEnd
  /-- The dash of an item. -/
  | item
  | key
  | value
  | openBracket
  | closeBracket
  | openBrace
  | closeBrace
  | comma
  | scalar (plain : Bool) (text : List Char)
  /-- Here the text can be read no further. -/
  | stop (fault : Fault)
  deriving DecidableEq, Repr

/-! ## Places -/

/-- A place in a text: the number of characters before it, in the text and on its line, and the
number of lines. -/
structure Place where
  index : Nat := 0
  line : Nat := 0
  column : Nat := 0
  deriving DecidableEq, Repr

/-- The place behind a character.  Only a line feed begins a line, and a byte order mark has no
width. -/
def Place.after (p : Place) (c : Char) : Place :=
  if c == '\n' then ⟨p.index + 1, p.line + 1, 0⟩
  else ⟨p.index + 1, p.line, if c == '\ufeff' then p.column else p.column + 1⟩

/-- The part of a text that is not read yet. -/
structure Source where
  rest : List Char
  place : Place := {}
  deriving DecidableEq, Repr

namespace Source

/-- Skips a number of characters. -/
def skip (s : Source) : Nat → Source
  | 0 => s
  | n + 1 =>
    match s.rest with
    | [] => s
    | c :: cs => skip ⟨cs, s.place.after c⟩ n

/-- Skips the characters that pass a test. -/
def skipWhile (p : Char → Bool) (s : Source) : Source :=
  s.skip (s.rest.takeWhile p).length

end Source

/-! ## Characters -/

/-- The characters that end a line of text.  All but the line feed leave the column as it is. -/
def isBreak (c : Char) : Bool :=
  c == '\n' || c == '\x85' || c == '\u2028' || c == '\u2029'

/-- `true` where a word ends: at a blank, at a line end and at the end of the text. -/
def endsWord (cs : List Char) : Bool :=
  cs.head?.all fun c => isBlank c || c == '\n' || c == '\x85'

/-- What a line end stands for in a scalar that is folded. -/
def breakChar (c : Char) : Char :=
  if c == '\x85' then '\n' else c

/-- `true` where the mark of a document stands. -/
def atMark (cs : List Char) : Bool :=
  (cs.take 3 == ['-', '-', '-'] || cs.take 3 == ['.', '.', '.']) && endsWord (cs.drop 3)

/-- `true` on the characters that a file may hold. -/
def isAllowed (c : Char) : Bool :=
  let n := c.toNat
  c == '\t' || c == '\n' || c == '\r' || (0x20 ≤ n && n ≤ 0x7e) || n == 0x85 ||
    (0xa0 ≤ n && n ≤ 0xfffd) || 0x10000 ≤ n

end DocTags.Yaml
