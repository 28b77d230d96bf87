import DocTags.Text.Blank

/-!
# Documentation blocks

A documentation block is either plain text or a comment between `/**` and `*/` with a star in front
of each line.  This module takes such a block down to its bare lines: fences and stars go, tabs
become spaces, the common indentation is cut and empty lines at both ends are dropped.  It also
finds where the tag section of a block begins.
-/

namespace DocTags.Text

/-- Splits a text at every `sep`; there is always one part more than there are separators. -/
def splitAt (sep : Char) : List Char → List (List Char)
  | [] => [[]]
  | c :: cs =>
    if c == sep then [] :: splitAt sep cs
    else
      match splitAt sep cs with
      | [] => [[c]]
      | part :: parts => (c :: part) :: parts

/-- Puts parts together again with `sep` between them. -/
def joinWith (sep : Char) : List (List Char) → List Char
  | [] => []
  | [part] => part
  | part :: parts => part ++ sep :: joinWith sep parts

/-- Replaces each tab by the spaces up to the next multiple of eight columns.  Columns start anew
after a line feed and after a carriage return. -/
def expandTabs (column : Nat) : List Char → List Char
  | [] => []
  | c :: cs =>
    if c == '\t' then List.replicate (8 - column % 8) ' ' ++ expandTabs 0 cs
    else if c == '\n' || c == '\r' then c :: expandTabs 0 cs
    else c :: expandTabs (column + 1) cs

/-- The number of blanks before the first other character of a line. -/
def indentation (line : List Char) : Nat :=
  line.length - (trimStart line).length

/-- The smallest indentation of the lines that hold more than blanks, if there are any. -/
def margin? (lines : List (List Char)) : Option Nat :=
  ((lines.filter fun line => !(trimStart line).isEmpty).map indentation).min?

/-- The lines without the empty ones at both ends. -/
def dropOuterEmpty (lines : List (List Char)) : List (List Char) :=
  ((lines.dropWhile List.isEmpty).reverse.dropWhile List.isEmpty).reverse

/-- Cuts the common indentation of the lines after the first, the blanks before the first line, and
the empty lines at both ends. -/
def dedent (text : List Char) : List Char :=
  match splitAt '\n' (expandTabs 0 text) with
  | [] => []
  | first :: rest =>
    joinWith '\n' (dropOuterEmpty (trimStart first :: rest.map (List.drop ((margin? rest).getD 0))))

/-- What stands after the opening fence: blanks, a slash and at least one star. -/
def afterOpeningFence? (text : List Char) : Option (List Char) :=
  match trimStart text with
  | '/' :: '*' :: rest => some (rest.dropWhile (· == '*'))
  | _ => none

/-- The text without a closing fence at its end: stars and a slash, with the blanks around them. -/
def withoutClosingFence (text : List Char) : List Char :=
  match text.reverse.dropWhile isBlank with
  | '/' :: '*' :: rest => ((rest.dropWhile (· == '*')).dropWhile isBlank).reverse
  | _ => text

/-- The line without its leading star, the indentation before it and one space or tab after it. -/
def withoutStar (line : List Char) : List Char :=
  match line.dropWhile isIndent with
  | '*' :: c :: rest => if isIndent c then rest else c :: rest
  | ['*'] => []
  | _ => line

/-- The bare lines of a documentation block.  A block without an opening fence is only dedented, so
its lines may begin with a star. -/
def bare (block : List Char) : List Char :=
  match afterOpeningFence? block with
  | none => dedent block
  | some text =>
    dedent (joinWith '\n' ((splitAt '\n' (withoutClosingFence text)).map withoutStar))

/-- `bare` on strings. -/
def stripDecoration (block : String) : String :=
  String.ofList (bare block.toList)

/-- The documentation that a text attached to an element amounts to: nothing if it is blank, and
the dedented text otherwise. -/
def documentation (doc : List Char) : List Char :=
  if (trimStart doc).isEmpty then [] else dedent doc

/-- A tag line begins, after spaces and tabs, with `@` and an ASCII letter. -/
def isTagLine (line : List Char) : Bool :=
  match line.dropWhile isIndent with
  | '@' :: c :: _ => c.isAlpha
  | _ => false

/-- The text before the first tag line, and the tag section from that line on, if there is one. -/
def splitSection (text : List Char) : List Char × Option (List Char) :=
  let lines := splitAt '\n' text
  let before := lines.takeWhile fun line => !isTagLine line
  match lines.dropWhile fun line => !isTagLine line with
  | [] => (text, none)
  | tags => (joinWith '\n' before, some (joinWith '\n' tags))

end DocTags.Text
