import DocTags.Yaml.Token.Scalar

/-!
# Cutting a file into tokens

Between two tokens stand spaces, line ends and comments.  What begins a block is known only at the
mark behind its first key, so the lexer remembers where keys may have begun, and adds the token of
the key there when it comes to the colon.  A key stands on one line and has at most 1024 characters.
-/

namespace DocTags.Yaml

/-- Where a key may have begun: the number of its first token and its place.  It is needed if only a
key can stand there. -/
structure KeyStart where
  number : Nat
  needed : Bool
  place : Place
  deriving DecidableEq, Repr

/-- The brackets around lists and the braces around mappings. -/
inductive Bracket where
  | square
  | curly
  deriving DecidableEq, Repr

def Bracket.opening : Bracket → Token
  | square => .openBracket
  | curly => .openBrace

/-- How far a file is cut into tokens. -/
structure Lexer where
  source : Source
  tokens : Array Token := #[]
  /-- The open brackets, innermost first. -/
  brackets : List Bracket := []
  /-- The columns from this one on belong to the innermost block. -/
  margin : Nat := 0
  /-- The margins of the blocks around it, innermost first. -/
  margins : List Nat := []
  /-- Whether a key may begin here. -/
  keyAllowed : Bool := true
  /-- Where keys may have begun, by the number of brackets around them. -/
  keys : List (Nat × KeyStart) := []

namespace Lexer

/-- The number of brackets around the place. -/
def level (x : Lexer) : Nat := x.brackets.length

def inFlow (x : Lexer) : Bool := !x.brackets.isEmpty

def place (x : Lexer) : Place := x.source.place

/-- Adds a token. -/
def push (x : Lexer) (t : Token) : Lexer :=
  { x with tokens := x.tokens.push t }

/-- Adds a token in the place of the one with a number, which moves behind it. -/
def insert (x : Lexer) (number : Nat) (t : Token) : Lexer :=
  { x with tokens := (x.tokens.extract 0 number).push t ++ x.tokens.extract number x.tokens.size }

/-- Adds a token and skips its characters. -/
def mark (x : Lexer) (width : Nat) (t : Token) : Lexer :=
  { x.push t with source := x.source.skip width }

/-! ## Keys -/

/-- `true` when a key that began at a place could still end here. -/
def reaches (x : Lexer) (k : KeyStart) : Bool :=
  k.place.line == x.place.line && x.place.index - k.place.index ≤ 1024

/-- Gives up the keys that cannot end here any more. -/
def dropStale (x : Lexer) : Except Fault Lexer :=
  if x.keys.any fun (_, k) => k.needed && !x.reaches k then .error .malformed
  else .ok { x with keys := x.keys.filter fun (_, k) => x.reaches k }

/-- Gives up the key inside the same brackets. -/
def dropKey (x : Lexer) : Except Fault Lexer :=
  if (x.keys.lookup x.level).any KeyStart.needed then .error .malformed
  else .ok { x with keys := x.keys.filter fun (level, _) => level != x.level }

/-- Remembers that a key may begin here, if one may. -/
def noteKey (x : Lexer) : Except Fault Lexer :=
  if !x.keyAllowed then .ok x
  else do
    let needed := !x.inFlow && x.margin == x.place.column + 1
    let x ← x.dropKey
    return { x with keys := (x.level, ⟨x.tokens.size, needed, x.place⟩) :: x.keys }

/-! ## Blocks -/

/-- Ends the blocks whose margin is beyond a column. -/
def unwindTo (limit margin : Nat) : List Nat → Nat × Nat × List Nat
  | [] => (0, margin, [])
  | outer :: margins =>
    if limit < margin then
      let (ends, margin, margins) := unwindTo limit outer margins
      (ends + 1, margin, margins)
    else (0, margin, outer :: margins)

/-- Ends the blocks that a line cannot belong to; inside brackets there are none. -/
def unwind (x : Lexer) (limit : Nat) : Lexer :=
  if x.inFlow then x
  else
    let (ends, margin, margins) := unwindTo limit x.margin x.margins
    { x with margin, margins, tokens := x.tokens ++ (Array.replicate ends Token.blockEnd) }

/-- Begins a block in a column, if it is not there already; the block is shown by a token in the
place of the one with a number. -/
def openBlock (x : Lexer) (column number : Nat) (t : Token) : Lexer :=
  if x.margin ≤ column then
    { x.insert number t with margin := column + 1, margins := x.margin :: x.margins }
  else x

/-! ## Between tokens -/

/-- Skips spaces, line ends and comments; inside brackets, tabs too.  A line end outside brackets
allows a key to begin. -/
def skipBlanks (inFlow inComment keyAllowed : Bool) : List Char → Place → Source × Bool
  | [], p => (⟨[], p⟩, keyAllowed)
  | c :: cs, p =>
    if inComment && c != '\n' && c != '\x85' then
      skipBlanks inFlow true keyAllowed cs (p.after c)
    else if isBreak c then skipBlanks inFlow false (keyAllowed || !inFlow) cs (p.after c)
    else if c == ' ' || (inFlow && c == '\t') then
      skipBlanks inFlow false keyAllowed cs (p.after c)
    else if c == '#' then skipBlanks inFlow true keyAllowed cs (p.after c)
    else (⟨c :: cs, p⟩, keyAllowed)

/-- Goes on to the next token. -/
def toNext (x : Lexer) : Lexer :=
  let (source, keyAllowed) :=
    skipBlanks x.inFlow false x.keyAllowed x.source.rest x.source.place
  { x with source, keyAllowed }

/-! ## Marks -/

/-- The mark of a document ends all blocks. -/
def documentMark (x : Lexer) (t : Token) : Except Fault Lexer := do
  let x ← (x.unwind 0).dropKey
  return { x with keyAllowed := false }.mark 3 t

/-- An opening bracket may begin a key, and one may begin behind it. -/
def openFlow (x : Lexer) (b : Bracket) : Except Fault Lexer := do
  let x ← x.noteKey
  return { x with brackets := b :: x.brackets, keyAllowed := true }.mark 1 b.opening

def closeFlow (x : Lexer) (t : Token) : Except Fault Lexer := do
  let x ← x.dropKey
  return { x with brackets := x.brackets.drop 1, keyAllowed := false }.mark 1 t

def comma (x : Lexer) : Except Fault Lexer := do
  let x ← x.dropKey
  return { x with keyAllowed := true }.mark 1 .comma

/-- A dash begins an item; outside brackets it stands where a key could begin. -/
def dash (x : Lexer) : Except Fault Lexer := do
  if !x.inFlow && !x.keyAllowed then throw .malformed
  let x := if x.inFlow then x else x.openBlock x.place.column x.tokens.size .blockSequence
  let x ← { x with keyAllowed := true }.dropKey
  return x.mark 1 .item

/-- A question mark begins a key of any kind. -/
def question (x : Lexer) : Except Fault Lexer := do
  if !x.inFlow && !x.keyAllowed then throw .malformed
  let x := if x.inFlow then x else x.openBlock x.place.column x.tokens.size .blockMapping
  let x ← { x with keyAllowed := !x.inFlow }.dropKey
  return x.mark 1 .key

/-- A colon ends a key.  If a key may have begun inside the same brackets, it began there. -/
def colon (x : Lexer) : Except Fault Lexer := do
  match x.keys.lookup x.level with
  | some k =>
    let others := x.keys.filter fun (level, _) => level != x.level
    let x := { x with keys := others }.insert k.number .key
    let x := if x.inFlow then x else x.openBlock k.place.column k.number .blockMapping
    return { x with keyAllowed := false }.mark 1 .value
  | none =>
    if !x.inFlow && !x.keyAllowed then throw .malformed
    let x := if x.inFlow then x else x.openBlock x.place.column x.tokens.size .blockMapping
    let x ← { x with keyAllowed := !x.inFlow }.dropKey
    return x.mark 1 .value

def quoted (x : Lexer) (quote : Char) : Except Fault Lexer := do
  let x ← x.noteKey
  let (text, source) ← readQuoted quote x.source
  return { x.push (.scalar false text) with source, keyAllowed := false }

def plain (x : Lexer) : Except Fault Lexer := do
  let x ← x.noteKey
  let p := readPlain x.inFlow x.margin x.source
  return { x.push (.scalar true p.text) with source := p.rest, keyAllowed := p.atLineStart }

/-- `true` where a colon ends a key: before a blank, and between braces before anything, unless it
follows another colon.  The token before it is looked at only while a key may have begun before. -/
def isColon (x : Lexer) (pending : Bool) (rest : List Char) : Bool :=
  match x.brackets with
  | .curly :: _ => endsWord rest || !(pending && x.tokens.back? == some .value)
  | _ => endsWord rest

/-- `true` where a plain scalar may begin. -/
def startsPlain (x : Lexer) (c : Char) (rest : List Char) : Bool :=
  if "-?:,[]\x7b\x7d#&*!|>'\"%@`".toList.contains c || isBlank c || isBreak c then
    (c == '-' && !endsWord rest) ||
      (c == ':' && x.inFlow && !(rest.head?.any isBlank)) ||
      (!x.inFlow && (c == '?' || c == ':') && !endsWord rest)
  else true

/-- Reads one token, and those of the blocks that end before it.  Also tells whether the text goes
on. -/
def step (x : Lexer) : Except Fault (Lexer × Bool) := do
  let x ← x.dropStale
  let pending := !x.keys.isEmpty
  let x ← x.toNext.dropStale
  let x := x.unwind (x.place.column + 1)
  match x.source.rest with
  | [] => return (← (x.unwind 0).dropKey, false)
  | c :: rest =>
    let x ←
      if x.place.column == 0 && c == '%' then throw .malformed
      else if x.place.column == 0 && atMark (c :: rest) then
        x.documentMark (if c == '-' then .documentStart else .documentEnd)
      else if c == '[' then x.openFlow .square
      else if c == '{' then x.openFlow .curly
      else if c == ']' then x.closeFlow .closeBracket
      else if c == '}' then x.closeFlow .closeBrace
      else if c == ',' then x.comma
      else if c == '-' && endsWord rest then x.dash
      else if c == '?' && (x.inFlow || endsWord rest) then x.question
      else if c == ':' && x.isColon pending rest then x.colon
      else if c == '\'' || c == '"' then x.quoted c
      else if x.startsPlain c rest then x.plain
      else throw .malformed
    return (x, true)

/-- The tokens that are settled: those before the first one that may still turn out to begin a
key. -/
def settled (x : Lexer) : Array Token :=
  let starts := (x.keys.filter fun (_, k) => x.reaches k).map fun (_, k) => k.number
  x.tokens.extract 0 (starts.foldl min x.tokens.size)

/-- Reads the tokens of a file in at most the given number of steps.  Where the text can be read no
further the settled tokens end with the fault. -/
def run : Nat → Lexer → Array Token
  | 0, x => x.tokens
  | n + 1, x =>
    match x.step with
    | .error fault => x.settled.push (.stop fault)
    | .ok (x, false) => x.tokens
    | .ok (x, true) => run n x

end Lexer

/-- The tokens of a file.  A byte order mark at its start is skipped. -/
def tokens (text : List Char) : List Token :=
  let source : Source := ⟨text, {}⟩
  let source := if text.head? == some '\ufeff' then source.skip 1 else source
  (Lexer.run (text.length + 1) { source }).toList

end DocTags.Yaml
