import DocTags.Yaml.Token

/-!
# Reading scalars

Scalars may go on over several lines.  The line end between two lines becomes a space, and empty
lines between them become line feeds.  A plain scalar ends at a mark, at a comment and, outside
brackets, where the indentation falls back; a quoted one ends at its quote.
-/

namespace DocTags.Yaml

/-! ## Plain scalars -/

def isFlowMark (c : Char) : Bool :=
  c == ',' || c == '[' || c == ']' || c == '{' || c == '}'

/-- `true` where a plain scalar breaks off: at a blank, at a colon before a blank, and inside
brackets at the marks of lists and mappings. -/
def endsRun (inFlow : Bool) (cs : List Char) : Bool :=
  match cs with
  | [] => true
  | c :: rest => endsWord cs || (c == ':' && endsWord rest) || (inFlow && isFlowMark c)

/-- The characters of a plain scalar up to where it breaks off. -/
def plainRun (inFlow : Bool) : List Char → List Char
  | [] => []
  | c :: cs => if endsRun inFlow (c :: cs) then [] else c :: plainRun inFlow cs

/-- What the line ends behind the first one stand for, and the place behind them and the spaces
around them.  There is none if the mark of a document stands among them. -/
def plainBreaks : Nat → Source → List Char → Option (List Char) × Source
  | 0, s, acc => (some acc, s)
  | n + 1, s, acc =>
    if atMark s.rest then (none, s)
    else
      let s := s.skipWhile (· == ' ')
      match s.rest with
      | [] => (some acc, s)
      | c :: _ =>
        if isBreak c then plainBreaks n (s.skip 1) (acc ++ [breakChar c]) else (some acc, s)

/-- What stands for the first line end of a fold and for the others behind it. -/
def foldBreaks (first : Char) (others : List Char) : List Char :=
  if first != '\n' then first :: others
  else if others.isEmpty then [' ']
  else others

/-- What a plain scalar has between two runs of its characters: the spaces, or what stands for line
ends; nothing if it ends here.  Also tells whether a line end was passed. -/
def plainGap (s : Source) : List Char × Bool × Source :=
  let spaces := s.rest.takeWhile (· == ' ')
  let s := s.skip spaces.length
  match s.rest with
  | [] => (spaces, false, s)
  | c :: _ =>
    if isBreak c then
      match plainBreaks s.rest.length (s.skip 1) [] with
      | (none, s) => ([], true, s)
      | (some breaks, s) => (foldBreaks (breakChar c) breaks, true, s)
    else (spaces, false, s)

/-- A plain scalar that was read, whether it ends behind a line end, and what follows it. -/
structure PlainScalar where
  text : List Char
  atLineStart : Bool
  rest : Source

/-- Reads on in a plain scalar.  Outside brackets it goes on only in columns from `margin` on. -/
def plainOn (inFlow : Bool) (margin : Nat) : Nat → PlainScalar → List Char → PlainScalar
  | 0, p, _ => p
  | n + 1, p, gap =>
    let run := plainRun inFlow p.rest.rest
    if run.isEmpty || p.rest.rest.head? == some '#' then p
    else
      let (next, passed, s) := plainGap (p.rest.skip run.length)
      let p : PlainScalar := ⟨p.text ++ gap ++ run, passed, s⟩
      if next.isEmpty || (!inFlow && s.place.column < margin) then p
      else plainOn inFlow margin n p next

/-- Reads a plain scalar. -/
def readPlain (inFlow : Bool) (margin : Nat) (s : Source) : PlainScalar :=
  plainOn inFlow margin s.rest.length ⟨[], false, s⟩ []

/-! ## Quoted scalars -/

/-- The character that an escape of one letter stands for. -/
def escaped? (c : Char) : Option Nat :=
  match c with
  | '0' => some 0
  | 'a' => some 7
  | 'b' => some 8
  | 't' => some 9
  | '\t' => some 9
  | 'n' => some 10
  | 'v' => some 11
  | 'f' => some 12
  | 'r' => some 13
  | 'e' => some 27
  | ' ' => some 32
  | '"' => some 34
  | '/' => some 47
  | '\\' => some 92
  | 'N' => some 0x85
  | '_' => some 0xa0
  | 'L' => some 0x2028
  | 'P' => some 0x2029
  | _ => none

/-- The number of hexadecimal digits behind an escape letter. -/
def escapeWidth? (c : Char) : Option Nat :=
  match c with
  | 'x' => some 2
  | 'u' => some 4
  | 'U' => some 8
  | _ => none

/-- The text of character codes.  Two codes that are the halves of one character become it, and a
half alone becomes the replacement character. -/
def ofCodes : List Nat → List Char
  | [] => []
  | [n] => [if 0xd800 ≤ n && n < 0xe000 then '\ufffd' else Char.ofNat n]
  | n :: m :: rest =>
    if 0xd800 ≤ n && n < 0xdc00 && 0xdc00 ≤ m && m < 0xe000 then
      Char.ofNat (0x10000 + (n - 0xd800) * 0x400 + (m - 0xdc00)) :: ofCodes rest
    else (if 0xd800 ≤ n && n < 0xe000 then '\ufffd' else Char.ofNat n) :: ofCodes (m :: rest)

/-- The code that an escape of hexadecimal digits stands for. -/
def hexCode (width : Nat) (cs : List Char) : Except Fault Nat :=
  match ofBase? 16 (cs.take width) with
  | none => .error .malformed
  | some n =>
    if cs.length < width then .error .malformed
    else if n < 0x110000 then .ok n
    else if n < 0x80000000 then .error (.valueless (.illegible .character))
    else .error (.valueless (.misuse .overflow))

/-- What line ends inside quotes stand for, and the place behind them and the blanks around them.
The mark of a document must not stand among them. -/
def quotedBreaks : Nat → Source → List Char → Except Fault (List Char × Source)
  | 0, s, acc => .ok (acc, s)
  | n + 1, s, acc =>
    if atMark s.rest then .error .malformed
    else
      let s := s.skipWhile isBlank
      match s.rest with
      | [] => .ok (acc, s)
      | c :: _ =>
        if isBreak c then quotedBreaks n (s.skip 1) (acc ++ [breakChar c]) else .ok (acc, s)

/-- What blanks inside quotes stand for: themselves within a line, and what stands for the line ends
otherwise. -/
def quotedGap (s : Source) : Except Fault (List Char × Source) := do
  let blanks := s.rest.takeWhile isBlank
  let s := s.skip blanks.length
  match s.rest with
  | [] => throw .malformed
  | c :: _ =>
    if isBreak c then
      let (breaks, s) ← quotedBreaks s.rest.length (s.skip 1) []
      return (foldBreaks (breakChar c) breaks, s)
    else return (blanks, s)

/-- The codes that an escape stands for, from the text behind its backslash, and what follows it.  A
line end that is escaped joins two lines. -/
def readEscape (s : Source) : Except Fault (List Nat × Source) :=
  match s.rest with
  | [] => .error .malformed
  | c :: cs =>
    match escaped? c, escapeWidth? c with
    | some code, _ => .ok ([code], s.skip 1)
    | none, some width => do return ([← hexCode width cs], s.skip (width + 1))
    | none, none =>
      if isBreak c then do
        let (breaks, s) ← quotedBreaks cs.length (s.skip 1) []
        return (breaks.map Char.toNat, s)
      else .error .malformed

/-- Reads on between quotes, behind the codes read before. -/
def quotedOn (quote : Char) : Nat → List Nat → Source → Except Fault (List Nat × Source)
  | 0, _, _ => .error .malformed
  | n + 1, codes, s =>
    match s.rest with
    | [] => .error .malformed
    | c :: cs =>
      if c == quote then
        if quote == '\'' && cs.head? == some quote then
          quotedOn quote n (codes ++ [quote.toNat]) (s.skip 2)
        else .ok (codes, s.skip 1)
      else if c == '\\' && quote == '"' then do
        let (more, s) ← readEscape (s.skip 1)
        quotedOn quote n (codes ++ more) s
      else if isBlank c || isBreak c then do
        let (gap, s) ← quotedGap s
        quotedOn quote n (codes ++ gap.map Char.toNat) s
      else
        let run := cs.takeWhile fun d =>
          !(isBlank d || isBreak d || d == '\'' || d == '"' || d == '\\')
        quotedOn quote n (codes ++ (c :: run).map Char.toNat) (s.skip (run.length + 1))

/-- Reads a quoted scalar, from its opening quote on. -/
def readQuoted (quote : Char) (s : Source) : Except Fault (List Char × Source) := do
  let (codes, s) ← quotedOn quote s.rest.length [] (s.skip 1)
  return (ofCodes codes, s)

end DocTags.Yaml
