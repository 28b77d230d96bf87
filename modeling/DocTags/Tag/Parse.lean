import DocTags.Tag.Literal
import DocTags.Text.Blank
import DocTags.Text.Letter
import DocTags.Token.Lexer

/-!
# Reading tags from tokens

A list is read entry by entry.  Between two separators there may be a key, which is a word followed
by a colon, and one item.  An item that is a word or a string waits until the separator behind it is
seen; an item that is a list or an annotation of its own is read at once.

The end token of the section is not part of the tokens read here: it is given apart, as the token to
blame when a list is never closed.
-/

namespace DocTags

/-- An item that waits for the separator behind it, with the token it began with. -/
inductive Pending where
  | token (t : Token)
  | nested (item : Item) (t : Token)

namespace Pending

/-- The list or annotation that has taken effect already. -/
def effect? : Option Pending → Option Item
  | some (nested item _) => some item
  | _ => none

/-- The token an item began with. -/
def start : Pending → Token
  | token t => t
  | nested _ t => t

/-- The item of an entry.  Among arguments only the first value may be without a key. -/
def item (g : Grammar) (closing : TokenKind) (started : Bool) (key : Option String) (p : Pending) :
    Except Error Item :=
  if key.isNone && closing == .rightParen && started then
    .error (.malformed .unnamedNotFirst (some p.start))
  else
    match p with
    | token t => itemOf g t
    | nested item _ => .ok item

end Pending

/-- What is left of a list of tokens after reading some of them. -/
abbrev Rest (ts : List Token) := { rest : List Token // rest.length ≤ ts.length }

/-- What is left of `ts` is left of a longer list too. -/
def Rest.of {ts us : List Token} (rest : Rest ts) (h : ts.length ≤ us.length) : Rest us :=
  ⟨rest.1, Nat.le_trans rest.2 h⟩

namespace Entries

/-- A list that breaks off at a token. -/
def brokenAt (pending : Option Pending) (fault : Malformation) (t : Token) : Entries :=
  .broken (Pending.effect? pending) (.malformed fault (some t))

/-- A list that breaks off leaves no tokens. -/
def breakOff (ts : List Token) (entries : Entries) : Entries × Rest ts :=
  (entries, ⟨[], Nat.zero_le _⟩)

/-- Reads the entries of a list up to its closing token, and gives back the tokens behind it.
`started` tells whether the list has an entry already; `key` and `pending` are what was read since
the last separator. -/
def parse (eof : Token) (g : Grammar) (closing : TokenKind) (started : Bool) (key : Option String)
    (pending : Option Pending) (ts : List Token) : Entries × Rest ts :=
  match ts with
  | [] => breakOff _ (brokenAt pending .endOfText eof)
  | t :: ts =>
    match t.kind with
    | .whitespace =>
      let (entries, rest) := parse eof g closing started key pending ts
      (entries, rest.of (by simp))
    | .leftBrace =>
      if pending.isSome then breakOff _ (brokenAt pending (.unexpected t.text) t)
      else
        let (inner, behind) := parse eof g .rightBrace false none none ts
        let (entries, rest) :=
          parse eof g closing started key (some (.nested (.list inner) t)) behind.1
        (entries, rest.of (by have := behind.2; simp only [List.length_cons]; omega))
    | .atSign =>
      if pending.isSome then breakOff _ (brokenAt pending (.unexpected t.text) t)
      else
        match ts with
        | [] => breakOff _ (brokenAt none .nameExpected eof)
        | [name] =>
          let fault := if name.kind = .word then .plainTagInside else .nameExpected
          breakOff _ (brokenAt none fault name)
        | name :: opening :: ts =>
          if name.kind ≠ .word then breakOff _ (brokenAt none .nameExpected name)
          else if opening.kind ≠ .leftParen then breakOff _ (brokenAt none .plainTagInside name)
          else
            let (inner, behind) := parse eof .argument .rightParen false none none ts
            let (entries, rest) :=
              parse eof g closing started key (some (.nested (.nested name.text inner) t)) behind.1
            (entries, rest.of (by have := behind.2; simp only [List.length_cons]; omega))
    | .comma =>
      match pending with
      | none => breakOff _ (brokenAt none (.unexpected t.text) t)
      | some p =>
        match p.item g closing started key with
        | .error e => breakOff _ (.broken (Pending.effect? (some p)) e)
        | .ok item =>
          let (entries, rest) := parse eof g closing true none none ts
          (.entry key item entries, rest.of (by simp))
    | .colon =>
      match key, pending with
      | none, some (.token p) =>
        if Text.isAlphabetic p.text.toList then
          let (entries, rest) := parse eof g closing started (some p.text) none ts
          (entries, rest.of (by simp))
        else breakOff _ (brokenAt none .keyNotAlphabetic p)
      | _, _ => breakOff _ (brokenAt pending (.unexpected t.text) t)
    | kind =>
      if kind = closing then
        match pending, key with
        | some p, key =>
          match p.item g closing started key with
          | .error e => breakOff _ (.broken (Pending.effect? (some p)) e)
          | .ok item => (.entry key item .closed, ⟨ts, by simp⟩)
        | none, some key => breakOff _ (brokenAt none (.missingValue key) t)
        | none, none => (.closed, ⟨ts, by simp⟩)
      else if kind = .word ∨ kind = .string then
        if pending.isSome then breakOff _ (brokenAt pending .unexpectedData t)
        else
          let (entries, rest) := parse eof g closing started key (some (.token t)) ts
          (entries, rest.of (by simp))
      else breakOff _ (brokenAt pending (.unexpected t.text) t)
  termination_by ts.length
  decreasing_by
    all_goals simp only [List.length_cons]
    all_goals
      try have := behind.2
      omega

/-- Reads a whole list, behind its opening token. -/
def read (eof : Token) (g : Grammar) (closing : TokenKind) (ts : List Token) : Entries × Rest ts :=
  parse eof g closing false none none ts

end Entries

namespace Tag

/-- `true` where the value of a plain tag ends: at the next tag and at the end of the line. -/
def endsValue (t : Token) : Bool :=
  t.kind == .atSign || t.hasNewline

/-- `true` on the tokens that are part of the text of a plain tag. -/
def isText (t : Token) : Bool :=
  !endsValue t && t.kind != .leftBrace

/-- The text of tokens, trimmed. -/
def textOf (ts : List Token) : String :=
  String.ofList (Text.trim (ts.flatMap fun t => t.text.toList))

/-- What follows a list on its line and is not blank. -/
def strayAfter? (ts : List Token) : Option Token :=
  match ts.dropWhile fun t => t.kind == .whitespace && !t.hasNewline with
  | [] => none
  | t :: _ => if endsValue t then none else some t

/-- Reads the value of a plain tag.  A list makes the text before it void. -/
def readPlain (eof : Token) (name : String) (ts : List Token) : Tag × Rest ts :=
  match h : ts.dropWhile isText with
  | [] => (.plain name (textOf ts), ⟨[], Nat.zero_le _⟩)
  | t :: rest =>
    have hle : (t :: rest).length ≤ ts.length := h ▸ length_dropWhile_le isText ts
    if t.kind = .leftBrace then
      let (entries, behind) := Entries.read eof .plain .rightBrace rest
      (.list name entries (strayAfter? behind.1),
        behind.of (by simp only [List.length_cons] at hle; omega))
    else (.plain name (textOf (ts.takeWhile isText)), ⟨t :: rest, hle⟩)

/-- Reads the tags of a section.  Text between tags is skipped, and so is an `@` that no word
follows. -/
def parse (eof : Token) (ts : List Token) : List Tag :=
  match ts with
  | [] => []
  | [_] => []
  | t :: name :: ts =>
    if t.kind ≠ .atSign ∨ name.kind ≠ .word then parse eof (name :: ts)
    else
      match ts with
      | [] => [.plain name.text ""]
      | opening :: ts =>
        if opening.kind = .leftParen then
          let (args, rest) := Entries.read eof .argument .rightParen ts
          .typed name.text args :: parse eof rest.1
        else
          let (tag, rest) := readPlain eof name.text (opening :: ts)
          tag :: parse eof rest.1
  termination_by ts.length
  decreasing_by
    · simp
    · have := rest.2
      simp only [List.length_cons]
      omega
    · have := rest.2
      simp only [List.length_cons] at this ⊢
      omega

/-- The tags of a section. -/
def ofSection (text : List Char) : List Tag :=
  parse (Token.ending text) (Token.pieces text)

end Tag
end DocTags
