/-!
# Letter case

Target names and kind names may be written in any letter case.  The names themselves are ASCII, so
only characters whose full upper-case or lower-case form is ASCII can take part in one; every other
character is left as it is and matches no name.
-/

namespace DocTags.Text

/-- The upper-case form of one character, where that form is ASCII; one character may become
several. -/
def upperChar (c : Char) : List Char :=
  match c with
  | 'ß' => ['S', 'S']
  | 'ı' => ['I']
  | 'ſ' => ['S']
  | 'ﬀ' => ['F', 'F']
  | 'ﬁ' => ['F', 'I']
  | 'ﬂ' => ['F', 'L']
  | 'ﬃ' => ['F', 'F', 'I']
  | 'ﬄ' => ['F', 'F', 'L']
  | 'ﬅ' => ['S', 'T']
  | 'ﬆ' => ['S', 'T']
  | c => [c.toUpper]

/-- The upper-case form of a text, for comparison with ASCII names. -/
def upper (cs : List Char) : List Char :=
  cs.flatMap upperChar

/-- The lower-case form of one character, where that form is ASCII; the Kelvin sign has one too. -/
def lowerChar (c : Char) : Char :=
  if c == '\u212a' then 'k' else c.toLower

/-- The lower-case form of a text, for comparison with ASCII names. -/
def lower (cs : List Char) : List Char :=
  cs.map lowerChar

end DocTags.Text
