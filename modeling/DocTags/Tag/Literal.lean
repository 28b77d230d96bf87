import DocTags.Number.Numeral
import DocTags.Tag

/-!
# Literals

What a word or a string of a list denotes by itself.  Strings lose their quotes, and their escapes
stay as they are written.  The bare words of plain lists denote themselves; those of arguments are
names.
-/

namespace DocTags

/-- How bare words are read: as text in the list of a plain tag, and as names in arguments. -/
inductive Grammar where
  | plain
  | argument
  deriving DecidableEq, Repr

/-- The text between the quotes of a string. -/
def unquote (text : String) : String :=
  String.ofList (text.toList.drop 1).dropLast

/-- `true` on the characters of bare words: ASCII letters, digits and underscores. -/
def isBareChar (c : Char) : Bool :=
  c.isAlphanum || c == '_'

/-- The value of a keyword, a numeral or a string; `none` on other words. -/
def literal? (t : Token) : Except Error (Option Value) :=
  let cs := t.text.toList
  if t.kind == .string then .ok (some (.str (unquote t.text)))
  else if cs.contains '\'' || cs.contains '"' then .error (.malformed .unterminatedString (some t))
  else if t.text == "true" then .ok (some (.bool true))
  else if t.text == "false" then .ok (some (.bool false))
  else if t.text == "null" then .ok (some .null)
  else if Numeral.isDigits cs then
    if Numeral.maxDigits < cs.length then .error (.illegible (.tooManyDigits cs.length))
    else .ok (some (.int (Numeral.ofDigits cs)))
  else
    match Numeral.read? cs with
    | some n => .ok (some (.float n.toBinary64 0))
    | none => .ok none

/-- The item that a word or a string is. -/
def itemOf (g : Grammar) (t : Token) : Except Error Item := do
  match ← literal? t with
  | some v => return .value v
  | none =>
    match g with
    | .argument => return .word t.text
    | .plain =>
      let cs := t.text.toList
      if !cs.isEmpty && cs.all isBareChar then return .value (.str t.text)
      else throw (.malformed .unexpectedValue (some t))

end DocTags
