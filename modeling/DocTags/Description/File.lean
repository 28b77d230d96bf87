import DocTags.Description

/-!
# Schema files

A schema file maps type ids to descriptions.  An entry without content describes a schema without
attributes, and a file without content describes nothing.

Which value the text of a file denotes is decided by a package, a parameter here like the one that
validates descriptions.
-/

namespace DocTags

/-- Why the text of a file gives no value. -/
inductive TextFault where
  /-- The package finds the text malformed, and says so in these words. -/
  | malformed (wording : String)
  /-- The package fails in another way. -/
  | failed (error : Error)

/-- The packages that descriptions are read with. -/
structure Packages where
  /-- The value that the text of a file denotes. -/
  load : List Char → Except TextFault Value
  /-- What the fields of a mapping describe. -/
  validate : Description.Validator

namespace Description

/-- Text as it is read from a file: every line end becomes a line feed. -/
def normalizeLines : List Char → List Char
  | [] => []
  | '\r' :: '\n' :: cs => '\n' :: normalizeLines cs
  | '\r' :: cs => '\n' :: normalizeLines cs
  | c :: cs => c :: normalizeLines cs

variable (w : World)

/-- The entries of a file, by type id.  Ids are texts, whatever their spelling in the file. -/
def entriesOf (validate : Validator) (path : String) :
    List (Value × Value) → Except Error (List (String × Description))
  | [] => .ok []
  | (key, v) :: rest => do
    let id ← key.display w
    let d ← ofValue validate (path ++ ":" ++ id) (if v.truthy then v else .dict [])
    return (id, d) :: (← entriesOf validate path rest)

/-- What is wrong with a file whose text gives no value. -/
def faultError (path : String) : TextFault → Error
  | .malformed wording => .description path (.invalidYaml wording)
  | .failed e => e

/-- The descriptions in a file, in order; `content` is absent when there is no such file. -/
def ofFile (p : Packages) (path : String) (content : Option String) :
    Except Error (Keyed Description) :=
  match content with
  | none => .error (.description path .noFile)
  | some text => do
    match ← (p.load (normalizeLines text.toList)).mapError (faultError path) with
    | .dict pairs => return Keyed.ofPairs (← entriesOf w p.validate path pairs)
    | v => if v.truthy then throw (.description path .fileNotMapping) else return []

end Description
end DocTags
