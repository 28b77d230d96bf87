import DocTags.Description

/-!
# Validation of schema descriptions

The validator of this library.  A description is validated field by field, and all faults are
reported together, in the order of the fields and with the path of each.
-/

namespace DocTags

/-- What is wrong with one field of a schema description. -/
inductive FieldFault where
  | string
  | list
  | dictionary
  | dictionaryOrAttribute
  | boolean
  | unclearBoolean
  | unknownField
  | keyNotString
  | target (message : String)
  deriving DecidableEq, Repr

def FieldFault.message : FieldFault → String
  | string => "Input should be a valid string"
  | list => "Input should be a valid list"
  | dictionary => "Input should be a valid dictionary"
  | dictionaryOrAttribute => "Input should be a valid dictionary or instance of AttributeDescriptor"
  | boolean => "Input should be a valid boolean"
  | unclearBoolean => "Input should be a valid boolean, unable to interpret input"
  | unknownField => "Extra inputs are not permitted"
  | keyNotString => "Keys should be strings"
  | target message => "Value error, " ++ message

/-- A validated field, or the faults found in it. -/
abbrev Validated (α : Type) := Except (List Located) α

namespace Validated

/-- The faults of a field. -/
def faults {α : Type} : Validated α → List Located
  | .ok _ => []
  | .error faults => faults

/-- One fault at a place. -/
def fault {α : Type} (place : List String) (fault : FieldFault) : Validated α :=
  .error [⟨place, fault.message⟩]

/-- All results, if there are no faults at all. -/
def all {α : Type} (fields : List (Validated α)) : Validated (List α) :=
  match fields.flatMap faults with
  | [] => .ok (fields.filterMap Except.toOption)
  | found => .error found

end Validated

namespace Description

/-! ## Fields of simple types -/

/-- A key as part of a path; truth values are written as numbers, and what has no text is told by
its sort. -/
def keyText (w : World) : Value → String
  | .str s => s
  | .bool b => if b then "1" else "0"
  | .placement p => toString p.mask
  | key =>
    match key.render w with
    | .ok shown => shown
    | .error _ => "<unprintable " ++ key.sortName ++ " object>"

/-- The value under a name in a mapping. -/
def field? (pairs : List (Value × Value)) (name : String) : Option Value :=
  (pairs.find? fun pair => pair.1.isText name).map Prod.snd

/-- The first of some names that a mapping has. -/
def nameIn? (pairs : List (Value × Value)) (names : List String) : Option String :=
  names.find? fun name => (field? pairs name).isSome

/-- A text; a set of placements counts as the digits of its mask. -/
def text (place : List String) : Value → Validated String
  | .str s => .ok s
  | .placement p => .ok (toString p.mask)
  | _ => .fault place .string

/-- A text, or null for none. -/
def textOrNull (place : List String) : Value → Validated (Option String)
  | .null => .ok none
  | v => (text place v).map some

/-- The elements of the values that count as lists; texts and dictionaries do not. -/
def listItems? : Value → Option (List Value)
  | .str _ | .dict _ => none
  | v => v.elements?

/-- A list of texts; each element that is none is a fault of its own. -/
def textList (place : List String) (v : Value) : Validated (List String) :=
  match listItems? v with
  | some items =>
    Validated.all (items.zipIdx.map fun (item, i) => text (place ++ [toString i]) item)
  | none => .fault place .list

/-- The texts that stand for truth values, in lower case. -/
def truthTexts : List (String × Bool) :=
  [("0", false), ("off", false), ("f", false), ("false", false), ("n", false), ("no", false),
    ("1", true), ("on", true), ("t", true), ("true", true), ("y", true), ("yes", true)]

/-- The truth value of a number: only zero and one have one. -/
def truthOfInt (place : List String) (n : Int) : Validated Bool :=
  if n = 0 then .ok false
  else if n = 1 then .ok true
  else if -Int.pow 2 63 ≤ n && n < Int.pow 2 63 then .fault place .unclearBoolean
  else .fault place .boolean

/-- The integer that a floating point number of moderate size is equal to. -/
def wholeNumber? (x : Binary64) : Option Int :=
  let one := Int.pow 2 1074
  if x.exponent != 2047 && x.units % one == 0 && (x.units / one).natAbs < Nat.pow 2 63 then
    some (x.units / one)
  else none

/-- A truth value, also given as a number or as a text in any letter case. -/
def truth (place : List String) : Value → Validated Bool
  | .bool b => .ok b
  | .int n => truthOfInt place n
  | .placement p => truthOfInt place p.mask
  | .float x _ => match wholeNumber? x with
    | some n => truthOfInt place n
    | none => .fault place .boolean
  | .str s => match truthTexts.lookup (s.map Char.toLower) with
    | some b => .ok b
    | none => .fault place .unclearBoolean
  | _ => .fault place .boolean

/-- The faults of the keys that are not among the names of the fields. -/
def unknownFields (w : World) (place : List String) (names : List String)
    (pairs : List (Value × Value)) : List Located :=
  pairs.filterMap fun (key, _) =>
    match key with
    | .str s =>
      if names.contains s then none else some ⟨place ++ [s], FieldFault.unknownField.message⟩
    | key => some ⟨place ++ [keyText w key], FieldFault.keyNotString.message⟩

/-! ## Attributes -/

/-- A field with a default for when it is absent. -/
def fieldOr {α : Type} (pairs : List (Value × Value)) (name : String) (absent : α)
    (read : Value → Validated α) : Validated α :=
  match field? pairs name with
  | none => .ok absent
  | some v => read v

/-- Validates the description of an attribute. -/
def attributeOf (w : World) (place : List String) (v : Value) : Validated AttributeDescription :=
  match v with
  | .dict pairs =>
    let required := fieldOr pairs "required" false (truth (place ++ ["required"]))
    let nullable := fieldOr pairs "nullable" false (truth (place ++ ["nullable"]))
    let setter := fieldOr pairs "setter" none (textOrNull (place ++ ["setter"]))
    let names := ["type", "required", "nullable", "setter", "default"]
    let unknown := unknownFields w place names pairs
    match required, nullable, setter, unknown with
    | .ok required, .ok nullable, .ok setter, [] => .ok
      { type := (field? pairs "type").getD (.str "mixed")
        required, nullable, setter
        default := field? pairs "default" }
    | _, _, _, _ => .error (required.faults ++ nullable.faults ++ setter.faults ++ unknown)
  | _ => .fault place .dictionaryOrAttribute

/-- Validates one named attribute; its name must be a text. -/
def namedAttribute (w : World) (place : List String) (pair : Value × Value) :
    Validated (String × AttributeDescription) :=
  let place := place ++ [keyText w pair.1]
  let name : Validated String := text (place ++ ["[key]"]) pair.1
  match name, attributeOf w place pair.2 with
  | .ok name, .ok description => .ok (name, description)
  | name, description => .error (name.faults ++ description.faults)

/-- Validates the attributes of a description. -/
def attributesOf (w : World) (place : List String) (v : Value) :
    Validated (Keyed AttributeDescription) :=
  match v with
  | .dict pairs => (Validated.all (pairs.map (namedAttribute w place))).map Keyed.ofPairs
  | _ => .fault place .dictionary

/-! ## Descriptions -/

/-- Validates the names of placements, which must be known. -/
def targetsOf (w : World) (place : List String) (v : Value) : Validated TargetNames := do
  let names ← match text (place ++ ["str"]) v, textList (place ++ ["list[str]"]) v with
    | .ok name, _ => pure (TargetNames.one name)
    | .error _, .ok names => pure (.many names)
    | .error faults, .error others => .error (faults ++ others)
  match names.placement w with
  | .ok _ => return names
  | .error e => .fault place (.target e.message)

/-- The other names of fields, each behind the name that wins. -/
def defaultNames : List String := ["default_attribute", "defaultAttribute"]
def targetFieldNames : List String := ["targets", "target"]

/-- Validates a field that has several names, under the first one that is there. -/
def aliasedOr {α : Type} (pairs : List (Value × Value)) (names : List String) (absent : α)
    (read : List String → Value → Validated α) : Validated α :=
  match nameIn? pairs names with
  | none => .ok absent
  | some name => fieldOr pairs name absent (read [name])

/-- Validates the fields of a description. -/
def ofPairs (w : World) (pairs : List (Value × Value)) : Validated Description :=
  let defaultAttribute := aliasedOr pairs defaultNames none textOrNull
  let targets := aliasedOr pairs targetFieldNames (.one "class") (targetsOf w)
  let constructor := fieldOr pairs "constructor" none fun v =>
    match v with
    | .null => .ok none
    | v => (textList ["constructor"] v).map some
  let parent := fieldOr pairs "extends" none (textOrNull ["extends"])
  let attributes := fieldOr pairs "attributes" [] (attributesOf w ["attributes"])
  let names := (nameIn? pairs defaultNames).toList ++ (nameIn? pairs targetFieldNames).toList ++
    ["constructor", "extends", "attributes"]
  let unknown := unknownFields w [] names pairs
  match defaultAttribute, targets, constructor, parent, attributes, unknown with
  | .ok defaultAttribute, .ok targets, .ok constructor, .ok parent, .ok attributes, [] =>
    .ok { defaultAttribute, targets, constructor, parent, attributes }
  | _, _, _, _, _, _ =>
    .error (defaultAttribute.faults ++ targets.faults ++ constructor.faults ++ parent.faults ++
      attributes.faults ++ unknown)

end Description
end DocTags
