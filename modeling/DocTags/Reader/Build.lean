import DocTags.Reader
import DocTags.TypeExpr.Check
import DocTags.World.Construct

/-!
# Building annotations

An annotation is built in steps: its placement is checked, an unnamed value is given the name of the
default attribute, all values are checked against the declared types, the required attributes are
looked for, the constructor is called, and the values that the constructor did not take are applied
one by one.
-/

namespace DocTags

namespace Build

/-- The arguments by attribute name.  Written arguments may have one value without a name, which is
for the default attribute; other values are taken as dictionaries. -/
def normalize (type : TypeId) (s : Schema) : Value → Except Error (List (Value × Value))
  | .tags entries =>
    let named := (TagList.named entries).map fun (name, v) => (Value.str name, v)
    match TagList.positional entries with
    | [] => .ok named
    | [v] =>
      let name := s.defaultAttribute.getD ""
      if name.isEmpty then .error (.noDefaultAttribute type)
      else if (TagList.named entries).has name then .error (.givenTwice name type)
      else .ok (named ++ [(.str name, v)])
    | _ => .error (.severalUnnamed type)
  | v => v.toPairs

/-- The contract of an attribute, which must be declared. -/
def specOf (w : World) (type : TypeId) (s : Schema) (name : Value) :
    Except Error (String × AttributeSpec) :=
  match s.attributes.find? fun (key, spec) => (spec.nameValue key).same name with
  | some found => .ok found
  | none => do throw (.unknownAttribute (← name.display w) type)

/-- Checks the values one after the other and gives them back by attribute name. -/
def checkAttributes (w : World) (type : TypeId) (s : Schema) :
    List (Value × Value) → Run Names (Keyed Value)
  | [] => return []
  | (name, v) :: rest => do
    let (n, spec) ← liftExcept (specOf w type s name)
    match v, spec.nullable with
    | .null, true => pure ()
    | v, _ => TypeExpr.check w (some (Names.load w)) n v spec.type
    return (n, v) :: (← checkAttributes w type s rest)

/-- Looks for the required attributes that were not supplied.  Several of them are listed, for which
their names must be texts. -/
def checkRequired (s : Schema) (attributes : Keyed Value) : Except Error Unit :=
  let absent := s.attributes.filter fun (name, spec) => spec.required && !attributes.has name
  match absent.map Prod.fst with
  | [] => .ok ()
  | name :: others =>
    if !others.isEmpty && absent.any (fun (_, spec) => spec.label.isSome) then
      .error (.misuse .type)
    else .error (.missing name others)

/-- The arguments of the constructor, and the attributes that it does not take.  A parameter that
was not supplied gets its default or null; one that is listed twice takes its value once. -/
def takeArgs (s : Schema) : List String → Keyed Value → List Value × Keyed Value
  | [], attributes => ([], attributes)
  | name :: names, attributes =>
    match attributes.get? name with
    | some v =>
      let (args, left) := takeArgs s names (attributes.erase name)
      (v.native :: args, left)
    | none =>
      let (args, left) := takeArgs s names attributes
      ((((s.attributes.get? name).bind AttributeSpec.default).getD .null) :: args, left)

/-- Hands the value of an attribute to an object. -/
def apply (w : World) (found : TypeId) (s : Schema) (fields : Keyed Value) (name : String)
    (v : Value) : Except Error (Keyed Value) :=
  match s.accessors.get? name with
  | some (.field name) => w.assign found fields name v.native
  | some (.call target) => w.call found fields target v.native
  | some .nowhere => .error (.misuse .type)
  | none => .error (.misuse .key)

/-- Hands attributes to an object one after the other. -/
def applyAll (w : World) (found : TypeId) (s : Schema) :
    Keyed Value → Keyed Value → Except Error (Keyed Value)
  | fields, [] => .ok fields
  | fields, (name, v) :: rest => do applyAll w found s (← apply w found s fields name v) rest

/-- The fields of the object that is made of checked attributes. -/
def construct (w : World) (found : TypeId) (s : Schema) (attributes : Keyed Value) :
    Except Error (Keyed Value) := do
  let (args, left) := takeArgs s (s.constructor.getD []) attributes
  applyAll w found s (← w.construct found args) left

/-- The checks that come before an object is made: the attributes by name, if they pass. -/
def checked (w : World) (type : TypeId) (s : Schema) (supplied : Value) (placement : Placement) :
    Run Names (Keyed Value) := do
  if !s.targets.allows placement then throw (.misplaced type placement.describe)
  let attributes ← checkAttributes w type s (← liftExcept (normalize type s supplied))
  liftExcept (checkRequired s attributes)
  return attributes

end Build

namespace Reader

/-- Builds an annotation of a type; `schemaOf` resolves its schema. -/
def buildWith (w : World) (schemaOf : TypeId → Run Reader Schema) (owner : Option TypeId)
    (type : TypeId) (supplied : Value) (placement : Placement) : Run Reader Value := do
  let s ← schemaOf type
  let attributes ← onNames (Build.checked w type s supplied placement)
  let found ← onNames (Names.load w type)
  let fields ← liftExcept (Build.construct w found s attributes)
  return .object (.built owner) found fields

end Reader
end DocTags
