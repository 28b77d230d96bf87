import DocTags.Placement.Parse
import DocTags.Schema
import DocTags.TypeExpr.Declaration

/-!
# Schema descriptions

A schema can be described by a mapping, in a program or in a file, instead of the documentation of a
class.  A package validates the fields of the mapping: it gives the description, or all faults with
the path of each.  Here it is a parameter, so nothing depends on how it decides.
-/

namespace DocTags

/-- The description of one attribute. -/
structure AttributeDescription where
  type : Value := .str "mixed"
  required : Bool := false
  nullable : Bool := false
  setter : Option String := none
  /-- The default, if one was given; it may be null. -/
  default : Option Value := none

/-- Placements as they were described: one name, or a list of names. -/
inductive TargetNames where
  | one (name : String)
  | many (names : List String)
  deriving DecidableEq, Repr

/-- The description of a schema. -/
structure Description where
  defaultAttribute : Option String := none
  targets : TargetNames := .one "class"
  constructor : Option (List String) := none
  parent : Option TypeId := none
  attributes : Keyed AttributeDescription := []

namespace TargetNames

/-- The names as a value. -/
def toValue : TargetNames → Value
  | one name => .str name
  | many names => .list (names.map .str)

/-- The placements of the names. -/
def placement (w : World) (t : TargetNames) : Except Error Placement :=
  Placement.parse w t.toValue

end TargetNames

namespace Description

/-- Validates the fields of a description: what they describe, or the faults in them. -/
abbrev Validator := List (Value × Value) → Except (List Located) Description

/-- Validates a value as a description; faults are reported under the given path. -/
def ofValue (validate : Validator) (path : String) (v : Value) : Except Error Description :=
  match v with
  | .dict pairs => (validate pairs).mapError fun faults => .description path (.fields faults)
  | v => .error (.description path (.notMapping v.sortName))

/-! ## Schemas of descriptions -/

section ToSchema

variable {m : Type → Type} [Monad m] [MonadExceptOf Error m] (w : World)
  (resolve : String → m TypeId)

/-- The contract that the description of an attribute gives; what is wrong with its type is reported
under the name of the attribute. -/
def specOf (name : String) (a : AttributeDescription) : m AttributeSpec := do
  let type ← tryCatch (TypeExpr.ofDeclaration w resolve a.type) fun e =>
    throw (if e.isAnnotationError then .description name (.declaration e.message) else e)
  return {
    name, type, required := a.required, nullable := a.nullable, setter := Value.ofText? a.setter
    default := match a.default with
      | some .missing => none
      | d => d }

/-- The contracts of described attributes. -/
def specsOf : Keyed AttributeDescription → m (Keyed AttributeSpec)
  | [] => return []
  | (name, a) :: rest => do
    let spec ← specOf w resolve name a
    return (name, spec) :: (← specsOf rest)

/-- The schema that a description gives. -/
def toSchema (d : Description) : m Schema := do
  let targets ← liftExcept (d.targets.placement w)
  let attributes ← specsOf w resolve d.attributes
  return {
    defaultAttribute := d.defaultAttribute, targets, constructor := d.constructor, attributes
    parent := d.parent }

end ToSchema

end Description
end DocTags
