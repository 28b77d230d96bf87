import DocTags.Names
import DocTags.Schema

/-!
# Readers

A reader knows names, registered schemas and the schemas resolved so far.  It changes as it works,
and what it has learnt stays when an operation fails half-way.
-/

namespace DocTags

/-- The state of a reader. -/
structure Reader where
  names : Names := {}
  /-- Schemas that were registered, by type id. -/
  declared : Keyed Schema := []
  /-- Schemas that were resolved, by type id. -/
  resolved : Keyed Schema := []
  /-- The types that are being resolved, outermost first. -/
  stack : List TypeId := []
  /-- Whether schemas may be read from the documentation of classes. -/
  readsClasses : Bool := true

/-- The schemas of the declaring annotations. -/
def declaringSchemas : Keyed Schema :=
  let optional (name : String) (type : TypeExpr) : String × AttributeSpec := (name, { name, type })
  [(attributeType,
    { defaultAttribute := some "name"
      targets := .union .nested .onClass
      attributes :=
        [("name", { name := "name", type := .string, required := true }),
          ("setter", { name := "setter", type := .string, nullable := true }),
          optional "type" .mixed, optional "nullable" .boolean, optional "required" .boolean,
          optional "default" .mixed] }),
    (enumType,
      { defaultAttribute := some "values"
        targets := .nested
        attributes := [("values", { name := "values", type := .tuple [], required := true })] }),
    (targetType,
      { defaultAttribute := some "target"
        targets := .union .nested .onClass
        constructor := some ["target"]
        attributes := [("target", { name := "target", required := true })] })]

namespace Reader

/-- A new reader: it knows the declaring annotations, whose short names win over given imports. -/
def start (imports : Keyed TypeId) (readsClasses : Bool) : Reader where
  names := declaringSchemas.foldl (fun n (type, _) => (n.remember type).addImport type none)
    { imports }
  declared := declaringSchemas
  readsClasses := readsClasses

/-- Runs a computation on the names of a reader. -/
def onNames {α : Type} (act : Run Names α) : Run Reader α := fun r =>
  let (result, names) := act r.names
  (result, { r with names })

/-- Records a class under its own id. -/
def remember (type : TypeId) : Run Reader Unit :=
  modify fun r => { r with names := r.names.remember type }

/-- Stores an explicit schema for a type, in the place of what was known about it. -/
def register (r : Reader) (type : TypeId) (s : Schema) : Reader :=
  { r with declared := r.declared.put type s.clone, resolved := r.resolved.erase type }

/-- `true` when a type was registered or its schema resolved. -/
def isRegistered (r : Reader) (type : TypeId) : Bool :=
  r.declared.has type || r.resolved.has type

/-- Forgets resolved schemas; registrations stay. -/
def clearResolved (r : Reader) : Reader :=
  { r with resolved := [] }

/-- Runs a computation while a type is being resolved. -/
def opening {α : Type} (type : TypeId) (act : Run Reader α) : Run Reader α := fun r =>
  let (result, s) := act { r with stack := r.stack ++ [type] }
  (result, { s with stack := s.stack.dropLast })

end Reader
end DocTags
