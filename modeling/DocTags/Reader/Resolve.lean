import DocTags.Reader.Read
import DocTags.TypeExpr.Declaration

/-!
# Resolving schemas

The schema of a type is the registered one, on top of that of its parent, or the one that its class
declares in its documentation, on top of that of its first base class.  Reading the documentation of
a class builds the annotations in it, for which schemas of further types are resolved.

The types being resolved are kept on a stack, and a type that is met again while it is on the stack
is an error.  So nested resolution ends: apart from the outermost one, the types on the stack come
from the finite list `nameable`, and the stack never holds a type twice.  The depth of nesting is
bounded by the length of that list.
-/

namespace DocTags

/-- The names of the annotations in a documentation block. -/
def annotationNames (doc : List Char) : List String :=
  match (Text.splitSection (Text.bare doc)).2 with
  | none => []
  | some text => (Tag.ofSection text).flatMap Tag.names

/-- The documentation of a class: its own, without what it inherits. -/
def World.classDoc (w : World) (type : TypeId) : List Char :=
  Text.documentation ((w.classOf type).doc.getD "").toList

/-- The names that texts of a class can use. -/
def World.classScope (w : World) (type : TypeId) : Scope :=
  w.scopeOf (w.classOf type).home

namespace Reader

/-- The type ids that a name can stand for if it is no import. -/
def denoted (w : World) (scope : Scope) (name : String) : List TypeId :=
  name :: (Names.typeAt? w scope name).toList

/-- The type ids that resolution can come to from the documentation of classes, base classes and
registered parents. -/
def nameable (w : World) (r : Reader) : List TypeId :=
  r.names.imports.map Prod.snd ++
    (r.declared.flatMap fun (_, s) => denoted w [] (s.parent.getD "")) ++
    w.classes.flatMap fun (type, c) =>
      c.bases ++ (annotationNames (w.classDoc type)).flatMap (denoted w (w.classScope type))

/-- The bound on nested types. -/
def depth (w : World) (r : Reader) : Nat :=
  (nameable w r).length + 1

section Declaring

/-! ## What a class declares -/

/-- The contract that an attribute annotation declares. -/
def specOf (w : World) (scope : Scope) (v : Value) : Run Reader AttributeSpec := do
  let field (name : String) : Run Reader Value := liftExcept (w.required v name)
  let name ← field "name"
  let resolve (name : String) := onNames (Names.resolve w scope name)
  let type ← TypeExpr.ofDeclaration w resolve (← field "type")
  let required ← field "required"
  let nullable ← field "nullable"
  let setter ← field "setter"
  let default ← field "default"
  if !name.isHashable then throw (.misuse .type)
  return {
    name := ← liftExcept (name.display w)
    label := match name with
      | .str _ => none
      | name => some name
    type
    required := required.truthy
    nullable := nullable.truthy
    setter
    default := if default.isMissing then none else some default }

/-- Adds the placements of a target annotation. -/
def addTarget (w : World) (p : Placement) (v : Value) : Except Error Placement := do
  match ← w.required v "target" with
  | .placement q => return p.union q
  | .int n => return p.union (.ofInt n)
  | .bool b => return p.union (.ofInt (if b then 1 else 0))
  | _ => throw (.misuse .type)

/-- The placements that a comment declares, by annotations and by a plain tag. -/
def targetsOf (w : World) (c : Comment) : Except Error Placement := do
  let annotated ← ((c.annotations.get? targetType).getD []).foldlM (addTarget w) .nowhere
  match c.tags.get? "Target" with
  | none => return annotated
  | some (.bool true) => throw (.invalidTarget "@Target requires a value")
  | some v => return annotated.union (← Placement.parse w v)

/-- The default attribute that a comment declares. -/
def defaultOf (c : Comment) : Except Error (Option String) :=
  match c.tags.get? "DefaultAttribute" with
  | none => .ok none
  | some (.str s) =>
    let name := Text.trimmed s
    if name.isEmpty then .error (.markerWithoutName "DefaultAttribute") else .ok (some name)
  | some _ => .error (.markerWithoutName "DefaultAttribute")

/-- What a class declares in its comment and by its constructor. -/
def declarations (w : World) (type : TypeId) (c : Comment) : Run Reader Declarations := do
  let attributes ← ((c.annotations.get? attributeType).getD []).mapM (specOf w (w.classScope type))
  let targets ← liftExcept (targetsOf w c)
  let defaultAttribute ← liftExcept (defaultOf c)
  let params := (w.constructor? type).map fun k => k.params.filter Param.isPositional
  return { attributes, targets, defaultAttribute, params }

end Declaring

/-! ## Resolution -/

/-- Reads the comment of a class for the schema of the type id `type`, if the reader may. -/
def readClassWith (w : World) (schemaOf : TypeId → Run Reader Schema) (type found : TypeId) :
    Run Reader Comment := do
  let x : Setting :=
    { world := w, scope := w.classScope found, placement := .onClass, owner := some type, schemaOf }
  if (← get).readsClasses then x.read (w.classDoc found) else throw (.unreadable found)

/-- Checks a schema and fills its accessors. -/
def finish (w : World) (type : TypeId) (s : Schema) : Run Reader Schema := do
  liftExcept (s.validate type)
  let found ← onNames (Names.load w type)
  liftExcept (s.compile w found type)

/-- The schema of a registered type. -/
def resolveDeclared (w : World) (ancestorOf : TypeId → Run Reader Schema) (type : TypeId)
    (declared : Schema) : Run Reader Schema := do
  let parent := declared.parent.getD ""
  if parent.isEmpty then finish w type declared
  else
    let parentId ← onNames (Names.resolve w [] parent)
    finish w type (declared.onTopOf (← ancestorOf parentId) parentId)

/-- What a class has from its first base class. -/
def inherited (w : World) (ancestorOf : TypeId → Run Reader Schema) (found : TypeId) :
    Run Reader Schema := do
  match w.parent? found with
  | some parent =>
    remember parent
    let s ← ancestorOf parent
    return { s.clone with parent := some parent }
  | none => return { targets := .nowhere }

/-- The schema of a class from its documentation, and whether the class is an annotation type.  A
class that is none has no schema of its own; it passes on what it inherits. -/
def introspect (w : World) (schemaOf ancestorOf : TypeId → Run Reader Schema) (type : TypeId) :
    Run Reader (Schema × Bool) := do
  let found ← onNames (Names.load w type)
  let s ← inherited w ancestorOf found
  let c ← readClassWith w schemaOf type found
  if c.has "Annotation" then
    let s := (s.extend (← declarations w found c)).withTargets
    return (← finish w type s, true)
  else return (s, false)

/-- The schema of a type that is neither known nor being resolved, from what was registered for it
or else from its class, and whether it is an annotation type. -/
def resolveFresh (w : World) (schemaOf ancestorOf : TypeId → Run Reader Schema) (type : TypeId) :
    Option Schema → Run Reader (Schema × Bool)
  | some declared => do return (← resolveDeclared w ancestorOf type declared, true)
  | none => introspect w schemaOf ancestorOf type

/-- Keeps the schema of an annotation type.  What is no annotation type has a schema as an ancestor
only. -/
def settle (asAncestor : Bool) (type : TypeId) : Schema × Bool → Run Reader Schema
  | (s, true) => do
    modify fun r => { r with resolved := r.resolved.put type s }
    return s
  | (s, false) => if asAncestor then return s else throw (.notMarked type)

/-- Resolves the schema of a type, through at most the given number of nested types. -/
def resolveWithin (w : World) : Nat → Bool → TypeId → Run Reader Schema
  | n, asAncestor, type => do
    let r ← get
    match r.resolved.get? type with
    | some s => return s
    | none =>
      if r.stack.contains type then
        throw (.cycle (r.stack.dropWhile (· != type) ++ [type]))
      match n with
      | 0 => throw .tooDeep
      | n + 1 =>
        opening type do
          let found ← resolveFresh w (resolveWithin w n false) (resolveWithin w n true) type
            (r.declared.get? type)
          settle asAncestor type found

/-- Resolves the schema of an annotation type. -/
def resolveSchema (w : World) (type : TypeId) : Run Reader Schema := do
  resolveWithin w (depth w (← get)) false type

end Reader
end DocTags
