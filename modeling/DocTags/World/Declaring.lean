import DocTags.World.Attribute

/-!
# The declaring annotations

Three annotation types are part of every world: they declare the attributes, the enumerations and
the targets of other annotation types.  A world is put together from modules, whose imports are
followed once all of them are there.
-/

namespace DocTags

/-- The module of the declaring annotations, and the package that shows them too. -/
def declaringModule : String := "docannot.annotations"
def declaringPackage : String := "docannot"

def attributeType : TypeId := declaringModule ++ ".Attribute"
def enumType : TypeId := declaringModule ++ ".Enum"
def targetType : TypeId := declaringModule ++ ".Target"

/-- A routine of a declaring annotation. -/
def declaringRoutine (owner name : String) (effect : Effect) : Value :=
  .routine { name, owner, home := declaringModule, effect }

/-- The routines that every declaring annotation has: one makes its objects, and one shows them. -/
def declaringRoutines (owner : String) : Keyed Value :=
  [("__init__", declaringRoutine owner "__init__" .initialise),
    ("__repr__", declaringRoutine owner "__repr__" .refused)]

/-- The annotation that declares an attribute of the type it is placed on. -/
def attributeClass : Class where
  id := attributeType
  home := declaringModule
  doc := some "Declares one attribute of the annotation type it is placed on."
  members := ("to_spec", declaringRoutine "Attribute" "to_spec" .nothing) ::
    declaringRoutines "Attribute"
  constructor := some
    { fields :=
        [("name", .str ""), ("type", .str "mixed"), ("setter", .null), ("nullable", .bool false),
          ("required", .bool false), ("default", .missing)] }
  look := .ofAttribute

/-- The annotation that lists the values an attribute may have. -/
def enumClass : Class where
  id := enumType
  home := declaringModule
  doc := some ("Restricts an attribute to a fixed set of values: " ++
    "`type: @Enum(\x7b'a', 'b'\x7d)`.")
  members := declaringRoutines "Enum"
  constructor := some { fields := [("values", .list [])] }
  look := .ofEnum

/-- The annotation that lists where its type may be placed. -/
def targetClass : Class where
  id := targetType
  home := declaringModule
  doc := some ("Allowed placements of the annotation type: " ++
    "`@Target(\x7b'class', 'method'\x7d)`.")
  members := declaringRoutines "Target"
  constructor := some { params := [{ name := "target" }], placementParam := some "target" }
  look := .ofTarget

/-- What every module has: its name, and places for what is not known about it. -/
def moduleFacts (name : String) : Keyed Value :=
  [("__name__", .str name), ("__doc__", .null), ("__package__", .null), ("__loader__", .null),
    ("__spec__", .null)]

/-- The members of a module that has the declaring annotations. -/
def declaringMembers (name : String) : Keyed Value :=
  [("__name__", .str name), ("__package__", .str declaringPackage),
    ("Attribute", .cls attributeType), ("Enum", .cls enumType), ("Target", .cls targetType)]

/-- A module before its imports are followed: its own members, and the paths that its other names
stand for. -/
structure ModuleSource where
  name : String
  members : Keyed Value := []
  imports : List (String × String) := []

namespace World

/-- The world without any module but those of the declaring annotations. -/
def base : World where
  modules :=
    [declaringModule, declaringPackage].map fun name => (name, declaringMembers name)
  classes :=
    ([attributeClass, enumClass, targetClass] ++ nativeClasses).map fun c => (c.id, c)

/-- Gives a module a name for another module or for a member of one. -/
def addImport (w : World) (home short path : String) : World :=
  let found := if w.modules.has path then some (.moduleNamed path) else w.import? path
  match found with
  | none => w
  | some v => { w with modules := w.modules.put home ((w.scopeOf home).put short v) }

/-- The world of some modules and classes. -/
def ofModules (modules : List ModuleSource) (classes : List Class) : World :=
  let bare : World :=
    { modules := base.modules.merge
        (modules.map fun m => (m.name, (moduleFacts m.name).merge m.members))
      classes := base.classes.merge (classes.map fun c => (c.id, c)) }
  modules.foldl
    (fun w m => m.imports.foldl (fun w (short, path) => w.addImport m.name short path) w) bare

end World
end DocTags
