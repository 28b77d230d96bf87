import DocTags.World.Native

/-!
# Attributes

What a dot behind a value gives.  Modules give their members; classes give facts about themselves,
their members, own and inherited, and the routines of all classes; objects give their fields and the
members of their class; and the other values give what their kind has.  Dotted paths are followed
from a module, or from a name in scope.
-/

namespace DocTags

namespace Value

/-- The dictionary of some named values. -/
def ofFields (fields : Keyed Value) : Value :=
  dict (fields.map fun (name, v) => (str name, v))

/-- A text, or null for none. -/
def ofText? (s : Option String) : Value :=
  s.elim null str

/-- What a set of placements holds: its mask, its name and, if it is one of the declared sets, where
it was declared. -/
def placementFields (p : Placement) : Keyed Value :=
  let declared := (Placement.named.map Prod.snd) ++ [Placement.all]
  [("_value_", int p.mask), ("_name_", ofText? p.name?)] ++
    match declared.findIdx? (· == p) with
    | some place => [("__objclass__", cls placementType), ("_sort_order_", int place)]
    | none => []

/-- What a type holds. -/
def typeFields : TypeExpr → Keyed Value
  | .enum values => [("values", tuple values)]
  | .ref type => [("type_id", str type)]
  | .tuple items => [("items", tuple (items.map typeExpr))]
  | .list item => [("item", typeExpr item)]
  | _ => []

/-- The fields that a value other than an object holds by name, if it is of a kind that holds
any. -/
def kindFields? : Value → Option (Keyed Value)
  | typeExpr (.foreign _) => none
  | typeExpr t => some (typeFields t)
  | missing => some []
  | routine r => if r.making == .defined then some [] else none
  | placement p => some (placementFields p)
  | _ => none

/-- What an integer tells about itself as a number. -/
def wholeFact? (n : Int) (name : String) : Option Value :=
  match name with
  | "real" | "numerator" => some (int n)
  | "imag" => some (int 0)
  | "denominator" => some (int 1)
  | _ => none

/-- What a set of placements tells about itself; the declared sets can be reached from any set. -/
def placementFact? (p : Placement) (name : String) : Option Value :=
  match name with
  | "value" => some (int p.mask)
  | "name" => some (ofText? p.name?)
  | name =>
    Keyed.get? (placementFields p) name <|> (Placement.ofName? name).map placement <|>
      wholeFact? p.mask name

/-- What a routine tells about itself. -/
def routineFact? (r : Routine) (name : String) : Option Value :=
  match name, r.binding with
  | "__name__", _ => some (str r.name)
  | "__qualname__", _ => some (str r.fullName)
  | "__doc__", _ => some (ofText? r.doc)
  | "__module__", _ => if r.making == .defined then some (str r.home) else none
  | "__annotations__", _ => if r.making == .defined then some (dict []) else none
  | "__self__", .bound type => some (cls type)
  | "__func__", .bound _ =>
    if r.making == .defined then some (routine { r with binding := .free }) else none
  | _, _ => none

/-- What a property tells about itself. -/
def propertyFact? (p : Property) (name : String) : Option Value :=
  match name with
  | "__doc__" => some (ofText? p.doc)
  | "fget" => some (routine { name := p.name, home := p.home, doc := p.doc })
  | "fset" | "fdel" => some null
  | "__isabstractmethod__" => some (bool false)
  | _ => none

/-- What a tag list tells about itself. -/
def tagsFact? (entries : List (Option String × Value)) (name : String) : Option Value :=
  match name with
  | "has_keys" => some (bool (entries.any fun entry => entry.1.isSome))
  | "_entries" => some (list (entries.map fun (key, v) => tuple [ofText? key, v]))
  | "_index" =>
    some (dict (entries.zipIdx.filterMap fun ((key, _), i) => key.map fun k => (str k, int i)))
  | "__slots__" => some (tuple [str "_entries", str "_index"])
  | _ => none

/-- What a value tells about itself by its kind. -/
def fact? (v : Value) (name : String) : Option Value :=
  match v with
  | bool b => wholeFact? (if b then 1 else 0) name
  | int n => wholeFact? n name
  | float _ _ =>
    match name with
    | "real" => some v
    | "imag" => some (float (.ofMagnitude false 0) 0)
    | _ => none
  | placement p => placementFact? p name
  | typeExpr t =>
    if name == "__match_args__" then some (tuple ((typeFields t).map fun field => str field.1))
    else Keyed.get? (typeFields t) name
  | tags entries => tagsFact? entries name
  | routine r => routineFact? r name
  | property p => propertyFact? p name
  | _ => none

end Value

namespace World

/-- What a class tells about itself. -/
def classFact? (w : World) (id : TypeId) (name : String) : Option Value :=
  let c := w.classOf id
  let bases := if c.bases.isEmpty && id != objectType then [objectType] else c.bases
  match name with
  | "__name__" => some (.str (lastPart id))
  | "__qualname__" => some (.str (w.nameOf id))
  | "__module__" => some (.str c.home)
  | "__doc__" => some (Value.ofText? c.doc)
  | "__bases__" => some (.tuple (bases.map .cls))
  | "__base__" => some (bases.head?.elim .null .cls)
  | "__mro__" => some (.tuple ((w.ancestryOfAll id).map .cls))
  | "__class__" => some (.cls classType)
  | "__annotations__" => some (.dict [])
  | "__text_signature__" => some .null
  | "__itemsize__" => some (.int 0)
  | "__dict__" | "__weakref__" => some (.typeExpr (.foreign name))
  | _ => none

/-- What a dot behind a class gives. -/
def classAttribute? (w : World) (id : TypeId) (name : String) : Option Value :=
  w.classFact? id name <|> w.member? id name <|> (w.member? classType name).map (w.bindTo id)

/-- The fields that a value holds by name, if it holds any by name.  Those of an object that its
class has slots for are not among them. -/
def fieldsOf? (w : World) : Value → Option (Keyed Value)
  | .object _ type fields =>
    if w.holdsFields type then some (fields.filter fun field => !(w.slots type).contains field.1)
    else none
  | v => v.kindFields?

/-- What a value has from its class. -/
def inherited? (w : World) (v : Value) (name : String) : Option Value :=
  let c := w.classOf v.typeOf
  match name with
  | "__class__" => some (.cls v.typeOf)
  | "__dict__" => (w.fieldsOf? v).map Value.ofFields
  | "__doc__" => some (Value.ofText? c.doc)
  | "__module__" => if c.home == "builtins" then none else some (.str c.home)
  | name => w.member? v.typeOf name

/-- What a dot behind an object gives.  Properties come before fields and have no value. -/
def objectAttribute? (w : World) (v : Value) (type : TypeId) (fields : Keyed Value)
    (name : String) : Option Value :=
  match w.member? type name with
  | some (.property _) => some .null
  | _ =>
    if name == "__class__" || name == "__dict__" then w.inherited? v name
    else if name == "__weakref__" && w.holdsFields type then some .null
    else fields.get? name <|> w.inherited? v name

/-- What a dot behind a value gives. -/
def attribute? (w : World) (v : Value) (name : String) : Option Value :=
  match v with
  | .moduleNamed m =>
    ((w.modules.get? m).bind fun members => members.get? name) <|> w.inherited? v name
  | .cls id => w.classAttribute? id name
  | .object _ type fields => w.objectAttribute? v type fields name
  | v => v.fact? name <|> w.inherited? v name

/-- `true` on what can be called: routines, classes and the objects of classes that say how. -/
def isCallable (w : World) : Value → Bool
  | .routine _ | .cls _ => true
  | .object _ type _ => (w.member? type "__call__").isSome
  | _ => false

/-- Follows a path of dots from a value. -/
def follow? (w : World) (v : Value) : List String → Option Value
  | [] => some v
  | name :: rest => (w.attribute? v name).bind fun v => w.follow? v rest

/-! ## Paths -/

/-- The member that a path denotes when its first `split` parts name a module. -/
def importAt? (w : World) (parts : List String) (split : Nat) : Option Value :=
  let name := dottedName (parts.take split)
  if w.modules.has name then w.follow? (.moduleNamed name) (parts.drop split) else none

/-- The member that an absolute dotted path denotes; the longest module name is tried first, and a
name of one part denotes nothing. -/
def import? (w : World) (path : String) : Option Value :=
  let parts := dottedParts path
  ((List.range parts.length).reverse.filter (0 < ·)).findSome? (w.importAt? parts)

/-- The member that a dotted name denotes in a scope. -/
def lookup? (w : World) (scope : Scope) (name : String) : Option Value :=
  match dottedParts name with
  | [] => none
  | head :: rest => (scope.get? head).bind fun v => w.follow? v rest

/-! ## Documentation -/

/-- The raw documentation of a value, if it has any. -/
def docOf? (w : World) (v : Value) : Option String :=
  match w.attribute? v "__doc__" with
  | some (.str doc) => some doc
  | _ => none

/-- The module whose names the documentation of a value can use. -/
def homeOf? (w : World) : Value → Option String
  | .property p => some p.home
  | v =>
    match w.attribute? v "__module__" with
    | some (.str home) => some home
    | _ => none

/-- The documentation of an element and the names that its text can use. -/
def documented (w : World) (v : Value) : List Char × Scope :=
  (Text.documentation ((w.docOf? v).getD "").toList, w.scopeOf ((w.homeOf? v).getD ""))

end World
end DocTags
