import DocTags.Value.Equality
import DocTags.World.Attribute

/-!
# Schemas

What an annotation type declares: its attributes, where it may be placed, which attribute an unnamed
value is for, and which attributes go to the constructor.  A resolved schema also has a table that
says how the value of each attribute reaches an object.
-/

namespace DocTags

/-- The contract of one attribute. -/
structure AttributeSpec where
  name : String
  /-- The name as it was given, if it is no text. -/
  label : Option Value := none
  type : TypeExpr := .mixed
  required : Bool := false
  /-- A null value is taken without a check of its type. -/
  nullable : Bool := false
  /-- The name of the method that takes the value instead of the field; what counts as false names
  none. -/
  setter : Value := .null
  /-- What the constructor gets when no value was supplied. -/
  default : Option Value := none

/-- How a value reaches an object: it is written to a field or handed to something callable. -/
inductive Accessor where
  | field (name : String)
  | call (target : Value)
  /-- There is no field, because the name is no text. -/
  | nowhere

/-- The declared shape of an annotation type. -/
structure Schema where
  defaultAttribute : Option String := none
  targets : Placement := .onClass
  /-- The attributes that the constructor takes, in order; absent when it is called without
  arguments. -/
  constructor : Option (List String) := none
  attributes : Keyed AttributeSpec := []
  parent : Option TypeId := none
  /-- For resolved schemas, how the value of each attribute is applied. -/
  accessors : Keyed Accessor := []

/-- What one class declares itself, in its documentation and by its constructor. -/
structure Declarations where
  attributes : List AttributeSpec := []
  targets : Placement := .nowhere
  defaultAttribute : Option String := none
  /-- The parameters that take arguments by place, if the class has a constructor. -/
  params : Option (List Param) := none

namespace AttributeSpec

/-- Equality of contracts. -/
def equal (a b : AttributeSpec) : Bool :=
  a.name == b.name && Value.equalType a.type b.type && a.required == b.required &&
    a.nullable == b.nullable && a.setter.same b.setter &&
    match a.default, b.default with
    | none, none => true
    | some v, some w => v.same w
    | _, _ => false

/-- The attribute's name as a value. -/
def nameValue (spec : AttributeSpec) (name : String) : Value :=
  spec.label.getD (.str name)

/-- The contract of an attribute that is also a parameter: a default of the signature fills a gap,
and the attribute is required unless it has a default or may be null. -/
def withParam (spec : AttributeSpec) (p : Param) : AttributeSpec :=
  let default := spec.default <|> p.default.filter fun v => !v.isMissing
  { spec with default, required := default.isNone && !spec.nullable }

end AttributeSpec

namespace Schema

/-- Equality of schemas, accessors apart. -/
def equal (a b : Schema) : Bool :=
  a.defaultAttribute == b.defaultAttribute && a.targets == b.targets &&
    a.constructor == b.constructor && a.parent == b.parent &&
    a.attributes.length == b.attributes.length &&
    a.attributes.all fun (name, spec) => (b.attributes.get? name).any spec.equal

/-- A copy to be extended: without accessors. -/
def clone (s : Schema) : Schema :=
  { s with accessors := [] }

/-- The names of the attributes that must be supplied, in order. -/
def required (s : Schema) : List String :=
  (s.attributes.filter fun (_, spec) => spec.required).map Prod.fst

/-- Checks that constructor and default attribute name declared attributes only. -/
def validate (s : Schema) (type : TypeId) : Except Error Unit :=
  match (s.constructor.getD []).find? fun name => !s.attributes.has name with
  | some name => .error (.undeclaredParameter name type)
  | none =>
    match s.defaultAttribute with
    | none => .ok ()
    | some name =>
      if name.isEmpty || s.attributes.has name then .ok ()
      else .error (.undeclaredDefault name type)

/-- The accessor of an attribute for objects of a class. -/
def accessorOf (w : World) (found type : TypeId) (name : String) (spec : AttributeSpec) :
    Except Error Accessor :=
  if !spec.setter.truthy then .ok (if spec.label.isSome then .nowhere else .field name)
  else
    match spec.setter with
    | .str setter =>
      match (w.classAttribute? found setter).filter w.isCallable with
      | some target => .ok (.call target)
      | none => .error (.noSetter setter name type)
    | _ => .error (.misuse .type)

/-- Fills the table of accessors, for objects of the class `found`. -/
def compile (w : World) (found type : TypeId) (s : Schema) : Except Error Schema := do
  let accessors ← s.attributes.mapM fun (name, spec) => do
    return (name, ← accessorOf w found type name spec)
  return { s with accessors }

/-- A registered schema on top of the schema of its parent: own entries win, gaps are inherited. -/
def onTopOf (s parent : Schema) (parentId : TypeId) : Schema where
  defaultAttribute := s.defaultAttribute <|> parent.defaultAttribute
  targets := s.targets
  constructor := s.constructor <|> parent.constructor
  attributes := parent.attributes.merge s.attributes
  parent := some parentId

/-- Adds a parameter of the constructor to the attributes. -/
def addParam (attributes : Keyed AttributeSpec) (p : Param) : Keyed AttributeSpec :=
  attributes.put p.name (((attributes.get? p.name).getD { name := p.name }).withParam p)

/-- The schema of a class from that of its parent and its own declarations. -/
def extend (s : Schema) (d : Declarations) : Schema :=
  let attributes := s.attributes.merge (d.attributes.map fun spec => (spec.name, spec))
  { s with
    defaultAttribute := d.defaultAttribute <|> s.defaultAttribute
    targets := if d.targets == .nowhere then s.targets else d.targets
    constructor := match d.params with
      | none => s.constructor
      | some [] => none
      | some params => some (params.map Param.name)
    attributes := (d.params.getD []).foldl addParam attributes
    accessors := [] }

/-- A type that declares no target may be placed on classes. -/
def withTargets (s : Schema) : Schema :=
  if s.targets == .nowhere then { s with targets := .onClass } else s

end Schema
end DocTags
