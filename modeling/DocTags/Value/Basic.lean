import DocTags.Error
import DocTags.Keyed
import DocTags.Moment
import DocTags.Number.Binary64
import DocTags.Placement

/-!
# Values

The values that tags, constants, constructors and schemas are about, and the types that attributes
may declare.  The two are defined together: an enumeration type lists values, and a type can be a
value of its own.  Every value has a class, which `typeOf` names.
-/

namespace DocTags

/-! ## Routines -/

/-- How a setter changes its field. -/
inductive SetterMode where
  /-- The field becomes the value. -/
  | store
  /-- The field becomes the elements of the value in ascending order. -/
  | sorted
  /-- The value is put behind the elements that the field holds. -/
  | append
  deriving DecidableEq, Repr

/-- What a call with an object and a value does to the object. -/
inductive Effect where
  | nothing
  /-- The call is refused, whatever the value. -/
  | refused
  | write (field : String) (mode : SetterMode)
  /-- The constructor of the class runs on the object again, with the value as its argument. -/
  | initialise
  /-- A new object of the bound class is made of the two. -/
  | construct
  /-- The field that the value names is taken away. -/
  | erase
  /-- The member that the value names is looked up. -/
  | look
  /-- The object is shown in the format that the value names. -/
  | format
  /-- The object is taken apart for the version that the value names. -/
  | reduce
  deriving DecidableEq, Repr

/-- How a routine was found: as it was defined, or bound to the class it was taken from. -/
inductive Binding where
  | free
  | bound (type : TypeId)
  deriving DecidableEq, Repr

/-- How a routine is made: by a program, or as part of every class. -/
inductive Making where
  | defined
  /-- An operation of objects that the language has a sign for. -/
  | slot
  /-- Another operation of objects. -/
  | method
  /-- An operation of a class. -/
  | builtin
  /-- An operation of a class that the language has a sign for. -/
  | wrapper
  deriving DecidableEq, Repr

/-- A function or method. -/
structure Routine where
  name : String
  /-- The class in the full name of the routine; empty if there is none. -/
  owner : String := ""
  /-- The module in which the routine was defined. -/
  home : String
  doc : Option String := none
  binding : Binding := .free
  making : Making := .defined
  effect : Effect := .nothing
  deriving DecidableEq, Repr

/-- The name of a routine with that of its class. -/
def Routine.fullName (r : Routine) : String :=
  if r.owner.isEmpty then r.name else r.owner ++ "." ++ r.name

/-- A property that can be read and not written. -/
structure Property where
  name : String
  owner : TypeId
  /-- The module in which the property was defined. -/
  home : String
  doc : Option String
  deriving DecidableEq, Repr

/-! ## Values and types -/

/-- Where an object comes from.  Objects are equal only if they have the same origin. -/
inductive Origin where
  /-- Given from outside, under a number of its own. -/
  | given (number : Nat)
  /-- Built from an annotation in the documentation of a type, or in a text of no type. -/
  | built (owner : Option TypeId)
  deriving DecidableEq, Repr

mutual

/-- The values of the tag language and of the programs it documents. -/
inductive Value where
  | null
  | bool (b : Bool)
  | int (n : Int)
  /-- A floating point number.  The mark tells apart those that are no number: each of them is equal
  to nothing but is still found among the elements that hold it. -/
  | float (x : Binary64) (mark : Nat)
  | str (s : String)
  | moment (m : Moment)
  | list (items : List Value)
  | tuple (items : List Value)
  /-- Pairs of a key and a value in the order of the keys' first appearance. -/
  | dict (pairs : List (Value × Value))
  /-- A tag list: values in order, some of them with a key. -/
  | tags (entries : List (Option String × Value))
  /-- An object with its class and its fields in the order of their first assignment. -/
  | object (origin : Origin) (type : TypeId) (fields : List (String × Value))
  /-- A class. -/
  | cls (id : TypeId)
  | routine (routine : Routine)
  | property (property : Property)
  | moduleNamed (name : String)
  | placement (mask : Placement)
  /-- The mark of an attribute without default. -/
  | missing
  | typeExpr (type : TypeExpr)

/-- The types that attributes may declare. -/
inductive TypeExpr where
  | mixed
  | string
  | number
  | integer
  | float
  | boolean
  /-- One of the values. -/
  | enum (values : List Value)
  /-- An object of a class or of one of its subclasses. -/
  | ref (type : TypeId)
  /-- An array with one type per element; without types, any array. -/
  | tuple (items : List TypeExpr)
  /-- An array with elements of one type. -/
  | list (item : TypeExpr)
  /-- Something that is no type. -/
  | foreign (name : String)

end

instance : Inhabited Value := ⟨.null⟩
instance : Inhabited TypeExpr := ⟨.mixed⟩

/-! ## Classes of values -/

/-- The id of a class that belongs to the language itself. -/
def builtin (name : String) : TypeId := "builtins." ++ name

/-- `true` on the ids of classes of the language. -/
def isBuiltin (id : TypeId) : Bool := "builtins.".toList.isPrefixOf id.toList

/-- The class that all classes descend from, and the class of classes. -/
def objectType : TypeId := builtin "object"
def classType : TypeId := builtin "type"

/-- The classes of tag lists, of placements and of the mark of a missing default. -/
def tagListType : TypeId := "docannot.values.TagList"
def placementType : TypeId := "docannot.targets.Placement"
def missingType : TypeId := "docannot.schema._Missing"

/-- The name of the form of a type. -/
def TypeExpr.form : TypeExpr → String
  | .mixed => "Mixed"
  | .string => "String"
  | .number => "Number"
  | .integer => "Integer"
  | .float => "Float"
  | .boolean => "Boolean"
  | .enum _ => "EnumOf"
  | .ref _ => "ClassRef"
  | .tuple _ => "TupleOf"
  | .list _ => "ListOf"
  | .foreign _ => "object"

/-- The class of a type as a value. -/
def TypeExpr.classOf : TypeExpr → TypeId
  | .foreign _ => objectType
  | t => "docannot.types." ++ t.form

/-- The class of a routine. -/
def Routine.classOf (r : Routine) : TypeId :=
  match r.making, r.binding with
  | .defined, .free => builtin "function"
  | .defined, .bound _ => builtin "method"
  | .slot, _ => builtin "wrapper_descriptor"
  | .method, _ => builtin "method_descriptor"
  | .builtin, _ => builtin "builtin_function_or_method"
  | .wrapper, _ => builtin "method-wrapper"

/-- The last part of a dotted name. -/
def lastPart (name : String) : String :=
  String.ofList ((name.toList.reverse.takeWhile (· != '.')).reverse)

namespace Value

/-- The class of a value. -/
def typeOf : Value → TypeId
  | null => builtin "NoneType"
  | bool _ => builtin "bool"
  | int _ => builtin "int"
  | float _ _ => builtin "float"
  | str _ => builtin "str"
  | moment m => "datetime." ++ m.sortName
  | list _ => builtin "list"
  | tuple _ => builtin "tuple"
  | dict _ => builtin "dict"
  | tags _ => tagListType
  | object _ type _ => type
  | cls _ => classType
  | routine r => r.classOf
  | property _ => builtin "property"
  | moduleNamed _ => builtin "module"
  | placement _ => placementType
  | missing => missingType
  | typeExpr t => t.classOf

/-- The name of the sort of a value in messages. -/
def sortName (v : Value) : String :=
  lastPart v.typeOf

/-! ## Numbers, truth and elements -/

/-- Numbers of all kinds, for comparison. -/
inductive Number where
  | whole (n : Int)
  | binary (x : Binary64)

/-- The number a value stands for: truth values are 0 and 1, and a placement is its mask. -/
def number? : Value → Option Number
  | bool b => some (.whole (if b then 1 else 0))
  | int n => some (.whole n)
  | float x _ => some (.binary x)
  | placement p => some (.whole p.mask)
  | _ => none

/-- Equality of numbers by value, whatever their kind. -/
def Number.equal : Number → Number → Bool
  | whole m, whole n => m == n
  | whole m, binary y => y.equalInt m
  | binary x, whole n => x.equalInt n
  | binary x, binary y => x.equal y

/-- What counts as false: the null and missing marks, zeros, and everything empty. -/
def truthy : Value → Bool
  | null | missing => false
  | bool b => b
  | int n => n != 0
  | float x _ => !x.isZero
  | str s => !s.isEmpty
  | list items | tuple items => !items.isEmpty
  | dict pairs => !pairs.isEmpty
  | tags entries => !entries.isEmpty
  | placement p => p.mask != 0
  | _ => true

/-- The elements a value gives when it is iterated: the characters of a text, the keys of a
dictionary, the values of a tag list, the named members of a placement. -/
def elements? : Value → Option (List Value)
  | str s => some (s.toList.map fun c => str (String.singleton c))
  | list items | tuple items => some items
  | dict pairs => some (pairs.map Prod.fst)
  | tags entries => some (entries.map Prod.snd)
  | placement p => some (p.members.map placement)
  | _ => none

/-- `elements?`, failing on values that have none. -/
def elements (v : Value) : Except Error (List Value) :=
  match v.elements? with
  | some items => .ok items
  | none => .error (.misuse .type)

/-- `true` on the mark of an attribute without default. -/
def isMissing : Value → Bool
  | missing => true
  | _ => false

end Value
end DocTags
