import DocTags.Text.Block
import DocTags.Value.Basic

/-!
# Worlds

The documented programs, as data: modules with their members, and classes with their bases, their
members and their constructors.  Members are looked up along the linear order of a class and its
ancestors, and objects are made by the constructor that comes first in that order.  The classes of
the language itself are part of every world.
-/

namespace DocTags

/-- How a constructor takes a parameter. -/
inductive ParamKind where
  | normal
  | positionalOnly
  | keywordOnly
  /-- All remaining arguments, as a tuple. -/
  | varPositional
  /-- All keyword arguments, as a dictionary. -/
  | varKeyword
  deriving DecidableEq, Repr

/-- A parameter of a constructor. -/
structure Param where
  name : String
  kind : ParamKind := .normal
  default : Option Value := none

/-- `true` on the parameters that an argument can be passed to by its place. -/
def Param.isPositional (p : Param) : Bool :=
  p.kind == .normal || p.kind == .positionalOnly

/-- A constructor assigns fixed values to some fields and then each parameter to the field of its
name. -/
structure Constructor where
  fields : Keyed Value := []
  params : List Param := []
  /-- The parameter that is read as a set of placements. -/
  placementParam : Option String := none

/-- How the objects of a class are shown. -/
inductive Look where
  /-- By the name of the class. -/
  | plain
  /-- As one of the declaring annotations. -/
  | ofAttribute
  | ofEnum
  | ofTarget
  /-- By a method of the class, which gives this text, or none. -/
  | own (text : Value → Option String)

/-- A class.  What its methods do is known of those only that objects are shown by and compared
by. -/
structure Class where
  id : TypeId
  /-- The module in which the class is defined. -/
  home : String
  doc : Option String := none
  bases : List TypeId := []
  members : Keyed Value := []
  constructor : Option Constructor := none
  look : Look := .plain
  /-- The text that the method `__repr__` of the class gives of an object, if it gives one.  It
  counts where the class has this method, and so with the next one. -/
  rendered : Value → Option String := fun _ => none
  /-- The text that the method `__str__` of the class gives of an object. -/
  displayed : Value → Option String := fun _ => none
  /-- What the method `__eq__` of the class says of an object and another value. -/
  compared : Value → Value → Bool := fun _ _ => false

/-- Modules by name, with their members, and classes by their type id. -/
structure World where
  modules : Keyed (Keyed Value)
  classes : Keyed Class

/-- The names that a text can use: the members of a module. -/
abbrev Scope := Keyed Value

/-- The parts of a dotted name. -/
def dottedParts (name : String) : List String :=
  (Text.splitAt '.' name.toList).map String.ofList

/-- The dotted name of its parts. -/
def dottedName (parts : List String) : String :=
  ".".intercalate parts

namespace World

/-! ## Classes and their ancestors -/

/-- Takes a class out of the heads of the lists that begin with it. -/
def dropHead (id : TypeId) (lists : List (List TypeId)) : List (List TypeId) :=
  (lists.map fun ids => if ids.head? == some id then ids.drop 1 else ids).filter (!·.isEmpty)

/-- Merges orders into one that respects each of them: the next class is the first head that no
list has further back. -/
def mergeOrders : Nat → List (List TypeId) → List TypeId
  | 0, _ => []
  | n + 1, lists =>
    let heads := lists.filterMap List.head?
    match heads.find? fun id => !lists.any fun ids => (ids.drop 1).contains id with
    | none => []
    | some id => id :: mergeOrders n (dropHead id lists)

/-- The class and its ancestors in the order in which members are looked for, through at most the
given number of generations. -/
def lineage (w : World) : Nat → TypeId → List TypeId
  | 0, id => [id]
  | n + 1, id =>
    match w.classes.get? id with
    | none => [id]
    | some c =>
      let lists := (c.bases.map (w.lineage n) ++ [c.bases]).filter (!·.isEmpty)
      id :: mergeOrders (lists.map List.length).sum lists

/-- The class and its ancestors, nearest first. -/
def ancestry (w : World) (id : TypeId) : List TypeId :=
  w.lineage w.classes.length id

/-- The first base of a class. -/
def parent? (w : World) (id : TypeId) : Option TypeId :=
  (w.classes.get? id).bind fun c => c.bases.head?

/-- The class and its ancestors, down to the class of all objects. -/
def ancestryOfAll (w : World) (id : TypeId) : List TypeId :=
  let found := w.ancestry id
  if found.contains objectType then found else found ++ [objectType]

/-- `true` when the value belongs to the class or to one of its subclasses. -/
def isInstance (w : World) (id : TypeId) (v : Value) : Bool :=
  (w.ancestryOfAll v.typeOf).contains id

/-- The classes of texts, numbers, truth values and arrays. -/
def kindTypes : List TypeId :=
  [builtin "str", builtin "int", builtin "float", builtin "bool", builtin "list", builtin "tuple",
    tagListType, placementType]

/-- `true` when no class of a program descends from one of these.  Its objects would be texts,
numbers or arrays too, and no object is taken for one here. -/
def isOrdinary (w : World) : Bool :=
  w.classes.all fun (id, c) => c.bases.all fun base =>
    !kindTypes.contains base ||
      base == builtin "int" && (id == builtin "bool" || id == placementType)

/-- What is known about a class.  The id of a class that is not described ends with its name. -/
def classOf (w : World) (id : TypeId) : Class :=
  (w.classes.get? id).getD
    { id, home := String.ofList (id.toList.take (id.length - (lastPart id).length - 1)) }

/-! ## Members -/

/-- The name of a class inside its module. -/
def nameOf (w : World) (id : TypeId) : String :=
  String.ofList (id.toList.drop ((w.classOf id).home.length + 1))

/-- A member taken from a class: routines that belong to the class are bound to the one they are
taken from, and those that were not defined by a program are named after it. -/
def bindTo (w : World) (id : TypeId) : Value → Value
  | .routine r => match r.binding with
    | .free => .routine r
    | .bound _ =>
      let owner := if r.making == .builtin then w.nameOf id else r.owner
      .routine { r with binding := .bound id, owner }
  | v => v

/-- The routine that runs the constructor of a class. -/
def initialiser (c : Class) : Value :=
  .routine { name := "__init__", home := c.home, effect := .initialise }

/-- A member that a class has itself.  A constructor is a member too. -/
def ownMember? (c : Class) (name : String) : Option Value :=
  match c.members.get? name with
  | some v => some v
  | none => if name == "__init__" && c.constructor.isSome then some (initialiser c) else none

/-- A member of a class, its own or inherited. -/
def member? (w : World) (id : TypeId) (name : String) : Option Value :=
  (w.ancestryOfAll id).findSome? fun c =>
    ((w.classes.get? c).bind fun c => ownMember? c name).map (w.bindTo id)

/-- All members of a class, own and inherited, each name once. -/
def members (w : World) (id : TypeId) : Keyed Value :=
  (w.ancestry id).foldl
    (fun acc c =>
      (((w.classes.get? c).map Class.members).getD []).foldl
        (fun acc (name, v) => if acc.has name then acc else acc ++ [(name, w.bindTo id v)]) acc)
    []

/-- The names that texts of a module can use. -/
def scopeOf (w : World) (home : String) : Scope :=
  (w.modules.get? home).getD []

/-! ## Objects -/

/-- The names in the slots of a class, if it has slots. -/
def ownSlots? (c : Class) : Option (List String) :=
  (c.members.get? "__slots__").map fun
    | .str name => [name]
    | .list names | .tuple names => names.filterMap fun
      | .str name => some name
      | _ => none
    | _ => []

/-- The fields that objects of a class have slots for. -/
def slots (w : World) (id : TypeId) : List String :=
  (w.ancestry id).flatMap fun c => ((w.classes.get? c).bind ownSlots?).getD []

/-- `true` when objects of a class hold fields of any name: when the class or an ancestor has no
slots, or has one for them. -/
def holdsFields (w : World) (id : TypeId) : Bool :=
  (w.ancestry id).any fun c =>
    c != objectType && ((w.classes.get? c).bind ownSlots?).all fun names =>
      names.contains "__dict__"

/-- Writes a field of an object of a class; a property cannot be written, and neither can a field
that there is no place for. -/
def assign (w : World) (type : TypeId) (fields : Keyed Value) (name : String) (v : Value) :
    Except Error (Keyed Value) :=
  match w.member? type name with
  | some (.property _) => .error (.misuse .field)
  | _ =>
    if w.holdsFields type || (w.slots type).contains name then .ok (fields.put name v)
    else .error (.misuse .field)

/-- Writes fields one after the other. -/
def assignAll (w : World) (type : TypeId) :
    Keyed Value → List (String × Value) → Except Error (Keyed Value)
  | fields, [] => .ok fields
  | fields, (name, v) :: rest => do w.assignAll type (← w.assign type fields name v) rest

/-- The constructor that makes objects of a class, its own or the first inherited one. -/
def constructor? (w : World) (id : TypeId) : Option Constructor :=
  (w.ancestry id).findSome? fun c => (w.classes.get? c).bind Class.constructor

/-- How a class itself tells to show its objects. -/
def ownLook? (c : Class) : Option Look :=
  match c.look with
  | .plain =>
    if c.id != objectType && c.members.has "__repr__" then some (.own c.rendered) else none
  | look => some look

/-- How the objects of a class are shown: as its nearest ancestor has it that tells. -/
def lookOf (w : World) (id : TypeId) : Look :=
  ((w.ancestry id).findSome? fun c => (w.classes.get? c).bind ownLook?).getD .plain

/-- The text on its own that the nearest class with a method for it gives of an object; without such
a class, objects are shown as in listings. -/
def displayOf? (w : World) (id : TypeId) : Option (Value → Option String) :=
  (w.ancestry id).findSome? fun c => (w.classes.get? c).bind fun c =>
    if c.id != objectType && c.members.has "__str__" then some c.displayed else none

/-- How the nearest class with a method for it compares an object, unless this is a class of the
language. -/
def comparisonOf? (w : World) (id : TypeId) : Option (Value → Value → Bool) :=
  if isBuiltin id then none
  else
    (w.ancestry id).findSome? fun c => (w.classes.get? c).bind fun c =>
      if c.id != objectType && c.members.has "__eq__" then some c.compared else none

end World

namespace Constructor

/-- Passes arguments by place.  Every parameter without default needs one, and there must not be
more of them than there are places. -/
def bindArgs : List Param → List Value → Except Error (List (String × Value))
  | [], [] => .ok []
  | [], _ :: _ => .error (.misuse .type)
  | p :: ps, args =>
    let orDefault : Except Error Value :=
      match p.default with
      | some v => .ok v
      | none => .error (.misuse .type)
    match p.kind, args with
    | .varPositional, args => do return (p.name, .tuple args) :: (← bindArgs ps [])
    | .varKeyword, args => do return (p.name, .dict []) :: (← bindArgs ps args)
    | .keywordOnly, args => do
      let rest ← bindArgs ps args
      return (p.name, ← orDefault) :: rest
    | _, arg :: args => do return (p.name, arg) :: (← bindArgs ps args)
    | _, [] => do
      let v ← orDefault
      return (p.name, v) :: (← bindArgs ps [])

end Constructor
end DocTags
