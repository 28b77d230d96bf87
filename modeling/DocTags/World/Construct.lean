import DocTags.Placement.Parse
import DocTags.TagList
import DocTags.Value.Order

/-!
# Making objects

Calling a class with arguments by place, and calling what an object has for a setter with a value.
-/

namespace DocTags

namespace World

variable (w : World)

/-- The fields after a constructor ran on an object of a class. -/
def initialise (id : TypeId) (c : Constructor) (fields : Keyed Value) (args : List Value) :
    Except Error (Keyed Value) := do
  let bound ← Constructor.bindArgs c.params args
  let taken ← bound.mapM fun (name, v) =>
    if c.placementParam == some name then do
      return (name, Value.placement (← Placement.parse w v))
    else return (name, v)
  w.assignAll id fields (c.fields ++ taken)

/-- The fields of a new object of a class, made by its constructor. -/
def construct (id : TypeId) (args : List Value) : Except Error (Keyed Value) :=
  match w.constructor? id with
  | none => if args.isEmpty then .ok [] else .error (.misuse .type)
  | some c => w.initialise id c [] args

/-- The fields after a setter wrote one of them.  What a value is put behind stays as it was: the
field holds a new list. -/
def write (type : TypeId) (fields : Keyed Value) (field : String) (mode : SetterMode) (v : Value) :
    Except Error (Keyed Value) :=
  match mode with
  | .store => w.assign type fields field v
  | .sorted => do w.assign type fields field (.list (← Value.sort (← v.elements)))
  | .append => do
    let old := (w.attribute? (.object (.built none) type fields) field).getD .null
    let items ← if old.truthy then old.elements else .ok []
    w.assign type fields field (.list (items ++ [v]))

/-- The fields without one that is named.  Only what the object itself holds can be taken away, and
all of it at once by the name of the whole. -/
def eraseField (type : TypeId) (fields : Keyed Value) (name : String) :
    Except Error (Keyed Value) :=
  if name == "__class__" then .error (.misuse .type)
  else if name == "__dict__" then
    if w.holdsFields type then
      .ok (fields.filter fun field => (w.slots type).contains field.1)
    else .error (.misuse .field)
  else
    match w.member? type name with
    | some (.property _) => .error (.misuse .field)
    | _ => if fields.has name then .ok (fields.erase name) else .error (.misuse .field)

/-- `true` on the numbers that name a version. -/
def isVersion (n : Int) : Bool :=
  -Int.pow 2 31 ≤ n && n < Int.pow 2 31

/-- Demands that a value names a version. -/
def demandVersion : Value → Except Error Unit
  | .int n => if isVersion n then .ok () else .error (.misuse .overflow)
  | .placement p => if isVersion p.mask then .ok () else .error (.misuse .overflow)
  | .bool _ => .ok ()
  | _ => .error (.misuse .type)

/-- The text that a value is. -/
def textOf : Value → Except Error String
  | .str name => .ok name
  | _ => .error (.misuse .type)

/-- The fields of an object after a call of a routine with the object and a value. -/
def callRoutine (type : TypeId) (fields : Keyed Value) (r : Routine) (v : Value) :
    Except Error (Keyed Value) :=
  match r.effect with
  | .nothing => .ok fields
  | .refused => .error (.misuse .type)
  | .write field mode => w.write type fields field mode v
  | .initialise =>
    match w.constructor? type with
    | none => .error (.misuse .type)
    | some c => w.initialise type c fields [v]
  | .construct =>
    match r.binding with
    | .free => .error (.misuse .type)
    | .bound id => do
      let _ ← w.construct id [.null, v]
      return fields
  | .erase => do w.eraseField type fields (← textOf v)
  | .look => do
    let _ ← w.required (.object (.built none) type fields) (← textOf v)
    return fields
  | .format => do
    if (← textOf v).isEmpty then return fields else throw (.misuse .type)
  | .reduce => do
    demandVersion v
    return fields

/-- The fields of an object after a call of something callable with the object and a value.  An
object is called by the method of its class for that, which is no setter. -/
def call (type : TypeId) (fields : Keyed Value) (target v : Value) : Except Error (Keyed Value) :=
  match target with
  | .routine r => w.callRoutine type fields r v
  | .cls id => do
    let _ ← w.construct id [.null, v]
    return fields
  | .object _ callee _ =>
    match w.member? callee "__call__" with
    | some (.routine r) => if r.effect == .nothing then .ok fields else .error (.misuse .type)
    | _ => .error (.misuse .type)
  | _ => .error (.misuse .type)

end World
end DocTags
