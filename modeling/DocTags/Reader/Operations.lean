import DocTags.Description.File
import DocTags.Reader.Resolve

/-!
# What a reader can be asked

Reading texts and the documentation of classes, functions, methods and properties; registering
schemas; and resolving them.
-/

namespace DocTags

/-- A type is given by its id or as the class itself. -/
inductive TypeArg where
  | id (type : TypeId)
  | cls (type : TypeId)
  deriving DecidableEq, Repr

namespace Reader

variable (w : World)

/-- The id of a type; a class is recorded under its id. -/
def keyOf : TypeArg → Run Reader TypeId
  | .id type => return type
  | .cls type => do
    remember type
    return type

/-- The class of a type. -/
def classOf : TypeArg → Run Reader TypeId
  | .id type => onNames (Names.load w type)
  | .cls type => return type

/-! ## Reading -/

/-- Reads a documentation block with the given names in scope. -/
def readBlock (block : List Char) (placement : Placement) (scope : Scope) :
    Run Reader Comment := do
  let n := depth w (← get)
  { world := w, scope, placement, owner := none, schemaOf := resolveWithin w n false :
    Setting }.read block

/-- Reads a text. -/
def parse (text : String) (placement : Placement) (scope : Scope) : Run Reader Comment :=
  readBlock w text.toList placement scope

/-- Reads the documentation of an element. -/
def readElement (v : Value) (placement : Placement) : Run Reader Comment :=
  let (doc, scope) := w.documented v
  readBlock w doc placement scope

/-- Reads the documentation of a class. -/
def readClass (type : TypeArg) : Run Reader Comment := do
  readElement w (.cls (← classOf w type)) .onClass

/-- Reads the documentation of a function. -/
def readFunction (v : Value) : Run Reader Comment :=
  readElement w v .onFunction

/-- Reads the documentation of a method of a class. -/
def readMethod (type : TypeArg) (name : String) : Run Reader Comment := do
  let found ← classOf w type
  match w.classAttribute? found name with
  | some (.routine r) => readElement w (.routine r) .onMethod
  | _ => throw (.noMethod name found)

/-- Reads the documentation of a property of a class. -/
def readProperty (type : TypeArg) (name : String) : Run Reader Comment := do
  let found ← classOf w type
  match w.member? found name with
  | some (.property p) => readElement w (.property p) .onProperty
  | _ => throw (.noProperty name found)

/-- `true` on names between double underscores. -/
def isReserved (name : String) : Bool :=
  let cs := name.toList
  cs.take 2 == ['_', '_'] && cs.reverse.take 2 == ['_', '_']

/-- The members of a class that pass a test, sorted by name. -/
def sortedMembers (type : TypeId) (test : String × Value → Bool) : Keyed Value :=
  ((w.members type).filter test).mergeSort fun a b => a.1 ≤ b.1

/-- Reads elements one after the other. -/
def readAll (placement : Placement) : Keyed Value → Run Reader (Keyed Comment)
  | [] => return []
  | (name, v) :: rest => do
    let c ← readElement w v placement
    return (name, c) :: (← readAll placement rest)

/-- Reads the documentation of all methods of a class but those with reserved names. -/
def readMethods (type : TypeArg) : Run Reader (Keyed Comment) := do
  let found ← classOf w type
  readAll w .onMethod (sortedMembers w found fun (name, v) =>
    match v with
    | .routine _ => !isReserved name
    | _ => false)

/-- Reads the documentation of all properties of a class. -/
def readProperties (type : TypeArg) : Run Reader (Keyed Comment) := do
  let found ← classOf w type
  readAll w .onProperty (sortedMembers w found fun (_, v) =>
    match v with
    | .property _ => true
    | _ => false)

/-! ## Registering -/

/-- Registers a schema for a type. -/
def registerSchema (type : TypeArg) (s : Schema) : Run Reader TypeId := do
  let key ← keyOf type
  modify fun r => r.register key s
  return key

/-- Registers a described schema for a type. -/
def registerDescription (type : TypeArg) (d : Description) : Run Reader TypeId := do
  let key ← keyOf type
  let s ← d.toSchema w fun name => onNames (Names.resolve w [] name)
  modify fun r => r.register key s
  return key

/-- Registers a schema described by a mapping. -/
def registerMapping (validate : Description.Validator) (type : TypeArg) (mapping : Value) :
    Run Reader TypeId := do
  let key ← keyOf type
  let pairs ← liftExcept mapping.toPairs
  registerDescription w (.id key) (← liftExcept (Description.ofValue validate key (.dict pairs)))

/-- Registers descriptions one after the other. -/
def registerAll : Keyed Description → Run Reader (List TypeId)
  | [] => return []
  | (type, d) :: rest => do
    let key ← registerDescription w (.id type) d
    return key :: (← registerAll rest)

/-- Registers the schemas of a file. -/
def loadSchemas (p : Packages) (path : String) (content : Option String) :
    Run Reader (List TypeId) := do
  registerAll w (← liftExcept (Description.ofFile w p path content))

/-- Makes a type available in every text. -/
def addGlobalImport (type : TypeArg) (short : Option String) : Run Reader Unit := do
  let key ← keyOf type
  modify fun r => { r with names := r.names.addImport key short }

/-! ## Schemas and annotations -/

/-- The schema of a type. -/
def schema (type : TypeArg) : Run Reader Schema := do
  resolveSchema w (← keyOf type)

/-- `true` when a type was registered or its schema resolved. -/
def registered (type : TypeArg) : Run Reader Bool := do
  let key ← keyOf type
  return (← get).isRegistered key

/-- Whether two types have equal schemas, and whether they have the very same one. -/
def compareSchemas (a b : TypeArg) : Run Reader (Bool × Bool) := do
  let ka ← keyOf a
  let s ← resolveSchema w ka
  let kb ← keyOf b
  let t ← resolveSchema w kb
  return (ka == kb || s.equal t, ka == kb)

/-- Builds an annotation of a type from given arguments. -/
def build (type : TypeId) (supplied : Value) (placement : Placement) : Run Reader Value := do
  let n := depth w (← get)
  buildWith w (resolveWithin w n false) none type supplied placement

end Reader
end DocTags
