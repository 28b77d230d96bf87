import DocTags.Number.Numeral
import DocTags.Number.Shortest
import DocTags.World.Attribute

/-!
# The text of values

`render` is the text of a value in listings and inside other values; `display` is the text of a
value on its own, where a text stands without quotes and a type in the notation of declarations.

Not every value has a text: an integer may have too many digits, and an object may be shown by
attributes that it does not have.  An object whose attributes lead back to it has none either, so
objects are shown through a bounded number of objects around them.
-/

namespace DocTags

/-- Texts between an opening and a closing mark, separated by commas. -/
def enclosed (opening closing : String) (parts : List String) : String :=
  opening ++ ", ".intercalate parts ++ closing

/-- A tuple of one element keeps a comma behind it. -/
def enclosedTuple : List String → String
  | [part] => "(" ++ part ++ ",)"
  | parts => enclosed "(" ")" parts

/-- The decimal digits of an integer, if there are not too many. -/
def digitsOf (n : Int) : Except Error String :=
  if Nat.pow 10 Numeral.maxDigits ≤ n.natAbs then .error (.illegible .tooLarge)
  else .ok (toString n)

/-- The text of a set of placements. -/
def Placement.rendered (p : Placement) : Except Error String := do
  let _ ← digitsOf p.mask
  return p.render

/-- The text of a class. -/
def renderClass (id : TypeId) : String :=
  if id == placementType then "<flag " ++ Text.quoted (lastPart id) ++ ">"
  else
    let name := if id == builtin (lastPart id) then lastPart id else id
    "<class " ++ Text.quoted name ++ ">"

/-- The text of a routine, with the class that it belongs to. -/
def Routine.render (r : Routine) : String :=
  match r.making, r.binding with
  | .defined, .free => "<function " ++ r.fullName ++ ">"
  | .defined, .bound type => "<bound method " ++ r.fullName ++ " of " ++ renderClass type ++ ">"
  | .slot, _ =>
    "<slot wrapper " ++ Text.quoted r.name ++ " of " ++ Text.quoted r.owner ++ " objects>"
  | .method, _ =>
    "<method " ++ Text.quoted r.name ++ " of " ++ Text.quoted r.owner ++ " objects>"
  | .builtin, _ => "<built-in method " ++ r.name ++ " of type object>"
  | .wrapper, _ => "<method-wrapper " ++ Text.quoted r.name ++ " of type object>"

namespace Value

section

variable (shown : Value → Except Error String)

mutual

/-- The text of a value in listings, given the texts of objects. -/
def renderWith : Value → Except Error String
  | null => return "None"
  | bool b => return if b then "True" else "False"
  | int n => digitsOf n
  | float x _ => return x.text
  | str s => return Text.quoted s
  | moment m => return m.render
  | list items => do return enclosed "[" "]" (← renderItems items)
  | tuple items => do return enclosedTuple (← renderItems items)
  | dict pairs => do return enclosed "\x7b" "\x7d" (← renderPairs pairs)
  | tags entries => do return enclosed "\x7b" "\x7d" (← renderEntries entries)
  | object origin type fields => shown (object origin type fields)
  | cls id => return renderClass id
  | routine r => return r.render
  | property _ => return "<property object>"
  | moduleNamed name => return "<module " ++ Text.quoted name ++ ">"
  | placement p => p.rendered
  | missing => return "MISSING"
  | typeExpr t => renderType t

def renderItems : List Value → Except Error (List String)
  | [] => return []
  | v :: vs => do
    let text ← renderWith v
    return text :: (← renderItems vs)

def renderPairs : List (Value × Value) → Except Error (List String)
  | [] => return []
  | (k, v) :: rest => do
    let key ← renderWith k
    let text ← renderWith v
    return (key ++ ": " ++ text) :: (← renderPairs rest)

def renderEntries : List (Option String × Value) → Except Error (List String)
  | [] => return []
  | (key, v) :: rest => do
    let text ← renderWith v
    return (key.elim text fun k => k ++ ": " ++ text) :: (← renderEntries rest)

/-- The text of a type inside a value. -/
def renderType : TypeExpr → Except Error String
  | .enum values => do return "EnumOf(values=" ++ enclosedTuple (← renderItems values) ++ ")"
  | .ref type => return "ClassRef(type_id=" ++ Text.quoted type ++ ")"
  | .tuple items => do return "TupleOf(items=" ++ enclosedTuple (← renderTypes items) ++ ")"
  | .list item => do return "ListOf(item=" ++ (← renderType item) ++ ")"
  | .foreign _ => return "<object object>"
  | t => return t.form ++ "()"

def renderTypes : List TypeExpr → Except Error (List String)
  | [] => return []
  | t :: ts => do
    let text ← renderType t
    return text :: (← renderTypes ts)

end

variable (told : Value → Except Error String)

mutual

/-- The text of a value on its own, given the texts of objects in listings and on their own. -/
def displayWith : Value → Except Error String
  | object origin type fields => told (object origin type fields)
  | str s => return s
  | moment m => return m.display
  | placement p => digitsOf p.mask
  | typeExpr t => displayTypeWith t
  | v => renderWith shown v

def displayItems : List Value → Except Error (List String)
  | [] => return []
  | v :: vs => do
    let text ← displayWith v
    return text :: (← displayItems vs)

/-- The text of a type in the notation of declarations, given the texts of objects. -/
def displayTypeWith : TypeExpr → Except Error String
  | .mixed => return "mixed"
  | .string => return "string"
  | .number => return "number"
  | .integer => return "integer"
  | .float => return "float"
  | .boolean => return "boolean"
  | .enum values => do return enclosed "enum(" ")" (← displayItems values)
  | .ref type => return type
  | .tuple items => do return enclosed "\x7b" "\x7d" (← displayTypes items)
  | .list item => do return "\x7b" ++ (← displayTypeWith item) ++ "\x7d"
  | .foreign _ => return "<object object>"

def displayTypes : List TypeExpr → Except Error (List String)
  | [] => return []
  | t :: ts => do
    let text ← displayTypeWith t
    return text :: (← displayTypes ts)

end

end

end Value

namespace World

variable (w : World)

/-- An attribute that a value must have. -/
def required (v : Value) (name : String) : Except Error Value :=
  match w.attribute? v name with
  | some v => .ok v
  | none => .error (.misuse .field)

/-- The text that a method gives must be one. -/
def demandText (text : Option String) : Except Error String :=
  text.elim (.error (.misuse .type)) .ok

/-- The text of an object by the look of its class, through at most the given number of objects. -/
def showObject : Nat → Value → Except Error String
  | 0, _ => .error (.misuse .recursion)
  | n + 1, v =>
    let shown (name : String) : Except Error String := do
      Value.renderWith (showObject n) (← w.required v name)
    match w.lookOf v.typeOf with
    | .plain => return "<" ++ v.typeOf ++ " object>"
    | .ofAttribute => do
      let name ← shown "name"
      return "Attribute(" ++ name ++ ", type=" ++ (← shown "type") ++ ")"
    | .ofEnum => do return "Enum(" ++ (← shown "values") ++ ")"
    | .ofTarget => do
      match ← w.required v "target" with
      | .placement p => return "Target(" ++ p.describe ++ ")"
      | _ => throw (.misuse .field)
    | .own text => demandText (text v)

/-- The number of objects around an object up to which it is shown. -/
def maxNesting : Nat := 1000

/-- The text of an object in listings. -/
def shown : Value → Except Error String :=
  w.showObject maxNesting

/-- The text of an object on its own. -/
def told (v : Value) : Except Error String :=
  match w.displayOf? v.typeOf with
  | some text => demandText (text v)
  | none => w.shown v

end World

namespace Value

variable (w : World)

/-- The text of a value in listings. -/
def render (v : Value) : Except Error String :=
  renderWith w.shown v

/-- The text of a value on its own. -/
def display (v : Value) : Except Error String :=
  displayWith w.shown w.told v

/-- The texts of values on their own. -/
def displayAll (vs : List Value) : Except Error (List String) :=
  displayItems w.shown w.told vs

end Value

/-- The text of a type in the notation of declarations. -/
def TypeExpr.display (w : World) (t : TypeExpr) : Except Error String :=
  Value.displayTypeWith w.shown w.told t

end DocTags
