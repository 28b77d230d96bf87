import DocTags.Number.Numeral
import DocTags.TagList
import DocTags.Text.Blank
import DocTags.Value.Render

/-!
# Checking values against types

A value conforms to a type or the first place where it does not is reported, named by the attribute
and the positions that lead to it.  The check goes by the form of a value; `World.isOrdinary` says
where this is the same as going by its class.
-/

namespace DocTags.TypeExpr

/-- The elements of the values that count as arrays. -/
def arrayItems? : Value → Option (List Value)
  | .list items | .tuple items => some items
  | .tags entries => some (TagList.values entries)
  | _ => none

/-- Numbers, and texts that read as numerals between blanks; truth values are no numbers. -/
def isNumeric : Value → Bool
  | .int _ | .float _ _ | .placement _ => true
  | .str s => (Numeral.read? (Text.trim s.toList)).isSome
  | _ => false

def isInteger : Value → Bool
  | .int _ | .placement _ => true
  | _ => false

/-- `true` when an equal value of the same class is among the values. -/
def isMember (w : World) (v : Value) (values : List Value) : Bool :=
  values.any fun a => a.typeOf == v.typeOf && w.equal a v

/-- Demands a condition of the value of an attribute. -/
def demand {m : Type → Type} [Monad m] [MonadExceptOf Error m] (name : String) (holds : Bool)
    (expectation : Expectation) : m Unit :=
  if holds then return () else throw (.mismatch name expectation)

/-- The name of an element of an array. -/
def itemName (name : String) (i : Nat) : String :=
  name ++ "[" ++ toString i ++ "]"

/-- Makes the same check of all elements of an array, the first of which has number `i`. -/
def checkAll {m : Type → Type} [Monad m] (check : String → Value → m Unit) (name : String)
    (i : Nat) : List Value → m Unit
  | [] => return ()
  | v :: vs => do
    check (itemName name i) v
    checkAll check name (i + 1) vs

variable {m : Type → Type} [Monad m] [MonadExceptOf Error m] (w : World)
  (load : Option (TypeId → m TypeId))

mutual

/-- Checks a value against a type.  Classes are loaded by `load`; without it no value is an object
of a class. -/
def check (name : String) (v : Value) : TypeExpr → m Unit
  | .mixed => return ()
  | .string => demand name (match v with | .str _ => true | _ => false) .string
  | .number => demand name (isNumeric v) .number
  | .integer => demand name (isInteger v) .integer
  | .float => demand name (match v with | .float _ _ => true | _ => false) .float
  | .boolean => demand name (match v with | .bool _ => true | _ => false) .boolean
  | .enum values =>
    if isMember w v values then return ()
    else do throw (.mismatch name (.oneOf (← liftExcept (Value.displayAll w values))))
  | .ref type =>
    match load with
    | none => throw (.mismatch name (.instanceOf type))
    | some load => do
      let found ← load type
      demand name (w.isInstance found v) (.instanceOf type)
  | .tuple items =>
    match arrayItems? v with
    | none => throw (.mismatch name .array)
    | some vs =>
      if items.isEmpty then return ()
      else if vs.length ≠ items.length then throw (.mismatch name (.arrayOfSize items.length))
      else checkEach name 0 vs items
  | .list item =>
    match arrayItems? v with
    | none => throw (.mismatch name .array)
    | some vs => checkAll (fun name v => check name v item) name 0 vs
  | .foreign _ => throw (.misuse .type)

/-- Checks the elements of an array against one type each. -/
def checkEach (name : String) (i : Nat) (vs : List Value) : List TypeExpr → m Unit
  | [] => return ()
  | t :: ts =>
    match vs with
    | [] => return ()
    | v :: vs => do
      check (itemName name i) v t
      checkEach name (i + 1) vs ts

end

end DocTags.TypeExpr
