import DocTags.Text.Blank
import DocTags.Text.Case
import DocTags.Value.Render

/-!
# Declared types

The type of an attribute is declared by a value: the name of a kind, the name of a class, a class,
something with `values` for an enumeration, or a collection of declarations.  A collection of one
declaration is an array of any length, and any other collection is an array of that length.
-/

namespace DocTags.TypeExpr

/-- The type with a kind name, in lower case. -/
def ofKind? (name : String) : Option TypeExpr :=
  match name with
  | "mixed" | "any" => some .mixed
  | "string" | "str" => some .string
  | "number" => some .number
  | "int" | "integer" => some .integer
  | "float" => some .float
  | "bool" | "boolean" => some .boolean
  | _ => none

/-- The type with a kind name, in any letter case and between blanks. -/
def ofKindText? (s : String) : Option TypeExpr :=
  ofKind? (String.ofList (Text.lower (Text.trim s.toList)))

/-- The type of the values of a class: the kinds have classes of the language. -/
def ofClass (id : TypeId) : TypeExpr :=
  if id == builtin "str" then .string
  else if id == builtin "int" then .integer
  else if id == builtin "float" then .float
  else if id == builtin "bool" then .boolean
  else if id == objectType then .mixed
  else .ref id

/-- The array type of the types of its elements. -/
def ofItems : List TypeExpr → TypeExpr
  | [item] => .list item
  | items => .tuple items

/-- The array type that a set of placements declares.  The members of a set declare the same set
over again, so only the set without members declares a type. -/
def ofPlacement (p : Placement) : Except Error TypeExpr :=
  if p.members.isEmpty then .ok (.tuple []) else .error (.misuse .recursion)

/-- What a value gives as the values of an enumeration: its `values`, if it has any that are not
null and cannot be called. -/
def enumValues? (w : World) (v : Value) : Option Value :=
  match w.attribute? v "values" with
  | some .null | none => none
  | some values => if w.isCallable values then none else some values

/-- The type that any other value declares: an enumeration if it lists values. -/
def ofOther (w : World) (v : Value) : Except Error TypeExpr := do
  match enumValues? w v with
  | some values => return .enum (← values.elements)
  | none =>
    if (w.attribute? v "__iter__").isSome then throw (.misuse .type)
    else throw (.unsupportedDeclaration (← v.render w))

variable {m : Type → Type} [Monad m] [MonadExceptOf Error m] (w : World)
  (resolve : String → m TypeId)

mutual

/-- The type that a value declares; class names are given to `resolve`. -/
def ofDeclaration : Value → m TypeExpr
  | .typeExpr (.foreign name) => liftExcept (ofOther w (.typeExpr (.foreign name)))
  | .typeExpr t => return t
  | .null => return .mixed
  | .str s =>
    match ofKindText? s with
    | some t => return t
    | none => return .ref (← resolve s)
  | .cls id => return ofClass id
  | .list items => return ofItems (← ofDeclarations items)
  | .tuple items => return ofItems (← ofDeclarations items)
  | .dict pairs => return ofItems (← ofKeys pairs)
  | .tags entries => return ofItems (← ofEntries entries)
  | .placement p => liftExcept (ofPlacement p)
  | v => liftExcept (ofOther w v)

def ofDeclarations : List Value → m (List TypeExpr)
  | [] => return []
  | v :: vs => do
    let t ← ofDeclaration v
    return t :: (← ofDeclarations vs)

def ofKeys : List (Value × Value) → m (List TypeExpr)
  | [] => return []
  | (k, _) :: rest => do
    let t ← ofDeclaration k
    return t :: (← ofKeys rest)

def ofEntries : List (Option String × Value) → m (List TypeExpr)
  | [] => return []
  | (_, v) :: rest => do
    let t ← ofDeclaration v
    return t :: (← ofEntries rest)

end

end DocTags.TypeExpr
