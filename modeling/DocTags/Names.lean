import DocTags.World.Declaring

/-!
# Names

Resolving the identifiers of a text to type ids, and type ids to classes.  An identifier is looked
for among the global imports, among the type ids met before, in the scope of the text and as an
absolute path, in this order.  Type ids that were loaded are remembered, and so are the ids of
classes that were found.
-/

namespace DocTags

/-- A computation with a state that is kept when it fails. -/
abbrev Run (σ : Type) := ExceptT Error (StateM σ)

/-- What is known about names: the global imports, and the classes behind the type ids met so
far. -/
structure Names where
  /-- Short names that mean the same type in every text. -/
  imports : Keyed TypeId := []
  /-- For each type id met, the class it stands for. -/
  known : Keyed TypeId := []

namespace Names

/-- Makes a type available in every text, under a short name or under the last part of its id. -/
def addImport (n : Names) (type : TypeId) (short : Option String) : Names :=
  { n with imports := n.imports.put (short.getD ((dottedParts type).getLastD type)) type }

/-- Records a class under its own id. -/
def remember (n : Names) (type : TypeId) : Names :=
  { n with known := n.known.put type type }

/-- Splits a name at its first double colon. -/
def splitConstant? : List Char → Option (List Char × List Char)
  | [] => none
  | c :: cs =>
    match c, cs with
    | ':', ':' :: rest => some ([], rest)
    | c, cs => (splitConstant? cs).map fun (owner, constant) => (c :: owner, constant)

variable (w : World)

/-- What an identifier denotes in a scope, or else as an absolute path. -/
def find? (scope : Scope) (name : String) : Option Value :=
  match w.lookup? scope name with
  | some v => some v
  | none => w.import? name

/-- The id of a value that is a type. -/
def typeOf? : Value → Option TypeId
  | .cls type => some type
  | _ => none

/-- The type that a name denotes in a scope, or else as an absolute path. -/
def typeAt? (scope : Scope) (name : String) : Option TypeId :=
  (find? w scope name).bind typeOf?

/-- The type id that an identifier stands for. -/
def resolve (scope : Scope) (name : String) : Run Names TypeId := do
  let n ← get
  match n.imports.get? name with
  | some type => return type
  | none =>
    if n.known.has name then return name
    match typeAt? w scope name with
    | some type =>
      set (n.remember type)
      return type
    | none => throw (.unresolved name)

/-- The class behind a type id. -/
def load (type : TypeId) : Run Names TypeId := do
  let n ← get
  match n.known.get? type with
  | some found => return found
  | none =>
    match (w.import? type).bind typeOf? with
    | some found =>
      set { n with known := n.known.put type found }
      return found
    | none => throw (.unresolved type)

/-- The class that an identifier stands for, if there is one. -/
def owner? (scope : Scope) (name : String) : Run Names (Option TypeId) :=
  tryCatch (do return some (← load w (← resolve w scope name))) fun
    | .unresolved _ => return none
    | e => throw e

/-- The constant that a word denotes: a member of a class for `Type::NAME`, and a value of the
scope otherwise.  Classes, modules and what can be called are no constants of a scope. -/
def constant? (scope : Scope) (name : String) : Run Names (Option Value) := do
  match splitConstant? name.toList with
  | some (owner, constant) =>
    match ← owner? w scope (String.ofList owner) with
    | some type => return w.classAttribute? type (String.ofList constant)
    | none => return none
  | none =>
    match w.lookup? scope name with
    | some (.moduleNamed _) => return none
    | some v => return if w.isCallable v then none else some v
    | none => return none

end Names
end DocTags
