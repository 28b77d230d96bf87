import DocTags.CommandLine.Arguments
import DocTags.Reader.Operations

/-!
# The command line

Lists the content of the documentation of a class, function, method or property, or of a text.
-/

namespace DocTags.CommandLine

/-- The name and version of the program. -/
def versionLine : String := "docannot 0.1.0\n"

/-- What the program finds around it. -/
structure Surroundings where
  world : World
  /-- What schema files are read with. -/
  packages : Packages
  /-- The content of files. -/
  file : String → Option String
  /-- The text on the standard input. -/
  input : String

/-- How a run ends. -/
inductive Ending where
  /-- The arguments alone decided. -/
  | byArguments (code : Nat) (output : String)
  /-- With the texts on the standard output and the error output. -/
  | normal (code : Nat) (output errors : String)
  /-- With an error that is not reported to the user. -/
  | failed (error : Error)

/-- What is wrong with a request, beside the errors of reading. -/
inductive Fault where
  | badTarget (target : String)
  | emptyModule
  | noModule (name missing : String) (parent : Option String)
  | noMember (module path : String)
  | notClass (target : String)
  | notReadable (target : String)
  | noFile (path : String)
  | reading (error : Error)

namespace Fault

def message : Fault → String
  | badTarget target => "Invalid target '" ++ target ++ "'. Expected 'module:QualName'"
  | emptyModule => "Empty module name"
  | noModule name missing parent =>
    "Cannot import module " ++ name ++ ": No module named " ++ Text.quoted missing ++
      match parent with
      | some p => "; " ++ Text.quoted p ++ " is not a package"
      | none => ""
  | noMember module path => module ++ " has no attribute " ++ path
  | notClass target => "--member requires a class target, got " ++ target
  | notReadable target => target ++ " is neither a class nor a function"
  | noFile path => "File not found: " ++ path
  | reading error => error.message

/-- `true` on the faults that are told to the user. -/
def isReported : Fault → Bool
  | reading (.misuse .value) => true
  | reading (.misuse _) | reading .tooDeep => false
  | _ => true

end Fault

/-- A computation of the program: it changes a reader and may fail. -/
abbrev Act := ExceptT Fault (StateM Reader)

/-- A reader's computation as one of the program. -/
def reading {α : Type} (act : Run Reader α) : Act α := fun r =>
  let (result, r) := act r
  (result.mapError Fault.reading, r)

/-! ## Targets -/

/-- Splits a text at the first colon. -/
def splitColon : List Char → Option (List Char × List Char)
  | [] => none
  | ':' :: cs => some ([], cs)
  | c :: cs => (splitColon cs).map fun (before, behind) => (c :: before, behind)

/-- The module and the path in it that a target names: they are divided by the first colon, or else
by the last dot. -/
def splitTarget (target : String) : Except Fault (String × String) :=
  match splitColon target.toList with
  | some (module, path) => .ok (String.ofList module, String.ofList path)
  | none =>
    match (dottedParts target).reverse with
    | last :: rest@(_ :: _) => .ok (dottedName rest.reverse, last)
    | _ => .error (.badTarget target)

/-- What is missing when a module is not there: the module itself if its parent is there, and else
what is missing of the parent.  The parts of the name come last one first. -/
def missingModule (w : World) (name : String) : List String → Fault
  | [] => .noModule name name none
  | [part] => .noModule name part none
  | part :: rest =>
    let parent := dottedName rest.reverse
    if w.modules.has parent then
      .noModule name (dottedName (part :: rest).reverse)
        (if parent == declaringPackage then none else some parent)
    else missingModule w name rest

/-- The element that a target names. -/
def findTarget (w : World) (target : String) : Except Fault Value := do
  let (module, path) ← splitTarget target
  if module.isEmpty then throw .emptyModule
  else if module.toList.head? == some '.' then throw (.reading (.misuse .type))
  else if !w.modules.has module then throw (missingModule w module (dottedParts module).reverse)
  else
    match w.follow? (.moduleNamed module) (dottedParts path) with
    | some v => return v
    | none => throw (.noMember module path)

/-- Reads the documentation of a target or of one of its members. -/
def readTarget (w : World) (target : String) (member : Option String) : Act Comment := do
  let v ← liftExcept (findTarget w target)
  let name := member.getD ""
  match v with
  | .cls type =>
    if name.isEmpty then reading (Reader.readClass w (.cls type))
    else
      match w.member? type name with
      | some (.property _) => reading (Reader.readProperty w (.cls type) name)
      | _ => reading (Reader.readMethod w (.cls type) name)
  | v =>
    if !name.isEmpty then throw (.notClass target)
    else if w.isCallable v then reading (Reader.readFunction w v)
    else throw (.notReadable target)

/-! ## Files -/

/-- The slashes that a path begins with: just two are kept, and more are as good as one. -/
def rootOf (path : String) : String :=
  match path.toList.takeWhile (· == '/') with
  | [] => ""
  | [_, _] => "//"
  | _ => "/"

/-- A path without empty parts and parts that stay in place. -/
def cleanPath (path : String) : String :=
  let parts := ((Text.splitAt '/' path.toList).map String.ofList).filter fun part =>
    !part.isEmpty && part != "."
  let root := rootOf path
  if parts.isEmpty && root.isEmpty then "." else root ++ "/".intercalate parts

/-- The text of a file, or of the standard input. -/
def readText (s : Surroundings) (path : String) : Act String :=
  if path == "-" then return s.input
  else
    match s.file (cleanPath path) with
    | some text => return String.ofList (Description.normalizeLines text.toList)
    | none => throw (.noFile (cleanPath path))

/-- The files that a command reads, by their cleaned paths. -/
def Command.paths : Command → List String
  | .read _ _ schemas => schemas.map cleanPath
  | .parse file _ schemas => (file :: schemas).map cleanPath
  | _ => []

/-- `true` on a command that reads the standard input. -/
def Command.readsInput : Command → Bool
  | .parse file _ _ => file == "-"
  | _ => false

/-- Registers the schemas of files. -/
def loadAll (s : Surroundings) : List String → Act Unit
  | [] => return ()
  | path :: rest => do
    let path := cleanPath path
    let _ ← reading (Reader.loadSchemas s.world s.packages path (s.file path))
    loadAll s rest

/-! ## Runs -/

/-- The listing that a command asks for. -/
def listing (s : Surroundings) (schemas : List String) (comment : Act Comment) : Act String := do
  loadAll s schemas
  let c ← comment
  liftExcept ((c.listing s.world).mapError Fault.reading)

/-- Runs a computation in a new reader. -/
def finish (act : Act String) : Ending :=
  match (act (Reader.start [] true)).1 with
  | .ok text => .normal 0 text ""
  | .error fault =>
    match fault.isReported, fault with
    | false, .reading e => .failed e
    | _, fault => .normal 2 "" (String.ofList (Text.trimEnd fault.message.toList) ++ "\n")

/-- Runs the program. -/
def run (s : Surroundings) (args : List String) : Ending :=
  match command args with
  | .usageError => .byArguments 2 ""
  | .showHelp => .byArguments 0 ""
  | .showVersion => .byArguments 0 versionLine
  | .read target member schemas => finish (listing s schemas (readTarget s.world target member))
  | .parse file target schemas =>
    finish (listing s schemas do
      let text ← readText s file
      let placement ← liftExcept ((Placement.ofText target).mapError Fault.reading)
      reading (Reader.parse s.world text placement []))

end DocTags.CommandLine
