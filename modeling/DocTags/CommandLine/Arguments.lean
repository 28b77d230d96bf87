/-!
# Command line arguments

There are two commands: `read` takes a target and the name of a member, and `parse` takes a file and
a placement; both take any number of schema files.  Long options may be shortened as long as they
are clear, and their value may follow an equals sign.  Options and other arguments can be mixed;
behind `--` everything is an argument.
-/

namespace DocTags.CommandLine

/-- What the arguments ask for. -/
inductive Command where
  /-- The arguments cannot be understood. -/
  | usageError
  | showHelp
  | showVersion
  /-- Read the documentation of a target, or of one of its members. -/
  | read (target : String) (member : Option String) (schemas : List String)
  /-- Read a text from a file, as the documentation of an element with a placement. -/
  | parse (file : String) (target : String) (schemas : List String)
  deriving DecidableEq, Repr

/-- The options there are. -/
inductive Opt where
  | help
  | version
  | member
  | schemas
  | target
  deriving DecidableEq, Repr

/-- The spellings of options that are known in one place. -/
abbrev Spellings := List (String × Opt)

def mainSpellings : Spellings :=
  [("-h", .help), ("--help", .help), ("-v", .version), ("--version", .version)]

def readSpellings : Spellings :=
  [("-h", .help), ("--help", .help), ("--member", .member), ("--schemas", .schemas)]

def parseSpellings : Spellings :=
  [("-h", .help), ("--help", .help), ("--target", .target), ("--schemas", .schemas)]

/-- What is written in one argument with an option. -/
inductive Attached where
  | nothing
  /-- A value behind an equals sign. -/
  | value (text : String)
  /-- More letters behind the letter of a short option. -/
  | letters (text : List Char)
  deriving DecidableEq, Repr

/-- What an argument is. -/
inductive Arg where
  | plain (text : String)
  | opt (o : Opt) (attached : Attached)
  | unknown
  /-- The mark behind which everything is plain. -/
  | dashes
  /-- A shortened option that could be several. -/
  | unclear
  deriving DecidableEq, Repr

/-- Splits a text at its first equals sign. -/
def splitEquals : List Char → Option (List Char × List Char)
  | [] => none
  | '=' :: cs => some ([], cs)
  | c :: cs => (splitEquals cs).map fun (name, value) => (c :: name, value)

/-- `true` on the text of a negative number, which is no option. -/
def isNegativeNumber (cs : List Char) : Bool :=
  match cs with
  | '-' :: rest =>
    let whole := rest.takeWhile Char.isDigit
    match rest.dropWhile Char.isDigit with
    | [] => !whole.isEmpty
    | '.' :: fraction => !fraction.isEmpty && fraction.all Char.isDigit
    | _ => false
  | _ => false

/-- The options that an argument could be short for: long options that it begins, or a short option
with more letters. -/
def shortened (known : Spellings) (cs name : List Char) (attached : Attached) : List Arg :=
  if cs.take 2 == ['-', '-'] then
    (known.filter fun (spelling, _) => name.isPrefixOf spelling.toList).map fun (_, o) =>
      .opt o attached
  else
    (known.filter fun (spelling, _) => spelling.toList == cs.take 2).map fun (_, o) =>
      .opt o (.letters (cs.drop 2))

/-- What an equals sign attaches to an option with a name; behind a short name it is as good as not
there, unless nothing follows it. -/
def attachedValue (name value : List Char) : Attached :=
  if name.length = 2 && name != ['-', '-'] && !value.isEmpty then .letters value
  else .value (String.ofList value)

/-- Reads one argument before `--`. -/
def readArg (known : Spellings) (text : String) : Arg :=
  let cs := text.toList
  if cs.head? != some '-' then .plain text
  else
    match known.lookup text with
    | some o => .opt o .nothing
    | none =>
      if cs.length = 1 then .plain text
      else
        let (name, attached) := match splitEquals cs with
          | some (name, value) => (name, attachedValue name value)
          | none => (cs, .nothing)
        match known.lookup (String.ofList name) with
        | some o => .opt o attached
        | none =>
          match shortened known cs name attached with
          | [arg] => arg
          | _ :: _ :: _ => .unclear
          | [] => if isNegativeNumber cs || cs.contains ' ' then .plain text else .unknown

/-- Reads arguments; all of those behind the first `--` are plain. -/
def readArgs (known : Spellings) : List String → List Arg
  | [] => []
  | text :: rest =>
    if text == "--" then .dashes :: rest.map .plain else readArg known text :: readArgs known rest

/-- What the arguments of a command have given so far. -/
structure Gathered where
  /-- The one plain argument. -/
  main : Option String := none
  member : Option String := none
  target : String := "class"
  schemas : List String := []
  /-- Whether there were arguments that no one takes. -/
  extra : Bool := false
  deriving DecidableEq, Repr

/-- The names that a placement option takes. -/
def targetChoices : List String := ["class", "method", "property", "function", "annotation"]

/-- Records the value of an option, if it is one the option takes. -/
def Gathered.set (g : Gathered) (o : Opt) (value : String) : Option Gathered :=
  match o with
  | .member => some { g with member := some value }
  | .schemas => some { g with schemas := g.schemas ++ [value] }
  | .target => if targetChoices.contains value then some { g with target := value } else none
  | _ => none

/-- `true` when an option that takes no value can have this attached to it: letters that are short
options too. -/
def Attached.fits (known : Spellings) : Attached → Bool
  | nothing => true
  | value _ => false
  | letters cs => cs.all fun c => (known.lookup (String.ofList ['-', c])).isSome

/-- Gathers the arguments of a command.  `behindMain` tells whether the plain argument comes just
before, where a `--` is still part of it. -/
def gather (known : Spellings) (g : Gathered) (behindMain : Bool) :
    List Arg → Except Command Gathered
  | [] => .ok g
  | .unclear :: _ => .error .usageError
  | .unknown :: rest => gather known { g with extra := true } false rest
  | .dashes :: rest =>
    gather known { g with extra := g.extra || (g.main.isSome && !behindMain) } false rest
  | .plain text :: rest =>
    if g.main.isSome then gather known { g with extra := true } false rest
    else gather known { g with main := some text } true rest
  | .opt .help attached :: _ =>
    .error (if attached.fits known then .showHelp else .usageError)
  | .opt o (.value value) :: rest =>
    match g.set o value with
    | some g => gather known g false rest
    | none => .error .usageError
  | .opt o .nothing :: .plain value :: rest =>
    match g.set o value with
    | some g => gather known g false rest
    | none => .error .usageError
  | .opt _ _ :: _ => .error .usageError

/-- Gathers all arguments of a command, of which none may be unclear. -/
def gatherAll (known : Spellings) (args : List String) : Except Command Gathered :=
  let read := readArgs known args
  if read.contains .unclear then .error .usageError else gather known {} false read

/-- The command with a name. -/
def commandOf (name : String) (args : List String) (extra : Bool) : Command :=
  match name with
  | "read" =>
    match gatherAll readSpellings args with
    | .error c => c
    | .ok g =>
      match g.main with
      | some target => if g.extra || extra then .usageError else .read target g.member g.schemas
      | none => .usageError
  | "parse" =>
    match gatherAll parseSpellings args with
    | .error c => c
    | .ok g => if g.extra || extra then .usageError else .parse (g.main.getD "-") g.target g.schemas
  | _ => .usageError

/-- Goes through the arguments up to the name of the command. -/
def findCommand (extra : Bool) : List String → Command
  | [] => .usageError
  | text :: rest =>
    match readArg mainSpellings text with
    | .plain name => commandOf name rest extra
    | .opt o attached =>
      if !attached.fits mainSpellings then .usageError
      else if o = .version then .showVersion
      else .showHelp
    | .unknown => findCommand true rest
    | .dashes | .unclear => .usageError

/-- Reads the arguments of the program. -/
def command (args : List String) : Command :=
  if (readArgs mainSpellings args).contains .unclear then .usageError
  else if args.head? == some "--" then .usageError
  else findCommand false args

end DocTags.CommandLine
