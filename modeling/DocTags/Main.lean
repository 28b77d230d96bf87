import DocTags.CommandLine
import DocTags.Description.Packages

/-!
# The program

Gathers what the command line asks about, the files it names and the standard input, and runs it.
The documented programs are those that come with the library.
-/

namespace DocTags.CommandLine

/-- The first lines of the help text. -/
def usage : String :=
  "usage: docannot [-h] [-v] read [--member NAME] [--schemas FILE] MODULE:QUALNAME\n" ++
    "       docannot [-h] [-v] parse [--target PLACEMENT] [--schemas FILE] [FILE|-]\n"

/-- The content of a file, if it can be read. -/
def contentOf (path : String) : IO (Option String) :=
  try
    return some (← IO.FS.readFile path)
  catch _ =>
    return none

/-- The files and the text that a command needs. -/
def surroundings (c : Command) : IO Surroundings := do
  let files ← c.paths.mapM fun path => do return (path, ← contentOf path)
  let input ← if c.readsInput then (← IO.getStdin).readToEnd else pure ""
  return {
    world := World.base, packages := .builtIn World.base
    file := fun path => (files.lookup path).join, input }

end DocTags.CommandLine

/-- Runs the program and ends with its exit code. -/
def main (args : List String) : IO UInt32 := do
  let s ← DocTags.CommandLine.surroundings (DocTags.CommandLine.command args)
  match DocTags.CommandLine.run s args with
  | .byArguments 0 output =>
    IO.print (if output.isEmpty then DocTags.CommandLine.usage else output)
    return 0
  | .byArguments code _ =>
    IO.eprint DocTags.CommandLine.usage
    return UInt32.ofNat code
  | .normal code output errors =>
    IO.print output
    IO.eprint errors
    return UInt32.ofNat code
  | .failed _ =>
    IO.eprintln "docannot: the documented program cannot be used like this"
    return 1
