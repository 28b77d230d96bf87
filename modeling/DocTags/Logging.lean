/-!
# Logging

The log of the program has one handler, which writes records of the log's level and above.  It is
set up once; later attempts change nothing.
-/

namespace DocTags

/-- The levels of records, the lowest first. -/
inductive LogLevel where
  | debug
  | info
  deriving DecidableEq, Repr

namespace LogLevel

def name : LogLevel → String
  | debug => "DEBUG"
  | info => "INFO"

/-- The place of a level in the order of levels. -/
def rank : LogLevel → Nat
  | debug => 0
  | info => 1

end LogLevel

/-- The state of the log; its level is absent until it is set up. -/
structure Log where
  level : Option LogLevel := none
  handlers : Nat := 0
  deriving DecidableEq, Repr

namespace Log

/-- Sets the log up; the text of the debug variable, if there is any, asks for all records. -/
def setup (log : Log) (debug : Option String) : Log :=
  match log.level with
  | some _ => log
  | none =>
    { level := some (if (debug.getD "").isEmpty then .info else .debug)
      handlers := max log.handlers 1 }

/-- What a record makes the handler write. -/
def write (log : Log) (level : LogLevel) (message : String) : String :=
  match log.level with
  | none => ""
  | some least =>
    if level.rank < least.rank then "" else "[" ++ level.name ++ "] " ++ message ++ "\n"

end Log
end DocTags
