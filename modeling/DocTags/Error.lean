import DocTags.Token

/-!
# Errors

Everything that can go wrong, as causes.  The wording is in the `message` functions only.
-/

namespace DocTags

/-- A type id: the dotted path of a class, its module first. -/
abbrev TypeId := String

/-- What is wrong with the text of a tag. -/
inductive Malformation where
  | expected (wanted got : TokenKind)
  | custom (message : String)
  | nameExpected
  | plainTagInside
  | endOfText
  | unexpected (text : String)
  | unexpectedData
  | dataAfterList
  | keyNotAlphabetic
  | missingValue (key : String)
  | unnamedNotFirst
  | unexpectedValue
  | unterminatedString
  deriving DecidableEq, Repr

/-- The wording of a malformation, without its place. -/
def Malformation.message : Malformation → String
  | expected wanted got => "Expected " ++ wanted.name ++ ", got " ++ got.name
  | custom message => message
  | nameExpected => "Expected annotation name"
  | plainTagInside => "Inner annotations must be type annotations"
  | endOfText => "Unexpected end of comment"
  | unexpected text => "Unexpected " ++ text
  | unexpectedData => "Unexpected data"
  | dataAfterList => "Unexpected data after list"
  | keyNotAlphabetic => "Keys must be alphabetic"
  | missingValue key => "Missing value for key " ++ key
  | unnamedNotFirst => "Unnamed value must be the only one and come first"
  | unexpectedValue => "Unexpected value"
  | unterminatedString => "Unterminated string"

/-- What a declared type asks of a value. -/
inductive Expectation where
  | string
  | number
  | integer
  | float
  | boolean
  | oneOf (values : List String)
  | array
  | arrayOfSize (size : Nat)
  | instanceOf (type : TypeId)
  deriving DecidableEq, Repr

/-- The wording of an expectation, behind the name of an attribute. -/
def Expectation.message : Expectation → String
  | string => "must be a string"
  | number => "must be a number or numeric string"
  | integer => "must be an integer"
  | float => "must be a floating point number"
  | boolean => "must be a boolean"
  | oneOf values => "must be one of the following: " ++ ", ".intercalate values
  | array => "must be an array"
  | arrayOfSize size => "must be an array with " ++ toString size ++ " elements"
  | instanceOf type => "must be an instance of " ++ type

/-- A fault of a schema description: the path of the field that has it, and its wording. -/
structure Located where
  place : List String
  wording : String
  deriving DecidableEq, Repr

def Located.message (l : Located) : String :=
  let place := ".".intercalate l.place
  if place.isEmpty then l.wording else place ++ ": " ++ l.wording

/-- What is wrong with a schema description or a schema file. -/
inductive DescriptionFault where
  | notMapping (kind : String)
  | fields (faults : List Located)
  | declaration (message : String)
  | noFile
  | invalidYaml (wording : String)
  | fileNotMapping
  deriving DecidableEq, Repr

def DescriptionFault.message : DescriptionFault → String
  | notMapping kind => "expected mapping, got " ++ kind
  | fields faults => "; ".intercalate (faults.map Located.message)
  | declaration message => message
  | noFile => "schema file not found"
  | invalidYaml wording => "invalid YAML: " ++ wording
  | fileNotMapping => "YAML must be a mapping"

/-- Operations that a value or a container does not support. -/
inductive Misuse where
  /-- A value of the wrong kind: not iterable, not hashable, not callable with these arguments. -/
  | type
  /-- A position outside a sequence. -/
  | index
  /-- A key that is not there. -/
  | key
  /-- A value of the right kind that cannot be used. -/
  | value
  /-- A field that cannot be written. -/
  | field
  /-- A number beyond what a computation can hold. -/
  | overflow
  /-- A computation that never ends. -/
  | recursion
  deriving DecidableEq, Repr

/-- Why something that looks like a value denotes none. -/
inductive Illegible where
  /-- An integer is written with more digits than are read. -/
  | tooManyDigits (count : Nat)
  /-- An integer has more digits than are written. -/
  | tooLarge
  | integer (base : Nat) (digits : String)
  | float (digits : String)
  /-- A character code beyond the last one. -/
  | character
  | year (year : Nat)
  | month
  | day
  | hour
  | minute
  | second
  deriving DecidableEq, Repr

/-- The wording of an illegible value. -/
def Illegible.message : Illegible → String
  | tooManyDigits count =>
    "Exceeds the limit (4300 digits) for integer string conversion: value has " ++ toString count ++
      " digits; use sys.set_int_max_str_digits() to increase the limit"
  | tooLarge =>
    "Exceeds the limit (4300 digits) for integer string conversion; " ++
      "use sys.set_int_max_str_digits() to increase the limit"
  | integer base digits =>
    "invalid literal for int() with base " ++ toString base ++ ": " ++ Text.quoted digits
  | float digits => "could not convert string to float: " ++ Text.quoted digits
  | character => "chr() arg not in range(0x110000)"
  | year n => "year " ++ toString n ++ " is out of range"
  | month => "month must be in 1..12"
  | day => "day is out of range for month"
  | hour => "hour must be in 0..23"
  | minute => "minute must be in 0..59"
  | second => "second must be in 0..59"

/-- The causes of failure. -/
inductive Error where
  | malformed (fault : Malformation) (token : Option Token)
  | unresolved (name : String)
  | cycle (types : List TypeId)
  | description (path : String) (fault : DescriptionFault)
  | noTag (tag : String)
  | noAnnotationOf (type : TypeId)
  | misuse (misuse : Misuse)
  | illegible (cause : Illegible)
  -- declared types and targets
  | invalidTarget (shown : String)
  | unsupportedDeclaration (shown : String)
  | mismatch (name : String) (expectation : Expectation)
  -- schemas
  | notMarked (type : TypeId)
  | unreadable (type : TypeId)
  | markerWithoutName (marker : String)
  | undeclaredParameter (name : String) (type : TypeId)
  | undeclaredDefault (name : String) (type : TypeId)
  | noSetter (setter name : String) (type : TypeId)
  -- building
  | misplaced (type : TypeId) (placement : String)
  | severalUnnamed (type : TypeId)
  | noDefaultAttribute (type : TypeId)
  | givenTwice (name : String) (type : TypeId)
  | unknownAttribute (name : String) (type : TypeId)
  | missing (name : String) (others : List String)
  -- reading
  | noMethod (name : String) (type : TypeId)
  | noProperty (name : String) (type : TypeId)
  /-- The bound on nested types was reached. -/
  | tooDeep
  deriving DecidableEq, Repr

namespace Error

/-- The wording of an error. -/
def message : Error → String
  | malformed fault none => fault.message
  | malformed fault (some token) =>
    fault.message ++ " at position " ++ toString token.position ++
      (if token.text.isEmpty then "" else " near " ++ Text.quoted token.text)
  | unresolved name => "Class " ++ name ++ " is not found"
  | cycle types => "Circular annotation inheritance: " ++ " -> ".intercalate types
  | description path fault => (if path.isEmpty then "" else path ++ ": ") ++ fault.message
  | noTag tag => "Comment does not have @" ++ tag ++ " annotation."
  | noAnnotationOf type => "Annotation not set with type " ++ type
  | misuse _ => ""
  | illegible cause => cause.message
  | invalidTarget shown => "Invalid target: " ++ shown
  | unsupportedDeclaration shown => "Unsupported attribute type declaration: " ++ shown
  | mismatch name expectation => "Attribute " ++ name ++ " " ++ expectation.message
  | notMarked type => "Class " ++ type ++ " has not been marked with @Annotation"
  | unreadable type => "Cannot read annotation declarations of " ++ type
  | markerWithoutName marker => "@" ++ marker ++ " requires a name"
  | undeclaredParameter name type =>
    "Constructor parameter " ++ name ++ " of " ++ type ++ " has no attribute declaration"
  | undeclaredDefault name type =>
    "Default attribute " ++ name ++ " of " ++ type ++ " is not declared"
  | noSetter setter name type =>
    "Setter " ++ setter ++ " for attribute " ++ name ++ " does not exist in " ++ type
  | misplaced type placement => "Annotation " ++ type ++ " can not be applied to " ++ placement
  | severalUnnamed type => "Annotation " ++ type ++ " accepts a single unnamed value"
  | noDefaultAttribute type => "Annotation " ++ type ++ " does not have a default attribute"
  | givenTwice name type =>
    "Attribute " ++ name ++ " of " ++ type ++ " is set both by name and by position"
  | unknownAttribute name type => "Unknown attribute " ++ name ++ " for annotation " ++ type
  | missing name [] => "Attribute " ++ name ++ " is required but not set"
  | missing name others =>
    "Attributes " ++ ", ".intercalate (name :: others) ++ " are required but not set"
  | noMethod name type => "Method " ++ name ++ " does not exist in " ++ type
  | noProperty name type => "Property " ++ name ++ " does not exist in " ++ type
  | tooDeep => "Annotation types are nested too deeply"

/-- The errors about names, schemas and annotations, which a schema description passes on as its
own. -/
def isAnnotationError : Error → Bool
  | malformed .. | description .. | noTag .. | noAnnotationOf .. | misuse .. | illegible ..
  | tooDeep => false
  | _ => true

end Error
end DocTags
