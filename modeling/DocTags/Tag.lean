import DocTags.Value.Basic

/-!
# Tags

The form of a tag section before anything in it is looked up or built.  A section is a list of tags,
and the lists written in tags are trees of entries.

A text may be malformed at some place.  What stands before that place takes effect all the same, so
a tree records the error at the place where it was found instead of refusing the whole text: a list
either is closed or breaks off with an error.
-/

namespace DocTags

mutual

/-- What can stand in a list. -/
inductive Item where
  /-- A keyword, a numeral or a string. -/
  | value (v : Value)
  /-- A bare word, to be looked up as a constant or as the name of a class. -/
  | word (name : String)
  | list (entries : Entries)
  /-- An annotation inside a list. -/
  | nested (name : String) (arguments : Entries)

/-- The entries of a list, up to its end. -/
inductive Entries where
  /-- The list is closed. -/
  | closed
  | entry (key : Option String) (item : Item) (rest : Entries)
  /-- The list breaks off with an error, which may come behind a list or an annotation that takes
  effect before it. -/
  | broken (before : Option Item) (error : Error)

end

/-- A tag. -/
inductive Tag where
  /-- A tag with the text behind it, trimmed; a tag without text is a flag. -/
  | plain (name : String) (text : String)
  /-- A tag with a list.  Nothing but blanks may follow on its line; what does is an error. -/
  | list (name : String) (entries : Entries) (after : Option Token)
  /-- An annotation with its arguments. -/
  | typed (name : String) (arguments : Entries)

/-! ## The annotations in a tag -/

mutual

/-- The names of the annotations in an item. -/
def Item.names : Item → List String
  | .value _ | .word _ => []
  | .list entries => entries.names
  | .nested name arguments => name :: arguments.names

/-- The names of the annotations in a list. -/
def Entries.names : Entries → List String
  | .closed => []
  | .entry _ item rest => item.names ++ rest.names
  | .broken none _ => []
  | .broken (some item) _ => item.names

end

/-- The names of the annotations in a tag, its own if it is one. -/
def Tag.names : Tag → List String
  | .plain _ _ => []
  | .list _ entries _ => entries.names
  | .typed name arguments => name :: arguments.names

end DocTags
