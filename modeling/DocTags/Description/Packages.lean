import DocTags.Description.File
import DocTags.Description.Validation
import DocTags.Yaml.Document

/-!
# The packages of the program

What the program runs with in the place of its packages.  Of YAML it knows block and flow
collections, plain and quoted scalars and comments; anchors, tags, block scalars and directives are
malformed to it.  Only the program itself uses these packages.
-/

namespace DocTags.Packages

/-- The fault of a text as one that a package reports. -/
def textFault : Yaml.Fault → TextFault
  | .malformed => .malformed ""
  | .valueless e => .failed e

/-- The packages that the program runs with. -/
def builtIn (w : World) : Packages where
  load text := (Yaml.parse text).mapError textFault
  validate := Description.ofPairs w

end DocTags.Packages
