import DocTags.TagList
import DocTags.Value.Render

/-!
# Comments

What a documentation block amounts to: its description, its plain tags and the annotations built
from it, by type.
-/

namespace DocTags

/-- The content of a documentation block.  Tags are in the order of their first appearance;
annotations are grouped by type, the types in the order of their first appearance and the objects
of a type in the order of the text. -/
structure Comment where
  description : String := ""
  tags : Keyed Value := []
  annotations : Keyed (List Value) := []

namespace Comment

/-- Sets a tag; a tag that is there keeps its place. -/
def add (c : Comment) (tag : String) (value : Value) : Comment :=
  { c with tags := c.tags.put tag value }

/-- Takes a tag away, if it is there. -/
def remove (c : Comment) (tag : String) : Comment :=
  { c with tags := c.tags.erase tag }

def has (c : Comment) (tag : String) : Bool :=
  c.tags.has tag

/-- `true` when the value is the name of a tag; it must be one that could be a key. -/
def hasValue (c : Comment) (tag : Value) : Except Error Bool :=
  if !tag.isHashable then .error (.misuse .type)
  else .ok (c.tags.any fun (name, _) => tag.isText name)

/-- The value of a tag. -/
def get (c : Comment) (tag : String) : Except Error Value :=
  match c.tags.get? tag with
  | some value => .ok value
  | none => .error (.noTag tag)

/-- `true` when the tag has an equal value. -/
def equals (w : World) (c : Comment) (tag : String) (value : Value) : Except Error Bool := do
  return w.equal (← c.get tag) value

/-- `true` when the value of the tag contains the given one. -/
def contains (w : World) (c : Comment) (tag : String) (value : Value) : Except Error Bool := do
  (← c.get tag).contains w value

/-- `true` when the value of the tag contains all of the values; the first one that it does not
contain decides. -/
def containsEach (w : World) (c : Comment) (tag : String) : List Value → Except Error Bool
  | [] => .ok true
  | v :: vs => do
    if ← c.contains w tag v then c.containsEach w tag vs else return false

/-- `containsEach` on the elements of a value. -/
def containsAll (w : World) (c : Comment) (tag : String) (values : Value) : Except Error Bool := do
  c.containsEach w tag (← values.elements)

/-- Adds an object behind those of its type. -/
def annotate (c : Comment) (type : TypeId) (value : Value) : Comment :=
  { c with annotations := c.annotations.put type ((c.annotations.get? type).getD [] ++ [value]) }

def hasAnnotations (c : Comment) (type : TypeId) : Bool :=
  c.annotations.has type

/-- The objects of a type. -/
def annotationsOf (c : Comment) (type : TypeId) : Except Error (List Value) :=
  match c.annotations.get? type with
  | some values => .ok values
  | none => .error (.noAnnotationOf type)

/-- A comment on one line: its description and the names of its tags and annotation types. -/
def render (c : Comment) : String :=
  let listed (names : List String) := enclosed "[" "]" (names.map Text.quoted)
  "Comment(description=" ++ Text.quoted c.description ++ ", tags=" ++ listed c.tags.names ++
    ", annotations=" ++ listed c.annotations.names ++ ")"

/-- An annotation in a listing: the name of its class and the fields it holds. -/
def renderAnnotated (w : World) (v : Value) : Except Error String :=
  match w.fieldsOf? v with
  | none => .error (.misuse .type)
  | some fields => do
    let shown ← fields.mapM fun (name, v) => do return name ++ "=" ++ (← v.render w)
    return enclosed (v.sortName ++ "(") ")" shown

/-- The lines of an annotation type in a listing. -/
def annotationLines (w : World) (type : TypeId) (values : List Value) :
    Except Error (List String) := do
  let shown ← values.mapM (renderAnnotated w)
  return ("  " ++ type ++ ":") :: shown.map fun text => "    " ++ text

/-- The lines of a listing. -/
def listingLines (w : World) (c : Comment) : Except Error (List String) := do
  let tags ← c.tags.mapM fun (name, value) => do
    return "  @" ++ name ++ ": " ++ (← value.render w)
  let annotations ← c.annotations.mapM fun (type, values) => annotationLines w type values
  return ("description: " ++ Text.quoted c.description) ::
    (if tags.isEmpty then "tags: none" else "tags:") :: tags ++
    (if annotations.isEmpty then "annotations: none" else "annotations:") :: annotations.flatten

/-- The listing of a comment: a line for the description, for each tag, for each annotation type and
for each annotation. -/
def listing (w : World) (c : Comment) : Except Error String := do
  return String.join ((← c.listingLines w).map fun line => line ++ "\n")

end Comment
end DocTags
