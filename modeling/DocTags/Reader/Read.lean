import DocTags.Comment
import DocTags.Reader.Build
import DocTags.Tag.Parse

/-!
# Reading documentation blocks

The tags of a block take effect in the order of the text: words are looked up, annotations are built
and filed under their types.
-/

namespace DocTags

/-- What a block is read with. -/
structure Setting where
  world : World
  /-- The names the text can use. -/
  scope : Scope
  /-- Where the documented element stands. -/
  placement : Placement
  /-- The type whose documentation is read. -/
  owner : Option TypeId
  /-- Resolves the schema of an annotation type. -/
  schemaOf : TypeId → Run Reader Schema

namespace Setting

variable (x : Setting)

/-- The type id of a name in the text. -/
def resolve (name : String) : Run Reader TypeId :=
  Reader.onNames (Names.resolve x.world x.scope name)

/-- The value of a bare word among arguments: a constant, or else the type id of a class. -/
def wordValue (name : String) : Run Reader Value := do
  match ← Reader.onNames (Names.constant? x.world x.scope name) with
  | some v => return v
  | none => return .str (← x.resolve name)

/-- Builds the annotation with a name and arguments. -/
def build (name : String) (args : TagList) (placement : Placement) :
    Run Reader (TypeId × Value) := do
  let type ← x.resolve name
  return (type, ← Reader.buildWith x.world x.schemaOf x.owner type (.tags args) placement)

mutual

/-- The value of an item of a list. -/
def item : Item → Run Reader Value
  | .value v => return v
  | .word name => x.wordValue name
  | .list es => return .tags (← entries es [])
  | .nested name args => do
    let args ← entries args []
    return (← x.build name args .nested).2

/-- The tag list of some entries, behind those read before. -/
def entries : Entries → TagList → Run Reader TagList
  | .closed, acc => return acc
  | .entry key i rest, acc => do
    let v ← item i
    entries rest (TagList.append acc key v)
  | .broken none e, _ => throw e
  | .broken (some i) e, _ => do
    let _ ← item i
    throw e

end

/-- The comment after one more tag. -/
def tag (c : Comment) : Tag → Run Reader Comment
  | .plain name text => return c.add name (if text.isEmpty then .bool true else .str text)
  | .list name es after => do
    let v ← x.entries es []
    match after with
    | some t => throw (.malformed .dataAfterList (some t))
    | none => return c.add name (.tags v)
  | .typed name args => do
    let args ← x.entries args []
    let (type, v) ← x.build name args x.placement
    return c.annotate type v

/-- The comment after some more tags. -/
def tags (c : Comment) : List Tag → Run Reader Comment
  | [] => return c
  | t :: ts => do tags (← x.tag c t) ts

/-- Scans a tag section into a comment. -/
def scan (c : Comment) (text : List Char) : Run Reader Comment :=
  x.tags c (Tag.ofSection text)

/-- Reads a documentation block. -/
def read (block : List Char) : Run Reader Comment :=
  match Text.splitSection (Text.bare block) with
  | (before, none) => return { description := String.ofList (Text.trim before) }
  | (before, some text) => x.scan { description := String.ofList (Text.trim before) } text

end Setting
end DocTags
