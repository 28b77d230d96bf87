import DocTags.Text.Blank
import DocTags.Text.Case
import DocTags.Value.Render

/-!
# Reading placements

A set of placements can be given as a mask, as the name of a placement or as a collection of these.
-/

namespace DocTags.Placement

/-- The placement with a name, in any letter case and between blanks. -/
def ofText (s : String) : Except Error Placement :=
  match ofName? (String.ofList (Text.upper (Text.trim s.toList))) with
  | some p => .ok p
  | none => .error (.invalidTarget s)

variable (w : World)

mutual

/-- The set of placements that a value stands for: the union of the sets of its elements, if it is
a collection.  What claims to have elements and has none cannot be asked. -/
def parse : Value → Except Error Placement
  | .placement p => .ok p
  | .int n => .ok (ofInt n)
  | .str s => ofText s
  | .list items => parseItems items nowhere
  | .tuple items => parseItems items nowhere
  | .dict pairs => parseKeys pairs nowhere
  | .tags entries => parseEntries entries nowhere
  | v =>
    if (w.attribute? v "__iter__").isSome then .error (.misuse .type)
    else do throw (.invalidTarget (← v.render w))

def parseItems : List Value → Placement → Except Error Placement
  | [], acc => .ok acc
  | v :: vs, acc => do parseItems vs (acc.union (← parse v))

def parseKeys : List (Value × Value) → Placement → Except Error Placement
  | [], acc => .ok acc
  | (k, _) :: rest, acc => do parseKeys rest (acc.union (← parse k))

def parseEntries : List (Option String × Value) → Placement → Except Error Placement
  | [], acc => .ok acc
  | (_, v) :: rest, acc => do parseEntries rest (acc.union (← parse v))

end

end DocTags.Placement
