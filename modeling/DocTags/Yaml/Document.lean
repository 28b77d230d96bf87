import DocTags.Value.Equality
import DocTags.Yaml.Node

/-!
# Values of files

A file denotes one value.  Merge keys are followed first: the key `<<` puts the pairs of its value,
a mapping or a list of mappings, before those of the mapping it stands in.  The value is then made
level by level, so of several faults the one on the outermost level counts, and of those the first.
-/

namespace DocTags.Yaml

namespace Node

/-! ## Merging -/

/-- `true` on the key that merges. -/
def isMerge : Node → Bool
  | .scalar true text => text == ['<', '<']
  | _ => false

/-- The pairs that a mapping gives to one it is merged into. -/
def pairs? : Node → Option (List (Node × Node))
  | .mapping _ pairs => some pairs
  | _ => none

/-- The pairs that the value of a merge key gives; of several mappings the last one comes first. -/
def mergedPairs? : Node → Option (List (Node × Node))
  | .sequence items => (items.mapM pairs?).map fun found => found.reverse.flatten
  | node => node.pairs?

/-- The pairs that the merge keys among some pairs give.  A merge key behind one that gave pairs is
an error. -/
def collectMerged? (found : List (Node × Node)) :
    List (Node × Node) → Option (List (Node × Node))
  | [] => some found
  | (key, v) :: rest =>
    if !key.isMerge then collectMerged? found rest
    else if !found.isEmpty then none
    else v.mergedPairs?.bind fun found => collectMerged? found rest

/-- The mapping of some pairs, the merge keys among which are followed. -/
def ofPairs (pairs : List (Node × Node)) : Node :=
  match collectMerged? [] pairs with
  | none => .broken
  | some found =>
    .mapping (!found.isEmpty) (found ++ pairs.filter fun pair => !pair.1.isMerge)

mutual

/-- The node with all merge keys followed, from the inside out. -/
def merge : Node → Node
  | .scalar plain text => .scalar plain text
  | .sequence items => .sequence (mergeItems items)
  | .mapping _ pairs => ofPairs (mergePairs pairs)
  | .broken => .broken

def mergeItems : List Node → List Node
  | [] => []
  | item :: items => merge item :: mergeItems items

def mergePairs : List (Node × Node) → List (Node × Node)
  | [] => []
  | (key, v) :: rest => (merge key, merge v) :: mergePairs rest

end

/-! ## Values -/

/-- A value, and the faults that were met when it was made, each with its level. -/
structure Made where
  value : Value
  faults : List (Nat × Fault) := []

/-- The value of a scalar.  A key may be the mark of a default value, which is a text there. -/
def makeScalar (asKey : Bool) (level : Nat) (plain : Bool) (text : List Char) : Made :=
  if plain && !(asKey && text == ['=']) then
    match ofPlain text with
    | .ok v => ⟨v, []⟩
    | .error fault => ⟨.null, [(level, fault)]⟩
  else ⟨.str (String.ofList text), []⟩

/-- A value as a key: a list becomes a tuple, and a mapping cannot be one. -/
def Made.asKey (m : Made) (level : Nat) : Made :=
  match m.value with
  | .list items => { m with value := .tuple items }
  | .dict _ => { m with faults := m.faults ++ [(level, .malformed)] }
  | _ => m

/-- Adds a pair to a mapping. -/
def addPair (merged : Bool) (level : Nat) (found : List (Value × Value)) (key v : Value) :
    List (Value × Value) × List (Nat × Fault) :=
  if !key.isHashable then (found, [(level, .valueless (.misuse .type))])
  else if !merged && key.isIn (found.map Prod.fst) then (found, [(level, .malformed)])
  else (Value.putPair found key v, [])

mutual

/-- The value of a node.  Scalars are met on the level of the collection they stand in, and so is
everything in a key; other collections have a level of their own. -/
def make (inKey : Bool) (level : Nat) : Node → Made
  | .scalar plain text => makeScalar false level plain text
  | .sequence items =>
    let (values, faults) := makeItems inKey (if inKey then level else level + 1) items
    ⟨.list values, faults⟩
  | .mapping merged pairs =>
    let (found, faults) := makePairs inKey (if inKey then level else level + 1) merged [] pairs
    ⟨.dict found, faults⟩
  | .broken => ⟨.null, [(if inKey then level else level + 1, .malformed)]⟩

def makeItems (inKey : Bool) (level : Nat) : List Node → List Value × List (Nat × Fault)
  | [] => ([], [])
  | item :: items =>
    let m := make inKey level item
    let (values, faults) := makeItems inKey level items
    (m.value :: values, m.faults ++ faults)

/-- The pairs of a mapping, behind those made before. -/
def makePairs (inKey : Bool) (level : Nat) (merged : Bool) (found : List (Value × Value)) :
    List (Node × Node) → List (Value × Value) × List (Nat × Fault)
  | [] => (found, [])
  | (key, v) :: rest =>
    let k := match key with
      | .scalar plain text => makeScalar true level plain text
      | key => (make true level key).asKey level
    let m := make inKey level v
    let (found, faults) := addPair merged level found k.value m.value
    let (found, others) := makePairs inKey level merged found rest
    (found, k.faults ++ m.faults ++ faults ++ others)

end

/-- The fault on the outermost level, the first one if there are several. -/
def outermost? : List (Nat × Fault) → Option (Nat × Fault)
  | [] => none
  | fault :: rest =>
    match outermost? rest with
    | none => some fault
    | some other => some (if other.1 < fault.1 then other else fault)

/-- The value of a node, if it has no faults. -/
def toValue (node : Node) : Except Fault Value :=
  let m := make false 0 node.merge
  match outermost? m.faults with
  | none => .ok m.value
  | some (_, fault) => .error fault

end Node

/-- The value of a file; a file without document is null. -/
def parse (text : List Char) : Except Fault Value := do
  if !text.all isAllowed then throw .malformed
  match ← Node.ofTokens (tokens text) with
  | none => return .null
  | some node => node.toValue

end DocTags.Yaml
