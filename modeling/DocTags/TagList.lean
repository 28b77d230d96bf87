import DocTags.Value.Equality
import DocTags.World.Attribute

/-!
# Tag lists

What `{...}` and `(...)` denote: values in order, some of which have a key.  Using a key again
replaces the value of the earlier entry in its place, so the keys of a tag list are distinct.
-/

namespace DocTags

/-- Entries in order; the key is absent from unnamed ones. -/
abbrev TagList := List (Option String × Value)

namespace TagList

/-- Replaces the value under a key that is there, and adds an entry otherwise. -/
def putNamed (entries : TagList) (key : String) (value : Value) : TagList :=
  match entries with
  | [] => [(some key, value)]
  | entry :: rest =>
    if entry.1 == some key then (some key, value) :: rest else entry :: putNamed rest key value

/-- Adds an entry behind the others, or in the place of its key. -/
def append (entries : TagList) (key : Option String) (value : Value) : TagList :=
  match key with
  | none => entries ++ [(none, value)]
  | some key => putNamed entries key value

/-- The tag list that adding the entries in order gives. -/
def ofEntries (entries : List (Option String × Value)) : TagList :=
  entries.foldl (fun acc entry => acc.append entry.1 entry.2) []

/-- The tag list of some values and some named values.  The name of the class itself is taken. -/
def of (values : List Value) (named : List (String × Value)) : Except Error TagList :=
  if Keyed.has named "cls" then .error (.misuse .type)
  else
    .ok (ofEntries
      (values.map (fun v => (none, v)) ++ named.map fun (name, v) => (some name, v)))

/-- All values, in order. -/
def values (entries : TagList) : List Value :=
  entries.map Prod.snd

/-- The values without a key, in order. -/
def positional (entries : TagList) : List Value :=
  (entries.filter fun entry => entry.1.isNone).map Prod.snd

/-- The entries with a key, in order. -/
def named (entries : TagList) : Keyed Value :=
  entries.filterMap fun (key, value) => key.map fun k => (k, value)

/-- The keys, in order. -/
def keys (entries : TagList) : List String :=
  entries.filterMap Prod.fst

def hasKeys (entries : TagList) : Bool :=
  entries.any hasKey

/-- The value under a key. -/
def get? (entries : TagList) (key : String) : Option Value :=
  entries.named.get? key

/-- The place of the entry with a key. -/
def index? (entries : TagList) (key : String) : Option Nat :=
  entries.findIdx? fun entry => entry.1 == some key

/-- The value at a place; negative places count from the end. -/
def at? (entries : TagList) (place : Int) : Option Value :=
  let place := if place < 0 then place + entries.length else place
  if place < 0 then none else entries.values[place.toNat]?

/-- What a tag list gives for an item: the value under a key or at a place. -/
def item (entries : TagList) (item : Value) : Except Error Value :=
  let place : Option Int :=
    match item with
    | .int n => some n
    | .bool b => some (if b then 1 else 0)
    | .placement p => some p.mask
    | _ => none
  match item, place with
  | .str key, _ => match entries.get? key with
    | some v => .ok v
    | none => .error (.misuse .key)
  | _, some n => match entries.at? n with
    | some v => .ok v
    | none => .error (.misuse .index)
  | _, none => .error (.misuse .type)

/-- A bound of a slice as a place between the limits; negative bounds count from the end. -/
def clampBound (size low high : Int) (bound : Int) : Int :=
  let bound := if bound < 0 then bound + size else bound
  max low (min high bound)

/-- The values from `start` up to, not including, `stop`, taking every `step`-th one; a negative
step walks backwards. -/
def slice (entries : TagList) (start stop step : Option Int) : Except Error (List Value) :=
  let step := step.getD 1
  let size : Int := entries.length
  if step = 0 then .error (.misuse .value)
  else
    let vs := entries.values
    let pick (i : Int) := vs[i.toNat]?
    if 0 < step then
      let first := (start.map (clampBound size 0 size)).getD 0
      let last := (stop.map (clampBound size 0 size)).getD size
      let count := if first < last then ((last - first - 1) / step + 1).toNat else 0
      .ok ((List.range count).filterMap fun (i : Nat) => pick (first + i * step))
    else
      let first := (start.map (clampBound size (-1) (size - 1))).getD (size - 1)
      let last := (stop.map (clampBound size (-1) (size - 1))).getD (-1)
      let count := if last < first then ((first - last - 1) / (-step) + 1).toNat else 0
      .ok ((List.range count).filterMap fun (i : Nat) => pick (first + i * step))

/-! ## With an index

Looking up a key goes through the entries.  Kept beside them, an index of the places of the keys
saves the search. -/

/-- Entries together with the places of their keys. -/
structure Indexed where
  entries : TagList := []
  index : Keyed Nat := []

namespace Indexed

/-- Adds an entry behind the others, or at the place of its key. -/
def append (t : Indexed) (key : Option String) (v : Value) : Indexed :=
  match key with
  | none => { t with entries := t.entries ++ [(none, v)] }
  | some key =>
    match t.index.get? key with
    | some place => { t with entries := t.entries.set place (some key, v) }
    | none =>
      { entries := t.entries ++ [(some key, v)], index := t.index.put key t.entries.length }

/-- Adds entries one after the other. -/
def appendAll (t : Indexed) (added : TagList) : Indexed :=
  added.foldl (fun t entry => t.append entry.1 entry.2) t

/-- The tag list of some entries, with its index. -/
def ofEntries (initial : TagList) : Indexed :=
  ({} : Indexed).appendAll initial

/-- The value under a key, at the place that the index has for it. -/
def get? (t : Indexed) (key : String) : Option Value :=
  (t.index.get? key).bind fun place => t.entries[place]?.map Prod.snd

end Indexed
end TagList

namespace Value

mutual

/-- The value that objects are given for a supplied one: a tag list without keys becomes a list,
one with keys only becomes a dictionary, and a mixed one stays as it is. -/
def native : Value → Value
  | tags entries =>
    if !entries.any hasKey then list (nativeItems entries)
    else if entries.all hasKey then dict (nativePairs entries)
    else tags entries
  | v => v

/-- The native values of the entries. -/
def nativeItems : List (Option String × Value) → List Value
  | [] => []
  | (_, v) :: rest => native v :: nativeItems rest

/-- The keyed entries as pairs with native values. -/
def nativePairs : List (Option String × Value) → List (Value × Value)
  | [] => []
  | (some key, v) :: rest => (str key, native v) :: nativePairs rest
  | (none, _) :: rest => nativePairs rest

end

/-- Membership by a method of a program, which finds nothing; what no method decides is misuse. -/
def containsByMethod (w : World) (v : Value) : Except Error Bool :=
  match w.member? v.typeOf "__contains__" with
  | some (.routine r) => if r.making == .defined then .ok false else .error (.misuse .type)
  | _ => .error (.misuse .type)

/-- Membership in a value: the sets that a placement includes, the keys of a dictionary, and the
elements of sequences.  A text, and a value that has no members, contains only what equals it. -/
def contains (w : World) (v x : Value) : Except Error Bool :=
  match v with
  | str _ => .ok (w.equal v x)
  | list items | tuple items => .ok (w.hasElement items x)
  | tags entries => .ok (w.hasElement (TagList.values entries) x)
  | dict pairs =>
    if x.isHashable then .ok (x.isIn (pairs.map Prod.fst)) else .error (.misuse .type)
  | placement p =>
    match x with
    | placement q => .ok (p.includes q)
    | _ => .error (.misuse .type)
  | v => if (w.attribute? v "__contains__").isNone then .ok (w.equal v x) else v.containsByMethod w

/-- A pair out of a value with two elements, the first of which can be a key. -/
def toPair (v : Value) : Except Error (Value × Value) := do
  match ← v.elements with
  | [key, value] => if key.isHashable then return (key, value) else throw (.misuse .type)
  | _ => throw (.misuse .value)

/-- Stores pairs in a dictionary one after the other. -/
def addPairs : List (Value × Value) → List Value → Except Error (List (Value × Value))
  | acc, [] => .ok acc
  | acc, v :: vs => do
    let (key, value) ← v.toPair
    addPairs (putPair acc key value) vs

/-- The pairs of a value taken as a dictionary: those of a dictionary, the keyed entries of a tag
list, and the elements of other collections if each of them is a pair. -/
def toPairs : Value → Except Error (List (Value × Value))
  | dict pairs => .ok pairs
  | tags entries => .ok ((TagList.named entries).map fun (name, v) => (str name, v))
  | v => do addPairs [] (← v.elements)

end Value
end DocTags
