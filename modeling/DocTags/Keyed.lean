/-!
# Keyed lists

Named things in the order in which their names first appeared.  Storing under a name that is there
already replaces the thing and keeps its place.
-/

namespace DocTags

/-- Pairs of a name and a thing, in the order of the names' first appearance. -/
abbrev Keyed (α : Type) := List (String × α)

namespace Keyed

variable {α : Type}

/-- The thing stored under a name. -/
def get? (xs : Keyed α) (name : String) : Option α :=
  xs.lookup name

/-- `true` when a thing is stored under the name. -/
def has (xs : Keyed α) (name : String) : Bool :=
  xs.any fun x => x.1 == name

/-- The names, in order. -/
def names (xs : Keyed α) : List String :=
  xs.map Prod.fst

/-- Stores a thing: in the place of the name if it has one, and at the end otherwise. -/
def put (xs : Keyed α) (name : String) (a : α) : Keyed α :=
  match xs with
  | [] => [(name, a)]
  | x :: rest => if x.1 == name then (name, a) :: rest else x :: put rest name a

/-- Takes away what is stored under a name. -/
def erase (xs : Keyed α) (name : String) : Keyed α :=
  xs.filter fun x => x.1 != name

/-- Stores all pairs of the second list, in order. -/
def merge (xs ys : Keyed α) : Keyed α :=
  ys.foldl (fun acc y => acc.put y.1 y.2) xs

/-- The keyed list that storing the pairs one after the other gives. -/
def ofPairs (pairs : List (String × α)) : Keyed α :=
  merge [] pairs

end Keyed
end DocTags
