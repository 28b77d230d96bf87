/-!
# Placements

The program elements that an annotation may be attached to, as a set of bits.  A type declares the
placements it allows; a written annotation has one placement, and it is allowed when the two share
a bit.  Bits beyond the five named ones are kept and have no name.
-/

namespace DocTags

/-- A set of placements, as a bit mask. -/
structure Placement where
  mask : Nat
  deriving DecidableEq, Repr, Inhabited

namespace Placement

def nowhere : Placement := ⟨0⟩
def onClass : Placement := ⟨1⟩
def onMethod : Placement := ⟨2⟩
def onProperty : Placement := ⟨4⟩
def onFunction : Placement := ⟨8⟩
def nested : Placement := ⟨16⟩
def all : Placement := ⟨31⟩

/-- The placements with one bit, each with its name. -/
def named : List (String × Placement) :=
  [("CLASS", onClass), ("METHOD", onMethod), ("PROPERTY", onProperty), ("FUNCTION", onFunction),
    ("ANNOTATION", nested)]

/-- The union of two sets. -/
def union (a b : Placement) : Placement := ⟨a.mask ||| b.mask⟩

/-- `true` when the two sets share a bit. -/
def allows (mask placement : Placement) : Bool := mask.mask &&& placement.mask != 0

/-- `true` when every bit of `part` is in the set. -/
def includes (mask part : Placement) : Bool := mask.mask &&& part.mask == part.mask

/-- The named placements of a set, in ascending order. -/
def members (p : Placement) : List Placement :=
  (named.map Prod.snd).filter p.includes

/-- The set with the given mask.  A negative mask is taken modulo the least power of two that
exceeds its bits, and that is at least 32. -/
def ofInt (n : Int) : Placement :=
  if 0 ≤ n then ⟨n.toNat⟩
  else
    let size := max 32 (if n < -32 then Nat.pow 2 (Nat.log2 n.natAbs + 1) else 32)
    ⟨((size : Int) + n).toNat⟩

/-- The set with the given name, in upper case. -/
def ofName? (name : String) : Option Placement :=
  if name == "ALL" then some all else named.lookup name

/-- The set in words: the names in lower case. -/
def describe (p : Placement) : String :=
  if p == all then "all"
  else
    match named.filter fun (_, q) => p.includes q with
    | [] => "none"
    | found => "|".intercalate (found.map fun (name, _) => name.map Char.toLower)

/-- The name of a set: its own, or those of its members and the rest of its bits as a number.  A set
without members has none. -/
def name? (p : Placement) : Option String :=
  if p == all then some "ALL"
  else
    match (named.filter fun (_, q) => p.includes q).map Prod.fst with
    | [] => none
    | found =>
      let rest := p.mask - (p.mask &&& all.mask)
      some ("|".intercalate (found ++ if rest = 0 then [] else [toString rest]))

/-- The set as listings show it: its name and its mask. -/
def render (p : Placement) : String :=
  "<Placement" ++ (p.name?.elim "" fun name => "." ++ name) ++ ": " ++ toString p.mask ++ ">"

end Placement
end DocTags
