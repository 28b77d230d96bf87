import DocTags.World

/-!
# Equality of values

Numbers are equal by value, whatever their kind; texts and sequences are equal element by element;
dictionaries are equal when they hold equal values under equal keys, in any order.  A tag list is
equal to a tag list with the same entries, to a list or tuple of its values if it has no keys, and
to a dictionary of its entries if all of them have keys.  Objects are equal only to themselves.
Where a class has a method that compares its objects, `World.equal` asks it; it is not asked about
objects inside collections.

A number that is none differs from every value.  Inside a collection it is still the same element
as itself, so elements are compared by `same`, which its mark decides.
-/

namespace DocTags

/-- `true` when an entry has a key. -/
def hasKey (entry : Option String × Value) : Bool := entry.1.isSome

namespace Value

/-- `true` when the value is the given text. -/
def isText (s : String) : Value → Bool
  | str t => s == t
  | _ => false

/-- `true` on two occurrences of one number that is none. -/
def isSameNaN : Value → Value → Bool
  | float x m, float y n => x.isNaN && x == y && m == n
  | _, _ => false

mutual

/-- Equality of values. -/
def equal : Value → Value → Bool
  | null, null => true
  | missing, missing => true
  | str s, str t => s == t
  | moment m, moment n => m == n
  | list xs, list ys => equalItems xs ys
  | list xs, tags ys => !ys.any hasKey && equalItems xs (ys.map Prod.snd)
  | tuple xs, tuple ys => equalItems xs ys
  | tuple xs, tags ys => !ys.any hasKey && equalItems xs (ys.map Prod.snd)
  | dict xs, dict ys => xs.length == ys.length && equalPairs xs ys
  | dict xs, tags ys => ys.all hasKey && xs.length == ys.length && equalPairsNamed xs ys
  | tags xs, tags ys => equalEntries xs ys
  | tags xs, list ys => !xs.any hasKey && equalUnnamed xs ys
  | tags xs, tuple ys => !xs.any hasKey && equalUnnamed xs ys
  | tags xs, dict ys => xs.all hasKey && xs.length == ys.length && equalNamed xs ys
  | object o s fs, object p t gs => o == p && s == t && equalFields fs gs
  | cls s, cls t => s == t
  | routine r, routine s => r == s
  | property p, property q => p == q
  | moduleNamed m, moduleNamed n => m == n
  | typeExpr t, typeExpr u => equalType t u
  | v, w =>
    match v.number?, w.number? with
    | some m, some n => m.equal n
    | _, _ => false

/-- Equality element by element. -/
def equalItems : List Value → List Value → Bool
  | [], [] => true
  | x :: xs, y :: ys => (isSameNaN x y || equal x y) && equalItems xs ys
  | _, _ => false

/-- Each pair of the first dictionary has an equal one in the second. -/
def equalPairs : List (Value × Value) → List (Value × Value) → Bool
  | [], _ => true
  | (k, v) :: xs, ys =>
    ys.any (fun y =>
      (isSameNaN k y.1 || equal k y.1) && (isSameNaN v y.2 || equal v y.2)) && equalPairs xs ys

/-- Each pair of the dictionary has an equal entry in the tag list. -/
def equalPairsNamed : List (Value × Value) → List (Option String × Value) → Bool
  | [], _ => true
  | (k, v) :: xs, ys =>
    ys.any (fun y => (y.1.any fun s => k.isText s) && (isSameNaN v y.2 || equal v y.2)) &&
      equalPairsNamed xs ys

/-- Equality of entries, keys included. -/
def equalEntries : List (Option String × Value) → List (Option String × Value) → Bool
  | [], [] => true
  | (k, v) :: xs, y :: ys => k == y.1 && (isSameNaN v y.2 || equal v y.2) && equalEntries xs ys
  | _, _ => false

/-- Equality of the values of entries with the elements of a list. -/
def equalUnnamed : List (Option String × Value) → List Value → Bool
  | [], [] => true
  | (_, v) :: xs, y :: ys => (isSameNaN v y || equal v y) && equalUnnamed xs ys
  | _, _ => false

/-- Each entry has an equal pair in the dictionary. -/
def equalNamed : List (Option String × Value) → List (Value × Value) → Bool
  | [], _ => true
  | (k, v) :: xs, ys =>
    ys.any (fun y => (k.any fun s => y.1.isText s) && (isSameNaN v y.2 || equal v y.2)) &&
      equalNamed xs ys

/-- Equality of fields, names included. -/
def equalFields : List (String × Value) → List (String × Value) → Bool
  | [], [] => true
  | (n, v) :: xs, y :: ys => n == y.1 && (isSameNaN v y.2 || equal v y.2) && equalFields xs ys
  | _, _ => false

/-- Equality of types; enumerations are equal when their values are. -/
def equalType : TypeExpr → TypeExpr → Bool
  | .mixed, .mixed => true
  | .string, .string => true
  | .number, .number => true
  | .integer, .integer => true
  | .float, .float => true
  | .boolean, .boolean => true
  | .enum xs, .enum ys => equalItems xs ys
  | .ref s, .ref t => s == t
  | .tuple xs, .tuple ys => equalTypes xs ys
  | .list x, .list y => equalType x y
  | .foreign m, .foreign n => m == n
  | _, _ => false

/-- Equality of types one by one. -/
def equalTypes : List TypeExpr → List TypeExpr → Bool
  | [], [] => true
  | x :: xs, y :: ys => equalType x y && equalTypes xs ys
  | _, _ => false

end

/-- Equality of elements: they are equal, or one and the same. -/
def same (v w : Value) : Bool := isSameNaN v w || equal v w

/-- `true` when a value equal to `v` is among the values. -/
def isIn (v : Value) (vs : List Value) : Bool :=
  vs.any fun w => same w v

mutual

/-- `true` on the values that can be keys of a dictionary. -/
def isHashable : Value → Bool
  | list _ | dict _ | tags _ => false
  | tuple items => areHashable items
  | typeExpr t => isHashableType t
  | _ => true

def areHashable : List Value → Bool
  | [] => true
  | v :: vs => isHashable v && areHashable vs

def isHashableType : TypeExpr → Bool
  | .enum values => areHashable values
  | .tuple items => areHashableTypes items
  | .list item => isHashableType item
  | _ => true

def areHashableTypes : List TypeExpr → Bool
  | [] => true
  | t :: ts => isHashableType t && areHashableTypes ts

end

/-- Stores a pair in a dictionary; an equal key keeps its place and its spelling. -/
def putPair (pairs : List (Value × Value)) (key value : Value) : List (Value × Value) :=
  match pairs with
  | [] => [(key, value)]
  | (k, v) :: rest =>
    if same k key then (k, value) :: rest else (k, v) :: putPair rest key value

end Value

namespace World

variable (w : World)

/-- How an object is compared, if its class does this by itself. -/
def comparison? : Value → Option (Value → Value → Bool)
  | .object _ type _ => w.comparisonOf? type
  | _ => none

/-- Equality of two values in a program.  The first one is asked, and the second one if the first
leaves it open. -/
def equal (a b : Value) : Bool :=
  match w.comparison? a, w.comparison? b with
  | some compared, _ => compared a b
  | none, some compared => a.equal b || compared b a
  | none, none => a.equal b

/-- `true` when a value equal to `v`, or the very same one, is among the elements. -/
def hasElement (vs : List Value) (v : Value) : Bool :=
  vs.any fun a => a.same v || w.equal a v

end World
end DocTags
