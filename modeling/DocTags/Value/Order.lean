import DocTags.Value.Equality

/-!
# The order of values

Numbers are ordered by value, texts by code points, and sequences of one kind by their first
elements that differ.  Values of other kinds, or of different kinds, have no order, and a number
that is none is neither less nor greater than any other.  So the order need not be linear, and what
sorting gives depends on the comparisons it makes: it takes the run at the start of a list,
ascending or strictly descending, and puts the other elements into it one by one, by halving.
-/

namespace DocTags.Value

/-- The order of numbers; the infinities lie beyond all integers. -/
def Number.less : Number → Number → Bool
  | whole m, whole n => m < n
  | whole m, binary y =>
    !y.isNaN && if y.isInfinite then !y.isNegative else m * Int.pow 2 1074 < y.units
  | binary x, whole n =>
    !x.isNaN && if x.isInfinite then x.isNegative else x.units < n * Int.pow 2 1074
  | binary x, binary y => !x.isNaN && !y.isNaN && x.units < y.units

mutual

/-- Whether the first value comes before the second; there is no answer if they have no order. -/
def less? : Value → Value → Option Bool
  | str s, str t => some (s < t)
  | list xs, list ys => lessItems? xs ys
  | tuple xs, tuple ys => lessItems? xs ys
  | v, w =>
    match v.number?, w.number? with
    | some m, some n => some (m.less n)
    | _, _ => none

/-- The order of sequences; one that the other continues comes first. -/
def lessItems? : List Value → List Value → Option Bool
  | [], ys => some (!ys.isEmpty)
  | _ :: _, [] => some false
  | x :: xs, y :: ys => if same x y then lessItems? xs ys else less? x y

end

/-- `less?`, failing on values that have no order. -/
def less (v w : Value) : Except Error Bool :=
  match less? v w with
  | some answer => .ok answer
  | none => .error (.misuse .type)

/-- Cuts off the values that go on a run: each of them comes before the last one of the run, or none
does.  The run is given and taken last value first. -/
def takeRun (descending : Bool) (last : Value) (run : List Value) :
    List Value → Except Error (List Value × List Value)
  | [] => .ok (last :: run, [])
  | v :: vs => do
    if (← less v last) == descending then takeRun descending v (last :: run) vs
    else return (last :: run, v :: vs)

/-- The run at the start of a list in ascending order, and the values behind it. -/
def startRun : List Value → Except Error (List Value × List Value)
  | v :: w :: vs => do
    let descending ← less w v
    let (run, rest) ← takeRun descending w [v] vs
    return (if descending then run else run.reverse, rest)
  | vs => .ok (vs, [])

/-- The number of values in a sorted list that a value is put behind, found by halving. -/
def placeIn (v : Value) (sorted : List Value) : Except Error Nat :=
  match h : sorted.drop (sorted.length / 2) with
  | [] => .ok 0
  | middle :: behind => do
    if ← less v middle then placeIn v (sorted.take (sorted.length / 2))
    else return sorted.length / 2 + 1 + (← placeIn v behind)
termination_by sorted.length
decreasing_by
  all_goals
    have length_eq := congrArg List.length h
    simp only [List.length_drop, List.length_cons, List.length_take] at length_eq ⊢
    omega

/-- Puts a value into a sorted list. -/
def insertInto (sorted : List Value) (v : Value) : Except Error (List Value) := do
  let place ← placeIn v sorted
  return sorted.take place ++ v :: sorted.drop place

/-- Values in ascending order; those of which none is less keep their order. -/
def sort (vs : List Value) : Except Error (List Value) := do
  let (run, rest) ← startRun vs
  rest.foldlM insertInto run

end DocTags.Value
