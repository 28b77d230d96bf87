import DocTags.Proofs.Arguments
import DocTags.Proofs.Numerals
import Mathlib.Data.List.Lex
import Mathlib.Order.Bounds.Basic

/-!
# Where a value is at fault

`TypeExpr.HasType` says which values belong to a type, by rules that do not mention the check.  The
rules go by the form of a value, which agrees with its class in ordinary worlds
(`World.isOrdinary`).  A value that does not belong is wrong at one place or more: the value that
stands there is not what the type there asks for, whatever its own elements are (`Misses`).  A place
is given by the path of positions that leads to it, and `Faults` are the paths of all wrong places.

Nothing inside a wrong place is looked at, so no fault is inside another.  The order of lists is
then the order of the search: paths that part at some position are ordered by it, which is depth
first and from left to right, and the check reports the least fault.

The values of an enumeration are shown in the error.  Where one of them has no text, the error is
that of showing it; `Misses` tells this apart, and so it does for classes that cannot be loaded.

The main result is `check_reports_least_fault`.
-/

namespace DocTags.TypeExpr

/-! ## The values of a type -/

/-- The value is an array of these elements: a list, a tuple, or a tag list with all of its values,
those with keys too. -/
inductive IsArray : Value → List Value → Prop
  | list (items : List Value) : IsArray (.list items) items
  | tuple (items : List Value) : IsArray (.tuple items) items
  | tags (entries : TagList) : IsArray (.tags entries) (entries.map Prod.snd)

/-- The value belongs to the type; `find` gives the classes behind type ids. -/
inductive HasType (w : World) (find : TypeId → Option TypeId) : Value → TypeExpr → Prop
  | mixed (v : Value) : HasType w find v .mixed
  | string (s : String) : HasType w find (.str s) .string
  | wholeNumber (n : Int) : HasType w find (.int n) .number
  | floatNumber (x : Binary64) (mark : Nat) : HasType w find (.float x mark) .number
  /-- Placements are integers. -/
  | placementNumber (p : Placement) : HasType w find (.placement p) .number
  | numeral {s : String} {n : Numeral} (h : n.Spells (Text.trim s.toList)) :
      HasType w find (.str s) .number
  | integer (n : Int) : HasType w find (.int n) .integer
  | placement (p : Placement) : HasType w find (.placement p) .integer
  | float (x : Binary64) (mark : Nat) : HasType w find (.float x mark) .float
  | boolean (b : Bool) : HasType w find (.bool b) .boolean
  | enum {v a : Value} {values : List Value} (ha : a ∈ values) (hclass : a.typeOf = v.typeOf)
      (hequal : w.equal a v = true) : HasType w find v (.enum values)
  /-- The class of the value is the one that is asked for, or descends from it. -/
  | ref {v : Value} {type found : TypeId} (hfind : find type = some found)
      (h : found ∈ w.ancestryOfAll v.typeOf) : HasType w find v (.ref type)
  | anyArray {v : Value} {vs : List Value} (h : IsArray v vs) : HasType w find v (.tuple [])
  | tuple {v : Value} {vs : List Value} {ts : List TypeExpr} (h : IsArray v vs) (hne : ts ≠ [])
      (hitems : List.Forall₂ (HasType w find) vs ts) : HasType w find v (.tuple ts)
  | list {v : Value} {vs : List Value} {t : TypeExpr} (h : IsArray v vs)
      (hitems : ∀ x ∈ vs, HasType w find x t) : HasType w find v (.list t)

section Conformity

variable {w : World} {find : TypeId → Option TypeId} {v : Value}

lemma arrayItems?_eq_some_iff {vs : List Value} : arrayItems? v = some vs ↔ IsArray v vs := by
  constructor
  · intro h
    cases v with
    | list items =>
      obtain rfl := Option.some.inj h
      exact .list items
    | tuple items =>
      obtain rfl := Option.some.inj h
      exact .tuple items
    | tags entries =>
      obtain rfl := Option.some.inj h
      exact .tags entries
    | _ => cases h
  · rintro (_ | _ | _) <;> rfl

lemma IsArray.unique {vs vs' : List Value} (h : IsArray v vs) (h' : IsArray v vs') : vs = vs' :=
  Option.some.inj ((arrayItems?_eq_some_iff.2 h).symm.trans (arrayItems?_eq_some_iff.2 h'))

lemma array_iff {f : List Value → Bool} :
    (match arrayItems? v with | none => false | some vs => f vs) = true ↔
      ∃ vs, IsArray v vs ∧ f vs = true := by
  constructor
  · intro h
    cases hitems : arrayItems? v with
    | none =>
      rw [hitems] at h
      cases h
    | some vs =>
      rw [hitems] at h
      exact ⟨vs, arrayItems?_eq_some_iff.1 hitems, h⟩
  · rintro ⟨vs, h, hf⟩
    rw [arrayItems?_eq_some_iff.2 h]
    exact hf

lemma isNumeric_iff : isNumeric v = true ↔ HasType w find v .number := by
  constructor
  · intro h
    cases v with
    | int n => exact .wholeNumber n
    | float x mark => exact .floatNumber x mark
    | placement p => exact .placementNumber p
    | str s =>
      obtain ⟨n, hn⟩ := Option.isSome_iff_exists.1 h
      exact .numeral (Numeral.read?_eq_some_iff.1 hn)
    | _ => cases h
  · intro h
    cases h with
    | wholeNumber | floatNumber | placementNumber => rfl
    | numeral h => exact Option.isSome_iff_exists.2 ⟨_, Numeral.read?_eq_some_iff.2 h⟩

lemma isInteger_iff : isInteger v = true ↔ HasType w find v .integer := by
  constructor
  · intro h
    cases v with
    | int n => exact .integer n
    | placement p => exact .placement p
    | _ => cases h
  · rintro (_ | _) <;> rfl

lemma isMember_iff {values : List Value} :
    isMember w v values = true ↔ HasType w find v (.enum values) := by
  constructor
  · intro h
    obtain ⟨a, ha, hsame⟩ := List.any_eq_true.1 h
    obtain ⟨hclass, hequal⟩ := Bool.and_eq_true_iff.1 hsame
    exact .enum ha (beq_iff_eq.1 hclass) hequal
  · intro h
    cases h with
    | enum ha hclass hequal =>
      exact List.any_eq_true.2 ⟨_, ha, Bool.and_eq_true_iff.2 ⟨beq_iff_eq.2 hclass, hequal⟩⟩

lemma isInstance_iff {type : TypeId} :
    ((find type).any fun found => w.isInstance found v) = true ↔ HasType w find v (.ref type) := by
  rw [Option.any_eq_true]
  constructor
  · rintro ⟨found, hfind, h⟩
    exact .ref hfind (List.contains_iff_mem.1 h)
  · intro h
    cases h with
    | ref hfind h => exact ⟨_, hfind, List.contains_iff_mem.2 h⟩

mutual

/-- The values that conform to a type are those that belong to it. -/
lemma conforms_iff (v : Value) (t : TypeExpr) :
    conforms w find v t = true ↔ HasType w find v t := by
  match t with
  | .mixed => exact ⟨fun _ => .mixed v, fun _ => rfl⟩
  | .string =>
    constructor
    · intro h
      cases v with
      | str s => exact .string s
      | _ => cases h
    · rintro ⟨⟩
      rfl
  | .number => exact isNumeric_iff
  | .integer => exact isInteger_iff
  | .float =>
    constructor
    · intro h
      cases v with
      | float x mark => exact .float x mark
      | _ => cases h
    · rintro ⟨⟩
      rfl
  | .boolean =>
    constructor
    · intro h
      cases v with
      | bool b => exact .boolean b
      | _ => cases h
    · rintro ⟨⟩
      rfl
  | .enum values => exact isMember_iff
  | .ref type => exact isInstance_iff
  | .tuple [] =>
    refine array_iff.trans ⟨?_, ?_⟩
    · rintro ⟨vs, h, -⟩
      exact .anyArray h
    · intro h
      cases h with
      | anyArray h => exact ⟨_, h, rfl⟩
      | tuple h hne _ => exact absurd rfl hne
  | .tuple (t :: ts) =>
    refine array_iff.trans ⟨?_, ?_⟩
    · rintro ⟨vs, h, hconf⟩
      obtain ⟨hlen, heach⟩ := Bool.and_eq_true_iff.1 hconf
      exact .tuple h (List.cons_ne_nil t ts) ((conformsEach_iff (beq_iff_eq.1 hlen)).1 heach)
    · intro h
      cases h with
      | tuple h _ hitems =>
        have hlen := hitems.length_eq
        have heach := (conformsEach_iff hlen).2 hitems
        exact ⟨_, h, Bool.and_eq_true_iff.2 ⟨beq_iff_eq.2 hlen, heach⟩⟩
  | .list item =>
    refine array_iff.trans ⟨?_, ?_⟩
    · rintro ⟨vs, h, hconf⟩
      exact .list h fun x hx => (conforms_iff x item).1 (List.all_eq_true.1 hconf x hx)
    · intro h
      cases h with
      | list h hitems =>
        exact ⟨_, h, List.all_eq_true.2 fun x hx => (conforms_iff x item).2 (hitems x hx)⟩
  | .foreign kind =>
    constructor
    · intro h
      cases h
    · intro h
      cases h

lemma conformsEach_iff {vs : List Value} {ts : List TypeExpr} (hlen : vs.length = ts.length) :
    conformsEach w find vs ts = true ↔ List.Forall₂ (HasType w find) vs ts := by
  match vs, ts with
  | [], [] => exact ⟨fun _ => .nil, fun _ => rfl⟩
  | v :: vs, t :: ts =>
    rw [conformsEach, Bool.and_eq_true, List.forall₂_cons, conforms_iff v t,
      conformsEach_iff (Nat.succ.inj hlen)]

end

end Conformity

/-! ## Places in a value -/

/-- The value is an array whose elements have to belong to these types, one each. -/
inductive Elements : Value → TypeExpr → List Value → List TypeExpr → Prop
  | tuple {v : Value} {vs : List Value} {ts : List TypeExpr} (h : IsArray v vs) (hne : ts ≠ [])
      (hlen : vs.length = ts.length) : Elements v (.tuple ts) vs ts
  | list {v : Value} {vs : List Value} {t : TypeExpr} (h : IsArray v vs) :
      Elements v (.list t) vs (List.replicate vs.length t)

/-- At the end of the path, in a value that should belong to a type, stands a value that should
belong to another type. -/
inductive At : Value → TypeExpr → List Nat → Value → TypeExpr → Prop
  | here (v : Value) (t : TypeExpr) : At v t [] v t
  | inside {v x y : Value} {t u s : TypeExpr} {vs : List Value} {ts : List TypeExpr} {i : Nat}
      {path : List Nat} (h : Elements v t vs ts) (hx : vs[i]? = some x) (hu : ts[i]? = some u)
      (hat : At x u path y s) : At v t (i :: path) y s

/-- The value is not what the type asks for, whatever its elements are.  What the type asks for is
reported, or the error of finding it out. -/
inductive Misses (w : World) (find : TypeId → Option TypeId) (v : Value) :
    TypeExpr → Except Error Expectation → Prop
  | string (h : ¬ HasType w find v .string) : Misses w find v .string (.ok .string)
  | number (h : ¬ HasType w find v .number) : Misses w find v .number (.ok .number)
  | integer (h : ¬ HasType w find v .integer) : Misses w find v .integer (.ok .integer)
  | float (h : ¬ HasType w find v .float) : Misses w find v .float (.ok .float)
  | boolean (h : ¬ HasType w find v .boolean) : Misses w find v .boolean (.ok .boolean)
  | enum {values : List Value} (h : ¬ HasType w find v (.enum values)) :
      Misses w find v (.enum values) ((Value.displayAll w values).map .oneOf)
  | ref {type found : TypeId} (hfind : find type = some found)
      (h : ¬ HasType w find v (.ref type)) : Misses w find v (.ref type) (.ok (.instanceOf type))
  | unresolved {type : TypeId} (hfind : find type = none) :
      Misses w find v (.ref type) (.error (.unresolved type))
  | tuple {ts : List TypeExpr} (h : ∀ vs, ¬ IsArray v vs) : Misses w find v (.tuple ts) (.ok .array)
  | size {vs : List Value} {ts : List TypeExpr} (h : IsArray v vs) (hne : ts ≠ [])
      (hlen : vs.length ≠ ts.length) : Misses w find v (.tuple ts) (.ok (.arrayOfSize ts.length))
  | list {t : TypeExpr} (h : ∀ vs, ¬ IsArray v vs) : Misses w find v (.list t) (.ok .array)
  | foreign (kind : String) : Misses w find v (.foreign kind) (.error (.misuse .type))

/-- The paths of the places where a value misses its type. -/
def Faults (w : World) (find : TypeId → Option TypeId) (v : Value) (t : TypeExpr) :
    Set (List Nat) :=
  {path | ∃ x u outcome, At v t path x u ∧ Misses w find x u outcome}

/-- What the check fails with, for a value with this name. -/
def errorOf (name : String) : Except Error Expectation → Error
  | .ok expectation => .mismatch name expectation
  | .error e => e

/-- The error is about the least fault of the value, with the name that its path gives it. -/
def Reported (w : World) (find : TypeId → Option TypeId) (name : String) (v : Value) (t : TypeExpr)
    (e : Error) : Prop :=
  ∃ path x u outcome, IsLeast (Faults w find v t) path ∧ At v t path x u ∧
    Misses w find x u outcome ∧ e = errorOf (path.foldl itemName name) outcome

section Places

variable {w : World} {find : TypeId → Option TypeId} {v : Value} {t : TypeExpr}
  {vs : List Value} {ts : List TypeExpr}

lemma forall₂_replicate_iff {R : Value → TypeExpr → Prop} :
    List.Forall₂ R vs (List.replicate vs.length t) ↔ ∀ x ∈ vs, R x t := by
  induction vs with
  | nil => simp
  | cons x vs ih => simp [List.replicate_succ, ih]

lemma parts_subset_of_mem {u : TypeExpr} (hu : u ∈ ts) : u.parts ⊆ partsOfAll ts := by
  induction ts with
  | nil => cases hu
  | cons s ts ih =>
    cases hu with
    | head => exact List.subset_append_left _ _
    | tail _ hu => exact List.Subset.trans (ih hu) (List.subset_append_right _ _)

namespace Elements

lemma isArray (h : Elements v t vs ts) : IsArray v vs := by
  cases h with
  | tuple h _ _ => exact h
  | list h => exact h

lemma unique {vs' : List Value} {ts' : List TypeExpr} (h : Elements v t vs ts)
    (h' : Elements v t vs' ts') : vs = vs' ∧ ts = ts' := by
  obtain rfl := h.isArray.unique h'.isArray
  cases h with
  | tuple => cases h' with | tuple => exact ⟨rfl, rfl⟩
  | list => cases h' with | list => exact ⟨rfl, rfl⟩

/-- An array belongs to a type if its elements belong to theirs. -/
lemma hasType_iff (h : Elements v t vs ts) :
    HasType w find v t ↔ List.Forall₂ (HasType w find) vs ts := by
  cases h with
  | tuple h hne _ =>
    constructor
    · intro htype
      cases htype with
      | anyArray _ => exact absurd rfl hne
      | tuple h' _ hitems => rwa [h.unique h']
    · exact .tuple h hne
  | list h =>
    rw [forall₂_replicate_iff]
    constructor
    · intro htype
      cases htype with
      | list h' hitems => rwa [h.unique h']
    · exact .list h

lemma not_misses {outcome : Except Error Expectation} (h : Elements v t vs ts) :
    ¬ Misses w find v t outcome := by
  intro hmiss
  cases h with
  | tuple h _ hlen =>
    cases hmiss with
    | tuple hnone => exact hnone _ h
    | size h' _ hne => exact hne (h.unique h' ▸ hlen)
  | list h => cases hmiss with | list hnone => exact hnone _ h

/-- The types of the elements are parts of the type. -/
lemma parts_subset {u : TypeExpr} (h : Elements v t vs ts) (hu : u ∈ ts) : u.parts ⊆ t.parts := by
  cases h with
  | tuple => exact List.Subset.trans (parts_subset_of_mem hu) (List.subset_cons_self _ _)
  | list =>
    obtain rfl := List.eq_of_mem_replicate hu
    exact List.subset_cons_self _ _

lemma sizeOf_lt {u : TypeExpr} (h : Elements v t vs ts) (hu : u ∈ ts) : sizeOf u < sizeOf t := by
  cases h with
  | tuple =>
    have := List.sizeOf_lt_of_mem hu
    simp only [tuple.sizeOf_spec]
    omega
  | list =>
    obtain rfl := List.eq_of_mem_replicate hu
    simp only [list.sizeOf_spec]
    omega

end Elements

lemma Misses.not_hasType {outcome : Except Error Expectation} (h : Misses w find v t outcome) :
    ¬ HasType w find v t := by
  intro htype
  cases h with
  | string h | number h | integer h | float h | boolean h | enum h | ref _ h => exact h htype
  | unresolved hfind =>
    cases htype with
    | ref hfound _ => rw [hfind] at hfound; cases hfound
  | tuple h =>
    cases htype with
    | anyArray h' => exact h _ h'
    | tuple h' _ _ => exact h _ h'
  | size h hne hlen =>
    cases htype with
    | anyArray _ => exact hne rfl
    | tuple h' _ hitems => exact hlen (h.unique h' ▸ hitems.length_eq)
  | list h => cases htype with | list h' _ => exact h _ h'
  | foreign => cases htype

/-- Inside a value that belongs to its type, all values belong to what is asked for there. -/
lemma At.hasType {path : List Nat} {x : Value} {u : TypeExpr} (h : At v t path x u)
    (htype : HasType w find v t) : HasType w find x u := by
  induction h with
  | here => exact htype
  | inside h hx hu _ ih =>
    refine ih ?_
    obtain ⟨hi, rfl⟩ := List.getElem?_eq_some_iff.1 hx
    obtain ⟨hi', rfl⟩ := List.getElem?_eq_some_iff.1 hu
    exact (h.hasType_iff.1 htype).get hi hi'

lemma At.mem_parts {path : List Nat} {x : Value} {u : TypeExpr} (h : At v t path x u) :
    u ∈ t.parts := by
  induction h with
  | here v t => cases t <;> simp [parts]
  | inside h _ hu _ ih => exact h.parts_subset (List.mem_of_getElem? hu) ih

/-! ## The least fault -/

/-- What the value itself misses comes before anything inside it. -/
lemma Reported.here {name : String} {outcome : Except Error Expectation}
    (h : Misses w find v t outcome) : Reported w find name v t (errorOf name outcome) := by
  refine ⟨[], v, t, outcome, ⟨⟨v, t, outcome, .here v t, h⟩, fun path _ => ?_⟩, .here v t, h, rfl⟩
  exact not_lt.1 (List.not_lt_nil path)

/-- The least fault of an array is in the first of its elements that does not belong. -/
lemma Reported.inside {name : String} {x : Value} {u : TypeExpr} {i : Nat} {e : Error}
    (h : Elements v t vs ts) (hx : vs[i]? = some x) (hu : ts[i]? = some u)
    (hbefore : ∀ j < i, ∀ y s, vs[j]? = some y → ts[j]? = some s → HasType w find y s)
    (he : Reported w find (itemName name i) x u e) : Reported w find name v t e := by
  obtain ⟨path, y, s, outcome, ⟨-, hleast⟩, hat, hmiss, rfl⟩ := he
  have hplace : At v t (i :: path) y s := .inside h hx hu hat
  refine ⟨i :: path, y, s, outcome, ⟨⟨y, s, outcome, hplace, hmiss⟩, ?_⟩, hplace, hmiss, rfl⟩
  rintro other ⟨z, r, outcome', hother, hmiss'⟩
  cases hother with
  | here => exact absurd hmiss' h.not_misses
  | @inside _ x' _ _ u' _ vs' ts' j path' h' hx' hu' hat' =>
    obtain ⟨rfl, rfl⟩ := h.unique h'
    rcases Nat.lt_trichotomy j i with hlt | rfl | hgt
    · exact absurd (hat'.hasType (hbefore j hlt x' u' hx' hu')) hmiss'.not_hasType
    · obtain rfl := Option.some.inj (hx.symm.trans hx')
      obtain rfl := Option.some.inj (hu.symm.trans hu')
      exact List.cons_le_cons _ (hleast ⟨z, r, outcome', hat', hmiss'⟩)
    · exact le_of_lt (List.Lex.rel hgt)

end Places

/-! ## Runs of the check -/

section Runs

variable {w : World} {find : TypeId → Option TypeId} {n : Names} {name : String}

/-- Elements of one type are checked as elements of as many equal types. -/
lemma checkAll_eq_checkEach (t : TypeExpr) (i : Nat) (vs : List Value) :
    checkAll (fun name v => check w (some (Names.load w)) name v t) name i vs =
      (checkEach w (some (Names.load w)) name i vs (List.replicate vs.length t) :
        Run Names Unit) := by
  induction vs generalizing i with
  | nil => rfl
  | cons v vs ih => rw [checkAll, List.length_cons, List.replicate_succ, checkEach, ih]

lemma Elements.check_eq {v : Value} {t : TypeExpr} {vs : List Value} {ts : List TypeExpr}
    (h : Elements v t vs ts) :
    (check w (some (Names.load w)) name v t : Run Names Unit) =
      checkEach w (some (Names.load w)) name 0 vs ts := by
  cases h with
  | tuple h hne hlen =>
    rw [check, arrayItems?_eq_some_iff.2 h]
    simp [hne, hlen]
  | list h =>
    rw [check, arrayItems?_eq_some_iff.2 h]
    exact checkAll_eq_checkEach _ 0 vs

/-- A failing check of elements fails at one of them, and all elements before it belong to their
types. -/
lemma checkEach_error {i : Nat} {vs : List Value} {ts : List TypeExpr} {e : Error}
    (hn : n.loaded? w = find)
    (he : (checkEach w (some (Names.load w)) name i vs ts n).1 = .error e) :
    ∃ j x u, ∃ n' : Names, vs[j]? = some x ∧ ts[j]? = some u ∧
      (∀ k < j, ∀ y s, vs[k]? = some y → ts[k]? = some s → HasType w find y s) ∧
      n'.loaded? w = find ∧
      (check w (some (Names.load w)) (itemName name (i + j)) x u n').1 = .error e := by
  induction ts generalizing i vs n with
  | nil =>
    rw [checkEach] at he
    cases he
  | cons t ts ih =>
    cases vs with
    | nil => cases he
    | cons v vs =>
      rw [checkEach] at he
      obtain ⟨hpass, hn'⟩ := check_decides (itemName name i) v t n hn
      rcases hrun : check w (some (Names.load w)) (itemName name i) v t n with ⟨e' | u, n'⟩
      · rw [Run.bind_error hrun] at he
        refine ⟨0, v, t, n, rfl, rfl, fun k hk => absurd hk (Nat.not_lt_zero k), hn, ?_⟩
        rw [Nat.add_zero, hrun]
        exact he
      · rw [hrun] at hpass hn'
        rw [Run.bind_ok hrun] at he
        obtain ⟨j, x, u, n'', hx, hu, hbefore, hn'', herror⟩ := ih hn' he
        refine ⟨j + 1, x, u, n'', hx, hu, ?_, hn'', ?_⟩
        · intro k hk y s hy hs
          cases k with
          | zero =>
            obtain rfl := Option.some.inj hy
            obtain rfl := Option.some.inj hs
            exact (conforms_iff _ _).1 (hpass.1 rfl)
          | succ k => exact hbefore k (Nat.lt_of_succ_lt_succ hk) y s hy hs
        · rwa [show i + (j + 1) = i + 1 + j by omega]

lemma demand_error {holds : Bool} {expectation : Expectation} {e : Error}
    (he : ((demand name holds expectation : Run Names Unit) n).1 = .error e) :
    e = errorOf name (.ok expectation) := by
  cases holds with
  | true => cases he
  | false => exact (Except.error.inj he).symm

lemma check_enum_error {v : Value} {values : List Value} {e : Error}
    (he : (check w (some (Names.load w)) name v (.enum values) n).1 = .error e) :
    e = errorOf name ((Value.displayAll w values).map .oneOf) := by
  rw [check] at he
  split at he
  · cases he
  · rw [Run.bind_apply, Run.liftExcept_apply] at he
    cases htexts : Value.displayAll w values with
    | error e' =>
      rw [htexts] at he
      exact (Except.error.inj he).symm
    | ok texts =>
      rw [htexts] at he
      exact (Except.error.inj he).symm

lemma check_ref_error {v : Value} {type : TypeId} {e : Error} (hn : n.loaded? w = find)
    (hmiss : ¬ HasType w find v (.ref type))
    (he : (check w (some (Names.load w)) name v (.ref type) n).1 = .error e) :
    ∃ outcome, Misses w find v (.ref type) outcome ∧ e = errorOf name outcome := by
  obtain ⟨n', -, hload⟩ := Names.load_apply w n type
  rw [hn] at hload
  rw [check] at he
  cases hfind : find type with
  | none =>
    rw [hfind] at hload
    rw [Run.bind_error hload] at he
    exact ⟨_, .unresolved hfind, (Except.error.inj he).symm⟩
  | some found =>
    rw [hfind] at hload
    rw [Run.bind_ok hload] at he
    exact ⟨_, .ref hfind hmiss, demand_error he⟩

/-- Where a value has no elements to look at, a failing check reports what the value misses. -/
lemma check_error_of_no_elements {v : Value} {t : TypeExpr} {e : Error}
    (hn : n.loaded? w = find) (hnone : ∀ vs ts, ¬ Elements v t vs ts)
    (he : (check w (some (Names.load w)) name v t n).1 = .error e) :
    ∃ outcome, Misses w find v t outcome ∧ e = errorOf name outcome := by
  have hmiss : ¬ HasType w find v t := by
    intro htype
    rw [(check_decides name v t n hn).1.2 ((conforms_iff v t).2 htype)] at he
    cases he
  cases t with
  | mixed => exact absurd (.mixed v) hmiss
  | string => exact ⟨_, .string hmiss, demand_error he⟩
  | number => exact ⟨_, .number hmiss, demand_error he⟩
  | integer => exact ⟨_, .integer hmiss, demand_error he⟩
  | float => exact ⟨_, .float hmiss, demand_error he⟩
  | boolean => exact ⟨_, .boolean hmiss, demand_error he⟩
  | enum values => exact ⟨_, .enum hmiss, check_enum_error he⟩
  | ref type => exact check_ref_error hn hmiss he
  | tuple ts =>
    rw [check] at he
    cases hitems : arrayItems? v with
    | none =>
      rw [hitems] at he
      refine ⟨_, .tuple fun vs h => ?_, (Except.error.inj he).symm⟩
      rw [arrayItems?_eq_some_iff.2 h] at hitems
      cases hitems
    | some vs =>
      have harray := arrayItems?_eq_some_iff.1 hitems
      have hne : ts ≠ [] := by
        rintro rfl
        exact hmiss (.anyArray harray)
      have hlen : vs.length ≠ ts.length := fun hlen => hnone vs ts (.tuple harray hne hlen)
      rw [hitems] at he
      simp only [List.isEmpty_iff, if_neg hne, if_pos hlen] at he
      exact ⟨_, .size harray hne hlen, (Except.error.inj he).symm⟩
  | list t =>
    have hno : ∀ vs, ¬ IsArray v vs := fun vs h => hnone _ _ (.list h)
    rw [check] at he
    cases hitems : arrayItems? v with
    | none =>
      rw [hitems] at he
      exact ⟨_, .list hno, (Except.error.inj he).symm⟩
    | some vs => exact absurd (arrayItems?_eq_some_iff.1 hitems) (hno vs)
  | foreign kind => exact ⟨_, .foreign kind, (Except.error.inj he).symm⟩

/-- A failing check reports the least fault: of the elements, the first that does not belong is
checked last. -/
lemma reported_of_check_error {n : Names} {name : String} {v : Value} {t : TypeExpr} {e : Error}
    (hn : n.loaded? w = find)
    (he : (check w (some (Names.load w)) name v t n).1 = .error e) :
    Reported w find name v t e := by
  by_cases helements : ∃ vs ts, Elements v t vs ts
  · obtain ⟨vs, ts, h⟩ := helements
    rw [h.check_eq] at he
    obtain ⟨i, x, u, n', hx, hu, hbefore, hn', herror⟩ := checkEach_error hn he
    have := h.sizeOf_lt (List.mem_of_getElem? hu)
    rw [Nat.zero_add] at herror
    exact .inside h hx hu hbefore (reported_of_check_error hn' herror)
  · have hnone : ∀ vs ts, ¬ Elements v t vs ts := fun vs ts h => helements ⟨vs, ts, h⟩
    obtain ⟨outcome, hmiss, rfl⟩ := check_error_of_no_elements hn hnone he
    exact .here hmiss
termination_by sizeOf t

/-- Where the classes can be loaded and the enumerations can be shown, what is missed is
reported as such. -/
lemma Misses.expectation {v : Value} {t : TypeExpr} {outcome : Except Error Expectation}
    (h : Misses w find v t outcome) (hload : ∀ type, t = .ref type → (find type).isSome = true)
    (hshown : ∀ values, t = .enum values → (Value.displayAll w values).isOk = true)
    (hknown : ∀ kind, t ≠ .foreign kind) : ∃ expectation, outcome = .ok expectation := by
  cases h with
  | enum h =>
    cases htexts : Value.displayAll w _ with
    | error e =>
      have := hshown _ rfl
      rw [htexts] at this
      cases this
    | ok texts => exact ⟨_, rfl⟩
  | unresolved hfind =>
    have := hload _ rfl
    rw [hfind] at this
    cases this
  | foreign kind => exact absurd rfl (hknown kind)
  | _ => exact ⟨_, rfl⟩

mutual

/-- No class is loaded for a type without references to classes. -/
lemma check_without_loader (load : Option (TypeId → Run Names TypeId)) (name : String) (v : Value)
    (t : TypeExpr) (h : ∀ type, .ref type ∉ t.parts) :
    check w load name v t = check w none name v t := by
  match t with
  | .mixed | .string | .number | .integer | .float | .boolean | .enum _ | .foreign _ => rfl
  | .ref type => exact absurd (by simp [parts]) (h type)
  | .tuple items =>
    have hitems : ∀ type, .ref type ∉ partsOfAll items := fun type htype =>
      h type (List.mem_cons_of_mem _ htype)
    rw [check, check]
    cases arrayItems? v with
    | none => rfl
    | some vs => simp only [checkEach_without_loader load name 0 vs items hitems]
  | .list item =>
    have hitem : ∀ type, .ref type ∉ item.parts := fun type htype =>
      h type (List.mem_cons_of_mem _ htype)
    rw [check, check]
    cases arrayItems? v with
    | none => rfl
    | some vs =>
      have heq := funext fun name => funext fun v => check_without_loader load name v item hitem
      simp only [heq]

lemma checkEach_without_loader (load : Option (TypeId → Run Names TypeId)) (name : String) (i : Nat)
    (vs : List Value) (ts : List TypeExpr) (h : ∀ type, .ref type ∉ partsOfAll ts) :
    checkEach w load name i vs ts = checkEach w none name i vs ts := by
  match ts with
  | [] => rfl
  | t :: ts =>
    match vs with
    | [] => rfl
    | v :: vs =>
      have hfirst : ∀ type, .ref type ∉ t.parts := fun type htype =>
        h type (List.mem_append_left _ htype)
      have hrest : ∀ type, .ref type ∉ partsOfAll ts := fun type htype =>
        h type (List.mem_append_right _ htype)
      rw [checkEach, checkEach, check_without_loader load _ v t hfirst,
        checkEach_without_loader load name (i + 1) vs ts hrest]

end

end Runs

/-- The check decides whether a value belongs to a type.  If it does not, the check fails with an
error about the least fault, that is the first in a search from left to right that goes into each
element before the next: the error has the name of the attribute with the positions that lead to
the fault, and is what the value there misses. -/
theorem check_reports_least_fault (w : World) (n : Names) (name : String) (v : Value)
    (t : TypeExpr) :
    let find := n.loaded? w
    let result := (check w (some (Names.load w)) name v t n).1
    (result = .ok () ↔ HasType w find v t) ∧
      (¬ HasType w find v t → ∃ path x u outcome,
        IsLeast (Faults w find v t) path ∧ At v t path x u ∧ Misses w find x u outcome ∧
          result = .error (errorOf (path.foldl itemName name) outcome) ∧
          (Loads find t.parts → Reportable w t.parts → ∃ expectation, outcome = .ok expectation)) ∧
      ((∀ type, .ref type ∉ t.parts) →
        ((check w none name v t : Run Names Unit) n).1 = result) := by
  intro find result
  have hiff : result = .ok () ↔ HasType w find v t :=
    (check_decides name v t n rfl).1.trans (conforms_iff v t)
  refine ⟨hiff, fun hmiss => ?_, fun hrefs => ?_⟩
  · cases hresult : result with
    | ok u => exact absurd (hiff.1 hresult) hmiss
    | error e =>
      obtain ⟨path, x, u, outcome, hleast, hat, hmisses, rfl⟩ := reported_of_check_error rfl hresult
      refine ⟨path, x, u, outcome, hleast, hat, hmisses, rfl, fun hload hreport => ?_⟩
      have hpart := hat.mem_parts
      refine hmisses.expectation ?_ ?_ ?_
      · rintro type rfl
        exact hload type hpart
      · rintro values rfl
        exact hreport.shown values hpart
      · rintro kind rfl
        exact hreport.known kind hpart
  · rw [← check_without_loader (some (Names.load w)) name v t hrefs]

/-- The second of the inner arrays has two faults, and the first of them is reported. -/
example :
    ((check ⟨[], []⟩ none "a" (.list [.list [.int 1], .tuple [.str "x", .null]])
      (.list (.list .integer)) : Run Names Unit) {}).1 = .error (.mismatch "a[1][0]" .integer) :=
  rfl

end DocTags.TypeExpr
