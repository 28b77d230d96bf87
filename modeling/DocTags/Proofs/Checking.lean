import DocTags.Proofs.Keyed
import DocTags.Proofs.Lineage
import DocTags.Proofs.Run
import DocTags.Reader.Build

/-!
# Conformity

Checking a value loads classes on its way, so it is a run that changes what is known about names.
What it decides does not depend on how far it got before: `Names.loaded?` is the class that loading
a type id gives, and loading one id never changes it for another.  `TypeExpr.conforms` is the
decision as a function of the value, the type and the classes that can be loaded, and
`check_decides` says that the check passes exactly on the values that conform.

The decision goes by the form of a value.  In an ordinary world this is the same as asking whether
the value belongs to a class (`conforms_iff_isInstance`).
-/

namespace DocTags

/-! ## The classes behind type ids -/

namespace Names

variable (w : World)

/-- The class that loading a type id gives, if it can be loaded. -/
def loaded? (n : Names) (type : TypeId) : Option TypeId :=
  match n.known.get? type with
  | some found => some found
  | none => (w.import? type).bind typeOf?

lemma loaded?_put {n : Names} {type found : TypeId} (h : n.loaded? w type = some found) :
    ({ n with known := n.known.put type found } : Names).loaded? w = n.loaded? w := by
  funext other
  by_cases ho : other = type
  · subst ho
    rw [h]
    simp only [loaded?, Keyed.get?_put_self]
  · simp only [loaded?, Keyed.get?_put_of_ne _ ho]

/-- Loading gives the class behind the id, and changes no other. -/
lemma load_apply (n : Names) (type : TypeId) :
    ∃ n' : Names, n'.loaded? w = n.loaded? w ∧
      load w type n =
        ((n.loaded? w type).elim (.error (.unresolved type)) Except.ok, n') := by
  unfold load
  rw [Run.bind_ok (Run.get_apply n)]
  cases hk : n.known.get? type with
  | some found => exact ⟨n, rfl, by simp [loaded?, hk]⟩
  | none =>
    cases hi : (w.import? type).bind typeOf? with
    | some found =>
      have hfound : n.loaded? w type = some found := by simp only [loaded?, hk, hi]
      refine ⟨_, loaded?_put w hfound, ?_⟩
      rw [hfound]
      rfl
    | none => exact ⟨n, rfl, by simp [loaded?, hk, hi]⟩

end Names

/-! ## Values that conform -/

namespace TypeExpr

variable (w : World) (find : TypeId → Option TypeId)

mutual

/-- `true` on the values of a type; `find` gives the classes behind type ids. -/
def conforms (v : Value) : TypeExpr → Bool
  | .mixed => true
  | .string => match v with | .str _ => true | _ => false
  | .number => isNumeric v
  | .integer => isInteger v
  | .float => match v with | .float _ _ => true | _ => false
  | .boolean => match v with | .bool _ => true | _ => false
  | .enum values => isMember w v values
  | .ref type => (find type).any fun found => w.isInstance found v
  | .tuple items =>
    match arrayItems? v with
    | none => false
    | some vs => items.isEmpty || vs.length == items.length && conformsEach vs items
  | .list item =>
    match arrayItems? v with
    | none => false
    | some vs => vs.all fun v => conforms v item
  | .foreign _ => false

/-- `true` when the values conform to one type each. -/
def conformsEach (vs : List Value) : List TypeExpr → Bool
  | [] => true
  | t :: ts =>
    match vs with
    | [] => true
    | v :: vs => conforms v t && conformsEach vs ts

end

/-- A run decides a question if it passes exactly when the answer is yes, and loads no class other
than `find` has it. -/
def Decides (act : Run Names Unit) (answer : Bool) : Prop :=
  ∀ n : Names, n.loaded? w = find →
    ((act n).1 = .ok () ↔ answer = true) ∧ (act n).2.loaded? w = find

variable {w find}

lemma Decides.pass : Decides w find (pure ()) true :=
  fun _ hn => ⟨by simp, hn⟩

lemma Decides.refuse (e : Error) : Decides w find (throw e) false :=
  fun _ hn => ⟨by simp, hn⟩

lemma Decides.demand (name : String) (holds : Bool) (e : Expectation) :
    Decides w find (TypeExpr.demand name holds e) holds := by
  cases holds with
  | true => exact .pass
  | false => exact .refuse _

/-- Questions that are put one after the other. -/
lemma Decides.and {x y : Run Names Unit} {a b : Bool} (hx : Decides w find x a)
    (hy : Decides w find y b) : Decides w find (x >>= fun _ => y) (a && b) := by
  intro n hn
  obtain ⟨hpass, hstate⟩ := hx n hn
  rcases hres : x n with ⟨e | u, n'⟩
  · rw [hres] at hpass hstate
    rw [Run.bind_error hres]
    have ha : ¬ a = true := fun ha => by simpa using hpass.2 ha
    exact ⟨by simp [ha], hstate⟩
  · rw [hres] at hpass hstate
    rw [Run.bind_ok hres]
    have ha : a = true := hpass.1 rfl
    rw [ha, Bool.true_and]
    exact hy n' hstate

lemma decides_checkAll {check : String → Value → Run Names Unit} {answer : Value → Bool}
    (h : ∀ name v, Decides w find (check name v) (answer v)) (name : String) (i : Nat)
    (vs : List Value) : Decides w find (checkAll check name i vs) (vs.all answer) := by
  induction vs generalizing i with
  | nil => exact .pass
  | cons v vs ih => exact (h _ v).and (ih (i + 1))

lemma decides_enum (name : String) (v : Value) (values : List Value) :
    Decides w find (check w (some (Names.load w)) name v (.enum values)) (isMember w v values) := by
  intro n hn
  rw [check]
  cases hm : isMember w v values with
  | true => exact ⟨by simp, by simpa using hn⟩
  | false =>
    simp only [Bool.false_eq_true, if_false, iff_false]
    rw [Run.bind_apply, Run.liftExcept_apply]
    cases Value.displayAll w values with
    | error e => exact ⟨by simp, hn⟩
    | ok text => exact ⟨by simp, hn⟩

lemma decides_ref (name : String) (v : Value) (type : TypeId) :
    Decides w find (check w (some (Names.load w)) name v (.ref type))
      ((find type).any fun found => w.isInstance found v) := by
  intro n hn
  obtain ⟨n', hn', hload⟩ := Names.load_apply w n type
  rw [hn] at hn' hload
  rw [check]
  cases hf : find type with
  | none =>
    rw [hf] at hload
    rw [Run.bind_error hload]
    exact ⟨by simp, hn'⟩
  | some found =>
    rw [hf] at hload
    rw [Run.bind_ok hload]
    exact Decides.demand _ _ _ n' hn'

mutual

/-- The check of a value decides whether it conforms. -/
theorem check_decides (name : String) (v : Value) (t : TypeExpr) :
    Decides w find (check w (some (Names.load w)) name v t) (conforms w find v t) := by
  match t with
  | .mixed => rw [check, conforms]; exact .pass
  | .string | .number | .integer | .float | .boolean => exact .demand _ _ _
  | .enum values => rw [conforms]; exact decides_enum name v values
  | .ref type => rw [conforms]; exact decides_ref name v type
  | .tuple items =>
    rw [check, conforms]
    cases arrayItems? v with
    | none => exact .refuse _
    | some vs =>
      cases hitems : items.isEmpty with
      | true => simpa using Decides.pass
      | false =>
        by_cases hlen : vs.length = items.length
        · simpa [hlen] using checkEach_decides name 0 vs items
        · simpa [hlen, beq_eq_false_iff_ne.2 hlen] using Decides.refuse _
  | .list item =>
    rw [check, conforms]
    cases arrayItems? v with
    | none => exact .refuse _
    | some vs => exact decides_checkAll (fun name v => check_decides name v item) name 0 vs
  | .foreign _ => rw [check, conforms]; exact .refuse _

theorem checkEach_decides (name : String) (i : Nat) (vs : List Value) (ts : List TypeExpr) :
    Decides w find (checkEach w (some (Names.load w)) name i vs ts)
      (conformsEach w find vs ts) := by
  match ts with
  | [] => rw [checkEach, conformsEach]; exact .pass
  | t :: ts =>
    match vs with
    | [] => exact .pass
    | v :: vs =>
      rw [checkEach, conformsEach]
      exact (check_decides _ v t).and (checkEach_decides name (i + 1) vs ts)

end

/-! ## Conformity and classes -/

/-- In an ordinary world the check asks for nothing but the class of a value, as long as no object
is a text, a number or an array by its class alone. -/
lemma conforms_iff_isInstance {w : World} (hw : w.isOrdinary = true)
    (find : TypeId → Option TypeId) {v : Value}
    (hv : ∀ origin type fields, v = .object origin type fields → type ∉ World.kindTypes) :
    conforms w find v .string = w.isInstance (builtin "str") v ∧
    conforms w find v .float = w.isInstance (builtin "float") v ∧
    conforms w find v .boolean = w.isInstance (builtin "bool") v ∧
    (arrayItems? v).isSome = (w.isInstance (builtin "list") v ||
      w.isInstance (builtin "tuple") v || w.isInstance tagListType v) := by
  have hclass : ∀ kind, kind ∈ World.kindTypes ∧ kind ≠ builtin "int" →
      w.isInstance kind v = (v.typeOf == kind) :=
    fun kind hkind => World.isInstance_eq hw hkind.1 hkind.2 v
  rw [hclass (builtin "str") (by decide), hclass (builtin "float") (by decide),
    hclass (builtin "bool") (by decide), hclass (builtin "list") (by decide),
    hclass (builtin "tuple") (by decide), hclass tagListType (by decide)]
  -- A value of none of the forms asked for has a class that is none of those asked for.
  have hnone : ∀ {id : TypeId}, id ∉ World.kindTypes →
      (id == builtin "str") = false ∧ (id == builtin "float") = false ∧
      (id == builtin "bool") = false ∧ (id == builtin "list") = false ∧
      (id == builtin "tuple") = false ∧ (id == tagListType) = false := by
    intro id hid
    simp only [World.kindTypes, List.mem_cons, not_or] at hid
    simp [hid]
  cases v with
  | object origin type fields =>
    simp [conforms, arrayItems?, Value.typeOf, hnone (hv origin type fields rfl)]
  | moment m => simp [conforms, arrayItems?, hnone m.typeOf_not_mem_kindTypes]
  | routine r => simp [conforms, arrayItems?, Value.typeOf, hnone r.classOf_not_mem_kindTypes]
  | typeExpr t => simp [conforms, arrayItems?, Value.typeOf, hnone t.classOf_not_mem_kindTypes]
  | _ =>
    simp [conforms, arrayItems?, Value.typeOf, builtin, tagListType, placementType, missingType,
      classType]

end TypeExpr
end DocTags
