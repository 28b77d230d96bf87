import DocTags.Proofs.Causes.Values
import DocTags.Proofs.Conversion

/-!
# The causes of failure of a run

Runs on names, checks, declarations and the steps of building an annotation fail in an ordinary way
only, with two exceptions.  Arguments are refused when several of them have no name
(`error_of_checked`).  The last step of building hands values to an object by the accessors of a
schema: it is ordinary if there is an accessor for each value (`ordinary_construct`), and otherwise
it may fail for want of one (`error_of_construct`).
-/

namespace DocTags

/-! ## Runs -/

namespace Run

variable {σ α β : Type}

/-- A run that can fail in an ordinary way only. -/
def IsOrdinary (x : Run σ α) : Prop :=
  ∀ s, Ordinary (x s).1

namespace IsOrdinary

lemma pure (a : α) : (pure a : Run σ α).IsOrdinary :=
  fun _ => .ok a

lemma throw {e : Error} (h : e.isOrdinary = true) : (throw e : Run σ α).IsOrdinary :=
  fun _ => .error h

lemma liftExcept {x : Except Error α} (h : Ordinary x) :
    (liftExcept x : Run σ α).IsOrdinary := by
  intro s
  rw [Run.liftExcept_apply]
  exact h

lemma bind {x : Run σ α} {f : α → Run σ β} (hx : x.IsOrdinary) (hf : ∀ a, (f a).IsOrdinary) :
    (x >>= f).IsOrdinary := by
  intro s
  cases hres : (x s).1 with
  | error e =>
    rw [bind_of_fst_error hres]
    exact .error (hx s e hres)
  | ok a =>
    rw [bind_of_fst_ok hres]
    exact hf a _

lemma tryCatch {x : Run σ α} {f : Error → Run σ α} (hx : x.IsOrdinary)
    (hf : ∀ e, e.isOrdinary = true → (f e).IsOrdinary) : (tryCatch x f : Run σ α).IsOrdinary := by
  intro s
  have hs := hx s
  rw [tryCatch_apply]
  rcases hres : x s with ⟨e | a, t⟩
  · rw [hres] at hs
    exact hf e (hs e rfl) t
  · exact .ok a

lemma mapM {f : α → Run σ β} (hf : ∀ a, (f a).IsOrdinary) (as : List α) :
    (as.mapM f).IsOrdinary := by
  induction as with
  | nil => exact .pure []
  | cons a as ih =>
    rw [List.mapM_cons]
    exact (hf a).bind fun _ => ih.bind fun _ => .pure _

lemma onNames {act : Run Names α} (h : act.IsOrdinary) : (Reader.onNames act).IsOrdinary :=
  fun r => h r.names

end IsOrdinary

end Run

open Run (IsOrdinary)

namespace Names

variable (w : World)

lemma ordinary_resolve (scope : Scope) (name : String) : (resolve w scope name).IsOrdinary := by
  intro n
  rw [resolve_apply]
  split
  · exact .ok _
  · split
    · exact .ok _
    · split
      · exact .ok _
      · exact .error rfl

lemma ordinary_load (type : TypeId) : (load w type).IsOrdinary := by
  intro n
  rw [load_eq]
  split
  · exact .ok _
  · split
    · exact .ok _
    · exact .error rfl

lemma ordinary_owner? (scope : Scope) (name : String) : (owner? w scope name).IsOrdinary := by
  refine .tryCatch ?_ fun e he => ?_
  · exact (ordinary_resolve w scope name).bind fun type => (ordinary_load w type).bind fun _ =>
      .pure _
  · split
    · exact .pure _
    · exact .throw he

lemma ordinary_constant? (scope : Scope) (name : String) :
    (constant? w scope name).IsOrdinary := by
  unfold constant?
  split
  · refine (ordinary_owner? w scope _).bind fun owner => ?_
    split
    · exact .pure _
    · exact .pure _
  · split
    · exact .pure _
    · exact .pure _
    · exact .pure _

end Names

/-! ## Checks and declarations -/

namespace TypeExpr

variable (w : World)

lemma ordinary_demand (name : String) (holds : Bool) (e : Expectation) :
    (demand name holds e : Run Names Unit).IsOrdinary := by
  unfold demand
  split
  · exact .pure _
  · exact .throw rfl

lemma ordinary_checkAll {check : String → Value → Run Names Unit}
    (h : ∀ name v, (check name v).IsOrdinary) (name : String) (i : Nat) (vs : List Value) :
    (checkAll check name i vs).IsOrdinary := by
  induction vs generalizing i with
  | nil => exact .pure _
  | cons v vs ih => exact (h _ v).bind fun _ => ih (i + 1)

mutual

lemma ordinary_check (name : String) (v : Value) (t : TypeExpr) :
    (check w (some (Names.load w)) name v t).IsOrdinary := by
  match t with
  | .mixed => rw [check]; exact .pure _
  | .string | .number | .integer | .float | .boolean => exact ordinary_demand _ _ _
  | .enum values =>
    rw [check]
    split
    · exact .pure _
    · exact (IsOrdinary.liftExcept (Value.ordinary_displayAll w values)).bind fun _ => .throw rfl
  | .ref type =>
    rw [check]
    exact (Names.ordinary_load w type).bind fun found => ordinary_demand _ _ _
  | .tuple items =>
    rw [check]
    split
    · exact .throw rfl
    · split
      · exact .pure _
      · split
        · exact .throw rfl
        · exact ordinary_checkEach name 0 _ items
  | .list item =>
    rw [check]
    split
    · exact .throw rfl
    · exact ordinary_checkAll (fun name v => ordinary_check name v item) name 0 _
  | .foreign _ => rw [check]; exact .throw rfl

lemma ordinary_checkEach (name : String) (i : Nat) (vs : List Value) (ts : List TypeExpr) :
    (checkEach w (some (Names.load w)) name i vs ts).IsOrdinary := by
  match ts with
  | [] => rw [checkEach]; exact .pure _
  | t :: ts =>
    match vs with
    | [] => exact .pure _
    | v :: vs =>
      rw [checkEach]
      exact (ordinary_check _ v t).bind fun _ => ordinary_checkEach name (i + 1) vs ts

end

lemma ordinary_ofPlacement (p : Placement) : Ordinary (ofPlacement p) := by
  unfold ofPlacement
  split
  · exact .ok _
  · exact .error rfl

lemma ordinary_ofOther (v : Value) : Ordinary (ofOther w v) := by
  unfold ofOther
  split
  · exact (Value.ordinary_elements _).map _
  · split
    · exact .error rfl
    · exact (Value.ordinary_render w v).bind fun _ => .error rfl

variable (scope : Scope)

mutual

lemma ordinary_ofDeclaration (v : Value) :
    (ofDeclaration w (fun name => Reader.onNames (Names.resolve w scope name)) v).IsOrdinary := by
  match v with
  | .typeExpr (.foreign name) =>
    simp only [ofDeclaration]
    exact .liftExcept (ordinary_ofOther w _)
  | .typeExpr .mixed | .typeExpr .string | .typeExpr .number | .typeExpr .integer
  | .typeExpr .float | .typeExpr .boolean | .typeExpr (.enum _) | .typeExpr (.ref _)
  | .typeExpr (.tuple _) | .typeExpr (.list _) | .null | .cls _ =>
    simp only [ofDeclaration]
    exact .pure _
  | .str s =>
    simp only [ofDeclaration]
    split
    · exact .pure _
    · exact (IsOrdinary.onNames (Names.ordinary_resolve w scope s)).bind fun _ => .pure _
  | .list items | .tuple items =>
    simp only [ofDeclaration]
    exact (ordinary_ofDeclarations items).bind fun _ => .pure _
  | .dict pairs =>
    simp only [ofDeclaration]
    exact (ordinary_ofKeys pairs).bind fun _ => .pure _
  | .tags entries =>
    simp only [ofDeclaration]
    exact (ordinary_ofEntries entries).bind fun _ => .pure _
  | .placement p =>
    simp only [ofDeclaration]
    exact .liftExcept (ordinary_ofPlacement p)
  | .bool _ | .int _ | .float _ _ | .moment _ | .object _ _ _ | .routine _ | .property _
  | .moduleNamed _ | .missing =>
    simp only [ofDeclaration]
    exact .liftExcept (ordinary_ofOther w _)

lemma ordinary_ofDeclarations (vs : List Value) :
    (ofDeclarations w (fun name => Reader.onNames (Names.resolve w scope name)) vs).IsOrdinary := by
  match vs with
  | [] => exact .pure _
  | v :: vs =>
    simp only [ofDeclarations]
    exact (ordinary_ofDeclaration v).bind fun _ => (ordinary_ofDeclarations vs).bind fun _ =>
      .pure _

lemma ordinary_ofKeys (pairs : List (Value × Value)) :
    (ofKeys w (fun name => Reader.onNames (Names.resolve w scope name)) pairs).IsOrdinary := by
  match pairs with
  | [] => exact .pure _
  | (key, _) :: pairs =>
    simp only [ofKeys]
    exact (ordinary_ofDeclaration key).bind fun _ => (ordinary_ofKeys pairs).bind fun _ => .pure _

lemma ordinary_ofEntries (entries : List (Option String × Value)) :
    (ofEntries w (fun name => Reader.onNames (Names.resolve w scope name)) entries).IsOrdinary := by
  match entries with
  | [] => exact .pure _
  | (_, v) :: entries =>
    simp only [ofEntries]
    exact (ordinary_ofDeclaration v).bind fun _ => (ordinary_ofEntries entries).bind fun _ =>
      .pure _

end

end TypeExpr

namespace Reader

variable (w : World)

lemma ordinary_specOf (scope : Scope) (v : Value) : (specOf w scope v).IsOrdinary := by
  have hfield : ∀ name, (liftExcept (w.required v name) : Run Reader Value).IsOrdinary :=
    fun name => .liftExcept (ordinary_required w v name)
  unfold specOf
  refine (hfield _).bind fun name => (hfield _).bind fun type =>
    (TypeExpr.ordinary_ofDeclaration w scope type).bind fun t => (hfield _).bind fun required =>
      (hfield _).bind fun nullable => (hfield _).bind fun setter =>
        (hfield _).bind fun default => ?_
  have hrest : (liftExcept (name.display w) : Run Reader String).IsOrdinary :=
    .liftExcept (Value.ordinary_display w name)
  dsimp only
  split
  · exact (IsOrdinary.throw rfl).bind fun _ => hrest.bind fun _ => .pure _
  · exact hrest.bind fun _ => .pure _

lemma ordinary_addTarget (p : Placement) (v : Value) : Ordinary (addTarget w p v) := by
  refine (ordinary_required w v "target").bind fun target => ?_
  split
  · exact .ok _
  · exact .ok _
  · exact .ok _
  · exact .error rfl

lemma ordinary_targetsOf (c : Comment) : Ordinary (targetsOf w c) := by
  refine (Ordinary.foldlM (ordinary_addTarget w) _ _).bind fun annotated => ?_
  split
  · exact .ok _
  · exact .error rfl
  · exact (Placement.ordinary_parse w _).map _

lemma ordinary_defaultOf (c : Comment) : Ordinary (defaultOf c) := by
  unfold defaultOf
  split
  · exact .ok _
  · dsimp only
    split
    · exact .error rfl
    · exact .ok _
  · exact .error rfl

lemma ordinary_declarations (type : TypeId) (c : Comment) :
    (declarations w type c).IsOrdinary := by
  unfold declarations
  exact (IsOrdinary.mapM (ordinary_specOf w _) _).bind fun _ =>
    (IsOrdinary.liftExcept (ordinary_targetsOf w c)).bind fun _ =>
      (IsOrdinary.liftExcept (ordinary_defaultOf c)).bind fun _ => .pure _

end Reader

/-! ## Schemas -/

namespace Schema

variable (w : World)

lemma ordinary_validate (s : Schema) (type : TypeId) : Ordinary (s.validate type) := by
  unfold validate
  split
  · exact .error rfl
  · split
    · exact .ok _
    · split
      · exact .ok _
      · exact .error rfl

lemma ordinary_accessorOf (found type : TypeId) (name : String) (spec : AttributeSpec) :
    Ordinary (accessorOf w found type name spec) := by
  unfold accessorOf
  split
  · exact .ok _
  · split
    · split
      · exact .ok _
      · exact .error rfl
    · exact .error rfl

lemma ordinary_compile (found type : TypeId) (s : Schema) :
    Ordinary (s.compile w found type) := by
  refine (Ordinary.mapM (fun pair => ?_) s.attributes).map _
  exact (ordinary_accessorOf w found type pair.1 pair.2).map _

end Schema

lemma Reader.ordinary_finish (w : World) (type : TypeId) (s : Schema) :
    (finish w type s).IsOrdinary :=
  (IsOrdinary.liftExcept (s.ordinary_validate type)).bind fun _ =>
    (IsOrdinary.onNames (Names.ordinary_load w type)).bind fun found =>
      .liftExcept (s.ordinary_compile w found type)

/-! ## Building -/

namespace Build

variable (w : World)

/-- At most one of the supplied values has no name. -/
def OneUnnamed (supplied : Value) : Prop :=
  ∀ entries, supplied = .tags entries → (TagList.positional entries).length ≤ 1

lemma ordinary_normalize (type : TypeId) (s : Schema) {v : Value} (h : OneUnnamed v) :
    Ordinary (normalize type s v) := by
  unfold normalize
  split
  · next entries =>
    have hone := h entries rfl
    dsimp only
    split
    · exact .ok _
    · split
      · exact .error rfl
      · split
        · exact .error rfl
        · exact .ok _
    · next hnil hsingle =>
      rcases hvalues : TagList.positional entries with _ | ⟨v, _ | ⟨u, rest⟩⟩
      · exact absurd hvalues hnil
      · exact absurd hvalues (hsingle v)
      · rw [hvalues] at hone
        simp at hone
  · exact Value.ordinary_toPairs _

lemma normalize_of_several {type : TypeId} {s : Schema} {v : Value} (h : ¬ OneUnnamed v) :
    normalize type s v = .error (.severalUnnamed type) := by
  unfold OneUnnamed at h
  push Not at h
  obtain ⟨entries, rfl, hseveral⟩ := h
  unfold normalize
  match hvalues : TagList.positional entries with
  | [] | [_] =>
    rw [hvalues] at hseveral
    simp at hseveral
  | _ :: _ :: _ => simp only [hvalues]

lemma ordinary_specOf (type : TypeId) (s : Schema) (name : Value) :
    Ordinary (specOf w type s name) := by
  unfold specOf
  split
  · exact .ok _
  · exact (Value.ordinary_display w name).bind fun _ => .error rfl

lemma ordinary_checkAttributes (type : TypeId) (s : Schema) (pairs : List (Value × Value)) :
    (checkAttributes w type s pairs).IsOrdinary := by
  induction pairs with
  | nil => exact .pure _
  | cons pair pairs ih =>
    obtain ⟨name, v⟩ := pair
    rw [checkAttributes]
    refine (IsOrdinary.liftExcept (ordinary_specOf w type s name)).bind fun found => ?_
    obtain ⟨n, spec⟩ := found
    have hrest : (checkAttributes w type s pairs >>= fun rest =>
        pure ((n, v) :: rest)).IsOrdinary := ih.bind fun _ => .pure _
    dsimp only
    split
    · exact hrest
    · exact (TypeExpr.ordinary_check w n _ spec.type).bind fun _ => hrest

lemma ordinary_checkRequired (s : Schema) (attributes : Keyed Value) :
    Ordinary (checkRequired s attributes) := by
  unfold checkRequired
  dsimp only
  split
  · exact .ok _
  · split
    · exact .error rfl
    · exact .error rfl

lemma ordinary_checked (type : TypeId) (s : Schema) {supplied : Value} (h : OneUnnamed supplied)
    (placement : Placement) : (checked w type s supplied placement).IsOrdinary := by
  have hrest : (do
      let attributes ← checkAttributes w type s (← liftExcept (normalize type s supplied))
      liftExcept (checkRequired s attributes)
      return attributes : Run Names (Keyed Value)).IsOrdinary :=
    (IsOrdinary.liftExcept (ordinary_normalize type s h)).bind fun pairs =>
      (ordinary_checkAttributes w type s pairs).bind fun attributes =>
        (IsOrdinary.liftExcept (ordinary_checkRequired s attributes)).bind fun _ => .pure _
  unfold checked
  split
  · exact (IsOrdinary.throw rfl).bind fun _ => hrest
  · exact hrest

/-- Arguments are refused for what they are, and for several of them that have no name. -/
lemma error_of_checked {type : TypeId} {s : Schema} {supplied : Value} {placement : Placement}
    {n : Names} {e : Error} (h : (checked w type s supplied placement n).1 = .error e) :
    e.isOrdinary = true ∨ e = .severalUnnamed type ∧ ¬ OneUnnamed supplied := by
  by_cases hone : OneUnnamed supplied
  · exact .inl (ordinary_checked w type s hone placement n e h)
  · unfold checked at h
    rw [normalize_of_several hone] at h
    split at h
    · cases h
      exact .inl rfl
    · cases h
      exact .inr ⟨rfl, hone⟩

lemma ordinary_apply {s : Schema} {name : String} (h : s.accessors.has name = true)
    (found : TypeId) (fields : Keyed Value) (v : Value) :
    Ordinary (apply w found s fields name v) := by
  unfold apply
  split
  · exact World.ordinary_assign w found fields _ _
  · exact World.ordinary_call w found fields _ _
  · exact .error rfl
  · next hnone =>
    rw [Keyed.has_eq_isSome_get?, hnone] at h
    cases h

/-- Values reach an object if there is an accessor for each of them. -/
lemma ordinary_applyAll {s : Schema} {attributes : Keyed Value}
    (h : ∀ entry ∈ attributes, s.accessors.has entry.1 = true) (found : TypeId)
    (fields : Keyed Value) : Ordinary (applyAll w found s fields attributes) := by
  induction attributes generalizing fields with
  | nil => exact .ok _
  | cons entry attributes ih =>
    rw [List.forall_mem_cons] at h
    exact (ordinary_apply w h.1 found fields entry.2).bind fun fields => ih h.2 fields

lemma mem_takeArgs {s : Schema} {names : List String} {attributes : Keyed Value}
    {entry : String × Value} (h : entry ∈ (takeArgs s names attributes).2) :
    entry ∈ attributes := by
  induction names generalizing attributes with
  | nil => exact h
  | cons name names ih =>
    rw [takeArgs] at h
    split at h
    · exact (List.mem_filter.1 (ih h)).1
    · exact ih h

lemma ordinary_construct {s : Schema} {attributes : Keyed Value}
    (h : ∀ entry ∈ attributes, s.accessors.has entry.1 = true) (found : TypeId) :
    Ordinary (construct w found s attributes) :=
  (World.ordinary_construct w found _).bind fun fields =>
    ordinary_applyAll w (fun entry hentry => h entry (mem_takeArgs hentry)) found fields

/-- Whatever a schema is, making an object fails in an ordinary way or for want of an accessor. -/
lemma error_of_construct {found : TypeId} {s : Schema} {attributes : Keyed Value} {e : Error}
    (h : construct w found s attributes = .error e) : e.isOrdinary = true ∨ e = .misuse .key := by
  have happlyAll : ∀ left fields, applyAll w found s fields left = .error e →
      e.isOrdinary = true ∨ e = .misuse .key := by
    intro left
    induction left with
    | nil =>
      intro fields hnil
      cases hnil
    | cons entry left ih =>
      intro fields hcons
      rw [applyAll] at hcons
      cases happly : apply w found s fields entry.1 entry.2 with
      | ok fields' =>
        rw [happly] at hcons
        exact ih fields' hcons
      | error e' =>
        rw [happly] at hcons
        obtain rfl := Except.error.inj hcons
        by_cases hhas : s.accessors.has entry.1 = true
        · exact .inl (ordinary_apply w hhas found fields entry.2 e' happly)
        · rw [Keyed.has_eq_isSome_get?, Option.not_isSome_iff_eq_none] at hhas
          rw [apply, hhas] at happly
          exact .inr (Except.error.inj happly).symm
  unfold construct at h
  cases hmake : w.construct found (takeArgs s (s.constructor.getD []) attributes).1 with
  | error e' =>
    have he := World.ordinary_construct w found _ e' hmake
    simp only [hmake] at h
    obtain rfl := Except.error.inj h
    exact .inl he
  | ok fields =>
    simp only [hmake] at h
    exact happlyAll _ _ h

end Build

end DocTags
