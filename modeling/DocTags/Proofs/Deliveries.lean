import DocTags.Proofs.WellFormed

/-!
# How attributes reach an object

An object is made by deeds: its constructor is called, and then values are handed to it one after
the other.  `Build.deeds` are those that checked attributes lead to, and making an object is doing
them in order, up to the first that fails (`construct_eq_foldlM`).  `buildRecorded` builds an
annotation and keeps a record of the deeds; forgetting the record gives back the build
(`buildWith_eq_recorded`), so the record tells what a build does to an object, also when it fails.

The constructor takes attributes out of the way of the accessors while it is given its arguments.
`takeArgs_fst` and `takeArgs_snd` say what comes of that: a parameter is supplied where it is listed
first, and everything that is no parameter is left, in its order.

The main result is `attributes_delivered_once`.
-/

namespace DocTags

namespace Build

/-! ## Deeds -/

/-- What is done to an object while it is built. -/
inductive Deed where
  /-- Its constructor is called. -/
  | create (args : List Value)
  /-- The value of an attribute is handed over, through its accessor if it has one. -/
  | hand (name : String) (how : Option Accessor) (v : Value)

/-- The fields of an object after a deed. -/
def Deed.perform (w : World) (found : TypeId) (fields : Keyed Value) :
    Deed → Except Error (Keyed Value)
  | create args => w.construct found args
  | hand _ (some (.field name)) v => w.assign found fields name v
  | hand _ (some (.call target)) v => w.call found fields target v
  | hand _ (some .nowhere) _ => .error (.misuse .type)
  | hand _ none _ => .error (.misuse .key)

/-- Handing over an attribute. -/
def handing (s : Schema) (entry : String × Value) : Deed :=
  .hand entry.1 (s.accessors.get? entry.1) entry.2.native

/-- The deeds that make an object of checked attributes. -/
def deeds (s : Schema) (attributes : Keyed Value) : List Deed :=
  .create (takeArgs s (s.constructor.getD []) attributes).1 ::
    (takeArgs s (s.constructor.getD []) attributes).2.map (handing s)

section Making

variable {w : World} {found : TypeId} {s : Schema}

lemma apply_eq_perform (fields : Keyed Value) (entry : String × Value) :
    apply w found s fields entry.1 entry.2 = (handing s entry).perform w found fields := by
  unfold apply handing
  rcases s.accessors.get? entry.1 with _ | ⟨⟨name⟩ | ⟨target⟩ | _⟩ <;> rfl

lemma applyAll_eq_foldlM (fields left : Keyed Value) :
    applyAll w found s fields left =
      (left.map (handing s)).foldlM (Deed.perform w found) fields := by
  induction left generalizing fields with
  | nil => rfl
  | cons entry left ih =>
    rw [applyAll, List.map_cons, List.foldlM_cons, apply_eq_perform]
    exact bind_congr fun fields => ih fields

/-- An object is made by its deeds. -/
lemma construct_eq_foldlM (attributes : Keyed Value) :
    construct w found s attributes = (deeds s attributes).foldlM (Deed.perform w found) [] := by
  rw [deeds, List.foldlM_cons]
  exact bind_congr fun fields => applyAll_eq_foldlM fields _

end Making

/-! ## What the constructor takes -/

/-- What the constructor gets for a parameter that was not supplied. -/
def fallback (s : Schema) (name : String) : Value :=
  ((s.attributes.get? name).bind AttributeSpec.default).getD .null

/-- What the constructor gets for a parameter, given those that are listed before it. -/
def argument (s : Schema) (attributes : Keyed Value) (before : List String) (name : String) :
    Value :=
  if name ∈ before then fallback s name
  else ((attributes.get? name).map Value.native).getD (fallback s name)

section Taking

variable {s : Schema}

lemma takeArgs_of_some {attributes : Keyed Value} {name : String} {v : Value}
    (h : attributes.get? name = some v) (names : List String) :
    takeArgs s (name :: names) attributes =
      (v.native :: (takeArgs s names (attributes.erase name)).1,
        (takeArgs s names (attributes.erase name)).2) := by
  rw [takeArgs, h]

lemma takeArgs_of_none {attributes : Keyed Value} {name : String}
    (h : attributes.get? name = none) (names : List String) :
    takeArgs s (name :: names) attributes =
      (fallback s name :: (takeArgs s names attributes).1, (takeArgs s names attributes).2) := by
  rw [takeArgs, h]
  rfl

lemma length_takeArgs_fst (names : List String) (attributes : Keyed Value) :
    (takeArgs s names attributes).1.length = names.length := by
  induction names generalizing attributes with
  | nil => rfl
  | cons name names ih =>
    cases hget : attributes.get? name with
    | none => rw [takeArgs_of_none hget, List.length_cons, List.length_cons, ih]
    | some v => rw [takeArgs_of_some hget, List.length_cons, List.length_cons, ih]

/-- Taking a parameter away is listing it before the others. -/
lemma argument_without {attributes without : Keyed Value} {first : String}
    (hfirst : without.get? first = none)
    (hother : ∀ name, name ≠ first → without.get? name = attributes.get? name)
    (before : List String) (name : String) :
    argument s without before name = argument s attributes (first :: before) name := by
  unfold argument
  by_cases hbefore : name ∈ before
  · rw [if_pos hbefore, if_pos (List.mem_cons_of_mem _ hbefore)]
  · by_cases hname : name = first
    · rw [if_neg hbefore, hname, if_pos List.mem_cons_self, hfirst]
      rfl
    · rw [if_neg hbefore, if_neg (by simp [hname, hbefore]), hother name hname]

/-- Each parameter gets its argument. -/
lemma takeArgs_fst {before after : List String} {name : String} (attributes : Keyed Value) :
    (takeArgs s (before ++ name :: after) attributes).1[before.length]? =
      some (argument s attributes before name) := by
  induction before generalizing attributes with
  | nil =>
    rw [List.nil_append, argument, if_neg List.not_mem_nil]
    cases hget : attributes.get? name with
    | none =>
      rw [takeArgs_of_none hget]
      rfl
    | some v =>
      rw [takeArgs_of_some hget]
      rfl
  | cons first before ih =>
    rw [List.cons_append, List.length_cons]
    cases hget : attributes.get? first with
    | none =>
      rw [takeArgs_of_none hget, List.getElem?_cons_succ, ih]
      exact congrArg some (argument_without hget (fun _ _ => rfl) before name)
    | some v =>
      rw [takeArgs_of_some hget, List.getElem?_cons_succ, ih]
      exact congrArg some (argument_without (Keyed.get?_erase_self attributes first)
        (fun _ hname => Keyed.get?_erase_of_ne attributes hname) before name)

/-- What is no parameter is left for the accessors. -/
lemma takeArgs_snd (names : List String) (attributes : Keyed Value) :
    (takeArgs s names attributes).2 = attributes.filter fun entry => entry.1 ∉ names := by
  induction names generalizing attributes with
  | nil => simp [takeArgs]
  | cons name names ih =>
    cases hget : attributes.get? name with
    | some v =>
      rw [takeArgs_of_some hget, ih, Keyed.erase, List.filter_filter]
      refine List.filter_congr fun entry _ => ?_
      by_cases hname : entry.1 = name <;> simp [hname]
    | none =>
      rw [takeArgs_of_none hget, ih]
      refine List.filter_congr fun entry hentry => ?_
      have hne : entry.1 ≠ name := by
        rintro rfl
        have hhas : attributes.has entry.1 = true := List.any_eq_true.2 ⟨entry, hentry, by simp⟩
        rw [Keyed.has_eq_isSome_get?, hget] at hhas
        cases hhas
      simp [hne]

end Taking

end Build

/-! ## Accessors -/

/-- The accessor of an attribute for objects of a class: its setter, which the class has, if one is
declared, and else the field of its name.  A name that is no text names no field. -/
inductive Accessor.Serves (w : World) (found : TypeId) (name : String) (spec : AttributeSpec) :
    Accessor → Prop
  | setter {method : String} {target : Value} (hsetter : spec.setter.truthy = true)
      (hmethod : spec.setter = .str method)
      (htarget : w.classAttribute? found method = some target) :
      Serves w found name spec (.call target)
  | field (hsetter : spec.setter.truthy = false) (hlabel : spec.label = none) :
      Serves w found name spec (.field name)
  | nowhere (hsetter : spec.setter.truthy = false) (hlabel : spec.label ≠ none) :
      Serves w found name spec .nowhere

namespace Schema

variable {w : World} {found type : TypeId} {s : Schema}

lemma serves_of_accessorOf {name : String} {spec : AttributeSpec} {a : Accessor}
    (h : accessorOf w found type name spec = .ok a) : a.Serves w found name spec := by
  unfold accessorOf at h
  cases hsetter : spec.setter.truthy with
  | false =>
    simp only [hsetter, Bool.not_false, if_true] at h
    obtain rfl := Except.ok.inj h
    cases hlabel : spec.label with
    | none => exact .field hsetter hlabel
    | some v => exact .nowhere hsetter (by simp [hlabel])
  | true =>
    simp only [hsetter, Bool.not_true, Bool.false_eq_true, if_false] at h
    split at h
    · next method hmethod =>
      split at h
      · next target htarget =>
        obtain rfl := Except.ok.inj h
        exact .setter hsetter hmethod (Option.filter_eq_some_iff.1 htarget).1
      · cases h
    · cases h

lemma get?_of_mapM_accessorOf {attributes : Keyed AttributeSpec} {accessors : Keyed Accessor}
    (h : (attributes.mapM fun (name, spec) => do
      return (name, ← accessorOf w found type name spec)) = .ok accessors)
    {name : String} {spec : AttributeSpec} (hspec : attributes.get? name = some spec) :
    ∃ a, accessors.get? name = some a ∧ a.Serves w found name spec := by
  obtain ⟨a, hget, hstep⟩ := exists_get?_of_mapM (fun _ _ => fst_of_accessor) h hspec
  obtain ⟨a', ha, hstep⟩ := ok_of_bind hstep
  obtain rfl := congrArg Prod.snd (Except.ok.inj hstep)
  exact ⟨_, hget, serves_of_accessorOf ha⟩

/-- In a finished schema each attribute has its own accessor. -/
lemma Finished.serves (h : s.Finished w found type) {name : String} {spec : AttributeSpec}
    (hspec : s.attributes.get? name = some spec) :
    ∃ a, s.accessors.get? name = some a ∧ a.Serves w found name spec := by
  have hcompiled := h.compiled
  unfold compile at hcompiled
  obtain ⟨accessors, htable, hs⟩ := ok_of_bind hcompiled
  have haccessors : accessors = s.accessors := congrArg Schema.accessors (Except.ok.inj hs)
  exact haccessors ▸ get?_of_mapM_accessorOf htable hspec

end Schema

namespace Reader

open Names

variable {w : World}

/-! ## Building with a record -/

/-- A computation on a reader, beside a record of deeds. -/
def beside {α : Type} (act : Run Reader α) : Run (Reader × List Build.Deed) α := fun (r, done) =>
  let (result, r) := act r
  (result, r, done)

/-- Does a deed, which is recorded whether or not it fails. -/
def recorded (w : World) (found : TypeId) (fields : Keyed Value) (d : Build.Deed) :
    Run (Reader × List Build.Deed) (Keyed Value) := fun (r, done) =>
  (d.perform w found fields, r, done ++ [d])

/-- Builds an annotation and records what is done to it. -/
def buildRecorded (w : World) (schemaOf : TypeId → Run Reader Schema) (owner : Option TypeId)
    (type : TypeId) (supplied : Value) (placement : Placement) :
    Run (Reader × List Build.Deed) Value := do
  let s ← beside (schemaOf type)
  let attributes ← beside (onNames (Build.checked w type s supplied placement))
  let found ← beside (onNames (Names.load w type))
  let fields ← (Build.deeds s attributes).foldlM (recorded w found) []
  return .object (.built owner) found fields

lemma beside_apply {α : Type} (act : Run Reader α) (r : Reader) (done : List Build.Deed) :
    beside act (r, done) = ((act r).1, (act r).2, done) := rfl

/-- The deeds are done in their order, up to the first that fails. -/
lemma foldlM_recorded (found : TypeId) (deeds : List Build.Deed) (fields : Keyed Value) (r : Reader)
    (done : List Build.Deed) :
    ∃ more, deeds.foldlM (recorded w found) fields (r, done) =
        (deeds.foldlM (Build.Deed.perform w found) fields, r, done ++ more) ∧
      more <+: deeds ∧ (deeds ≠ [] → more ≠ []) ∧
      ∀ fields', deeds.foldlM (Build.Deed.perform w found) fields = .ok fields' → more = deeds := by
  induction deeds generalizing fields done with
  | nil => exact ⟨[], by rw [List.append_nil]; rfl, List.prefix_refl [], nofun, fun _ _ => rfl⟩
  | cons d deeds ih =>
    rw [List.foldlM_cons, List.foldlM_cons]
    cases hd : d.perform w found fields with
    | error e =>
      have hrun : recorded w found fields d (r, done) = (.error e, r, done ++ [d]) := by
        rw [recorded, hd]
      refine ⟨[d], Run.bind_error hrun _, ?_, fun _ => List.cons_ne_nil _ _, nofun⟩
      exact List.prefix_append [d] deeds
    | ok fields₁ =>
      have hrun : recorded w found fields d (r, done) = (.ok fields₁, r, done ++ [d]) := by
        rw [recorded, hd]
      obtain ⟨more, hmore, hprefix, -, hall⟩ := ih fields₁ (done ++ [d])
      rw [Run.bind_ok hrun, hmore, List.append_assoc]
      refine ⟨d :: more, rfl, List.cons_prefix_cons.2 ⟨rfl, hprefix⟩,
        fun _ => List.cons_ne_nil _ _, fun fields' hfields => ?_⟩
      rw [hall fields' hfields]

section Record

variable (owner : Option TypeId) {schemaOf : TypeId → Run Reader Schema} {type : TypeId}
  {supplied : Value} {placement : Placement} {r r₁ r₂ : Reader} {s : Schema}

lemma beside_bind {α β : Type} {act : Run Reader α} {act' : α → Run Reader β}
    {f : α → Run (Reader × List Build.Deed) β} {done : List Build.Deed}
    (h : ∀ a r, act' a r = ((f a (r, done)).1, (f a (r, done)).2.1)) (r : Reader) :
    (act >>= act') r =
      (((beside act >>= f) (r, done)).1, ((beside act >>= f) (r, done)).2.1) := by
  rcases hact : act r with ⟨e | a, r₁⟩
  · rw [Run.bind_error hact, Run.bind_error (t := (r₁, done)) (e := e)]
    rw [beside_apply, hact]
  · rw [Run.bind_ok hact, h, Run.bind_ok (t := (r₁, done)) (a := a)]
    rw [beside_apply, hact]

/-- Without its record, the recorded build is the build. -/
lemma buildWith_eq_recorded (done : List Build.Deed) (r : Reader) :
    buildWith w schemaOf owner type supplied placement r =
      ((buildRecorded w schemaOf owner type supplied placement (r, done)).1,
        (buildRecorded w schemaOf owner type supplied placement (r, done)).2.1) := by
  refine beside_bind (fun s r => ?_) r
  refine beside_bind (fun attributes r => ?_) r
  refine beside_bind (fun found r => ?_) r
  obtain ⟨more, hmore, -⟩ := foldlM_recorded found (Build.deeds s attributes) [] r done
  rw [Build.construct_eq_foldlM]
  cases hfields : (Build.deeds s attributes).foldlM (Build.Deed.perform w found) [] with
  | error e =>
    rw [hfields] at hmore
    rw [Run.bind_error hmore, Run.bind_error (Run.liftExcept_apply _ r)]
  | ok fields =>
    rw [hfields] at hmore
    rw [Run.bind_ok hmore, Run.bind_ok (Run.liftExcept_apply _ r)]
    rfl

/-- Nothing is done to an object before all checks have passed. -/
lemma buildRecorded_of_refused {e : Error} (hschema : schemaOf type r = (.ok s, r₁))
    (hchecked : onNames (Build.checked w type s supplied placement) r₁ = (.error e, r₂))
    (done : List Build.Deed) :
    buildRecorded w schemaOf owner type supplied placement (r, done) = (.error e, r₂, done) := by
  have hs : beside (schemaOf type) (r, done) = (.ok s, r₁, done) := by rw [beside_apply, hschema]
  have he : beside (onNames (Build.checked w type s supplied placement)) (r₁, done) =
      (.error e, r₂, done) := by rw [beside_apply, hchecked]
  rw [buildRecorded, Run.bind_ok hs, Run.bind_error he]

/-- When all checks have passed, the deeds are done. -/
lemma buildRecorded_of_checked {attributes : Keyed Value} {found : TypeId} {r₃ : Reader}
    (hschema : schemaOf type r = (.ok s, r₁))
    (hchecked : onNames (Build.checked w type s supplied placement) r₁ = (.ok attributes, r₂))
    (hload : onNames (Names.load w type) r₂ = (.ok found, r₃)) (done : List Build.Deed) :
    ∃ result more,
      buildRecorded w schemaOf owner type supplied placement (r, done) =
        (result, r₃, done ++ more) ∧
      more <+: Build.deeds s attributes ∧ more ≠ [] ∧
      ∀ v, result = .ok v → more = Build.deeds s attributes := by
  have hs : beside (schemaOf type) (r, done) = (.ok s, r₁, done) := by rw [beside_apply, hschema]
  have ha : beside (onNames (Build.checked w type s supplied placement)) (r₁, done) =
      (.ok attributes, r₂, done) := by rw [beside_apply, hchecked]
  have hf : beside (onNames (Names.load w type)) (r₂, done) = (.ok found, r₃, done) := by
    rw [beside_apply, hload]
  obtain ⟨more, hmore, hprefix, hne, hall⟩ :=
    foldlM_recorded (w := w) found (Build.deeds s attributes) [] r₃ done
  rw [buildRecorded, Run.bind_ok hs, Run.bind_ok ha, Run.bind_ok hf]
  cases hfields : (Build.deeds s attributes).foldlM (Build.Deed.perform w found) [] with
  | error e =>
    rw [hfields] at hmore
    exact ⟨.error e, more, Run.bind_error hmore _, hprefix, hne (List.cons_ne_nil _ _), nofun⟩
  | ok fields =>
    rw [hfields] at hmore
    refine ⟨.ok (.object (.built owner) found fields), more, ?_, hprefix,
      hne (List.cons_ne_nil _ _), fun _ _ => hall fields hfields⟩
    rw [Run.bind_ok hmore]
    rfl

end Record

/-! ## The main result -/

/-- Resolved schemas are finished for classes that their ids can stand for, and the ids are
known. -/
lemma warrant_finished : Warrant w fun n type s =>
    n.known.has type = true ∧ ∃ found, StandsFor w type found ∧ s.Finished w found type where
  lasts hknown h := ⟨hknown _ h.1, h.2⟩
  given hres hfaithful := by
    obtain ⟨found, hget, hfinished⟩ := finished_of_resolveBy hres
    refine ⟨?_, found, hfaithful _ found hget, hfinished⟩
    rw [Keyed.has_eq_isSome_get?, hget, Option.isSome_some]

lemma load_of_known {type : TypeId} {n : Names} (h : n.known.has type = true) :
    ∃ found, load w type n = (.ok found, n) := by
  rw [Keyed.has_eq_isSome_get?] at h
  obtain ⟨found, hfound⟩ := Option.isSome_iff_exists.1 h
  exact ⟨found, by rw [load_eq, hfound]⟩

/-- When all checks have passed, the build goes on with a class that the id can stand for, and the
deeds are done. -/
lemma build_of_checked {imports : Keyed TypeId} {reads : Bool} {acts : List Act} {type : TypeId}
    {supplied : Value} {placement : Placement} {s : Schema} {attributes : Keyed Value}
    {r r₁ r₂ : Reader} (hr : r = life w acts (start imports reads))
    (hschema : resolveSchema w type r = (.ok s, r₁))
    (hchecked : onNames (Build.checked w type s supplied placement) r₁ = (.ok attributes, r₂)) :
    ∃ found result done, StandsFor w type found ∧ (load w type r₂.names).1 = .ok found ∧
      Reader.build w type supplied placement r = (result, r₂) ∧
      buildRecorded w (resolveWithin w (depth w r) false) none type supplied placement (r, []) =
        (result, r₂, done) ∧
      done <+: Build.deeds s attributes ∧ done ≠ [] ∧
      ∀ v, result = .ok v → done = Build.deeds s attributes := by
  have hstart := warranted_life (w := w) warrant_finished acts (warranted_start imports reads)
  rw [← hr] at hstart
  rw [resolveSchema, Run.bind_ok (Run.get_apply r)] at hschema
  obtain ⟨hwarranted, hs⟩ :=
    warranted_resolveWithin warrant_finished (depth w r) false type r hstart
  rw [hschema] at hwarranted hs
  -- The class was loaded when the schema was resolved, and names are never forgotten.
  have hlater : Extends (.everywhere w) r₁.names r₂.names := by
    have hchecks : Uniform (.everywhere w) True (Build.checked w type s supplied placement) :=
      Build.uniform_checked type s supplied placement
    have hextends := hchecks.later r₁.names
    rwa [onNames_eq_ok hchecked] at hextends
  obtain ⟨found, hload⟩ := load_of_known (w := w) (hlater.known type (hs s rfl rfl).1)
  have hfaithful : Faithful w r₂.names := fun other found hget =>
    (hlater.learnt other found hget).elim (hwarranted.known other found) id
  have hfound : onNames (load w type) r₂ = (.ok found, r₂) := by rw [onNames, hload]
  obtain ⟨result, done, hrun, hdone⟩ := buildRecorded_of_checked none hschema hchecked hfound []
  have hbuild := build_eq (w := w) type supplied placement r
  rw [buildWith_eq_recorded none [], hrun] at hbuild
  rw [List.nil_append] at hrun
  have hload' : (load w type r₂.names).1 = .ok found := congrArg Prod.fst hload
  exact ⟨found, result, done, standsFor_of_load hfaithful hload', hload', hbuild, hrun, hdone⟩

end Reader

namespace Build

/-- The attributes are delivered by a call of the constructor with the arguments, and by handing
over the rest. -/
structure Delivers (w : World) (cls : TypeId) (s : Schema) (attributes : Keyed Value)
    (args : List Value) (rest : List Deed) : Prop where
  /-- There is an argument for each parameter. -/
  arity : args.length = (s.constructor.getD []).length
  /-- A supplied parameter gets its value where it is listed first. -/
  supplied : ∀ before name after v, s.constructor.getD [] = before ++ name :: after →
    name ∉ before → attributes.get? name = some v → args[before.length]? = some v.native
  /-- In all other places parameters get their default, or null if they have none. -/
  unsupplied : ∀ before name after, s.constructor.getD [] = before ++ name :: after →
    name ∈ before ∨ attributes.get? name = none → args[before.length]? = some (fallback s name)
  /-- The attributes that are no parameters are handed over in their order, each through its own
  accessor. -/
  others : List.Forall₂ (fun entry d => ∃ spec a, s.attributes.get? entry.1 = some spec ∧
      a.Serves w cls entry.1 spec ∧ d = .hand entry.1 (some a) entry.2.native)
    (attributes.filter fun entry => entry.1 ∉ s.constructor.getD []) rest

lemma delivers_deeds {w : World} {cls type : TypeId} {s : Schema} {attributes : Keyed Value}
    (hs : s.Finished w cls type)
    (hdeclared : ∀ entry ∈ attributes, s.attributes.has entry.1 = true) :
    ∃ args rest, deeds s attributes = .create args :: rest ∧
      Delivers w cls s attributes args rest := by
  refine ⟨_, _, rfl, length_takeArgs_fst _ _, ?_, ?_, ?_⟩
  · intro before name after v hparams hbefore hget
    rw [hparams, takeArgs_fst, argument, if_neg hbefore, hget]
    rfl
  · intro before name after hparams hunsupplied
    rw [hparams, takeArgs_fst, argument]
    rcases hunsupplied with hbefore | hget
    · rw [if_pos hbefore]
    · rw [hget, Option.map_none, Option.getD_none, ite_self]
  · rw [takeArgs_snd, List.forall₂_map_right_iff, List.forall₂_same]
    intro entry hentry
    have hhas := hdeclared entry (List.mem_filter.1 hentry).1
    rw [Keyed.has_eq_isSome_get?] at hhas
    obtain ⟨spec, hspec⟩ := Option.isSome_iff_exists.1 hhas
    obtain ⟨a, ha, hserves⟩ := hs.serves hspec
    exact ⟨spec, a, hspec, hserves, by rw [handing, ha]⟩

end Build

namespace Reader

open Names

/-- Each attribute that is supplied is delivered exactly once, whatever calls were made before.  The
record of a build whose checks pass begins with one call of the constructor and goes on with what is
handed over, in the order of the normalised arguments; nothing else is done, and nothing of it is
left out unless a deed fails. -/
theorem attributes_delivered_once (w : World) (imports : Keyed TypeId) (reads : Bool)
    (acts : List Act) (type : TypeId) (supplied : Value) (placement : Placement) (s : Schema)
    (attributes : Keyed Value) (r₁ r₂ : Reader) :
    let r := life w acts (start imports reads)
    resolveSchema w type r = (.ok s, r₁) →
    onNames (Build.checked w type s supplied placement) r₁ = (.ok attributes, r₂) →
    ∃ pairs cls args rest result r' done,
      Build.normalize type s supplied = .ok pairs ∧
      List.Forall₂ (fun pair entry => entry.2 = pair.2 ∧
        ∃ spec, Build.specOf w type s pair.1 = .ok (entry.1, spec)) pairs attributes ∧
      StandsFor w type cls ∧ Build.Delivers w cls s attributes args rest ∧
      Reader.build w type supplied placement r = (result, r') ∧
      buildRecorded w (resolveWithin w (depth w r) false) none type supplied placement (r, []) =
        (result, r', done) ∧
      done <+: .create args :: rest ∧ done ≠ [] ∧
      ∀ v, result = .ok v → done = .create args :: rest := by
  intro r hschema hchecked
  obtain ⟨-, cls, hcls, hfinished⟩ := warrant_finished.of_resolveSchema hschema
  obtain ⟨-, pairs, hpairs, hall⟩ := Build.checked_ok (onNames_eq_ok hchecked)
  obtain ⟨args, rest, hdeeds, hdelivers⟩ :=
    Build.delivers_deeds hfinished (Build.has_of_checked (onNames_eq_ok hchecked))
  obtain ⟨-, result, done, -, -, hbuild, hrun, hdone⟩ := build_of_checked rfl hschema hchecked
  rw [hdeeds] at hdone
  refine ⟨pairs, cls, args, rest, result, r₂, done, hpairs, ?_, hcls, hdelivers, hbuild, hrun,
    hdone⟩
  exact hall.imp fun pair entry hmatch => ⟨hmatch.1, hmatch.2.imp fun spec hspec => hspec.1⟩

/-- A class whose constructor takes three values, with a method that takes one more. -/
def parcelClass : World where
  modules := [("app", [("A", .cls "app.A")])]
  classes :=
    [("app.A",
      { id := "app.A", home := "app"
        members := [("put", .routine { name := "put", home := "app", effect := .write "z" .store })]
        constructor :=
          some { params := [{ name := "first" }, { name := "second" }, { name := "third" }] } })]

/-- A schema for it: the constructor gets one attribute twice and another one by default. -/
def parcelSchema : Schema where
  constructor := some ["x", "x", "y"]
  attributes :=
    [("x", { name := "x" }), ("y", { name := "y", default := some (.int 7) }),
      ("z", { name := "z", setter := .str "put" }), ("u", { name := "u" })]

/-- Of the three attributes that are supplied, one goes to the constructor, one to a field and one
to a setter. -/
theorem attributes_delivered_once_parcel :
    let r := life parcelClass [.setup (.register (.id "app.A") (.schema parcelSchema))]
      (start [] true)
    let supplied := Value.tags [(some "u", .int 3), (some "x", .int 1), (some "z", .int 2)]
    ∃ s r₁ attributes r₂ args rest v done,
      resolveSchema parcelClass "app.A" r = (.ok s, r₁) ∧
      onNames (Build.checked parcelClass "app.A" s supplied .onClass) r₁ = (.ok attributes, r₂) ∧
      (Reader.build parcelClass "app.A" supplied .onClass r).1 = .ok v ∧
      (buildRecorded parcelClass (resolveWithin parcelClass (depth parcelClass r) false) none
        "app.A" supplied .onClass (r, [])).2.2 = done ∧
      done = .create args :: rest ∧ Build.Delivers parcelClass "app.A" s attributes args rest := by
  intro r supplied
  have hok : (Reader.build parcelClass "app.A" supplied .onClass r).1.isOk = true := by
    decide +kernel
  rcases hbuilt : Reader.build parcelClass "app.A" supplied .onClass r with ⟨e | v, r'⟩
  · rw [hbuilt] at hok
    cases hok
  · have hrun := (build_eq "app.A" supplied .onClass r).symm.trans hbuilt
    obtain ⟨s, r₁, hschema, hrun⟩ := Run.bind_eq_ok hrun
    obtain ⟨attributes, r₂, hchecked, -⟩ := Run.bind_eq_ok hrun
    have hresolved : resolveSchema parcelClass "app.A" r = (.ok s, r₁) := by
      rw [resolveSchema, Run.bind_ok (Run.get_apply r), hschema]
    obtain ⟨pairs, cls, args, rest, result, r'', done, -, -, hcls, hdelivers, hbuild, hrecord, -, -,
      hall⟩ := attributes_delivered_once parcelClass [] true _ "app.A" supplied .onClass s
        attributes r₁ r₂ hresolved hchecked
    obtain rfl : cls = "app.A" := by
      have hpath : typeAt? parcelClass [] "app.A" = some "app.A" := by decide +kernel
      rcases hcls with hcls | hcls
      · exact hcls
      · exact Option.some.inj (hcls.symm.trans hpath)
    obtain ⟨rfl, rfl⟩ := Prod.mk.inj (hbuilt.symm.trans hbuild)
    exact ⟨s, r₁, attributes, r₂, args, rest, v, done, hresolved, hchecked, rfl,
      congrArg (fun run => run.2.2) hrecord, hall v rfl, hdelivers⟩

end Reader
end DocTags
