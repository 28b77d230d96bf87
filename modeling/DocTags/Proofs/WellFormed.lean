import DocTags.Proofs.Warrants

/-!
# Well-formed schemas

Objects are built from a schema without looking twice: the values for the constructor are taken from
the attributes that it names, and all others are handed over through the accessors.
`Schema.WellFormed` says what this relies on, and `schemas_wellFormed` that every schema has it, in
the cache or handed out, after any calls.

A schema is checked and gets its accessors in one place, `finish`, where every annotation type
passes, registered or not (`finished_of_resolveBy`).  An ordinary class has not passed there: what
it passes on to its subclasses is neither cached nor handed out.

The class in whose members the setters are found is the one that the type id stood for when the
schema was resolved.  An id can come to stand for another class while its schema stays in the cache,
so the invariant (`Tidy`) is about a class that the id can stand for.
-/

namespace DocTags

/-- What can be counted on in the schema of an annotation type whose objects are of the class
`found`. -/
structure Schema.WellFormed (w : World) (found : TypeId) (s : Schema) : Prop where
  /-- The constructor takes attributes only. -/
  params : ∀ name ∈ s.constructor.getD [], s.attributes.has name = true
  /-- Unnamed values are for an attribute. -/
  default : ∀ name, s.defaultAttribute = some name → name ≠ "" → s.attributes.has name = true
  /-- There is an accessor for each attribute, in the same order. -/
  accessors : s.accessors.names = s.attributes.names
  /-- A setter is something callable in the class. -/
  setters : ∀ name spec, (name, spec) ∈ s.attributes → spec.setter.truthy = true →
    ∃ method target, spec.setter = .str method ∧ w.classAttribute? found method = some target ∧
      w.isCallable target = true

namespace Schema

variable {w : World} {found type : TypeId} {s s' : Schema}

lemma validate_ok (h : s.validate type = .ok ()) :
    (∀ name ∈ s.constructor.getD [], s.attributes.has name = true) ∧
      ∀ name, s.defaultAttribute = some name → name ≠ "" → s.attributes.has name = true := by
  unfold validate at h
  split at h
  · cases h
  · next hparams =>
    refine ⟨fun name hname => ?_, fun name hname hne => ?_⟩
    · simpa using List.find?_eq_none.1 hparams name hname
    · rw [hname] at h
      dsimp only at h
      split at h
      · next hdeclared =>
        simpa [hne] using hdeclared
      · cases h

lemma accessorOf_ok {name : String} {spec : AttributeSpec} {a : Accessor}
    (h : accessorOf w found type name spec = .ok a) (hsetter : spec.setter.truthy = true) :
    ∃ method target, spec.setter = .str method ∧ w.classAttribute? found method = some target ∧
      w.isCallable target = true := by
  unfold accessorOf at h
  rw [hsetter] at h
  simp only [Bool.not_true, Bool.false_eq_true, if_false] at h
  split at h
  · next method hmethod =>
    split at h
    · next target htarget =>
      obtain ⟨hfound, hcallable⟩ := Option.filter_eq_some_iff.1 htarget
      exact ⟨method, target, hmethod, hfound, hcallable⟩
    · cases h
  · cases h

lemma fst_of_accessor {entry : String × AttributeSpec} {accessor : String × Accessor}
    (h : (do return (entry.1, ← accessorOf w found type entry.1 entry.2)) = .ok accessor) :
    accessor.1 = entry.1 := by
  obtain ⟨a, -, h⟩ := ok_of_bind h
  rw [← Except.ok.inj h]

/-- The table of accessors has the names of the attributes, each of which has an accessor. -/
lemma mapM_accessorOf_ok {attributes : Keyed AttributeSpec} {accessors : Keyed Accessor}
    (h : (attributes.mapM fun (name, spec) => do
      return (name, ← accessorOf w found type name spec)) = .ok accessors) :
    accessors.names = attributes.names ∧
      ∀ name spec, (name, spec) ∈ attributes → ∃ a, accessorOf w found type name spec = .ok a := by
  refine ⟨map_fst_of_mapM (fun _ _ => fst_of_accessor) h, fun name spec hentry => ?_⟩
  obtain ⟨accessor, -, hstep⟩ := exists_of_mem_forall₂ (mapM_eq_ok_iff.1 h).flip hentry
  obtain ⟨a, ha, -⟩ := ok_of_bind hstep
  exact ⟨a, ha⟩

/-- Only the table of accessors is filled. -/
lemma compile_ok (h : s.compile w found type = .ok s') :
    ∃ accessors, s' = { s with accessors } ∧ accessors.names = s.attributes.names ∧
      ∀ name spec, (name, spec) ∈ s.attributes →
        ∃ a, accessorOf w found type name spec = .ok a := by
  unfold compile at h
  obtain ⟨accessors, htable, h⟩ := ok_of_bind h
  obtain rfl := Except.ok.inj h
  exact ⟨accessors, rfl, mapM_accessorOf_ok htable⟩

/-- A schema that was checked and has its accessors, for objects of the class `found`. -/
structure Finished (w : World) (found type : TypeId) (s : Schema) : Prop where
  valid : s.validate type = .ok ()
  compiled : s.compile w found type = .ok s

/-- The accessors that a schema had before make no difference. -/
lemma finished_of_compile (hvalid : s.validate type = .ok ())
    (h : s.compile w found type = .ok s') : s'.Finished w found type := by
  have hcompile := h
  unfold compile at h
  obtain ⟨accessors, -, h⟩ := ok_of_bind h
  obtain rfl := Except.ok.inj h
  exact ⟨hvalid, hcompile⟩

/-- A schema that was checked and got its accessors is well formed. -/
lemma Finished.wellFormed (h : s.Finished w found type) : s.WellFormed w found := by
  obtain ⟨hparams, hdefault⟩ := validate_ok h.valid
  obtain ⟨accessors, hs, hnames, haccessor⟩ := compile_ok h.compiled
  have htable : s.accessors = accessors := congrArg Schema.accessors hs
  refine ⟨hparams, hdefault, htable ▸ hnames, fun name spec hentry hsetter => ?_⟩
  obtain ⟨a, ha⟩ := haccessor name spec hentry
  exact accessorOf_ok ha hsetter

end Schema

namespace Reader

open Names

variable {w : World}

/-! ## One type -/

lemma known_of_load {type found : TypeId} {n n' : Names} (h : load w type n = (.ok found, n')) :
    n'.known.get? type = some found := by
  rw [load_eq] at h
  split at h
  · next known hknown =>
    cases h
    exact hknown
  · split at h
    · cases h
      exact Keyed.get?_put_self _ _ _
    · cases h

/-- What is finished is finished for the class that the type id then stands for. -/
lemma finished_of_finish {type : TypeId} {s s' : Schema} {r r' : Reader}
    (h : finish w type s r = (.ok s', r')) :
    ∃ found, r'.names.known.get? type = some found ∧ s'.Finished w found type := by
  unfold finish at h
  obtain ⟨u, r₁, hvalid, h⟩ := Run.bind_eq_ok h
  obtain ⟨found, r₂, hload, h⟩ := Run.bind_eq_ok h
  rw [Run.liftExcept_apply] at hvalid h
  obtain ⟨hcompile, rfl⟩ := Prod.mk.inj h
  exact ⟨found, known_of_load (onNames_eq_ok hload),
    Schema.finished_of_compile (Prod.mk.inj hvalid).1 hcompile⟩

/-- An annotation type that was resolved is finished for the class that its id then stands for. -/
lemma finished_of_resolveBy {declared : Keyed Schema} {type : TypeId} {so : Oracle} {s : Schema}
    {r r' : Reader} (h : resolveBy w declared type so r = (.ok (s, true), r')) :
    ∃ found, r'.names.known.get? type = some found ∧ s.Finished w found type := by
  unfold resolveBy at h
  cases hdecl : declared.get? type with
  | some d =>
    rw [hdecl, resolveFresh, resolveDeclared_eq] at h
    obtain ⟨s', r₁, hrun, h⟩ := Run.bind_eq_ok h
    cases h
    cases hparent : extended? d with
    | none =>
      rw [hparent] at hrun
      exact finished_of_finish hrun
    | some parent =>
      rw [hparent] at hrun
      obtain ⟨parentId, r₂, -, hrun⟩ := Run.bind_eq_ok hrun
      obtain ⟨base, r₃, -, hrun⟩ := Run.bind_eq_ok hrun
      exact finished_of_finish hrun
  | none =>
    rw [hdecl, resolveFresh, introspect_eq] at h
    obtain ⟨found, r₁, -, h⟩ := Run.bind_eq_ok h
    unfold introspectAs at h
    obtain ⟨base, r₂, -, h⟩ := Run.bind_eq_ok h
    obtain ⟨d, r₃, -, h⟩ := Run.bind_eq_ok h
    cases d with
    | some d =>
      obtain ⟨s', r₄, hrun, h⟩ := Run.bind_eq_ok h
      cases h
      exact finished_of_finish hrun
    | none => cases h

/-! ## All types -/

/-- In a tidy reader, ids stand for their own classes or for those at their paths, and each schema
in the cache is well formed for such a class. -/
structure Tidy (w : World) (r : Reader) : Prop where
  known : ∀ type found, r.names.known.get? type = some found → StandsFor w type found
  schemas : ∀ type s, r.resolved.get? type = some s →
    ∃ found, StandsFor w type found ∧ s.WellFormed w found

/-- Schemas are well formed for a class that their ids can stand for. -/
lemma warrant_wellFormed : Warrant w fun _ type s =>
    ∃ found, StandsFor w type found ∧ s.WellFormed w found where
  lasts _ h := h
  given hres hknown := by
    obtain ⟨found, hget, hfinished⟩ := finished_of_resolveBy hres
    exact ⟨found, hknown _ found hget, hfinished.wellFormed⟩

lemma tidy_iff_warranted {r : Reader} : Tidy w r ↔ Warranted w (fun _ type s =>
    ∃ found, StandsFor w type found ∧ s.WellFormed w found) r :=
  ⟨fun h => ⟨h.known, h.schemas⟩, fun h => ⟨h.known, h.schemas⟩⟩

lemma Tidy.names {r r' : Reader} (h : Tidy w r) (hr' : NamesOnly (.everywhere w) r r') :
    Tidy w r' :=
  tidy_iff_warranted.2 ((tidy_iff_warranted.1 h).names warrant_wellFormed hr')

/-- Whatever is asked for, a reader stays tidy if it does so when the oracle answers. -/
lemma Tidy.steps {so : Oracle}
    (h : ∀ asAncestor type r, Tidy w r → Tidy w (so asAncestor type r).2) :
    Steps w so fun r r' => Tidy w r → Tidy w r' :=
  ⟨fun _ hr => hr, fun h h₁ hr => h₁ (h hr), fun h hr => hr.names h, h⟩

/-- Resolution keeps a reader tidy, and the schema of an annotation type is well formed. -/
lemma tidy_resolveWithin (n : Nat) (asAncestor : Bool) (type : TypeId) (r : Reader)
    (hr : Tidy w r) :
    Tidy w (resolveWithin w n asAncestor type r).2 ∧
      ∀ s, asAncestor = false → (resolveWithin w n asAncestor type r).1 = .ok s →
        ∃ found, StandsFor w type found ∧ s.WellFormed w found := by
  obtain ⟨hkept, hformed⟩ := warranted_resolveWithin warrant_wellFormed n asAncestor type r
    (tidy_iff_warranted.1 hr)
  exact ⟨tidy_iff_warranted.2 hkept, hformed⟩

/-- The oracles that answer from a tidy reader with schemas that have all their accessors. -/
structure Furnishes (w : World) (so : Oracle) : Prop where
  tidy : ∀ asAncestor type r, Tidy w r → Tidy w (so asAncestor type r).2
  formed : ∀ type r s, Tidy w r → (so false type r).1 = .ok s →
    ∃ found, StandsFor w type found ∧ s.WellFormed w found
  error : ∀ asAncestor type r, Tidy w r → (so asAncestor type r).1 ≠ .error (.misuse .key)

/-- No value is handed to an object without an accessor. -/
lemma Furnishes.not_blames {so : Oracle} (h : Furnishes w so) {type : TypeId} {r r' : Reader}
    (hr : Tidy w r) : ¬ Blames so type r (.misuse .key) r' := by
  rintro (⟨asAncestor, hanswer⟩ | ⟨-, s, r₂, hanswer, hlacks⟩)
  · exact h.error asAncestor type r hr (congrArg Prod.fst hanswer)
  · obtain ⟨found, -, hformed⟩ := h.formed type r s hr (congrArg Prod.fst hanswer)
    exact hlacks hformed.accessors

lemma Inquires.ne_key {so : Oracle} {α : Type} {qs : List Question} {F : Oracle → Run Reader α}
    (hF : Inquires w qs F) (hso : Furnishes w so) {r : Reader} (hr : Tidy w r) :
    (F so r).1 ≠ .error (.misuse .key) := by
  intro herror
  obtain ⟨q, -, type, r₁, ⟨r₀, hr₀, -, hr₁⟩, hblames⟩ :=
    hF.failure (Tidy.steps hso.tidy) (Prod.ext herror rfl) rfl
  exact hso.not_blames (hr₁ (hr₀ hr)) hblames

lemma furnishes_resolveWithin (n : Nat) : Furnishes w (resolveWithin w n) := by
  refine ⟨fun asAncestor type r hr => (tidy_resolveWithin n asAncestor type r hr).1,
    fun type r s hr => (tidy_resolveWithin n false type r hr).2 s rfl, ?_⟩
  induction n using Nat.strongRecOn with
  | _ n ih =>
    intro asAncestor type r hr herror
    rcases resolveWithin_eq_error (Prod.ext herror rfl) rfl with
      ⟨-, hcycle, -⟩ | ⟨-, -, hdeep, -⟩ | ⟨m, r₂, rfl, hs, hrun, -⟩
    · cases hcycle
    · cases hdeep
    · have hfurnishes : Furnishes w (resolveWithin w m) :=
        ⟨fun asAncestor type r hr => (tidy_resolveWithin m asAncestor type r hr).1,
          fun type r s hr => (tidy_resolveWithin m false type r hr).2 s rfl, ih m m.lt_succ_self⟩
      obtain ⟨qs, -, q, -, other, r₁, ⟨r₀, hr₀, -, hr₁⟩, hblames⟩ :=
        failure_resolveBy (Tidy.steps hfurnishes.tidy) hrun rfl
      exact hfurnishes.not_blames (hr₁ (hr₀ ⟨hr.known, hr.schemas⟩)) hblames

/-! ## Lives of readers -/

lemma tidy_life (acts : List Act) (imports : Keyed TypeId) (reads : Bool) :
    Tidy w (life w acts (start imports reads)) :=
  tidy_iff_warranted.2 (warranted_life warrant_wellFormed acts (warranted_start imports reads))

/-- After any calls, some of which may have failed, each schema in the cache and each schema that is
resolved is well formed for a class that its type id can stand for: the class with this id, or the
one at the path that the id spells.  No call fails for want of an attribute's accessor. -/
theorem schemas_wellFormed (w : World) (imports : Keyed TypeId) (reads : Bool) (acts : List Act) :
    let r := life w acts (start imports reads)
    (∀ type s, r.resolved.get? type = some s →
      ∃ found, StandsFor w type found ∧ s.WellFormed w found) ∧
    (∀ type s, (schema w type r).1 = .ok s →
      ∃ found, StandsFor w type.key found ∧ s.WellFormed w found) ∧
    (∀ type, (schema w type r).1 ≠ .error (.misuse .key)) ∧
    (∀ type supplied placement,
      (Reader.build w type supplied placement r).1 ≠ .error (.misuse .key)) ∧
    ∀ text placement scope, (parse w text placement scope r).1 ≠ .error (.misuse .key) := by
  intro r
  have hr : Tidy w r := tidy_life acts imports reads
  have hso : Furnishes w (resolveWithin w (depth w r)) := furnishes_resolveWithin _
  refine ⟨hr.schemas, fun type s hs => ?_, fun type => ?_, fun type supplied placement => ?_,
    fun text placement scope => ?_⟩
  · obtain ⟨r₁, -, hr₁, hrun⟩ := schema_eq (w := w) type r
    rw [hrun] at hs
    exact (furnishes_resolveWithin _).formed type.key r₁ s (hr.names hr₁) hs
  · obtain ⟨r₁, -, hr₁, hrun⟩ := schema_eq (w := w) type r
    rw [hrun]
    exact (furnishes_resolveWithin _).error false type.key r₁ (hr.names hr₁)
  · rw [build_eq]
    exact (inquires_buildWith none type supplied placement).ne_key hso hr
  · rw [parse, readBlock_eq]
    exact (inquires_read placement none text.toList).ne_key hso hr

end Reader
end DocTags
