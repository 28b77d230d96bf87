import DocTags.Proofs.Sessions

/-!
# Schema files that are loaded

The descriptions of a file are all read before any of them takes effect.  After that each one is
converted to a schema and stored before the next one is looked at, and what a description says about
the types of its attributes is not looked at until then.  So a file can fail half-way, with the
entries before the faulty one in place.

Which value a file denotes and how descriptions are validated is left to the packages, and nothing
here depends on them.

`Stores` is the part of a file that takes effect.  `registerAll_cases` says that it is all of the
file, or ends before an entry that cannot be converted, and `Stores.registered` says what it leaves
behind.  The main result is `loadSchemas_stores`, with the exact condition for a failing file to
leave registrations and cache alone.
-/

namespace DocTags
namespace Reader

/-! ## What a file leaves behind -/

/-- The schema that a description gives.  The names in it are absolute paths. -/
def converted (w : World) (d : Description) : Run Reader Schema :=
  d.toSchema w fun name => onNames (Names.resolve w [] name)

/-- Descriptions are converted and stored one after the other, each with what is known after the
ones before it. -/
inductive Stores (w : World) : Reader → Keyed Description → Keyed Schema → Reader → Prop
  | nil {r : Reader} : Stores w r [] [] r
  | cons {r r₁ r₂ : Reader} {type : TypeId} {d : Description} {s : Schema}
      {ds : Keyed Description} {stored : Keyed Schema} (h : converted w d r = (.ok s, r₁))
      (hrest : Stores w (r₁.register type s) ds stored r₂) :
      Stores w r ((type, d) :: ds) ((type, s.clone) :: stored) r₂

/-- Some schemas are registered, in order and in the place of what was known about their types.
Nothing else has changed, but more names may be known. -/
structure Registered (r : Reader) (stored : Keyed Schema) (r' : Reader) : Prop where
  declared : r'.declared = r.declared.merge stored
  resolved : r'.resolved = r.resolved.without stored
  stack : r'.stack = r.stack
  readsClasses : r'.readsClasses = r.readsClasses

section Loading

variable {w : World} {r r₁ r' : Reader} {ds : Keyed Description} {stored : Keyed Schema}

/-- Converting a description learns names and nothing else. -/
lemma namesOnly_converted (w : World) (d : Description) (r : Reader) :
    ∃ n, (converted w d r).2 = { r with names := n } := by
  obtain ⟨n, -, hn⟩ := @quiet_toSchema w (Names.OwnIds.everywhere w) d r
  exact ⟨n, hn⟩

lemma Registered.nil (n : Names) : Registered r [] { r with names := n } where
  declared := rfl
  resolved := ((Keyed.without_eq_self_iff _ _).2 (by simp)).symm
  stack := rfl
  readsClasses := rfl

lemma Registered.converted (h : Registered r stored r') (d : Description) :
    Registered r stored (converted w d r').2 := by
  obtain ⟨n, hn⟩ := namesOnly_converted w d r'
  rw [hn]
  exact ⟨h.declared, h.resolved, h.stack, h.readsClasses⟩

lemma Registered.cons {n : Names} {type : TypeId} {s : Schema}
    (h : Registered (register { r with names := n } type s) stored r') :
    Registered r ((type, s.clone) :: stored) r' where
  declared := h.declared
  resolved := by
    rw [h.resolved, Keyed.without_cons]
    rfl
  stack := h.stack
  readsClasses := h.readsClasses

lemma Stores.registered (h : Stores w r ds stored r') : Registered r stored r' := by
  induction h with
  | @nil r => exact .nil r.names
  | @cons r r₁ r₂ type d s ds stored h _ ih =>
    obtain ⟨n, hn⟩ := namesOnly_converted w d r
    rw [h] at hn
    subst hn
    exact .cons ih

lemma Stores.names_eq (h : Stores w r ds stored r') : stored.names = ds.names := by
  induction h with
  | nil => rfl
  | cons _ _ ih => exact congrArg _ ih

section Registered

variable (h : Registered r stored r')

include h

lemma Registered.isRegistered (type : TypeId) :
    r'.isRegistered type = (r.isRegistered type || stored.has type) := by
  rw [Reader.isRegistered, Reader.isRegistered, h.declared, h.resolved, Keyed.has_merge,
    Keyed.has_without]
  cases r.declared.has type <;> cases r.resolved.has type <;> cases stored.has type <;> rfl

/-- Registrations and cache are as before exactly if all that was stored was registered already and
none of it was in the cache. -/
lemma Registered.unchanged_iff (hnodup : stored.names.Nodup) :
    (r'.declared = r.declared ∧ r'.resolved = r.resolved) ↔
      ∀ entry ∈ stored, r.declared.get? entry.1 = some entry.2 ∧
        r.resolved.has entry.1 = false := by
  rw [h.declared, h.resolved, Keyed.merge_eq_self_iff _ hnodup, Keyed.without_eq_self_iff,
    forall₂_and]

end Registered

/-! ## How far a file gets -/

lemma registerDescription_ok {type : TypeId} {d : Description} {s : Schema}
    (h : converted w d r = (.ok s, r₁)) :
    registerDescription w (.id type) d r = (.ok type, r₁.register type s) := by
  have hrun := Run.bind_ok h fun s => do
    modify fun r => r.register type s
    return type
  exact hrun

lemma registerDescription_error {type : TypeId} {d : Description} {e : Error}
    (h : converted w d r = (.error e, r₁)) :
    registerDescription w (.id type) d r = (.error e, r₁) := by
  have hrun := Run.bind_error h fun s => do
    modify fun r => r.register type s
    return type
  exact hrun

/-- All descriptions are stored, or those before one that cannot be converted. -/
lemma registerAll_cases (w : World) (ds : Keyed Description) (r : Reader) :
    ∃ before after stored r₁, ds = before ++ after ∧ Stores w r before stored r₁ ∧
      (after = [] ∧ registerAll w ds r = (.ok ds.names, r₁) ∨
        ∃ type d later e r₂, after = (type, d) :: later ∧ converted w d r₁ = (.error e, r₂) ∧
          registerAll w ds r = (.error e, r₂)) := by
  induction ds generalizing r with
  | nil => exact ⟨[], [], [], r, rfl, .nil, .inl ⟨rfl, rfl⟩⟩
  | cons entry ds ih =>
    obtain ⟨type, d⟩ := entry
    rcases hd : converted w d r with ⟨e | s, r₁⟩
    · have hrun : registerAll w ((type, d) :: ds) r = (.error e, r₁) :=
        Run.bind_error (registerDescription_error hd) _
      exact ⟨[], (type, d) :: ds, [], r, rfl, .nil, .inr ⟨type, d, ds, e, r₁, rfl, hd, hrun⟩⟩
    · have hrun : registerAll w ((type, d) :: ds) r = (do
          return type :: (← registerAll w ds)) (r₁.register type s) :=
        Run.bind_ok (registerDescription_ok hd) _
      obtain ⟨before, after, stored, r₂, hds, hstores, hend⟩ := ih (r₁.register type s)
      refine ⟨(type, d) :: before, after, (type, s.clone) :: stored, r₂, ?_, .cons hd hstores, ?_⟩
      · rw [hds, List.cons_append]
      · rw [hrun]
        rcases hend with ⟨hafter, hall⟩ | ⟨other, d', later, e, r₃, hafter, hfails, hall⟩
        · refine .inl ⟨hafter, ?_⟩
          rw [Run.bind_ok hall]
          rfl
        · exact .inr ⟨other, d', later, e, r₃, hafter, hfails, Run.bind_error hall _⟩

/-- The entries of a file have different names. -/
lemma nodup_of_ofFile {p : Packages} {path : String} {content : Option String}
    (h : Description.ofFile w p path content = .ok ds) : ds.names.Nodup := by
  unfold Description.ofFile at h
  cases content with
  | none => cases h
  | some text =>
    dsimp only at h
    cases hload : (p.load (Description.normalizeLines text.toList)).mapError
        (Description.faultError path) with
    | error e =>
      rw [hload] at h
      cases h
    | ok v =>
      rw [hload] at h
      simp only [bind, Except.bind] at h
      split at h
      · next pairs =>
        cases hentries : Description.entriesOf w p.validate path pairs with
        | error e =>
          rw [hentries] at h
          cases h
        | ok entries =>
          rw [hentries] at h
          obtain rfl := Except.ok.inj h
          exact Keyed.names_merge_nodup [] entries List.nodup_nil
      · split at h
        · cases h
        · obtain rfl := Except.ok.inj h
          exact List.nodup_nil

/-- With any packages: a file whose entries cannot be read leaves the reader as it is.  Otherwise
the entries take effect in their order, all of them or those before the first one that cannot be
converted, whose error is the outcome then.  A file that fails leaves registrations and cache as
they were if and only if each entry that took effect was registered already, with the same schema,
and not in the cache. -/
theorem loadSchemas_stores (w : World) (p : Packages) (path : String) (content : Option String)
    (r : Reader) :
    (∃ e, Description.ofFile w p path content = .error e ∧
      loadSchemas w p path content r = (.error e, r)) ∨
    ∃ ds before after stored r₁ r', Description.ofFile w p path content = .ok ds ∧
      ds = before ++ after ∧ Stores w r before stored r₁ ∧ stored.names = before.names ∧
      (after = [] ∧ loadSchemas w p path content r = (.ok ds.names, r') ∧
          (∀ entry ∈ stored, r'.declared.get? entry.1 = some entry.2) ∨
        ∃ type d later e, after = (type, d) :: later ∧ converted w d r₁ = (.error e, r') ∧
          loadSchemas w p path content r = (.error e, r')) ∧
      Registered r stored r' ∧
      ((r'.declared = r.declared ∧ r'.resolved = r.resolved) ↔
        ∀ entry ∈ stored, r.declared.get? entry.1 = some entry.2 ∧
          r.resolved.has entry.1 = false) ∧
      ∀ type, r'.isRegistered type = (r.isRegistered type || stored.has type) := by
  cases hfile : Description.ofFile w p path content with
  | error e =>
    refine .inl ⟨e, rfl, ?_⟩
    rw [loadSchemas, hfile]
    rfl
  | ok ds =>
    have hload : loadSchemas w p path content r = registerAll w ds r := by
      rw [loadSchemas, hfile]
      rfl
    obtain ⟨before, after, stored, r₁, hds, hstores, hend⟩ := registerAll_cases w ds r
    have hnodup : stored.names.Nodup := by
      have hall := nodup_of_ofFile hfile
      rw [hds, Keyed.names, List.map_append, List.nodup_append] at hall
      rw [hstores.names_eq]
      exact hall.1
    have hregistered := hstores.registered
    refine .inr ⟨ds, before, after, stored, r₁, ?_⟩
    rcases hend with ⟨hafter, hrun⟩ | ⟨type, d, later, e, r₂, hafter, hfails, hrun⟩
    · refine ⟨r₁, rfl, hds, hstores, hstores.names_eq,
        .inl ⟨hafter, hload.trans hrun, fun entry hentry => ?_⟩, hregistered,
        hregistered.unchanged_iff hnodup, hregistered.isRegistered⟩
      rw [hregistered.declared]
      exact Keyed.get?_merge_of_mem _ hnodup hentry
    · have hlast : Registered r stored r₂ := by
        have hconverted := @Registered.converted w r r₁ stored hregistered d
        rwa [hfails] at hconverted
      exact ⟨r₂, rfl, hds, hstores, hstores.names_eq,
        .inr ⟨type, d, later, e, hafter, hfails, hload.trans hrun⟩, hlast,
        hlast.unchanged_iff hnodup, hlast.isRegistered⟩

end Loading

/-- A module with two classes. -/
def twoClasses : World where
  modules := [("app", [("A", .cls "app.A"), ("B", .cls "app.B")])]
  classes :=
    [("app.A", { id := "app.A", home := "app" }), ("app.B", { id := "app.B", home := "app" })]

/-- A file with an entry for each of two classes.  The second one declares a type that there is
not. -/
def secondFaulty : String := "app.A:\napp.B:\n attributes:\n  b:\n   type: 7\n"

/-- Packages as far as they are asked about that file: the value it denotes, and the descriptions of
its two entries. -/
def forSecondFaulty : Packages where
  load text :=
    if text = secondFaulty.toList then
      let b : Value := .dict [(.str "type", .int 7)]
      .ok (.dict [(.str "app.A", .null),
        (.str "app.B", .dict [(.str "attributes", .dict [(.str "b", b)])])])
    else .error (.malformed "")
  validate
    | [] => .ok {}
    | _ => .ok { attributes := [("b", { type := .int 7 })] }

/-- The second entry of the file cannot be converted.  The file fails, and its first entry is
registered. -/
theorem loadSchemas_stores_first_entry :
    let r := start [] true
    let run := loadSchemas twoClasses forSecondFaulty "schemas.yaml" (some secondFaulty) r
    errorOf? run.1 =
      some (.description "b" (.declaration "Unsupported attribute type declaration: 7")) ∧
    r.isRegistered "app.A" = false ∧ run.2.isRegistered "app.A" = true ∧
    run.2.isRegistered "app.B" = false ∧
    (∃ stored, Registered r stored run.2 ∧ stored.has "app.A" = true) ∧
    ¬ (run.2.declared = r.declared ∧ run.2.resolved = r.resolved) := by
  intro r run
  have hbefore : r.isRegistered "app.A" = false := by decide +kernel
  obtain ⟨herror, hafter, hsecond⟩ : errorOf? run.1 =
      some (.description "b" (.declaration "Unsupported attribute type declaration: 7")) ∧
      run.2.isRegistered "app.A" = true ∧ run.2.isRegistered "app.B" = false := by
    decide +kernel
  have hcases := loadSchemas_stores twoClasses forSecondFaulty "schemas.yaml" (some secondFaulty) r
  have hname :
      loadSchemas twoClasses forSecondFaulty "schemas.yaml" (some secondFaulty) r = run := rfl
  rw [hname] at hcases
  clear_value run r
  have hchanged : ¬ (run.2.declared = r.declared ∧ run.2.resolved = r.resolved) := by
    rintro ⟨hdeclared, hresolved⟩
    rw [isRegistered, hdeclared, hresolved, ← isRegistered, hbefore] at hafter
    cases hafter
  refine ⟨herror, hbefore, hafter, hsecond, ?_, hchanged⟩
  rcases hcases with
    ⟨e, -, hrun⟩ | ⟨ds, before, after, stored, r₁, r', -, -, -, -, hend, hregistered, -, hhas⟩
  · rw [hrun] at hchanged
    exact absurd ⟨rfl, rfl⟩ hchanged
  · have hreader : run.2 = r' := by
      rcases hend with ⟨-, hrun, -⟩ | ⟨type, d, later, e, -, -, hrun⟩
      · rw [hrun]
      · rw [hrun]
    have hstored := hhas "app.A"
    rw [← hreader, hafter, hbefore, Bool.false_or] at hstored
    exact ⟨stored, hreader ▸ hregistered, hstored.symm⟩

end Reader
end DocTags
