import DocTags.Proofs.Caching

/-!
# What the cache cannot change

A reader is set up with imports and registrations, and then used: it resolves types, builds
annotations, reads texts and clears its cache, in any order, and each of these calls may fail at any
point.  Between the calls, the defaults that its schemas hold may be changed in place, by the code
of classes that were handed them.

`schema_after_uses` says when a type is still resolved as the reader would have resolved it right
after its setup, with the same schema or the same error, whatever is cached by then.  No default
that is held may have been changed, and names must not be ambiguous: the type ids that were met are
coherent, that is, each is the id of a class and denotes this class, as an absolute path and in the
scopes of the classes whose documentation was read.  Nothing is asked of other classes, nor of the
scopes that texts are given with.  Neither condition can be dropped (`schema_after_uses_fails`).

The documentation that is read is bounded by a list: a run that gives up where it would read that of
another class does not give up, and so is the run itself (`Completes`).  The invariant is that the
cache is sound for the ids met by the end.  Every use keeps it, whether or not it succeeds
(`keeps_call`), and from sound caches a type is resolved alike (`sim_schemaAmong`).
-/

namespace DocTags

namespace Names

variable (w : World) (docs : List TypeId)

/-- `true` when a type id denotes its own class, as an absolute path and in the scopes of the given
classes. -/
def denotesItselfIn (type : TypeId) : Bool :=
  typeAt? w [] type == some type &&
    docs.all fun doc => typeAt? w (w.classScope doc) type == some type

/-- `true` when each type id met so far denotes its own class there. -/
def coherent (n : Names) : Bool :=
  n.known.all fun entry => denotesItselfIn w docs entry.1

/-- All ids that denote their own classes there. -/
def OwnIds.within : OwnIds w where
  has := denotesItselfIn w docs
  docs := docs.contains
  path type h := by
    rw [denotesItselfIn, Bool.and_eq_true] at h
    exact eq_of_beq h.1
  home type other htype hother := by
    rw [denotesItselfIn, Bool.and_eq_true, List.all_eq_true] at hother
    exact eq_of_beq (hother.2 type (List.contains_iff_mem.1 htype))

end Names

namespace Reader

open Names

/-! ## Setting up and using a reader -/

/-- The calls that set a reader up. -/
inductive Setup where
  | register (type : TypeArg) (d : Descriptor)
  | globalImport (type : TypeArg) (short : Option String)

/-- The reader after a call of its setup, whether or not it fails. -/
def Setup.run (w : World) : Setup → Reader → Reader
  | register type d, r => (registerAs w type d r).2
  | globalImport type short, r => (addGlobalImport type short r).2

/-- A new reader with what it is given before it is used. -/
def prepared (w : World) (imports : Keyed TypeId) (reads : Bool) (setup : List Setup) : Reader :=
  setup.foldl (fun r c => c.run w r) (start imports reads)

/-- The calls that use a reader. -/
inductive Use where
  | resolve (type : TypeArg)
  | build (type : TypeId) (supplied : Value) (placement : Placement)
  | parse (text : String) (placement : Placement) (scope : Scope)
  | clear

/-- The reader after it was used, whether or not the call fails. -/
def Use.run (w : World) : Use → Reader → Reader
  | resolve type, r => (schema w type r).2
  | build type supplied placement, r => (Reader.build w type supplied placement r).2
  | parse text placement scope, r => (Reader.parse w text placement scope r).2
  | clear, r => r.clearResolved

/-! ## The setup -/

variable {w : World} {ids : OwnIds w} {q : Reader}

/-- A reader that has resolved nothing and whose ids are clear as soon as they are all among the
chosen ones. -/
structure Fresh (ids : OwnIds w) (r : Reader) : Prop where
  resolved : r.resolved = []
  stack : r.stack = []
  clear : r.names.meetsOnly ids = true → r.names.Clear ids

lemma Fresh.namesOnly {r r' : Reader} (h : Fresh ids r) (hr : NamesOnly ids r r') :
    Fresh ids r' := by
  obtain ⟨n, hn, rfl⟩ := hr
  exact ⟨h.resolved, h.stack, fun hmeets => hn.clear (h.clear (hn.meetsOnly hmeets)) hmeets⟩

lemma fresh_run (c : Setup) {r : Reader} (h : Fresh ids r) : Fresh ids (c.run w r) := by
  cases c with
  | register type d =>
    obtain ⟨r₁, hr₁, ⟨e, hrun⟩ | ⟨key, s, hrun⟩⟩ := registers_registerAs ids type d r
    · rw [Setup.run, hrun]
      exact h.namesOnly hr₁
    · rw [Setup.run, hrun]
      have hfresh := h.namesOnly hr₁
      refine ⟨?_, hfresh.stack, hfresh.clear⟩
      rw [register, hfresh.resolved]
      rfl
  | globalImport type short =>
    have hfresh := h.namesOnly (quiet_keyOf ids type r)
    rw [Setup.run, addGlobalImport]
    cases hres : (keyOf type r).1 with
    | error e =>
      rw [Run.bind_of_fst_error hres]
      exact hfresh
    | ok key =>
      rw [Run.bind_of_fst_ok hres]
      exact ⟨hfresh.resolved, hfresh.stack, fun hmeets =>
        ⟨(hfresh.clear hmeets).known_self, hmeets⟩⟩

lemma fresh_prepared (imports : Keyed TypeId) (reads : Bool) (setup : List Setup) :
    Fresh ids (prepared w imports reads setup) := by
  have hstart : Fresh ids (start imports reads) :=
    ⟨rfl, rfl, fun h => ⟨known_self_start imports reads, h⟩⟩
  rw [prepared]
  generalize start imports reads = r at hstart
  induction setup generalizing r with
  | nil => exact hstart
  | cons c setup ih => exact ih _ (fresh_run c hstart)

/-! ## What a use keeps -/

/-- What a use may do to a reader: it goes on from there, and a sound cache stays sound. -/
structure Keeps (ids : OwnIds w) (q r r' : Reader) : Prop where
  later : Later ids r r'
  sound : q.names.Clear ids → At ids q (Standing ids q [] []) r →
    r'.names.meetsOnly ids = true → At ids q (Standing ids q [] []) r'

namespace Keeps

variable {r r₁ r₂ : Reader}

lemma refl (r : Reader) : Keeps ids q r r :=
  ⟨.refl r, fun _ hr _ => hr⟩

lemma trans (h : Keeps ids q r r₁) (h₁ : Keeps ids q r₁ r₂) : Keeps ids q r r₂ :=
  ⟨h.later.trans h₁.later, fun hq hr hend =>
    h₁.sound hq (h.sound hq hr (h₁.later.names.meetsOnly hend)) hend⟩

lemma names {n : Names} (h : Names.Extends ids r.names n) : Keeps ids q r { r with names := n } :=
  have hlater : Later ids r { r with names := n } := ⟨h, rfl, rfl, rfl⟩
  ⟨hlater, fun _ hr hend => ⟨hr.ground.later hlater hend, nameless_standing r n hr.holds⟩⟩

lemma resolveAmong (n : Nat) (asAncestor : Bool) (type : TypeId) (r : Reader) :
    Keeps ids q r (resolveAmong w ids.docs n asAncestor type r).2 :=
  ⟨later_resolveAmong ids.docs n asAncestor type r, fun hq hr hend =>
    (tracked_resolveAmong hq n (fun _ hv => absurd hv List.not_mem_nil) asAncestor type r hr
      hend).1⟩

end Keeps

lemma Asking.keeps {α : Type} {imports : Keyed TypeId} {p : Prop} {L : TypeId → Prop}
    {F : Oracle → Run Reader α} (hF : Asking ids imports p L F) {so : Oracle}
    (hso : ∀ asAncestor type r, Keeps ids q r (so asAncestor type r).2) (r : Reader) :
    Keeps ids q r (F so r).2 :=
  hF.relates .refl .trans (fun _ _ hn => .names hn) hso r

/-- A use of a reader, with an oracle for the types that it asks for. -/
def Use.call (w : World) : Use → Oracle → Run Reader Unit
  | resolve type, so => do
    let key ← keyOf type
    let _ ← so false key
    return ()
  | build type supplied placement, so => do
    let _ ← buildWith w (so false) none type supplied placement
    return ()
  | parse text placement scope, so => do
    let _ ← (settingFor w scope placement none so).read text.toList
    return ()
  | clear, _ => modify clearResolved

lemma asking_keyOf {imports : Keyed TypeId} {p : Prop} {L : TypeId → Prop} (type : TypeArg) :
    Asking ids imports p L fun _ => keyOf type := by
  cases type with
  | id type => exact .pure type
  | cls type => exact (Asking.names (uniform_remember type)).bind fun _ => .pure type

/-- Every use asks for types, but the one that clears the cache.  The scope of a text may be any, so
what names mean in it is left open. -/
lemma asking_call (ids : OwnIds w) {u : Use} (hu : u ≠ .clear) :
    Asking ids [] False (fun _ => True) (u.call w) := by
  cases u with
  | resolve type =>
    exact (asking_keyOf type).bind fun key => (Asking.ask false trivial).bind fun _ => .pure ()
  | build type supplied placement =>
    exact (asking_buildWith none trivial supplied placement).bind fun _ => .pure ()
  | parse text placement scope =>
    exact (asking_read placement none False.elim text.toList fun _ _ _ _ => trivial).bind
      fun _ => .pure ()
  | clear => exact absurd rfl hu

/-- What comes of a run makes no difference to the reader. -/
lemma bind_unit_apply {α : Type} (x : Run Reader α) (r : Reader) :
    (x >>= fun _ => pure ()) r = ((x r).1.map fun _ => (), (x r).2) := by
  rcases hx : x r with ⟨e | a, r₁⟩
  · rw [Run.bind_error hx]
    rfl
  · rw [Run.bind_ok hx]
    rfl

/-- Recording a class leaves the depth as it is. -/
lemma keyOf_bind_depth {α : Type} (f : Nat → TypeId → Run Reader α) (type : TypeArg) (r : Reader) :
    (keyOf type >>= fun key => get >>= fun r₁ => f (depth w r₁) key) r =
      (keyOf type >>= fun key => f (depth w r) key) r := by
  cases type <;> rfl

lemma Use.run_eq (u : Use) (r : Reader) :
    u.run w r = (u.call w (Reader.resolveWithin w (depth w r)) r).2 := by
  cases u with
  | resolve type =>
    have hrun : schema w type r =
        (keyOf type >>= fun key => Reader.resolveWithin w (depth w r) false key) r :=
      keyOf_bind_depth (fun n key => Reader.resolveWithin w n false key) type r
    rw [Use.run, hrun, Use.call, ← bind_assoc, bind_unit_apply]
  | build type supplied placement =>
    rw [Use.run, Reader.build, Run.bind_ok (Run.get_apply r), Use.call, bind_unit_apply]
  | parse text placement scope =>
    rw [Use.run, Reader.parse, readBlock_eq, Use.call, bind_unit_apply]
  | clear => rfl

/-- Every use keeps the cache sound, if it reads documentation that the ids fit. -/
lemma keeps_call (u : Use) (n : Nat) (r : Reader) :
    Keeps ids q r (u.call w (Reader.resolveAmong w ids.docs n) r).2 := by
  by_cases hu : u = .clear
  · subst hu
    refine ⟨⟨.refl _, rfl, rfl, rfl⟩, fun _ hr _ => ?_⟩
    exact at_cleared hr.ground hr.holds.declared hr.holds.stack
  · exact (asking_call ids hu).keeps (.resolveAmong n) r

/-! ## The documentation that is read -/

/-- The second run goes as the first one, wherever that does not give up. -/
def Completes {α : Type} (x y : Run Reader α) : Prop :=
  ∀ r, (x r).1 ≠ .error .tooDeep → y r = x r

namespace Completes

variable {α β : Type}

lemma refl (x : Run Reader α) : Completes x x :=
  fun _ _ => rfl

/-- Where a run gives up, so does all that it is a part of. -/
lemma bind {x y : Run Reader α} {f g : α → Run Reader β} (hxy : Completes x y)
    (hfg : ∀ a, Completes (f a) (g a)) : Completes (x >>= f) (y >>= g) := by
  intro r hend
  rcases hres : x r with ⟨e | a, r₁⟩
  · rw [Run.bind_error hres] at hend
    have hy : y r = x r := hxy r (by rw [hres]; rintro ⟨⟩; exact hend rfl)
    rw [Run.bind_error hres, Run.bind_error (hy.trans hres)]
  · rw [Run.bind_ok hres] at hend
    have hy : y r = x r := hxy r (by rw [hres]; exact nofun)
    rw [Run.bind_ok hres, Run.bind_ok (hy.trans hres)]
    exact hfg a r₁ hend

end Completes

lemma Asking.completes {α : Type} {imports : Keyed TypeId} {p : Prop} {L : TypeId → Prop}
    {F : Oracle → Run Reader α} (hF : Asking ids imports p L F) {so so' : Oracle}
    (h : ∀ asAncestor type, Completes (so asAncestor type) (so' asAncestor type)) :
    Completes (F so) (F so') := by
  induction hF with
  | pure a => exact .refl _
  | throw e => exact .refl _
  | names hact => exact .refl _
  | ask asAncestor hL => exact h asAncestor _
  | resolve hs name hf hall ihf ihall => exact (Completes.refl _).bind ihall
  | flag hx hy ihx ihy =>
    refine (Completes.refl _).bind fun r => ?_
    split
    · exact ihx
    · exact ihy
  | bind hx hf ihx ihf => exact ihx.bind ihf

section Completes

variable {docs : TypeId → Bool}

lemma completes_ownAmong {so so' : Oracle}
    (h : ∀ asAncestor type, Completes (so asAncestor type) (so' asAncestor type))
    (type found : TypeId) :
    Completes (ownAmong w docs (so false) type found) (own w (so' false) type found) := by
  unfold ownAmong
  split
  · have hasks : Asking (.everywhere w) [] False (fun _ => True) fun so =>
        own w (so false) type found := asking_own (bounds_true []) type False.elim
    exact hasks.completes h
  · -- A reader that may read no documentation refuses all of it alike.
    intro r hend
    by_cases hflag : r.readsClasses = true
    · rw [flag_pos _ _ hflag] at hend
      exact absurd rfl hend
    · have hrefused : readClassWith w (so' false) type found r = (.error (.unreadable found), r) :=
        flag_neg _ _ hflag
      rw [flag_neg _ _ hflag, own, Run.bind_error hrefused]
      rfl

lemma completes_resolveByAmong {so so' : Oracle}
    (h : ∀ asAncestor type, Completes (so asAncestor type) (so' asAncestor type))
    (declared : Keyed Schema) (type : TypeId) :
    Completes (resolveByAmong w docs declared type so) (resolveBy w declared type so') := by
  rw [← resolveByAmong_all]
  unfold resolveByAmong
  cases hs : declared.get? type with
  | some s =>
    have hasks : Asking (.everywhere w) [] False (fun _ => True) fun so =>
        resolveDeclared w (so true) type s :=
      asking_resolveDeclared type fun _ _ _ _ => trivial
    exact (hasks.completes h).bind fun s => .refl _
  | none =>
    have hasks : ∀ found, Asking (.everywhere w) [] False (fun _ => True) fun so =>
        inherited w (so true) found := fun found => asking_inherited (bounds_true declared) found
    exact (Completes.refl _).bind fun found => ((hasks found).completes h).bind fun s =>
      (completes_ownAmong h type found).bind fun d => .refl _

/-- What is resolved without giving up is resolved in full. -/
lemma completes_resolveAmong (n : Nat) (asAncestor : Bool) (type : TypeId) :
    Completes (resolveAmong w docs n asAncestor type) (resolveWithin w n asAncestor type) := by
  induction n using Nat.strongRecOn generalizing asAncestor type with
  | _ n ih =>
    intro r hend
    cases hc : r.resolved.get? type with
    | some s => rw [resolveAmong_cached hc, resolveWithin_cached hc]
    | none =>
      by_cases hs : type ∈ r.stack
      · rw [resolveAmong_cycle hc hs, resolveWithin_cycle hc hs]
      · cases n with
        | zero => rw [resolveAmong_zero hc hs, resolveWithin_zero hc hs]
        | succ n =>
          rw [resolveAmong_fresh hc hs] at hend ⊢
          rw [resolveWithin_fresh hc hs]
          dsimp only at hend ⊢
          rw [completes_resolveByAmong (ih n (Nat.lt_succ_self n)) r.declared type (opened type r)
            fun hdeep => hend (by rw [hdeep]; rfl)]

lemma completes_call (u : Use) (n : Nat) :
    Completes (u.call w (resolveAmong w docs n)) (u.call w (resolveWithin w n)) := by
  by_cases hu : u = .clear
  · subst hu
    exact .refl _
  · exact (asking_call (.everywhere w) hu).completes (completes_resolveAmong n)

end Completes

/-! ## Answers after use -/

/-- What happens between the setup of a reader and a question: it is used, or program code changes
defaults that it holds in place, by type and attribute. -/
inductive Event where
  | use (u : Use)
  | change (f : TypeId → String → Value → Value)

/-- A schema with its defaults changed. -/
def changedSchema (f : String → Value → Value) (s : Schema) : Schema :=
  { s with attributes := s.attributes.map fun (name, spec) =>
      (name, { spec with default := spec.default.map (f name) }) }

/-- The reader after an event, whether or not a call fails. -/
def Event.run (w : World) : Event → Reader → Reader
  | use u, r => u.run w r
  | change f, r =>
    { r with
      declared := r.declared.map fun (type, s) => (type, changedSchema (f type) s)
      resolved := r.resolved.map fun (type, s) => (type, changedSchema (f type) s) }

/-- The reader after some events. -/
def used (w : World) (events : List Event) (r : Reader) : Reader :=
  events.foldl (fun r e => e.run w r) r

/-- A call reads no documentation but that of the classes in `docs`. -/
def Use.ReadsOnly (w : World) (docs : List TypeId) (u : Use) (r : Reader) : Prop :=
  (u.call w (resolveAmong w docs.contains (depth w r)) r).1 ≠ .error .tooDeep

instance (w : World) (docs : List TypeId) (u : Use) (r : Reader) :
    Decidable (u.ReadsOnly w docs r) :=
  inferInstanceAs (Decidable (_ ≠ _))

/-- In the course of some events no documentation is read but that of the classes in `docs`, and the
defaults that the reader holds stay as they are. -/
def Harmless (w : World) (docs : List TypeId) : List Event → Reader → Prop
  | [], _ => True
  | .use u :: events, r => u.ReadsOnly w docs r ∧ Harmless w docs events (u.run w r)
  | .change f :: events, r => (Event.change f).run w r = r ∧ Harmless w docs events r

/-- The oracle of the calls from outside, which have the whole depth. -/
def outermost (w : World) (docs : TypeId → Bool) : Oracle := fun asAncestor type => do
  resolveAmong w docs (depth w (← get)) asAncestor type

lemma outermost_apply (docs : TypeId → Bool) (asAncestor : Bool) (type : TypeId) (r : Reader) :
    outermost w docs asAncestor type r = resolveAmong w docs (depth w r) asAncestor type r := by
  rw [outermost, Run.bind_ok (Run.get_apply r)]

/-- The schema of a type, as long as no documentation is read but that of the classes in `docs`. -/
def schemaAmong (w : World) (docs : TypeId → Bool) (type : TypeArg) : Run Reader Schema := do
  outermost w docs false (← keyOf type)

lemma completes_schemaAmong (docs : TypeId → Bool) (type : TypeArg) :
    Completes (schemaAmong w docs type) (schema w type) :=
  (Completes.refl _).bind fun key => (Completes.refl _).bind fun r =>
    completes_resolveAmong (depth w r) false key

/-- Two readers with sound caches resolve a type alike, if they read documentation that the ids
fit. -/
lemma sim_schemaAmong (hq : q.names.Clear ids) (type : TypeArg) :
    Sim ids q false (Standing ids q [] []) (Standing ids q [] []) (schemaAmong w ids.docs type)
      (schemaAmong w ids.docs type) := by
  have houtermost : ∀ asAncestor key, True →
      Sim ids q false (Standing ids q [] []) (Standing ids q [] [])
        (outermost w ids.docs asAncestor key) (outermost w ids.docs asAncestor key) := by
    intro asAncestor key _ r r' hr hr' hend hok
    rw [outermost_apply] at hend hok
    rw [outermost_apply, outermost_apply]
    have hroom : ∀ r, At ids q (Standing ids q [] []) r →
        Room (key :: nameable w q) [] (depth w r) := by
      intro r hr
      rw [← nameable_congr hr.ground.imports hr.holds.declared]
      exact room_depth w key r
    exact sim_resolveAmong hq (fun _ => List.mem_cons_of_mem key) (hroom r hr) (hroom r' hr')
      (fun v hv => absurd hv List.not_mem_nil) (fun v hv => absurd hv List.not_mem_nil) asAncestor
      (List.mem_cons_self ..) r r' hr hr' hend hok
  have hasks : Asking ids q.names.imports True (fun _ => True) fun so =>
      keyOf type >>= fun key => so false key :=
    (asking_keyOf type).bind fun key => .ask false trivial
  refine hasks.sim trivial nameless_standing nameless_standing houtermost fun asAncestor key r => ?_
  rw [outermost_apply]
  exact later_resolveAmong ids.docs _ asAncestor key r

/-- A type is resolved in the same way, if only the given documentation is read for it. -/
lemma schemaAmong_eq {docs : List TypeId} {type : TypeArg} {r : Reader}
    (h : (Use.resolve type).ReadsOnly w docs r) :
    (schemaAmong w docs.contains type r).1 ≠ .error .tooDeep := by
  have hrun : schemaAmong w docs.contains type r =
      (keyOf type >>= fun key => resolveAmong w docs.contains (depth w r) false key) r :=
    keyOf_bind_depth (fun n key => resolveAmong w docs.contains n false key) type r
  intro hdeep
  refine h ?_
  rw [hrun] at hdeep
  rw [Use.call, ← bind_assoc, bind_unit_apply, hdeep]
  rfl

/-- What harmless events do to a reader keeps its cache sound. -/
lemma keeps_used {docs : List TypeId} {events : List Event} {r : Reader}
    (h : Harmless w docs events r) : Keeps (.within w docs) q r (used w events r) := by
  induction events generalizing r with
  | nil => exact .refl r
  | cons e events ih =>
    cases e with
    | use u =>
      obtain ⟨hreads, hrest⟩ := h
      have hkeeps : Keeps (.within w docs) q r (u.run w r) := by
        rw [u.run_eq, completes_call u _ r hreads]
        exact keeps_call u _ r
      exact hkeeps.trans (ih hrest)
    | change f =>
      obtain ⟨hsame, hrest⟩ := h
      rw [used, List.foldl_cons, hsame]
      exact ih hrest

lemma harmless_append {docs : List TypeId} {events later : List Event} {r : Reader} :
    Harmless w docs (events ++ later) r ↔
      Harmless w docs events r ∧ Harmless w docs later (used w events r) := by
  induction events generalizing r with
  | nil => simp [Harmless, used]
  | cons e events ih =>
    cases e with
    | use u =>
      rw [List.cons_append, Harmless, Harmless, ih, and_assoc]
      rfl
    | change f =>
      rw [List.cons_append, Harmless, Harmless, ih, and_assoc]
      refine and_congr_right fun hsame => ?_
      rw [used, used, List.foldl_cons, hsame]

/-- A change leaves a reader as it is, if it leaves the defaults that are held as they are. -/
lemma run_change {f : TypeId → String → Value → Value} {r : Reader}
    (h : ∀ entry ∈ r.declared ++ r.resolved, ∀ a ∈ entry.2.attributes, ∀ v,
      a.2.default = some v → f entry.1 a.1 v = v) :
    (Event.change f).run w r = r := by
  have hschema : ∀ entry ∈ r.declared ++ r.resolved,
      changedSchema (f entry.1) entry.2 = entry.2 := by
    intro entry hentry
    have hkept : ∀ a ∈ entry.2.attributes,
        (a.1, { a.2 with default := a.2.default.map (f entry.1 a.1) }) = a := by
      intro a ha
      have hdefault : a.2.default.map (f entry.1 a.1) = a.2.default := by
        cases hd : a.2.default with
        | none => rfl
        | some v => rw [Option.map_some, h entry hentry a ha v hd]
      rw [hdefault]
    rw [changedSchema, List.map_congr_left hkept, List.map_id']
  have hall : ∀ schemas : Keyed Schema, (∀ entry ∈ schemas, entry ∈ r.declared ++ r.resolved) →
      (schemas.map fun (type, s) => (type, changedSchema (f type) s)) = schemas := by
    intro schemas hschemas
    refine (List.map_congr_left fun entry hentry => ?_).trans (List.map_id' schemas)
    dsimp only
    rw [hschema entry (hschemas entry hentry)]
  rw [Event.run, hall r.declared fun _ => List.mem_append_left _,
    hall r.resolved fun _ => List.mem_append_right _]

/-- After any events in the life of a reader, calls that failed included, a type has the schema or
the error that it has right after the setup.  This holds as long as the type ids that were met are
coherent with the documentation that was read, and no default that the reader held was changed in
place. -/
theorem schema_after_uses (w : World) (imports : Keyed TypeId) (reads : Bool) (setup : List Setup)
    (events : List Event) (type : TypeArg) (docs : List TypeId) :
    let q := prepared w imports reads setup
    let r := used w events q
    Harmless w docs (events ++ [.use (.resolve type)]) q →
    (schema w type r).2.names.coherent w docs = true →
      (schema w type r).1 = (schema w type q).1 := by
  intro q r hharmless hcoherent
  obtain ⟨hevents, hresolve, -⟩ := harmless_append.1 hharmless
  have hdeep : (schemaAmong w docs.contains type r).1 ≠ .error .tooDeep := schemaAmong_eq hresolve
  have hlast : schema w type r = schemaAmong w docs.contains type r :=
    completes_schemaAmong docs.contains type r hdeep
  let ids : OwnIds w := .within w docs
  have hend : (schema w type r).2.names.meetsOnly ids = true := hcoherent
  have hfresh : Fresh ids q := fresh_prepared imports reads setup
  have hused : Keeps ids q q r := keeps_used hevents
  have hasked : Harmless w docs [.use (.resolve type)] r := ⟨hresolve, trivial⟩
  have hstep : Keeps ids q r (schema w type r).2 := keeps_used hasked
  -- What a reader knows only grows, so all that it knew before is among the ids met by the end.
  have hmeets := hstep.later.names.meetsOnly hend
  have hq := hfresh.clear (hused.later.names.meetsOnly hmeets)
  have hstart : At ids q (Standing ids q [] []) q := by
    refine ⟨⟨rfl, hq, rfl⟩, rfl, fun other s hget => ?_, hfresh.stack⟩
    rw [hfresh.resolved] at hget
    cases hget
  have hr := hused.sound hq hstart hmeets
  rw [hlast] at hend ⊢
  obtain ⟨hsame, -⟩ := sim_schemaAmong hq type q r hstart hr hend nofun
  -- The new reader gives up no more than the used one, so it reads no other documentation either.
  rw [completes_schemaAmong docs.contains type q fun hdeep' => hdeep (hsame.symm.trans hdeep')]
  exact hsame.symm

/-- A world with a class and its subclass, two classes whose documentation leads from one to the
other, and a class in a module where the path of the first class means the second one. -/
def familyClasses : World where
  modules :=
    [(declaringModule, declaringMembers declaringModule),
      ("app", [("P", .cls "app.P"), ("C", .cls "app.C"), ("D", .cls "app.D"), ("X", .cls "app.X"),
        ("Y", .cls "app.Y")]),
      ("lib", [("P", .cls "app.C")]),
      ("other", [("app", .moduleNamed "lib"), ("Z", .cls "other.Z")])]
  classes :=
    [(attributeType, attributeClass),
      ("app.P", { id := "app.P", home := "app", doc := some "@Annotation\n@Attribute('a')" }),
      ("app.C", { id := "app.C", home := "app", doc := some "@Annotation", bases := ["app.P"] }),
      ("app.D", { id := "app.D", home := "app" }),
      ("app.X", { id := "app.X", home := "app", doc := some "@Annotation\n@P(a: '1')\n@Y()" }),
      ("app.Y", { id := "app.Y", home := "app", doc := some "@Annotation\n@X()" }),
      ("other.Z", { id := "other.Z", home := "other" })]

/-- One class is registered on top of another, and the one of the other module is imported. -/
def familySetup : List Setup :=
  [.register (.id "app.D") (withAttribute "d" (some "app.P")), .globalImport (.cls "other.Z") none]

/-- The first call fails, when it has come back to its class; what it has resolved by then stays. -/
def familyEvents : List Event :=
  [.use (.resolve (.id "app.X")), .use (.parse "@D(d: '1')" .onClass (familyClasses.scopeOf "app")),
    .change fun type _ v => if type = "other.Z" then .null else v, .use (.resolve (.cls "app.C"))]

/-- The classes whose documentation is read meanwhile. -/
def familyDocs : List TypeId :=
  ["app.P", "app.C", "app.X", "app.Y"]

/-- With four schemas in the cache, one of them from the call that failed, the same cycle is found
as without them.  The class of the other module is known by then, but its documentation was never
read. -/
theorem schema_after_uses_cycle :
    let q := prepared familyClasses [] true familySetup
    let r := used familyClasses familyEvents q
    r.resolved.names = [attributeType, "app.P", "app.D", "app.C"] ∧
    r.names.known.has "other.Z" = true ∧
    denotesItselfIn familyClasses ["other.Z"] "app.P" = false ∧
    Harmless familyClasses familyDocs (familyEvents ++ [.use (.resolve (.id "app.Y"))]) q ∧
    (schema familyClasses (.id "app.Y") r).2.names.coherent familyClasses familyDocs = true ∧
    (schema familyClasses (.id "app.Y") r).1 = (schema familyClasses (.id "app.Y") q).1 ∧
    errorOf? (schema familyClasses (.id "app.Y") r).1 =
      some (.cycle ["app.Y", "app.X", "app.Y"]) := by
  intro q r
  let r₁ := (Use.resolve (.id "app.X")).run familyClasses q
  let r₂ := (Use.parse "@D(d: '1')" .onClass (familyClasses.scopeOf "app")).run familyClasses r₁
  have hharmless :
      Harmless familyClasses familyDocs (familyEvents ++ [.use (.resolve (.id "app.Y"))]) q := by
    obtain ⟨hfirst, hsecond, hheld, hthird, hlast⟩ :
        (Use.resolve (.id "app.X")).ReadsOnly familyClasses familyDocs q ∧
        (Use.parse "@D(d: '1')" .onClass (familyClasses.scopeOf "app")).ReadsOnly familyClasses
          familyDocs r₁ ∧
        "other.Z" ∉ (r₂.declared ++ r₂.resolved).map Prod.fst ∧
        (Use.resolve (.cls "app.C")).ReadsOnly familyClasses familyDocs r₂ ∧
        (Use.resolve (.id "app.Y")).ReadsOnly familyClasses familyDocs
          ((Use.resolve (.cls "app.C")).run familyClasses r₂) := by
      decide +kernel
    have hchange : ∀ entry ∈ r₂.declared ++ r₂.resolved, entry.1 ≠ "other.Z" :=
      fun entry hentry htype => hheld (htype ▸ List.mem_map_of_mem hentry)
    exact ⟨hfirst, hsecond, run_change fun entry hentry _ _ _ _ => if_neg (hchange entry hentry),
      hthird, hlast, trivial⟩
  obtain ⟨hresolved, hknown, hclash, hcoherent, herror⟩ :
      r.resolved.names = [attributeType, "app.P", "app.D", "app.C"] ∧
      r.names.known.has "other.Z" = true ∧
      denotesItselfIn familyClasses ["other.Z"] "app.P" = false ∧
      (schema familyClasses (.id "app.Y") r).2.names.coherent familyClasses familyDocs = true ∧
      errorOf? (schema familyClasses (.id "app.Y") r).1 =
        some (.cycle ["app.Y", "app.X", "app.Y"]) := by
    decide +kernel
  exact ⟨hresolved, hknown, hclash, hharmless, hcoherent,
    schema_after_uses familyClasses [] true familySetup familyEvents (.id "app.Y") familyDocs
      hharmless hcoherent,
    herror⟩

/-- A module in which a class has a second name.  One class declares its attribute with the type of
that name, another one with the name itself. -/
def secondNames : World where
  modules :=
    [(declaringModule, declaringMembers declaringModule),
      ("app", [("A", .cls "app.A"), ("B", .cls "app.B"), ("C", .cls "app.C"),
        ("Alias", .cls "app.B"), ("T", .typeExpr (.ref "app.Alias"))])]
  classes :=
    [(attributeType, attributeClass),
      ("app.A",
        { id := "app.A", home := "app", doc := some "@Annotation\n@Attribute('a', type: T)" }),
      ("app.B", { id := "app.B", home := "app" }),
      ("app.C",
        { id := "app.C", home := "app"
          doc := some "@Annotation\n@Attribute('a', type: 'app.Alias')" })]

/-- A module with a class that declares an empty collection as the default of an attribute. -/
def menuClass : World where
  modules :=
    [(declaringModule, declaringMembers declaringModule), ("app", [("Menu", .cls "app.Menu")])]
  classes :=
    [(attributeType, attributeClass),
      ("app.Menu",
        { id := "app.Menu", home := "app"
          doc := some "@Annotation\n@Attribute('items', default: {})" })]

/-- The contract of the first attribute of a schema that was found. -/
def firstSpec? : Except Error Schema → Option AttributeSpec
  | .ok s => s.attributes.head?.map Prod.snd
  | .error _ => none

/-- The type that an attribute refers to. -/
def referred? (spec : AttributeSpec) : Option TypeId :=
  match spec.type with
  | .ref type => some type
  | _ => none

/-- Neither condition can be dropped.  A value is checked against a type by a second name of its
class, and from then on this name stands for itself and no longer for the class.  A default that is
changed in place is changed in the cached schema. -/
theorem schema_after_uses_fails :
    (let q := prepared secondNames [] true []
      let events := [.use (.build "app.A" (.dict [(.str "a", .int 1)]) .onClass)]
      let r := used secondNames events q
      Harmless secondNames ["app.A", "app.C"] (events ++ [.use (.resolve (.id "app.C"))]) q ∧
      (firstSpec? (schema secondNames (.id "app.C") q).1).bind referred? = some "app.B" ∧
      (firstSpec? (schema secondNames (.id "app.C") r).1).bind referred? = some "app.Alias") ∧
    (let q := prepared menuClass [] true []
      let events := [.use (.resolve (.id "app.Menu")), .change fun _ _ _ => .tags [(none, .int 1)]]
      let r := used menuClass events q
      (schema menuClass (.id "app.Menu") r).2.names.coherent menuClass ["app.Menu"] = true ∧
      ((firstSpec? (schema menuClass (.id "app.Menu") q).1).bind AttributeSpec.default).map
        Value.truthy = some false ∧
      ((firstSpec? (schema menuClass (.id "app.Menu") r).1).bind AttributeSpec.default).map
        Value.truthy = some true) := by
  refine ⟨?_, by decide +kernel⟩
  intro q events r
  obtain ⟨hbuild, hresolve, hnew, hused⟩ :
      (Use.build "app.A" (.dict [(.str "a", .int 1)]) .onClass).ReadsOnly secondNames
        ["app.A", "app.C"] q ∧
      (Use.resolve (.id "app.C")).ReadsOnly secondNames ["app.A", "app.C"] r ∧
      (firstSpec? (schema secondNames (.id "app.C") q).1).bind referred? = some "app.B" ∧
      (firstSpec? (schema secondNames (.id "app.C") r).1).bind referred? = some "app.Alias" := by
    decide +kernel
  exact ⟨⟨hbuild, hresolve, trivial⟩, hnew, hused⟩

end Reader
end DocTags
