import DocTags.Proofs.Extension
import DocTags.Proofs.WellFormed

/-!
# Inheritance

The schema of a class that nobody registered is resolved along its line, the classes that it
inherits from, outermost first.  `schema_is_fold` says that it is a fold over the annotation types
of the line: each extends what came before it by its own declarations, and the ordinary classes
between them leave it as it is.

## When a class is read

What a class declares is read from its documentation, and names in there mean what the reader takes
them for at that time.  A schema in the cache was resolved by an earlier call, when the reader knew
less.  So a schema comes from what the classes of the line declared each at some *moment*, a state
between the beginning and the end of one of the calls (`Moment`, `ReadAt`).

## What the cache is good for

An ancestor is looked up in the cache by its id.  If the id can stand for another class too, the
schema of that class may be there, and it is passed on in place of the ancestor's.  `Plain` excludes
this for the ids of the line, and only for those in the cache: an ancestor that is resolved in the
same call is recorded first, and then its id stands for the ancestor itself.

`Traced` is the invariant that all calls keep (`traced_life`): what is in the cache for a plain line
was inherited along it.  Resolution keeps it if it does so on the levels below (`traces_of_lines`).
-/

namespace DocTags
namespace Reader

open Names

variable {w : World}

/-! ## What a reader keeps -/

/-- What a reader keeps in the course of a call: it learns names and caches schemas. -/
structure Grows (w : World) (r r' : Reader) : Prop where
  names : Extends (.everywhere w) r.names r'.names
  declared : r'.declared = r.declared
  readsClasses : r'.readsClasses = r.readsClasses
  resolved : ∀ type s, r.resolved.get? type = some s → r'.resolved.get? type = some s

/-- What resolution does to a reader: the types that are being resolved stay out of the cache. -/
structure Fills (w : World) (r r' : Reader) : Prop where
  grows : Grows w r r'
  stack : r'.stack = r.stack
  pending : ∀ type ∈ r.stack, r'.resolved.get? type = r.resolved.get? type

section Growth

variable {r r₁ r₂ : Reader}

lemma Grows.refl (r : Reader) : Grows w r r :=
  ⟨.refl _, rfl, rfl, fun _ _ h => h⟩

lemma Grows.trans (h : Grows w r r₁) (h₁ : Grows w r₁ r₂) : Grows w r r₂ :=
  ⟨h.names.trans h₁.names, h₁.declared.trans h.declared, h₁.readsClasses.trans h.readsClasses,
    fun type s hs => h₁.resolved type s (h.resolved type s hs)⟩

lemma Grows.opened (h : Grows w r r₁) (type : TypeId) : Grows w r (opened type r₁) :=
  ⟨h.names, h.declared, h.readsClasses, h.resolved⟩

lemma NamesOnly.grows (h : NamesOnly (.everywhere w) r r₁) : Grows w r r₁ := by
  obtain ⟨n, hn, rfl⟩ := h
  exact ⟨hn, rfl, rfl, fun _ _ h => h⟩

namespace Fills

lemma refl (r : Reader) : Fills w r r :=
  ⟨.refl r, rfl, fun _ _ => rfl⟩

lemma trans (h : Fills w r r₁) (h₁ : Fills w r₁ r₂) : Fills w r r₂ :=
  ⟨h.grows.trans h₁.grows, h₁.stack.trans h.stack, fun type htype =>
    (h₁.pending type (h.stack ▸ htype)).trans (h.pending type htype)⟩

lemma names (h : NamesOnly (.everywhere w) r r₁) : Fills w r r₁ :=
  ⟨h.grows, h.later.stack, fun _ _ => by rw [h.resolved]⟩

/-- The type that was resolved is put into the cache, where it was not before. -/
lemma grows_closed {type : TypeId} (h : Fills w (opened type r) r₁)
    (hnone : r.resolved.get? type = none) (found : Except Error (Schema × Bool)) :
    Grows w r₁ (closed type found r₁) := by
  have hpending : r₁.resolved.get? type = none :=
    (h.pending type (List.mem_append_right _ (List.mem_singleton_self type))).trans hnone
  unfold closed
  split
  · refine ⟨.refl _, rfl, rfl, fun other s hs => ?_⟩
    have hne : other ≠ type := by
      rintro rfl
      rw [hpending] at hs
      cases hs
    exact (Keyed.get?_put_of_ne _ hne _).trans hs
  · exact ⟨.refl _, rfl, rfl, fun _ _ hs => hs⟩

lemma closed {type : TypeId} (h : Fills w (opened type r) r₁)
    (hnone : r.resolved.get? type = none) (hs : type ∉ r.stack)
    (found : Except Error (Schema × Bool)) : Fills w r (closed type found r₁) := by
  have hgrows : Grows w r r₁ :=
    ⟨h.grows.names, h.grows.declared, h.grows.readsClasses, h.grows.resolved⟩
  have hpending : ∀ other ∈ r.stack, r₁.resolved.get? other = r.resolved.get? other :=
    fun other hother => h.pending other (List.mem_append_left _ hother)
  have hstack : r₁.stack.dropLast = r.stack := by
    rw [h.stack, opened, List.dropLast_concat]
  refine ⟨hgrows.trans (h.grows_closed hnone found), ?_, fun other hother => ?_⟩
  · unfold Reader.closed
    split <;> exact hstack
  · rw [← hpending other hother]
    unfold Reader.closed
    split
    · have hne : other ≠ type := by
        rintro rfl
        exact hs hother
      exact Keyed.get?_put_of_ne _ hne _
    · rfl

end Fills

lemma fills_resolveWithin (n : Nat) (asAncestor : Bool) (type : TypeId) (r : Reader) :
    Fills w r (resolveWithin w n asAncestor type r).2 := by
  induction n using Nat.strongRecOn generalizing asAncestor type r with
  | _ n ih =>
    rcases resolveWithin_cases w n asAncestor type r with
      ⟨s, -, hrun⟩ | ⟨e, hrun⟩ | ⟨m, rfl, hc, hs, hrun⟩
    · rw [hrun]
      exact .refl r
    · rw [hrun]
      exact .refl r
    · have hsteps : Steps w (resolveWithin w m) (Fills w) :=
        ⟨.refl, .trans, .names, ih m m.lt_succ_self⟩
      rw [hrun]
      exact (step_resolveBy hsteps r.declared type (opened type r)).closed hc hs _

end Growth

/-! ## Lines of classes -/

/-- The classes that a class inherits from, outermost first, and itself as the last one: each of
them is the first base class of the next. -/
inductive Line (w : World) : List TypeId → TypeId → Prop
  | root {c : TypeId} (h : w.parent? c = none) : Line w [c] c
  | next {line : List TypeId} {parent c : TypeId} (h : w.parent? c = some parent)
      (hline : Line w line parent) : Line w (line ++ [c]) c

lemma Line.mem {line : List TypeId} {c : TypeId} (h : Line w line c) : c ∈ line := by
  cases h with
  | root => exact List.mem_singleton_self c
  | next => exact List.mem_append_right _ (List.mem_singleton_self c)

/-- At one of the given moments a class was read, and this is what it declares itself. -/
def ReadAt (w : World) (M : Reader → Prop) (c : TypeId) (d : Option Declarations) : Prop :=
  ∃ r n, M r ∧ (own w (resolveWithin w n false) c c r).1 = .ok d

/-- The schema of a class is what its line passes on, by what the classes of the line declare when
they are read.  If the class is an annotation type, it has declarations of its own. -/
def Inherits (w : World) (M : Reader → Prop) (line : List TypeId) (c : TypeId) (isType : Bool)
    (s : Schema) : Prop :=
  s.parent = w.parent? c ∧ ∃ ds, List.Forall₂ (ReadAt w M) line ds ∧ s.shape = .passedOn ds ∧
    (isType = true → ∃ before d, ds = before ++ [some d])

/-- No class of a line is registered, and those in the cache are there under ids that can stand for
no other classes. -/
def Plain (w : World) (r : Reader) (line : List TypeId) : Prop :=
  ∀ c ∈ line, r.declared.get? c = none ∧
    (r.resolved.has c = true → ∀ found, StandsFor w c found → found = c)

lemma Inherits.weaken {M : Reader → Prop} {line : List TypeId} {c : TypeId} {s : Schema}
    (h : Inherits w M line c true s) (isType : Bool) : Inherits w M line c isType s := by
  obtain ⟨hparent, ds, hds, hshape, hown⟩ := h
  exact ⟨hparent, ds, hds, hshape, fun _ => hown rfl⟩

lemma Plain.of_grows {r r' : Reader} {line : List TypeId} (h : Plain w r' line)
    (hr : Grows w r r') : Plain w r line := by
  intro c hc
  obtain ⟨hnone, hcached⟩ := h c hc
  refine ⟨hr.declared ▸ hnone, fun hhas => hcached ?_⟩
  rw [Keyed.has_eq_isSome_get?] at hhas ⊢
  obtain ⟨s, hs⟩ := Option.isSome_iff_exists.1 hhas
  rw [hr.resolved c s hs, Option.isSome_some]

lemma Plain.names {r r' : Reader} {line : List TypeId} (h : Plain w r line)
    (hr' : NamesOnly (.everywhere w) r r') : Plain w r' line := by
  obtain ⟨n, hn, rfl⟩ := hr'
  exact h

/-- In a traced reader each cached schema of a class that is not registered comes from its line. -/
structure Traced (w : World) (M : Reader → Prop) (r : Reader) : Prop where
  known : ∀ type found, r.names.known.get? type = some found → StandsFor w type found
  schemas : ∀ c s line, r.resolved.get? c = some s → Line w line c → Plain w r line →
    Inherits w M line c true s

lemma Traced.opened {M : Reader → Prop} {r : Reader} (h : Traced w M r) (type : TypeId) :
    Traced w M (opened type r) :=
  ⟨h.known, h.schemas⟩

lemma Traced.names {M : Reader → Prop} {r r' : Reader} (h : Traced w M r)
    (hr' : NamesOnly (.everywhere w) r r') : Traced w M r' := by
  obtain ⟨n, hn, rfl⟩ := hr'
  exact ⟨fun type found hget => (hn.learnt type found hget).elim (h.known type found) id, h.schemas⟩

/-- All states of a reader from `q` to `r` are among the moments. -/
def Spans (w : World) (M : Reader → Prop) (q r : Reader) : Prop :=
  ∀ r₀, Grows w q r₀ → Grows w r₀ r → M r₀

lemma Spans.of_grows {M : Reader → Prop} {q r r' : Reader} (h : Spans w M q r')
    (hr : Grows w r r') : Spans w M q r :=
  fun r₀ hq hr₀ => h r₀ hq (hr₀.trans hr)

/-- What resolution does to a reader in the course of a call that began at `q`: a traced reader
stays traced. -/
structure Traces (w : World) (M : Reader → Prop) (q r r' : Reader) : Prop where
  fills : Fills w r r'
  traced : Grows w q r → Spans w M q r' → Traced w M r → Traced w M r'

namespace Traces

variable {M : Reader → Prop} {q r r₁ r₂ : Reader}

lemma refl (r : Reader) : Traces w M q r r :=
  ⟨.refl r, fun _ _ h => h⟩

lemma trans (h : Traces w M q r r₁) (h₁ : Traces w M q r₁ r₂) : Traces w M q r r₂ :=
  ⟨h.fills.trans h₁.fills, fun hq hM hr =>
    h₁.traced (hq.trans h.fills.grows) hM (h.traced hq (hM.of_grows h₁.fills.grows) hr)⟩

lemma names (h : NamesOnly (.everywhere w) r r₁) : Traces w M q r r₁ :=
  ⟨.names h, fun _ _ hr => hr.names h⟩

lemma steps {so : Oracle} (h : ∀ asAncestor type r, Traces w M q r (so asAncestor type r).2) :
    Steps w so (Traces w M q) :=
  ⟨.refl, .trans, .names, h⟩

end Traces

/-- What is known about resolution with some number of levels: it keeps a reader traced, and the
schemas of classes that are not registered come from their lines. -/
structure Lines (w : World) (M : Reader → Prop) (q : Reader) (n : Nat) : Prop where
  traces : ∀ asAncestor type r, Traces w M q r (resolveWithin w n asAncestor type r).2
  inherits : ∀ {asAncestor c r s r' line}, resolveWithin w n asAncestor c r = (.ok s, r') →
    Grows w q r → Spans w M q r' → Traced w M r → Line w line c → Plain w r line →
    (load w c r.names).1 = .ok c → Inherits w M line c (!asAncestor) s

/-! ## The class at the end of a line -/

lemma shape_of_finish {type : TypeId} {s s' : Schema} {r r' : Reader}
    (h : finish w type s r = (.ok s', r')) : s'.shape = s.shape ∧ s'.parent = s.parent := by
  unfold finish at h
  obtain ⟨u, r₁, -, h⟩ := Run.bind_eq_ok h
  obtain ⟨found, r₂, -, h⟩ := Run.bind_eq_ok h
  rw [Run.liftExcept_apply] at h
  obtain ⟨accessors, rfl, -⟩ := Schema.compile_ok (Prod.mk.inj h).1
  exact ⟨rfl, rfl⟩

lemma compose_ok {type : TypeId} {s s' : Schema} {d : Option Declarations} {isType : Bool}
    {r r' : Reader} (h : compose w type s d r = (.ok (s', isType), r')) :
    s'.shape = s.shape.pass d ∧ s'.parent = s.parent ∧ isType = d.isSome := by
  cases d with
  | none =>
    cases h
    exact ⟨rfl, rfl, rfl⟩
  | some d =>
    obtain ⟨s₁, r₁, hfinish, h⟩ := Run.bind_eq_ok h
    cases h
    obtain ⟨hshape, hparent⟩ := shape_of_finish hfinish
    refine ⟨?_, ?_, rfl⟩
    · rw [hshape, Schema.shape_withTargets, Schema.shape_extend]
      rfl
    · rw [hparent, Schema.withTargets_eq]
      rfl

/-- The classes of a line before its last one have passed on what that one starts from. -/
lemma inherited_ok {M : Reader → Prop} {q : Reader} {m : Nat} {c : TypeId} {line : List TypeId}
    {base : Schema} {r r' : Reader} (hlines : Lines w M q m)
    (h : inherited w (resolveWithin w m true) c r = (.ok base, r')) (hq : Grows w q r)
    (hM : Spans w M q r') (hr : Traced w M r) (hline : Line w line c) (hplain : Plain w r line) :
    base.parent = w.parent? c ∧ ∃ before ds, line = before ++ [c] ∧
      List.Forall₂ (ReadAt w M) before ds ∧ base.shape = .passedOn ds := by
  unfold inherited at h
  cases hline with
  | root hnone =>
    rw [hnone] at h ⊢
    cases h
    exact ⟨rfl, [], [], rfl, .nil, rfl⟩
  | @next before parent _ hparent hbefore =>
    rw [hparent] at h ⊢
    dsimp only at h
    obtain ⟨u, r₁, hremember, h⟩ := Run.bind_eq_ok h
    obtain ⟨s, r₂, hs, h⟩ := Run.bind_eq_ok h
    cases h
    obtain rfl : { r with names := r.names.remember parent } = r₁ := congrArg Prod.snd hremember
    have hr₁ : NamesOnly (.everywhere w) r { r with names := r.names.remember parent } :=
      ⟨_, .put r.names (.inl rfl), rfl⟩
    -- The parent has just been recorded, so its id stands for the class itself.
    have hload : (load w parent (r.names.remember parent)).1 = .ok parent := by
      rw [load_eq, Names.remember, Keyed.get?_put_self]
    have hplain' : Plain w r before := fun c hc => hplain c (List.mem_append_left _ hc)
    obtain ⟨-, ds, hds, hshape, -⟩ :=
      hlines.inherits hs (hq.trans hr₁.grows) hM (hr.names hr₁) hbefore hplain' hload
    exact ⟨rfl, before, ds, rfl, hds, hshape⟩

section Line

variable {M : Reader → Prop} {q : Reader} {m : Nat}

/-- The schema of a class comes from its line if those of its ancestors do, and if its id is loaded
as the class itself. -/
lemma introspect_ok {c : TypeId} {line : List TypeId} {s : Schema} {isType : Bool} {r r' : Reader}
    (hlines : Lines w M q m)
    (h : introspect w (resolveWithin w m false) (resolveWithin w m true) c r =
      (.ok (s, isType), r'))
    (hq : Grows w q r) (hM : Spans w M q r') (hr : Traced w M r) (hline : Line w line c)
    (hplain : Plain w r line) (hload : (load w c r.names).1 = .ok c) :
    Inherits w M line c isType s := by
  rw [introspect_eq] at h
  obtain ⟨found, r₁, hfound, h⟩ := Run.bind_eq_ok h
  obtain rfl : c = found := by
    have hfound' : (load w c r.names).1 = .ok found := congrArg Prod.fst hfound
    exact Except.ok.inj (hload.symm.trans hfound')
  obtain ⟨base, r₂, hbase, h⟩ := Run.bind_eq_ok h
  obtain ⟨d, r₃, hd, h⟩ := Run.bind_eq_ok h
  have hsteps := Traces.steps hlines.traces
  have hquiet : Quiet (.everywhere w) (onNames (load w c)) :=
    quiet_onNames (uniform_load (p := True) c)
  have hr₁ := hquiet r
  have hr₂ := (inquires_inherited c).step hsteps r₁
  have hr₃ := (inquires_own c c).step hsteps r₂
  have hr' := (inquires_compose c base d).step hsteps r₃
  rw [hfound] at hr₁
  rw [hbase] at hr₂
  rw [hd] at hr₃
  rw [h] at hr'
  have hend := hr₃.fills.grows.trans hr'.fills.grows
  have hbegin := hq.trans (hr₁.grows.trans hr₂.fills.grows)
  obtain ⟨hparent, before, ds, rfl, hds, hshape⟩ := inherited_ok hlines hbase (hq.trans hr₁.grows)
    (hM.of_grows hend) (hr.names hr₁) hline (hplain.names hr₁)
  obtain ⟨hpass, hparent', hisType⟩ := compose_ok h
  refine ⟨hparent'.trans hparent, ds ++ [d], ?_, ?_, fun hmarked => ?_⟩
  · exact List.rel_append hds (.cons ⟨r₂, m, hM r₂ hbegin hend, congrArg Prod.fst hd⟩ .nil)
  · rw [hpass, hshape, Schema.passedOn_concat]
  · obtain ⟨d', rfl⟩ := Option.isSome_iff_exists.1 (hisType.symm.trans hmarked)
    exact ⟨ds, d', rfl⟩

/-- A class that is not registered is resolved from its class. -/
lemma resolveBy_unregistered {declared : Keyed Schema} {type : TypeId} (so : Oracle)
    (h : declared.get? type = none) :
    resolveBy w declared type so = introspect w (so false) (so true) type := by
  rw [resolveBy, h, resolveFresh]

lemma Traced.closed {r : Reader} {type : TypeId} {found : Except Error (Schema × Bool)}
    (hr : Traced w M r) (hgrows : Grows w r (closed type found r))
    (htype : ∀ s line, found = .ok (s, true) → Line w line type →
      Plain w (closed type found r) line → Inherits w M line type true s) :
    Traced w M (closed type found r) := by
  refine ⟨?_, fun c s line hget hline hplain => ?_⟩
  · rw [closed_names]
    exact hr.known
  · by_cases hnew : ∃ s', found = .ok (s', true) ∧ c = type
    · obtain ⟨s', rfl, rfl⟩ := hnew
      rw [Reader.closed, Keyed.get?_put_self] at hget
      obtain rfl := Option.some.inj hget
      exact htype s' line rfl hline hplain
    · refine hr.schemas c s line ?_ hline (hplain.of_grows hgrows)
      unfold Reader.closed at hget
      split at hget
      · next s' =>
        have hne : c ≠ type := fun heq => hnew ⟨s', rfl, heq⟩
        rwa [Keyed.get?_put_of_ne _ hne] at hget
      · exact hget

/-- A schema that is resolved afresh comes from the line of its class. -/
lemma Lines.fresh (h : Lines w M q m) {c : TypeId} {line : List TypeId} {s : Schema} {isType : Bool}
    {r r₁ : Reader}
    (hres : resolveBy w r.declared c (resolveWithin w m) (opened c r) = (.ok (s, isType), r₁))
    (hq : Grows w q r) (hM : Spans w M q r₁) (hr : Traced w M r) (hline : Line w line c)
    (hplain : Plain w r line) (hload : (load w c r.names).1 = .ok c) :
    Inherits w M line c isType s := by
  rw [resolveBy_unregistered _ (hplain c hline.mem).1] at hres
  exact introspect_ok h hres (hq.opened c) hM (hr.opened c) hline hplain hload

/-- A class that is resolved afresh is the one that its id is loaded as. -/
lemma load_of_resolveBy {declared : Keyed Schema} {type : TypeId} {so : Oracle}
    {found : Schema × Bool} {r r' : Reader} (hnone : declared.get? type = none)
    (h : resolveBy w declared type so (opened type r) = (.ok found, r')) :
    ∃ c, (load w type r.names).1 = .ok c := by
  rw [resolveBy_unregistered _ hnone, introspect_eq] at h
  obtain ⟨c, r₁, hc, -⟩ := Run.bind_eq_ok h
  exact ⟨c, congrArg Prod.fst hc⟩

/-- Resolution keeps a reader traced if the levels below do. -/
lemma traces_of_lines {n : Nat} (h : ∀ m < n, Lines w M q m) (asAncestor : Bool) (type : TypeId)
    (r : Reader) : Traces w M q r (resolveWithin w n asAncestor type r).2 := by
  refine ⟨fills_resolveWithin n asAncestor type r, fun hq hM hr => ?_⟩
  rcases resolveWithin_cases w n asAncestor type r with
    ⟨s, -, hrun⟩ | ⟨e, hrun⟩ | ⟨m, rfl, hc, hs, hrun⟩
  · rwa [hrun]
  · rwa [hrun]
  have hm := h m m.lt_succ_self
  have hstep := step_resolveBy (Traces.steps hm.traces) r.declared type (opened type r)
  rw [hrun] at hM ⊢
  rcases hres : resolveBy w r.declared type (resolveWithin w m) (opened type r) with ⟨found, r₁⟩
  rw [hres] at hM hstep
  have hclosed := hstep.fills.grows_closed hc found
  have hr₁ := hstep.traced (hq.opened type) (hM.of_grows hclosed) (hr.opened type)
  refine hr₁.closed hclosed fun s line hfound hline hplain => ?_
  subst hfound
  have hgrows : Grows w r (closed type (.ok (s, true)) r₁) :=
    ((Grows.refl r).opened type).trans (hstep.fills.grows.trans hclosed)
  have hplain' : Plain w r line := hplain.of_grows hgrows
  -- The type is in the cache now, so its id can stand for no class but its own.
  have hload : (load w type r.names).1 = .ok type := by
    obtain ⟨c, hload⟩ := load_of_resolveBy (hplain' type hline.mem).1 hres
    have hcached : (closed type (.ok (s, true)) r₁).resolved.has type = true := by
      rw [closed, Keyed.has_put, beq_self_eq_true, Bool.true_or]
    rw [hload, (hplain type hline.mem).2 hcached c (standsFor_of_load hr.known hload)]
  exact hm.fresh hres hq (hM.of_grows hclosed) hr hline hplain' hload

/-- A schema comes from the line of its class if this is so on the levels below. -/
lemma inherits_of_lines {n : Nat} (h : ∀ m < n, Lines w M q m) {asAncestor : Bool} {c : TypeId}
    {r r' : Reader} {s : Schema} {line : List TypeId}
    (hend : resolveWithin w n asAncestor c r = (.ok s, r')) (hq : Grows w q r)
    (hM : Spans w M q r') (hr : Traced w M r) (hline : Line w line c) (hplain : Plain w r line)
    (hload : (load w c r.names).1 = .ok c) : Inherits w M line c (!asAncestor) s := by
  rcases resolveWithin_cases w n asAncestor c r with
    ⟨s', hs', hrun⟩ | ⟨e, hrun⟩ | ⟨m, rfl, hc, hs, hrun⟩
  · rw [hrun] at hend
    cases hend
    exact (hr.schemas c _ line hs' hline hplain).weaken _
  · rw [hrun] at hend
    cases hend
  have hm := h m m.lt_succ_self
  have hstep := step_resolveBy (Traces.steps hm.traces) r.declared c (opened c r)
  rw [hrun] at hend
  rcases hres : resolveBy w r.declared c (resolveWithin w m) (opened c r) with ⟨found, r₁⟩
  rw [hres] at hend hstep
  obtain ⟨hfound, rfl⟩ := Prod.mk.inj hend
  rcases found with e | ⟨s', isType⟩
  · cases hfound
  have hclosed := hstep.fills.grows_closed hc (.ok (s', isType))
  have hinherits : Inherits w M line c isType s' :=
    hm.fresh hres hq (hM.of_grows hclosed) hr hline hplain hload
  -- An ordinary class is good enough for an ancestor only.
  cases isType with
  | true =>
    obtain rfl : s' = s := Except.ok.inj hfound
    exact hinherits.weaken _
  | false =>
    cases asAncestor with
    | true =>
      obtain rfl : s' = s := Except.ok.inj hfound
      exact hinherits
    | false => cases hfound

lemma lines_resolveWithin (n : Nat) : Lines w M q n := by
  induction n using Nat.strongRecOn with
  | _ n ih => exact ⟨traces_of_lines ih, inherits_of_lines ih⟩

end Line

/-! ## Lives of readers -/

section Life

variable {M : Reader → Prop} {r : Reader}

lemma traced_setup (c : Setup) (hr : Traced w M r) : Traced w M (c.run w r) := by
  obtain ⟨r₁, hr₁, hrun | ⟨key, s, hrun⟩ | ⟨key, short, hrun⟩⟩ := setup_cases w c r
  · rw [hrun]
    exact hr.names hr₁
  · have htraced := hr.names hr₁
    rw [hrun]
    refine ⟨htraced.known, fun c s' line hget hline hplain => ?_⟩
    -- The line has no registered class, so it does not have the one that is registered now.
    have hne : ∀ c' ∈ line, c' ≠ key := by
      rintro c' hc' rfl
      have hnone := (hplain c' hc').1
      rw [register, Keyed.get?_put_self] at hnone
      cases hnone
    refine htraced.schemas c s' line ?_ hline fun c' hc' => ⟨?_, fun hhas => ?_⟩
    · rwa [register, Keyed.get?_erase_of_ne _ (hne c hline.mem)] at hget
    · have hnone := (hplain c' hc').1
      rwa [register, Keyed.get?_put_of_ne _ (hne c' hc')] at hnone
    · refine (hplain c' hc').2 ?_
      rwa [register, Keyed.has_eq_isSome_get?, Keyed.get?_erase_of_ne _ (hne c' hc'),
        ← Keyed.has_eq_isSome_get?]
  · have htraced := hr.names hr₁
    rw [hrun]
    exact ⟨htraced.known, htraced.schemas⟩

lemma traced_run (a : Act) (hM : Spans w M r (a.run w r)) (hr : Traced w M r) :
    Traced w M (a.run w r) := by
  cases a with
  | setup c => exact traced_setup c hr
  | use u =>
    have hsteps : ∀ n, Steps w (resolveWithin w n) (Traces w M r) := fun n =>
      Traces.steps (lines_resolveWithin n).traces
    rcases step_use hsteps u r with hstep | hclear
    · exact hstep.traced (.refl r) hM hr
    · rw [Act.run, hclear]
      exact ⟨hr.known, fun _ _ _ hget => nomatch hget⟩

/-- The states that a reader may have had in the course of some calls: those between the beginning
and the end of one of them. -/
def Moment (w : World) (acts : List Act) (r r₀ : Reader) : Prop :=
  ∃ before a, before ++ [a] <+: acts ∧ Grows w (life w before r) r₀ ∧
    Grows w r₀ (life w (before ++ [a]) r)

lemma spans_moment {acts before : List Act} {a : Act} (h : before ++ [a] <+: acts) (r : Reader) :
    Spans w (Moment w acts r) (life w before r) (a.run w (life w before r)) := by
  intro r₀ hbegin hend
  rw [← life_concat] at hend
  exact ⟨before, a, h, hbegin, hend⟩

lemma traced_life {acts before : List Act} (hr : Traced w (Moment w acts r) r)
    (h : before <+: acts) : Traced w (Moment w acts r) (life w before r) := by
  induction before using List.reverseRecOn with
  | nil => exact hr
  | append_singleton before a ih =>
    rw [life_concat]
    exact traced_run a (spans_moment h r) (ih ((List.prefix_append before [a]).trans h))

lemma traced_start (M : Reader → Prop) (imports : Keyed TypeId) (reads : Bool) :
    Traced w M (start imports reads) :=
  ⟨fun type found hget => .inl (known_self_start imports reads type found hget),
    fun _ _ _ hget => nomatch hget⟩

end Life

/-- Inheritance is a fold over the line of a class, whatever calls were made before.  The schema is
what comes of extending the empty one by what the annotation types of the line declare, from the
first to the last, and a placement on classes if none of them declares one.  So the attributes are
in the order in which they are introduced along the line, those of each ancestor's schema first and
without a loss, and the placement, the default attribute and the constructor are those of the last
class that declares them. -/
theorem schema_is_fold (w : World) (imports : Keyed TypeId) (reads : Bool) (acts : List Act)
    (type : TypeArg) (line : List TypeId) (s : Schema) :
    let r := life w acts (start imports reads)
    let M := Moment w (acts ++ [.use (.resolve type)]) (start imports reads)
    Line w line type.key → Plain w r line →
    (load w type.key (keyOf type r).2.names).1 = .ok type.key → (schema w type r).1 = .ok s →
    ∃ ds, List.Forall₂ (ReadAt w M) line ds ∧
      s.shape = (ds.reduceOption.foldl Schema.extend { targets := .nowhere }).withTargets ∧
      s.parent = w.parent? type.key ∧
      s.attributes.names = (ds.reduceOption.flatMap Declarations.names).eraseDups ∧
      (∀ k, (Schema.passedOn (ds.take k)).attributes.names <+: s.attributes.names) ∧
      s.targets = ((ds.reduceOption.map Declarations.targets).filter (· != .nowhere)).getLastD
        .onClass ∧
      s.defaultAttribute = (ds.reduceOption.filterMap Declarations.defaultAttribute).getLast? ∧
      s.constructor =
        (ds.reduceOption.filterMap Declarations.params).getLast?.bind paramNames? := by
  intro r M hline hplain hclass hs
  have hM : Spans w M r (schema w type r).2 :=
    spans_moment (w := w) (List.prefix_refl (acts ++ [.use (.resolve type)])) (start imports reads)
  have hr : Traced w M r :=
    traced_life (traced_start M imports reads) (List.prefix_append acts _)
  obtain ⟨r₁, hkey, hr₁, hrun⟩ := schema_eq (w := w) type r
  rw [hkey] at hclass
  obtain ⟨hparent, ds, hds, hshape, hown⟩ := (lines_resolveWithin _).inherits
    (hrun.symm.trans (Prod.ext hs rfl)) hr₁.grows hM (hr.names hr₁) hline (hplain.names hr₁) hclass
  obtain ⟨before, d, rfl⟩ := hown rfl
  have hmarked : (before ++ [some d]).reduceOption ≠ [] := by
    rw [List.reduceOption_append]
    simp
  generalize before ++ [some d] = ds at hds hshape hmarked
  have hfold := hshape.trans (Schema.passedOn_eq hmarked)
  refine ⟨ds, hds, hfold, hparent, ?_, fun k => ?_, ?_, ?_, ?_⟩
  · exact (congrArg (·.attributes.names) hshape).trans (Schema.names_passedOn ds)
  · exact (congrArg (·.attributes.names) hshape) ▸ Schema.names_passedOn_take ds k
  · exact (congrArg Schema.targets hfold).trans (Schema.targets_foldl_withTargets _)
  · exact (congrArg Schema.defaultAttribute hfold).trans
      (Schema.defaultAttribute_foldl_withTargets _)
  · exact (congrArg Schema.constructor hfold).trans (Schema.constructor_foldl_withTargets _)

/-- An annotation type, an ordinary subclass of it and an annotation type on top of that one. -/
def lineClasses : World where
  modules :=
    [(declaringModule, declaringMembers declaringModule),
      ("app", [("A", .cls "app.A"), ("B", .cls "app.B"), ("C", .cls "app.C")])]
  classes :=
    [(attributeType, attributeClass),
      ("app.A", { id := "app.A", home := "app", doc := some "@Annotation\n@Attribute('a')" }),
      ("app.B", { id := "app.B", home := "app", bases := ["app.A"],
                  doc := some "@Attribute('b')" }),
      ("app.C", { id := "app.C", home := "app", bases := ["app.B"],
                  doc := some "@Annotation\n@Attribute('c')\n@DefaultAttribute a" })]

/-- The first class of the line has been resolved before, so its schema comes from the cache. -/
theorem schema_is_fold_line :
    let r := life lineClasses [.use (.resolve (.id "app.A"))] (start [] true)
    r.resolved.names = [attributeType, "app.A"] ∧
    Line lineClasses ["app.A", "app.B", "app.C"] "app.C" ∧
    Plain lineClasses r ["app.A", "app.B", "app.C"] ∧
    (load lineClasses "app.C" (keyOf (.id "app.C") r).2.names).1 = .ok "app.C" ∧
    ∃ s, ∃ ds : List (Option Declarations),
      (schema lineClasses (.id "app.C") r).1 = .ok s ∧ ds.length = 3 ∧
      s.shape = (ds.reduceOption.foldl Schema.extend { targets := .nowhere }).withTargets ∧
      s.attributes.names = (ds.reduceOption.flatMap Declarations.names).eraseDups ∧
      s.attributes.names = ["a", "c"] ∧ s.defaultAttribute = some "a" := by
  intro r
  have hline : Line lineClasses ["app.A", "app.B", "app.C"] "app.C" :=
    @Line.next _ ["app.A", "app.B"] _ _ rfl (@Line.next _ ["app.A"] _ _ rfl (.root rfl))
  have hpaths : ∀ c ∈ ["app.A", "app.B", "app.C"], typeAt? lineClasses [] c = some c := by
    decide +kernel
  obtain ⟨hcache, hdeclared, hload⟩ : r.resolved.names = [attributeType, "app.A"] ∧
      (∀ c ∈ ["app.A", "app.B", "app.C"], (r.declared.get? c).isNone = true) ∧
      (load lineClasses "app.C" (keyOf (.id "app.C") r).2.names).1 = .ok "app.C" := by
    rw [load_eq]
    decide +kernel
  have hparts : (schema lineClasses (.id "app.C") r).1.toOption.map
      (fun s => (s.attributes.names, s.defaultAttribute)) = some (["a", "c"], some "a") := by
    decide +kernel
  have hplain : Plain lineClasses r ["app.A", "app.B", "app.C"] := by
    refine fun c hc => ⟨Option.isNone_iff_eq_none.1 (hdeclared c hc), fun _ found hfound => ?_⟩
    rcases hfound with rfl | hfound
    · rfl
    · exact Option.some.inj (hfound.symm.trans (hpaths c hc))
  cases hs : (schema lineClasses (.id "app.C") r).1 with
  | error e =>
    rw [hs] at hparts
    cases hparts
  | ok s =>
    rw [hs] at hparts
    obtain ⟨hnames, hdefault⟩ := Prod.mk.inj (Option.some.inj hparts)
    obtain ⟨ds, hds, hshape, -, hattributes, -⟩ := schema_is_fold lineClasses [] true
      [.use (.resolve (.id "app.A"))] (.id "app.C") _ s hline hplain hload hs
    exact ⟨hcache, hline, hplain, hload, s, ds, rfl, hds.length_eq.symm, hshape,
      hattributes, hnames, hdefault⟩

end Reader
end DocTags
