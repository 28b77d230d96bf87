import DocTags.Proofs.Deliveries
import DocTags.Proofs.Inheritance

/-!
# How constructors are called

A class that nobody registered takes the parameters of its annotation type from its constructor, own
or inherited.  A parameter is required unless a default is recorded for it or it may be null
(`AttributeSpec.Settled`), and what is required has to be supplied.  So there is a value for each
place of the constructor: a supplied one, a recorded default, or a null that the attribute allows
(`Build.Filling`).

If the class has a constructor, it decides alone.  If it has none, neither have the classes that it
inherits from, for their ancestors are its own (`World.Coherent`), and nothing is passed to it.  But
a schema in the cache is found by an id, and an id that can stand for two classes may bring the
parameters of a stranger; `Unmistakable` excludes this.

The main result is `constructor_call_fits`.
-/

namespace DocTags

/-! ## Signatures -/

namespace Constructor

/-- The parameters that take arguments by place. -/
def places (c : Constructor) : List Param :=
  c.params.filter Param.isPositional

/-- A signature as programs write them, which can be called with arguments by place only: names are
distinct, the places come first, and parameters that take arguments by name only are optional. -/
structure Callable (c : Constructor) : Prop where
  distinct : (c.params.map Param.name).Nodup
  ordered : ∃ others, c.params = c.places ++ others ∧ ∀ p ∈ others, p.isPositional = false
  optional : ∀ p ∈ c.params, p.kind = .keywordOnly → p.default.isSome = true

lemma bindArgs_place {p : Param} (h : p.isPositional = true) (ps : List Param) (arg : Value)
    (args : List Value) :
    bindArgs (p :: ps) (arg :: args) = (bindArgs ps args).map ((p.name, arg) :: ·) := by
  obtain ⟨name, kind, default⟩ := p
  cases kind with
  | normal | positionalOnly =>
    rw [bindArgs.eq_def]
    dsimp only
    cases bindArgs ps args <;> rfl
  | keywordOnly | varPositional | varKeyword => cases h

/-- Each place gets its argument, and the parameters behind them get none. -/
lemma bindArgs_append {ps : List Param} (hps : ∀ p ∈ ps, p.isPositional = true) (qs : List Param)
    {args : List Value} (hargs : args.length = ps.length) :
    bindArgs (ps ++ qs) args = (bindArgs qs []).map ((ps.map Param.name).zip args ++ ·) := by
  induction ps generalizing args with
  | nil =>
    rw [List.length_eq_zero_iff.1 hargs, List.nil_append]
    cases bindArgs qs [] <;> rfl
  | cons p ps ih =>
    cases args with
    | nil => cases hargs
    | cons arg args =>
      rw [List.forall_mem_cons] at hps
      rw [List.cons_append, bindArgs_place hps.1, ih hps.2 (Nat.succ.inj hargs)]
      cases bindArgs qs [] <;> rfl

/-- Parameters that take no argument by place need none, if those taken by name are optional. -/
lemma bindArgs_nil_ok {qs : List Param} (hqs : ∀ p ∈ qs, p.isPositional = false)
    (hoptional : ∀ p ∈ qs, p.kind = .keywordOnly → p.default.isSome = true) :
    ∃ bound, bindArgs qs [] = .ok bound := by
  induction qs with
  | nil => exact ⟨[], rfl⟩
  | cons q qs ih =>
    rw [List.forall_mem_cons] at hqs hoptional
    obtain ⟨bound, hbound⟩ := ih hqs.2 hoptional.2
    obtain ⟨name, kind, default⟩ := q
    rw [bindArgs.eq_def]
    cases kind with
    | normal | positionalOnly => cases hqs.1
    | varPositional | varKeyword =>
      dsimp only
      rw [hbound]
      exact ⟨_, rfl⟩
    | keywordOnly =>
      obtain ⟨v, rfl⟩ := Option.isSome_iff_exists.1 (hoptional.1 rfl)
      dsimp only
      rw [hbound]
      exact ⟨_, rfl⟩

/-- As many arguments as there are places are bound to them in their order. -/
lemma Callable.bindArgs_ok {c : Constructor} (h : c.Callable) {args : List Value}
    (hargs : args.length = c.places.length) :
    ∃ rest, bindArgs c.params args = .ok ((c.places.map Param.name).zip args ++ rest) := by
  obtain ⟨others, hparams, hothers⟩ := h.ordered
  have hoptional : ∀ p ∈ others, p.kind = .keywordOnly → p.default.isSome = true := by
    intro p hp
    apply h.optional
    rw [hparams]
    exact List.mem_append_right _ hp
  have hplaces : ∀ p ∈ c.places, p.isPositional = true := fun p hp => (List.mem_filter.1 hp).2
  obtain ⟨rest, hrest⟩ := bindArgs_nil_ok hothers hoptional
  refine ⟨rest, ?_⟩
  rw [hparams, bindArgs_append hplaces others hargs, hrest]
  rfl

end Constructor

/-! ## What schemas have from signatures -/

/-- The attribute is required exactly if nothing can take the place of a value. -/
def AttributeSpec.Settled (spec : AttributeSpec) : Prop :=
  spec.required = (spec.default.isNone && !spec.nullable)

namespace Schema

/-- The parameters of a constructor are settled when all of them have been added. -/
lemma settled_foldl_addParam {params : List Param} {attributes : Keyed AttributeSpec}
    {name : String}
    (h : name ∈ params.map Param.name ∨ ∃ spec, attributes.get? name = some spec ∧ spec.Settled) :
    ∃ spec, (params.foldl addParam attributes).get? name = some spec ∧ spec.Settled := by
  induction params generalizing attributes with
  | nil => exact h.resolve_left List.not_mem_nil
  | cons p params ih =>
    refine ih ?_
    -- A parameter that comes later does not undo this: either it has another name, or it settles
    -- the attribute anew.
    by_cases hname : name = p.name
    · subst hname
      exact .inr ⟨_, Keyed.get?_put_self _ _ _, rfl⟩
    · refine h.imp (fun hmem => ?_) ?_
      · exact (List.mem_cons.1 hmem).resolve_left hname
      · rintro ⟨spec, hget, hspec⟩
        exact ⟨spec, (Keyed.get?_put_of_ne _ hname _).trans hget, hspec⟩

lemma constructor_passedOn (ds : List (Option Declarations)) :
    (passedOn ds).constructor =
      (ds.reduceOption.filterMap Declarations.params).getLast?.bind paramNames? := by
  by_cases h : ds.reduceOption = []
  · rw [passedOn_of_none h, h]
    rfl
  · rw [passedOn_eq h]
    exact constructor_foldl_withTargets _

end Schema

/-- The ancestors of the first base class of a class are ancestors of the class.  Programs have no
class whose bases cannot be brought into such an order. -/
def World.Coherent (w : World) : Prop :=
  ∀ entry ∈ w.classes, ∀ parent ∈ entry.2.bases.head?,
    ∀ c ∈ w.ancestry parent, c ∈ w.ancestry entry.1

/-- The places of the constructor of a class; without one there are none. -/
def World.places (w : World) (c : TypeId) : List Param :=
  (w.constructor? c).elim [] Constructor.places

namespace Reader

open Names

variable {w : World}

/-! ## Constructors along a line -/

/-- A class without a constructor inherits from classes without constructors. -/
lemma Line.constructor?_eq_none (hw : w.Coherent) {line : List TypeId} {c : TypeId}
    (h : Line w line c) (hnone : w.constructor? c = none) :
    ∀ c' ∈ line, w.constructor? c' = none := by
  induction h with
  | root => exact List.forall_mem_singleton.2 hnone
  | @next line parent c hparent _ ih =>
    have hup : w.constructor? parent = none := by
      unfold World.parent? at hparent
      obtain ⟨found, hfound, hbase⟩ := Option.bind_eq_some_iff.1 hparent
      have hsub := hw _ (Keyed.mem_of_get? hfound) parent hbase
      unfold World.constructor? at hnone ⊢
      rw [List.findSome?_eq_none_iff] at hnone ⊢
      exact fun ancestor hancestor => hnone ancestor (hsub ancestor hancestor)
    exact List.forall_mem_append.2 ⟨ih hup, List.forall_mem_singleton.2 hnone⟩

/-- A class declares the places of its constructor, whenever it is read. -/
lemma params_of_readAt {M : Reader → Prop} {c : TypeId} {d : Declarations}
    (h : ReadAt w M c (some d)) : d.params = (w.constructor? c).map Constructor.places := by
  obtain ⟨r, n, -, hown⟩ := h
  rcases hrun : own w (resolveWithin w n false) c c r with ⟨result, r'⟩
  rw [hrun] at hown
  obtain rfl : result = .ok (some d) := hown
  obtain ⟨comment, r₁, -, hrun⟩ := Run.bind_eq_ok hrun
  split at hrun
  · obtain ⟨d', r₂, hd, hrun⟩ := Run.bind_eq_ok hrun
    cases hrun
    obtain ⟨attributes, r₃, -, hd⟩ := Run.bind_eq_ok hd
    obtain ⟨targets, r₄, -, hd⟩ := Run.bind_eq_ok hd
    obtain ⟨defaultAttribute, r₅, -, hd⟩ := Run.bind_eq_ok hd
    cases hd
    rfl
  · cases hrun

/-- A line without constructors declares none. -/
lemma filterMap_params_eq_nil {M : Reader → Prop} {line : List TypeId}
    {ds : List (Option Declarations)} (hds : List.Forall₂ (ReadAt w M) line ds)
    (hnone : ∀ c ∈ line, w.constructor? c = none) :
    ds.reduceOption.filterMap Declarations.params = [] := by
  induction hds with
  | nil => rfl
  | @cons c d line ds hd _ ih =>
    rw [List.forall_mem_cons] at hnone
    cases d with
    | none =>
      rw [List.reduceOption_cons_of_none]
      exact ih hnone.2
    | some d =>
      have hparams : d.params = none := by
        rw [params_of_readAt hd, hnone.1]
        rfl
      rw [List.reduceOption_cons_of_some, List.filterMap_cons_none hparams]
      exact ih hnone.2

lemma readAt_last {M : Reader → Prop} {line : List TypeId} {c : TypeId}
    {before : List (Option Declarations)} {d : Option Declarations} (hline : Line w line c)
    (hds : List.Forall₂ (ReadAt w M) line (before ++ [d])) : ReadAt w M c d := by
  obtain ⟨init, rfl⟩ : ∃ init, line = init ++ [c] := by
    cases hline with
    | root => exact ⟨[], rfl⟩
    | next => exact ⟨_, rfl⟩
  rw [← List.forall₂_reverse_iff, List.reverse_concat, List.reverse_concat] at hds
  exact (List.forall₂_cons.1 hds).1

/-- The schema of a class with a constructor has its places, and settled attributes for them. -/
lemma Inherits.places_of_constructor {M : Reader → Prop} {line : List TypeId} {c : TypeId}
    {s : Schema} {k : Constructor} (h : Inherits w M line c true s) (hline : Line w line c)
    (hc : w.constructor? c = some k) :
    s.constructor.getD [] = k.places.map Param.name ∧
      ∀ p ∈ k.places, ∃ spec, s.attributes.get? p.name = some spec ∧ spec.Settled := by
  obtain ⟨-, ds, hds, hshape, hown⟩ := h
  obtain ⟨before, d, rfl⟩ := hown rfl
  have hparams := params_of_readAt (readAt_last hline hds)
  rw [hc, Option.map_some] at hparams
  have hconstructor : s.constructor = _ :=
    (congrArg Schema.constructor hshape).trans (Schema.constructor_passedOn _)
  have hattributes : s.attributes = ((Schema.passedOn before).extend d).attributes := by
    have hlast := congrArg Schema.attributes hshape
    rw [Schema.passedOn_concat, Schema.pass, Schema.withTargets_eq] at hlast
    exact hlast
  have hlast : ((before ++ [some d]).reduceOption.filterMap Declarations.params).getLast? =
      some k.places := by
    simp [List.reduceOption_append, hparams]
  rw [hconstructor, hattributes, hlast]
  refine ⟨?_, fun p hp => Schema.settled_foldl_addParam (.inl ?_)⟩
  · cases k.places <;> rfl
  · rw [hparams]
    exact List.mem_map_of_mem hp

/-- The schema of a class has the places of its constructor, and settled attributes for them. -/
lemma Inherits.places {M : Reader → Prop} {line : List TypeId} {c : TypeId} {s : Schema}
    (h : Inherits w M line c true s) (hw : w.Coherent) (hline : Line w line c) :
    s.constructor.getD [] = (w.places c).map Param.name ∧
      ∀ p ∈ w.places c, ∃ spec, s.attributes.get? p.name = some spec ∧ spec.Settled := by
  rw [World.places]
  cases hc : w.constructor? c with
  | some k => exact h.places_of_constructor hline hc
  | none =>
    obtain ⟨-, ds, hds, hshape, -⟩ := h
    have hconstructor : s.constructor = _ :=
      (congrArg Schema.constructor hshape).trans (Schema.constructor_passedOn _)
    rw [hconstructor, filterMap_params_eq_nil hds (hline.constructor?_eq_none hw hc)]
    exact ⟨rfl, nofun⟩

/-! ## Resolved schemas -/

/-- A type that is resolved and not registered can be loaded. -/
lemma load_of_resolved {n : Nat} {type : TypeId} {s : Schema} {r r' : Reader}
    (hknown : ∀ type s, r.resolved.get? type = some s → r.names.known.has type = true)
    (hnone : r.declared.get? type = none) (h : resolveWithin w n false type r = (.ok s, r')) :
    ∃ c, (load w type r.names).1 = .ok c := by
  rcases resolveWithin_cases w n false type r with
    ⟨s', hs', hrun⟩ | ⟨e, hrun⟩ | ⟨m, rfl, -, -, hrun⟩
  · obtain ⟨c, hc⟩ := load_of_known (w := w) (hknown type s' hs')
    exact ⟨c, congrArg Prod.fst hc⟩
  · cases hrun.symm.trans h
  · rw [hrun] at h
    rcases hres : resolveBy w r.declared type (resolveWithin w m) (opened type r) with ⟨found, r₁⟩
    rw [hres] at h
    rcases found with e | found
    · cases h
    · exact load_of_resolveBy hnone hres

/-- No class of a line is registered, and the ids of the classes can stand for no others. -/
def Unmistakable (w : World) (r : Reader) (line : List TypeId) : Prop :=
  ∀ c ∈ line, r.declared.get? c = none ∧ ∀ found, StandsFor w c found → found = c

/-- What the classes of a plain line declare is read in the course of the calls, the last of which
resolves the type. -/
lemma inherits_of_plain {imports : Keyed TypeId} {reads : Bool} {acts : List Act} {type : TypeId}
    {line : List TypeId} {s : Schema} {r r₁ : Reader} (hr : r = life w acts (start imports reads))
    (hline : Line w line type) (hplain : Plain w r line)
    (hself : ∀ found, StandsFor w type found → found = type)
    (h : resolveSchema w type r = (.ok s, r₁)) :
    Inherits w (Moment w (acts ++ [.use (.resolve (.id type))]) (start imports reads)) line type
      true s := by
  have hwarranted := warranted_life (w := w) warrant_finished acts (warranted_start imports reads)
  have hM := spans_moment (w := w) (List.prefix_refl (acts ++ [.use (.resolve (.id type))]))
    (start imports reads)
  have htraced := traced_life (w := w) (traced_start _ imports reads)
    (List.prefix_append acts [.use (.resolve (.id type))])
  rw [← hr] at hwarranted htraced hM
  have hschema : schema w (.id type) r = resolveSchema w type r := by
    rw [schema, keyOf, Run.bind_ok (Run.pure_apply type r)]
  rw [Act.run, Use.run, hschema, h] at hM
  rw [resolveSchema, Run.bind_ok (Run.get_apply r)] at h
  have hload : (load w type r.names).1 = .ok type := by
    obtain ⟨c, hc⟩ := load_of_resolved (fun type s hs => (hwarranted.schemas type s hs).1)
      (hplain type hline.mem).1 h
    rw [hc, hself c (standsFor_of_load hwarranted.known hc)]
  exact (lines_resolveWithin _).inherits h (.refl r) hM htraced hline hplain hload

lemma inherits_of_resolveSchema {imports : Keyed TypeId} {reads : Bool} {acts : List Act}
    {type : TypeId} {line : List TypeId} {s : Schema} {r r₁ : Reader}
    (hr : r = life w acts (start imports reads)) (hline : Line w line type)
    (hown : Unmistakable w r line) (h : resolveSchema w type r = (.ok s, r₁)) :
    ∃ M, Inherits w M line type true s :=
  ⟨_, inherits_of_plain hr hline (fun c hc => ⟨(hown c hc).1, fun _ => (hown c hc).2⟩)
    (hown type hline.mem).2 h⟩

end Reader

namespace Build

/-! ## Filling the places -/

/-- What a place gets: the value that was supplied for its attribute, or the default that is
recorded for it, or else a null, which the attribute allows. -/
inductive Filling (attributes : Keyed Value) (name : String) (spec : AttributeSpec) : Value → Prop
  | supplied {v : Value} (h : attributes.get? name = some v) : Filling attributes name spec v.native
  | recorded {v : Value} (hnone : attributes.get? name = none) (h : spec.default = some v) :
      Filling attributes name spec v
  | null (hnone : attributes.get? name = none) (hdefault : spec.default = none)
      (h : spec.nullable = true) : Filling attributes name spec .null

/-- The arguments match the signature of a constructor: they are bound to its places in their order,
and each place is filled. -/
structure Suits (s : Schema) (attributes : Keyed Value) (c : Constructor) (args : List Value) :
    Prop where
  arity : args.length = c.places.length
  bound : ∃ rest,
    Constructor.bindArgs c.params args = .ok ((c.places.map Param.name).zip args ++ rest)
  filled : ∀ (i : Nat) (p : Param), c.places[i]? = some p → ∃ spec v,
    s.attributes.get? p.name = some spec ∧ args[i]? = some v ∧ Filling attributes p.name spec v

section Places

variable {w : World} {type : TypeId} {s : Schema} {attributes : Keyed Value}

lemma has_of_checkRequired (h : checkRequired s attributes = .ok ()) {name : String}
    {spec : AttributeSpec} (hspec : s.attributes.get? name = some spec)
    (hrequired : spec.required = true) : attributes.has name = true := by
  unfold checkRequired at h
  dsimp only at h
  split at h
  · next hnames =>
    have hpresent := List.filter_eq_nil_iff.1 (List.map_eq_nil_iff.1 hnames) _
      (Keyed.mem_of_get? hspec)
    simpa [hrequired] using hpresent
  · split at h <;> cases h

/-- A settled attribute that was not supplied has something to take its place. -/
lemma filling_fallback (h : checkRequired s attributes = .ok ()) {name : String}
    {spec : AttributeSpec} (hspec : s.attributes.get? name = some spec) (hsettled : spec.Settled)
    (hnone : attributes.get? name = none) : Filling attributes name spec (fallback s name) := by
  unfold fallback
  rw [hspec, Option.bind_some]
  cases hdefault : spec.default with
  | some v => exact .recorded hnone hdefault
  | none =>
    refine .null hnone hdefault ?_
    by_contra hnullable
    have hrequired : spec.required = true := by
      rw [hsettled, hdefault, Bool.eq_false_iff.2 hnullable]
      rfl
    have hhas := has_of_checkRequired h hspec hrequired
    rw [Keyed.has_eq_isSome_get?, hnone] at hhas
    cases hhas

/-- Delivered attributes suit the constructor that the schema has its places from. -/
lemma Delivers.suits {cls : TypeId} {args : List Value} {rest : List Deed} {c : Constructor}
    (h : Delivers w cls s attributes args rest) (hc : c.Callable)
    (hnames : s.constructor.getD [] = c.places.map Param.name)
    (hsettled : ∀ p ∈ c.places, ∃ spec, s.attributes.get? p.name = some spec ∧ spec.Settled)
    (hpresent : checkRequired s attributes = .ok ()) : Suits s attributes c args := by
  have harity : args.length = c.places.length := by
    rw [h.arity, hnames, List.length_map]
  refine ⟨harity, hc.bindArgs_ok harity, fun i p hp => ?_⟩
  obtain ⟨spec, hspec, hsettled⟩ := hsettled p (List.mem_of_getElem? hp)
  -- A supplied value goes to the first place of its name, and there is no second one.
  obtain ⟨before, after, hplaces, rfl⟩ : ∃ before after,
      c.places = before ++ p :: after ∧ before.length = i := by
    obtain ⟨hi, hget⟩ := List.getElem?_eq_some_iff.1 hp
    refine ⟨c.places.take i, c.places.drop (i + 1), ?_, List.length_take_of_le hi.le⟩
    rw [← hget, ← List.drop_eq_getElem_cons hi, List.take_append_drop]
  have hdistinct : p.name ∉ before.map Param.name := by
    have hnodup : (c.places.map Param.name).Nodup :=
      hc.distinct.sublist (List.filter_sublist.map Param.name)
    rw [hplaces, List.map_append, List.map_cons] at hnodup
    exact fun hmem => (List.nodup_append.1 hnodup).2.2 _ hmem _ List.mem_cons_self rfl
  rw [hplaces, List.map_append, List.map_cons] at hnames
  cases hget : attributes.get? p.name with
  | some v =>
    refine ⟨spec, v.native, hspec, ?_, .supplied hget⟩
    simpa using h.supplied _ _ _ v hnames hdistinct hget
  | none =>
    refine ⟨spec, _, hspec, ?_, filling_fallback hpresent hspec hsettled hget⟩
    simpa using h.unsupplied _ _ _ hnames (.inr hget)

end Places

end Build

namespace Reader

open Names

/-- The constructor of a class that nobody registered is called as its signature asks for, whatever
calls were made before.  Arguments that pass the checks lead to a call with one argument for each
place, in the order of the places; the argument is the supplied value, or the default that is
recorded for the place, or a null if the attribute may be null.  A class without a constructor is
called without arguments. -/
theorem constructor_call_fits (w : World) (imports : Keyed TypeId) (reads : Bool) (acts : List Act)
    (type : TypeId) (line : List TypeId) (supplied : Value) (placement : Placement) (s : Schema)
    (attributes : Keyed Value) (r₁ r₂ : Reader) :
    let r := life w acts (start imports reads)
    w.Coherent → (∀ c, w.constructor? type = some c → c.Callable) →
    Line w line type → Unmistakable w r line →
    resolveSchema w type r = (.ok s, r₁) →
    onNames (Build.checked w type s supplied placement) r₁ = (.ok attributes, r₂) →
    ∃ args result more,
      (load w type r₂.names).1 = .ok type ∧
      Reader.build w type supplied placement r = (result, r₂) ∧
      buildRecorded w (resolveWithin w (depth w r) false) none type supplied placement (r, []) =
        (result, r₂, .create args :: more) ∧
      (w.constructor? type = none → args = []) ∧
      ∀ c, w.constructor? type = some c → Build.Suits s attributes c args := by
  intro r hw hcallable hline hown hschema hchecked
  obtain ⟨M, hinherits⟩ := inherits_of_resolveSchema rfl hline hown hschema
  obtain ⟨hnames, hsettled⟩ := hinherits.places hw hline
  obtain ⟨-, cls, hcls, hfinished⟩ := warrant_finished.of_resolveSchema hschema
  obtain ⟨pairs, -, -, hpresent⟩ := Build.checked_eq_ok (onNames_eq_ok hchecked)
  obtain ⟨args, rest, hdeeds, hdelivers⟩ :=
    Build.delivers_deeds hfinished (Build.has_of_checked (onNames_eq_ok hchecked))
  obtain ⟨found, result, done, hfound, hload, hbuild, hrun, hprefix, hne, -⟩ :=
    build_of_checked rfl hschema hchecked
  rw [(hown type hline.mem).2 found hfound] at hload
  rw [hdeeds] at hprefix
  obtain ⟨more, rfl, -⟩ := (List.prefix_cons_iff.1 hprefix).resolve_left hne
  refine ⟨args, result, more, hload, hbuild, hrun, fun hnone => ?_, fun c hc => ?_⟩
  · have harity := hdelivers.arity
    rw [hnames, World.places, hnone] at harity
    exact List.length_eq_zero_iff.1 harity
  · rw [World.places, hc] at hnames hsettled
    exact hdelivers.suits (hcallable c hc) hnames hsettled hpresent

/-- A constructor with two places, one of them optional, and with all other kinds of parameters. -/
def versatile : Constructor where
  params :=
    [{ name := "x" }, { name := "y", default := some (.int 7) },
      { name := "rest", kind := .varPositional },
      { name := "key", kind := .keywordOnly, default := some (.int 1) },
      { name := "options", kind := .varKeyword }]

/-- An annotation type with that constructor, an ordinary subclass of it and an annotation type on
top of that one. -/
def heirClasses : World where
  modules :=
    [(declaringModule, declaringMembers declaringModule),
      ("app", [("A", .cls "app.A"), ("B", .cls "app.B"), ("C", .cls "app.C")])]
  classes :=
    [(attributeType, attributeClass),
      ("app.A", { id := "app.A", home := "app", constructor := some versatile,
                  doc := some "@Annotation\n@Attribute('x', nullable: true)" }),
      ("app.B", { id := "app.B", home := "app", bases := ["app.A"] }),
      ("app.C", { id := "app.C", home := "app", bases := ["app.B"], doc := some "@Annotation" })]

/-- The first place of the inherited constructor is filled with a null, and the second one with the
supplied value. -/
theorem constructor_call_fits_inherited :
    let r := life heirClasses [.use (.resolve (.id "app.A"))] (start [] true)
    let supplied := Value.tags [(some "y", .int 3)]
    heirClasses.Coherent ∧ versatile.Callable ∧
    Line heirClasses ["app.A", "app.B", "app.C"] "app.C" ∧
    Unmistakable heirClasses r ["app.A", "app.B", "app.C"] ∧
    ∃ s r₁ attributes r₂ args result more,
      resolveSchema heirClasses "app.C" r = (.ok s, r₁) ∧
      onNames (Build.checked heirClasses "app.C" s supplied .onClass) r₁ = (.ok attributes, r₂) ∧
      buildRecorded heirClasses (resolveWithin heirClasses (depth heirClasses r) false) none "app.C"
        supplied .onClass (r, []) = (result, r₂, .create args :: more) ∧
      result.isOk = true ∧ args.length = 2 ∧ Build.Suits s attributes versatile args := by
  intro r supplied
  have hw : heirClasses.Coherent := by
    unfold World.Coherent
    decide +kernel
  have hcallable : versatile.Callable := by
    refine ⟨by decide, ⟨versatile.params.drop 2, rfl, by decide⟩, by decide⟩
  have hconstructor : heirClasses.constructor? "app.C" = some versatile := rfl
  have hline : Line heirClasses ["app.A", "app.B", "app.C"] "app.C" :=
    @Line.next _ ["app.A", "app.B"] _ _ rfl (@Line.next _ ["app.A"] _ _ rfl (.root rfl))
  have hown : Unmistakable heirClasses r ["app.A", "app.B", "app.C"] := by
    have hpaths : ∀ c ∈ ["app.A", "app.B", "app.C"], typeAt? heirClasses [] c = some c := by
      decide +kernel
    have hdeclared : ∀ c ∈ ["app.A", "app.B", "app.C"], (r.declared.get? c).isNone = true := by
      decide +kernel
    refine fun c hc => ⟨Option.isNone_iff_eq_none.1 (hdeclared c hc), fun found hfound => ?_⟩
    exact hfound.elim id fun hpath => Option.some.inj (hpath.symm.trans (hpaths c hc))
  have hok : (Reader.build heirClasses "app.C" supplied .onClass r).1.isOk = true := by
    decide +kernel
  rcases hbuilt : Reader.build heirClasses "app.C" supplied .onClass r with ⟨e | v, r'⟩
  · rw [hbuilt] at hok
    cases hok
  · have hrun := (build_eq "app.C" supplied .onClass r).symm.trans hbuilt
    obtain ⟨s, r₁, hschema, hrun⟩ := Run.bind_eq_ok hrun
    obtain ⟨attributes, r₂, hchecked, -⟩ := Run.bind_eq_ok hrun
    have hresolved : resolveSchema heirClasses "app.C" r = (.ok s, r₁) := by
      rw [resolveSchema, Run.bind_ok (Run.get_apply r), hschema]
    obtain ⟨args, result, more, -, hbuild, hrecord, -, hsuits⟩ := constructor_call_fits heirClasses
      [] true _ "app.C" _ supplied .onClass s attributes r₁ r₂ hw
      (fun c hc => Option.some.inj (hconstructor.symm.trans hc) ▸ hcallable) hline hown hresolved
      hchecked
    obtain ⟨rfl, -⟩ := Prod.mk.inj (hbuilt.symm.trans hbuild)
    have hsuits := hsuits versatile hconstructor
    exact ⟨hw, hcallable, hline, hown, s, r₁, attributes, r₂, args, _, more, hresolved, hchecked,
      hrecord, rfl, hsuits.arity, hsuits⟩

end Reader
end DocTags
