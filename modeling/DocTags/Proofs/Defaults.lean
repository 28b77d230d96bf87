import DocTags.Proofs.Loading
import DocTags.Proofs.Signatures

/-!
# Defaults of constructor parameters

What the constructor gets for a parameter that was not supplied is the default in the contract of
its attribute.  A contract comes from the last declaration along the line, and each signature since
then fills a gap in it, the outermost first.  Once the gap is filled, nothing in the contract tells
whether a declaration or a signature did it.  So a default from a signature counts as a declared
one for all classes further down, and a constructor that is written anew there does not replace it.

`Omitted` says where the value comes from, in the four cases that there are; in the case `earlier`
it need not be the default of the constructor that is called.  The main result is
`omitted_parameter_value`.
-/

namespace DocTags

/-! ## Declarations and signatures of one attribute -/

/-- The default of a parameter.  The mark of an attribute without default is none. -/
def Param.default? (p : Param) : Option Value :=
  p.default.filter fun v => !v.isMissing

lemma AttributeSpec.default_withParam (spec : AttributeSpec) (p : Param) :
    (spec.withParam p).default = spec.default.or p.default? :=
  Option.orElse_eq_or

namespace Declarations

/-- What a class declares for an attribute; a later declaration replaces an earlier one. -/
def spec? (d : Declarations) (name : String) : Option AttributeSpec :=
  Keyed.last? (d.attributes.map fun spec => (spec.name, spec)) name

/-- The default that the signature of a class has for a parameter. -/
def signature? (d : Declarations) (name : String) : Option Value :=
  (d.params.getD []).findSome? fun p => if p.name = name then p.default? else none

lemma signature?_of_mem {d : Declarations} {params : List Param} (hd : d.params = some params)
    (hdistinct : (params.map Param.name).Nodup) {p : Param} (hp : p ∈ params) :
    d.signature? p.name = p.default? := by
  obtain ⟨before, after, rfl⟩ := List.append_of_mem hp
  rw [List.map_append, List.map_cons, List.nodup_append, List.nodup_cons] at hdistinct
  obtain ⟨-, ⟨hafter, -⟩, hbefore⟩ := hdistinct
  have hothers : ∀ q ∈ before ++ after, (if q.name = p.name then q.default? else none) = none := by
    intro q hq
    refine if_neg fun hname => ?_
    rcases List.mem_append.1 hq with hq | hq
    · exact hbefore q.name (List.mem_map_of_mem hq) p.name List.mem_cons_self hname
    · exact hafter (hname ▸ List.mem_map_of_mem hq)
  rw [List.forall_mem_append, ← List.findSome?_eq_none_iff, ← List.findSome?_eq_none_iff] at hothers
  rw [signature?, hd, Option.getD_some, List.findSome?_append, hothers.1, List.findSome?_cons,
    if_pos rfl, hothers.2]
  cases p.default? <;> rfl

end Declarations

/-- The declaration that counts for an attribute: that of the last class that has one. -/
def effective? (ds : List Declarations) (name : String) : Option AttributeSpec :=
  (ds.filterMap fun d => d.spec? name).getLast?

/-- The classes from the last one on that declares the attribute; all of them, if none does. -/
def reign (name : String) : List Declarations → List Declarations
  | [] => []
  | d :: ds => if ds.any fun d => (d.spec? name).isSome then reign name ds else d :: ds

/-- The first default that a signature has for a parameter since its attribute was declared. -/
def signatures? (ds : List Declarations) (name : String) : Option Value :=
  (reign name ds).findSome? fun d => d.signature? name

section Reign

variable {ds : List Declarations} {d : Declarations} {name : String}

lemma effective?_concat (ds : List Declarations) (d : Declarations) (name : String) :
    effective? (ds ++ [d]) name = (d.spec? name).or (effective? ds name) := by
  rw [effective?, effective?, List.filterMap_append]
  cases hd : d.spec? name with
  | none => simp [hd]
  | some spec => simp [hd]

lemma reign_concat_of_some (h : (d.spec? name).isSome = true) (ds : List Declarations) :
    reign name (ds ++ [d]) = [d] := by
  induction ds with
  | nil => simp [reign]
  | cons first ds ih => rw [List.cons_append, reign, if_pos (by simp [h]), ih]

lemma reign_concat_of_none (h : d.spec? name = none) (ds : List Declarations) :
    reign name (ds ++ [d]) = reign name ds ++ [d] := by
  induction ds with
  | nil => simp [reign]
  | cons first ds ih =>
    have hany : ((ds ++ [d]).any fun d => (d.spec? name).isSome) =
        ds.any fun d => (d.spec? name).isSome := by simp [h]
    rw [List.cons_append, reign, reign, hany, ih]
    split <;> rfl

lemma signatures?_concat_of_some (h : (d.spec? name).isSome = true) (ds : List Declarations) :
    signatures? (ds ++ [d]) name = d.signature? name := by
  rw [signatures?, reign_concat_of_some h, List.findSome?_singleton]

lemma signatures?_concat_of_none (h : d.spec? name = none) (ds : List Declarations) :
    signatures? (ds ++ [d]) name = (signatures? ds name).or (d.signature? name) := by
  rw [signatures?, reign_concat_of_none h, List.findSome?_append, List.findSome?_singleton]
  rfl

end Reign

/-! ## The contract of an attribute -/

namespace Schema

variable {s : Schema} {d : Declarations} {name : String}

lemma get?_addParam_self (attributes : Keyed AttributeSpec) (p : Param) :
    (addParam attributes p).get? p.name =
      some (((attributes.get? p.name).getD { name := p.name }).withParam p) :=
  Keyed.get?_put_self _ _ _

lemma get?_addParam_of_ne (attributes : Keyed AttributeSpec) {p : Param} (h : name ≠ p.name) :
    (addParam attributes p).get? name = attributes.get? name :=
  Keyed.get?_put_of_ne _ h _

/-- The signature fills a gap. -/
lemma default_extend (s : Schema) (d : Declarations) (name : String) :
    ((s.extend d).attributes.get? name).bind AttributeSpec.default =
      (((d.spec? name).or (s.attributes.get? name)).bind AttributeSpec.default).or
        (d.signature? name) := by
  have hparams : ∀ (params : List Param) (attributes : Keyed AttributeSpec),
      ((params.foldl addParam attributes).get? name).bind AttributeSpec.default =
        ((attributes.get? name).bind AttributeSpec.default).or
          (params.findSome? fun p => if p.name = name then p.default? else none) := by
    intro params
    induction params with
    | nil => exact fun attributes => Option.or_none.symm
    | cons p params ih =>
      intro attributes
      rw [List.foldl_cons, ih, List.findSome?_cons]
      by_cases hname : p.name = name
      · subst hname
        rw [get?_addParam_self, if_pos rfl, Option.bind_some, AttributeSpec.default_withParam]
        cases attributes.get? p.name with
        | none => cases p.default? <;> rfl
        | some spec => cases hspec : spec.default <;> cases p.default? <;> simp [hspec]
      · rw [get?_addParam_of_ne _ (Ne.symm hname), if_neg hname]
  rw [Declarations.spec?, ← Keyed.get?_merge]
  exact hparams (d.params.getD []) _

lemma nullable_extend (s : Schema) (d : Declarations) (name : String) :
    ((s.extend d).attributes.get? name).any AttributeSpec.nullable =
      ((d.spec? name).or (s.attributes.get? name)).any AttributeSpec.nullable := by
  have hparams : ∀ (params : List Param) (attributes : Keyed AttributeSpec),
      ((params.foldl addParam attributes).get? name).any AttributeSpec.nullable =
        (attributes.get? name).any AttributeSpec.nullable := by
    intro params
    induction params with
    | nil => exact fun attributes => rfl
    | cons p params ih =>
      intro attributes
      rw [List.foldl_cons, ih]
      by_cases hname : p.name = name
      · subst hname
        rw [get?_addParam_self]
        cases attributes.get? p.name <;> rfl
      · rw [get?_addParam_of_ne _ (Ne.symm hname)]
  rw [Declarations.spec?, ← Keyed.get?_merge]
  exact hparams (d.params.getD []) _

/-- The contract of an attribute that comes of a line of annotation types has the default of the
declaration that counts, or else the first one of a signature since then. -/
lemma default_foldl_extend (ds : List Declarations) (name : String) :
    (((ds.foldl extend { targets := .nowhere }).attributes).get? name).bind AttributeSpec.default =
      ((effective? ds name).bind AttributeSpec.default).or (signatures? ds name) := by
  induction ds using List.reverseRecOn with
  | nil => rfl
  | append_singleton ds d ih =>
    rw [List.foldl_append, List.foldl_cons, List.foldl_nil, default_extend, effective?_concat]
    cases hd : d.spec? name with
    | some spec => rw [signatures?_concat_of_some (by simp [hd])]; rfl
    | none =>
      rw [signatures?_concat_of_none hd, Option.none_or, Option.none_or, ih, Option.or_assoc]

lemma nullable_foldl_extend (ds : List Declarations) (name : String) :
    ((ds.foldl extend { targets := .nowhere }).attributes.get? name).any AttributeSpec.nullable =
      (effective? ds name).any AttributeSpec.nullable := by
  induction ds using List.reverseRecOn with
  | nil => rfl
  | append_singleton ds d ih =>
    rw [List.foldl_append, List.foldl_cons, List.foldl_nil, nullable_extend, effective?_concat]
    cases hd : d.spec? name with
    | some spec => rfl
    | none => rw [Option.none_or, Option.none_or, ih]

end Schema

/-- What the constructor gets for a parameter that was not supplied, given what the annotation types
declare that come before the class in its line, and what the class declares itself. -/
inductive Omitted (up : List Declarations) (d : Declarations) (p : Param) : Value → Prop
  /-- The declaration that counts has a default. -/
  | declared {spec : AttributeSpec} {v : Value} (hspec : effective? (up ++ [d]) p.name = some spec)
      (h : spec.default = some v) : Omitted up d p v
  /-- The attribute is inherited, and a signature further up has a default for it. -/
  | earlier {v : Value}
      (hdeclared : (effective? (up ++ [d]) p.name).bind AttributeSpec.default = none)
      (hinherited : d.spec? p.name = none) (h : signatures? up p.name = some v) : Omitted up d p v
  /-- Only the constructor that is called has a default. -/
  | own {v : Value}
      (hdeclared : (effective? (up ++ [d]) p.name).bind AttributeSpec.default = none)
      (hearlier : d.spec? p.name = none → signatures? up p.name = none)
      (h : p.default? = some v) : Omitted up d p v
  /-- There is no default at all, and the attribute may be null. -/
  | null (hdeclared : (effective? (up ++ [d]) p.name).bind AttributeSpec.default = none)
      (hearlier : d.spec? p.name = none → signatures? up p.name = none) (h : p.default? = none)
      (hnullable : (effective? (up ++ [d]) p.name).any AttributeSpec.nullable = true) :
      Omitted up d p .null

namespace Build

lemma Filling.eq_of_default {attributes : Keyed Value} {name : String} {spec : AttributeSpec}
    {v u : Value} (h : Filling attributes name spec v) (hnone : attributes.get? name = none)
    (hdefault : spec.default = some u) : v = u := by
  cases h with
  | supplied h => cases hnone.symm.trans h
  | recorded _ h => exact Option.some.inj (h.symm.trans hdefault)
  | null _ h => cases h.symm.trans hdefault

lemma omitted_of_filling {up : List Declarations} {d : Declarations} {p : Param} {s : Schema}
    {attributes : Keyed Value} {spec : AttributeSpec} {v : Value}
    (hs : s.attributes = ((up ++ [d]).foldl Schema.extend { targets := .nowhere }).attributes)
    (hown : d.signature? p.name = p.default?) (hspec : s.attributes.get? p.name = some spec)
    (hnone : attributes.get? p.name = none) (h : Filling attributes p.name spec v) :
    Omitted up d p v := by
  have hdefault := Schema.default_foldl_extend (up ++ [d]) p.name
  have hnullable := Schema.nullable_foldl_extend (up ++ [d]) p.name
  rw [← hs, hspec] at hdefault hnullable
  rw [Option.bind_some] at hdefault
  cases hdeclared : (effective? (up ++ [d]) p.name).bind AttributeSpec.default with
  | some u =>
    rw [hdeclared, Option.some_or] at hdefault
    obtain ⟨declared, heffective, hu⟩ := Option.bind_eq_some_iff.1 hdeclared
    obtain rfl := h.eq_of_default hnone hdefault
    exact .declared heffective hu
  | none =>
    rw [hdeclared, Option.none_or] at hdefault
    by_cases hearlier : d.spec? p.name = none → signatures? up p.name = none
    · have hlast : signatures? (up ++ [d]) p.name = p.default? := by
        cases hd : d.spec? p.name with
        | some _ => rw [signatures?_concat_of_some (by simp [hd]), hown]
        | none => rw [signatures?_concat_of_none hd, hearlier hd, Option.none_or, hown]
      rw [hlast] at hdefault
      cases h with
      | supplied h => cases hnone.symm.trans h
      | recorded _ h => exact .own hdeclared hearlier (hdefault.symm.trans h)
      | null _ h hnull =>
        exact .null hdeclared hearlier (hdefault.symm.trans h) (hnullable.symm.trans hnull)
    · obtain ⟨hd, hup⟩ := Classical.not_imp.1 hearlier
      obtain ⟨u, hu⟩ := Option.ne_none_iff_exists'.1 hup
      rw [signatures?_concat_of_none hd, hu, Option.some_or] at hdefault
      obtain rfl := h.eq_of_default hnone hdefault
      exact .earlier hdeclared hd hu

/-- A place whose parameter was not supplied gets what is recorded for its attribute. -/
lemma Delivers.omitted {w : World} {cls : TypeId} {s : Schema} {attributes : Keyed Value}
    {args : List Value} {rest : List Deed} {places : List Param} {i : Nat} {p : Param}
    (h : Delivers w cls s attributes args rest)
    (hnames : s.constructor.getD [] = places.map Param.name) (hp : places[i]? = some p)
    (hnone : attributes.get? p.name = none) : args[i]? = some (fallback s p.name) := by
  obtain ⟨hi, rfl⟩ := List.getElem?_eq_some_iff.1 hp
  have hsplit : places = places.take i ++ places[i] :: places.drop (i + 1) := by
    rw [← List.drop_eq_getElem_cons hi, List.take_append_drop]
  have hat := h.unsupplied ((places.take i).map Param.name) places[i].name
    ((places.drop (i + 1)).map Param.name)
    (by rw [hnames, ← List.map_cons, ← List.map_append, ← hsplit]) (.inr hnone)
  rwa [List.length_map, List.length_take_of_le hi.le] at hat

/-- The argument of a constructor that is called with one integer. -/
def Deed.onlyInt? : Deed → Option Int
  | .create [.int n] => some n
  | _ => none

lemma Deed.eq_create_of_onlyInt? {deed : Deed} {n : Int} (h : deed.onlyInt? = some n) :
    deed = .create [.int n] := by
  unfold onlyInt? at h
  split at h
  · rw [Option.some.inj h]
  · cases h

end Build

namespace Reader

open Names

/-- What the constructor of a class that nobody registered gets for parameters that were not
supplied, whatever calls were made before.  The last declaration along the line decides, and then
the first signature from there on; the signature of the constructor itself comes last. -/
theorem omitted_parameter_value (w : World) (imports : Keyed TypeId) (reads : Bool)
    (acts : List Act) (type : TypeId) (line : List TypeId) (c : Constructor) (supplied : Value)
    (placement : Placement) (s : Schema) (attributes : Keyed Value) (r₁ r₂ : Reader) :
    let r := life w acts (start imports reads)
    let M := Moment w (acts ++ [.use (.resolve (.id type))]) (start imports reads)
    Line w line type → Plain w r line → (∀ found, StandsFor w type found → found = type) →
    w.constructor? type = some c → (c.places.map Param.name).Nodup →
    resolveSchema w type r = (.ok s, r₁) →
    onNames (Build.checked w type s supplied placement) r₁ = (.ok attributes, r₂) →
    ∃ before d args result more,
      List.Forall₂ (ReadAt w M) line (before ++ [some d]) ∧
      (load w type r₂.names).1 = .ok type ∧
      Reader.build w type supplied placement r = (result, r₂) ∧
      buildRecorded w (resolveWithin w (depth w r) false) none type supplied placement (r, []) =
        (result, r₂, .create args :: more) ∧
      args.length = c.places.length ∧
      ∀ (i : Nat) (p : Param), c.places[i]? = some p → attributes.get? p.name = none →
        ∃ v, args[i]? = some v ∧ Omitted before.reduceOption d p v := by
  intro r M hline hplain hself hc hdistinct hschema hchecked
  have hinherits : Inherits w M line type true s := inherits_of_plain rfl hline hplain hself hschema
  obtain ⟨hnames, hsettled⟩ := hinherits.places_of_constructor hline hc
  obtain ⟨-, ds, hds, hshape, hown⟩ := hinherits
  obtain ⟨before, d, rfl⟩ := hown rfl
  have hparams : d.params = some c.places := by
    rw [params_of_readAt (readAt_last hline hds), hc]
    rfl
  have hattributes : s.attributes =
      ((before.reduceOption ++ [d]).foldl Schema.extend { targets := .nowhere }).attributes := by
    have hconcat : (before ++ [some d]).reduceOption = before.reduceOption ++ [d] := by
      rw [List.reduceOption_append]
      rfl
    have hlast := congrArg Schema.attributes (hshape.trans (Schema.passedOn_eq (by simp [hconcat])))
    rw [hconcat, Schema.withTargets_eq] at hlast
    exact hlast
  obtain ⟨-, cls, hcls, hfinished⟩ := warrant_finished.of_resolveSchema hschema
  obtain ⟨pairs, -, -, hpresent⟩ := Build.checked_eq_ok (onNames_eq_ok hchecked)
  obtain ⟨args, rest, hdeeds, hdelivers⟩ :=
    Build.delivers_deeds hfinished (Build.has_of_checked (onNames_eq_ok hchecked))
  obtain ⟨found, result, done, hfound, hload, hbuild, hrun, hprefix, hne, -⟩ :=
    build_of_checked rfl hschema hchecked
  rw [hself found hfound] at hload
  rw [hdeeds] at hprefix
  obtain ⟨more, rfl, -⟩ := (List.prefix_cons_iff.1 hprefix).resolve_left hne
  refine ⟨before, d, args, result, more, hds, hload, hbuild, hrun, ?_, fun i p hp hnone => ?_⟩
  · rw [hdelivers.arity, hnames, List.length_map]
  · have hmem := List.mem_of_getElem? hp
    obtain ⟨spec, hspec, hsettled⟩ := hsettled p hmem
    exact ⟨_, hdelivers.omitted hnames hp hnone, Build.omitted_of_filling hattributes
      (Declarations.signature?_of_mem hparams hdistinct hmem) hspec hnone
      (Build.filling_fallback hpresent hspec hsettled hnone)⟩

/-- An annotation type, and another one on top of it that has a constructor of its own. -/
def rewrittenClasses : World where
  modules :=
    [(declaringModule, declaringMembers declaringModule),
      ("app", [("A", .cls "app.A"), ("B", .cls "app.B")])]
  classes :=
    [(attributeType, attributeClass),
      ("app.A", { id := "app.A", home := "app", doc := some "@Annotation"
                  constructor := some { params := [{ name := "x", default := some (.int 1) }] } }),
      ("app.B", { id := "app.B", home := "app", bases := ["app.A"], doc := some "@Annotation"
                  constructor := some { params := [{ name := "x", default := some (.int 2) }] } })]

/-- The constructor of the second class gets the default of the first one. -/
theorem omitted_parameter_value_earlier :
    let r := life rewrittenClasses [.use (.resolve (.id "app.A"))] (start [] true)
    let c : Constructor := { params := [{ name := "x", default := some (.int 2) }] }
    Line rewrittenClasses ["app.A", "app.B"] "app.B" ∧
    Plain rewrittenClasses r ["app.A", "app.B"] ∧
    (∀ found, StandsFor rewrittenClasses "app.B" found → found = "app.B") ∧
    rewrittenClasses.constructor? "app.B" = some c ∧ (c.places.map Param.name).Nodup ∧
    ∃ s r₁ attributes r₂ before d result more,
      resolveSchema rewrittenClasses "app.B" r = (.ok s, r₁) ∧
      onNames (Build.checked rewrittenClasses "app.B" s (.tags []) .onClass) r₁ =
        (.ok attributes, r₂) ∧
      attributes.get? "x" = none ∧
      buildRecorded rewrittenClasses (resolveWithin rewrittenClasses (depth rewrittenClasses r)
        false) none "app.B" (.tags []) .onClass (r, []) =
          (result, r₂, .create [.int 1] :: more) ∧
      Omitted before d { name := "x", default := some (.int 2) } (.int 1) := by
  intro r c
  have hline : Line rewrittenClasses ["app.A", "app.B"] "app.B" :=
    @Line.next _ ["app.A"] _ _ rfl (.root rfl)
  have hself : ∀ type ∈ ["app.A", "app.B"], ∀ found, StandsFor rewrittenClasses type found →
      found = type := by
    have hpaths : ∀ type ∈ ["app.A", "app.B"], typeAt? rewrittenClasses [] type = some type := by
      decide +kernel
    intro type htype found hfound
    exact hfound.elim id fun hpath => Option.some.inj (hpath.symm.trans (hpaths type htype))
  have hplain : Plain rewrittenClasses r ["app.A", "app.B"] := by
    have hdeclared : ∀ type ∈ ["app.A", "app.B"], (r.declared.get? type).isNone = true := by
      decide +kernel
    exact fun type htype =>
      ⟨Option.isNone_iff_eq_none.1 (hdeclared type htype), fun _ => hself type htype⟩
  have hdistinct : (c.places.map Param.name).Nodup := by decide
  have hok : (Reader.build rewrittenClasses "app.B" (.tags []) .onClass r).1.isOk = true := by
    decide +kernel
  rcases hbuilt : Reader.build rewrittenClasses "app.B" (.tags []) .onClass r with ⟨e | v, r'⟩
  · rw [hbuilt] at hok
    cases hok
  · have hrun := (build_eq "app.B" (.tags []) .onClass r).symm.trans hbuilt
    obtain ⟨s, r₁, hschema, hrun⟩ := Run.bind_eq_ok hrun
    obtain ⟨attributes, r₂, hchecked, -⟩ := Run.bind_eq_ok hrun
    have hresolved : resolveSchema rewrittenClasses "app.B" r = (.ok s, r₁) := by
      rw [resolveSchema, Run.bind_ok (Run.get_apply r), hschema]
    obtain ⟨before, d, args, result, more, -, -, -, hrecord, -, homitted⟩ :=
      omitted_parameter_value rewrittenClasses [] true _ "app.B" _ c (.tags []) .onClass s
        attributes r₁ r₂ hline hplain (hself "app.B" (by simp)) rfl hdistinct hresolved hchecked
    have hnone : attributes.get? "x" = none := by
      obtain ⟨pairs, hpairs, hattributes, -⟩ := Build.checked_eq_ok (onNames_eq_ok hchecked)
      obtain rfl := Except.ok.inj hpairs
      obtain rfl : [] = attributes := Except.ok.inj (congrArg Prod.fst hattributes)
      rfl
    obtain ⟨v', hv', hvalue⟩ := homitted 0 _ rfl hnone
    obtain rfl : args = [.int 1] := by
      have hfirst : (buildRecorded rewrittenClasses
          (resolveWithin rewrittenClasses (depth rewrittenClasses r) false) none "app.B" (.tags [])
          .onClass (r, [])).2.2.head?.bind Build.Deed.onlyInt? = some 1 := by
        decide +kernel
      rw [hrecord, List.head?_cons, Option.bind_some] at hfirst
      exact Build.Deed.create.inj (Build.Deed.eq_create_of_onlyInt? hfirst)
    obtain rfl := Option.some.inj hv'
    exact ⟨hline, hplain, hself "app.B" (by simp), rfl, hdistinct, s, r₁, attributes, r₂, _, d,
      result, more, hresolved, hchecked, hnone, hrecord, hvalue⟩

end Reader
end DocTags
