import DocTags.Proofs.Causes
import DocTags.Proofs.Causes.Tags
import DocTags.Proofs.Sessions

/-!
# Questions

To resolve one type is to ask for the schemas of others: of the parent it is registered with, or of
the first base class of its class and of the annotation types in the documentation of that class.
These are the questions of a type (`questions?`).  Names in them stand for types by what is known
about names at the time.

`Inquires` says what the questions of a run have to do with its outcome.  A run that fails with an
error about the reader owes this to the answer to one of its questions, and a run that succeeds has
got an answer to each of them.  Here the oracle is arbitrary, and so is the relation that says what
its answers do to a reader; both are chosen where these facts are used.
-/

namespace DocTags
namespace Reader

open Names
open Run (IsOrdinary)

/-- A question for a schema: that of a type, or that of the type which a name in a text stands
for. -/
inductive Question where
  | type (type : TypeId)
  | name (scope : Scope) (name : String)

/-- The type that a question is about, by what is known about names when it comes up. -/
def Question.Means (w : World) (n : Names) : Question → TypeId → Prop
  | .type t, found => found = t
  | .name scope text, found => (resolve w scope text n).1 = .ok found

/-- What the steps of a run may do to a reader: it learns names, and the oracle answers. -/
structure Steps (w : World) (so : Oracle) (R : Reader → Reader → Prop) : Prop where
  refl : ∀ r, R r r
  trans : ∀ {r r₁ r₂}, R r r₁ → R r₁ r₂ → R r r₂
  names : ∀ {r r'}, NamesOnly (.everywhere w) r r' → R r r'
  answer : ∀ asAncestor type r, R r (so asAncestor type r).2

/-- A question comes up after some steps of a run, about a type that it means there, and is asked
when the reader has come to `r₁`. -/
def Poses (w : World) (R : Reader → Reader → Prop) (r : Reader) (q : Question) (type : TypeId)
    (r₁ : Reader) : Prop :=
  ∃ r₀, R r r₀ ∧ q.Means w r₀.names type ∧ R r₀ r₁

/-- The answer to a question is to blame for an error: it is that error, or it is a schema that
lacks accessors. -/
def Blames (so : Oracle) (type : TypeId) (r₁ : Reader) (e : Error) (r' : Reader) : Prop :=
  (∃ asAncestor, so asAncestor type r₁ = (.error e, r')) ∨
    e = .misuse .key ∧ ∃ s r₂, so false type r₁ = (.ok s, r₂) ∧
      s.accessors.names ≠ s.attributes.names

/-- A run that asks some questions.  If it fails with an error about the reader, the answer to one
of them is to blame; if it succeeds, each of them was answered. -/
structure Inquires (w : World) (qs : List Question) {α : Type} (F : Oracle → Run Reader α) :
    Prop where
  step : ∀ {so R}, Steps w so R → ∀ r, R r (F so r).2
  failure : ∀ {so R}, Steps w so R → ∀ {r e r'}, F so r = (.error e, r') → e.isOfReader = true →
    ∃ q ∈ qs, ∃ type r₁, Poses w R r q type r₁ ∧ Blames so type r₁ e r'
  success : ∀ {so R}, Steps w so R → ∀ {r a r'}, F so r = (.ok a, r') → ∀ q ∈ qs,
    ∃ type r₁, Poses w R r q type r₁ ∧
      ∃ asAncestor s r₂, so asAncestor type r₁ = (.ok s, r₂) ∧ R r₂ r'

variable {w : World} {α β : Type} {qs qs' : List Question}

lemma Poses.after {R : Reader → Reader → Prop} {r r₁ r₂ : Reader} {q : Question} {type : TypeId}
    {so : Oracle} (hsteps : Steps w so R) (h : R r r₁) (hq : Poses w R r₁ q type r₂) :
    Poses w R r q type r₂ := by
  obtain ⟨r₀, hr₀, hmeans, hasked⟩ := hq
  exact ⟨r₀, hsteps.trans h hr₀, hmeans, hasked⟩

namespace Inquires

/-- A run that asks nothing fails in ordinary ways only. -/
lemma silent {x : Run Reader α} (hx : Quiet (.everywhere w) x) (hord : x.IsOrdinary) :
    Inquires w [] fun _ => x where
  step hsteps r := hsteps.names (hx r)
  failure _ _ _ _ hrun he := by
    rw [Error.isOfReader_eq_false (hord _ _ (congrArg Prod.fst hrun))] at he
    cases he
  success _ _ _ _ _ _ hq := absurd hq List.not_mem_nil

lemma pure (a : α) : Inquires w [] fun _ => pure a :=
  .silent (.pure a) (.pure a)

lemma onNames {p : Prop} {act : Run Names α} (h : Uniform (.everywhere w) p act)
    (hord : act.IsOrdinary) : Inquires w [] fun _ => onNames act :=
  .silent (quiet_onNames h) (.onNames hord)

/-- Where a run breaks off, it makes no difference what it would have asked. -/
lemma throw {e : Error} (he : e.isOfReader = false) (qs : List Question) :
    Inquires w qs fun _ => (throw e : Run Reader α) where
  step hsteps r := hsteps.refl r
  failure _ _ _ _ hrun he' := by
    cases hrun
    rw [he] at he'
    cases he'
  success _ _ _ _ hrun := by cases hrun

lemma congr {F : Oracle → Run Reader α} (h : Inquires w qs F) (hmem : ∀ q, q ∈ qs' ↔ q ∈ qs) :
    Inquires w qs' F where
  step := h.step
  failure hsteps _ _ _ hrun he := by
    obtain ⟨q, hq, hposed⟩ := h.failure hsteps hrun he
    exact ⟨q, (hmem q).2 hq, hposed⟩
  success hsteps _ _ _ hrun q hq := h.success hsteps hrun q ((hmem q).1 hq)

lemma bind {x : Oracle → Run Reader α} {f : α → Oracle → Run Reader β} (hx : Inquires w qs x)
    (hf : ∀ a, Inquires w qs' (f a)) :
    Inquires w (qs ++ qs') fun so => x so >>= fun a => f a so where
  step {so _} hsteps r := by
    cases hres : (x so r).1 with
    | error e =>
      rw [Run.bind_of_fst_error hres]
      exact hx.step hsteps r
    | ok a =>
      rw [Run.bind_of_fst_ok hres]
      exact hsteps.trans (hx.step hsteps r) ((hf a).step hsteps _)
  failure {so _} hsteps {r e r'} hrun he := by
    rcases hres : x so r with ⟨e' | a, r₁⟩
    · rw [Run.bind_error hres] at hrun
      cases hrun
      obtain ⟨q, hq, hposed⟩ := hx.failure hsteps hres he
      exact ⟨q, List.mem_append_left _ hq, hposed⟩
    · rw [Run.bind_ok hres] at hrun
      have hr₁ := hx.step hsteps r
      rw [hres] at hr₁
      obtain ⟨q, hq, type, r₂, hposed, hblames⟩ := (hf a).failure hsteps hrun he
      exact ⟨q, List.mem_append_right _ hq, type, r₂, hposed.after hsteps hr₁, hblames⟩
  success {so _} hsteps {r b r'} hrun q hq := by
    obtain ⟨a, r₁, hres, hrun⟩ := Run.bind_eq_ok hrun
    have hr₁ := hx.step hsteps r
    have hr' := (hf a).step hsteps r₁
    rw [hres] at hr₁
    rw [hrun] at hr'
    rcases List.mem_append.1 hq with hq | hq
    · obtain ⟨type, r₂, hposed, asAncestor, s, r₃, hanswer, hr₃⟩ := hx.success hsteps hres q hq
      exact ⟨type, r₂, hposed, asAncestor, s, r₃, hanswer, hsteps.trans hr₃ hr'⟩
    · obtain ⟨type, r₂, hposed, hanswered⟩ := (hf a).success hsteps hrun q hq
      exact ⟨type, r₂, hposed.after hsteps hr₁, hanswered⟩

/-- If the rest of a run asks nothing, the questions are those of its first part. -/
lemma andThen {x : Oracle → Run Reader α} {f : α → Oracle → Run Reader β} (hx : Inquires w qs x)
    (hf : ∀ a, Inquires w [] (f a)) : Inquires w qs fun so => x so >>= fun a => f a so := by
  rw [← List.append_nil qs]
  exact hx.bind hf

/-- What is done with an answer asks nothing itself.  It fails with no error about the reader, but
for want of accessors if the schema was asked for as that of an annotation type. -/
lemma ask (asAncestor : Bool) (type : TypeId) {k : Schema → Run Reader α}
    (hk : ∀ s, Quiet (.everywhere w) (k s))
    (hfail : ∀ s r e, (k s r).1 = .error e → e.isOfReader = false ∨
      asAncestor = false ∧ e = .misuse .key ∧ s.accessors.names ≠ s.attributes.names) :
    Inquires w [.type type] fun so => so asAncestor type >>= k where
  step {so _} hsteps r := by
    cases hres : (so asAncestor type r).1 with
    | error e =>
      rw [Run.bind_of_fst_error hres]
      exact hsteps.answer asAncestor type r
    | ok s =>
      rw [Run.bind_of_fst_ok hres]
      exact hsteps.trans (hsteps.answer asAncestor type r) (hsteps.names (hk s _))
  failure {so _} hsteps {r e r'} hrun he := by
    refine ⟨_, List.mem_singleton_self _, type, r, ⟨r, hsteps.refl r, rfl, hsteps.refl r⟩, ?_⟩
    rcases hres : so asAncestor type r with ⟨e' | s, r₁⟩
    · rw [Run.bind_error hres] at hrun
      cases hrun
      exact .inl ⟨asAncestor, hres⟩
    · rw [Run.bind_ok hres] at hrun
      rcases hfail s r₁ e (congrArg Prod.fst hrun) with hother | ⟨rfl, rfl, hlacks⟩
      · rw [hother] at he
        cases he
      · exact .inr ⟨rfl, s, r₁, hres, hlacks⟩
  success {so _} hsteps {r a r'} hrun q hq := by
    obtain ⟨s, r₁, hres, hrun⟩ := Run.bind_eq_ok hrun
    obtain rfl := List.mem_singleton.1 hq
    have hr' := hsteps.names (hk s r₁)
    rw [hrun] at hr'
    exact ⟨type, r, ⟨r, hsteps.refl r, rfl, hsteps.refl r⟩, asAncestor, s, r₁, hres, hr'⟩

lemma askAncestor (type : TypeId) {k : Schema → Run Reader α}
    (hk : ∀ s, Quiet (.everywhere w) (k s)) (hord : ∀ s, (k s).IsOrdinary) :
    Inquires w [.type type] fun so => so true type >>= k :=
  .ask true type hk fun s r e he => .inl (Error.isOfReader_eq_false (hord s r e he))

/-- To ask for the type that a name stands for is to ask a question about the name. -/
lemma resolve (scope : Scope) (name : String) {f : TypeId → Oracle → Run Reader α}
    (hf : ∀ type, Inquires w [.type type] (f type)) :
    Inquires w [.name scope name] fun so =>
      Reader.onNames (Names.resolve w scope name) >>= fun type => f type so := by
  have hresolve : Inquires w [] fun _ => Reader.onNames (Names.resolve w scope name) :=
    .onNames (uniform_resolve (p := False) False.elim name) (ordinary_resolve w scope name)
  have hnamed : ∀ {so : Oracle} {R : Reader → Reader → Prop} {r r₁ r₂ : Reader} {type : TypeId}
      {q : Question} {other : TypeId}, Steps w so R →
      Reader.onNames (Names.resolve w scope name) r = (.ok type, r₁) → q ∈ [Question.type type] →
      Poses w R r₁ q other r₂ → Poses w R r (.name scope name) other r₂ := by
    intro so R r r₁ r₂ type q other hsteps hres hq ⟨r₀, hr₀, hmeans, hasked⟩
    obtain rfl := List.mem_singleton.1 hq
    obtain rfl : other = type := hmeans
    have hr₁ := hresolve.step hsteps r
    rw [hres] at hr₁
    exact ⟨r, hsteps.refl r, congrArg Prod.fst hres,
      hsteps.trans hr₁ (hsteps.trans hr₀ hasked)⟩
  refine ⟨fun hsteps r => ?_, fun {so _} hsteps {r e r'} hrun he => ?_,
    fun {so _} hsteps {r a r'} hrun q hq => ?_⟩
  · cases hres : (Reader.onNames (Names.resolve w scope name) r).1 with
    | error e =>
      rw [Run.bind_of_fst_error hres]
      exact hresolve.step hsteps r
    | ok type =>
      rw [Run.bind_of_fst_ok hres]
      exact hsteps.trans (hresolve.step hsteps r) ((hf type).step hsteps _)
  · rcases hres : Reader.onNames (Names.resolve w scope name) r with ⟨e' | type, r₁⟩
    · rw [Run.bind_error hres] at hrun
      cases hrun
      obtain ⟨q, hq, -⟩ := hresolve.failure hsteps hres he
      exact absurd hq List.not_mem_nil
    · rw [Run.bind_ok hres] at hrun
      obtain ⟨q, hq, other, r₂, hposed, hblames⟩ := (hf type).failure hsteps hrun he
      exact ⟨_, List.mem_singleton_self _, other, r₂, hnamed hsteps hres hq hposed, hblames⟩
  · obtain ⟨type, r₁, hres, hrun⟩ := Run.bind_eq_ok hrun
    obtain rfl := List.mem_singleton.1 hq
    obtain ⟨other, r₂, hposed, hanswered⟩ :=
      (hf type).success hsteps hrun _ (List.mem_singleton_self _)
    exact ⟨other, r₂, hnamed hsteps hres (List.mem_singleton_self _) hposed, hanswered⟩

lemma flag {x y : Oracle → Run Reader α} (hx : Inquires w qs x) (hy : Inquires w qs y) :
    Inquires w qs fun so => get >>= fun r => if r.readsClasses then x so else y so where
  step {so _} hsteps r := by
    by_cases hflag : r.readsClasses = true
    · rw [flag_pos _ _ hflag]
      exact hx.step hsteps r
    · rw [flag_neg _ _ hflag]
      exact hy.step hsteps r
  failure {so _} hsteps {r e r'} hrun he := by
    by_cases hflag : r.readsClasses = true
    · rw [flag_pos _ _ hflag] at hrun
      exact hx.failure hsteps hrun he
    · rw [flag_neg _ _ hflag] at hrun
      exact hy.failure hsteps hrun he
  success {so _} hsteps {r a r'} hrun := by
    by_cases hflag : r.readsClasses = true
    · rw [flag_pos _ _ hflag] at hrun
      exact hx.success hsteps hrun
    · rw [flag_neg _ _ hflag] at hrun
      exact hy.success hsteps hrun

end Inquires

/-! ## Building and reading -/

end Reader

namespace Build

variable {w : World} {type : TypeId} {s : Schema}

lemma mem_of_specOf {name : Value} {entry : String × AttributeSpec}
    (h : specOf w type s name = .ok entry) : entry ∈ s.attributes := by
  unfold specOf at h
  split at h
  · next hfind =>
    obtain rfl := Except.ok.inj h
    exact List.mem_of_find?_eq_some hfind
  · obtain ⟨text, -, h⟩ := ok_of_bind h
    cases h

/-- The attributes that pass the checks are declared, and their values are those of the pairs that
were checked. -/
lemma declared_of_checked {supplied : Value} {placement : Placement} {n n' : Names}
    {attributes : Keyed Value}
    (h : checked w type s supplied placement n = (.ok attributes, n')) :
    ∃ pairs, normalize type s supplied = .ok pairs ∧ ∀ entry ∈ attributes,
      (∃ spec, (entry.1, spec) ∈ s.attributes) ∧ ∃ pair ∈ pairs, entry.2 = pair.2 := by
  obtain ⟨-, pairs, hpairs, hall⟩ := checked_ok h
  refine ⟨pairs, hpairs, fun entry hentry => ?_⟩
  obtain ⟨pair, hpair, hvalue, spec, hspec, -⟩ := exists_of_mem_forall₂ hall hentry
  exact ⟨⟨spec, mem_of_specOf hspec⟩, pair, hpair, hvalue⟩

lemma has_of_checked {supplied : Value} {placement : Placement} {n n' : Names}
    {attributes : Keyed Value}
    (h : checked w type s supplied placement n = (.ok attributes, n')) :
    ∀ entry ∈ attributes, s.attributes.has entry.1 = true := by
  obtain ⟨pairs, -, hdeclared⟩ := declared_of_checked h
  intro entry hentry
  obtain ⟨⟨spec, hspec⟩, -⟩ := hdeclared entry hentry
  exact List.any_eq_true.2 ⟨_, hspec, beq_self_eq_true entry.1⟩

end Build

namespace Reader

open Names
open Run (IsOrdinary)

variable {w : World}

lemma error_of_bind {α β : Type} {x : Run Reader α} {f : α → Run Reader β} {r : Reader} {e : Error}
    (hx : (x r).1 ≠ .error e) (h : ((x >>= f) r).1 = .error e) :
    ∃ a r₁, x r = (.ok a, r₁) ∧ (f a r₁).1 = .error e := by
  rcases hres : x r with ⟨e' | a, r₁⟩
  · rw [Run.bind_error hres] at h
    rw [hres] at hx
    cases h
    exact absurd rfl hx
  · rw [Run.bind_ok hres] at h
    exact ⟨a, r₁, rfl, h⟩

/-- An annotation is built from the answer to one question.  If there is an accessor for each
attribute, each value reaches the object. -/
lemma inquires_buildWith (owner : Option TypeId) (type : TypeId) (supplied : Value)
    (placement : Placement) :
    Inquires w [.type type] fun so => buildWith w (so false) owner type supplied placement := by
  refine .ask false type (fun s => ?_) fun s r e hrun => ?_
  · exact (quiet_onNames (Build.uniform_checked (p := True) type s supplied placement)).bind
      fun attributes => (quiet_onNames (uniform_load (p := True) type)).bind fun found =>
        (Quiet.liftExcept _).bind fun fields => .pure _
  · rw [or_iff_not_imp_left, Bool.not_eq_false]
    intro he
    have hchecked : (onNames (Build.checked w type s supplied placement) r).1 ≠ .error e := by
      intro hfail
      rcases Build.error_of_checked w hfail with hord | ⟨rfl, -⟩
      · rw [Error.isOfReader_eq_false hord] at he
        cases he
      · cases he
    obtain ⟨attributes, r₁, hattributes, hrun⟩ := error_of_bind hchecked hrun
    have hload : (onNames (load w type) r₁).1 ≠ .error e := by
      intro hfail
      rw [Error.isOfReader_eq_false (IsOrdinary.onNames (ordinary_load w type) r₁ e hfail)] at he
      cases he
    obtain ⟨found, r₂, -, hrun⟩ := error_of_bind hload hrun
    have hconstruct : Build.construct w found s attributes = .error e := by
      cases hfields : Build.construct w found s attributes with
      | error e' =>
        rw [hfields] at hrun
        exact congrArg _ (Except.error.inj hrun)
      | ok fields =>
        rw [hfields] at hrun
        cases hrun
    have hkey : e = .misuse .key :=
      (Build.error_of_construct w hconstruct).resolve_left fun hord => by
        rw [Error.isOfReader_eq_false hord] at he
        cases he
    refine ⟨rfl, hkey, fun hnames => ?_⟩
    have hord := Build.ordinary_construct w (fun entry hentry => ?_) found e hconstruct
    · rw [Error.isOfReader_eq_false hord] at he
      cases he
    · rw [Keyed.has_eq_contains_names, hnames, ← Keyed.has_eq_contains_names]
      exact Build.has_of_checked (onNames_eq_ok hattributes) entry hentry

section Block

variable {scope : Scope} (placement : Placement) (owner : Option TypeId)

lemma inquires_wordValue (name : String) :
    Inquires w [] fun so => (settingFor w scope placement owner so).wordValue name := by
  have hconstant : Inquires w [] fun _ => onNames (constant? w scope name) :=
    .onNames (uniform_constant? (p := False) False.elim name) (ordinary_constant? w scope name)
  refine hconstant.andThen fun v => ?_
  cases v with
  | some v => exact .pure v
  | none =>
    have hresolve : Inquires w [] fun _ => onNames (resolve w scope name) :=
      .onNames (uniform_resolve (p := False) False.elim name) (ordinary_resolve w scope name)
    exact hresolve.andThen fun type => .pure _

lemma inquires_build (name : String) (args : TagList) (place : Placement) :
    Inquires w [.name scope name] fun so =>
      (settingFor w scope placement owner so).build name args place :=
  .resolve scope name fun type =>
    (inquires_buildWith owner type (.tags args) place).andThen fun _ => .pure _

mutual

lemma inquires_item (i : Item) (hi : ∀ e ∈ i.errors, e.isOfReader = false) :
    Inquires w (i.names.map (.name scope)) fun so =>
      (settingFor w scope placement owner so).item i := by
  match i with
  | .value v => simp only [Setting.item]; exact .pure v
  | .word name => simp only [Setting.item]; exact inquires_wordValue placement owner name
  | .list es =>
    rw [Item.errors] at hi
    simp only [Setting.item, Item.names]
    exact (inquires_entries es [] hi).andThen fun v => .pure _
  | .nested name args =>
    rw [Item.errors] at hi
    simp only [Setting.item, Item.names]
    refine ((inquires_entries args [] hi).bind fun args =>
      (inquires_build placement owner name args .nested).andThen fun _ => .pure _).congr ?_
    simp [or_comm]

lemma inquires_entries (es : Entries) (acc : TagList)
    (hes : ∀ e ∈ es.errors, e.isOfReader = false) :
    Inquires w (es.names.map (.name scope)) fun so =>
      (settingFor w scope placement owner so).entries es acc := by
  match es with
  | .closed => simp only [Setting.entries]; exact .pure _
  | .entry key i rest =>
    rw [Entries.errors, List.forall_mem_append] at hes
    simp only [Setting.entries, Entries.names, List.map_append]
    exact (inquires_item i hes.1).bind fun v => inquires_entries rest _ hes.2
  | .broken none e =>
    rw [Entries.errors, List.forall_mem_singleton] at hes
    simp only [Setting.entries]
    exact .throw hes _
  | .broken (some i) e =>
    rw [Entries.errors, List.forall_mem_append, List.forall_mem_singleton] at hes
    simp only [Setting.entries, Entries.names]
    exact (inquires_item i hes.1).andThen fun _ => .throw hes.2 []

end

lemma inquires_tag (c : Comment) (t : Tag) (ht : ∀ e ∈ t.errors, e.isOfReader = false) :
    Inquires w (t.names.map (.name scope)) fun so =>
      (settingFor w scope placement owner so).tag c t := by
  cases t with
  | plain name text => exact .pure _
  | list name es after =>
    rw [Tag.errors, List.forall_mem_append] at ht
    refine (inquires_entries placement owner es [] ht.1).andThen fun v => ?_
    cases after with
    | some t => exact .throw rfl []
    | none => exact .pure _
  | typed name args =>
    refine ((inquires_entries placement owner args [] ht).bind fun args =>
      (inquires_build placement owner name args placement).andThen fun _ => .pure _).congr ?_
    simp [Tag.names, or_comm]

lemma inquires_tags (c : Comment) (ts : List Tag)
    (hts : ∀ t ∈ ts, ∀ e ∈ t.errors, e.isOfReader = false) :
    Inquires w ((ts.flatMap Tag.names).map (.name scope)) fun so =>
      (settingFor w scope placement owner so).tags c ts := by
  induction ts generalizing c with
  | nil => exact .pure _
  | cons t ts ih =>
    rw [List.forall_mem_cons] at hts
    rw [List.flatMap_cons, List.map_append]
    exact (inquires_tag placement owner c t hts.1).bind fun c => ih c hts.2

/-- Reading a block asks about the names of the annotations in it. -/
lemma inquires_read (block : List Char) :
    Inquires w ((annotationNames block).map (.name scope)) fun so =>
      (settingFor w scope placement owner so).read block := by
  unfold annotationNames Setting.read
  rcases Text.splitSection (Text.bare block) with ⟨before, _ | text⟩
  · exact .pure _
  · exact inquires_tags placement owner _ _ fun t ht e he =>
      (Tag.found_ofSection text t ht e he).isOfReader_eq_false

end Block

/-! ## Resolving one type -/

lemma quiet_finish (type : TypeId) (s : Schema) : Quiet (.everywhere w) (finish w type s) := by
  have hasks : Asking (.everywhere w) [] True (fun _ => True) fun _ => finish w type s :=
    asking_finish type s
  exact hasks.quiet

lemma inquires_finish (type : TypeId) (s : Schema) : Inquires w [] fun _ => finish w type s :=
  .silent (quiet_finish type s) (ordinary_finish w type s)

/-- The parent that a registered schema names. -/
def extended? (s : Schema) : Option String :=
  s.parent.filter fun parent => !parent.isEmpty

lemma resolveDeclared_eq (ancestorOf : TypeId → Run Reader Schema) (type : TypeId) (s : Schema) :
    resolveDeclared w ancestorOf type s =
      match extended? s with
      | none => finish w type s
      | some parent =>
        onNames (resolve w [] parent) >>= fun parentId => ancestorOf parentId >>= fun base =>
          finish w type (s.onTopOf base parentId) := by
  unfold resolveDeclared extended?
  rcases s.parent with _ | parent
  · rfl
  · rw [Option.getD_some, Option.filter_some]
    cases hempty : parent.isEmpty <;> simp [hempty]

/-- What is asked when a registered type is resolved: about the parent that it names, if any. -/
def parentQuestions (s : Schema) : List Question :=
  (extended? s).toList.map (.name [])

lemma inquires_resolveDeclared (type : TypeId) (s : Schema) :
    Inquires w (parentQuestions s) fun so => resolveDeclared w (so true) type s := by
  simp only [resolveDeclared_eq, parentQuestions]
  cases extended? s with
  | none => exact inquires_finish type s
  | some parent =>
    exact .resolve [] parent fun other =>
      .askAncestor other (fun s' => quiet_finish type _) fun s' => ordinary_finish w type _

/-- What is asked when the schema of a class is read from its documentation: its first base class,
and the annotations in the documentation. -/
def classQuestions (w : World) (found : TypeId) : List Question :=
  (w.parent? found).toList.map .type ++
    (annotationNames (w.classDoc found)).map (.name (w.classScope found))

lemma inquires_inherited (found : TypeId) :
    Inquires w ((w.parent? found).toList.map .type) fun so => inherited w (so true) found := by
  unfold inherited
  cases w.parent? found with
  | some parent =>
    have hremember : Inquires w [] fun _ => remember parent :=
      .onNames (uniform_remember (p := True) parent) fun _ => .ok _
    exact hremember.bind fun _ => .askAncestor parent (fun s => .pure _) fun s => .pure _
  | none => exact .pure _

lemma inquires_own (type found : TypeId) :
    Inquires w ((annotationNames (w.classDoc found)).map (.name (w.classScope found)))
      fun so => own w (so false) type found := by
  have hread : Inquires w ((annotationNames (w.classDoc found)).map (.name (w.classScope found)))
      fun so => readClassWith w (so false) type found :=
    .flag (inquires_read .onClass (some type) (w.classDoc found)) (.throw rfl _)
  refine hread.andThen fun c => ?_
  cases c.has "Annotation" with
  | true =>
    have hasks : Asking (.everywhere w) [] True (fun _ => True) fun _ => declarations w found c :=
      asking_declarations (fun _ => OwnIds.fits_classScope rfl) c
    have hdeclarations : Inquires w [] fun _ => declarations w found c :=
      .silent hasks.quiet (ordinary_declarations w found c)
    exact hdeclarations.andThen fun d => .pure (some d)
  | false => exact .pure none

lemma inquires_compose (type : TypeId) (s : Schema) (d : Option Declarations) :
    Inquires w [] fun _ => compose w type s d := by
  cases d with
  | some d => exact (inquires_finish type _).andThen fun s => .pure (s, true)
  | none => exact .pure (s, false)

lemma inquires_introspectAs (type found : TypeId) :
    Inquires w (classQuestions w found) fun so =>
      introspectAs w (so false) (so true) type found :=
  (inquires_inherited found).bind fun s => (inquires_own type found).andThen fun d =>
    inquires_compose type s d

/-- What is asked when a type is resolved: about its parent if it is registered, and else what its
class leads to, if there is a class. -/
def questions? (w : World) (declared : Keyed Schema) (n : Names) (type : TypeId) :
    Option (List Question) :=
  match declared.get? type with
  | some s => some (parentQuestions s)
  | none =>
    match (load w type n).1 with
    | .ok found => some (classQuestions w found)
    | .error _ => none

section Questions

variable {declared : Keyed Schema} {n : Names} {type : TypeId} {qs : List Question}

lemma questions_of_registered {s : Schema} (hs : declared.get? type = some s) :
    questions? w declared n type = some (parentQuestions s) := by
  rw [questions?, hs]

lemma questions_of_unregistered (hs : declared.get? type = none)
    (h : questions? w declared n type = some qs) :
    ∃ found, (load w type n).1 = .ok found ∧ qs = classQuestions w found := by
  rw [questions?, hs] at h
  dsimp only at h
  split at h
  · next found hfound => exact ⟨found, hfound, (Option.some.inj h).symm⟩
  · cases h

end Questions

section ResolveBy

variable {so : Oracle} {R : Reader → Reader → Prop} {declared : Keyed Schema} {type : TypeId}
  {r r' : Reader}

variable (declared type r) in
/-- Resolving a type asks its questions, unless its class cannot be loaded. -/
lemma resolveBy_cases :
    (∃ e r₁, NamesOnly (.everywhere w) r r₁ ∧ e.isOfReader = false ∧
      ∀ so, resolveBy w declared type so r = (.error e, r₁)) ∨
    ∃ qs F r₁, questions? w declared r.names type = some qs ∧ NamesOnly (.everywhere w) r r₁ ∧
      Inquires w qs F ∧ ∀ so, resolveBy w declared type so r = F so r₁ := by
  unfold resolveBy questions?
  cases declared.get? type with
  | some s =>
    refine .inr ⟨_, _, r, rfl, .refl r, ?_, fun so => rfl⟩
    exact (inquires_resolveDeclared type s).andThen fun s => .pure (s, true)
  | none =>
    have hquiet : Quiet (.everywhere w) (onNames (load w type)) :=
      quiet_onNames (uniform_load (p := True) type)
    have hr := hquiet r
    simp only [resolveFresh, introspect_eq]
    rcases hres : onNames (load w type) r with ⟨e | found, r₁⟩
    · have hload : (load w type r.names).1 = .error e := congrArg Prod.fst hres
      rw [hres] at hr
      exact .inl ⟨e, r₁, hr, Error.isOfReader_eq_false (ordinary_load w type r.names e hload),
        fun so => Run.bind_error hres _⟩
    · have hload : (load w type r.names).1 = .ok found := congrArg Prod.fst hres
      rw [hres] at hr
      rw [hload]
      exact .inr ⟨_, _, r₁, rfl, hr, inquires_introspectAs type found, fun so => Run.bind_ok hres _⟩

lemma step_resolveBy (hsteps : Steps w so R) (declared : Keyed Schema) (type : TypeId)
    (r : Reader) : R r (resolveBy w declared type so r).2 := by
  rcases resolveBy_cases declared type r with
    ⟨e, r₁, hr₁, -, hrun⟩ | ⟨qs, F, r₁, -, hr₁, hF, hrun⟩
  · rw [hrun so]
    exact hsteps.names hr₁
  · rw [hrun so]
    exact hsteps.trans (hsteps.names hr₁) (hF.step hsteps r₁)

/-- A type that cannot be resolved, with an error about the reader, owes this to the answer to one
of its questions. -/
lemma failure_resolveBy {e : Error} (hsteps : Steps w so R)
    (h : resolveBy w declared type so r = (.error e, r')) (he : e.isOfReader = true) :
    ∃ qs, questions? w declared r.names type = some qs ∧ ∃ q ∈ qs, ∃ other r₁,
      Poses w R r q other r₁ ∧ Blames so other r₁ e r' := by
  rcases resolveBy_cases declared type r with
    ⟨e', _, -, he', hrun⟩ | ⟨qs, F, r₁, hqs, hr₁, hF, hrun⟩
  · rw [hrun so] at h
    cases h
    rw [he'] at he
    cases he
  · rw [hrun so] at h
    obtain ⟨q, hq, other, r₂, hposed, hblames⟩ := hF.failure hsteps h he
    exact ⟨qs, hqs, q, hq, other, r₂, hposed.after hsteps (hsteps.names hr₁), hblames⟩

/-- When a type is resolved, all its questions have been answered. -/
lemma success_resolveBy {found : Schema × Bool} (hsteps : Steps w so R)
    (h : resolveBy w declared type so r = (.ok found, r')) :
    ∃ qs, questions? w declared r.names type = some qs ∧ ∀ q ∈ qs, ∃ other r₁,
      Poses w R r q other r₁ ∧
        ∃ asAncestor s r₂, so asAncestor other r₁ = (.ok s, r₂) ∧ R r₂ r' := by
  rcases resolveBy_cases declared type r with
    ⟨e, _, -, -, hrun⟩ | ⟨qs, F, r₁, hqs, hr₁, hF, hrun⟩
  · rw [hrun so] at h
    cases h
  · rw [hrun so] at h
    refine ⟨qs, hqs, fun q hq => ?_⟩
    obtain ⟨other, r₂, hposed, hanswered⟩ := hF.success hsteps h q hq
    exact ⟨other, r₂, hposed.after hsteps (hsteps.names hr₁), hanswered⟩

end ResolveBy

/-- An error about the reader is found at once, on the stack or for want of levels, or comes from
resolving the type with one level less. -/
lemma resolveWithin_eq_error {n : Nat} {asAncestor : Bool} {type : TypeId} {r r' : Reader}
    {e : Error} (h : resolveWithin w n asAncestor type r = (.error e, r'))
    (he : e.isOfReader = true) :
    (type ∈ r.stack ∧ e = .cycle (r.stack.dropWhile (· != type) ++ [type]) ∧ r' = r) ∨
    (n = 0 ∧ type ∉ r.stack ∧ e = .tooDeep ∧ r' = r) ∨
    ∃ m r₁, n = m + 1 ∧ type ∉ r.stack ∧
      resolveBy w r.declared type (resolveWithin w m) (opened type r) = (.error e, r₁) ∧
      r' = closed type (.error e) r₁ := by
  cases hc : r.resolved.get? type with
  | some s =>
    rw [resolveWithin_cached hc] at h
    cases h
  | none =>
    by_cases hs : type ∈ r.stack
    · rw [resolveWithin_cycle hc hs] at h
      cases h
      exact .inl ⟨hs, rfl, rfl⟩
    cases n with
    | zero =>
      rw [resolveWithin_zero hc hs] at h
      cases h
      exact .inr (.inl ⟨rfl, hs, rfl, rfl⟩)
    | succ m =>
      rw [resolveWithin_fresh hc hs] at h
      rcases hrun : resolveBy w r.declared type (resolveWithin w m) (opened type r) with
        ⟨e' | ⟨s, isType⟩, r₁⟩
      · rw [hrun] at h
        obtain ⟨herror, rfl⟩ := Prod.mk.inj h
        obtain rfl : e' = e := Except.error.inj herror
        exact .inr (.inr ⟨m, r₁, rfl, hs, hrun, rfl⟩)
      · -- What is no annotation type is refused, which is no error about the reader.
        rw [hrun] at h
        cases isType with
        | true => cases h
        | false =>
          cases asAncestor with
          | true => cases h
          | false =>
            cases h
            cases he

/-! ## Calls -/

end Reader

/-- The id of a type. -/
def TypeArg.key : TypeArg → TypeId
  | .id type => type
  | .cls type => type

namespace Reader

variable {w : World}

/-- A type is resolved with the whole depth; a class is recorded before. -/
lemma schema_eq (type : TypeArg) (r : Reader) :
    ∃ r₁, (keyOf type r).2 = r₁ ∧ NamesOnly (.everywhere w) r r₁ ∧
      schema w type r = resolveWithin w (depth w r₁) false type.key r₁ := by
  have hres : keyOf type r = (.ok type.key, (keyOf type r).2) := by cases type <;> rfl
  refine ⟨_, rfl, quiet_keyOf (.everywhere w) type r, ?_⟩
  rw [schema, Run.bind_ok hres, resolveSchema, Run.bind_ok (Run.get_apply _)]

end Reader
end DocTags
