import DocTags.Proofs.Causes.Tags
import DocTags.Proofs.Causes.Unnamed

/-!
# Reading a block in two settings

A block can be read in two settings that differ in how schemas are resolved.  Two runs are
`Parallel` if they give the same, or fail in the same state with errors that are related in a given
way.  If resolving schemas is parallel then reading a block is (`Setting.parallel_read`), provided
that the errors which reading finds by itself are related to themselves.  These are the ordinary
ones, the want of an accessor, and those in the tokens of the block.  That several values have no
name is not one of them, since lists of arguments are not read so.
-/

namespace DocTags

open Run (IsOrdinary)

namespace Run

variable {σ α β : Type}

/-- Two runs that give the same, or fail in the same state with errors that are related there. -/
def Parallel (E : Error → Error → σ → Prop) (x y : Run σ α) : Prop :=
  ∀ s, (∃ a t, x s = (.ok a, t) ∧ y s = (.ok a, t)) ∨
    ∃ e e' t, x s = (.error e, t) ∧ y s = (.error e', t) ∧ E e e' t

namespace Parallel

variable {E : Error → Error → σ → Prop}

/-- A run is parallel to itself if its errors are related to themselves. -/
lemma same {x : Run σ α} (h : ∀ s e t, x s = (.error e, t) → E e e t) : Parallel E x x := by
  intro s
  rcases hres : x s with ⟨e | a, t⟩
  · exact .inr ⟨e, e, t, rfl, rfl, h s e t hres⟩
  · exact .inl ⟨a, t, rfl, rfl⟩

lemma pure (a : α) : Parallel E (pure a) (pure a) :=
  .same fun _ _ _ h => nomatch h

lemma throw {e : Error} (h : ∀ s, E e e s) : Parallel E (throw e : Run σ α) (throw e) := by
  refine .same fun s e' t hrun => ?_
  cases hrun
  exact h s

lemma bind {x y : Run σ α} {f g : α → Run σ β} (hx : Parallel E x y)
    (hf : ∀ s a t, x s = (.ok a, t) → Parallel E (f a) (g a)) :
    Parallel E (x >>= f) (y >>= g) := by
  intro s
  rcases hx s with ⟨a, t, hxs, hys⟩ | ⟨e, e', t, hxs, hys, he⟩
  · rw [bind_ok hxs, bind_ok hys]
    exact hf s a t hxs t
  · rw [bind_error hxs, bind_error hys]
    exact .inr ⟨e, e', t, rfl, rfl, he⟩

/-- The errors of a run that is parallel to itself are related to themselves. -/
lemma of_error {x : Run σ α} (h : Parallel E x x) {s t : σ} {e : Error}
    (hrun : x s = (.error e, t)) : E e e t := by
  rcases h s with ⟨a, t', hok, -⟩ | ⟨e₁, e₂, t', herror, herror', he⟩
  · rw [hrun] at hok
    cases hok
  · rw [hrun] at herror herror'
    cases herror
    cases herror'
    exact he

/-- What is done with the result of two runs is parallel whatever the result is. -/
lemma andThen {x y : Run σ α} {f g : α → Run σ β} (hx : Parallel E x y)
    (hf : ∀ a, Parallel E (f a) (g a)) : Parallel E (x >>= f) (y >>= g) :=
  hx.bind fun _ a _ _ => hf a

end Parallel

end Run

open Run (Parallel)

/-- A relation between errors that holds of an error and itself where building finds it. -/
structure Tolerates (E : Error → Error → Reader → Prop) : Prop where
  ordinary : ∀ {e}, e.isOrdinary = true → ∀ r, E e e r
  noAccessor : ∀ r, E (.misuse .key) (.misuse .key) r

section Reading

variable {E : Error → Error → Reader → Prop}

lemma Run.IsOrdinary.parallel {α : Type} {x : Run Reader α} (h : x.IsOrdinary)
    (hE : Tolerates E) : Parallel E x x :=
  .same fun s e t hrun => hE.ordinary (h s e (congrArg Prod.fst hrun)) t

lemma Reader.parallel_buildWith (hE : Tolerates E) {w : World} {so so' : TypeId → Run Reader Schema}
    (hso : ∀ type, Parallel E (so type) (so' type)) (owner : Option TypeId) (type : TypeId)
    {supplied : Value} (hsupplied : Build.OneUnnamed supplied) (placement : Placement) :
    Parallel E (buildWith w so owner type supplied placement)
      (buildWith w so' owner type supplied placement) := by
  unfold buildWith
  refine (hso type).andThen fun s => ?_
  refine ((IsOrdinary.onNames (Build.ordinary_checked w type s hsupplied placement)).parallel
    hE).andThen fun attributes => ?_
  refine ((IsOrdinary.onNames (Names.ordinary_load w type)).parallel hE).andThen fun found => ?_
  refine Parallel.andThen (.same fun r e r' hrun => ?_) fun fields => .pure _
  rw [Run.liftExcept_apply] at hrun
  obtain ⟨hconstruct, rfl⟩ := Prod.mk.inj hrun
  rcases Build.error_of_construct w hconstruct with hord | rfl
  · exact hE.ordinary hord r
  · exact hE.noAccessor r

namespace Setting

variable {x : Setting} {so : TypeId → Run Reader Schema}

lemma parallel_wordValue (hE : Tolerates E) (name : String) :
    Parallel E (x.wordValue name) ({ x with schemaOf := so }.wordValue name) := by
  have hresolve := (IsOrdinary.onNames (Names.ordinary_resolve x.world x.scope name)).parallel hE
  refine ((IsOrdinary.onNames (Names.ordinary_constant? x.world x.scope name)).parallel
    hE).andThen fun v => ?_
  cases v with
  | some v => exact .pure v
  | none => exact hresolve.andThen fun type => .pure _

lemma parallel_build (hE : Tolerates E) (hso : ∀ type, Parallel E (x.schemaOf type) (so type))
    (name : String) {args : TagList} (hargs : args.OthersNamed) (placement : Placement) :
    Parallel E (x.build name args placement)
      ({ x with schemaOf := so }.build name args placement) := by
  have hresolve := (IsOrdinary.onNames (Names.ordinary_resolve x.world x.scope name)).parallel hE
  exact hresolve.andThen fun type =>
    (Reader.parallel_buildWith hE hso x.owner type hargs.oneUnnamed placement).andThen fun _ =>
      .pure _

mutual

lemma parallel_item (hE : Tolerates E)
    (hso : ∀ type, Parallel E (x.schemaOf type) (so type)) (i : Item)
    (hi : ∀ e ∈ i.errors, ∀ r, E e e r) (hargs : ∀ args ∈ i.argumentLists, args.OthersNamed) :
    Parallel E (x.item i) ({ x with schemaOf := so }.item i) := by
  match i with
  | .value v =>
    simp only [Setting.item]
    exact .pure v
  | .word name =>
    simp only [Setting.item]
    exact parallel_wordValue hE name
  | .list es =>
    rw [Item.errors] at hi
    rw [Item.argumentLists] at hargs
    simp only [Setting.item]
    exact (parallel_entries hE hso es [] hi hargs).andThen fun _ => .pure _
  | .nested name args =>
    rw [Item.errors] at hi
    rw [Item.argumentLists, List.forall_mem_cons] at hargs
    simp only [Setting.item]
    refine (parallel_entries hE hso args [] hi hargs.2).bind fun r tags r' htags => ?_
    exact (parallel_build hE hso name (othersNamed_of_entries hargs.1 htags) .nested).andThen
      fun _ => .pure _

lemma parallel_entries (hE : Tolerates E)
    (hso : ∀ type, Parallel E (x.schemaOf type) (so type)) (es : Entries)
    (acc : TagList) (hes : ∀ e ∈ es.errors, ∀ r, E e e r)
    (hargs : ∀ args ∈ es.argumentLists, args.OthersNamed) :
    Parallel E (x.entries es acc) ({ x with schemaOf := so }.entries es acc) := by
  match es with
  | .closed =>
    simp only [Setting.entries]
    exact .pure acc
  | .entry key i rest =>
    rw [Entries.errors, List.forall_mem_append] at hes
    rw [Entries.argumentLists, List.forall_mem_append] at hargs
    simp only [Setting.entries]
    exact (parallel_item hE hso i hes.1 hargs.1).andThen fun v =>
      parallel_entries hE hso rest _ hes.2 hargs.2
  | .broken none e =>
    rw [Entries.errors, List.forall_mem_singleton] at hes
    simp only [Setting.entries]
    exact .throw hes
  | .broken (some i) e =>
    rw [Entries.errors, List.forall_mem_append, List.forall_mem_singleton] at hes
    rw [Entries.argumentLists] at hargs
    simp only [Setting.entries]
    exact (parallel_item hE hso i hes.1 hargs).andThen fun _ => .throw hes.2

end

variable (hE : Tolerates E) (hso : ∀ type, Parallel E (x.schemaOf type) (so type))

include hE hso

lemma parallel_tag (c : Comment) (t : Tag) (ht : ∀ e ∈ t.errors, ∀ r, E e e r)
    (hargs : ∀ args ∈ t.argumentLists, args.OthersNamed) :
    Parallel E (x.tag c t) ({ x with schemaOf := so }.tag c t) := by
  cases t with
  | plain name text => exact .pure _
  | list name es after =>
    rw [Tag.errors, List.forall_mem_append] at ht
    refine (parallel_entries hE hso es [] ht.1 hargs).andThen fun v => ?_
    cases after with
    | some t => exact .throw (ht.2 _ (List.mem_singleton_self _))
    | none => exact .pure _
  | typed name args =>
    rw [Tag.argumentLists, List.forall_mem_cons] at hargs
    refine (parallel_entries hE hso args [] ht hargs.2).bind fun r tags r' htags => ?_
    exact (parallel_build hE hso name (othersNamed_of_entries hargs.1 htags) x.placement).andThen
      fun _ => .pure _

lemma parallel_tags (c : Comment) (ts : List Tag) (hts : ∀ t ∈ ts, ∀ e ∈ t.errors, ∀ r, E e e r)
    (hargs : ∀ t ∈ ts, ∀ args ∈ t.argumentLists, args.OthersNamed) :
    Parallel E (x.tags c ts) ({ x with schemaOf := so }.tags c ts) := by
  induction ts generalizing c with
  | nil => exact .pure _
  | cons t ts ih =>
    rw [List.forall_mem_cons] at hts hargs
    exact (parallel_tag hE hso c t hts.1 hargs.1).andThen fun c => ih c hts.2 hargs.2

/-- Reading a block is parallel in two settings in which resolving schemas is, if the errors that
its tokens can give rise to are related to themselves. -/
lemma parallel_read (block : List Char)
    (hblock : ∀ text ∈ (Text.splitSection (Text.bare block)).2, ∀ e,
      FoundIn (Token.ending text) (Token.pieces text) e → ∀ r, E e e r) :
    Parallel E (x.read block) ({ x with schemaOf := so }.read block) := by
  unfold read
  rcases hsplit : Text.splitSection (Text.bare block) with ⟨before, _ | text⟩
  · exact .pure _
  · rw [hsplit] at hblock
    refine parallel_tags hE hso _ _ (fun t ht e he => ?_) fun t ht args hargs => ?_
    · exact hblock text rfl e (Tag.found_ofSection text t ht e he)
    · exact (Tag.exists_read_ofSection text t ht args hargs).othersNamed

end Setting

end Reading

end DocTags
