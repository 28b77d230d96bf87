import DocTags.Proofs.Indexing
import DocTags.Proofs.Inheritance
import DocTags.Proofs.OneLine.Building
import DocTags.Proofs.OneLine.Tags

/-!
# Comments on one line

The names in a text hold no blanks, and the types and constants that they stand for come from the
world, from the scope and from what the reader knew before.  `Yields` follows a run from the reader
`q`, whose names are known, to the reader `e`, whose cached schemas are: each schema that was used
on the way is in the cache in the end.

`Setting.IsOneLine` is what is asked of the world, the scope and the two readers.  Then the names of
tags hold no blanks, and all else in the comment is on one line (`Comment.IsOneLine`).
-/

namespace DocTags

open Text

/-! ## Names -/

namespace Names

/-- `true` when the classes that names were found to stand for have ids on one line. -/
def isOneLine (n : Names) : Bool :=
  n.imports.all (fun entry => isLine entry.2) && n.known.all fun entry => isLine entry.2

variable {w : World} {ids : OwnIds w} {scope : Scope} {q n : Names} {name : String} {type : TypeId}

lemma isLine_of_imports (hq : q.isOneLine = true) (h : q.imports.get? name = some type) :
    isLine type = true := by
  rw [isOneLine, Bool.and_eq_true] at hq
  exact List.all_eq_true.1 hq.1 _ (Keyed.mem_of_get? h)

lemma isLine_of_known (hq : q.isOneLine = true) (h : q.known.get? name = some type) :
    isLine type = true := by
  rw [isOneLine, Bool.and_eq_true] at hq
  exact List.all_eq_true.1 hq.2 _ (Keyed.mem_of_get? h)

lemma isLine_of_typeAt? (hw : w.isOneLine = true) (hscope : scope.isOneLine = true)
    (h : typeAt? w scope name = some type) : isLine type = true := by
  obtain ⟨v, hv, htype⟩ := Option.bind_eq_some_iff.1 h
  have hline : v.isOneLine = true := by
    unfold find? at hv
    split at hv
    · next hlookup =>
      cases hv
      exact World.isOneLine_lookup? hw hscope hlookup
    · exact World.isOneLine_import? hw hv
  unfold typeOf? at htype
  split at htype
  · cases htype
    exact hline
  · cases htype

/-- A name is resolved to a type that was known before, to itself or to one in reach. -/
lemma isLine_of_resolve (hw : w.isOneLine = true) (hscope : scope.isOneLine = true)
    (hq : q.isOneLine = true) (hn : Extends ids q n) (hname : isLine name = true)
    (h : (resolve w scope name n).1 = .ok type) : isLine type = true := by
  rcases denotes_of_resolve h with himport | rfl | htype
  · rw [hn.imports] at himport
    exact isLine_of_imports hq himport
  · exact hname
  · exact isLine_of_typeAt? hw hscope htype

lemma isLine_of_load (hw : w.isOneLine = true) (hq : q.isOneLine = true) (hn : Extends ids q n)
    (htype : isLine type = true) {found : TypeId} (h : (load w type n).1 = .ok found) :
    isLine found = true := by
  rw [load_eq] at h
  split at h
  · next hknown =>
    cases h
    rcases hn.learnt type found hknown with hbefore | rfl | hpath
    · exact isLine_of_known hq hbefore
    · exact htype
    · exact isLine_of_typeAt? hw rfl hpath
  · split at h
    · next hpath =>
      cases h
      exact isLine_of_typeAt? hw rfl hpath
    · cases h

lemma subset_of_splitConstant? {cs owner constant : List Char}
    (h : splitConstant? cs = some (owner, constant)) : owner ⊆ cs := by
  fun_induction splitConstant? cs generalizing owner with
  | case1 => cases h
  | case2 rest =>
    cases h
    exact List.nil_subset _
  | case3 c cs _ ih =>
    obtain ⟨⟨owner', constant'⟩, hsplit, hpair⟩ := Option.map_eq_some_iff.1 h
    cases hpair
    exact List.cons_subset_cons c (ih hsplit)

/-- The owner of a constant was resolved and loaded. -/
lemma owner?_eq_some {n' : Names} (h : owner? w scope name n = (.ok (some type), n')) :
    ∃ id n₁, resolve w scope name n = (.ok id, n₁) ∧ load w id n₁ = (.ok type, n') := by
  unfold owner? at h
  rw [Run.tryCatch_apply] at h
  split at h
  · next a n₂ hrun =>
    obtain ⟨id, n₁, hresolve, hrun⟩ := Run.bind_eq_ok hrun
    obtain ⟨found, n₃, hload, hrun⟩ := Run.bind_eq_ok hrun
    cases hrun
    cases h
    exact ⟨id, n₁, hresolve, hload⟩
  · split at h <;> cases h

/-- A word without an owner denotes what the scope has for it. -/
lemma lookup?_of_constant? (hsplit : splitConstant? name.toList = none) {v : Value} {n' : Names}
    (h : constant? w scope name n = (.ok (some v), n')) : w.lookup? scope name = some v := by
  unfold constant? at h
  rw [hsplit] at h
  cases hlookup : w.lookup? scope name with
  | none =>
    rw [hlookup] at h
    cases h
  | some found =>
    rw [hlookup] at h
    cases found with
    | moduleNamed _ => cases h
    | _ =>
      have hfound := Except.ok.inj (Prod.mk.inj h).1
      split at hfound
      · cases hfound
      · exact hfound

/-- A constant is held by a class or is in reach of the scope. -/
lemma isOneLine_of_constant? (hw : w.isOneLine = true) (hscope : scope.isOneLine = true)
    (hq : q.isOneLine = true) (hn : Extends ids q n) (hname : isLine name = true) {v : Value}
    {n' : Names} (h : constant? w scope name n = (.ok (some v), n')) : v.isOneLine = true := by
  cases hsplit : splitConstant? name.toList with
  | none => exact World.isOneLine_lookup? hw hscope (lookup?_of_constant? hsplit h)
  | some parts =>
    obtain ⟨owner, constant⟩ := parts
    unfold constant? at h
    rw [hsplit] at h
    obtain ⟨found, n₂, hfound, h⟩ := Run.bind_eq_ok h
    cases found with
    | none => cases h
    | some type =>
      obtain ⟨id, n₁, hresolve, hload⟩ := owner?_eq_some hfound
      have howner : isLine (String.ofList owner) = true :=
        isLine_ofList.2 fun hmem => isLine_iff.1 hname (subset_of_splitConstant? hsplit hmem)
      have hid : isLine id = true :=
        isLine_of_resolve hw hscope hq hn howner (congrArg Prod.fst hresolve)
      have hlater : Extends ids n (resolve w scope (String.ofList owner) n).2 :=
        (uniform_resolve (p := False) nofun _).later n
      rw [hresolve] at hlater
      have htype : isLine type = true :=
        isLine_of_load hw hq (hn.trans hlater) hid (congrArg Prod.fst hload)
      exact World.isOneLine_classAttribute? hw htype (Except.ok.inj (Prod.mk.inj h).1)

end Names

/-! ## Runs between two readers -/

namespace Reader

open Names

variable {w : World} {q e : Reader} {α β : Type}

variable (w q e) in
/-- The run never makes a reader forget anything.  On the way from the reader `q` to the reader `e`,
its results are such as the condition says. -/
structure Yields (x : Run Reader α) (P : α → Prop) : Prop where
  grows : ∀ {r result r'}, x r = (result, r') → Grows w r r'
  result : ∀ {r a r'}, x r = (.ok a, r') → Grows w q r → Grows w r' e → P a

namespace Yields

variable {x : Run Reader α} {P P' : α → Prop} {Q : β → Prop}

lemma pure {a : α} (h : P a) : Yields w q e (pure a) P where
  grows hrun := by
    cases hrun
    exact .refl _
  result hrun _ _ := by
    cases hrun
    exact h

lemma throw (error : Error) : Yields w q e (throw error) P where
  grows hrun := by
    cases hrun
    exact .refl _
  result hrun _ _ := by cases hrun

lemma liftExcept {result : Except Error α} (h : ∀ a, result = .ok a → P a) :
    Yields w q e (liftExcept result) P := by
  cases result with
  | error error => exact .throw error
  | ok a => exact .pure (h a rfl)

lemma mono (h : Yields w q e x P) (himp : ∀ a, P a → P' a) : Yields w q e x P' :=
  ⟨h.grows, fun hrun hr hr' => himp _ (h.result hrun hr hr')⟩

lemma bind {f : α → Run Reader β} (hx : Yields w q e x P)
    (hf : ∀ a, Yields w q e (f a) fun b => P a → Q b) : Yields w q e (x >>= f) Q where
  grows {r result r'} hrun := by
    rcases hres : x r with ⟨error | a, r₁⟩
    · rw [Run.bind_error hres] at hrun
      cases hrun
      exact hx.grows hres
    · rw [Run.bind_ok hres] at hrun
      exact (hx.grows hres).trans ((hf a).grows hrun)
  result hrun hr hr' := by
    obtain ⟨a, r₁, ha, hb⟩ := Run.bind_eq_ok hrun
    exact (hf a).result hb (hr.trans (hx.grows ha)) hr'
      (hx.result ha hr (((hf a).grows hb).trans hr'))

/-- A run on names learns names only. -/
lemma names {act : Run Names α} (hact : Uniform (.everywhere w) False act)
    (h : ∀ {n a n'}, Extends (.everywhere w) q.names n → act n = (.ok a, n') → P a) :
    Yields w q e (onNames act) P where
  grows {r result r'} hrun := by
    have hquiet := (quiet_onNames hact r).grows
    rwa [hrun] at hquiet
  result hrun hr _ := h hr.names (onNames_eq_ok hrun)

/-- A schema that resolution gives is in the cache afterwards, and stays there. -/
lemma resolveWithin (he : ∀ type s, e.resolved.get? type = some s → s.isOneLine = true) (n : Nat)
    (type : TypeId) :
    Yields w q e (resolveWithin w n false type) fun s => s.isOneLine = true where
  grows {r result r'} hrun := by
    have hfills := (fills_resolveWithin (w := w) n false type r).grows
    rwa [hrun] at hfills
  result {r s r'} hrun _ hr' := by
    refine he type s (hr'.resolved type s ?_)
    rcases resolveWithin_cases w n false type r with
      ⟨s', hcached, h⟩ | ⟨error, h⟩ | ⟨m, rfl, -, -, h⟩
    · rw [hrun] at h
      cases h
      exact hcached
    · rw [hrun] at h
      cases h
    · rw [hrun] at h
      obtain ⟨hs, rfl⟩ := Prod.mk.inj h
      rcases hfound : (resolveBy w r.declared type (Reader.resolveWithin w m) (opened type r)).1
        with error | ⟨s', _ | _⟩ <;> rw [hfound] at hs <;> cases hs
      exact Keyed.get?_put_self ..

end Yields

end Reader

/-! ## Settings and comments -/

/-- The names of tags hold no blanks, and the values of tags and the annotations are on one line. -/
structure Comment.IsOneLine (c : Comment) : Prop where
  tags : ∀ tag ∈ c.tags, isUnbroken tag.1 = true ∧ tag.2.isOneLine = true
  annotations : ∀ group ∈ c.annotations,
    isLine group.1 = true ∧ ∀ v ∈ group.2, v.isOneLine = true

namespace Comment.IsOneLine

variable {c : Comment} {name : String} {type : TypeId} {v : Value}

lemma add (hc : c.IsOneLine) (hname : isUnbroken name = true) (hv : v.isOneLine = true) :
    (c.add name v).IsOneLine where
  tags tag htag := by
    rcases Keyed.mem_put htag with ⟨hfst, hsnd⟩ | htag
    · rw [hfst, hsnd]
      exact ⟨hname, hv⟩
    · exact hc.tags tag htag
  annotations := hc.annotations

lemma annotate (hc : c.IsOneLine) (htype : isLine type = true) (hv : v.isOneLine = true) :
    (c.annotate type v).IsOneLine where
  tags := hc.tags
  annotations group hgroup := by
    rcases Keyed.mem_put hgroup with ⟨hfst, hsnd⟩ | hgroup
    · rw [hfst, hsnd]
      refine ⟨htype, List.forall_mem_append.2 ⟨?_, List.forall_mem_singleton.2 hv⟩⟩
      cases hbefore : c.annotations.get? type with
      | none => exact List.forall_mem_nil _
      | some before => exact (hc.annotations _ (Keyed.mem_of_get? hbefore)).2
    · exact hc.annotations group hgroup

end Comment.IsOneLine

namespace Setting

open Reader Names

/-- What a block is read with, and what the readers know before and after, is on one line. -/
structure IsOneLine (x : Setting) (q e : Reader) : Prop where
  world : x.world.isOneLine = true
  scope : x.scope.isOneLine = true
  names : q.names.isOneLine = true
  schemas : ∀ type, Yields x.world q e (x.schemaOf type) fun s => s.isOneLine = true

namespace IsOneLine

variable {x : Setting} {q e : Reader}

lemma resolve (hx : x.IsOneLine q e) {name : String} (hname : isLine name = true) :
    Yields x.world q e (x.resolve name) fun type => isLine type = true :=
  .names (uniform_resolve (p := False) nofun name) fun hn h =>
    isLine_of_resolve hx.world hx.scope hx.names hn hname (congrArg Prod.fst h)

lemma load (hx : x.IsOneLine q e) (type : TypeId) :
    Yields x.world q e (onNames (Names.load x.world type)) fun found =>
      isLine type = true → isLine found = true :=
  .names (uniform_load (p := False) type) fun hn h htype =>
    isLine_of_load hx.world hx.names hn htype (congrArg Prod.fst h)

lemma wordValue (hx : x.IsOneLine q e) {name : String} (hname : isLine name = true) :
    Yields x.world q e (x.wordValue name) fun v => v.isOneLine = true := by
  have hconstant : Yields x.world q e (onNames (constant? x.world x.scope name))
      fun found => ∀ v, found = some v → v.isOneLine = true := by
    refine .names (uniform_constant? (p := False) nofun name) ?_
    rintro n _ n' hn h v rfl
    exact isOneLine_of_constant? hx.world hx.scope hx.names hn hname h
  unfold Setting.wordValue
  refine hconstant.bind fun found => ?_
  cases found with
  | some v => exact .pure fun h => h v rfl
  | none => exact (hx.resolve hname).bind fun type => .pure fun _ _ => rfl

/-- An annotation is on one line if its arguments and the id of its type are. -/
lemma buildWith (hx : x.IsOneLine q e) (type : TypeId) (args : TagList) (placement : Placement) :
    Yields x.world q e (buildWith x.world x.schemaOf x.owner type (.tags args) placement)
      fun v => isLine type = true → areEntriesOneLine args = true → v.isOneLine = true := by
  unfold Reader.buildWith
  refine (hx.schemas type).bind fun s => ?_
  have hchecked : Yields x.world q e
      (onNames (Build.checked x.world type s (.tags args) placement))
      fun attributes => s.isOneLine = true → areEntriesOneLine args = true →
        areFieldsOneLine attributes = true :=
    .names (Build.uniform_checked (p := False) type s (.tags args) placement)
      fun _ h hs hargs => Build.isOneLine_checked hs hargs h
  refine hchecked.bind fun attributes => (hx.load type).bind fun found => ?_
  have hfields : Yields x.world q e (liftExcept (Build.construct x.world found s attributes))
      fun fields => isLine found = true → s.isOneLine = true →
        areFieldsOneLine attributes = true → areFieldsOneLine fields = true :=
    .liftExcept fun _ h hfound hs hattributes =>
      Build.isOneLine_construct hx.world hs hfound hattributes h
  refine hfields.bind fun fields => .pure ?_
  intro hfields hfound hattributes hs htype hargs
  rw [Value.isOneLine, hfound htype, hfields (hfound htype) hs (hattributes hs hargs)]
  rfl

lemma build (hx : x.IsOneLine q e) {name : String} (hname : isLine name = true) (args : TagList)
    (placement : Placement) :
    Yields x.world q e (x.build name args placement)
      fun built => areEntriesOneLine args = true →
        isLine built.1 = true ∧ built.2.isOneLine = true :=
  (hx.resolve hname).bind fun type => (hx.buildWith type args placement).bind fun _ =>
    .pure fun hv htype hargs => ⟨htype, hv htype hargs⟩

mutual

lemma item (hx : x.IsOneLine q e) (i : Item) (hi : i.isUnbroken = true) :
    Yields x.world q e (x.item i) fun v => v.isOneLine = true := by
  match i with
  | .value v =>
    simp only [Setting.item]
    exact .pure hi
  | .word name =>
    simp only [Setting.item]
    exact hx.wordValue (isLine_of_isUnbroken hi)
  | .list es =>
    simp only [Setting.item]
    exact (hx.entries es hi []).bind fun args => .pure fun h => h rfl
  | .nested name args =>
    rw [Item.isUnbroken, Bool.and_eq_true] at hi
    simp only [Setting.item]
    exact (hx.entries args hi.2 []).bind fun args =>
      (hx.build (isLine_of_isUnbroken hi.1) args .nested).bind fun built =>
        .pure fun h hargs => (h (hargs rfl)).2

lemma entries (hx : x.IsOneLine q e) (es : Entries) (hes : es.isUnbroken = true) (acc : TagList) :
    Yields x.world q e (x.entries es acc)
      fun args => areEntriesOneLine acc = true → areEntriesOneLine args = true := by
  match es with
  | .closed =>
    simp only [Setting.entries]
    exact .pure id
  | .entry key i rest =>
    rw [Entries.isUnbroken, Bool.and_eq_true, Bool.and_eq_true] at hes
    simp only [Setting.entries]
    refine (hx.item i hes.1.2).bind fun v =>
      (hx.entries rest hes.2 _).mono fun args h hv hacc => h ?_
    refine areEntriesOneLine_iff.2 fun entry hentry => ?_
    rcases TagList.mem_append hentry with hbefore | rfl
    · exact areEntriesOneLine_iff.1 hacc entry hbefore
    · refine ⟨?_, hv⟩
      cases key with
      | none => rfl
      | some key => exact isLine_of_isUnbroken hes.1.1
  | .broken none error =>
    simp only [Setting.entries]
    exact .throw error
  | .broken (some i) error =>
    rw [Entries.isUnbroken] at hes
    simp only [Setting.entries]
    exact (hx.item i hes).bind fun _ => .throw error

end

lemma tag (hx : x.IsOneLine q e) (c : Comment) (t : Tag) (ht : t.isUnbroken = true) :
    Yields x.world q e (x.tag c t) fun c' => c.IsOneLine → c'.IsOneLine := by
  cases t with
  | plain name text =>
    refine .pure fun hc => hc.add ht ?_
    split <;> rfl
  | list name es after =>
    rw [Tag.isUnbroken, Bool.and_eq_true] at ht
    refine (hx.entries es ht.2 []).bind fun args => ?_
    cases after with
    | some t => exact .throw _
    | none => exact .pure fun hargs hc => hc.add ht.1 (hargs rfl)
  | typed name args =>
    rw [Tag.isUnbroken, Bool.and_eq_true] at ht
    exact (hx.entries args ht.2 []).bind fun args =>
      (hx.build (isLine_of_isUnbroken ht.1) args x.placement).bind fun built =>
        .pure fun hbuilt hargs hc => hc.annotate (hbuilt (hargs rfl)).1 (hbuilt (hargs rfl)).2

lemma tags (hx : x.IsOneLine q e) (c : Comment) (ts : List Tag)
    (hts : ∀ t ∈ ts, t.isUnbroken = true) :
    Yields x.world q e (x.tags c ts) fun c' => c.IsOneLine → c'.IsOneLine := by
  induction ts generalizing c with
  | nil => exact .pure id
  | cons t ts ih =>
    obtain ⟨ht, hts⟩ := List.forall_mem_cons.1 hts
    exact (hx.tag c t ht).bind fun c₁ => (ih c₁ hts).mono fun c₂ h h₁ hc => h (h₁ hc)

/-- A block that is read makes a comment with tags without blanks in their names and with values on
one line. -/
lemma read (hx : x.IsOneLine q e) (block : List Char) :
    Yields x.world q e (x.read block) fun c => c.IsOneLine := by
  have hempty : ∀ description, Comment.IsOneLine { description } := fun _ =>
    ⟨List.forall_mem_nil _, List.forall_mem_nil _⟩
  unfold Setting.read
  split
  · exact .pure (hempty _)
  · next before text _ =>
    exact (hx.tags _ _ Tag.isUnbroken_of_mem_ofSection).mono fun _ h => h (hempty _)

end IsOneLine
end Setting

namespace Reader

/-- A comment that was read is on one line if the world, the scope, the names that were known before
and the schemas that are cached in the end are. -/
lemma isOneLine_of_parse {w : World} (hw : w.isOneLine = true) {scope : Scope}
    (hscope : scope.isOneLine = true) {r r' : Reader} (hr : r.names.isOneLine = true)
    (hr' : ∀ type s, r'.resolved.get? type = some s → s.isOneLine = true) {text : String}
    {placement : Placement} {c : Comment} (h : parse w text placement scope r = (.ok c, r')) :
    c.IsOneLine := by
  rw [parse, readBlock, Run.bind_ok (Run.get_apply r)] at h
  have hx : Setting.IsOneLine
      { world := w, scope, placement, owner := none, schemaOf := resolveWithin w (depth w r) false }
      r r' :=
    ⟨hw, hscope, hr, fun type => .resolveWithin hr' (depth w r) type⟩
  exact (hx.read text.toList).result h (.refl r) (.refl r')

end Reader
end DocTags
