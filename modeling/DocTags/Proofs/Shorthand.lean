import DocTags.Proofs.Arguments
import DocTags.Proofs.Commuting

/-!
# The argument without a name

An argument without a name is taken for the default attribute, and stands behind all others then.
The checks do not depend on the order of the arguments, and the constructor looks for its parameters
by name.  So what is left of the difference between the unnamed argument and the same one with a
name is the place of one deed: the value is handed over last, and not where it was written.

This cannot be seen if the deed has nothing to do with those between the two places (`Deed.Apart`).
Two setters that write the same field do have to do with one another: the later one decides.

The main result is `unnamed_argument_is_shorthand`.
-/

namespace DocTags

/-- Contracts have a label only if the name of their attribute is no text. -/
def Schema.Labelled (s : Schema) : Prop :=
  ∀ entry ∈ s.attributes, ∀ label ∈ entry.2.label, ∀ name, label.isText name = false

/-- Two builds come out alike: both fail, or both give an object of the same class whose fields have
the same values. -/
inductive SameBuilt : Except Error Value → Except Error Value → Prop
  | failed (e e' : Error) : SameBuilt (.error e) (.error e')
  | built (origin : Origin) (type : TypeId) {fields fields' : Keyed Value}
      (h : ∀ name, fields.get? name = fields'.get? name) :
      SameBuilt (.ok (.object origin type fields)) (.ok (.object origin type fields'))

namespace Build

variable {w : World} {find : TypeId → Option TypeId} {type : TypeId} {s : Schema}
  {supplied : Value} {placement : Placement}

/-! ## Checks in any order -/

section Checks

lemma key_of_declared? (hlabels : s.Labelled) {name key : String} {spec : AttributeSpec}
    (h : declared? s name = some (key, spec)) : key = name := by
  have htext := List.find?_some h
  dsimp only at htext
  rw [AttributeSpec.nameValue] at htext
  cases hlabel : spec.label with
  | none =>
    rw [hlabel] at htext
    exact (eq_of_beq htext).symm
  | some label =>
    rw [hlabel, Option.getD_some,
      hlabels _ (List.mem_of_find?_eq_some h) label (by simp [hlabel]) name] at htext
    cases htext

/-- One argument after the other is checked, and they pass if each of them fits. -/
lemma checkAttributes_pairsOf (hlabels : s.Labelled) (args : Keyed Value) {n : Names}
    (hn : n.loaded? w = find) :
    (∀ a ∈ args, Fits w find s a) ∧ (∃ n' : Names, n'.loaded? w = find ∧
        checkAttributes w type s (pairsOf args) n = (.ok args, n')) ∨
      ¬ (∀ a ∈ args, Fits w find s a) ∧
        ∃ e n', checkAttributes w type s (pairsOf args) n = (.error e, n') := by
  induction args generalizing n with
  | nil => exact .inl ⟨nofun, n, hn, rfl⟩
  | cons a args ih =>
    obtain ⟨name, v⟩ := a
    have hfound : specOf w type s (.str name) = _ := specOf_str name
    rw [pairsOf, List.map_cons, List.forall_mem_cons]
    cases hspec : declared? s name with
    | none =>
      rw [hspec] at hfound
      refine .inr ⟨fun h => ?_, .unknownAttribute name type, n, ?_⟩
      · obtain ⟨key, spec, hfits, -⟩ := h.1
        cases hspec.symm.trans hfits
      · rw [checkAttributes, hfound]
        exact Run.bind_error (Run.liftExcept_apply _ n) _
    | some found =>
      obtain ⟨key, spec⟩ := found
      obtain rfl := key_of_declared? hlabels hspec
      rw [hspec] at hfound
      -- The value passes by itself, and the others are checked with what is known then.
      suffices hhead : (Fits w find s (key, v) ∧ ∃ n₁ : Names, n₁.loaded? w = find ∧
          checkAttributes w type s ((.str key, v) :: pairsOf args) n =
            (do return (key, v) :: (← checkAttributes w type s (pairsOf args)) : Run Names _) n₁) ∨
          ¬ Fits w find s (key, v) ∧
            ∃ e n', checkAttributes w type s ((.str key, v) :: pairsOf args) n = (.error e, n') by
        rcases hhead with ⟨hfits, n₁, hn₁, hrun⟩ | ⟨hfits, e, n', hrun⟩
        · rcases ih hn₁ with ⟨hall, n', hn', hrest⟩ | ⟨hall, e, n', hrest⟩
          · exact .inl ⟨⟨hfits, hall⟩, n', hn', hrun.trans (by rw [Run.bind_ok hrest]; rfl)⟩
          · exact .inr ⟨fun h => hall h.2, e, n', hrun.trans (Run.bind_error hrest _)⟩
        · exact .inr ⟨fun h => hfits h.1, e, n', hrun⟩
      by_cases hnull : v = .null ∧ spec.nullable = true
      · obtain ⟨rfl, hnullable⟩ := hnull
        exact .inl ⟨⟨key, spec, hspec, .inl ⟨rfl, hnullable⟩⟩, n, hn,
          checkAttributes_null hfound (pairsOf args) n hnullable⟩
      · obtain ⟨hpass, hstate⟩ := TypeExpr.check_decides key v spec.type n hn
        rw [checkAttributes_check hfound (pairsOf args) n hnull]
        rcases hres : TypeExpr.check w (some (Names.load w)) key v spec.type n with ⟨e | u, n₁⟩
        · rw [hres] at hpass
          refine .inr ⟨?_, e, n₁, Run.bind_error hres _⟩
          rintro ⟨key', spec', hspec', hfits⟩
          obtain ⟨-, rfl⟩ := Prod.mk.inj (Option.some.inj (hspec.symm.trans hspec'))
          rcases hfits with hfits | hfits
          · exact hnull hfits
          · cases hpass.2 hfits
        · rw [hres] at hpass hstate
          exact .inl ⟨⟨key, spec, hspec, .inr (hpass.1 rfl)⟩, n₁, hstate, Run.bind_ok hres _⟩

/-- The arguments pass all checks before an object is made. -/
structure Passes (w : World) (find : TypeId → Option TypeId) (s : Schema) (args : Keyed Value)
    (placement : Placement) : Prop where
  placed : s.targets.allows placement = true
  fits : ∀ a ∈ args, Fits w find s a
  complete : checkRequired s args = .ok ()

/-- The order of the arguments does not matter. -/
lemma Passes.perm {args args' : Keyed Value} (h : Passes w find s args placement)
    (hperm : args.Perm args') : Passes w find s args' placement := by
  refine ⟨h.placed, fun a ha => h.fits a (hperm.mem_iff.2 ha), ?_⟩
  have hhas : ∀ name, args'.has name = args.has name := fun name => hperm.symm.any_eq
  unfold checkRequired
  simp only [hhas]
  exact h.complete

lemma checked_pairsOf (hlabels : s.Labelled) {args : Keyed Value}
    (hnormal : normalize type s supplied = .ok (pairsOf args)) {n : Names}
    (hn : n.loaded? w = find) :
    Passes w find s args placement ∧ (∃ n' : Names, n'.loaded? w = find ∧
        checked w type s supplied placement n = (.ok args, n')) ∨
      ¬ Passes w find s args placement ∧
        ∃ e n', checked w type s supplied placement n = (.error e, n') := by
  unfold checked
  rw [hnormal]
  cases hplaced : s.targets.allows placement with
  | false => exact .inr ⟨fun h => (nomatch hplaced.symm.trans h.placed), _, n, rfl⟩
  | true =>
    rw [Bool.not_true, if_neg Bool.false_ne_true]
    dsimp only
    rw [Run.bind_ok (Run.liftExcept_apply _ n)]
    rcases checkAttributes_pairsOf hlabels args hn with
      ⟨hfits, n', hn', hrun⟩ | ⟨hfits, e, n', hrun⟩
    · rw [Run.bind_ok hrun]
      cases hcomplete : checkRequired s args with
      | error e => exact .inr ⟨fun h => (nomatch hcomplete.symm.trans h.complete), e, n', rfl⟩
      | ok u => exact .inl ⟨⟨hplaced, hfits, hcomplete⟩, n', hn', rfl⟩
    · exact .inr ⟨fun h => hfits h.fits, e, n', Run.bind_error hrun _⟩

/-- The same arguments in another order are checked alike. -/
lemma checked_perm (hlabels : s.Labelled) {args args' : Keyed Value} (hperm : args.Perm args')
    {supplied' : Value} (hnormal : normalize type s supplied = .ok (pairsOf args))
    (hnormal' : normalize type s supplied' = .ok (pairsOf args')) (placement : Placement)
    (n : Names) :
    (∃ n₁ n₂ : Names, n₁.loaded? w = n.loaded? w ∧ n₂.loaded? w = n.loaded? w ∧
      checked w type s supplied placement n = (.ok args, n₁) ∧
      checked w type s supplied' placement n = (.ok args', n₂)) ∨
    ∃ e e' n₁ n₂, checked w type s supplied placement n = (.error e, n₁) ∧
      checked w type s supplied' placement n = (.error e', n₂) := by
  have hn : n.loaded? w = n.loaded? w := rfl
  rcases @checked_pairsOf w _ type s supplied placement hlabels args hnormal n hn with
    ⟨hpass, n₁, hn₁, hrun⟩ | ⟨hfail, e, n₁, hrun⟩
  · rcases @checked_pairsOf w _ type s supplied' placement hlabels args' hnormal' n hn with
      ⟨-, n₂, hn₂, hrun'⟩ | ⟨hfail, -⟩
    · exact .inl ⟨n₁, n₂, hn₁, hn₂, hrun, hrun'⟩
    · exact absurd (hpass.perm hperm) hfail
  · rcases @checked_pairsOf w _ type s supplied' placement hlabels args' hnormal' n hn with
      ⟨hpass, -⟩ | ⟨-, e', n₂, hrun'⟩
    · exact absurd (hpass.perm hperm.symm) hfail
    · exact .inr ⟨e, e', n₁, n₂, hrun, hrun'⟩

end Checks

/-! ## The same arguments for the constructor -/

section Deeds

/-- The constructor looks for its parameters by name. -/
lemma takeArgs_fst_congr {attributes attributes' : Keyed Value}
    (h : ∀ name, attributes.get? name = attributes'.get? name) (names : List String) :
    (takeArgs s names attributes).1 = (takeArgs s names attributes').1 := by
  induction names generalizing attributes attributes' with
  | nil => rfl
  | cons name names ih =>
    cases hget : attributes.get? name with
    | none =>
      rw [takeArgs_of_none hget, takeArgs_of_none ((h name).symm.trans hget), ih h]
    | some v =>
      rw [takeArgs_of_some hget, takeArgs_of_some ((h name).symm.trans hget)]
      refine congrArg (v.native :: ·) (ih fun other => ?_)
      by_cases hother : other = name
      · rw [hother, Keyed.get?_erase_self, Keyed.get?_erase_self]
      · rw [Keyed.get?_erase_of_ne _ hother, Keyed.get?_erase_of_ne _ hother, h]

/-- What is handed over of some attributes: those that the constructor does not take. -/
def handings (s : Schema) (attributes : Keyed Value) : List Deed :=
  (attributes.filter fun entry => entry.1 ∉ s.constructor.getD []).map (handing s)

lemma deeds_eq (attributes : Keyed Value) :
    deeds s attributes =
      .create (takeArgs s (s.constructor.getD []) attributes).1 :: handings s attributes := by
  rw [deeds, takeArgs_snd, handings]

lemma handings_append (attributes attributes' : Keyed Value) :
    handings s (attributes ++ attributes') = handings s attributes ++ handings s attributes' := by
  rw [handings, List.filter_append, List.map_append]
  rfl

lemma handings_cons (entry : String × Value) (attributes : Keyed Value) :
    handings s (entry :: attributes) = handings s [entry] ++ handings s attributes :=
  handings_append [entry] attributes

/-- An argument can be found by its name wherever it stands. -/
lemma get?_moved {args args' : Keyed Value} {d : String} (hfresh : args'.get? d = none) (v : Value)
    (name : String) :
    Keyed.get? (args ++ args' ++ [(d, v)]) name = Keyed.get? (args ++ (d, v) :: args') name := by
  unfold Keyed.get? at hfresh ⊢
  rw [List.append_assoc, List.lookup_append, List.lookup_append, List.lookup_append,
    List.lookup_cons, List.lookup_cons, List.lookup_nil]
  by_cases hname : name = d
  · rw [hname, hfresh, Option.none_or]
  · rw [beq_eq_false_iff_ne.2 hname, Option.or_none]

/-- The object that some deeds make of nothing. -/
def made (w : World) (found : TypeId) (ds : List Deed) : Except Error Value :=
  (ds.foldlM (Deed.perform w found) []).map (Value.object (.built none) found)

lemma object_of_made {found : TypeId} {ds : List Deed} {v : Value} (h : made w found ds = .ok v) :
    ∃ fields, v = .object (.built none) found fields := by
  unfold made at h
  cases hfields : ds.foldlM (Deed.perform w found) [] with
  | error e =>
    rw [hfields] at h
    cases h
  | ok fields =>
    rw [hfields] at h
    exact ⟨fields, (Except.ok.inj h).symm⟩

lemma sameBuilt_made {found : TypeId} {ds ds' : List Deed}
    (h : Alike Set.univ (ds.foldlM (Deed.perform w found) [])
      (ds'.foldlM (Deed.perform w found) [])) : SameBuilt (made w found ds) (made w found ds') := by
  unfold made
  generalize ds.foldlM (Deed.perform w found) [] = x at h ⊢
  generalize ds'.foldlM (Deed.perform w found) [] = y at h ⊢
  cases h with
  | failed e e' => exact .failed e e'
  | same h => exact .built _ found fun name => h name (Set.mem_univ name)

/-- After the same beginning, what is handed over of one attribute can be put behind others that it
has nothing to do with. -/
lemma sameBuilt_moved {found : TypeId} {entry : String × Value} {ds : List Deed}
    (h : ∀ d ∈ handings s [entry], ∀ d' ∈ ds, d.Apart w found d') (first : List Deed) :
    SameBuilt (made w found (first ++ ds ++ handings s [entry]))
      (made w found (first ++ handings s [entry] ++ ds)) := by
  refine sameBuilt_made ?_
  rw [List.append_assoc, List.append_assoc, List.foldlM_append, List.foldlM_append]
  cases first.foldlM (Deed.perform w found) [] with
  | error e => exact .refl _ _
  | ok fields =>
    by_cases htaken : entry.1 ∈ s.constructor.getD []
    · have hnone : handings s [entry] = [] := by simp [handings, htaken]
      rw [hnone, List.append_nil, List.nil_append]
      exact .refl _ _
    · have hone : handings s [entry] = [handing s entry] := by simp [handings, htaken]
      rw [hone, List.forall_mem_singleton] at h
      rw [hone]
      exact (alike_moved h fields).symm

end Deeds

end Build

namespace TagList

lemma positional_eq_nil {entries : TagList} (h : ∀ entry ∈ entries, entry.1.isSome = true) :
    positional entries = [] := by
  refine List.map_eq_nil_iff.2 (List.filter_eq_nil_iff.2 fun entry hentry hnone => ?_)
  rw [Option.isNone_iff_eq_none] at hnone
  have hsome := h entry hentry
  rw [hnone] at hsome
  cases hsome

end TagList

namespace Build

section Arguments

variable {w : World} {type : TypeId} {s : Schema} {d : String} {before after : TagList}

lemma normalize_named (hkeyed : ∀ entry ∈ before ++ after, entry.1.isSome = true) (v : Value) :
    normalize type s (.tags (before ++ (some d, v) :: after)) =
      .ok (pairsOf (TagList.named before ++ (d, v) :: TagList.named after)) := by
  have hpositional : TagList.positional (before ++ (some d, v) :: after) = [] :=
    TagList.positional_eq_nil fun entry hentry => by
      rcases List.mem_append.1 hentry with hentry | hentry
      · exact hkeyed entry (List.mem_append_left _ hentry)
      · rcases List.mem_cons.1 hentry with rfl | hentry
        · rfl
        · exact hkeyed entry (List.mem_append_right _ hentry)
  have hnamed : TagList.named (before ++ (some d, v) :: after) =
      TagList.named before ++ (d, v) :: TagList.named after :=
    List.filterMap_append
  unfold normalize
  dsimp only
  rw [hpositional, hnamed]
  rfl

lemma normalize_unnamed (hdefault : s.defaultAttribute = some d) (hne : d ≠ "")
    (hkeyed : ∀ entry ∈ before ++ after, entry.1.isSome = true)
    (hfresh : d ∉ TagList.keys (before ++ after)) (v : Value) :
    normalize type s (.tags (before ++ (none, v) :: after)) =
      .ok (pairsOf (TagList.named before ++ TagList.named after ++ [(d, v)])) := by
  have hpositional : TagList.positional (before ++ (none, v) :: after) = [v] := by
    rw [List.forall_mem_append] at hkeyed
    have hsplit : TagList.positional (before ++ (none, v) :: after) =
        TagList.positional before ++ v :: TagList.positional after := by
      simp [TagList.positional]
    rw [hsplit, TagList.positional_eq_nil hkeyed.1, TagList.positional_eq_nil hkeyed.2]
    rfl
  have hnamed : TagList.named (before ++ (none, v) :: after) = TagList.named (before ++ after) := by
    simp [TagList.named]
  have hhas : (TagList.named (before ++ after)).has d = false := by
    rw [Keyed.has_eq_contains_names, TagList.names_named]
    simpa using hfresh
  unfold normalize
  dsimp only
  rw [hpositional, hnamed, hdefault]
  dsimp only
  rw [Option.getD_some, if_neg (by simpa using hne), hhas, if_neg Bool.false_ne_true]
  simp [pairsOf, TagList.named]

end Arguments

end Build

namespace Reader

open Names

variable {w : World} {type : TypeId} {s : Schema} {supplied : Value} {placement : Placement}
  {r r₁ : Reader}

/-- What comes of a build after its checks. -/
lemma build_of_pass {attributes : Keyed Value} {n' : Names}
    (hschema : resolveSchema w type r = (.ok s, r₁))
    (hchecked : Build.checked w type s supplied placement r₁.names = (.ok attributes, n'))
    (hn' : n'.loaded? w = r₁.names.loaded? w) :
    (Reader.build w type supplied placement r).1 =
      (r₁.names.loaded? w type).elim (.error (.unresolved type)) fun found =>
        Build.made w found (Build.deeds s attributes) := by
  rw [resolveSchema, Run.bind_ok (Run.get_apply r)] at hschema
  have hpass : onNames (Build.checked w type s supplied placement) r₁ =
      (.ok attributes, { r₁ with names := n' }) := by
    rw [onNames, hchecked]
  obtain ⟨n₂, -, hload⟩ := load_apply w n' type
  rw [hn'] at hload
  rw [build_eq, buildWith, Run.bind_ok hschema, Run.bind_ok hpass]
  cases hfound : r₁.names.loaded? w type with
  | none =>
    have hrun : onNames (load w type) { r₁ with names := n' } =
        (.error (.unresolved type), { r₁ with names := n₂ }) := by
      rw [onNames, hload, hfound]
      rfl
    rw [Run.bind_error hrun]
    rfl
  | some found =>
    have hrun : onNames (load w type) { r₁ with names := n' } =
        (.ok found, { r₁ with names := n₂ }) := by
      rw [onNames, hload, hfound]
      rfl
    rw [Run.bind_ok hrun, Build.construct_eq_foldlM, Option.elim_some, Build.made]
    cases (Build.deeds s attributes).foldlM (Build.Deed.perform w found) [] <;> rfl

lemma build_of_refused {e : Error} {n' : Names} (hschema : resolveSchema w type r = (.ok s, r₁))
    (hchecked : Build.checked w type s supplied placement r₁.names = (.error e, n')) :
    (Reader.build w type supplied placement r).1 = .error e := by
  rw [resolveSchema, Run.bind_ok (Run.get_apply r)] at hschema
  have hrefused : onNames (Build.checked w type s supplied placement) r₁ =
      (.error e, { r₁ with names := n' }) := by
    rw [onNames, hchecked]
  rw [build_eq, buildWith, Run.bind_ok hschema, Run.bind_error hrefused]

/-- The unnamed argument is for the default attribute.  With the name of that attribute written out,
the arguments pass the checks if and only if they do without it.  Then the constructor gets the same
arguments and the same values are handed over; only the value that had no name is handed over last.
If this has nothing to do with what is handed over in between, the two builds come out alike. -/
theorem unnamed_argument_is_shorthand (w : World) (type : TypeId) (s : Schema) (d : String)
    (v : Value) (before after : TagList) (placement : Placement) (r r₁ : Reader)
    (hschema : resolveSchema w type r = (.ok s, r₁)) (hlabels : s.Labelled)
    (hdefault : s.defaultAttribute = some d) (hne : d ≠ "")
    (hkeyed : ∀ entry ∈ before ++ after, entry.1.isSome = true)
    (hfresh : d ∉ TagList.keys (before ++ after)) :
    let passes entries :=
      (onNames (Build.checked w type s (.tags entries) placement) r₁).1.isOk = true
    let built entries := (Reader.build w type (.tags entries) placement r).1
    let unnamed := before ++ (none, v) :: after
    let named := before ++ (some d, v) :: after
    (passes unnamed ↔ passes named) ∧
    ((∃ e e', built unnamed = .error e ∧ built named = .error e') ∨
      ∃ found args first others last,
        first = .create args :: Build.handings s (TagList.named before) ∧
        others = Build.handings s (TagList.named after) ∧ last = Build.handings s [(d, v)] ∧
        built unnamed = Build.made w found (first ++ others ++ last) ∧
        built named = Build.made w found (first ++ last ++ others) ∧
        ((∀ h ∈ last, ∀ h' ∈ others, h.Apart w found h') →
          SameBuilt (built unnamed) (built named))) := by
  intro passes built unnamed named
  set X := TagList.named before
  set Y := TagList.named after
  have hperm : (X ++ Y ++ [(d, v)]).Perm (X ++ (d, v) :: Y) := by
    rw [List.append_assoc]
    exact (List.perm_append_singleton (d, v) Y).append_left X
  have hsame : ∀ name,
      Keyed.get? (X ++ Y ++ [(d, v)]) name = Keyed.get? (X ++ (d, v) :: Y) name := by
    refine Build.get?_moved ?_ v
    have hhas : Y.has d = false := by
      have hafter : d ∉ TagList.keys after := by
        intro hmem
        rw [TagList.keys, List.filterMap_append] at hfresh
        exact hfresh (List.mem_append_right _ hmem)
      rw [Keyed.has_eq_contains_names, TagList.names_named]
      simpa using hafter
    rwa [Keyed.has_eq_isSome_get?, Option.isSome_eq_false_iff, Option.isNone_iff_eq_none] at hhas
  rcases Build.checked_perm hlabels hperm
      (Build.normalize_unnamed hdefault hne hkeyed hfresh v : Build.normalize type s _ = _)
      (Build.normalize_named hkeyed v) placement r₁.names with
    ⟨n₁, n₂, hn₁, hn₂, hrun, hrun'⟩ | ⟨e, e', n₁, n₂, hrun, hrun'⟩
  · have hbuilt := build_of_pass hschema hrun hn₁
    have hbuilt' := build_of_pass hschema hrun' hn₂
    have hpasses : passes unnamed ∧ passes named := by
      dsimp only [passes, onNames]
      rw [hrun, hrun']
      exact ⟨rfl, rfl⟩
    refine ⟨iff_of_true hpasses.1 hpasses.2, ?_⟩
    cases hfound : r₁.names.loaded? w type with
    | none =>
      rw [hfound] at hbuilt hbuilt'
      exact .inl ⟨_, _, hbuilt, hbuilt'⟩
    | some found =>
      rw [hfound, Option.elim_some, Build.deeds_eq, Build.handings_append, Build.handings_append,
        ← List.cons_append, ← List.cons_append] at hbuilt
      rw [hfound, Option.elim_some, Build.deeds_eq, Build.handings_append, Build.handings_cons,
        ← Build.takeArgs_fst_congr hsame, ← List.append_assoc, ← List.cons_append,
        ← List.cons_append] at hbuilt'
      refine .inr ⟨found, _, _, _, _, rfl, rfl, rfl, hbuilt, hbuilt', fun hapart => ?_⟩
      have halike := Build.sameBuilt_moved hapart (.create (Build.takeArgs s (s.constructor.getD [])
        (X ++ Y ++ [(d, v)])).1 :: Build.handings s X)
      rwa [← hbuilt, ← hbuilt'] at halike
  · have hfails : ¬ passes unnamed ∧ ¬ passes named := by
      dsimp only [passes, onNames]
      rw [hrun, hrun']
      exact ⟨Bool.false_ne_true, Bool.false_ne_true⟩
    exact ⟨iff_of_false hfails.1 hfails.2, .inl ⟨e, e', build_of_refused hschema hrun,
      build_of_refused hschema hrun'⟩⟩

/-- A class with two setters for one field. -/
def sharingClass : World where
  modules := [("app", [("A", .cls "app.A")])]
  classes :=
    [("app.A",
      { id := "app.A", home := "app"
        members :=
          [("set_p", .routine { name := "set_p", home := "app", effect := .write "f" .store }),
            ("set_q", .routine { name := "set_q", home := "app", effect := .write "f" .store })] })]

/-- A reader with a schema for it: two attributes have these setters, and the first is the
default. -/
def sharingReader : Reader :=
  (start [] false).register "app.A"
    { defaultAttribute := some "p"
      attributes :=
        [("p", { name := "p", setter := .str "set_p" }),
          ("q", { name := "q", setter := .str "set_q" }), ("u", { name := "u" })] }

/-- The whole number in a field of an object that was built. -/
def numberIn? (name : String) : Except Error Value → Option Int
  | .ok (.object _ _ fields) =>
    match Keyed.get? fields name with
    | some (.int n) => some n
    | _ => none
  | _ => none

/-- The unnamed argument and the one with another name are written to different fields. -/
theorem unnamed_argument_is_shorthand_apart :
    let unnamed : TagList := [(none, .int 1), (some "u", .int 2)]
    let named : TagList := [(some "p", .int 1), (some "u", .int 2)]
    let built entries :=
      (Reader.build sharingClass "app.A" (.tags entries) .onClass sharingReader).1
    ∃ s r₁, resolveSchema sharingClass "app.A" sharingReader = (.ok s, r₁) ∧ s.Labelled ∧
      s.defaultAttribute = some "p" ∧ numberIn? "f" (built unnamed) = some 1 ∧
      SameBuilt (built unnamed) (built named) := by
  intro unnamed named built
  have hfacts : (match resolveSchema sharingClass "app.A" sharingReader with
      | (.error _, _) => false
      | (.ok s, _) =>
        (s.attributes.all fun entry => entry.2.label.isNone) && s.defaultAttribute == some "p" &&
        ((Build.handings s [("p", .int 1)]).map (Build.Deed.touched? sharingClass "app.A") ==
          [some ["f"]]) &&
        ((Build.handings s [("u", .int 2)]).map (Build.Deed.touched? sharingClass "app.A") ==
          [some ["u"]])) = true := by decide +kernel
  have hnumber : numberIn? "f" (built unnamed) = some 1 := by decide +kernel
  rcases hschema : resolveSchema sharingClass "app.A" sharingReader with ⟨e | s, r₁⟩
  · rw [hschema] at hfacts
    cases hfacts
  · rw [hschema] at hfacts
    simp only [Bool.and_eq_true, beq_iff_eq, List.all_eq_true, Option.isNone_iff_eq_none] at hfacts
    obtain ⟨⟨⟨hlabels, hdefault⟩, hp⟩, hu⟩ := hfacts
    have hlabelled : s.Labelled := by
      intro entry hentry label hlabel
      rw [hlabels entry hentry] at hlabel
      cases hlabel
    obtain ⟨-, hfail | ⟨found, args, first, others, last, -, rfl, rfl, hmade, -, halike⟩⟩ :=
      unnamed_argument_is_shorthand sharingClass "app.A" s "p" (.int 1) [] [(some "u", .int 2)]
        .onClass sharingReader r₁ hschema hlabelled hdefault (by decide) (by decide) (by decide)
    · obtain ⟨e, -, herror, -⟩ := hfail
      have hnone : numberIn? "f" (built unnamed) = none := congrArg (numberIn? "f") herror
      cases hnone.symm.trans hnumber
    · obtain rfl : found = "app.A" := by
        have htype : (match built unnamed with
          | .ok (.object _ type _) => some type
          | _ => none) = some "app.A" := by decide +kernel
        cases hresult : built unnamed with
        | error e =>
          rw [hresult] at htype
          cases htype
        | ok v =>
          obtain ⟨fields, rfl⟩ := Build.object_of_made (hmade.symm.trans hresult)
          rw [hresult] at htype
          exact Option.some.inj htype
      refine ⟨s, r₁, rfl, hlabelled, hdefault, hnumber, halike fun d hd d' hd' => ?_⟩
      have htouched := List.mem_map_of_mem (f := Build.Deed.touched? sharingClass "app.A") hd
      have htouched' := List.mem_map_of_mem (f := Build.Deed.touched? sharingClass "app.A") hd'
      rw [hp, List.mem_singleton] at htouched
      rw [show TagList.named [(some "u", Value.int 2)] = [("u", .int 2)] from rfl, hu,
        List.mem_singleton] at htouched'
      exact ⟨["f"], ["u"], htouched, htouched', by simp⟩

/-- The unnamed argument is handed over last, so it decides on the field; with its name written out
it is handed over first, and the other one decides. -/
theorem unnamed_argument_comes_last :
    let unnamed : TagList := [(none, .int 1), (some "q", .int 2)]
    let named : TagList := [(some "p", .int 1), (some "q", .int 2)]
    let built entries :=
      (Reader.build sharingClass "app.A" (.tags entries) .onClass sharingReader).1
    (∃ s r₁, resolveSchema sharingClass "app.A" sharingReader = (.ok s, r₁) ∧
      s.defaultAttribute = some "p") ∧
    numberIn? "f" (built unnamed) = some 1 ∧ numberIn? "f" (built named) = some 2 ∧
    ¬ SameBuilt (built unnamed) (built named) := by
  intro unnamed named built
  have hunnamed : numberIn? "f" (built unnamed) = some 1 := by decide +kernel
  have hnamed : numberIn? "f" (built named) = some 2 := by decide +kernel
  have hdefault : (match resolveSchema sharingClass "app.A" sharingReader with
      | (.error _, _) => false
      | (.ok s, _) => s.defaultAttribute == some "p") = true := by decide +kernel
  refine ⟨?_, hunnamed, hnamed, fun hsame => ?_⟩
  · rcases hschema : resolveSchema sharingClass "app.A" sharingReader with ⟨e | s, r₁⟩
    · rw [hschema] at hdefault
      cases hdefault
    · rw [hschema] at hdefault
      exact ⟨s, r₁, rfl, by simpa using hdefault⟩
  · generalize built unnamed = x at hsame hunnamed
    generalize built named = y at hsame hnamed
    cases hsame with
    | failed e e' => cases hunnamed
    | @built origin type fields fields' h =>
      unfold numberIn? at hunnamed hnamed
      dsimp only at hunnamed hnamed
      rw [h, hnamed] at hunnamed
      cases hunnamed

end Reader
end DocTags
