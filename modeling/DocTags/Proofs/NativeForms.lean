import DocTags.Proofs.Conversion

/-!
# Native forms are equal to their tag lists

A list without keys, a list with keys only and a mixed one each have a native form of their own:
a list, a dictionary and the tag list itself.  Equality compares a tag list with all three, and
looks at its keys anew.  That the two agree at every level is `equal_native` and `native_equal`, one
for each side of the sign.  Below the top the elements are compared by `same`, for which it is
enough that every value is the same as itself (`same_self`), numbers that are none included.

What remains of the tag lists is said with paths.  `Inside` leads into lists, tuples and
dictionaries, as they stand in a native form, and `Along` leads into tag lists, as long as these are
not mixed.  Conversion keeps the paths, so a tag list that is inside the native form is at the same
path along the unmixed lists, and is mixed: these are the outermost mixed lists.

The main result is `list_equals_native_form`.
-/

namespace DocTags
namespace Value

/-! ## Every value is the same as itself -/

lemma isSameNaN_self {x : Binary64} {m : Nat} (h : x.isNaN = true) :
    isSameNaN (float x m) (float x m) = true := by
  rw [isSameNaN, h, beq_self_eq_true, beq_self_eq_true, Bool.and_self, Bool.and_self]

lemma equal_float_self {x : Binary64} {m : Nat} (h : x.isNaN = false) :
    equal (float x m) (float x m) = true := by
  simp [equal, number?, Number.equal, Binary64.equal, h]

mutual

lemma same_self (v : Value) : (isSameNaN v v || equal v v) = true := by
  cases v with
  | float x m =>
    cases hnan : x.isNaN with
    | true => rw [isSameNaN_self hnan, Bool.true_or]
    | false => rw [equal_float_self hnan, Bool.or_true]
  | list items => rw [equal, equalItems_self items, Bool.or_true]
  | tuple items => rw [equal, equalItems_self items, Bool.or_true]
  | dict pairs =>
    have hpairs := equalPairs_self pairs (List.Subset.refl pairs)
    rw [equal, hpairs, beq_self_eq_true, Bool.and_self, Bool.or_true]
  | tags entries => rw [equal, equalEntries_self entries, Bool.or_true]
  | object origin type fields =>
    rw [equal, equalFields_self fields, beq_self_eq_true, beq_self_eq_true, Bool.and_self,
      Bool.and_self, Bool.or_true]
  | typeExpr t => rw [equal, equalType_self t, Bool.or_true]
  | _ => simp [equal, number?, Number.equal]

lemma equalItems_self (vs : List Value) : equalItems vs vs = true := by
  cases vs with
  | nil => rw [equalItems]
  | cons v vs => rw [equalItems, same_self v, equalItems_self vs, Bool.and_self]

lemma equalPairs_self (pairs : List (Value × Value)) {all : List (Value × Value)}
    (h : pairs ⊆ all) : equalPairs pairs all = true := by
  cases pairs with
  | nil => rw [equalPairs]
  | cons pair pairs =>
    obtain ⟨key, v⟩ := pair
    obtain ⟨hmem, hpairs⟩ := List.cons_subset.1 h
    rw [equalPairs, equalPairs_self pairs hpairs, Bool.and_true, List.any_eq_true]
    exact ⟨(key, v), hmem, by rw [same_self key, same_self v, Bool.and_self]⟩

lemma equalEntries_self (entries : List (Option String × Value)) :
    equalEntries entries entries = true := by
  cases entries with
  | nil => rw [equalEntries]
  | cons entry entries =>
    obtain ⟨key, v⟩ := entry
    rw [equalEntries, same_self v, equalEntries_self entries, beq_self_eq_true, Bool.and_self,
      Bool.and_self]

lemma equalFields_self (fields : List (String × Value)) : equalFields fields fields = true := by
  cases fields with
  | nil => rw [equalFields]
  | cons field fields =>
    obtain ⟨name, v⟩ := field
    rw [equalFields, same_self v, equalFields_self fields, beq_self_eq_true, Bool.and_self,
      Bool.and_self]

lemma equalType_self (t : TypeExpr) : equalType t t = true := by
  cases t with
  | «enum» values => rw [equalType, equalItems_self values]
  | tuple items => rw [equalType, equalTypes_self items]
  | list item => rw [equalType, equalType_self item]
  | _ => simp [equalType]

lemma equalTypes_self (ts : List TypeExpr) : equalTypes ts ts = true := by
  cases ts with
  | nil => rw [equalTypes]
  | cons t ts => rw [equalTypes, equalType_self t, equalTypes_self ts, Bool.and_self]

end

/-! ## Equality with the native form -/

variable {entries : TagList} {u v : Value}

/-- `true` on the lists that have entries with and without keys. -/
def isMixed (entries : TagList) : Bool :=
  entries.any hasKey && !entries.all hasKey

/-- A tag list has no keys, or keys only, or it is mixed. -/
lemma native_cases (entries : TagList) :
    (entries.any hasKey = false ∧ isMixed entries = false ∧
        (tags entries).native = list (nativeItems entries)) ∨
      (entries.all hasKey = true ∧ entries.any hasKey = true ∧ isMixed entries = false ∧
        (tags entries).native = dict (nativePairs entries)) ∨
      (isMixed entries = true ∧ (tags entries).native = tags entries) := by
  cases hany : entries.any hasKey with
  | false =>
    refine .inl ⟨rfl, by rw [isMixed, hany, Bool.false_and], ?_⟩
    rw [native_unkeyed hany, nativeItems_eq_map]
  | true =>
    cases hall : entries.all hasKey with
    | true =>
      refine .inr (.inl ⟨rfl, rfl, ?_, native_keyed hany hall⟩)
      rw [isMixed, hall, Bool.not_true, Bool.and_false]
    | false => exact .inr (.inr ⟨by rw [isMixed, hany, hall]; rfl, native_mixed hany hall⟩)

lemma length_nativePairs (h : entries.all hasKey = true) :
    (nativePairs entries).length = entries.length := by
  induction entries with
  | nil => rfl
  | cons entry entries ih =>
    obtain ⟨key, v⟩ := entry
    rw [List.all_cons, Bool.and_eq_true] at h
    cases key with
    | none => nomatch h.1
    | some key => exact congrArg (· + 1) (ih h.2)

lemma mem_nativePairs {pair : Value × Value} :
    pair ∈ nativePairs entries ↔ ∃ key v, (some key, v) ∈ entries ∧ pair = (str key, native v) := by
  induction entries with
  | nil => simp [nativePairs]
  | cons entry entries ih =>
    obtain ⟨key, v⟩ := entry
    cases key with
    | none => simp [nativePairs, ih]
    | some key =>
      rw [nativePairs, List.mem_cons, ih]
      constructor
      · rintro (rfl | ⟨key', v', hmem, rfl⟩)
        · exact ⟨key, v, List.mem_cons_self, rfl⟩
        · exact ⟨key', v', List.mem_cons_of_mem _ hmem, rfl⟩
      · rintro ⟨key', v', hmem, rfl⟩
        rcases List.mem_cons.1 hmem with heq | hmem
        · obtain ⟨hkey, rfl⟩ := Prod.mk.inj heq
          exact .inl (by rw [Option.some.inj hkey])
        · exact .inr ⟨key', v', hmem, rfl⟩

/-- A tag list is equal to its native form if its entries are. -/
lemma equal_native_of (hitems : equalUnnamed entries (nativeItems entries) = true)
    (hpairs : entries.all hasKey = true → equalNamed entries (nativePairs entries) = true) :
    equal (tags entries) (tags entries).native = true := by
  rcases native_cases entries with ⟨hany, -, hnative⟩ | ⟨hall, -, -, hnative⟩ | ⟨-, hnative⟩
  · rw [hnative, equal, hany, hitems]
    rfl
  · rw [hnative, equal, hall, length_nativePairs hall, beq_self_eq_true, hpairs hall, Bool.and_self,
      Bool.and_self]
  · rw [hnative, equal, equalEntries_self]

mutual

lemma same_native (v : Value) : (isSameNaN v v.native || equal v v.native) = true := by
  cases v with
  | tags entries =>
    have hpairs := equalNamed_native entries (List.Subset.refl entries)
    rw [equal_native_of (equalUnnamed_native entries) hpairs, Bool.or_true]
  | _ =>
    rw [native_of_not_isTags rfl]
    exact same_self _

lemma equalUnnamed_native (entries : TagList) :
    equalUnnamed entries (nativeItems entries) = true := by
  cases entries with
  | nil => rw [nativeItems, equalUnnamed]
  | cons entry entries =>
    obtain ⟨key, v⟩ := entry
    rw [nativeItems, equalUnnamed, same_native v, equalUnnamed_native entries, Bool.and_self]

lemma equalNamed_native (entries : TagList) {all : TagList} (h : entries ⊆ all)
    (hall : entries.all hasKey = true) : equalNamed entries (nativePairs all) = true := by
  cases entries with
  | nil => rw [equalNamed]
  | cons entry entries =>
    obtain ⟨key, v⟩ := entry
    obtain ⟨hmem, hentries⟩ := List.cons_subset.1 h
    rw [List.all_cons, Bool.and_eq_true] at hall
    obtain ⟨key, rfl⟩ := Option.isSome_iff_exists.1 hall.1
    rw [equalNamed, equalNamed_native entries hentries hall.2, Bool.and_true, List.any_eq_true]
    refine ⟨(str key, native v), mem_nativePairs.2 ⟨key, v, hmem, rfl⟩, ?_⟩
    rw [same_native v, Bool.and_true]
    simp [isText]

end

lemma equal_native (entries : TagList) : equal (tags entries) (tags entries).native = true :=
  equal_native_of (equalUnnamed_native entries)
    (equalNamed_native entries (List.Subset.refl entries))

/-- The native form of a tag list is equal to it if those of its entries are. -/
lemma native_equal_of (hitems : equalItems (nativeItems entries) (entries.map Prod.snd) = true)
    (hpairs : equalPairsNamed (nativePairs entries) entries = true) :
    equal (tags entries).native (tags entries) = true := by
  rcases native_cases entries with ⟨hany, -, hnative⟩ | ⟨hall, -, -, hnative⟩ | ⟨-, hnative⟩
  · rw [hnative, equal, hany, hitems]
    rfl
  · rw [hnative, equal, hall, length_nativePairs hall, beq_self_eq_true, hpairs, Bool.and_self,
      Bool.and_self]
  · rw [hnative, equal, equalEntries_self]

mutual

lemma native_same (v : Value) : (isSameNaN v.native v || equal v.native v) = true := by
  cases v with
  | tags entries =>
    have hpairs := equalPairsNamed_native entries (List.Subset.refl entries)
    rw [native_equal_of (equalItems_native entries) hpairs, Bool.or_true]
  | _ =>
    rw [native_of_not_isTags rfl]
    exact same_self _

lemma equalItems_native (entries : TagList) :
    equalItems (nativeItems entries) (entries.map Prod.snd) = true := by
  cases entries with
  | nil => rw [nativeItems, List.map_nil, equalItems]
  | cons entry entries =>
    obtain ⟨key, v⟩ := entry
    rw [nativeItems, List.map_cons, equalItems, native_same v, equalItems_native entries,
      Bool.and_self]

lemma equalPairsNamed_native (entries : TagList) {all : TagList} (h : entries ⊆ all) :
    equalPairsNamed (nativePairs entries) all = true := by
  cases entries with
  | nil => rw [nativePairs, equalPairsNamed]
  | cons entry entries =>
    obtain ⟨key, v⟩ := entry
    obtain ⟨hmem, hentries⟩ := List.cons_subset.1 h
    cases key with
    | none =>
      rw [nativePairs]
      exact equalPairsNamed_native entries hentries
    | some key =>
      rw [nativePairs, equalPairsNamed, equalPairsNamed_native entries hentries, Bool.and_true,
        List.any_eq_true]
      refine ⟨(some key, v), hmem, ?_⟩
      rw [native_same v, Bool.and_true]
      simp [isText]

end

lemma native_equal (entries : TagList) : equal (tags entries).native (tags entries) = true :=
  native_equal_of (equalItems_native entries)
    (equalPairsNamed_native entries (List.Subset.refl entries))

/-! ## What equality asks of the keys -/

lemma any_hasKey_of_equal_list {items : List Value}
    (h : equal (tags entries) (list items) = true ∨ equal (list items) (tags entries) = true) :
    entries.any hasKey = false := by
  simp only [equal, Bool.and_eq_true, Bool.not_eq_true'] at h
  exact h.elim And.left And.left

lemma any_hasKey_of_equal_tuple {items : List Value}
    (h : equal (tags entries) (tuple items) = true ∨ equal (tuple items) (tags entries) = true) :
    entries.any hasKey = false := by
  simp only [equal, Bool.and_eq_true, Bool.not_eq_true'] at h
  exact h.elim And.left And.left

lemma all_hasKey_of_equal_dict {pairs : List (Value × Value)}
    (h : equal (tags entries) (dict pairs) = true ∨ equal (dict pairs) (tags entries) = true) :
    entries.all hasKey = true := by
  simp only [equal, Bool.and_eq_true] at h
  exact h.elim (fun h => h.1.1) (fun h => h.1.1)

/-! ## What remains of the tag lists -/

/-- A step into a collection: to the value at a place, or to the one under a key. -/
inductive Step where
  | place (i : Nat)
  | key (k : Value)

/-- `u` is at the end of the path through lists, tuples and dictionaries. -/
inductive Inside (u : Value) : Value → List Step → Prop
  | here : Inside u u []
  | item {items : List Value} {v : Value} {i : Nat} {path : List Step} (hv : items[i]? = some v)
      (h : Inside u v path) : Inside u (list items) (.place i :: path)
  | element {items : List Value} {v : Value} {i : Nat} {path : List Step} (hv : items[i]? = some v)
      (h : Inside u v path) : Inside u (tuple items) (.place i :: path)
  | pair {pairs : List (Value × Value)} {k v : Value} {path : List Step} (hv : (k, v) ∈ pairs)
      (h : Inside u v path) : Inside u (dict pairs) (.key k :: path)

/-- `u` is at the end of the path through tag lists that are not mixed: by places where they have no
keys, and by keys where all entries have one. -/
inductive Along (u : Value) : Value → List Step → Prop
  | here : Along u u []
  | unnamed {entries : TagList} {v : Value} {i : Nat} {path : List Step}
      (hkeys : entries.any hasKey = false) (hv : (TagList.values entries)[i]? = some v)
      (h : Along u v path) : Along u (tags entries) (.place i :: path)
  | named {entries : TagList} {key : String} {v : Value} {path : List Step}
      (hkeys : entries.all hasKey = true) (hv : (some key, v) ∈ entries) (h : Along u v path) :
      Along u (tags entries) (.key (str key) :: path)

mutual

/-- `true` on values that hold no values, and on tag lists of such values to any depth. -/
def hasPlainLeaves : Value → Bool
  | tags entries => havePlainLeaves entries
  | list _ | tuple _ | dict _ => false
  | _ => true

/-- `hasPlainLeaves` of all entries. -/
def havePlainLeaves : List (Option String × Value) → Bool
  | [] => true
  | (_, v) :: rest => hasPlainLeaves v && havePlainLeaves rest

end

lemma havePlainLeaves_iff :
    havePlainLeaves entries = true ↔ ∀ v ∈ TagList.values entries, v.hasPlainLeaves = true := by
  induction entries with
  | nil => simp [havePlainLeaves, TagList.values]
  | cons entry entries ih =>
    rw [havePlainLeaves, Bool.and_eq_true, ih]
    simp [TagList.values]

lemma inside_nil_iff : Inside u v [] ↔ v = u :=
  ⟨fun h => by cases h; rfl, fun h => h ▸ .here⟩

lemma along_nil_iff : Along u v [] ↔ v = u :=
  ⟨fun h => by cases h; rfl, fun h => h ▸ .here⟩

lemma native_eq_tags_iff {mixed : TagList} :
    v.native = tags mixed ↔ v = tags mixed ∧ isMixed mixed = true := by
  constructor
  · intro h
    cases v with
    | tags entries =>
      rcases native_cases entries with ⟨-, -, hnative⟩ | ⟨-, -, -, hnative⟩ | ⟨hmixed, hnative⟩
      · cases hnative.symm.trans h
      · cases hnative.symm.trans h
      · cases hnative.symm.trans h
        exact ⟨rfl, hmixed⟩
    | _ =>
      rw [native_of_not_isTags rfl] at h
      cases h
  · rintro ⟨rfl, hmixed⟩
    rcases native_cases mixed with ⟨-, hnot, -⟩ | ⟨-, -, hnot, -⟩ | ⟨-, hnative⟩
    · cases hnot.symm.trans hmixed
    · cases hnot.symm.trans hmixed
    · exact hnative

/-- One step of `Along`, from an unmixed tag list. -/
inductive LeadsTo (entries : TagList) : Step → Value → Prop
  | unnamed {i : Nat} {u : Value} (hkeys : entries.any hasKey = false)
      (hu : (TagList.values entries)[i]? = some u) : LeadsTo entries (.place i) u
  | named {key : String} {u : Value} (hkeys : entries.all hasKey = true)
      (hu : (some key, u) ∈ entries) : LeadsTo entries (.key (str key)) u

lemma LeadsTo.mem_values {step : Step} (h : LeadsTo entries step u) :
    u ∈ TagList.values entries := by
  cases h with
  | unnamed _ hu => exact List.mem_of_getElem? hu
  | named _ hu => exact List.mem_map.2 ⟨_, hu, rfl⟩

lemma along_cons_iff {step : Step} {path : List Step} :
    Along u (tags entries) (step :: path) ↔ ∃ v, LeadsTo entries step v ∧ Along u v path := by
  constructor
  · intro h
    cases h with
    | unnamed hkeys hv h => exact ⟨_, .unnamed hkeys hv, h⟩
    | named hkeys hv h => exact ⟨_, .named hkeys hv, h⟩
  · rintro ⟨v, hstep, h⟩
    cases hstep with
    | unnamed hkeys hv => exact .unnamed hkeys hv h
    | named hkeys hv => exact .named hkeys hv h

/-- Conversion takes the steps along, and makes no others. -/
lemma inside_native_cons_iff {step : Step} {path : List Step} :
    Inside u (tags entries).native (step :: path) ↔
      ∃ v, LeadsTo entries step v ∧ Inside u v.native path := by
  rcases native_cases entries with
    ⟨hany, -, hnative⟩ | ⟨hall, hany, -, hnative⟩ | ⟨hmixed, hnative⟩
  · rw [hnative, nativeItems_eq_map]
    constructor
    · intro h
      cases h with
      | item hitem h =>
        rw [List.getElem?_map] at hitem
        obtain ⟨v, hv, rfl⟩ := Option.map_eq_some_iff.1 hitem
        exact ⟨v, .unnamed hany hv, h⟩
    · rintro ⟨v, hstep, h⟩
      cases hstep with
      | unnamed _ hv => exact .item (by rw [List.getElem?_map, hv]; rfl) h
      | named _ hv => nomatch hany.symm.trans (List.any_eq_true.2 ⟨_, hv, rfl⟩)
  · rw [hnative]
    constructor
    · intro h
      cases h with
      | pair hpair h =>
        obtain ⟨key, v, hv, heq⟩ := mem_nativePairs.1 hpair
        obtain ⟨rfl, rfl⟩ := Prod.mk.inj heq
        exact ⟨v, .named hall hv, h⟩
    · rintro ⟨v, hstep, h⟩
      cases hstep with
      | unnamed hkeys => nomatch hany.symm.trans hkeys
      | named _ hv => exact .pair (mem_nativePairs.2 ⟨_, _, hv, rfl⟩) h
  · -- Neither relation leads into a mixed list.
    rw [hnative]
    rw [isMixed, Bool.and_eq_true, Bool.not_eq_true'] at hmixed
    constructor
    · intro h
      cases h
    · rintro ⟨v, hstep, -⟩
      cases hstep with
      | unnamed hkeys => nomatch hmixed.1.symm.trans hkeys
      | named hkeys => nomatch hmixed.2.symm.trans hkeys

/-- Conversion leads nowhere else than the unmixed lists lead, and stops where they do. -/
lemma inside_native_iff {mixed : TagList} {path : List Step} (h : v.hasPlainLeaves = true) :
    Inside (tags mixed) v.native path ↔ Along (tags mixed) v path ∧ isMixed mixed = true := by
  induction path generalizing v with
  | nil => rw [inside_nil_iff, along_nil_iff, native_eq_tags_iff]
  | cons step path ih =>
    cases v with
    | tags entries =>
      rw [hasPlainLeaves, havePlainLeaves_iff] at h
      rw [inside_native_cons_iff, along_cons_iff]
      constructor
      · rintro ⟨u, hstep, hinside⟩
        obtain ⟨halong, hmixed⟩ := (ih (h u hstep.mem_values)).1 hinside
        exact ⟨⟨u, hstep, halong⟩, hmixed⟩
      · rintro ⟨⟨u, hstep, halong⟩, hmixed⟩
        exact ⟨u, hstep, (ih (h u hstep.mem_values)).2 ⟨halong, hmixed⟩⟩
    | list _ | tuple _ | dict _ => simp [hasPlainLeaves] at h
    | _ =>
      rw [native_of_not_isTags rfl]
      exact ⟨fun h => (by cases h), fun h => (by cases h.1)⟩

/-- A tag list is equal to its native form, and the other way round.  The tag lists inside the
native form are the outermost mixed ones, each as it was and where it was; and no list or tuple is
equal to a tag list with keys, nor a dictionary to one with entries that have none. -/
theorem list_equals_native_form (entries : TagList) (h : havePlainLeaves entries = true) :
    equal (tags entries) (tags entries).native = true ∧
      equal (tags entries).native (tags entries) = true ∧
      (∀ mixed path, Inside (tags mixed) (tags entries).native path ↔
        Along (tags mixed) (tags entries) path ∧ isMixed mixed = true) ∧
      (∀ items, equal (tags entries) (list items) = true ∨
          equal (list items) (tags entries) = true ∨
          equal (tags entries) (tuple items) = true ∨ equal (tuple items) (tags entries) = true →
        entries.any hasKey = false) ∧
      ∀ pairs, equal (tags entries) (dict pairs) = true ∨ equal (dict pairs) (tags entries) = true →
        entries.all hasKey = true := by
  refine ⟨equal_native entries, native_equal entries, fun mixed path => ?_, fun items hequal => ?_,
    fun pairs => all_hasKey_of_equal_dict⟩
  · exact inside_native_iff (by rwa [hasPlainLeaves])
  · rcases hequal with h | h | h
    · exact any_hasKey_of_equal_list (.inl h)
    · exact any_hasKey_of_equal_list (.inr h)
    · exact any_hasKey_of_equal_tuple h

/-- In `{{a: 1, "x"}, {k: true}}` the mixed list remains, and the other one becomes a dictionary. -/
theorem list_equals_native_form_nested :
    let mixed : TagList := [(some "a", int 1), (none, str "x")]
    let outer : TagList := [(none, tags mixed), (none, tags [(some "k", bool true)])]
    let native := list [tags mixed, dict [(str "k", bool true)]]
    havePlainLeaves outer = true ∧ equal (tags outer) native = true ∧
      equal native (tags outer) = true ∧ Inside (tags mixed) native [.place 0] ∧
      ¬ Inside (tags outer) native [] := by
  intro mixed outer native
  obtain ⟨hequal, hequal', hinside, -⟩ := list_equals_native_form outer rfl
  refine ⟨rfl, hequal, hequal', (hinside mixed [.place 0]).2 ⟨.unnamed rfl rfl .here, rfl⟩, ?_⟩
  intro h
  nomatch ((hinside outer []).1 h).2

end Value
end DocTags
