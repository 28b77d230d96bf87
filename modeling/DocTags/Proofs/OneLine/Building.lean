import DocTags.Proofs.OneLine.Objects
import DocTags.Proofs.Questions

/-!
# Building objects on one line

An object is built from the values supplied for it and from the defaults of the schema, and the
names of its fields are those of attributes, of parameters and of what setters write to.  So it is
on one line if the world, the schema (`Schema.isOneLine`) and the supplied values are.
-/

namespace DocTags

open Text

/-! ## Schemas on one line -/

/-- `true` when the name of the field, or of what is called, is on one line. -/
def Accessor.isOneLine : Accessor → Bool
  | .field name => isLine name
  | .call target => target.isOneLine
  | .nowhere => true

/-- `true` when the names of attributes and of what takes their values are on one line, and the
names in default values too. -/
def Schema.isOneLine (s : Schema) : Bool :=
  (s.attributes.all fun entry => isLine entry.1 && entry.2.default.all Value.isOneLine) &&
    s.accessors.all fun entry => entry.2.isOneLine

namespace Schema

variable {s : Schema} {name : String}

lemma isLine_of_mem_attributes (hs : s.isOneLine = true) {entry : String × AttributeSpec}
    (h : entry ∈ s.attributes) : isLine entry.1 = true := by
  rw [isOneLine, Bool.and_eq_true, List.all_eq_true] at hs
  exact (Bool.and_eq_true_iff.1 (hs.1 entry h)).1

lemma isOneLine_default (hs : s.isOneLine = true) {spec : AttributeSpec}
    (h : s.attributes.get? name = some spec) {v : Value} (hv : spec.default = some v) :
    v.isOneLine = true := by
  rw [isOneLine, Bool.and_eq_true, List.all_eq_true] at hs
  have hdefault := (Bool.and_eq_true_iff.1 (hs.1 _ (Keyed.mem_of_get? h))).2
  rwa [hv] at hdefault

lemma isOneLine_accessor (hs : s.isOneLine = true) {accessor : Accessor}
    (h : s.accessors.get? name = some accessor) : accessor.isOneLine = true := by
  rw [isOneLine, Bool.and_eq_true] at hs
  exact List.all_eq_true.1 hs.2 _ (Keyed.mem_of_get? h)

end Schema

/-! ## Native values -/

namespace Value

mutual

lemma isOneLine_native (v : Value) (h : v.isOneLine = true) : v.native.isOneLine = true := by
  cases v with
  | tags entries =>
    rw [native]
    split
    · exact isOneLine_nativeItems entries h
    · split
      · exact isOneLine_nativePairs entries h
      · exact h
  | _ => exact h

lemma isOneLine_nativeItems (entries : List (Option String × Value))
    (h : areEntriesOneLine entries = true) : areOneLine (nativeItems entries) = true := by
  cases entries with
  | nil => rw [nativeItems, areOneLine]
  | cons entry entries =>
    obtain ⟨key, v⟩ := entry
    rw [areEntriesOneLine, Bool.and_eq_true, Bool.and_eq_true] at h
    rw [nativeItems, areOneLine, isOneLine_native v h.1.2, isOneLine_nativeItems entries h.2]
    rfl

lemma isOneLine_nativePairs (entries : List (Option String × Value))
    (h : areEntriesOneLine entries = true) : arePairsOneLine (nativePairs entries) = true := by
  cases entries with
  | nil => rw [nativePairs, arePairsOneLine]
  | cons entry entries =>
    obtain ⟨key, v⟩ := entry
    rw [areEntriesOneLine, Bool.and_eq_true, Bool.and_eq_true] at h
    cases key with
    | none =>
      rw [nativePairs]
      exact isOneLine_nativePairs entries h.2
    | some key =>
      rw [nativePairs, arePairsOneLine, isOneLine_native v h.1.2, isOneLine_nativePairs entries h.2]
      rfl

end

end Value

/-! ## Objects -/

namespace Build

variable {w : World} {type found : TypeId} {s : Schema} {attributes fields : Keyed Value}

/-- The values that arguments are taken for are among the arguments. -/
lemma isOneLine_normalize {entries : TagList} (h : areEntriesOneLine entries = true)
    {pairs : List (Value × Value)} (hpairs : normalize type s (.tags entries) = .ok pairs) :
    ∀ pair ∈ pairs, pair.2.isOneLine = true := by
  have hentries := areEntriesOneLine_iff.1 h
  have hnamed : ∀ pair ∈ (TagList.named entries).map fun entry => (Value.str entry.1, entry.2),
      pair.2.isOneLine = true := by
    refine List.forall_mem_map.2 fun entry hentry => ?_
    obtain ⟨⟨key, v⟩, hmem, hkey⟩ := List.mem_filterMap.1 hentry
    obtain ⟨k, -, rfl⟩ := Option.map_eq_some_iff.1 hkey
    exact (hentries _ hmem).2
  unfold normalize at hpairs
  dsimp only at hpairs
  split at hpairs
  · cases hpairs
    exact hnamed
  · next v hpositional =>
    have hv : v ∈ TagList.positional entries := by
      rw [hpositional]
      exact List.mem_singleton_self v
    obtain ⟨entry, hentry, rfl⟩ := List.mem_map.1 hv
    split at hpairs
    · cases hpairs
    · split at hpairs
      · cases hpairs
      · cases hpairs
        refine List.forall_mem_append.2 ⟨hnamed, List.forall_mem_singleton.2 ?_⟩
        exact (hentries _ (List.mem_filter.1 hentry).1).2
  · cases hpairs

/-- Attributes that pass the checks have their names from the schema and their values from the
arguments. -/
lemma isOneLine_checked (hs : s.isOneLine = true) {entries : TagList}
    (hentries : areEntriesOneLine entries = true) {placement : Placement} {n n' : Names}
    (h : checked w type s (.tags entries) placement n = (.ok attributes, n')) :
    areFieldsOneLine attributes = true := by
  obtain ⟨pairs, hpairs, hdeclared⟩ := declared_of_checked h
  refine areFieldsOneLine_iff.2 fun entry hentry => ?_
  obtain ⟨⟨spec, hspec⟩, pair, hpair, hvalue⟩ := hdeclared entry hentry
  exact ⟨Schema.isLine_of_mem_attributes hs hspec,
    hvalue ▸ isOneLine_normalize hentries hpairs pair hpair⟩

lemma isOneLine_takeArgs (hs : s.isOneLine = true) (names : List String)
    (hattributes : areFieldsOneLine attributes = true) :
    ∀ v ∈ (takeArgs s names attributes).1, v.isOneLine = true := by
  induction names generalizing attributes with
  | nil => exact List.forall_mem_nil _
  | cons name names ih =>
    rw [takeArgs]
    split
    · next v hv =>
      have herased : areFieldsOneLine (attributes.erase name) = true :=
        areFieldsOneLine_iff.2 fun field hfield =>
          areFieldsOneLine_iff.1 hattributes field (List.mem_filter.1 hfield).1
      exact List.forall_mem_cons.2
        ⟨Value.isOneLine_native v (isLine_of_get? hattributes hv).2, ih herased⟩
    · refine List.forall_mem_cons.2 ⟨?_, ih hattributes⟩
      cases hspec : s.attributes.get? name with
      | none => rfl
      | some spec =>
        cases hdefault : spec.default with
        | none => simp [hdefault, Value.isOneLine]
        | some v =>
          rw [Option.bind_some, hdefault]
          exact Schema.isOneLine_default hs hspec hdefault

lemma isOneLine_apply (hw : w.isOneLine = true) (hs : s.isOneLine = true)
    (hfound : isLine found = true) (hfields : areFieldsOneLine fields = true) {name : String}
    {v : Value} (hv : v.isOneLine = true) {fields' : Keyed Value}
    (h : apply w found s fields name v = .ok fields') : areFieldsOneLine fields' = true := by
  have hnative := Value.isOneLine_native v hv
  unfold apply at h
  split at h
  · next haccessor =>
    have hname := Schema.isOneLine_accessor hs haccessor
    exact World.isOneLine_assign hfields hname hnative h
  · next haccessor =>
    have htarget := Schema.isOneLine_accessor hs haccessor
    exact World.isOneLine_call hw hfound hfields htarget hnative h
  · cases h
  · cases h

lemma isOneLine_applyAll (hw : w.isOneLine = true) (hs : s.isOneLine = true)
    (hfound : isLine found = true) (hfields : areFieldsOneLine fields = true)
    (hattributes : areFieldsOneLine attributes = true) {fields' : Keyed Value}
    (h : applyAll w found s fields attributes = .ok fields') : areFieldsOneLine fields' = true := by
  induction attributes generalizing fields with
  | nil =>
    cases h
    exact hfields
  | cons entry attributes ih =>
    obtain ⟨name, v⟩ := entry
    rw [areFieldsOneLine, Bool.and_eq_true, Bool.and_eq_true] at hattributes
    obtain ⟨fields₁, happly, h⟩ := ok_of_bind h
    exact ih (isOneLine_apply hw hs hfound hfields hattributes.1.2 happly) hattributes.2 h

lemma isOneLine_construct (hw : w.isOneLine = true) (hs : s.isOneLine = true)
    (hfound : isLine found = true) (hattributes : areFieldsOneLine attributes = true)
    (h : construct w found s attributes = .ok fields) : areFieldsOneLine fields = true := by
  unfold construct at h
  obtain ⟨made, hmade, h⟩ := ok_of_bind h
  have hleft : areFieldsOneLine (takeArgs s (s.constructor.getD []) attributes).2 = true :=
    areFieldsOneLine_iff.2 fun field hfield =>
      areFieldsOneLine_iff.1 hattributes field (mem_takeArgs hfield)
  refine isOneLine_applyAll hw hs hfound (World.isOneLine_construct hw ?_ hmade) hleft h
  exact isOneLine_takeArgs hs _ hattributes

end Build
end DocTags
