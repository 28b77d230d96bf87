import DocTags.Proofs.Keyed
import DocTags.TagList
import DocTags.World.Attribute
import Mathlib.Data.List.Induction

/-!
# Tag lists and their indexes

A tag list is kept as its entries, or as `Indexed`: with an index of the places of its keys.  Both
forms hold the same.

The invariant is `Coherent`: the index is what `places` reads off the entries, and no key is there
twice.  One append keeps it and does to the entries what `append` does (`Coherent.append`), so any
sequence of appends gives the entries of `ofEntries` with their places.  These are in closed form
the appended entries that introduce a key or have none, each with the value that came last under its
key (`ofEntries_eq`).

The main result is `appends_keep_index`.
-/

namespace DocTags
namespace TagList

variable {entries added : TagList} {key : String} {v : Value}

/-! ## Adding an entry -/

lemma mem_putNamed {entry : Option String × Value}
    (h : entry ∈ putNamed entries key v) : entry ∈ entries ∨ entry = (some key, v) := by
  induction entries with
  | nil => exact .inr (List.mem_singleton.1 h)
  | cons first entries ih =>
    rw [putNamed] at h
    split at h
    · exact (List.mem_cons.1 h).symm.imp_left (List.mem_cons_of_mem _)
    · rcases List.mem_cons.1 h with rfl | h
      · exact .inl List.mem_cons_self
      · exact (ih h).imp_left (List.mem_cons_of_mem _)

lemma mem_append {key : Option String} {entry : Option String × Value}
    (h : entry ∈ append entries key v) : entry ∈ entries ∨ entry = (key, v) := by
  cases key with
  | none => exact (List.mem_append.1 h).imp_right List.mem_singleton.1
  | some key => exact mem_putNamed h

lemma append_of_not_mem {entries : TagList} {key : Option String} (v : Value)
    (h : ∀ k ∈ key, k ∉ keys entries) : append entries key v = entries ++ [(key, v)] := by
  cases key with
  | none => rfl
  | some key =>
    have hk : key ∉ keys entries := h key rfl
    clear h
    rw [append]
    induction entries with
    | nil => rfl
    | cons entry entries ih =>
      have hne : ¬ entry.1 = some key := by
        intro he
        exact hk (by simp [keys, he])
      have hrest : key ∉ keys entries := fun hmem => hk (by
        simp only [keys, List.mem_filterMap] at hmem ⊢
        obtain ⟨e, he, hke⟩ := hmem
        exact ⟨e, by simp [he], hke⟩)
      rw [putNamed, if_neg (by simpa using hne), ih hrest]
      rfl

lemma foldl_append_of_nodup (acc entries : TagList) (h : (keys (acc ++ entries)).Nodup) :
    entries.foldl (fun acc entry => acc.append entry.1 entry.2) acc = acc ++ entries := by
  induction entries generalizing acc with
  | nil => simp
  | cons entry entries ih =>
    have hfresh : ∀ k ∈ entry.1, k ∉ keys acc := by
      intro k hk hmem
      simp only [keys, List.filterMap_append, List.nodup_append] at h
      refine h.2.2 k hmem k ?_ rfl
      simp [Option.mem_def.1 hk]
    rw [List.foldl_cons, append_of_not_mem _ hfresh, ih _ (by simpa using h)]
    simp

/-- A tag list is what adding its entries one after the other gives. -/
lemma ofEntries_of_nodup {entries : TagList} (h : (keys entries).Nodup) :
    ofEntries entries = entries := by
  rw [ofEntries, foldl_append_of_nodup [] entries (by simpa using h)]
  rfl

lemma ofEntries_concat (added : TagList) (entry : Option String × Value) :
    ofEntries (added ++ [entry]) = (ofEntries added).append entry.1 entry.2 := by
  rw [ofEntries, List.foldl_append]
  rfl

lemma mem_keys : key ∈ keys entries ↔ ∃ v, (some key, v) ∈ entries := by
  rw [keys, List.mem_filterMap]
  constructor
  · rintro ⟨⟨k, v⟩, hmem, hkey⟩
    exact ⟨v, by rwa [← show k = some key from hkey]⟩
  · rintro ⟨v, hmem⟩
    exact ⟨_, hmem, rfl⟩

lemma names_named (entries : TagList) : Keyed.names (named entries) = keys entries := by
  rw [Keyed.names, named, keys, List.map_filterMap]
  refine congrArg (fun f => entries.filterMap f) (funext fun entry => ?_)
  obtain ⟨key, v⟩ := entry
  cases key <;> rfl

lemma named_putNamed (entries : TagList) (key : String) (v : Value) :
    named (putNamed entries key v) = (named entries).put key v := by
  induction entries with
  | nil => rfl
  | cons entry entries ih =>
    obtain ⟨k, u⟩ := entry
    rw [putNamed]
    cases k with
    | none => exact ih
    | some k =>
      by_cases hk : k = key
      · subst hk
        simp [named, Keyed.put]
      · have hput : Keyed.put ((k, u) :: named entries) key v =
            (k, u) :: (named entries).put key v := by
          rw [Keyed.put, if_neg (by simpa using hk)]
        rw [if_neg (by simpa using hk)]
        exact (congrArg ((k, u) :: ·) ih).trans hput.symm

/-- The keyed entries are what storing the added ones under their keys gives. -/
lemma named_ofEntries (added : TagList) :
    named (ofEntries added) = Keyed.ofPairs (named added) := by
  induction added using List.reverseRecOn with
  | nil => rfl
  | append_singleton added entry ih =>
    obtain ⟨key, v⟩ := entry
    have happend (es : TagList) : named (es ++ [(key, v)]) = named es ++ named [(key, v)] :=
      List.filterMap_append
    rw [ofEntries_concat, happend, Keyed.ofPairs, Keyed.merge, List.foldl_append]
    change named ((ofEntries added).append key v) =
      (named [(key, v)]).foldl (fun acc y => acc.put y.1 y.2) (Keyed.ofPairs (named added))
    rw [← ih]
    cases key with
    | none => simp [append, named]
    | some key => exact named_putNamed _ key v

lemma keys_ofEntries (added : TagList) : keys (ofEntries added) = (keys added).eraseDups := by
  have hnil : Keyed.names ([] : Keyed Value) = [].eraseDups := rfl
  have h := Keyed.names_merge_eraseDups hnil (named added)
  rwa [names_named, ← Keyed.ofPairs, ← named_ofEntries, names_named] at h

lemma nodup_keys_ofEntries (added : TagList) : (keys (ofEntries added)).Nodup := by
  rw [← names_named, named_ofEntries]
  exact Keyed.names_merge_nodup [] (named added) List.nodup_nil

lemma positional_append (entries : TagList) (key : Option String) (v : Value) :
    positional (append entries key v) = positional entries ++ positional [(key, v)] := by
  cases key with
  | none => simp [append, positional]
  | some key =>
    rw [append, show positional [(some key, v)] = [] from rfl, List.append_nil]
    induction entries with
    | nil => rfl
    | cons entry entries ih =>
      obtain ⟨k, u⟩ := entry
      rw [putNamed]
      split
      · next hk =>
        obtain rfl : k = some key := eq_of_beq hk
        simp [positional]
      · cases k with
        | none => exact congrArg (u :: ·) ih
        | some k => exact ih

/-- Appending changes nothing about the unnamed values that are there. -/
lemma positional_ofEntries (added : TagList) : positional (ofEntries added) = positional added := by
  induction added using List.reverseRecOn with
  | nil => rfl
  | append_singleton added entry ih =>
    rw [ofEntries_concat, positional_append, ih]
    simp [positional]

/-! ## The last value of each key -/

/-- The entries that have no key, or are the first with their key. -/
def introduced : TagList → TagList
  | [] => []
  | entry :: later =>
    entry :: (introduced later).filter fun other => other.1.isNone || other.1 != entry.1

/-- An entry with the value that comes last under its key. -/
def latest (added : TagList) (entry : Option String × Value) : Option String × Value :=
  (entry.1, (entry.1.bind (named added).last?).getD entry.2)

lemma introduced_concat (added : TagList) (entry : Option String × Value) :
    introduced (added ++ [entry]) =
      introduced added ++
        if entry.1.isNone || added.all (fun other => entry.1 != other.1) then [entry] else [] := by
  induction added with
  | nil => simp [introduced]
  | cons first added ih =>
    rw [List.cons_append, introduced, ih, introduced, List.filter_append, List.cons_append,
      List.all_cons]
    congr 2
    cases hnone : entry.1.isNone <;> cases hne : entry.1 != first.1 <;>
      cases hall : added.all (fun other => entry.1 != other.1) <;> simp [hnone, hne]

lemma keys_map_latest (added entries : TagList) :
    keys (entries.map (latest added)) = keys entries := by
  rw [keys, List.filterMap_map]
  rfl

lemma latest_concat_of_ne {entry : Option String × Value} (h : entry.1 ≠ some key) (v : Value) :
    latest (added ++ [(some key, v)]) entry = latest added entry := by
  obtain ⟨k, u⟩ := entry
  cases k with
  | none => rfl
  | some k =>
    have hlast := Keyed.last?_concat (named added) key k v
    rw [if_neg fun he => h (congrArg some he.symm)] at hlast
    have hnamed : named (added ++ [(some key, v)]) = named added ++ [(key, v)] :=
      List.filterMap_append
    simp only [latest, hnamed, Option.bind_some, hlast]

lemma latest_concat_self (added : TagList) (key : String) (u v : Value) :
    latest (added ++ [(some key, v)]) (some key, u) = (some key, v) := by
  have hnamed : named (added ++ [(some key, v)]) = named added ++ [(key, v)] :=
    List.filterMap_append
  simp [latest, hnamed, Keyed.last?_concat]

/-- Replacing the value of a key replaces it wherever the key is, since it is there once. -/
lemma putNamed_eq_map (h : (keys entries).Nodup) (hmem : key ∈ keys entries) (v : Value) :
    putNamed entries key v =
      entries.map fun entry => if entry.1 = some key then (some key, v) else entry := by
  induction entries with
  | nil => cases hmem
  | cons entry entries ih =>
    obtain ⟨k, u⟩ := entry
    rw [putNamed, List.map_cons]
    by_cases hk : k = some key
    · subst hk
      have hlater : key ∉ keys entries := (List.nodup_cons.1 h).1
      have hsame : (entries.map fun entry => if entry.1 = some key then (some key, v) else entry) =
          entries := by
        refine (List.map_congr_left fun entry hentry => if_neg fun hkey => ?_).trans
          (List.map_id' entries)
        exact hlater (mem_keys.2 ⟨entry.2, by rwa [← hkey]⟩)
      simp [hsame]
    · have hnodup : (keys entries).Nodup := by
        cases k with
        | none => exact h
        | some k => exact (List.nodup_cons.1 h).2
      have hrest : key ∈ keys entries := by
        cases k with
        | none => exact hmem
        | some k => exact (List.mem_cons.1 hmem).resolve_left fun he => hk (congrArg some he.symm)
      simp [hk, ih hnodup hrest]

/-- Replacing the value of a key makes the replaced value the latest one. -/
lemma putNamed_map_latest (h : (keys entries).Nodup) (hmem : key ∈ keys entries) (added : TagList)
    (v : Value) :
    putNamed (entries.map (latest added)) key v =
      entries.map (latest (added ++ [(some key, v)])) := by
  rw [putNamed_eq_map (by rwa [keys_map_latest]) (by rwa [keys_map_latest]), List.map_map]
  refine List.map_congr_left fun entry _ => ?_
  obtain ⟨k, u⟩ := entry
  by_cases hkey : k = some key
  · subst hkey
    rw [latest_concat_self]
    exact if_pos rfl
  · rw [latest_concat_of_ne hkey]
    exact if_neg hkey

lemma map_latest_concat (h : key ∉ keys entries) (added : TagList) (v : Value) :
    entries.map (latest (added ++ [(some key, v)])) = entries.map (latest added) := by
  refine List.map_congr_left fun entry hentry => latest_concat_of_ne (fun hkey => h ?_) v
  exact mem_keys.2 ⟨entry.2, by rwa [← hkey]⟩

lemma all_ne_iff : (added.all fun other => some key != other.1) = true ↔ key ∉ keys added := by
  rw [List.all_eq_true, mem_keys, not_exists]
  constructor
  · intro hne v hmem
    simpa using hne _ hmem
  · rintro hnot ⟨k, v⟩ hmem
    rw [bne_iff_ne]
    rintro rfl
    exact hnot v hmem

/-- The entries of a tag list are those that introduced their keys and the unnamed ones, in the
order in which they were added, each with the last value of its key. -/
lemma ofEntries_eq (added : TagList) : ofEntries added = (introduced added).map (latest added) := by
  induction added using List.reverseRecOn with
  | nil => rfl
  | append_singleton added entry ih =>
    have hkeys : keys (introduced added) = (keys added).eraseDups := by
      rw [← keys_ofEntries, ih, keys_map_latest]
    have hmem {key : String} : key ∈ keys (introduced added) ↔ key ∈ keys added := by
      rw [hkeys, List.mem_eraseDups]
    rw [ofEntries_concat, introduced_concat, ih]
    obtain ⟨key, v⟩ := entry
    cases key with
    | none =>
      have hnamed : named (added ++ [(none, v)]) = named added := by simp [named]
      simp [append, latest, hnamed]
    | some key =>
      rw [Option.isNone_some, Bool.false_or]
      by_cases hkey : key ∈ keys added
      · have hnodup : (keys (introduced added)).Nodup := by
          rw [hkeys, ← keys_ofEntries]
          exact nodup_keys_ofEntries added
        rw [if_neg (mt all_ne_iff.1 (not_not.2 hkey)), List.append_nil]
        exact putNamed_map_latest hnodup (hmem.2 hkey) added v
      · have hnew : key ∉ keys ((introduced added).map (latest added)) := by
          rwa [keys_map_latest, hmem]
        rw [append_of_not_mem v fun k hk => Option.some.inj hk ▸ hnew,
          if_pos (all_ne_iff.2 hkey), List.map_append, List.map_singleton, latest_concat_self,
          map_latest_concat (mt hmem.1 hkey)]

/-! ## Places -/

/-- The keys of the entries with their places, which are counted from a start. -/
def placesFrom (start : Nat) (entries : TagList) : Keyed Nat :=
  (entries.zipIdx start).filterMap fun ((key, _), i) => key.map fun k => (k, i)

/-- The keys of the entries with their places. -/
def places (entries : TagList) : Keyed Nat :=
  placesFrom 0 entries

lemma placesFrom_append (start : Nat) (entries more : TagList) :
    placesFrom start (entries ++ more) =
      placesFrom start entries ++ placesFrom (start + entries.length) more := by
  rw [placesFrom, List.zipIdx_append, List.filterMap_append]
  rfl

lemma names_placesFrom (start : Nat) (entries : TagList) :
    (placesFrom start entries).names = keys entries := by
  induction entries generalizing start with
  | nil => rfl
  | cons entry entries ih =>
    obtain ⟨k, u⟩ := entry
    cases k with
    | none => exact ih (start + 1)
    | some k => exact congrArg (k :: ·) (ih (start + 1))

/-- Of the entries with a key, the index of the places finds the first one. -/
lemma get?_placesFrom (start : Nat) (entries : TagList) (key : String) :
    (placesFrom start entries).get? key = (index? entries key).map (start + ·) := by
  induction entries generalizing start with
  | nil => rfl
  | cons entry entries ih =>
    obtain ⟨k, u⟩ := entry
    have hshift : ((index? entries key).map (· + 1)).map (start + ·) =
        (placesFrom (start + 1) entries).get? key := by
      rw [ih, Option.map_map]
      refine congrArg (fun f => Option.map f _) (funext fun i => ?_)
      simp only [Function.comp_apply]
      omega
    rw [index?, List.findIdx?_cons]
    by_cases hk : k = some key
    · subst hk
      simp [placesFrom, Keyed.get?]
    · rw [if_neg (by simpa using hk), ← index?, hshift]
      cases k with
      | none => rfl
      | some k =>
        have hne : (key == k) = false := by
          rw [beq_eq_false_iff_ne]
          rintro rfl
          exact hk rfl
        change Keyed.get? ((k, start) :: placesFrom (start + 1) entries) key = _
        rw [Keyed.get?, List.lookup_cons, hne]
        rfl

lemma mem_places {place : Nat} :
    (key, place) ∈ places entries ↔ ∃ v, entries[place]? = some (some key, v) := by
  rw [places, placesFrom, List.mem_filterMap]
  constructor
  · rintro ⟨⟨⟨k, v⟩, i⟩, hmem, hkey⟩
    obtain ⟨k', rfl, heq⟩ := Option.map_eq_some_iff.1 hkey
    obtain ⟨rfl, rfl⟩ := Prod.mk.inj heq
    exact ⟨v, List.mem_zipIdx_iff_getElem?.1 hmem⟩
  · rintro ⟨v, hv⟩
    exact ⟨((some key, v), place), List.mem_zipIdx_iff_getElem?.2 hv, rfl⟩

lemma placesFrom_putNamed (start : Nat) (hmem : key ∈ keys entries) (v : Value) :
    placesFrom start (putNamed entries key v) = placesFrom start entries := by
  induction entries generalizing start with
  | nil => cases hmem
  | cons entry entries ih =>
    obtain ⟨k, u⟩ := entry
    rw [putNamed]
    by_cases hk : k = some key
    · subst hk
      simp [placesFrom]
    · rw [if_neg (by simpa using hk)]
      cases k with
      | none => exact ih (start + 1) hmem
      | some k =>
        have hrest := (List.mem_cons.1 hmem).resolve_left fun he => hk (congrArg some he.symm)
        exact congrArg ((k, start) :: ·) (ih (start + 1) hrest)

lemma putNamed_eq_set {place : Nat} (h : index? entries key = some place) (v : Value) :
    putNamed entries key v = entries.set place (some key, v) := by
  induction entries generalizing place with
  | nil => cases h
  | cons entry entries ih =>
    rw [index?, List.findIdx?_cons] at h
    rw [putNamed]
    split at h
    · next hk =>
      rw [if_pos hk, ← Option.some.inj h]
      rfl
    · next hk =>
      obtain ⟨i, hi, rfl⟩ := Option.map_eq_some_iff.1 h
      rw [if_neg hk, ih hi, List.set_cons_succ]

lemma index?_eq_none_iff : index? entries key = none ↔ key ∉ keys entries := by
  rw [index?, List.findIdx?_eq_none_iff, mem_keys, not_exists]
  constructor
  · intro hne v hmem
    simpa using hne _ hmem
  · rintro hnot ⟨k, v⟩ hmem
    rw [beq_eq_false_iff_ne]
    rintro rfl
    exact hnot v hmem

/-! ## Entries with an index -/

namespace Indexed

variable {t : Indexed}

/-- The index has the places of the keys, and no key is there twice. -/
structure Coherent (t : Indexed) : Prop where
  index : t.index = places t.entries
  distinct : (keys t.entries).Nodup

lemma Coherent.empty : Coherent {} := ⟨rfl, List.nodup_nil⟩

/-- Appending to the indexed form does what appending to the entries does. -/
lemma Coherent.entries_append (h : t.Coherent) (key : Option String) (v : Value) :
    (t.append key v).entries = TagList.append t.entries key v := by
  cases key with
  | none => rfl
  | some key =>
    have hget : t.index.get? key = index? t.entries key := by
      rw [h.index, places, get?_placesFrom]
      cases index? t.entries key <;> simp
    rw [append]
    cases hplace : t.index.get? key with
    | some place => exact (putNamed_eq_set (hget ▸ hplace) v).symm
    | none =>
      have hnew := index?_eq_none_iff.1 (hget ▸ hplace)
      exact (append_of_not_mem v fun k hk => Option.some.inj hk ▸ hnew).symm

/-- One append keeps the index and the entries in step. -/
lemma Coherent.append (h : t.Coherent) (key : Option String) (v : Value) :
    (t.append key v).Coherent := by
  have hentries := h.entries_append key v
  cases key with
  | none =>
    have hkeys : keys (t.entries ++ [(none, v)]) = keys t.entries := by simp [keys]
    refine ⟨?_, hkeys ▸ h.distinct⟩
    change t.index = places (t.entries ++ [(none, v)])
    rw [places, placesFrom_append, h.index]
    exact (List.append_nil _).symm
  | some key =>
    constructor
    · rw [hentries, Indexed.append, TagList.append]
      cases hplace : t.index.get? key with
      | some place =>
        have hmem : key ∈ keys t.entries := by
          rw [← names_placesFrom 0, ← places, ← h.index]
          exact Keyed.mem_names_of_get? hplace
        exact h.index.trans (placesFrom_putNamed 0 hmem v).symm
      | none =>
        have hnew : key ∉ keys t.entries := by
          rw [h.index, places, get?_placesFrom, Option.map_eq_none_iff] at hplace
          exact index?_eq_none_iff.1 hplace
        have happend : TagList.append t.entries (some key) v = t.entries ++ [(some key, v)] :=
          append_of_not_mem v fun k hk => Option.some.inj hk ▸ hnew
        rw [TagList.append] at happend
        rw [happend, places, placesFrom_append, Nat.zero_add, Keyed.put_of_get?_eq_none hplace,
          h.index]
        rfl
    · rw [hentries, ← names_named, TagList.append, named_putNamed]
      refine Keyed.names_merge_nodup (named t.entries) [(key, v)] ?_
      rw [names_named]
      exact h.distinct

/-- Any sequence of appends keeps them in step, and its entries are those of the tag list. -/
lemma Coherent.appendAll (h : t.Coherent) (added : TagList) :
    (t.appendAll added).Coherent ∧
      (t.appendAll added).entries =
        added.foldl (fun acc entry => acc.append entry.1 entry.2) t.entries := by
  induction added generalizing t with
  | nil => exact ⟨h, rfl⟩
  | cons entry added ih =>
    obtain ⟨hcoherent, hentries⟩ := ih (h.append entry.1 entry.2)
    refine ⟨hcoherent, hentries.trans ?_⟩
    rw [h.entries_append]
    rfl

/-- The index leads to the one entry of a key. -/
lemma Coherent.get?_index_iff (h : t.Coherent) {place : Nat} :
    t.index.get? key = some place ↔ ∃ v, t.entries[place]? = some (some key, v) := by
  have hnodup : (places t.entries).names.Nodup := by
    rw [places, names_placesFrom]
    exact h.distinct
  rw [h.index, Keyed.get?_eq_some_iff hnodup, mem_places]

/-- What the index finds is what the entries have under the key. -/
lemma Coherent.get?_eq (h : t.Coherent) (key : String) :
    t.get? key = TagList.get? t.entries key := by
  have hnodup : (named t.entries).names.Nodup := by
    rw [names_named]
    exact h.distinct
  rw [Indexed.get?]
  cases hplace : t.index.get? key with
  | some place =>
    obtain ⟨v, hv⟩ := h.get?_index_iff.1 hplace
    have hmem : (key, v) ∈ named t.entries :=
      List.mem_filterMap.2 ⟨_, List.mem_of_getElem? hv, rfl⟩
    rw [TagList.get?, (Keyed.get?_eq_some_iff hnodup).2 hmem, Option.bind_some, hv]
    rfl
  | none =>
    rw [Keyed.get?_eq_none_iff, h.index, places, names_placesFrom, ← names_named,
      ← Keyed.get?_eq_none_iff] at hplace
    exact hplace.symm

/-! ## Every sequence of appends -/

/-- What a tag list with an index holds after some entries were added in order. -/
structure Holds (t : Indexed) (added : TagList) : Prop where
  /-- It is the tag list of the entries, and the index is the one that this tells about itself. -/
  entries_eq : t.entries = TagList.ofEntries added
  index_eq : Value.fact? (.tags t.entries) "_index" =
    some (.dict (t.index.map fun (key, place) => (.str key, .int place)))
  /-- The index has the keys of the entries, each with the place of the one entry that it is at. -/
  places : ∀ key place,
    t.index.get? key = some place ↔ ∃ v, t.entries[place]? = some (some key, v)
  names : t.index.names = keys t.entries
  distinct : (keys t.entries).Nodup
  /-- The unnamed values are there in order. -/
  positional : positional t.entries = positional added
  /-- A repeated key stays where it was used first, with the value that it was used with last. -/
  order : t.entries = (introduced added).map (latest added)
  /-- So the last value of a key is what a lookup gives, whichever way it is made. -/
  lookup : ∀ key, t.get? key = (named added).last? key
  item : ∀ key, TagList.item t.entries (.str key) =
    ((named added).last? key).elim (.error (.misuse .key)) .ok
  named : ∀ key, (named t.entries).get? key = (named added).last? key
  keys : (TagList.named t.entries).names = keys t.entries ∧ keys t.entries = (keys added).eraseDups
  /-- The length of the index tells whether any of the entries have keys, and whether all do. -/
  empty : t.index = [] ↔ ∀ entry ∈ t.entries, hasKey entry = false
  full : t.index.length = t.entries.length ↔ ∀ entry ∈ t.entries, hasKey entry = true

lemma item_str (entries : TagList) (key : String) :
    TagList.item entries (.str key) =
      (TagList.get? entries key).elim (.error (.misuse .key)) .ok := by
  rw [TagList.item.eq_def]
  dsimp only
  cases TagList.get? entries key <;> rfl

lemma fact?_index (entries : TagList) :
    Value.fact? (.tags entries) "_index" =
      some (.dict ((TagList.places entries).map fun (key, place) => (.str key, .int place))) := by
  rw [TagList.places, placesFrom, List.map_filterMap]
  refine congrArg (fun pairs => some (Value.dict pairs)) ?_
  refine congrArg (fun f => entries.zipIdx.filterMap f) (funext fun entry => ?_)
  obtain ⟨⟨key, v⟩, i⟩ := entry
  cases key <;> rfl

lemma Coherent.index_eq_nil_iff (h : t.Coherent) :
    t.index = [] ↔ ∀ entry ∈ t.entries, hasKey entry = false := by
  rw [h.index, ← List.map_eq_nil_iff (f := Prod.fst)]
  change (TagList.places t.entries).names = [] ↔ _
  rw [TagList.places, names_placesFrom, TagList.keys, List.filterMap_eq_nil_iff]
  simp only [hasKey, Option.isSome_eq_false_iff, Option.isNone_iff_eq_none]

lemma Coherent.length_index_eq_iff (h : t.Coherent) :
    t.index.length = t.entries.length ↔ ∀ entry ∈ t.entries, hasKey entry = true := by
  have hlength : t.index.length = (TagList.keys t.entries).length := by
    rw [h.index, ← names_placesFrom 0, ← TagList.places, Keyed.names, List.length_map]
  rw [hlength, TagList.keys, List.length_filterMap_eq_countP, List.countP_eq_length]
  rfl

/-- Whatever is appended to whatever entries, keyed or not, the index fits the entries, and the
entries are the added ones with each key in its first place and with its last value. -/
theorem appends_keep_index (initial calls : TagList) :
    ((ofEntries initial).appendAll calls).Holds (initial ++ calls) := by
  have happend : (ofEntries initial).appendAll calls = ofEntries (initial ++ calls) :=
    List.foldl_append.symm
  rw [happend]
  set added := initial ++ calls
  obtain ⟨hcoherent, hentries⟩ := Coherent.empty.appendAll added
  change (ofEntries added).Coherent at hcoherent
  replace hentries : (ofEntries added).entries = TagList.ofEntries added := hentries
  have hlast (key : String) :
      TagList.get? (ofEntries added).entries key = (TagList.named added).last? key := by
    rw [hentries, TagList.get?, named_ofEntries, Keyed.ofPairs, Keyed.get?_merge]
    exact Option.or_none
  exact {
    entries_eq := hentries
    index_eq := by rw [fact?_index, hcoherent.index]
    places := fun key place => hcoherent.get?_index_iff
    names := by rw [hcoherent.index, TagList.places, names_placesFrom]
    distinct := hcoherent.distinct
    positional := by rw [hentries, positional_ofEntries]
    order := hentries.trans (ofEntries_eq added)
    lookup := fun key => (hcoherent.get?_eq key).trans (hlast key)
    item := fun key => by rw [item_str, hlast]
    named := hlast
    keys := ⟨names_named _, hentries ▸ keys_ofEntries added⟩
    empty := hcoherent.index_eq_nil_iff
    full := hcoherent.length_index_eq_iff
  }

end Indexed
end TagList
end DocTags
