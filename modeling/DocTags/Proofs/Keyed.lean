import DocTags.Keyed
import Mathlib.Data.List.Basic

/-!
# The theory of keyed lists

What looking up, storing, taking away and merging do to the things of a keyed list and to the order
of its names.  A stored thing keeps the place of its name or comes last (`names_put`), and of
several things stored under a name the last one counts (`get?_merge`).
-/

namespace DocTags
namespace Keyed

variable {α : Type}

/-! ## Looking up -/

lemma has_cons (xs : Keyed α) (x : String × α) (name : String) :
    has (x :: xs) name = (x.1 == name || xs.has name) := rfl

lemma has_eq_isSome_get? (xs : Keyed α) (name : String) : xs.has name = (xs.get? name).isSome := by
  induction xs with
  | nil => rfl
  | cons x xs ih =>
    obtain ⟨key, a⟩ := x
    simp only [has, get?, List.any_cons, List.lookup_cons] at ih ⊢
    by_cases h : key = name
    · subst h
      simp
    · rw [beq_eq_false_iff_ne.2 h, beq_eq_false_iff_ne.2 (Ne.symm h), Bool.false_or, ih]

lemma has_eq_contains_names (xs : Keyed α) (name : String) :
    xs.has name = xs.names.contains name := by
  induction xs with
  | nil => rfl
  | cons x xs ih =>
    simp only [has, names, List.any_cons, List.map_cons, List.contains_cons] at ih ⊢
    rw [ih, Bool.beq_comm]

lemma mem_of_get? {xs : Keyed α} {name : String} {a : α} (h : xs.get? name = some a) :
    (name, a) ∈ xs := by
  obtain ⟨before, after, hxs, -⟩ := List.lookup_eq_some_iff.1 h
  rw [hxs]
  simp

lemma mem_names_of_get? {xs : Keyed α} {name : String} {a : α} (h : xs.get? name = some a) :
    name ∈ xs.names :=
  List.mem_map_of_mem (f := Prod.fst) (mem_of_get? h)

/-- Under different names, looking up gives what is there. -/
lemma get?_eq_some_iff {xs : Keyed α} (h : xs.names.Nodup) {name : String} {a : α} :
    xs.get? name = some a ↔ (name, a) ∈ xs := by
  refine ⟨mem_of_get?, fun hmem => ?_⟩
  induction xs with
  | nil => cases hmem
  | cons x xs ih =>
    obtain ⟨hx, hxs⟩ := List.nodup_cons.1 h
    rw [get?, List.lookup_cons]
    rcases List.mem_cons.1 hmem with rfl | hmem
    · rw [beq_self_eq_true]
    · have hne : (name == x.1) = false := by
        rw [beq_eq_false_iff_ne]
        rintro rfl
        exact hx (List.mem_map.2 ⟨_, hmem, rfl⟩)
      rw [hne]
      exact ih hxs hmem

lemma get?_eq_none_iff {xs : Keyed α} {name : String} :
    xs.get? name = none ↔ name ∉ xs.names := by
  rw [← Option.isNone_iff_eq_none, ← Option.isSome_eq_false_iff, ← has_eq_isSome_get?,
    has_eq_contains_names]
  simp

/-! ## Storing -/

lemma has_put (xs : Keyed α) (name other : String) (a : α) :
    (xs.put name a).has other = (name == other || xs.has other) := by
  induction xs with
  | nil => rfl
  | cons x xs ih =>
    rw [put]
    by_cases h : (x.1 == name) = true
    · rw [if_pos h]
      simp only [has, List.any_cons]
      rw [eq_of_beq h, ← Bool.or_assoc, Bool.or_self]
    · rw [if_neg h]
      simp only [has, List.any_cons] at ih ⊢
      rw [ih, Bool.or_left_comm]

/-- A thing that is stored keeps the place of its name, or comes last. -/
lemma names_put (xs : Keyed α) (name : String) (a : α) :
    (xs.put name a).names = if xs.has name then xs.names else xs.names ++ [name] := by
  induction xs with
  | nil => rfl
  | cons x xs ih =>
    rw [put]
    by_cases h : (x.1 == name) = true
    · simp [names, has, eq_of_beq h]
    · have hhas : has (x :: xs) name = has xs name := by simp [has, h]
      have hnames : names (x :: put xs name a) = x.1 :: names (put xs name a) := rfl
      rw [if_neg h, hhas, hnames, ih]
      cases has xs name <;> rfl

/-- If the names are in the order of their introduction, they stay so when one more is stored. -/
lemma names_put_eraseDups {xs : Keyed α} {names : List String} (h : xs.names = names.eraseDups)
    (name : String) (a : α) : (xs.put name a).names = (names ++ [name]).eraseDups := by
  have hhas : xs.has name = names.contains name := by
    rw [has_eq_contains_names, h, Bool.eq_iff_iff]
    simp
  rw [names_put, hhas, List.eraseDups_append, h]
  by_cases hmem : name ∈ names
  · simp [hmem, List.removeAll]
  · simp [hmem, List.removeAll, List.eraseDups_cons]

lemma get?_put_self (xs : Keyed α) (name : String) (a : α) :
    (xs.put name a).get? name = some a := by
  induction xs with
  | nil => simp [put, get?]
  | cons x xs ih =>
    obtain ⟨key, b⟩ := x
    by_cases h : key = name
    · simp [put, get?, h]
    · have hne : (name == key) = false := beq_eq_false_iff_ne.2 fun he => h he.symm
      rw [put, if_neg (by simpa using h), get?, List.lookup_cons, hne]
      exact ih

lemma get?_put_of_ne (xs : Keyed α) {name other : String} (h : other ≠ name) (a : α) :
    (xs.put name a).get? other = xs.get? other := by
  have hother : (other == name) = false := beq_eq_false_iff_ne.2 h
  induction xs with
  | nil => simp [put, get?, List.lookup_cons, hother]
  | cons x xs ih =>
    obtain ⟨key, b⟩ := x
    by_cases hx : key = name
    · subst hx
      simp [put, get?, List.lookup_cons, hother]
    · rw [put, if_neg (by simpa using hx), get?, get?, List.lookup_cons, List.lookup_cons]
      cases other == key with
      | true => rfl
      | false => exact ih

lemma put_of_get? {xs : Keyed α} {name : String} {a : α} (h : xs.get? name = some a) :
    xs.put name a = xs := by
  induction xs with
  | nil => cases h
  | cons x xs ih =>
    obtain ⟨key, b⟩ := x
    rw [put]
    by_cases hkey : key = name
    · subst hkey
      simp only [get?, List.lookup_cons, beq_self_eq_true] at h
      simp [Option.some.inj h]
    · have hne : (name == key) = false := beq_eq_false_iff_ne.2 (Ne.symm hkey)
      simp only [get?, List.lookup_cons, hne] at h
      rw [if_neg (by simpa using hkey), ih h]

/-- A thing with a new name comes last. -/
lemma put_of_get?_eq_none {xs : Keyed α} {name : String} (h : xs.get? name = none) (a : α) :
    xs.put name a = xs ++ [(name, a)] := by
  induction xs with
  | nil => rfl
  | cons x xs ih =>
    obtain ⟨key, b⟩ := x
    by_cases hkey : name = key
    · simp [get?, hkey] at h
    · rw [get?, List.lookup_cons, beq_eq_false_iff_ne.2 hkey] at h
      rw [put, if_neg (by simpa using Ne.symm hkey), ih h]
      rfl

lemma mem_put {xs : Keyed α} {name other : String} {a b : α}
    (h : (other, b) ∈ xs.put name a) : (other = name ∧ b = a) ∨ (other, b) ∈ xs := by
  induction xs with
  | nil =>
    obtain ⟨rfl, rfl⟩ := Prod.mk.inj (List.mem_singleton.1 h)
    exact .inl ⟨rfl, rfl⟩
  | cons x xs ih =>
    rw [put] at h
    split at h
    · rcases List.mem_cons.1 h with heq | h
      · exact .inl (Prod.mk.inj heq)
      · exact .inr (List.mem_cons_of_mem x h)
    · rcases List.mem_cons.1 h with rfl | h
      · exact .inr List.mem_cons_self
      · exact (ih h).imp_right (List.mem_cons_of_mem x)

/-! ## Taking away -/

lemma get?_erase_self (xs : Keyed α) (name : String) : (xs.erase name).get? name = none := by
  induction xs with
  | nil => rfl
  | cons x xs ih =>
    obtain ⟨key, a⟩ := x
    simp only [erase, get?, List.filter_cons] at ih ⊢
    by_cases h : key = name
    · simp [h, ih]
    · simp [h, List.lookup_cons, beq_eq_false_iff_ne.2 (Ne.symm h), ih]

lemma get?_erase_of_ne (xs : Keyed α) {name other : String} (h : other ≠ name) :
    (xs.erase name).get? other = xs.get? other := by
  induction xs with
  | nil => rfl
  | cons x xs ih =>
    obtain ⟨key, a⟩ := x
    simp only [erase, get?, List.filter_cons] at ih ⊢
    by_cases hkey : key = name
    · subst hkey
      simp [List.lookup_cons, beq_eq_false_iff_ne.2 h, ih]
    · simp only [bne_iff_ne, ne_eq, hkey, not_false_eq_true, if_true, List.lookup_cons, ih]

/-! ## Merging -/

lemma merge_cons (xs ys : Keyed α) (y : String × α) :
    xs.merge (y :: ys) = (xs.put y.1 y.2).merge ys := rfl

lemma has_merge (xs ys : Keyed α) (name : String) :
    (xs.merge ys).has name = (xs.has name || ys.has name) := by
  induction ys generalizing xs with
  | nil => simp [merge, has]
  | cons y ys ih =>
    rw [merge_cons, ih, has_put, has_cons, Bool.or_comm (y.1 == name), Bool.or_assoc]

lemma names_merge_nodup (xs ys : Keyed α) (h : xs.names.Nodup) : (xs.merge ys).names.Nodup := by
  induction ys generalizing xs with
  | nil => exact h
  | cons y ys ih =>
    apply ih
    rw [names_put]
    split
    · exact h
    · next hnew =>
      rw [has_eq_contains_names, List.contains_iff_mem] at hnew
      rw [List.nodup_append]
      refine ⟨h, List.pairwise_singleton _ _, ?_⟩
      rintro a ha b hb rfl
      exact hnew (List.mem_singleton.1 hb ▸ ha)

lemma names_merge_eraseDups {xs : Keyed α} {names : List String} (h : xs.names = names.eraseDups)
    (ys : Keyed α) : (xs.merge ys).names = (names ++ ys.names).eraseDups := by
  induction ys generalizing xs names with
  | nil =>
    rw [show Keyed.names ([] : Keyed α) = [] from rfl, List.append_nil]
    exact h
  | cons y ys ih =>
    have hcons : Keyed.names (y :: ys) = [y.1] ++ Keyed.names ys := rfl
    rw [hcons, ← List.append_assoc]
    exact ih (names_put_eraseDups h y.1 y.2)

lemma get?_merge_of_not_has (xs : Keyed α) {ys : Keyed α} {name : String}
    (h : ys.has name = false) : (xs.merge ys).get? name = xs.get? name := by
  induction ys generalizing xs with
  | nil => rfl
  | cons y ys ih =>
    rw [has_cons, Bool.or_eq_false_iff, beq_eq_false_iff_ne] at h
    rw [merge_cons, ih _ h.2, get?_put_of_ne _ h.1.symm]

/-- Things that are stored one after the other under different names are all there in the end. -/
lemma get?_merge_of_mem (xs : Keyed α) {ys : Keyed α} (hys : ys.names.Nodup) {y : String × α}
    (hy : y ∈ ys) : (xs.merge ys).get? y.1 = some y.2 := by
  induction ys generalizing xs with
  | nil => cases hy
  | cons first ys ih =>
    rw [names, List.map_cons, List.nodup_cons] at hys
    rw [merge_cons]
    rcases List.mem_cons.1 hy with rfl | hy
    · have hlater : has ys y.1 = false := by
        rw [has_eq_contains_names, names]
        simpa using hys.1
      rw [get?_merge_of_not_has _ hlater, get?_put_self]
    · exact ih (xs.put first.1 first.2) hys.2 hy

/-- The thing that comes last under a name. -/
def last? (xs : Keyed α) (name : String) : Option α :=
  ((xs.filter fun x => x.1 == name).getLast?).map Prod.snd

lemma last?_concat (xs : Keyed α) (key name : String) (a : α) :
    last? (xs ++ [(key, a)]) name = if key = name then some a else xs.last? name := by
  rw [last?, List.filter_append]
  by_cases h : key = name
  · simp [h]
  · simp [h, last?]

/-- What was stored last counts. -/
lemma get?_merge (xs ys : Keyed α) (name : String) :
    (xs.merge ys).get? name = (ys.last? name).or (xs.get? name) := by
  induction ys generalizing xs with
  | nil => rfl
  | cons y ys ih =>
    rw [merge_cons, ih, last?, last?, List.filter_cons]
    by_cases hname : y.1 = name
    · subst hname
      rw [get?_put_self, if_pos (beq_self_eq_true y.1), List.getLast?_cons]
      cases (ys.filter fun x => x.1 == y.1).getLast? <;> rfl
    · rw [get?_put_of_ne _ (Ne.symm hname), if_neg (by simpa using hname)]

/-- Storing things changes nothing exactly if they are there already. -/
lemma merge_eq_self_iff (xs : Keyed α) {ys : Keyed α} (hys : ys.names.Nodup) :
    xs.merge ys = xs ↔ ∀ y ∈ ys, xs.get? y.1 = some y.2 := by
  constructor
  · intro hsame y hy
    have hget := get?_merge_of_mem xs hys hy
    rwa [hsame] at hget
  · intro hthere
    clear hys
    induction ys with
    | nil => rfl
    | cons y ys ih =>
      rw [List.forall_mem_cons] at hthere
      rw [merge_cons, put_of_get? hthere.1, ih hthere.2]

/-! ## What another list does not have -/

/-- What is stored under names that the other list does not have. -/
def without (xs ys : Keyed α) : Keyed α :=
  xs.filter fun x => !ys.has x.1

lemma without_cons (xs ys : Keyed α) (y : String × α) :
    xs.without (y :: ys) = (xs.erase y.1).without ys := by
  rw [without, without, erase, List.filter_filter]
  refine List.filter_congr fun x _ => ?_
  rw [has_cons, Bool.not_or, bne_comm, bne, Bool.and_comm]

lemma has_without (xs ys : Keyed α) (name : String) :
    (xs.without ys).has name = (xs.has name && !ys.has name) := by
  rw [has, without, List.any_filter, Bool.eq_iff_iff]
  simp only [List.any_eq_true, Bool.and_eq_true, beq_iff_eq]
  constructor
  · rintro ⟨x, hx, hother, rfl⟩
    exact ⟨List.any_eq_true.2 ⟨x, hx, beq_self_eq_true _⟩, hother⟩
  · rintro ⟨hhas, hother⟩
    obtain ⟨x, hx, hname⟩ := List.any_eq_true.1 hhas
    have hxname := eq_of_beq hname
    exact ⟨x, hx, by rwa [hxname], hxname⟩

lemma without_eq_self_iff (xs ys : Keyed α) :
    xs.without ys = xs ↔ ∀ y ∈ ys, xs.has y.1 = false := by
  rw [without, List.filter_eq_self]
  constructor
  · intro hkept y hy
    rw [Bool.eq_false_iff]
    intro hhas
    obtain ⟨x, hx, hname⟩ := List.any_eq_true.1 hhas
    have hother := hkept x hx
    rw [eq_of_beq hname, Bool.not_eq_true', Bool.eq_false_iff] at hother
    exact hother (List.any_eq_true.2 ⟨y, hy, beq_self_eq_true _⟩)
  · intro hnone x hx
    rw [Bool.not_eq_true', Bool.eq_false_iff]
    intro hhas
    obtain ⟨y, hy, hname⟩ := List.any_eq_true.1 hhas
    have hnot := hnone y hy
    rw [eq_of_beq hname, Bool.eq_false_iff] at hnot
    exact hnot (List.any_eq_true.2 ⟨x, hx, beq_self_eq_true _⟩)

end Keyed
end DocTags
