import Mathlib.Data.List.Basic
import DocTags.Proofs.Keyed
import DocTags.World

/-!
# What the ancestors of a class have in common

Merging orders brings in no classes.  So what passes from a class to its bases holds of all the
classes that it descends from (`forall_mem_lineage`, `forall_mem_ancestryOfAll`).  In an ordinary
world this leaves no values of a kind but the ones that have its class (`isInstance_eq`).
-/

namespace DocTags
namespace World

variable {w : World} {id : TypeId}

/-- A class that is not described stands alone; the ancestors of others are merged, in as many
steps as there are. -/
lemma lineage_succ (n : Nat) (id : TypeId) :
    w.classes.get? id = none ∧ w.lineage (n + 1) id = [id] ∨
    ∃ c steps, w.classes.get? id = some c ∧ w.lineage (n + 1) id =
      id :: mergeOrders steps ((c.bases.map (w.lineage n) ++ [c.bases]).filter (!·.isEmpty)) := by
  generalize hall : w.lineage (n + 1) id = all
  -- One generation is unfolded, and it depends on what is known about the class.
  conv at hall =>
    lhs
    whnf
  cases hc : w.classes.get? id with
  | none =>
    rw [hc] at hall
    exact .inl ⟨rfl, hall.symm⟩
  | some c =>
    rw [hc] at hall
    exact .inr ⟨c, _, rfl, hall.symm⟩

lemma mem_lineage_self (n : Nat) (id : TypeId) : id ∈ w.lineage n id := by
  cases n with
  | zero => exact List.mem_singleton_self id
  | succ n =>
    obtain ⟨-, hall⟩ | ⟨c, steps, -, hall⟩ := lineage_succ (w := w) n id
    · rw [hall]
      exact List.mem_singleton_self id
    · rw [hall]
      exact List.mem_cons_self

lemma mem_ancestryOfAll_self (id : TypeId) : id ∈ w.ancestryOfAll id := by
  have hself : id ∈ w.ancestry id := mem_lineage_self w.classes.length id
  unfold ancestryOfAll
  dsimp only
  split
  · exact hself
  · exact List.mem_append_left _ hself

lemma mem_of_mem_dropHead {lists : List (List TypeId)} {ids : List TypeId} {c : TypeId}
    (hids : ids ∈ dropHead id lists) (hc : c ∈ ids) : ∃ ids ∈ lists, c ∈ ids := by
  obtain ⟨all, hall, rfl⟩ := List.mem_map.1 (List.mem_of_mem_filter hids)
  refine ⟨all, hall, ?_⟩
  split at hc
  · exact List.mem_of_mem_drop hc
  · exact hc

/-- Merging orders brings in nothing new. -/
lemma exists_of_mem_mergeOrders {n : Nat} {lists : List (List TypeId)} {c : TypeId}
    (h : c ∈ mergeOrders n lists) : ∃ ids ∈ lists, c ∈ ids := by
  induction n generalizing lists with
  | zero => cases h
  | succ n ih =>
    rw [mergeOrders] at h
    split at h
    · cases h
    · next first hfirst =>
      rcases List.mem_cons.1 h with rfl | h
      · obtain ⟨ids, hids, hhead⟩ := List.mem_filterMap.1 (List.mem_of_find?_eq_some hfirst)
        exact ⟨ids, hids, List.mem_of_head? hhead⟩
      · obtain ⟨ids, hids, hc⟩ := ih h
        exact mem_of_mem_dropHead hids hc

/-- The ancestors of a class are its bases and the ancestors of these. -/
lemma mem_lineage_succ {n : Nat} {d : TypeId} (h : d ∈ w.lineage (n + 1) id) :
    d = id ∨ ∃ c, w.classes.get? id = some c ∧
      (d ∈ c.bases ∨ ∃ base ∈ c.bases, d ∈ w.lineage n base) := by
  obtain ⟨-, hall⟩ | ⟨c, steps, hc, hall⟩ := lineage_succ (w := w) n id
  · rw [hall] at h
    exact .inl (List.mem_singleton.1 h)
  · rw [hall] at h
    refine (List.mem_cons.1 h).imp_right fun h => ⟨c, hc, ?_⟩
    obtain ⟨ids, hids, hd⟩ := exists_of_mem_mergeOrders h
    rcases List.mem_append.1 (List.mem_of_mem_filter hids) with hids | hids
    · obtain ⟨base, hbase, rfl⟩ := List.mem_map.1 hids
      exact .inr ⟨base, hbase, hd⟩
    · exact .inl (List.mem_singleton.1 hids ▸ hd)

section Inherited

variable {P : TypeId → Prop}

/-- What passes from a class to its bases holds of all generations. -/
lemma forall_mem_lineage
    (hbases : ∀ id c, P id → w.classes.get? id = some c → ∀ base ∈ c.bases, P base) {n : Nat}
    (hid : P id) : ∀ d ∈ w.lineage n id, P d := by
  induction n generalizing id with
  | zero => exact List.forall_mem_singleton.2 hid
  | succ n ih =>
    intro d hd
    obtain rfl | ⟨c, hc, hd | ⟨base, hbase, hd⟩⟩ := mem_lineage_succ hd
    · exact hid
    · exact hbases id c hid hc d hd
    · exact ih (hbases id c hid hc base hbase) d hd

lemma forall_mem_ancestryOfAll
    (hbases : ∀ id c, P id → w.classes.get? id = some c → ∀ base ∈ c.bases, P base)
    (hobject : P objectType) (hid : P id) : ∀ d ∈ w.ancestryOfAll id, P d := by
  have hfound : ∀ d ∈ w.ancestry id, P d := forall_mem_lineage hbases hid
  unfold ancestryOfAll
  dsimp only
  split
  · exact hfound
  · exact List.forall_mem_append.2 ⟨hfound, List.forall_mem_singleton.2 hobject⟩

end Inherited

/-! ## Ordinary worlds -/

/-- Only truth values and placements have a class below one of the kinds, and this is the class of
the whole numbers. -/
lemma base_of_isOrdinary (hw : w.isOrdinary = true) {base : TypeId} {c : Class}
    (hc : w.classes.get? id = some c) (hbase : base ∈ c.bases) (hkind : base ∈ kindTypes) :
    base = builtin "int" ∧ (id = builtin "bool" ∨ id = placementType) := by
  have h := List.all_eq_true.1 (List.all_eq_true.1 hw _ (Keyed.mem_of_get? hc)) base hbase
  simpa [hkind] using h

lemma isInstance_eq (hw : w.isOrdinary = true) {kind : TypeId} (hkind : kind ∈ kindTypes)
    (hint : kind ≠ builtin "int") (v : Value) : w.isInstance kind v = (v.typeOf == kind) := by
  by_cases hv : v.typeOf = kind
  · rw [isInstance, hv, beq_self_eq_true]
    exact List.contains_iff_mem.2 (mem_ancestryOfAll_self kind)
  · -- That a class is another one passes to its bases, as none of them is of this kind.
    have hother : ∀ d ∈ w.ancestryOfAll v.typeOf, d ≠ kind := by
      refine forall_mem_ancestryOfAll (fun id c _ hc base hbase heq => hint ?_) ?_ hv
      · subst heq
        exact (base_of_isOrdinary hw hc hbase hkind).1
      · rintro rfl
        exact absurd hkind (by decide)
    rw [isInstance, beq_eq_false_iff_ne.2 hv, ← Bool.not_eq_true, List.contains_iff_mem]
    exact fun hmem => hother kind hmem rfl

end World

/-! Moments, routines and types have classes that are none of the kinds. -/

lemma Moment.typeOf_not_mem_kindTypes (m : Moment) :
    Value.typeOf (.moment m) ∉ World.kindTypes := by
  rw [Value.typeOf, Moment.sortName]
  split <;> decide +kernel

lemma Routine.classOf_not_mem_kindTypes (r : Routine) : r.classOf ∉ World.kindTypes := by
  unfold classOf
  split <;> decide +kernel

lemma TypeExpr.classOf_not_mem_kindTypes (t : TypeExpr) : t.classOf ∉ World.kindTypes := by
  cases t <;> exact of_decide_eq_true rfl

end DocTags
