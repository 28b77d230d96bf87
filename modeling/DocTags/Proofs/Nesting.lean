import DocTags.Proofs.Resolution
import Mathlib.Data.List.Perm.Subperm

/-!
# The bound on nested types

Resolution asks for types from a finite list only, apart from the outermost one: `nameable` has all
that imports, registered parents, base classes and the documentation of classes can lead to.  No
type is on the stack twice, so the stack is never longer than that list, and the depth that
resolution is given is enough: `resolveWithin_depth` says that more of it changes nothing.
-/

namespace DocTags
namespace Reader

open Names

variable {w : World}

/-! ## The types that can be asked for -/

/-- What a name is resolved to is an import, or the name stands for it. -/
lemma mem_of_denotes {r : Reader} {scope : Scope} {name : String} {type : TypeId}
    {types : List TypeId} (h : Denotes w r.names.imports scope name type)
    (htypes : ∀ t ∈ nameable w r, t ∈ types) (hdenoted : ∀ t ∈ denoted w scope name, t ∈ types) :
    type ∈ types := by
  rcases h with himport | rfl | htype
  · have hmem := List.mem_map_of_mem (f := Prod.snd) (Keyed.mem_of_get? himport)
    exact htypes type (List.mem_append_left _ (List.mem_append_left _ hmem))
  · exact hdenoted type (List.mem_cons_self ..)
  · exact hdenoted type (by simp [denoted, htype])

/-- The documentation of a class that is not described is empty. -/
lemma annotationNames_of_unknown {found : TypeId} (h : w.classes.get? found = none) :
    annotationNames (w.classDoc found) = [] := by
  rw [World.classDoc, World.classOf, h]
  rfl

lemma bounds_nameable (r : Reader) :
    Bounds w r.names.imports r.declared fun type => type ∈ nameable w r where
  parents type s hs := by
    intro name hname parent hparent
    rw [List.mem_singleton.1 hname] at hparent
    refine mem_of_denotes hparent (fun _ ht => ht) fun t ht => ?_
    refine List.mem_append_left _ (List.mem_append_right _ ?_)
    exact List.mem_flatMap.2 ⟨(type, s), Keyed.mem_of_get? hs, ht⟩
  bases found parent hparent := by
    obtain ⟨c, hc, hbase⟩ := Option.bind_eq_some_iff.1 hparent
    refine List.mem_append_right _ (List.mem_flatMap.2 ⟨(found, c), Keyed.mem_of_get? hc, ?_⟩)
    exact List.mem_append_left _ (List.mem_of_head? hbase)
  docs found := by
    intro name hname type htype
    cases hc : w.classes.get? found with
    | none =>
      rw [annotationNames_of_unknown hc] at hname
      cases hname
    | some c =>
      refine mem_of_denotes htype (fun _ ht => ht) fun t ht => ?_
      refine List.mem_append_right _ (List.mem_flatMap.2 ⟨(found, c), Keyed.mem_of_get? hc, ?_⟩)
      exact List.mem_append_right _ (List.mem_flatMap.2 ⟨name, hname, ht⟩)

lemma nameable_congr {r r' : Reader} (himports : r'.names.imports = r.names.imports)
    (hdeclared : r'.declared = r.declared) : nameable w r' = nameable w r := by
  rw [nameable, nameable, himports, hdeclared]

/-! ## Room on the stack -/

/-- A stack without repetitions, of types from a list that is not longer than the stack and the
levels that are left. -/
structure Room (types stack : List TypeId) (n : Nat) : Prop where
  nodup : stack.Nodup
  subset : ∀ type ∈ stack, type ∈ types
  enough : types.length ≤ n + stack.length

namespace Room

variable {types stack : List TypeId} {n m : Nat} {type : TypeId}

lemma mono (h : Room types stack n) (hm : n ≤ m) : Room types stack m :=
  ⟨h.nodup, h.subset, Nat.le_trans h.enough (Nat.add_le_add_right hm _)⟩

/-- One more type from the list takes one of the levels that are left. -/
lemma push (h : Room types stack n) (htype : type ∈ types) (hs : type ∉ stack) :
    ∃ m, n = m + 1 ∧ Room types (stack ++ [type]) m := by
  have hnodup : (stack ++ [type]).Nodup := by
    refine List.nodup_append.2 ⟨h.nodup, List.pairwise_singleton _ _, fun t ht t' ht' heq => ?_⟩
    rw [heq, List.mem_singleton.1 ht'] at ht
    exact hs ht
  have hsubset : ∀ t ∈ stack ++ [type], t ∈ types := by
    simp only [List.mem_append, List.mem_singleton]
    rintro t (ht | rfl)
    · exact h.subset t ht
    · exact htype
  have hlength := (List.subperm_of_subset hnodup hsubset).length_le
  have henough := h.enough
  rw [List.length_append, List.length_singleton] at hlength
  obtain ⟨m, rfl⟩ : ∃ m, n = m + 1 := ⟨n - 1, by omega⟩
  refine ⟨m, rfl, hnodup, hsubset, ?_⟩
  rw [List.length_append, List.length_singleton]
  omega

end Room

/-- Runs that ask are equal if the answers about the types that they may ask for are. -/
lemma Asking.congr {ids : OwnIds w} {imports : Keyed TypeId} {p : Prop} {L : TypeId → Prop}
    {α : Type} {F : Oracle → Run Reader α} (hF : Asking ids imports p L F) {K : Reader → Prop}
    (hK : ∀ {r r'}, Later ids r r' → K r → K r') (himports : ∀ {r}, K r → r.names.imports = imports)
    {so so' : Oracle} (hlater : ∀ asAncestor type r, Later ids r (so asAncestor type r).2)
    (hagree : ∀ asAncestor type r, L type → K r → so asAncestor type r = so' asAncestor type r)
    {r : Reader} (hr : K r) : F so r = F so' r := by
  induction hF generalizing r with
  | pure a => rfl
  | throw e => rfl
  | names h => rfl
  | ask asAncestor h => exact hagree asAncestor _ r h hr
  | @resolve _ _ scope f hs name hf hall ihf ihall =>
    dsimp only
    cases hres : (onNames (Names.resolve w scope name) r).1 with
    | error e => rw [Run.bind_of_fst_error hres, Run.bind_of_fst_error hres]
    | ok type =>
      have hdenotes : Denotes w r.names.imports scope name type := denotes_of_resolve hres
      rw [himports hr] at hdenotes
      rw [Run.bind_of_fst_ok hres, Run.bind_of_fst_ok hres]
      exact ihf type hdenotes hagree
        (hK ⟨(uniform_resolve hs name).later r.names, rfl, rfl, rfl⟩ hr)
  | flag hx hy ihx ihy =>
    dsimp only
    by_cases hflag : r.readsClasses = true
    · rw [flag_pos _ _ hflag, flag_pos _ _ hflag, ihx hagree hr]
    · rw [flag_neg _ _ hflag, flag_neg _ _ hflag, ihy hagree hr]
  | @bind _ _ _ x f hx hf ihx ihf =>
    dsimp only
    have hsame := ihx hagree hr
    cases hres : (x so r).1 with
    | error e =>
      rw [Run.bind_of_fst_error hres, Run.bind_of_fst_error (hsame ▸ hres), hsame]
    | ok a =>
      rw [Run.bind_of_fst_ok hres, Run.bind_of_fst_ok (hsame ▸ hres), ← hsame]
      exact ihf a hagree (hK (hx.later hlater r) hr)

section Congr

variable {docs : TypeId → Bool}

/-- A type is resolved alike if the types that it can ask for are. -/
lemma resolveByAmong_congr {r : Reader} {type : TypeId} {so so' : Oracle}
    (hlater : ∀ asAncestor type r, Later (.everywhere w) r (so asAncestor type r).2)
    (hagree : ∀ asAncestor other r₁, other ∈ nameable w r → nameable w r₁ = nameable w r →
      r₁.stack = r.stack ++ [type] → so asAncestor other r₁ = so' asAncestor other r₁) :
    resolveByAmong w docs r.declared type so (opened type r) =
      resolveByAmong w docs r.declared type so' (opened type r) := by
  have hasking : Asking (.everywhere w) r.names.imports True (fun type => type ∈ nameable w r)
      (resolveByAmong w docs r.declared type) :=
    asking_resolveByAmong (fun _ _ _ => rfl) (bounds_nameable r) type
  refine hasking.congr (K := Later (.everywhere w) (opened type r))
    (fun hlater hr => hr.trans hlater) (fun hr => hr.names.imports) hlater
    (fun asAncestor other r₁ hother hr₁ => ?_) (Later.refl _)
  exact hagree asAncestor other r₁ hother (nameable_congr hr₁.names.imports hr₁.declared) hr₁.stack

/-- Where there is room on the stack, the number of levels that are left makes no difference. -/
lemma resolveAmong_congr {types : List TypeId} {n m : Nat} {asAncestor : Bool} {type : TypeId}
    {r : Reader} (htypes : ∀ t ∈ nameable w r, t ∈ types) (htype : type ∈ types)
    (hn : Room types r.stack n) (hm : Room types r.stack m) :
    resolveAmong w docs n asAncestor type r = resolveAmong w docs m asAncestor type r := by
  induction n using Nat.strongRecOn generalizing m asAncestor type r with
  | _ n ih =>
    cases hc : r.resolved.get? type with
    | some s => rw [resolveAmong_cached hc, resolveAmong_cached hc]
    | none =>
      by_cases hs : type ∈ r.stack
      · rw [resolveAmong_cycle hc hs, resolveAmong_cycle hc hs]
      · obtain ⟨n, rfl, hn⟩ := hn.push htype hs
        obtain ⟨m, rfl, hm⟩ := hm.push htype hs
        rw [resolveAmong_fresh hc hs, resolveAmong_fresh hc hs]
        have hsame : resolveByAmong w docs r.declared type (resolveAmong w docs n) (opened type r) =
            resolveByAmong w docs r.declared type (resolveAmong w docs m) (opened type r) := by
          refine resolveByAmong_congr (later_resolveAmong docs n)
            fun asAncestor other r₁ hother hnameable hstack => ?_
          refine ih n (Nat.lt_succ_self n) ?_ (htypes other hother) ?_ ?_
          · rwa [hnameable]
          · rwa [hstack]
          · rwa [hstack]
        rw [hsame]

end Congr

lemma room_depth (w : World) (type : TypeId) (r : Reader) :
    Room (type :: nameable w r) [] (depth w r) :=
  ⟨List.nodup_nil, fun _ h => absurd h List.not_mem_nil, Nat.le_refl _⟩

/-- The depth that resolution is given is enough. -/
theorem resolveWithin_depth {n : Nat} {asAncestor : Bool} {type : TypeId} {r : Reader}
    (hstack : r.stack = []) (hn : depth w r ≤ n) :
    resolveWithin w n asAncestor type r = resolveWithin w (depth w r) asAncestor type r := by
  have hroom := room_depth w type r
  rw [← hstack] at hroom
  rw [← resolveAmong_all, ← resolveAmong_all]
  exact resolveAmong_congr (fun _ => List.mem_cons_of_mem type) (List.mem_cons_self ..)
    (hroom.mono hn) hroom

end Reader
end DocTags
