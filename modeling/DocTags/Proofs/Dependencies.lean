import DocTags.Proofs.Nesting
import DocTags.Proofs.Questions
import Mathlib.Data.List.Forall2

/-!
# Dependencies between types

A type depends on the types that its questions are about: the parent that it is registered with, or
else the first base class of its class and the annotation types in the documentation of that class,
nested ones included.  What names stand for can change while a reader works, so a dependency holds
at some time in the course of a call.  Where names are clear there is no such change
(`Depends.mem_of_clear`).

All types that resolution comes to are nameable, so it never runs out of levels
(`resolveWithin_ne_tooDeep`).
-/

namespace DocTags
namespace Reader

open Names

/-- What is known about names at some time between two states of a reader. -/
def Between (w : World) (r r' : Reader) (n : Names) : Prop :=
  Extends (.everywhere w) r.names n ∧ Extends (.everywhere w) n r'.names

/-- In the course of a call one type directly depends on another: it asks a question that is about
the other. -/
def DependsOn (w : World) (r r' : Reader) (type other : TypeId) : Prop :=
  ∃ n n', Between w r r' n ∧ Between w r r' n' ∧
    ∃ qs, questions? w r.declared n type = some qs ∧ ∃ q ∈ qs, q.Means w n' other

/-- The types that a type depends on at some time of a call, one for each of its questions. -/
def Depends (w : World) (r r' : Reader) (type : TypeId) (others : List TypeId) : Prop :=
  ∃ n, Between w r r' n ∧ ∃ qs, questions? w r.declared n type = some qs ∧
    List.Forall₂ (fun q other => ∃ n', Between w r r' n' ∧ q.Means w n' other) qs others

section Mono

variable {w : World} {r r₁ r' : Reader}

lemma Between.mono {n : Names} (h : Between w r r₁ n)
    (hend : Extends (.everywhere w) r₁.names r'.names) : Between w r r' n :=
  ⟨h.1, h.2.trans hend⟩

lemma DependsOn.mono {type other : TypeId} (h : DependsOn w r r₁ type other)
    (hend : Extends (.everywhere w) r₁.names r'.names) : DependsOn w r r' type other := by
  obtain ⟨n, n', hn, hn', hasks⟩ := h
  exact ⟨n, n', hn.mono hend, hn'.mono hend, hasks⟩

lemma Depends.mono {type : TypeId} {others : List TypeId} (h : Depends w r r₁ type others)
    (hend : Extends (.everywhere w) r₁.names r'.names) : Depends w r r' type others := by
  obtain ⟨n, hn, qs, hqs, hmeans⟩ := h
  refine ⟨n, hn.mono hend, qs, hqs, hmeans.imp fun q other ⟨n', hn', hq⟩ => ?_⟩
  exact ⟨n', hn'.mono hend, hq⟩

end Mono

variable {w : World}

/-! ## The number of levels -/

/-- The three kinds of dependency: a question is about the parent of a registered type, about the
first base class of a class, or about an annotation in its documentation. -/
lemma mem_questions {declared : Keyed Schema} {n : Names} {type : TypeId} {qs : List Question}
    {q : Question} (hqs : questions? w declared n type = some qs) (hq : q ∈ qs) :
    (∃ s parent, declared.get? type = some s ∧ extended? s = some parent ∧ q = .name [] parent) ∨
    ∃ found, declared.get? type = none ∧ (load w type n).1 = .ok found ∧
      ((∃ parent, w.parent? found = some parent ∧ q = .type parent) ∨
        ∃ name ∈ annotationNames (w.classDoc found), q = .name (w.classScope found) name) := by
  cases hs : declared.get? type with
  | some s =>
    obtain rfl := Option.some.inj ((questions_of_registered hs).symm.trans hqs)
    obtain ⟨parent, hparent, rfl⟩ := List.mem_map.1 hq
    exact .inl ⟨s, parent, rfl, Option.mem_toList.1 hparent, rfl⟩
  | none =>
    obtain ⟨found, hfound, rfl⟩ := questions_of_unregistered hs hqs
    refine .inr ⟨found, rfl, hfound, ?_⟩
    rcases List.mem_append.1 hq with hq | hq
    · obtain ⟨parent, hparent, rfl⟩ := List.mem_map.1 hq
      exact .inl ⟨parent, Option.mem_toList.1 hparent, rfl⟩
    · obtain ⟨name, hname, rfl⟩ := List.mem_map.1 hq
      exact .inr ⟨name, hname, rfl⟩

/-- A type that is asked for when another one is resolved is nameable. -/
lemma mem_nameable_of_means {r : Reader} {n n' : Names} {type other : TypeId} {qs : List Question}
    {q : Question} (hqs : questions? w r.declared n type = some qs) (hq : q ∈ qs)
    (hmeans : q.Means w n' other) (himports : n'.imports = r.names.imports) :
    other ∈ nameable w r := by
  have hbounds := bounds_nameable (w := w) r
  have hdenotes : ∀ {scope name}, (resolve w scope name n').1 = .ok other →
      Denotes w r.names.imports scope name other := fun h => himports ▸ denotes_of_resolve h
  rcases mem_questions hqs hq with
    ⟨s, parent, hs, hparent, rfl⟩ | ⟨found, -, -, ⟨parent, hparent, rfl⟩ | ⟨name, hname, rfl⟩⟩
  · refine hbounds.parents type s hs _ (List.mem_singleton_self _) other ?_
    rw [(Option.filter_eq_some_iff.1 hparent).1]
    exact hdenotes hmeans
  · obtain rfl : other = parent := hmeans
    exact hbounds.bases found other hparent
  · exact hbounds.docs found name hname other (hdenotes hmeans)

lemma steps_later (n : Nat) : Steps w (resolveWithin w n) (Later (.everywhere w)) where
  refl := .refl
  trans := .trans
  names h := h.later
  answer := later_resolveWithin n

/-- Of the three errors that are not ordinary, only the one about accessors can come from an answer
that is no error. -/
lemma Blames.error {so : Oracle} {type : TypeId} {r r' : Reader} {e : Error}
    (h : Blames so type r e r') (he : e ≠ .misuse .key) :
    ∃ asAncestor, so asAncestor type r = (.error e, r') :=
  h.resolve_right fun hkey => he hkey.1

/-- Where there is room on the stack, resolution does not run out of levels. -/
lemma resolveWithin_ne_tooDeep {types : List TypeId} {n : Nat} {asAncestor : Bool} {type : TypeId}
    {r : Reader} (htypes : ∀ t ∈ nameable w r, t ∈ types) (htype : type ∈ types)
    (hroom : Room types r.stack n) :
    (resolveWithin w n asAncestor type r).1 ≠ .error .tooDeep := by
  induction n using Nat.strongRecOn generalizing asAncestor type r with
  | _ n ih =>
    intro herror
    rcases resolveWithin_eq_error (Prod.ext herror rfl) rfl with
      ⟨-, hcycle, -⟩ | ⟨rfl, hs, -, -⟩ | ⟨m, r₂, rfl, hs, hrun, -⟩
    · cases hcycle
    · obtain ⟨m, hm, -⟩ := hroom.push htype hs
      cases hm
    · obtain ⟨qs, hqs, q, hq, other, r₁, ⟨r₀, hr₀, hmeans, hr₁⟩, hblames⟩ :=
        failure_resolveBy (steps_later m) hrun rfl
      obtain ⟨asAncestor', hanswer⟩ := hblames.error nofun
      obtain ⟨m', hm', hroom'⟩ := hroom.push htype hs
      obtain rfl := Nat.succ.inj hm'
      have hother := mem_nameable_of_means hqs hq hmeans hr₀.names.imports
      have hlater := hr₀.trans hr₁
      refine ih m (Nat.lt_succ_self m) ?_ (htypes other hother) ?_ (congrArg Prod.fst hanswer)
      · rwa [nameable_congr hlater.names.imports hlater.declared]
      · rwa [hlater.stack]

/-! ## Clear names -/

section Clear

variable {r r' : Reader}

/-- The states of names in the course of a call are clear if the first one is and no ambiguous id is
met by the end. -/
lemma Between.clear {n : Names} (h : Between w r r' n) (hr : r.names.Clear (.everywhere w))
    (hend : r'.names.meetsOnly (.everywhere w) = true) : n.Clear (.everywhere w) :=
  h.1.clear hr (h.2.meetsOnly hend)

lemma typeAt?_of_known {n : Names} {scope : Scope} {name : String}
    (hn : n.Clear (.everywhere w)) (hs : IsScope w scope) (hname : n.known.has name = true) :
    typeAt? w scope name = some name :=
  typeAt?_of_denotesItself hs (meetsOnly_iff.1 hn.meetsOnly name hname)

/-- A name has one meaning in clear states. -/
lemma resolve_unique {n n' : Names} {scope : Scope} {name : String} {type type' : TypeId}
    (hn : n.Clear (.everywhere w)) (hn' : n'.Clear (.everywhere w)) (hs : IsScope w scope)
    (himports : n.imports = n'.imports) (h : (resolve w scope name n).1 = .ok type)
    (h' : (resolve w scope name n').1 = .ok type') : type = type' := by
  -- In a clear state a name that is no import means what stands at it.
  have hmeans : ∀ {m : Names} {found : TypeId}, m.Clear (.everywhere w) →
      m.imports.get? name = none → (resolve w scope name m).1 = .ok found →
      typeAt? w scope name = some found := by
    intro m found hm himport hfound
    rw [resolve_apply, himport] at hfound
    dsimp only at hfound
    split at hfound
    · next hknown =>
      rw [typeAt?_of_known hm hs hknown]
      exact congrArg some (Except.ok.inj hfound)
    · split at hfound
      · next htype => exact htype.trans (congrArg some (Except.ok.inj hfound))
      · cases hfound
  cases himport : n.imports.get? name with
  | some other =>
    rw [resolve_apply, himport] at h
    rw [resolve_apply, ← himports, himport] at h'
    rw [← Except.ok.inj h, ← Except.ok.inj h']
  | none =>
    have htype := hmeans hn himport h
    rw [hmeans hn' (himports ▸ himport) h'] at htype
    exact (Option.some.inj htype).symm

/-- A type id has one class in clear states. -/
lemma load_unique {n n' : Names} {type found found' : TypeId}
    (hn : n.Clear (.everywhere w)) (hn' : n'.Clear (.everywhere w))
    (h : (load w type n).1 = .ok found) (h' : (load w type n').1 = .ok found') :
    found = found' := by
  have hpath : ∀ {m : Names} {found : TypeId}, m.Clear (.everywhere w) →
      (load w type m).1 = .ok found → typeAt? w [] type = some found := by
    intro m found hm hfound
    rw [load_eq] at hfound
    split at hfound
    · next known hknown =>
      obtain rfl := Except.ok.inj hfound
      have hself := hm.known_self type known hknown
      rw [hself]
      refine typeAt?_of_known hm (.inl rfl) ?_
      rw [Keyed.has_eq_isSome_get?, hknown, Option.isSome_some]
    · split at hfound
      · next htype => exact htype.trans (congrArg some (Except.ok.inj hfound))
      · cases hfound
  have htype := hpath hn h
  rw [hpath hn' h'] at htype
  exact (Option.some.inj htype).symm

lemma questions_unique {declared : Keyed Schema} {n n' : Names} {type : TypeId}
    {qs qs' : List Question} (hn : n.Clear (.everywhere w)) (hn' : n'.Clear (.everywhere w))
    (h : questions? w declared n type = some qs) (h' : questions? w declared n' type = some qs') :
    qs = qs' := by
  cases hs : declared.get? type with
  | some s =>
    rw [questions_of_registered hs] at h h'
    exact Option.some.inj (h.symm.trans h')
  | none =>
    obtain ⟨found, hfound, rfl⟩ := questions_of_unregistered hs h
    obtain ⟨found', hfound', rfl⟩ := questions_of_unregistered hs h'
    rw [load_unique hn hn' hfound hfound']

/-- A question of a type is about one type in clear states. -/
lemma means_unique {declared : Keyed Schema} {m n n' : Names} {type other other' : TypeId}
    {qs : List Question} {q : Question} (hn : n.Clear (.everywhere w))
    (hn' : n'.Clear (.everywhere w)) (himports : n.imports = n'.imports)
    (hqs : questions? w declared m type = some qs) (hq : q ∈ qs) (h : q.Means w n other)
    (h' : q.Means w n' other') : other = other' := by
  rcases mem_questions hqs hq with
    ⟨s, parent, -, -, rfl⟩ | ⟨found, -, -, ⟨parent, -, rfl⟩ | ⟨name, -, rfl⟩⟩
  · exact resolve_unique hn hn' (.inl rfl) himports h h'
  · exact Eq.trans h (Eq.symm h')
  · exact resolve_unique hn hn' (isScope_scopeOf _) himports h h'

/-- Where names are clear, a type has the same dependencies at all times. -/
lemma Depends.mem_of_clear {type other : TypeId} {others : List TypeId}
    (h : Depends w r r' type others) (hr : r.names.Clear (.everywhere w))
    (hend : r'.names.meetsOnly (.everywhere w) = true) (hother : DependsOn w r r' type other) :
    other ∈ others := by
  have hclear : ∀ {m}, Between w r r' m → m.Clear (.everywhere w) := fun hm => hm.clear hr hend
  obtain ⟨n, hn, qs, hqs, hall⟩ := h
  obtain ⟨n₁, n₂, hn₁, hn₂, qs', hqs', q, hq, hmeans⟩ := hother
  obtain rfl := questions_unique (hclear hn) (hclear hn₁) hqs hqs'
  have hunique : ∀ {other'}, (∃ n', Between w r r' n' ∧ q.Means w n' other') → other = other' := by
    rintro other' ⟨n', hn', hmeans'⟩
    have himports : n₂.imports = n'.imports := hn₂.1.imports.trans hn'.1.imports.symm
    exact means_unique (hclear hn₂) (hclear hn') himports hqs hq hmeans hmeans'
  clear hqs hqs'
  induction hall with
  | nil => exact absurd hq List.not_mem_nil
  | cons hfirst _ ih =>
    rcases List.mem_cons.1 hq with rfl | hq
    · rw [hunique hfirst]
      exact List.mem_cons_self ..
    · exact List.mem_cons_of_mem _ (ih hq)

end Clear

end Reader
end DocTags
