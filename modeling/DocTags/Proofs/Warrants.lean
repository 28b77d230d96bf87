import DocTags.Proofs.Lives

/-!
# What holds of resolved schemas

A schema enters the cache in one place, when a type has been resolved, and leaves it when its type
is registered anew or the cache is emptied.  So what holds of every schema that was just resolved
holds of every schema in the cache and of every one handed out, after any calls.

`Warrant` is what has to be shown of a property for that: resolution establishes it, and it stays
when more names are known.  `Warranted` is the invariant, with `warranted_life` for whole lives of
readers.
-/

namespace DocTags

/-- Each type id that is known stands for its own class or for the one at its path. -/
def Names.Faithful (w : World) (n : Names) : Prop :=
  ∀ type found, n.known.get? type = some found → StandsFor w type found

namespace Reader

open Names

variable {w : World} {P : Names → TypeId → Schema → Prop}

/-- The id under which a class was loaded can stand for it. -/
lemma standsFor_of_load {type found : TypeId} {n : Names} (hn : Faithful w n)
    (h : (load w type n).1 = .ok found) : StandsFor w type found := by
  rw [load_eq] at h
  split at h
  · next known hknown =>
    rw [← Except.ok.inj h]
    exact hn type known hknown
  · split at h
    · next htype => exact .inr (htype.trans (congrArg some (Except.ok.inj h)))
    · cases h

/-- A property that each schema has when it is resolved, and keeps when names are learnt. -/
structure Warrant (w : World) (P : Names → TypeId → Schema → Prop) : Prop where
  lasts : ∀ {n n' : Names} {type s}, (∀ name, n.known.has name = true → n'.known.has name = true) →
    P n type s → P n' type s
  given : ∀ {declared type so s r r'}, resolveBy w declared type so r = (.ok (s, true), r') →
    Faithful w r'.names → P r'.names type s

/-- All schemas in the cache have the property. -/
structure Warranted (w : World) (P : Names → TypeId → Schema → Prop) (r : Reader) : Prop where
  known : Faithful w r.names
  schemas : ∀ type s, r.resolved.get? type = some s → P r.names type s

namespace Warranted

variable {r r' : Reader}

lemma names (hP : Warrant w P) (h : Warranted w P r) (hr' : NamesOnly (.everywhere w) r r') :
    Warranted w P r' := by
  obtain ⟨n, hn, rfl⟩ := hr'
  exact ⟨fun type found hget => (hn.learnt type found hget).elim (h.known type found) id,
    fun type s hget => hP.lasts hn.known (h.schemas type s hget)⟩

lemma opened (h : Warranted w P r) (type : TypeId) : Warranted w P (opened type r) :=
  ⟨h.known, h.schemas⟩

lemma closed (h : Warranted w P r) {type : TypeId} {found : Except Error (Schema × Bool)}
    (htype : ∀ s, found = .ok (s, true) → P r.names type s) :
    Warranted w P (closed type found r) := by
  unfold Reader.closed
  split
  · next s =>
    refine ⟨h.known, fun other s' hget => ?_⟩
    by_cases hother : other = type
    · rw [hother, Keyed.get?_put_self] at hget
      rw [hother, ← Option.some.inj hget]
      exact htype s rfl
    · rw [Keyed.get?_put_of_ne _ hother] at hget
      exact h.schemas other s' hget
  · exact ⟨h.known, h.schemas⟩

/-- Whatever is asked for, the property is kept if it is kept when the oracle answers. -/
lemma steps (hP : Warrant w P) {so : Oracle}
    (h : ∀ asAncestor type r, Warranted w P r → Warranted w P (so asAncestor type r).2) :
    Steps w so fun r r' => Warranted w P r → Warranted w P r' :=
  ⟨fun _ hr => hr, fun h h₁ hr => h₁ (h hr), fun h hr => hr.names hP h, h⟩

end Warranted

/-- Resolution keeps the property, and the schema of an annotation type has it. -/
lemma warranted_resolveWithin (hP : Warrant w P) (n : Nat) (asAncestor : Bool) (type : TypeId)
    (r : Reader) (hr : Warranted w P r) :
    Warranted w P (resolveWithin w n asAncestor type r).2 ∧
      ∀ s, asAncestor = false → (resolveWithin w n asAncestor type r).1 = .ok s →
        P (resolveWithin w n asAncestor type r).2.names type s := by
  induction n using Nat.strongRecOn generalizing asAncestor type r with
  | _ n ih =>
    rcases resolveWithin_cases w n asAncestor type r with
      ⟨s, hs, hrun⟩ | ⟨e, hrun⟩ | ⟨m, rfl, -, hs, hrun⟩
    · rw [hrun]
      refine ⟨hr, fun s' _ h => ?_⟩
      cases h
      exact hr.schemas type s hs
    · rw [hrun]
      exact ⟨hr, fun _ _ => nofun⟩
    · have hsteps := Warranted.steps hP fun asAncestor other r hr =>
        (ih m m.lt_succ_self asAncestor other r hr).1
      have hstep := step_resolveBy hsteps r.declared type (opened type r) (hr.opened type)
      rw [hrun]
      rcases hres : resolveBy w r.declared type (resolveWithin w m) (opened type r) with
        ⟨found, r₁⟩
      rw [hres] at hstep
      have htype : ∀ s, found = .ok (s, true) → P r₁.names type s := by
        rintro s rfl
        exact hP.given hres hstep.known
      refine ⟨hstep.closed htype, fun s hasked hend => ?_⟩
      subst hasked
      rcases found with e | ⟨s', isType⟩
      · cases hend
      · cases isType with
        | true =>
          cases hend
          exact htype _ rfl
        | false => cases hend

/-! ## Lives of readers -/

lemma warranted_setup (hP : Warrant w P) (c : Setup) {r : Reader} (hr : Warranted w P r) :
    Warranted w P (c.run w r) := by
  obtain ⟨r₁, hr₁, hrun | ⟨key, s, hrun⟩ | ⟨key, short, hrun⟩⟩ := setup_cases w c r
  · rw [hrun]
    exact hr.names hP hr₁
  · have hkept := hr.names hP hr₁
    rw [hrun]
    refine ⟨hkept.known, fun other s' hget => hkept.schemas other s' ?_⟩
    have hne : other ≠ key := by
      rintro rfl
      rw [register, Keyed.get?_erase_self] at hget
      cases hget
    rwa [register, Keyed.get?_erase_of_ne _ hne] at hget
  · have hkept := hr.names hP hr₁
    rw [hrun]
    exact ⟨hkept.known, fun type s hget =>
      hP.lasts (n := r₁.names) (fun _ hname => hname) (hkept.schemas type s hget)⟩

lemma warranted_use (hP : Warrant w P) (u : Use) {r : Reader} (hr : Warranted w P r) :
    Warranted w P (u.run w r) := by
  have hsteps : ∀ n, Steps w (resolveWithin w n) fun r r' => Warranted w P r → Warranted w P r' :=
    fun n => Warranted.steps hP fun asAncestor type r hr =>
      (warranted_resolveWithin hP n asAncestor type r hr).1
  rcases step_use hsteps u r with hstep | hclear
  · exact hstep hr
  · rw [hclear]
    exact ⟨hr.known, fun _ _ hget => nomatch hget⟩

lemma warranted_life (hP : Warrant w P) (acts : List Act) {r : Reader} (hr : Warranted w P r) :
    Warranted w P (life w acts r) := by
  induction acts generalizing r with
  | nil => exact hr
  | cons a acts ih =>
    cases a with
    | setup c => exact ih (warranted_setup hP c hr)
    | use u => exact ih (warranted_use hP u hr)

lemma warranted_start (imports : Keyed TypeId) (reads : Bool) :
    Warranted w P (start imports reads) :=
  ⟨fun type found hget => .inl (known_self_start imports reads type found hget),
    fun _ _ hget => nomatch hget⟩

/-- Each schema that is handed out has the property. -/
lemma Warrant.of_resolveSchema (hP : Warrant w P) {imports : Keyed TypeId} {reads : Bool}
    {acts : List Act} {type : TypeId} {s : Schema} {r₁ : Reader}
    (h : resolveSchema w type (life w acts (start imports reads)) = (.ok s, r₁)) :
    P r₁.names type s := by
  have hr := warranted_life hP acts (warranted_start imports reads)
  generalize life w acts (start imports reads) = r at h hr
  rw [resolveSchema, Run.bind_ok (Run.get_apply r)] at h
  have hs := (warranted_resolveWithin hP (depth w r) false type r hr).2 s rfl
  rw [h] at hs
  exact hs rfl

end Reader
end DocTags
