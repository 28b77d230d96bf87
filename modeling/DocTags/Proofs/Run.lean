import DocTags.Names
import Mathlib.Data.List.Forall2

/-!
# Runs step by step

A `Run` is a function from a state to a result and the state left behind, and a failing run leaves
one behind too.  The lemmas here say what each building block of a run does to a state, so that
later files can follow a computation without unfolding the monads it is written in.
-/

namespace DocTags

/-- Both parts of a successful computation are successful. -/
lemma ok_of_bind {α β : Type} {x : Except Error α} {f : α → Except Error β} {b : β}
    (h : x >>= f = .ok b) : ∃ a, x = .ok a ∧ f a = .ok b := by
  cases x with
  | error e => cases h
  | ok a => exact ⟨a, rfl, h⟩

/-- A computation on all elements of a list is successful if each one is, and gives the results in
order. -/
lemma mapM_eq_ok_iff {α β : Type} {f : α → Except Error β} {xs : List α} {ys : List β} :
    xs.mapM f = .ok ys ↔ List.Forall₂ (fun x y => f x = .ok y) xs ys := by
  induction xs generalizing ys with
  | nil =>
    rw [List.mapM_nil, List.forall₂_nil_left_iff]
    exact ⟨fun h => (Except.ok.inj h).symm, fun h => congrArg Except.ok h.symm⟩
  | cons x xs ih =>
    rw [List.mapM_cons, List.forall₂_cons_left_iff]
    constructor
    · intro h
      obtain ⟨y, hy, h⟩ := ok_of_bind h
      obtain ⟨rest, hrest, h⟩ := ok_of_bind h
      exact ⟨y, rest, hy, ih.1 hrest, (Except.ok.inj h).symm⟩
    · rintro ⟨y, rest, hy, hrest, rfl⟩
      rw [hy, ih.2 hrest]
      rfl

/-- Each element on the right is related to one on the left. -/
lemma exists_of_mem_forall₂ {α β : Type} {R : α → β → Prop} {xs : List α} {ys : List β}
    (h : List.Forall₂ R xs ys) {y : β} (hy : y ∈ ys) : ∃ x ∈ xs, R x y := by
  induction h with
  | nil => cases hy
  | @cons x _ xs _ hx _ ih =>
    rcases List.mem_cons.1 hy with rfl | hy
    · exact ⟨x, List.mem_cons_self, hx⟩
    · obtain ⟨z, hz, hzy⟩ := ih hy
      exact ⟨z, List.mem_cons_of_mem x hz, hzy⟩

/-- A list can be put in relation to another one if each of its elements can be. -/
lemma exists_forall₂_iff {α β : Type} {R : α → β → Prop} {xs : List α} :
    (∃ ys, List.Forall₂ R xs ys) ↔ ∀ x ∈ xs, ∃ y, R x y := by
  induction xs with
  | nil => exact ⟨fun _ => List.forall_mem_nil _, fun _ => ⟨[], .nil⟩⟩
  | cons x xs ih =>
    rw [List.forall_mem_cons, ← ih]
    constructor
    · rintro ⟨_, _ | ⟨hx, hxs⟩⟩
      exact ⟨⟨_, hx⟩, _, hxs⟩
    · rintro ⟨⟨y, hx⟩, ys, hxs⟩
      exact ⟨y :: ys, .cons hx hxs⟩

lemma exists_of_mem_mapM {α β : Type} {f : α → Except Error β} {xs : List α} {ys : List β}
    (h : xs.mapM f = .ok ys) {y : β} (hy : y ∈ ys) : ∃ x ∈ xs, f x = .ok y :=
  exists_of_mem_forall₂ (mapM_eq_ok_iff.1 h) hy

section Keyed

variable {α β : Type} {xs : Keyed α} {ys : Keyed β} {f : String × α → Except Error (String × β)}

lemma map_fst_of_mapM (hf : ∀ x y, f x = .ok y → y.1 = x.1) (h : xs.mapM f = .ok ys) :
    ys.map Prod.fst = xs.map Prod.fst := by
  have hxy := mapM_eq_ok_iff.1 h
  clear h
  induction hxy with
  | nil => rfl
  | cons hstep _ ih => rw [List.map_cons, List.map_cons, hf _ _ hstep, ih]

/-- Where the names stay, what is found under one of them comes from what was there before. -/
lemma exists_get?_of_mapM (hf : ∀ x y, f x = .ok y → y.1 = x.1) (h : xs.mapM f = .ok ys)
    {name : String} {a : α} (ha : xs.get? name = some a) :
    ∃ b, ys.get? name = some b ∧ f (name, a) = .ok (name, b) := by
  have hxy := mapM_eq_ok_iff.1 h
  clear h
  induction hxy with
  | nil => cases ha
  | @cons x y xs ys hstep _ ih =>
    obtain ⟨name', a'⟩ := x
    obtain ⟨name'', b⟩ := y
    obtain rfl : name'' = name' := hf _ _ hstep
    rw [Keyed.get?, List.lookup_cons] at ha ⊢
    cases hname : name == name'' with
    | true =>
      rw [hname] at ha
      obtain rfl := eq_of_beq hname
      obtain rfl := Option.some.inj ha
      exact ⟨b, rfl, hstep⟩
    | false =>
      rw [hname] at ha
      exact ih ha

end Keyed

namespace Run

variable {σ α β : Type}

@[simp] lemma pure_apply (a : α) (s : σ) : (pure a : Run σ α) s = (.ok a, s) := rfl

@[simp] lemma throw_apply (e : Error) (s : σ) : (throw e : Run σ α) s = (.error e, s) := rfl

@[simp] lemma get_apply (s : σ) : (get : Run σ σ) s = (.ok s, s) := rfl

@[simp] lemma modify_apply (f : σ → σ) (s : σ) :
    (modify f : Run σ PUnit) s = (.ok ⟨⟩, f s) := rfl

@[simp] lemma liftExcept_apply (x : Except Error α) (s : σ) :
    (liftExcept x : Run σ α) s = (x, s) := by
  cases x <;> rfl

lemma bind_apply (x : Run σ α) (f : α → Run σ β) (s : σ) :
    (x >>= f) s =
      match x s with
      | (.ok a, t) => f a t
      | (.error e, t) => (.error e, t) := by
  rcases h : x s with ⟨r | r, t⟩
  · simp only [bind, ExceptT.bind, ExceptT.mk, StateT.bind, h]
    rfl
  · simp only [bind, ExceptT.bind, ExceptT.mk, StateT.bind, h]
    rfl

lemma bind_ok {x : Run σ α} {s t : σ} {a : α} (h : x s = (.ok a, t)) (f : α → Run σ β) :
    (x >>= f) s = f a t := by
  rw [bind_apply, h]

lemma bind_error {x : Run σ α} {s t : σ} {e : Error} (h : x s = (.error e, t))
    (f : α → Run σ β) : (x >>= f) s = (.error e, t) := by
  rw [bind_apply, h]

lemma bind_of_fst_ok {x : Run σ α} {s : σ} {a : α} (h : (x s).1 = .ok a) (f : α → Run σ β) :
    (x >>= f) s = f a (x s).2 :=
  bind_ok (Prod.ext h rfl) f

lemma bind_of_fst_error {x : Run σ α} {s : σ} {e : Error} (h : (x s).1 = .error e)
    (f : α → Run σ β) : (x >>= f) s = (.error e, (x s).2) :=
  bind_error (Prod.ext h rfl) f

lemma tryCatch_apply (x : Run σ α) (f : Error → Run σ α) (s : σ) :
    (tryCatch x f) s =
      match x s with
      | (.ok a, t) => (.ok a, t)
      | (.error e, t) => f e t := by
  rcases h : x s with ⟨r | r, t⟩
  · simp only [tryCatch, tryCatchThe, MonadExceptOf.tryCatch, ExceptT.tryCatch, ExceptT.mk, bind,
      StateT.bind, h]
  · simp only [tryCatch, tryCatchThe, MonadExceptOf.tryCatch, ExceptT.tryCatch, ExceptT.mk, bind,
      StateT.bind, h]
    rfl

/-- A run of two steps that succeeds went through a state between them. -/
lemma bind_eq_ok {x : Run σ α} {f : α → Run σ β} {s u : σ} {b : β}
    (h : (x >>= f) s = (.ok b, u)) : ∃ a t, x s = (.ok a, t) ∧ f a t = (.ok b, u) := by
  rw [bind_apply] at h
  rcases hx : x s with ⟨e | a, t⟩
  · rw [hx] at h
    exact absurd (Prod.mk.inj h).1 (by simp)
  · rw [hx] at h
    exact ⟨a, t, rfl, h⟩

end Run
end DocTags
