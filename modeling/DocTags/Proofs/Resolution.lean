import DocTags.Proofs.Asking

/-!
# Resolution

Resolving a type looks at the cache, then at the stack, and then resolves it from its registration
or its class, with one nested level less.  `resolveWithin_cases` is this case distinction, and
`Later` is what every resolution leaves alone: registrations, flag and stack, and names that were
known before.

`solution` says what the schema of a type is without cache and stack.  It is found level by level:
on each level, types ask for the solutions of the level before.  Solutions stay from level to level,
so a type has at most one.
-/

namespace DocTags
namespace Reader

open Names

/-! ## What a run leaves alone -/

/-- What a run may do to a reader: it learns names and caches schemas. -/
structure Later {w : World} (ids : OwnIds w) (r r' : Reader) : Prop where
  names : Names.Extends ids r.names r'.names
  declared : r'.declared = r.declared
  readsClasses : r'.readsClasses = r.readsClasses
  stack : r'.stack = r.stack

namespace Later

variable {w : World} {ids : OwnIds w} {r r₁ r₂ : Reader}

lemma refl (r : Reader) : Later ids r r :=
  ⟨.refl _, rfl, rfl, rfl⟩

lemma trans (h : Later ids r r₁) (h₁ : Later ids r₁ r₂) : Later ids r r₂ :=
  ⟨h.names.trans h₁.names, h₁.declared.trans h.declared,
    h₁.readsClasses.trans h.readsClasses, h₁.stack.trans h.stack⟩

end Later

variable {w : World} {ids : OwnIds w} {imports : Keyed TypeId} {p : Prop} {L : TypeId → Prop}

lemma later_bind {α β : Type} {x : Run Reader α} {f : α → Run Reader β}
    (hf : ∀ a r, Later ids r (f a r).2) (r : Reader) : Later ids (x r).2 ((x >>= f) r).2 := by
  rcases hres : x r with ⟨e | a, r₁⟩
  · rw [Run.bind_error hres]
    exact .refl r₁
  · rw [Run.bind_ok hres]
    exact hf a r₁

lemma flag_pos {α : Type} (x y : Run Reader α) {r : Reader} (h : r.readsClasses = true) :
    (get >>= fun r => if r.readsClasses then x else y : Run Reader α) r = x r := by
  rw [Run.bind_ok (Run.get_apply r), if_pos h]

lemma flag_neg {α : Type} (x y : Run Reader α) {r : Reader} (h : r.readsClasses ≠ true) :
    (get >>= fun r => if r.readsClasses then x else y : Run Reader α) r = y r := by
  rw [Run.bind_ok (Run.get_apply r), if_neg h]

/-- What each step of a run that asks may do to a reader, the whole run may do. -/
lemma Asking.relates {α : Type} {F : Oracle → Run Reader α} (hF : Asking ids imports p L F)
    {so : Oracle} {R : Reader → Reader → Prop} (hrefl : ∀ r, R r r)
    (htrans : ∀ {r r₁ r₂}, R r r₁ → R r₁ r₂ → R r r₂)
    (hnames : ∀ r n, Names.Extends ids r.names n → R r { r with names := n })
    (hso : ∀ asAncestor type r, R r (so asAncestor type r).2) (r : Reader) : R r (F so r).2 := by
  have hbind : ∀ {β γ : Type} {x : Run Reader β} {f : β → Run Reader γ}, (∀ r, R r (x r).2) →
      (∀ b r, R r (f b r).2) → ∀ r, R r ((x >>= f) r).2 := by
    intro β γ x f hx hf r
    cases hres : (x r).1 with
    | error e =>
      rw [Run.bind_of_fst_error hres]
      exact hx r
    | ok b =>
      rw [Run.bind_of_fst_ok hres]
      exact htrans (hx r) (hf b _)
  induction hF generalizing r with
  | pure a => exact hrefl r
  | throw e => exact hrefl r
  | names h => exact hnames r _ (h.later r.names)
  | ask asAncestor h => exact hso asAncestor _ r
  | resolve hs name hf hall ihf ihall =>
    exact hbind (fun r => hnames r _ ((uniform_resolve hs name).later r.names)) ihall r
  | flag hx hy ihx ihy =>
    dsimp only
    by_cases hflag : r.readsClasses = true
    · rw [flag_pos _ _ hflag]
      exact ihx r
    · rw [flag_neg _ _ hflag]
      exact ihy r
  | bind hx hf ihx ihf => exact hbind ihx ihf r

lemma Asking.later {α : Type} {F : Oracle → Run Reader α} (hF : Asking ids imports p L F)
    {so : Oracle} (hso : ∀ asAncestor type r, Later ids r (so asAncestor type r).2) (r : Reader) :
    Later ids r (F so r).2 :=
  hF.relates .refl .trans (fun _ _ hn => ⟨hn, rfl, rfl, rfl⟩) hso r

/-! ## One type -/

variable (ids) in
/-- Resolving one type asks for types, if the documentation is read that the chosen ids fit. -/
lemma asking_resolveByDocs {declared : Keyed Schema} (h : Bounds w imports declared L)
    (type : TypeId) : Asking ids imports p L (resolveByAmong w ids.docs declared type) :=
  asking_resolveByAmong (fun _ _ h => h) h type

/-- Whatever the imports are, resolving one type asks for types. -/
lemma asks_resolveByDocs (ids : OwnIds w) (declared : Keyed Schema) (type : TypeId) :
    Asking ids [] True (fun _ => True) (resolveByAmong w ids.docs declared type) :=
  asking_resolveByDocs ids (bounds_true declared) type

/-- The answer to a question about a type that was resolved: what is no annotation type has a
schema as an ancestor only. -/
def expect (asAncestor : Bool) (type : TypeId) : Schema × Bool → Except Error Schema
  | (s, true) => .ok s
  | (s, false) => if asAncestor then .ok s else .error (.notMarked type)

/-- The reader after a type was resolved: an annotation type is in the cache, and no longer on the
stack. -/
def closed (type : TypeId) : Except Error (Schema × Bool) → Reader → Reader
  | .ok (s, true), r =>
    { r with resolved := r.resolved.put type s, stack := r.stack.dropLast }
  | _, r => { r with stack := r.stack.dropLast }

/-- The reader while a type is resolved. -/
def opened (type : TypeId) (r : Reader) : Reader :=
  { r with stack := r.stack ++ [type] }

/-- Resolves the schema of a type through at most the given number of nested types, as long as no
documentation is read but that of the classes in `docs`. -/
def resolveAmong (w : World) (docs : TypeId → Bool) : Nat → Oracle
  | n, asAncestor, type => do
    let r ← get
    match r.resolved.get? type with
    | some s => return s
    | none =>
      if r.stack.contains type then
        throw (.cycle (r.stack.dropWhile (· != type) ++ [type]))
      match n with
      | 0 => throw .tooDeep
      | n + 1 =>
        opening type do
          let found ← resolveByAmong w docs r.declared type (resolveAmong w docs n)
          settle asAncestor type found

/-- If all classes may be read, nothing changes. -/
lemma resolveAmong_all (w : World) (n : Nat) :
    resolveAmong w (fun _ => true) n = resolveWithin w n := by
  induction n with
  | zero =>
    funext asAncestor type
    unfold resolveAmong resolveWithin
    rfl
  | succ n ih =>
    funext asAncestor type
    rw [resolveAmong, resolveWithin]
    simp only [ih, resolveByAmong_all]
    rfl

section Cases

variable {docs : TypeId → Bool} {n : Nat} {asAncestor : Bool} {type : TypeId} {r : Reader}

lemma resolveAmong_cached {s : Schema} (h : r.resolved.get? type = some s) :
    resolveAmong w docs n asAncestor type r = (.ok s, r) := by
  unfold resolveAmong
  rw [Run.bind_ok (Run.get_apply r), h]
  rfl

lemma resolveAmong_cycle (h : r.resolved.get? type = none) (hs : type ∈ r.stack) :
    resolveAmong w docs n asAncestor type r =
      (.error (.cycle (r.stack.dropWhile (· != type) ++ [type])), r) := by
  unfold resolveAmong
  rw [Run.bind_ok (Run.get_apply r), h]
  simp [hs]

lemma resolveAmong_zero (h : r.resolved.get? type = none) (hs : type ∉ r.stack) :
    resolveAmong w docs 0 asAncestor type r = (.error .tooDeep, r) := by
  unfold resolveAmong
  rw [Run.bind_ok (Run.get_apply r), h]
  simp [hs]

/-- A type is put on the stack while it is resolved, and is taken off again whether or not it has a
schema. -/
lemma opening_settle (x : Run Reader (Schema × Bool)) :
    (opening type do
      let found ← x
      settle asAncestor type found) r =
      let run := x (opened type r)
      (run.1.bind (expect asAncestor type), closed type run.1 run.2) := by
  unfold opening
  rcases hrun : x (opened type r) with ⟨e | ⟨s, isType⟩, r'⟩
  · rw [opened] at hrun
    simp only [Run.bind_error hrun]
    rfl
  · rw [opened] at hrun
    simp only [Run.bind_ok hrun]
    cases isType with
    | true => rfl
    | false => cases asAncestor <;> rfl

lemma resolveAmong_fresh (h : r.resolved.get? type = none) (hs : type ∉ r.stack) :
    resolveAmong w docs (n + 1) asAncestor type r =
      let run := resolveByAmong w docs r.declared type (resolveAmong w docs n) (opened type r)
      (run.1.bind (expect asAncestor type), closed type run.1 run.2) := by
  rw [resolveAmong, Run.bind_ok (Run.get_apply r), h]
  simp only [List.contains_eq_mem, hs, decide_false, Bool.false_eq_true, if_false]
  exact opening_settle _

variable (w docs n asAncestor type r) in
/-- A type is cached, or refused at once, or resolved with one nested level less. -/
lemma resolveAmong_cases :
    (∃ s, r.resolved.get? type = some s ∧ resolveAmong w docs n asAncestor type r = (.ok s, r)) ∨
    (∃ e, resolveAmong w docs n asAncestor type r = (.error e, r)) ∨
    ∃ m, n = m + 1 ∧ r.resolved.get? type = none ∧ type ∉ r.stack ∧
      resolveAmong w docs n asAncestor type r =
      let run := resolveByAmong w docs r.declared type (resolveAmong w docs m) (opened type r)
      (run.1.bind (expect asAncestor type), closed type run.1 run.2) := by
  cases hc : r.resolved.get? type with
  | some s => exact .inl ⟨s, rfl, resolveAmong_cached hc⟩
  | none =>
    by_cases hs : type ∈ r.stack
    · exact .inr (.inl ⟨_, resolveAmong_cycle hc hs⟩)
    · cases n with
      | zero => exact .inr (.inl ⟨_, resolveAmong_zero hc hs⟩)
      | succ n => exact .inr (.inr ⟨n, rfl, rfl, hs, resolveAmong_fresh hc hs⟩)

/-! The same without restriction. -/

lemma resolveWithin_cached {s : Schema} (h : r.resolved.get? type = some s) :
    resolveWithin w n asAncestor type r = (.ok s, r) := by
  rw [← resolveAmong_all]
  exact resolveAmong_cached h

lemma resolveWithin_cycle (h : r.resolved.get? type = none) (hs : type ∈ r.stack) :
    resolveWithin w n asAncestor type r =
      (.error (.cycle (r.stack.dropWhile (· != type) ++ [type])), r) := by
  rw [← resolveAmong_all]
  exact resolveAmong_cycle h hs

lemma resolveWithin_zero (h : r.resolved.get? type = none) (hs : type ∉ r.stack) :
    resolveWithin w 0 asAncestor type r = (.error .tooDeep, r) := by
  rw [← resolveAmong_all]
  exact resolveAmong_zero h hs

lemma resolveWithin_fresh (h : r.resolved.get? type = none) (hs : type ∉ r.stack) :
    resolveWithin w (n + 1) asAncestor type r =
      let run := resolveBy w r.declared type (resolveWithin w n) (opened type r)
      (run.1.bind (expect asAncestor type), closed type run.1 run.2) := by
  rw [← resolveByAmong_all, ← resolveAmong_all, ← resolveAmong_all]
  exact resolveAmong_fresh h hs

variable (w n asAncestor type r) in
lemma resolveWithin_cases :
    (∃ s, r.resolved.get? type = some s ∧ resolveWithin w n asAncestor type r = (.ok s, r)) ∨
    (∃ e, resolveWithin w n asAncestor type r = (.error e, r)) ∨
    ∃ m, n = m + 1 ∧ r.resolved.get? type = none ∧ type ∉ r.stack ∧
      resolveWithin w n asAncestor type r =
      let run := resolveBy w r.declared type (resolveWithin w m) (opened type r)
      (run.1.bind (expect asAncestor type), closed type run.1 run.2) := by
  simp only [← resolveByAmong_all, ← resolveAmong_all]
  exact resolveAmong_cases w _ n asAncestor type r

end Cases

lemma closed_names (type : TypeId) (found : Except Error (Schema × Bool)) (r : Reader) :
    (closed type found r).names = r.names := by
  unfold closed
  split <;> rfl

lemma later_closed {type : TypeId} {r r' : Reader} (h : Later ids (opened type r) r')
    (found : Except Error (Schema × Bool)) : Later ids r (closed type found r') := by
  have hstack : r'.stack.dropLast = r.stack := by rw [h.stack, opened, List.dropLast_concat]
  unfold closed
  split
  · exact ⟨h.names, h.declared, h.readsClasses, hstack⟩
  · exact ⟨h.names, h.declared, h.readsClasses, hstack⟩

lemma later_resolveAmong (docs : TypeId → Bool) (n : Nat) (asAncestor : Bool) (type : TypeId)
    (r : Reader) : Later ids r (resolveAmong w docs n asAncestor type r).2 := by
  induction n using Nat.strongRecOn generalizing asAncestor type r with
  | _ n ih =>
    rcases resolveAmong_cases w docs n asAncestor type r with
      ⟨s, -, hrun⟩ | ⟨e, hrun⟩ | ⟨m, rfl, -, -, hrun⟩
    · rw [hrun]
      exact .refl r
    · rw [hrun]
      exact .refl r
    · rw [hrun]
      have hasks : Asking ids [] False (fun _ => True) (resolveByAmong w docs r.declared type) :=
        asking_resolveByAmong False.elim (bounds_true r.declared) type
      exact later_closed (hasks.later (ih m (Nat.lt_succ_self m)) _) _

lemma later_resolveWithin (n : Nat) (asAncestor : Bool) (type : TypeId) (r : Reader) :
    Later ids r (resolveWithin w n asAncestor type r).2 := by
  rw [← resolveAmong_all]
  exact later_resolveAmong _ n asAncestor type r

/-! ## Solutions

The schema of a type does not depend on what is cached and on what is being resolved.  `solution` is
its definition without the two: the solutions of one level are found by asking for those of the
level before. -/

/-- The oracle that answers from a table and leaves the reader as it is. -/
def asked (answers : TypeId → Option (Schema × Bool)) : Oracle := fun asAncestor type =>
  match answers type with
  | some found => liftExcept (expect asAncestor type found)
  | none => throw .tooDeep

/-- What resolution takes from a reader apart from registrations. -/
def bare (r : Reader) : Reader :=
  { names := r.names, readsClasses := r.readsClasses }

/-- The schema of a type and whether it is an annotation type, from the solutions of the level
before.  The types in `avoid` have no solution, and neither has a type that leads to an id which is
not among the chosen ones or to a class that may not be read. -/
def solution {w : World} (ids : OwnIds w) (q : Reader) (avoid : List TypeId) :
    Nat → TypeId → Option (Schema × Bool)
  | 0, _ => none
  | k + 1, type =>
    let run := resolveByAmong w ids.docs q.declared type (asked (solution ids q avoid k)) q.bare
    match run.1 with
    | .ok found => if run.2.names.meetsOnly ids && !avoid.contains type then some found else none
    | .error _ => none

lemma solution_succ_eq_some {q : Reader} {avoid : List TypeId} {k : Nat} {type : TypeId}
    {found : Schema × Bool} :
    solution ids q avoid (k + 1) type = some found ↔
      let run := resolveByAmong w ids.docs q.declared type (asked (solution ids q avoid k)) q.bare
      run.1 = .ok found ∧ run.2.names.meetsOnly ids = true ∧ type ∉ avoid := by
  rw [solution]
  rcases resolveByAmong w ids.docs q.declared type (asked (solution ids q avoid k)) q.bare with
    ⟨e | found', r⟩
  · simp
  · simp
    tauto

lemma asked_apply (answers : TypeId → Option (Schema × Bool)) (asAncestor : Bool) (type : TypeId)
    (r : Reader) :
    asked answers asAncestor type r =
      ((answers type).elim (.error .tooDeep) (expect asAncestor type), r) := by
  unfold asked
  cases answers type with
  | some found => exact Run.liftExcept_apply _ r
  | none => rfl

lemma later_asked (answers : TypeId → Option (Schema × Bool)) (asAncestor : Bool) (type : TypeId)
    (r : Reader) : Later ids r (asked answers asAncestor type r).2 := by
  rw [asked_apply]
  exact .refl r

/-- A successful run of two steps ends the same if each of them does. -/
lemma bind_eq_of_ok {α β : Type} {x x' : Run Reader α} {f f' : α → Run Reader β} {b : β}
    {r : Reader}
    (hx : ∀ {r a}, (x r).1 = .ok a → x' r = x r)
    (hf : ∀ a {r b}, (f a r).1 = .ok b → f' a r = f a r) (hrun : ((x >>= f) r).1 = .ok b) :
    (x' >>= f') r = (x >>= f) r := by
  rcases hres : x r with ⟨e | a, r₁⟩
  · rw [Run.bind_error hres] at hrun
    cases hrun
  · have hres' := hx (by rw [hres])
    rw [Run.bind_ok hres] at hrun
    rw [hres] at hres'
    rw [Run.bind_ok hres, Run.bind_ok hres', hf a hrun]

/-- A run that succeeds does so with more answers, and ends the same. -/
lemma Asking.asked_mono {α : Type} {F : Oracle → Run Reader α} (hF : Asking ids imports p L F)
    {answers answers' : TypeId → Option (Schema × Bool)}
    (h : ∀ type found, answers type = some found → answers' type = some found) {r : Reader} {a : α}
    (hrun : (F (asked answers) r).1 = .ok a) : F (asked answers') r = F (asked answers) r := by
  induction hF generalizing r with
  | pure a => rfl
  | throw e => rfl
  | names h => rfl
  | @ask _ asAncestor type _ =>
    dsimp only at hrun ⊢
    rw [asked_apply] at hrun
    rw [asked_apply, asked_apply]
    cases hfound : answers type with
    | none =>
      rw [hfound] at hrun
      cases hrun
    | some found => rw [h type found hfound]
  | resolve hs name hf hall ihf ihall => exact bind_eq_of_ok (fun _ => rfl) ihall hrun
  | flag hx hy ihx ihy =>
    dsimp only at hrun ⊢
    by_cases hflag : r.readsClasses = true
    · rw [flag_pos _ _ hflag] at hrun
      rw [flag_pos _ _ hflag, flag_pos _ _ hflag, ihx hrun]
    · rw [flag_neg _ _ hflag] at hrun
      rw [flag_neg _ _ hflag, flag_neg _ _ hflag, ihy hrun]
  | bind hx hf ihx ihf => exact bind_eq_of_ok ihx ihf hrun

section Levels

variable {q : Reader} {avoid : List TypeId}

lemma solution_succ {k : Nat} {type : TypeId} {found : Schema × Bool}
    (h : solution ids q avoid k type = some found) :
    solution ids q avoid (k + 1) type = some found := by
  induction k generalizing type found with
  | zero => cases h
  | succ k ih =>
    rw [solution_succ_eq_some] at h ⊢
    rwa [(asks_resolveByDocs ids q.declared type).asked_mono (fun _ _ => ih) h.1]

lemma solution_mono {k k' : Nat} (hk : k ≤ k') {type : TypeId} {found : Schema × Bool}
    (h : solution ids q avoid k type = some found) : solution ids q avoid k' type = some found := by
  induction hk with
  | refl => exact h
  | step hk ih => exact solution_succ ih

lemma solution_eq_none_of_succ {k : Nat} {type : TypeId}
    (h : solution ids q avoid (k + 1) type = none) : solution ids q avoid k type = none := by
  cases hk : solution ids q avoid k type with
  | none => rfl
  | some found =>
    rw [solution_succ hk] at h
    cases h

/-- A type has at most one solution. -/
lemma solution_unique {k k' : Nat} {type : TypeId} {found found' : Schema × Bool}
    (h : solution ids q avoid k type = some found)
    (h' : solution ids q avoid k' type = some found') : found = found' := by
  have hmax := solution_mono (Nat.le_max_left k k') h
  rw [solution_mono (Nat.le_max_right k k') h'] at hmax
  exact (Option.some.inj hmax).symm

end Levels

end Reader
end DocTags
