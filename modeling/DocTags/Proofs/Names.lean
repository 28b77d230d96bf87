import DocTags.Proofs.Checking
import DocTags.Reader.Resolve

/-!
# Names that denote themselves

What a name means depends on what was met before: a known type id is taken at its word, and only
other names are looked for in the scope and among the modules.  This makes no difference for a type
id that denotes its own class wherever it is looked for.  `OwnIds` is a choice of such ids.  A run
on names is uniform if it gives the same result from any two states whose known ids are among them,
as long as it meets no other ids.  All runs that resolution is made of are uniform.
-/

namespace DocTags

namespace Names

variable (w : World)

/-! ## Ids that denote their own class -/

/-- `true` when a type id denotes its own class, as an absolute path and in the scope of every
module. -/
def denotesItself (type : TypeId) : Bool :=
  typeAt? w [] type == some type && w.modules.all fun m => typeAt? w m.2 type == some type

/-- `true` when all type ids met so far denote themselves. -/
def unambiguous (n : Names) : Bool :=
  n.known.all fun entry => denotesItself w entry.1

/-- The scopes that documentation of classes and registered parents are read in: that of a module,
and the empty one. -/
def IsScope (scope : Scope) : Prop :=
  scope = [] ∨ ∃ home, (home, scope) ∈ w.modules

/-- A choice of type ids that denote their own classes: as absolute paths, and in the scopes of the
classes in `docs`, whose documentation is read. -/
structure OwnIds where
  has : TypeId → Bool
  docs : TypeId → Bool
  path : ∀ type, has type = true → typeAt? w [] type = some type
  home : ∀ type other, docs type = true → has other = true →
    typeAt? w (w.classScope type) other = some other

variable {w}

lemma isScope_scopeOf (home : String) : IsScope w (w.scopeOf home) := by
  unfold World.scopeOf Keyed.get?
  cases h : w.modules.lookup home with
  | none => exact .inl rfl
  | some scope => exact .inr ⟨home, Keyed.mem_of_get? h⟩

lemma typeAt?_of_denotesItself {scope : Scope} (hs : IsScope w scope) {type : TypeId}
    (h : denotesItself w type = true) : typeAt? w scope type = some type := by
  rw [denotesItself, Bool.and_eq_true, List.all_eq_true] at h
  rcases hs with rfl | ⟨home, hs⟩
  · exact eq_of_beq h.1
  · exact eq_of_beq (h.2 _ hs)

namespace OwnIds

variable (w) in
/-- The type ids that denote their own classes in all scopes. -/
def everywhere : OwnIds w where
  has := denotesItself w
  docs _ := true
  path _ h := typeAt?_of_denotesItself (.inl rfl) h
  home _ _ _ h := typeAt?_of_denotesItself (isScope_scopeOf _) h

/-- In the scope each of the ids denotes its own class. -/
def Fits (ids : OwnIds w) (scope : Scope) : Prop :=
  ∀ type, ids.has type = true → typeAt? w scope type = some type

variable {ids : OwnIds w}

lemma fits_nil : ids.Fits [] :=
  ids.path

lemma fits_classScope {type : TypeId} (h : ids.docs type = true) : ids.Fits (w.classScope type) :=
  fun other => ids.home type other h

end OwnIds

/-- `true` when all type ids met so far are among the chosen ones. -/
def meetsOnly (ids : OwnIds w) (n : Names) : Bool :=
  n.known.all fun entry => ids.has entry.1

/-- All type ids met so far are among the chosen ones, and stand for their own classes. -/
structure Clear (ids : OwnIds w) (n : Names) : Prop where
  known_self : ∀ name found, n.known.get? name = some found → found = name
  meetsOnly : n.meetsOnly ids = true

variable {ids : OwnIds w}

/-- Nothing stands in the empty scope, so names in it are absolute paths. -/
lemma typeAt?_nil (name : String) : typeAt? w [] name = (w.import? name).bind typeOf? := by
  have hnone : w.lookup? [] name = none := by
    unfold World.lookup?
    cases dottedParts name <;> rfl
  rw [typeAt?, find?, hnone]

lemma meetsOnly_iff {n : Names} :
    n.meetsOnly ids = true ↔ ∀ name, n.known.has name = true → ids.has name = true := by
  simp only [meetsOnly, Keyed.has, List.all_eq_true, List.any_eq_true, beq_iff_eq]
  refine ⟨?_, fun h entry hentry => h entry.1 ⟨entry, hentry, rfl⟩⟩
  rintro h name ⟨entry, hentry, rfl⟩
  exact h entry hentry

/-! ## Later states -/

variable (w) in
/-- The classes that a type id can come to stand for: its own, and the one at its path. -/
def StandsFor (type found : TypeId) : Prop :=
  found = type ∨ typeAt? w [] type = some found

variable (ids) in
/-- What a run may do to names: it keeps the imports and what was known, and as long as it meets
none but the chosen ids, a new id stands for its own class too. -/
structure Extends (n n' : Names) : Prop where
  imports : n'.imports = n.imports
  known : ∀ name, n.known.has name = true → n'.known.has name = true
  learnt : ∀ name found, n'.known.get? name = some found →
    n.known.get? name = some found ∨ StandsFor w name found
  clear : n.Clear ids → n'.meetsOnly ids = true → n'.Clear ids

namespace Extends

variable {n n₁ n₂ : Names}

lemma refl (n : Names) : Extends ids n n :=
  ⟨rfl, fun _ h => h, fun _ _ h => .inl h, fun h _ => h⟩

/-- Ambiguous ids stay known, so there were none before if there are none in the end. -/
lemma meetsOnly (h : Extends ids n n₁) (hn : n₁.meetsOnly ids = true) : n.meetsOnly ids = true :=
  meetsOnly_iff.2 fun name hname => meetsOnly_iff.1 hn name (h.known name hname)

lemma trans (h : Extends ids n n₁) (h₁ : Extends ids n₁ n₂) : Extends ids n n₂ where
  imports := h₁.imports.trans h.imports
  known name hname := h₁.known name (h.known name hname)
  learnt name found hget := (h₁.learnt name found hget).elim (h.learnt name found) .inr
  clear hn hn₂ := h₁.clear (h.clear hn (h₁.meetsOnly hn₂)) hn₂

/-- Putting in a class under an id that can stand for it.  If the id is one of the chosen, it is the
class's own. -/
lemma put (n : Names) {type found : TypeId} (h : StandsFor w type found) :
    Extends ids n { n with known := n.known.put type found } where
  imports := rfl
  known name hname := by
    rw [Keyed.has_put, hname, Bool.or_true]
  learnt name found' hget := by
    by_cases hname : name = type
    · subst hname
      rw [Keyed.get?_put_self] at hget
      obtain rfl := Option.some.inj hget
      exact .inr h
    · rw [Keyed.get?_put_of_ne _ hname] at hget
      exact .inl hget
  clear hn hunamb := by
    refine ⟨fun name found' hget => ?_, hunamb⟩
    by_cases hname : name = type
    · subst hname
      rw [Keyed.get?_put_self] at hget
      have hself : ids.has name = true := by
        refine meetsOnly_iff.1 hunamb name ?_
        rw [Keyed.has_put, beq_self_eq_true, Bool.true_or]
      rw [← Option.some.inj hget]
      rcases h with rfl | hpath
      · rfl
      · rw [ids.path name hself] at hpath
        exact (Option.some.inj hpath).symm
    · rw [Keyed.get?_put_of_ne _ hname] at hget
      exact hn.known_self name found' hget

end Extends

lemma meetsOnly_put {n : Names} {type found : TypeId} (hn : n.meetsOnly ids = true)
    (htype : ids.has type = true) :
    ({ n with known := n.known.put type found } : Names).meetsOnly ids = true := by
  refine meetsOnly_iff.2 fun name hname => ?_
  rw [Keyed.has_put, Bool.or_eq_true, beq_iff_eq] at hname
  rcases hname with rfl | hname
  · exact htype
  · exact meetsOnly_iff.1 hn name hname

lemma has_of_put {n : Names} {type found : TypeId}
    (h : ({ n with known := n.known.put type found } : Names).meetsOnly ids = true) :
    ids.has type = true := by
  refine meetsOnly_iff.1 h type ?_
  rw [Keyed.has_put, beq_self_eq_true, Bool.true_or]

/-! ## Uniform runs -/

section Uniform

variable {α β : Type} {p : Prop}

variable (ids) in
/-- A run that meets none but the chosen ids from one clear state gives the same result from any
other that has the same imports, and meets no other ids there.  This is said under the proviso `p`
that the ids denote their own classes in the scopes that names are looked for in. -/
structure Uniform (p : Prop) (act : Run Names α) : Prop where
  later : ∀ n, Extends ids n (act n).2
  agree : p → ∀ m n : Names, m.Clear ids → n.Clear ids → m.imports = n.imports →
    (act n).2.meetsOnly ids = true →
      (act m).1 = (act n).1 ∧ (act m).2.meetsOnly ids = true

namespace Uniform

lemma pure (a : α) : Uniform ids p (pure a : Run Names α) :=
  ⟨fun n => .refl n, fun _ _ _ hm _ _ _ => ⟨rfl, hm.meetsOnly⟩⟩

lemma throw (e : Error) : Uniform ids p (throw e : Run Names α) :=
  ⟨fun n => .refl n, fun _ _ _ hm _ _ _ => ⟨rfl, hm.meetsOnly⟩⟩

lemma liftExcept (x : Except Error α) : Uniform ids p (liftExcept x : Run Names α) := by
  cases x with
  | error e => exact .throw e
  | ok a => exact .pure a

/-- The two runs side by side, when the second one meets none but the chosen ids. -/
lemma step {x : Run Names α} (hx : Uniform ids p x) (hp : p) {m n : Names}
    (hm : m.Clear ids) (hn : n.Clear ids) (himports : m.imports = n.imports)
    (hend : (x n).2.meetsOnly ids = true) :
    ∃ res m₁ n₁, x m = (res, m₁) ∧ x n = (res, n₁) ∧ m₁.Clear ids ∧ n₁.Clear ids ∧
      m₁.imports = n₁.imports := by
  obtain ⟨hsame, hend'⟩ := hx.agree hp m n hm hn himports hend
  refine ⟨(x n).1, (x m).2, (x n).2, Prod.ext hsame rfl, rfl, (hx.later m).clear hm hend',
    (hx.later n).clear hn hend, ?_⟩
  rw [(hx.later m).imports, (hx.later n).imports, himports]

lemma later_bind {x : Run Names α} {f : α → Run Names β} (hf : ∀ a, Uniform ids p (f a))
    (n : Names) : Extends ids (x n).2 ((x >>= f) n).2 := by
  rcases hres : x n with ⟨e | a, n₁⟩
  · rw [Run.bind_error hres]
    exact .refl n₁
  · rw [Run.bind_ok hres]
    exact (hf a).later n₁

lemma bind {x : Run Names α} {f : α → Run Names β} (hx : Uniform ids p x)
    (hf : ∀ a, Uniform ids p (f a)) : Uniform ids p (x >>= f) where
  later n := (hx.later n).trans (later_bind hf n)
  agree hp m n hm hn himports hend := by
    obtain ⟨res, m₁, n₁, hxm, hxn, hm₁, hn₁, himports₁⟩ :=
      hx.step hp hm hn himports ((later_bind hf n).meetsOnly hend)
    cases res with
    | error e =>
      rw [Run.bind_error hxm, Run.bind_error hxn]
      exact ⟨rfl, hm₁.meetsOnly⟩
    | ok a =>
      rw [Run.bind_ok hxn] at hend
      rw [Run.bind_ok hxm, Run.bind_ok hxn]
      exact (hf a).agree hp m₁ n₁ hm₁ hn₁ himports₁ hend

lemma later_tryCatch {x : Run Names α} {f : Error → Run Names α} (hf : ∀ e, Uniform ids p (f e))
    (n : Names) : Extends ids (x n).2 ((tryCatch x f : Run Names α) n).2 := by
  rw [Run.tryCatch_apply]
  rcases x n with ⟨e | a, n₁⟩
  · exact (hf e).later n₁
  · exact .refl n₁

lemma tryCatch {x : Run Names α} {f : Error → Run Names α} (hx : Uniform ids p x)
    (hf : ∀ e, Uniform ids p (f e)) : Uniform ids p (tryCatch x f) where
  later n := (hx.later n).trans (later_tryCatch hf n)
  agree hp m n hm hn himports hend := by
    obtain ⟨res, m₁, n₁, hxm, hxn, hm₁, hn₁, himports₁⟩ :=
      hx.step hp hm hn himports ((later_tryCatch hf n).meetsOnly hend)
    rw [Run.tryCatch_apply, hxn] at hend
    rw [Run.tryCatch_apply, Run.tryCatch_apply, hxm, hxn]
    cases res with
    | error e => exact (hf e).agree hp m₁ n₁ hm₁ hn₁ himports₁ hend
    | ok a => exact ⟨rfl, hm₁.meetsOnly⟩

end Uniform

/-! ## The runs on names -/

lemma uniform_remember (type : TypeId) :
    Uniform ids p (modify fun n => n.remember type : Run Names Unit) where
  later n := .put n (.inl rfl)
  agree _ _ _ hm _ _ hend := ⟨rfl, meetsOnly_put hm.meetsOnly (has_of_put hend)⟩

/-- What resolving a name does, by the place where it is found. -/
lemma resolve_apply (scope : Scope) (name : String) (n : Names) :
    resolve w scope name n =
      match n.imports.get? name with
      | some type => (.ok type, n)
      | none =>
        if n.known.has name then (.ok name, n)
        else match typeAt? w scope name with
          | some type => (.ok type, n.remember type)
          | none => (.error (.unresolved name), n) := by
  unfold resolve
  rw [Run.bind_ok (Run.get_apply n)]
  cases n.imports.get? name with
  | some type => rfl
  | none =>
    dsimp only
    split
    · rfl
    · cases typeAt? w scope name <;> rfl

/-- The types that a name can be resolved to. -/
def Denotes (w : World) (imports : Keyed TypeId) (scope : Scope) (name : String) (type : TypeId) :
    Prop :=
  imports.get? name = some type ∨ type = name ∨ typeAt? w scope name = some type

lemma denotes_of_resolve {scope : Scope} {name : String} {n : Names} {type : TypeId}
    (h : (resolve w scope name n).1 = .ok type) : Denotes w n.imports scope name type := by
  rw [resolve_apply] at h
  split at h
  · next himport => exact .inl (himport.trans (congrArg some (Except.ok.inj h)))
  · split at h
    · exact .inr (.inl (Except.ok.inj h).symm)
    · split at h
      · next htype => exact .inr (.inr (htype.trans (congrArg some (Except.ok.inj h))))
      · cases h

lemma load_eq (type : TypeId) (n : Names) :
    load w type n =
      match n.known.get? type with
      | some found => (.ok found, n)
      | none =>
        match typeAt? w [] type with
        | some found => (.ok found, { n with known := n.known.put type found })
        | none => (.error (.unresolved type), n) := by
  unfold load
  rw [Run.bind_ok (Run.get_apply n), typeAt?_nil]
  cases n.known.get? type with
  | some found => rfl
  | none => cases (w.import? type).bind typeOf? <;> rfl

/-- A name that is known denotes itself, so it does not matter whether it was met before. -/
lemma uniform_resolve {scope : Scope} (hs : p → ids.Fits scope) (name : String) :
    Uniform ids p (resolve w scope name) where
  later n := by
    rw [resolve_apply]
    split
    · exact .refl n
    · split
      · exact .refl n
      · split
        · exact .put n (.inl rfl)
        · exact .refl n
  agree hp m n hm hn himports hend := by
    rw [resolve_apply] at hend
    rw [resolve_apply, resolve_apply, himports]
    cases himport : n.imports.get? name with
    | some type => exact ⟨rfl, hm.meetsOnly⟩
    | none =>
      have hself : ∀ {k : Names}, k.Clear ids → k.known.has name = true →
          typeAt? w scope name = some name := fun hk hname =>
        hs hp name (meetsOnly_iff.1 hk.meetsOnly name hname)
      rw [himport] at hend
      dsimp only at hend ⊢
      by_cases hknown : n.known.has name = true
      · rw [if_pos hknown, hself hn hknown]
        split
        · exact ⟨rfl, hm.meetsOnly⟩
        · exact ⟨rfl, meetsOnly_put hm.meetsOnly
            (meetsOnly_iff.1 hn.meetsOnly name hknown)⟩
      · rw [if_neg hknown] at hend ⊢
        by_cases hknown' : m.known.has name = true
        · rw [if_pos hknown', hself hm hknown']
          exact ⟨rfl, hm.meetsOnly⟩
        · rw [if_neg hknown']
          cases htype : typeAt? w scope name with
          | none => exact ⟨rfl, hm.meetsOnly⟩
          | some type =>
            rw [htype] at hend
            exact ⟨rfl, meetsOnly_put hm.meetsOnly (has_of_put hend)⟩

lemma uniform_load (type : TypeId) : Uniform ids p (load w type) where
  later n := by
    rw [load_eq]
    split
    · exact .refl n
    · split
      · next found hfound => exact .put n (.inr hfound)
      · exact .refl n
  agree hp m n hm hn himports hend := by
    have hself : ∀ {k : Names} {found : TypeId}, k.Clear ids → k.known.get? type = some found →
        found = type ∧ ids.has type = true := by
      intro k found hk hget
      refine ⟨hk.known_self type found hget, meetsOnly_iff.1 hk.meetsOnly type ?_⟩
      rw [Keyed.has_eq_isSome_get?, hget, Option.isSome_some]
    rw [load_eq] at hend
    rw [load_eq, load_eq]
    cases hm' : m.known.get? type with
    | some found =>
      obtain ⟨rfl, hdenotes⟩ := hself hm hm'
      cases hn' : n.known.get? found with
      | some found' =>
        obtain ⟨rfl, -⟩ := hself hn hn'
        exact ⟨rfl, hm.meetsOnly⟩
      | none =>
        rw [ids.path _ hdenotes]
        exact ⟨rfl, hm.meetsOnly⟩
    | none =>
      cases hn' : n.known.get? type with
      | some found =>
        obtain ⟨rfl, hdenotes⟩ := hself hn hn'
        rw [ids.path _ hdenotes]
        exact ⟨rfl, meetsOnly_put hm.meetsOnly hdenotes⟩
      | none =>
        rw [hn'] at hend
        dsimp only at hend
        cases htype : typeAt? w [] type with
        | none => exact ⟨rfl, hm.meetsOnly⟩
        | some found =>
          rw [htype] at hend
          exact ⟨rfl, meetsOnly_put hm.meetsOnly (has_of_put hend)⟩

lemma uniform_owner? {scope : Scope} (hs : p → ids.Fits scope) (name : String) :
    Uniform ids p (owner? w scope name) := by
  refine .tryCatch ?_ fun e => ?_
  · exact (uniform_resolve hs name).bind fun type => (uniform_load type).bind fun _ => .pure _
  · split
    · exact .pure _
    · exact .throw _

lemma uniform_constant? {scope : Scope} (hs : p → ids.Fits scope) (name : String) :
    Uniform ids p (constant? w scope name) := by
  unfold constant?
  split
  · refine (uniform_owner? hs _).bind fun owner => ?_
    split
    · exact .pure _
    · exact .pure _
  · split
    · exact .pure _
    · exact .pure _
    · exact .pure _

end Uniform

end Names

/-! ## The runs of checks -/

namespace TypeExpr

open Names

variable {w : World} {ids : OwnIds w} {p : Prop}

lemma uniform_demand (name : String) (holds : Bool) (e : Expectation) :
    Uniform ids p (demand name holds e) := by
  unfold demand
  split
  · exact .pure _
  · exact .throw _

lemma uniform_checkAll {check : String → Value → Run Names Unit}
    (h : ∀ name v, Uniform ids p (check name v)) (name : String) (i : Nat) (vs : List Value) :
    Uniform ids p (checkAll check name i vs) := by
  induction vs generalizing i with
  | nil => exact .pure _
  | cons v vs ih => exact (h _ v).bind fun _ => ih (i + 1)

mutual

lemma uniform_check (name : String) (v : Value) (t : TypeExpr) :
    Uniform ids p (check w (some (load w)) name v t) := by
  match t with
  | .mixed => rw [check]; exact .pure _
  | .string | .number | .integer | .float | .boolean => exact uniform_demand _ _ _
  | .enum values =>
    rw [check]
    split
    · exact .pure _
    · exact (Uniform.liftExcept _).bind fun _ => .throw _
  | .ref type =>
    rw [check]
    exact (uniform_load type).bind fun found => uniform_demand _ _ _
  | .tuple items =>
    rw [check]
    split
    · exact .throw _
    · split
      · exact .pure _
      · split
        · exact .throw _
        · exact uniform_checkEach name 0 _ items
  | .list item =>
    rw [check]
    split
    · exact .throw _
    · exact uniform_checkAll (fun name v => uniform_check name v item) name 0 _
  | .foreign _ => rw [check]; exact .throw _

lemma uniform_checkEach (name : String) (i : Nat) (vs : List Value) (ts : List TypeExpr) :
    Uniform ids p (checkEach w (some (load w)) name i vs ts) := by
  match ts with
  | [] => rw [checkEach]; exact .pure _
  | t :: ts =>
    match vs with
    | [] => exact .pure _
    | v :: vs =>
      rw [checkEach]
      exact (uniform_check _ v t).bind fun _ => uniform_checkEach name (i + 1) vs ts

end

end TypeExpr

namespace Build

open Names

variable {w : World} {ids : OwnIds w} {p : Prop}

lemma uniform_checkAttributes (type : TypeId) (s : Schema) (pairs : List (Value × Value)) :
    Uniform ids p (checkAttributes w type s pairs) := by
  induction pairs with
  | nil => exact .pure _
  | cons pair pairs ih =>
    obtain ⟨name, v⟩ := pair
    rw [checkAttributes]
    refine (Uniform.liftExcept _).bind fun ⟨n, spec⟩ => ?_
    dsimp only
    have hrest : Uniform ids p
        (checkAttributes w type s pairs >>= fun rest => pure ((n, v) :: rest)) :=
      ih.bind fun _ => .pure _
    split
    · exact hrest
    · exact (TypeExpr.uniform_check n _ spec.type).bind fun _ => hrest

/-- The checks before an object is made are uniform. -/
lemma uniform_checked (type : TypeId) (s : Schema) (supplied : Value) (placement : Placement) :
    Uniform ids p (checked w type s supplied placement) := by
  unfold checked
  have hrest : Uniform ids p (do
      let attributes ← checkAttributes w type s (← liftExcept (normalize type s supplied))
      liftExcept (checkRequired s attributes)
      return attributes) :=
    (Uniform.liftExcept _).bind fun pairs => (uniform_checkAttributes type s pairs).bind
      fun attributes => (Uniform.liftExcept _).bind fun _ => .pure _
  split
  · exact (Uniform.throw _).bind fun _ => hrest
  · exact hrest

end Build
end DocTags
