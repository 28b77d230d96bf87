import DocTags.Proofs.Names

/-!
# What names mean after other calls

A name that is known as a type id is taken at its word before anything else is asked, so what was
looked up earlier can change what a name stands for.  This file says exactly when it does.

`Call.Learns` are the ids that a call makes known in a given state: the id of the class that a name
was found to mean, and every id that is loaded, whether or not it is the own id of the class behind
it.  The step lemma `known_call` says that a call makes known what it learns and nothing else, and
`known_after` says it of a sequence of calls.  The main result is `resolve_after_calls`: a name
keeps its meaning unless one of the calls has learnt it as an id and it means something else where
it stands.
-/

namespace DocTags
namespace Names

/-- A call that looks names up. -/
inductive Call where
  | resolve (scope : Scope) (name : String)
  | load (type : TypeId)
  | constant (scope : Scope) (name : String)

variable (w : World)

/-- What is known about names after a call, whether or not it succeeds. -/
def Call.after (n : Names) : Call → Names
  | .resolve scope name => (Names.resolve w scope name n).2
  | .load type => (Names.load w type n).2
  | .constant scope name => (constant? w scope name n).2

/-- What is known about names after some calls. -/
def after (n : Names) (calls : List Call) : Names :=
  calls.foldl (Call.after w) n

/-- The type ids that a call makes known, if they are not known yet. -/
inductive Call.Learns (n : Names) : Call → TypeId → Prop
  /-- A name that has to be looked for is found to mean a class. -/
  | found {scope : Scope} {name : String} {id : TypeId} (himport : n.imports.get? name = none)
      (hknown : n.known.has name = false) (htype : typeAt? w scope name = some id) :
      Learns n (.resolve scope name) id
  /-- There is a class at the place that the id says. -/
  | loaded {id : TypeId} (htype : (typeAt? w [] id).isSome = true) : Learns n (.load id) id
  /-- The owner of a constant is looked for. -/
  | owner {scope : Scope} {name : String} {owner constant : List Char} {id : TypeId}
      (hsplit : splitConstant? name.toList = some (owner, constant))
      (hfound : Learns n (.resolve scope (String.ofList owner)) id) :
      Learns n (.constant scope name) id
  /-- The owner of a constant is loaded. -/
  | ownerLoaded {scope : Scope} {name : String} {owner constant : List Char} {id : TypeId}
      (hsplit : splitConstant? name.toList = some (owner, constant))
      (hresolve : (Names.resolve w scope (String.ofList owner) n).1 = .ok id)
      (hloaded : Learns n (.load id) id) : Learns n (.constant scope name) id

variable {w}

/-! ## One call -/

lemma known_resolve (n : Names) (scope : Scope) (name id : String) :
    (resolve w scope name n).2.known.has id = true ↔
      n.known.has id = true ∨ Call.Learns w n (.resolve scope name) id := by
  rw [resolve_apply]
  constructor
  · intro hid
    split at hid
    · exact .inl hid
    · next himport =>
      split at hid
      · exact .inl hid
      · next hknown =>
        split at hid
        · next type htype =>
          rw [remember, Keyed.has_put, Bool.or_eq_true, beq_iff_eq] at hid
          rcases hid with rfl | hid
          · exact .inr (.found himport (by simpa using hknown) htype)
          · exact .inl hid
        · exact .inl hid
  · rintro (hid | hlearns)
    · split
      · exact hid
      · split
        · exact hid
        · split
          · rw [remember, Keyed.has_put, hid, Bool.or_true]
          · exact hid
    · cases hlearns with
      | found himport hknown htype =>
        simp [himport, hknown, htype, remember, Keyed.has_put]

lemma known_load (n : Names) (type id : TypeId) :
    (load w type n).2.known.has id = true ↔
      n.known.has id = true ∨ Call.Learns w n (.load type) id := by
  rw [load_eq]
  cases hknown : n.known.get? type with
  | some found =>
    have htype : n.known.has type = true := by
      rw [Keyed.has_eq_isSome_get?, hknown, Option.isSome_some]
    constructor
    · exact .inl
    · rintro (hid | hlearns)
      · exact hid
      · cases hlearns with
        | loaded _ => exact htype
  | none =>
    cases htype : typeAt? w [] type with
    | some found =>
      dsimp only
      rw [Keyed.has_put, Bool.or_eq_true, beq_iff_eq]
      constructor
      · rintro (rfl | hid)
        · exact .inr (.loaded (by rw [htype, Option.isSome_some]))
        · exact .inl hid
      · rintro (hid | hlearns)
        · exact .inr hid
        · cases hlearns with
          | loaded _ => exact .inl rfl
    | none =>
      constructor
      · exact .inl
      · rintro (hid | hlearns)
        · exact hid
        · cases hlearns with
          | loaded hsome => simp [htype] at hsome

/-- Looking a constant up resolves and loads its owner, if it has one. -/
lemma constant?_state (n : Names) (scope : Scope) (name : String) :
    (constant? w scope name n).2 =
      match splitConstant? name.toList with
      | none => n
      | some (owner, _) =>
        match resolve w scope (String.ofList owner) n with
        | (.ok type, n') => (load w type n').2
        | (.error _, n') => n' := by
  unfold constant?
  cases splitConstant? name.toList with
  | none =>
    dsimp only
    cases w.lookup? scope name with
    | none => rfl
    | some v => cases v <;> rfl
  | some parts =>
    obtain ⟨owner, constant⟩ := parts
    dsimp only
    -- Neither the handler nor what follows it touches the state.
    have howner : ((owner? w scope (String.ofList owner)) n).2 =
        match resolve w scope (String.ofList owner) n with
        | (.ok type, n') => (load w type n').2
        | (.error _, n') => n' := by
      rw [owner?, Run.tryCatch_apply, Run.bind_apply]
      rcases resolve w scope (String.ofList owner) n with ⟨e | type, n'⟩
      · cases e <;> rfl
      · dsimp only
        rw [Run.bind_apply]
        rcases load w type n' with ⟨e | found, n''⟩
        · cases e <;> rfl
        · rfl
    rw [← howner, Run.bind_apply]
    rcases owner? w scope (String.ofList owner) n with ⟨e | _ | type, n'⟩
    · rfl
    · rfl
    · rfl

lemma learns_constant_iff {n : Names} {scope : Scope} {name : String} {owner constant : List Char}
    (hsplit : splitConstant? name.toList = some (owner, constant)) (id : TypeId) :
    Call.Learns w n (.constant scope name) id ↔
      Call.Learns w n (.resolve scope (String.ofList owner)) id ∨
        (resolve w scope (String.ofList owner) n).1 = .ok id ∧ Call.Learns w n (.load id) id := by
  constructor
  · intro hlearns
    cases hlearns with
    | owner hsplit' hfound =>
      obtain ⟨rfl, -⟩ := Prod.mk.inj (Option.some.inj (hsplit.symm.trans hsplit'))
      exact .inl hfound
    | ownerLoaded hsplit' hresolve hloaded =>
      obtain ⟨rfl, -⟩ := Prod.mk.inj (Option.some.inj (hsplit.symm.trans hsplit'))
      exact .inr ⟨hresolve, hloaded⟩
  · rintro (hfound | ⟨hresolve, hloaded⟩)
    · exact .owner hsplit hfound
    · exact .ownerLoaded hsplit hresolve hloaded

lemma learns_load_iff {n : Names} {type id : TypeId} :
    Call.Learns w n (.load type) id ↔ type = id ∧ (typeAt? w [] id).isSome = true := by
  constructor
  · intro hlearns
    cases hlearns with
    | loaded htype => exact ⟨rfl, htype⟩
  · rintro ⟨rfl, htype⟩
    exact .loaded htype

/-- A call makes known what it learns, and forgets nothing. -/
lemma known_call (n : Names) (call : Call) (id : TypeId) :
    (call.after w n).known.has id = true ↔ n.known.has id = true ∨ call.Learns w n id := by
  cases call with
  | resolve scope name => exact known_resolve n scope name id
  | load type => exact known_load n type id
  | constant scope name =>
    rw [Call.after, constant?_state]
    cases hsplit : splitConstant? name.toList with
    | none =>
      have hnothing : ¬ Call.Learns w n (.constant scope name) id := by
        intro hlearns
        cases hlearns with
        | owner hsplit' _ => simp [hsplit] at hsplit'
        | ownerLoaded hsplit' _ _ => simp [hsplit] at hsplit'
      simp [hnothing]
    | some parts =>
      obtain ⟨owner, constant⟩ := parts
      rw [learns_constant_iff hsplit, ← or_assoc, ← known_resolve]
      dsimp only
      rcases resolve w scope (String.ofList owner) n with ⟨e | type, n'⟩
      · simp
      · dsimp only
        rw [known_load, learns_load_iff, learns_load_iff, Except.ok.injEq, eq_self, true_and]

lemma imports_call (n : Names) (call : Call) : (call.after w n).imports = n.imports := by
  have hresolve : ∀ scope name, (resolve w scope name n).2.imports = n.imports := by
    intro scope name
    rw [resolve_apply]
    repeat' split
    all_goals rfl
  have hload : ∀ (m : Names) type, (load w type m).2.imports = m.imports := by
    intro m type
    rw [load_eq]
    repeat' split
    all_goals rfl
  cases call with
  | resolve scope name => exact hresolve scope name
  | load type => exact hload n type
  | constant scope name =>
    rw [Call.after, constant?_state]
    split
    · rfl
    · next owner constant _ =>
      have howner := hresolve scope (String.ofList owner)
      revert howner
      rcases resolve w scope (String.ofList owner) n with ⟨e | type, n'⟩ <;> intro howner
      · exact howner
      · exact (hload n' type).trans howner

/-! ## Many calls -/

lemma imports_after (n : Names) (calls : List Call) : (after w n calls).imports = n.imports := by
  induction calls generalizing n with
  | nil => rfl
  | cons call calls ih => exact (ih (call.after w n)).trans (imports_call n call)

/-- Known after some calls is what was known before and what one of them has learnt at its turn. -/
lemma known_after (n : Names) (calls : List Call) (id : TypeId) :
    (after w n calls).known.has id = true ↔ n.known.has id = true ∨
      ∃ before call later, calls = before ++ call :: later ∧
        call.Learns w (after w n before) id := by
  induction calls generalizing n with
  | nil => simp [after]
  | cons call calls ih =>
    have hstep : after w n (call :: calls) = after w (call.after w n) calls := rfl
    rw [hstep, ih, known_call, or_assoc]
    refine or_congr_right ?_
    constructor
    · rintro (hlearns | ⟨before, later, rest, rfl, hlearns⟩)
      · exact ⟨[], call, calls, rfl, hlearns⟩
      · exact ⟨call :: before, later, rest, rfl, hlearns⟩
    · rintro ⟨before, later, rest, hcalls, hlearns⟩
      cases before with
      | nil =>
        obtain ⟨rfl, rfl⟩ := List.cons.inj hcalls
        exact .inl hlearns
      | cons first before =>
        obtain ⟨rfl, rfl⟩ := List.cons.inj hcalls
        exact .inr ⟨before, later, rest, rfl, hlearns⟩

/-- What a name is resolved to, by the place where it is found. -/
lemma resolve_fst (scope : Scope) (name : String) (n : Names) :
    (resolve w scope name n).1 = (n.imports.get? name).elim
      (if n.known.has name then .ok name
        else (typeAt? w scope name).elim (.error (.unresolved name)) .ok) .ok := by
  rw [resolve_apply]
  cases n.imports.get? name with
  | some type => rfl
  | none =>
    cases typeAt? w scope name with
    | none => cases n.known.has name <;> rfl
    | some type => cases n.known.has name <;> rfl

/-- After some calls a name is resolved as it was before them if and only if it is imported, was a
known id already or means the type of that id in the scope, or none of the calls has learnt it as an
id at its turn.  In all other cases it is now taken for that id. -/
theorem resolve_after_calls (w : World) (n : Names) (calls : List Call) (scope : Scope)
    (name : String) :
    ((resolve w scope name (after w n calls)).1 = (resolve w scope name n).1 ↔
      n.imports.has name = true ∨ n.known.has name = true ∨ typeAt? w scope name = some name ∨
        ∀ before call later, calls = before ++ call :: later →
          ¬ call.Learns w (after w n before) name) ∧
    ((resolve w scope name (after w n calls)).1 ≠ (resolve w scope name n).1 →
      (resolve w scope name (after w n calls)).1 = .ok name) := by
  have hknown := @known_after w n calls name
  rw [resolve_fst, resolve_fst, imports_after]
  cases himport : n.imports.get? name with
  | some type =>
    have hhas : n.imports.has name = true := by simp [Keyed.has_eq_isSome_get?, himport]
    exact ⟨iff_of_true rfl (.inl hhas), fun hne => absurd rfl hne⟩
  | none =>
    have hno : n.imports.has name = false := by simp [Keyed.has_eq_isSome_get?, himport]
    by_cases hbefore : n.known.has name = true
    · have hafter : (after w n calls).known.has name = true := hknown.2 (.inl hbefore)
      rw [hbefore, hafter]
      exact ⟨iff_of_true rfl (.inr (.inl rfl)), fun hne => absurd rfl hne⟩
    · rw [or_iff_right hbefore] at hknown
      rw [Bool.not_eq_true] at hbefore
      by_cases hafter : (after w n calls).known.has name = true
      · -- One of the calls has learnt the name, so it is an id now.
        have hlearnt : ¬ ∀ before call later, calls = before ++ call :: later →
            ¬ call.Learns w (after w n before) name := by
          obtain ⟨before, call, later, hcalls, hlearns⟩ := hknown.1 hafter
          exact fun hnone => hnone before call later hcalls hlearns
        rw [hafter, hbefore, hno]
        refine ⟨?_, fun _ => rfl⟩
        cases htype : typeAt? w scope name with
        | none => simp [hlearnt]
        | some type => simp [hlearnt, eq_comm]
      · have hnone : ∀ before call later, calls = before ++ call :: later →
            ¬ call.Learns w (after w n before) name := by
          intro before call later hcalls hlearns
          exact hafter (hknown.2 ⟨before, call, later, hcalls, hlearns⟩)
        rw [Bool.not_eq_true] at hafter
        rw [hafter, hbefore]
        exact ⟨iff_of_true rfl (.inr (.inr (.inr hnone))), fun hne => absurd rfl hne⟩

/-- A module in which a class has a second name. -/
def renamed : World where
  modules := [("app", [("A", .cls "app.A"), ("B", .cls "app.A")])]
  classes := [("app.A", { id := "app.A", home := "app" })]

/-- The second name of a class means the class until it is loaded as an id; from then on it is an id
of its own. -/
theorem resolve_after_calls_second_name :
    let n : Names := {}
    (resolve renamed [] "app.B" n).1 = .ok "app.A" ∧
    Call.Learns renamed n (.load "app.B") "app.B" ∧
    (resolve renamed [] "app.B" (after renamed n [.load "app.B"])).1 = .ok "app.B" := by
  intro n
  have htype : typeAt? renamed [] "app.B" = some "app.A" := by decide +kernel
  have hlearns : Call.Learns renamed n (.load "app.B") "app.B" := .loaded (by rw [htype]; rfl)
  have hfirst : (resolve renamed [] "app.B" n).1 = .ok "app.A" := by
    rw [resolve_fst, htype]
    rfl
  obtain ⟨hiff, hchanged⟩ := resolve_after_calls renamed n [.load "app.B"] [] "app.B"
  refine ⟨hfirst, hlearns, hchanged fun hsame => ?_⟩
  rcases hiff.1 hsame with himport | hknown | hself | hnone
  · cases himport
  · cases hknown
  · rw [htype] at hself
    exact absurd hself (by decide)
  · exact hnone [] (.load "app.B") [] rfl hlearns

end Names
end DocTags
