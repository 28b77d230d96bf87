import DocTags.Proofs.Resolution
import DocTags.Reader.Operations

/-!
# Sessions

A session is a sequence of calls that register types, resolve them or clear the cache.  A call that
fails counts too, with what it has done before.  Registering a type learns names on its way, and
then stores one schema and drops one from the cache, or nothing (`Registers`).  No call leaves
anything on the stack, and what is known about names only grows (`Follows`).
-/

namespace DocTags
namespace Reader

open Names

/-! ## Sessions -/

/-- What a type is registered with: a schema, or a mapping that describes one, with the validator
that reads it. -/
inductive Descriptor where
  | schema (s : Schema)
  | mapping (validate : Description.Validator) (v : Value)

/-- Registers a type. -/
def registerAs (w : World) (type : TypeArg) : Descriptor → Run Reader TypeId
  | .schema s => registerSchema type s
  | .mapping validate v => registerMapping w validate type v

/-- The calls that registrations and the cache depend on. -/
inductive Call where
  | register (type : TypeArg) (d : Descriptor)
  | resolve (type : TypeArg)
  | clear

/-- The reader after a call, whether or not it fails. -/
def Call.run (w : World) : Call → Reader → Reader
  | register type d, r => (registerAs w type d r).2
  | resolve type, r => (schema w type r).2
  | clear, r => r.clearResolved

/-- The reader after some calls. -/
def session (w : World) (calls : List Call) (r : Reader) : Reader :=
  calls.foldl (fun r c => c.run w r) r

/-- The error of a run that failed. -/
def errorOf? {α : Type} : Except Error α → Option Error
  | .ok _ => none
  | .error e => some e

section Quiet

variable {w : World} {ids : OwnIds w} {α β : Type}

/-- The second reader differs from the first in names only. -/
def NamesOnly (ids : OwnIds w) (r r' : Reader) : Prop :=
  ∃ n, Names.Extends ids r.names n ∧ r' = { r with names := n }

lemma NamesOnly.refl (r : Reader) : NamesOnly ids r r :=
  ⟨r.names, .refl _, rfl⟩

lemma NamesOnly.trans {r r₁ r₂ : Reader} (h : NamesOnly ids r r₁) (h₁ : NamesOnly ids r₁ r₂) :
    NamesOnly ids r r₂ := by
  obtain ⟨n, hn, rfl⟩ := h
  obtain ⟨n', hn', rfl⟩ := h₁
  exact ⟨n', hn.trans hn', rfl⟩

/-- A run that learns names and nothing else. -/
def Quiet (ids : OwnIds w) (x : Run Reader α) : Prop :=
  ∀ r, NamesOnly ids r (x r).2

namespace Quiet

lemma pure (a : α) : Quiet ids (pure a) :=
  fun r => .refl r

lemma liftExcept (x : Except Error α) : Quiet ids (liftExcept x) := by
  intro r
  rw [Run.liftExcept_apply]
  exact .refl r

lemma bind {x : Run Reader α} {f : α → Run Reader β} (hx : Quiet ids x)
    (hf : ∀ a, Quiet ids (f a)) : Quiet ids (x >>= f) := by
  intro r
  cases hres : (x r).1 with
  | error e =>
    rw [Run.bind_of_fst_error hres]
    exact hx r
  | ok a =>
    rw [Run.bind_of_fst_ok hres]
    exact (hx r).trans (hf a _)

lemma tryCatch {x : Run Reader α} {f : Error → Run Reader α} (hx : Quiet ids x)
    (hf : ∀ e, Quiet ids (f e)) : Quiet ids (tryCatch x f) := by
  intro r
  have hr := hx r
  rw [Run.tryCatch_apply]
  rcases hres : x r with ⟨e | a, r₁⟩
  · rw [hres] at hr
    exact hr.trans (hf e r₁)
  · rwa [hres] at hr

end Quiet

lemma quiet_onNames {p : Prop} {act : Run Names α} (h : Uniform ids p act) :
    Quiet ids (onNames act) :=
  fun r => ⟨_, h.later r.names, rfl⟩

lemma quiet_keyOf (ids : OwnIds w) (type : TypeArg) : Quiet ids (keyOf type) := by
  cases type with
  | id type => exact .pure type
  | cls type => exact fun r => ⟨_, .put r.names (.inl rfl), rfl⟩

/-- A run that could ask for schemas and asks for none is quiet. -/
lemma Asking.quiet {imports : Keyed TypeId} {p : Prop} {L : TypeId → Prop} {x : Run Reader α}
    (h : Asking ids imports p L fun _ => x) : Quiet ids x := by
  have hmute : ∀ (asAncestor : Bool) (type : TypeId) (r : Reader),
      NamesOnly ids r (asked (fun _ => none) asAncestor type r).2 := fun _ _ r => .refl r
  exact h.relates .refl .trans (fun _ n hn => ⟨n, hn, rfl⟩) hmute

lemma quiet_ofDeclaration (v : Value) :
    Quiet ids (TypeExpr.ofDeclaration w (fun name => onNames (resolve w [] name)) v) := by
  have hasking : Asking ids [] True (fun _ => True) fun _ =>
      TypeExpr.ofDeclaration w (fun name => onNames (resolve w [] name)) v :=
    asking_ofDeclaration (fun _ => OwnIds.fits_nil) v
  exact hasking.quiet

lemma quiet_specsOf (as : Keyed AttributeDescription) :
    Quiet ids (Description.specsOf w (fun name => onNames (resolve w [] name)) as) := by
  induction as with
  | nil => exact .pure []
  | cons a as ih =>
    refine Quiet.bind (Quiet.bind (.tryCatch (quiet_ofDeclaration a.2.type) fun e r => .refl r)
      fun t => .pure _) fun spec => ih.bind fun specs => .pure _

lemma quiet_toSchema (d : Description) :
    Quiet ids (d.toSchema w fun name => onNames (resolve w [] name)) :=
  (Quiet.liftExcept _).bind fun _ => (quiet_specsOf d.attributes).bind fun _ => .pure _

/-- A run that may learn names, and then fails or stores a schema under the key that it gives. -/
def Registers (ids : OwnIds w) (x : Run Reader TypeId) : Prop :=
  ∀ r, ∃ r₁, NamesOnly ids r r₁ ∧
    ((∃ e, x r = (.error e, r₁)) ∨ ∃ key s, x r = (.ok key, r₁.register key s))

lemma Registers.bind {x : Run Reader α} {f : α → Run Reader TypeId} (hx : Quiet ids x)
    (hf : ∀ a, Registers ids (f a)) : Registers ids (x >>= f) := by
  intro r
  have hr := hx r
  cases hres : (x r).1 with
  | error e =>
    rw [Run.bind_of_fst_error hres]
    exact ⟨_, hr, .inl ⟨e, rfl⟩⟩
  | ok a =>
    rw [Run.bind_of_fst_ok hres]
    obtain ⟨r₁, hr₁, hend⟩ := hf a (x r).2
    exact ⟨r₁, hr.trans hr₁, hend⟩

lemma registers_modify (key : TypeId) (s : Schema) :
    Registers ids (do modify fun r => r.register key s; return key) :=
  fun r => ⟨r, .refl r, .inr ⟨key, s, rfl⟩⟩

lemma registers_registerAs (ids : OwnIds w) (type : TypeArg) (d : Descriptor) :
    Registers ids (registerAs w type d) := by
  cases d with
  | schema s => exact .bind (quiet_keyOf ids type) fun key => registers_modify key s
  | mapping validate v =>
    refine .bind (quiet_keyOf ids type) fun key => .bind (.liftExcept _) fun pairs =>
      .bind (.liftExcept _) fun d => ?_
    exact .bind (quiet_keyOf ids _) fun key => .bind (quiet_toSchema d) fun s =>
      registers_modify key s

end Quiet

/-- What calls leave alone: between them no type is being resolved, and names are only learnt. -/
structure Follows {w : World} (ids : OwnIds w) (r r' : Reader) : Prop where
  names : Names.Extends ids r.names r'.names
  readsClasses : r'.readsClasses = r.readsClasses
  stack : r'.stack = r.stack

lemma Follows.trans {w : World} {ids : OwnIds w} {r r₁ r₂ : Reader} (h : Follows ids r r₁)
    (h₁ : Follows ids r₁ r₂) : Follows ids r r₂ :=
  ⟨h.names.trans h₁.names, h₁.readsClasses.trans h.readsClasses, h₁.stack.trans h.stack⟩

lemma NamesOnly.later {w : World} {ids : OwnIds w} {r r' : Reader} (h : NamesOnly ids r r') :
    Later ids r r' := by
  obtain ⟨n, hn, rfl⟩ := h
  exact ⟨hn, rfl, rfl, rfl⟩

lemma NamesOnly.resolved {w : World} {ids : OwnIds w} {r r' : Reader} (h : NamesOnly ids r r') :
    r'.resolved = r.resolved := by
  obtain ⟨n, hn, rfl⟩ := h
  rfl

lemma NamesOnly.follows {w : World} {ids : OwnIds w} {r r' : Reader} (h : NamesOnly ids r r') :
    Follows ids r r' := by
  obtain ⟨n, hn, rfl⟩ := h
  exact ⟨hn, rfl, rfl⟩

lemma follows_run {w : World} (ids : OwnIds w) (c : Call) (r : Reader) :
    Follows ids r (c.run w r) := by
  cases c with
  | register type d =>
    obtain ⟨r₁, hr₁, ⟨e, hrun⟩ | ⟨key, s, hrun⟩⟩ := registers_registerAs ids type d r
    · rw [Call.run, hrun]
      exact hr₁.follows
    · rw [Call.run, hrun]
      exact ⟨hr₁.follows.names, hr₁.follows.readsClasses, hr₁.follows.stack⟩
  | resolve type =>
    have hkey := (quiet_keyOf ids type r).follows
    rw [Call.run, schema]
    cases hres : (keyOf type r).1 with
    | error e =>
      rw [Run.bind_of_fst_error hres]
      exact hkey
    | ok key =>
      rw [Run.bind_of_fst_ok hres, resolveSchema, Run.bind_ok (Run.get_apply _)]
      have hlater : Later ids _ _ :=
        later_resolveWithin (depth w (keyOf type r).2) false key (keyOf type r).2
      exact hkey.trans ⟨hlater.names, hlater.readsClasses, hlater.stack⟩
  | clear => exact ⟨.refl _, rfl, rfl⟩

lemma follows_session {w : World} (ids : OwnIds w) (calls : List Call) (r : Reader) :
    Follows ids r (session w calls r) := by
  induction calls generalizing r with
  | nil => exact ⟨.refl _, rfl, rfl⟩
  | cons c calls ih => exact (follows_run ids c r).trans (ih (c.run w r))

/-- A block that is read from outside has the whole depth. -/
lemma readBlock_eq (w : World) (block : List Char) (placement : Placement) (scope : Scope)
    (r : Reader) :
    readBlock w block placement scope r =
      (settingFor w scope placement none (resolveWithin w (depth w r))).read block r := by
  rw [readBlock, Run.bind_ok (Run.get_apply r)]

/-- What a new reader knows stands for itself. -/
lemma known_self_start (imports : Keyed TypeId) (reads : Bool) (name found : String)
    (h : (start imports reads).names.known.get? name = some found) : found = name := by
  have hremember : ∀ (n : Names) (type : TypeId),
      (∀ name found, n.known.get? name = some found → found = name) →
      ∀ name found, (n.remember type).known.get? name = some found → found = name := by
    intro n type hn name found hget
    by_cases hname : name = type
    · rw [Names.remember, hname, Keyed.get?_put_self] at hget
      rw [hname, Option.some.inj hget]
    · rw [Names.remember, Keyed.get?_put_of_ne _ hname] at hget
      exact hn name found hget
  refine hremember _ _ (hremember _ _ (hremember _ _ ?_)) name found h
  exact fun _ _ hget => nomatch hget

/-- In a session that began with a new reader, known ids are clear as soon as they are all among the
chosen ones. -/
lemma clear_session {w : World} {ids : OwnIds w} {imports : Keyed TypeId} {reads : Bool}
    {calls : List Call}
    (h : (session w calls (start imports reads)).names.meetsOnly ids = true) :
    (session w calls (start imports reads)).names.Clear ids := by
  have hfollows := (follows_session ids calls (start imports reads)).names
  exact hfollows.clear ⟨known_self_start imports reads, hfollows.meetsOnly h⟩ h

end Reader
end DocTags
