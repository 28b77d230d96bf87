import DocTags.Proofs.Questions
import DocTags.Proofs.Transparency

/-!
# Lives of readers

A reader is set up and used by calls in any order, and calls may fail.  A call of its setup learns
names, and then registers a type, adds an import or fails (`setup_cases`).  A call that uses it
takes steps of resolution only, or empties the cache (`step_use`).
-/

namespace DocTags
namespace Reader

open Names

variable {w : World}

/-- The calls that set a reader up or use it, in any order. -/
inductive Act where
  | setup (c : Setup)
  | use (u : Use)

/-- The reader after a call, whether or not it fails. -/
def Act.run (w : World) : Act → Reader → Reader
  | setup c => c.run w
  | use u => u.run w

/-- The reader after some calls. -/
def life (w : World) (acts : List Act) (r : Reader) : Reader :=
  acts.foldl (fun r a => a.run w r) r

lemma life_concat (acts : List Act) (a : Act) (r : Reader) :
    life w (acts ++ [a]) r = a.run w (life w acts r) := by
  rw [life, List.foldl_append]
  rfl

variable (w) in
/-- What a call of the setup does to a reader. -/
lemma setup_cases (c : Setup) (r : Reader) :
    ∃ r₁, NamesOnly (.everywhere w) r r₁ ∧ (c.run w r = r₁ ∨
      (∃ key s, c.run w r = r₁.register key s) ∨
      ∃ key short, c.run w r = { r₁ with names := r₁.names.addImport key short }) := by
  cases c with
  | register type d =>
    obtain ⟨r₁, hr₁, ⟨e, hrun⟩ | ⟨key, s, hrun⟩⟩ := registers_registerAs (.everywhere w) type d r
    · exact ⟨r₁, hr₁, .inl (congrArg Prod.snd hrun)⟩
    · exact ⟨r₁, hr₁, .inr (.inl ⟨key, s, congrArg Prod.snd hrun⟩)⟩
  | globalImport type short =>
    refine ⟨_, quiet_keyOf (.everywhere w) type r, ?_⟩
    rw [Setup.run, addGlobalImport]
    cases hres : (keyOf type r).1 with
    | error e =>
      rw [Run.bind_of_fst_error hres]
      exact .inl rfl
    | ok key =>
      rw [Run.bind_of_fst_ok hres]
      exact .inr (.inr ⟨key, short, rfl⟩)

lemma build_eq (type : TypeId) (supplied : Value) (placement : Placement) (r : Reader) :
    Reader.build w type supplied placement r =
      buildWith w (resolveWithin w (depth w r) false) none type supplied placement r := by
  rw [Reader.build, Run.bind_ok (Run.get_apply r)]

/-- What the steps of resolution may do to a reader, a call that uses it may do, unless it empties
the cache. -/
lemma step_use {R : Reader → Reader → Prop} (h : ∀ n, Steps w (resolveWithin w n) R) (u : Use)
    (r : Reader) : R r (u.run w r) ∨ u.run w r = r.clearResolved := by
  cases u with
  | resolve type =>
    obtain ⟨r₁, -, hr₁, hrun⟩ := schema_eq (w := w) type r
    rw [Use.run, hrun]
    exact .inl ((h 0).trans ((h 0).names hr₁) ((h _).answer false type.key r₁))
  | build type supplied placement =>
    rw [Use.run, build_eq]
    exact .inl ((inquires_buildWith none type supplied placement).step (h _) r)
  | parse text placement scope =>
    rw [Use.run, Reader.parse, readBlock_eq]
    exact .inl ((inquires_read placement none text.toList).step (h _) r)
  | clear => exact .inr rfl

end Reader
end DocTags
