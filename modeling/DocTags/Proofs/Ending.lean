import DocTags.Proofs.Nesting
import DocTags.Proofs.Sessions

/-!
# Nested resolution ends

Reading a text or a class resolves types, which reads the documentation of their classes, which
resolves further types.  What makes this end is the stack: it never holds a type twice, and the
types on it come from a list that is fixed before the run begins.

`watched` is resolution under watch.  Where a type would go on the stack that is there already or is
not of the list, or where no level is left, it is not resolved; `beyond` answers in its place.  The
main result, `nesting_ends`, says that a run from an empty stack is the same under watch, whatever
`beyond` does.  So `beyond` is never asked, and the stack is as it should be at every moment.
-/

namespace DocTags
namespace Reader

open Names

variable {w : World}

/-! ## Resolution under watch -/

/-- What may be on the stack: types of a list, none of them twice. -/
def Orderly (types stack : List TypeId) : Prop :=
  stack.Nodup ∧ ∀ type ∈ stack, type ∈ types

instance (types stack : List TypeId) : Decidable (Orderly types stack) :=
  inferInstanceAs (Decidable (_ ∧ _))

/-- Resolves the schema of a type as long as the stack is in order and there are levels left. -/
def watched (w : World) (types : List TypeId) (beyond : Oracle) : Nat → Oracle
  | n, asAncestor, type => do
    let r ← get
    match r.resolved.get? type with
    | some s => return s
    | none =>
      if r.stack.contains type then
        throw (.cycle (r.stack.dropWhile (· != type) ++ [type]))
      if Orderly types (r.stack ++ [type]) then
        match n with
        | 0 => beyond asAncestor type
        | n + 1 =>
          opening type do
            let found ← resolveFresh w (watched w types beyond n false)
              (watched w types beyond n true) type (r.declared.get? type)
            settle asAncestor type found
      else beyond asAncestor type

/-- With room on the stack, resolution is the same under watch. -/
lemma watched_eq {types : List TypeId} (beyond : Oracle) {n : Nat} {asAncestor : Bool}
    {type : TypeId} {r : Reader} (htypes : ∀ t ∈ nameable w r, t ∈ types) (htype : type ∈ types)
    (hn : Room types r.stack n) :
    resolveWithin w n asAncestor type r = watched w types beyond n asAncestor type r := by
  induction n using Nat.strongRecOn generalizing asAncestor type r with
  | _ n ih =>
    cases hc : r.resolved.get? type with
    | some s =>
      rw [resolveWithin_cached hc, watched, Run.bind_ok (Run.get_apply r), hc]
      rfl
    | none =>
      by_cases hs : type ∈ r.stack
      · rw [resolveWithin_cycle hc hs, watched, Run.bind_ok (Run.get_apply r), hc]
        simp [hs]
      · obtain ⟨n, rfl, hpushed⟩ := hn.push htype hs
        have horderly : Orderly types (r.stack ++ [type]) := ⟨hpushed.nodup, hpushed.subset⟩
        have hsame : resolveBy w r.declared type (resolveWithin w n) (opened type r) =
            resolveBy w r.declared type (watched w types beyond n) (opened type r) := by
          rw [← resolveByAmong_all, ← resolveByAmong_all]
          refine resolveByAmong_congr (later_resolveWithin n)
            fun asAncestor other r₁ hother hnameable hstack => ?_
          refine ih n (Nat.lt_succ_self n) ?_ (htypes other hother) ?_
          · rwa [hnameable]
          · rwa [hstack]
        rw [resolveWithin_fresh hc hs, hsame, watched, Run.bind_ok (Run.get_apply r), hc]
        simp only [List.contains_eq_mem, hs, decide_false, Bool.false_eq_true, if_false,
          if_pos horderly]
        exact (opening_settle _).symm

/-! ## Texts -/

/-- The types that reading a text can come to. -/
def reachable (w : World) (r : Reader) (scope : Scope) (block : List Char) : List TypeId :=
  nameable w r ++ (annotationNames block).flatMap (denoted w scope)

/-- Asking for a type from an empty stack is the same under watch. -/
lemma resolveWithin_eq_watched {types : List TypeId} (beyond : Oracle) {asAncestor : Bool}
    {type : TypeId} {r : Reader} (hstack : r.stack = []) (htypes : ∀ t ∈ nameable w r, t ∈ types)
    (htype : type ∈ types) (hdepth : depth w r ≤ types.length) :
    resolveWithin w (depth w r) asAncestor type r =
      watched w types beyond types.length asAncestor type r := by
  rw [← resolveWithin_depth hstack hdepth]
  refine watched_eq beyond htypes htype ?_
  rw [hstack]
  exact ⟨List.nodup_nil, fun _ h => absurd h List.not_mem_nil, Nat.le_refl _⟩

lemma covers_reachable (r : Reader) (scope : Scope) (block : List Char) :
    Covers w r.names.imports scope
      (fun type => type ∈ reachable w r scope block ∧
        depth w r ≤ (reachable w r scope block).length)
      (annotationNames block) := by
  intro name hname type htype
  have hdenoted : ∀ t ∈ denoted w scope name,
      t ∈ (annotationNames block).flatMap (denoted w scope) := fun t ht =>
    List.mem_flatMap.2 ⟨name, hname, ht⟩
  have hpos := List.length_pos_of_mem (hdenoted name (List.mem_cons_self ..))
  refine ⟨mem_of_denotes htype (fun t ht => List.mem_append_left _ ht)
    fun t ht => List.mem_append_right _ (hdenoted t ht), ?_⟩
  rw [depth, reachable, List.length_append]
  omega

/-- Reading a block from an empty stack is the same under watch, and leaves the stack empty. -/
lemma readBlock_eq_watched (beyond : Oracle) {r : Reader} (hstack : r.stack = [])
    (block : List Char) (placement : Placement) (scope : Scope) :
    let types := reachable w r scope block
    readBlock w block placement scope r =
      (settingFor w scope placement none (watched w types beyond types.length)).read block r ∧
    (readBlock w block placement scope r).2.stack = [] := by
  intro types
  have hasking : Asking (.everywhere w) r.names.imports False _ fun so =>
      (settingFor w scope placement none so).read block :=
    asking_read placement none (fun h => h.elim) block (covers_reachable r scope block)
  rw [readBlock_eq]
  refine ⟨?_, ?_⟩
  · refine hasking.congr (K := Later (.everywhere w) r) (fun hlater hr => hr.trans hlater)
      (fun hr => hr.names.imports) (later_resolveWithin _) ?_ (.refl r)
    rintro asAncestor type r₁ ⟨htype, hdepth⟩ hr₁
    have hnameable : nameable w r₁ = nameable w r :=
      nameable_congr hr₁.names.imports hr₁.declared
    have hsame : depth w r₁ = depth w r := by rw [depth, depth, hnameable]
    rw [← hsame] at hdepth ⊢
    refine resolveWithin_eq_watched beyond (hr₁.stack.trans hstack) ?_ htype hdepth
    rw [hnameable]
    exact fun t ht => List.mem_append_left _ ht
  · exact (hasking.later (later_resolveWithin _) r).stack.trans hstack

/-! ## Every call ends -/

lemma quiet_classOf (type : TypeArg) : Quiet (.everywhere w) (classOf w type) := by
  cases type with
  | id type => exact quiet_onNames (p := True) (uniform_load type)
  | cls type => exact .pure type

/-- What comes behind a step that learns names and nothing else. -/
lemma Quiet.bind_same {α β : Type} {x : Run Reader α} {f g : α → Run Reader β}
    (hx : Quiet (.everywhere w) x) {r : Reader} (hstack : r.stack = [])
    (h : ∀ a r₁, Later (.everywhere w) r r₁ → f a r₁ = g a r₁ ∧ (f a r₁).2.stack = []) :
    (x >>= f) r = (x >>= g) r ∧ ((x >>= f) r).2.stack = [] := by
  have hlater := (hx r).later
  cases hres : (x r).1 with
  | error e =>
    rw [Run.bind_of_fst_error hres, Run.bind_of_fst_error hres]
    exact ⟨rfl, hlater.stack.trans hstack⟩
  | ok a =>
    rw [Run.bind_of_fst_ok hres, Run.bind_of_fst_ok hres]
    exact h a _ hlater

/-- From an empty stack, reading a text, reading a class and resolving a type go the same way under
watch, whatever would answer beyond.  So no type is ever put on the stack twice, none that is not of
the list, and the levels are never used up; in the end the stack is empty again, whether or not the
call fails.  The lists are those of the types that the world, the imports and the registrations
name, with the ones that the text names or the type that is resolved. -/
theorem nesting_ends (w : World) (r : Reader) (hstack : r.stack = []) (beyond : Oracle) :
    (∀ (text : String) (placement : Placement) (scope : Scope),
      let types := reachable w r scope text.toList
      parse w text placement scope r =
        (settingFor w scope placement none (watched w types beyond types.length)).read
          text.toList r ∧
      (parse w text placement scope r).2.stack = []) ∧
    (∀ type : TypeArg,
      readClass w type r =
        (do
          let (doc, scope) := w.documented (.cls (← classOf w type))
          let types := reachable w r scope doc
          (settingFor w scope .onClass none (watched w types beyond types.length)).read doc :
            Run Reader Comment) r ∧
      (readClass w type r).2.stack = []) ∧
    (∀ type : TypeArg,
      schema w type r =
        (do
          let key ← keyOf type
          let types := key :: nameable w r
          watched w types beyond types.length false key : Run Reader Schema) r ∧
      (schema w type r).2.stack = []) := by
  refine ⟨fun text placement scope => ?_, fun type => ?_, fun type => ?_⟩
  · exact readBlock_eq_watched beyond hstack text.toList placement scope
  · refine (quiet_classOf type).bind_same hstack fun found r₁ hr₁ => ?_
    have hread := readBlock_eq_watched (w := w) beyond (hr₁.stack.trans hstack)
      (w.documented (.cls found)).1 .onClass (w.documented (.cls found)).2
    dsimp only at hread
    rwa [reachable, nameable_congr hr₁.names.imports hr₁.declared, ← reachable] at hread
  · refine (quiet_keyOf (.everywhere w) type).bind_same hstack fun key r₁ hr₁ => ?_
    have hnameable : nameable w r₁ = nameable w r :=
      nameable_congr hr₁.names.imports hr₁.declared
    rw [resolveSchema, Run.bind_ok (Run.get_apply r₁)]
    refine ⟨?_, (hr₁.trans (later_resolveWithin _ _ _ _)).stack.trans hstack⟩
    have hsame : (key :: nameable w r).length = depth w r₁ := by rw [depth, hnameable]; rfl
    refine resolveWithin_eq_watched beyond (hr₁.stack.trans hstack) ?_ (List.mem_cons_self ..)
      (Nat.le_of_eq hsame.symm)
    rw [hnameable]
    exact fun t ht => List.mem_cons_of_mem key ht

/-- A world with two classes whose documentation has an annotation of the other one. -/
def mutualClasses : World where
  modules :=
    [(declaringModule, declaringMembers declaringModule),
      ("app", [("A", .cls "app.A"), ("B", .cls "app.B")])]
  classes :=
    [("app.A", { id := "app.A", home := "app", doc := some "@Annotation\n@B()" }),
      ("app.B", { id := "app.B", home := "app", doc := some "@Annotation\n@A()" })]

/-- A text that leads from one class to the other and back: the stack is in order until the cycle is
found, and is empty then. -/
theorem nesting_ends_mutual :
    let r := start [] true
    let scope := mutualClasses.scopeOf "app"
    let types := reachable mutualClasses r scope "@A()".toList
    (∀ beyond : Oracle, parse mutualClasses "@A()" .onClass scope r =
      (settingFor mutualClasses scope .onClass none
        (watched mutualClasses types beyond types.length)).read "@A()".toList r) ∧
    errorOf? (parse mutualClasses "@A()" .onClass scope r).1 =
      some (.cycle ["app.A", "app.B", "app.A"]) ∧
    (parse mutualClasses "@A()" .onClass scope r).2.stack = [] := by
  intro r scope types
  refine ⟨fun beyond => ?_, by decide +kernel, ?_⟩
  · exact ((nesting_ends mutualClasses r rfl beyond).1 "@A()" .onClass scope).1
  · exact ((nesting_ends mutualClasses r rfl fun _ _ => throw .tooDeep).1 "@A()" .onClass scope).2

end Reader
end DocTags
