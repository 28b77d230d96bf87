import DocTags.Proofs.Sessions
import DocTags.Proofs.SoundCache

/-!
# Registering and the cache

Registering a type drops its own schema from the cache and no other, so the cached schemas of types
that inherit from it may be outdated, and stay so until the cache is cleared.  `Current` says of a
reader that nothing in its cache is.  This is exactly when the cache makes no difference to its
answers (`agrees_iff_current`), and `answers_after_registering` says so for every moment after a
registration, and tells which cached schemas cannot become outdated by it: those of types that are
resolved without the registered one.
-/

namespace DocTags
namespace Reader

open Names

/-! ## Cached schemas that are current -/

/-- Resolving a type meets no ambiguous id. -/
def Regular (w : World) (type : TypeId) (r : Reader) : Prop :=
  (resolveSchema w type r).2.names.unambiguous w = true

/-- What is cached is what the reader would find without its cache. -/
def Current (w : World) (r : Reader) : Prop :=
  ∀ type s, r.resolved.get? type = some s → (resolveSchema w type r.clearResolved).1 = .ok s

variable {w : World} {ids : OwnIds w} {q r : Reader} {avoid stack : List TypeId} {type : TypeId}
  {s : Schema}

lemma resolveSchema_eq (w : World) (type : TypeId) (r : Reader) :
    resolveSchema w type r = resolveWithin w (depth w r) false type r := by
  rw [resolveSchema, Run.bind_ok (Run.get_apply r)]

/-- All classes may be read here. -/
lemma resolveSchema_eq_among (w : World) (type : TypeId) (r : Reader) :
    resolveSchema w type r =
      resolveAmong w (OwnIds.everywhere w).docs (depth w r) false type r := by
  rw [resolveSchema_eq, ← resolveAmong_all]
  rfl

lemma at_cleared (hr : Ground ids q r) (hdeclared : r.declared = q.declared)
    (hstack : r.stack = stack) : At ids q (Standing ids q avoid stack) r.clearResolved where
  ground := ⟨hr.imports, hr.clear, hr.readsClasses⟩
  holds := ⟨hdeclared, (fun _ _ h => nomatch h), hstack⟩

/-- A type that is resolved from a sound cache has a solution. -/
lemma solution_of_resolves (hq : q.names.Clear (.everywhere w)) (havoid : ∀ v ∈ avoid, v ∈ stack)
    (hr : At (.everywhere w) q (Standing (.everywhere w) q avoid stack) r)
    (hok : (resolveSchema w type r).1 = .ok s)
    (hend : (resolveSchema w type r).2.names.unambiguous w = true) :
    ∃ k, solution (.everywhere w) q avoid k type = some (s, true) := by
  rw [resolveSchema_eq_among] at hok hend
  obtain ⟨-, htracks⟩ := tracked_resolveAmong hq (depth w r) havoid false type r hr hend
  obtain ⟨k, hk⟩ := htracks s hok
  obtain ⟨hasked, -⟩ := hk k (Nat.le_refl k) q.bare (ground_bare hq)
  dsimp only at hasked
  rw [asked_apply] at hasked
  refine ⟨k, ?_⟩
  cases hsol : solution (.everywhere w) q avoid k type with
  | none =>
    rw [hsol] at hasked
    cases hasked
  | some found =>
    obtain ⟨s', isType⟩ := found
    rw [hsol] at hasked
    cases isType with
    | false => cases hasked
    | true =>
      cases hasked
      rfl

/-- A type with a solution is resolved to it by readers that resolve nothing else. -/
lemma resolves_of_solution (hq : q.names.Clear (.everywhere w)) {k : Nat}
    (hsol : solution (.everywhere w) q avoid k type = some (s, true))
    (hr : At (.everywhere w) q (Standing (.everywhere w) q avoid []) r) :
    (resolveSchema w type r).1 = .ok s := by
  have hroom := room_depth w type r
  rw [nameable_congr hr.ground.imports hr.holds.declared] at hroom
  rw [resolveSchema_eq_among]
  exact (resolveAmong_of_solution hq (fun _ => List.mem_cons_of_mem type) hroom
    (fun v hv => absurd hv List.not_mem_nil) hsol (List.mem_cons_self ..) false hr).1

/-- If what is cached is current, the cache makes no difference. -/
lemma resolveSchema_clearResolved (hn : r.names.Clear (.everywhere w)) (hstack : r.stack = [])
    (hcached : ∀ type s, r.resolved.get? type = some s → Regular w type r.clearResolved)
    (hcurrent : Current w r) (hregular : Regular w type r.clearResolved) :
    (resolveSchema w type r).1 = (resolveSchema w type r.clearResolved).1 := by
  have hground : Ground (.everywhere w) r r := ⟨rfl, hn, rfl⟩
  have hcleared : At (.everywhere w) r (Standing (.everywhere w) r [] []) r.clearResolved :=
    at_cleared hground rfl hstack
  have hsound : Sound (.everywhere w) r [] r := fun other s hget =>
    solution_of_resolves hn (fun v hv => absurd hv List.not_mem_nil) hcleared
      (hcurrent other s hget) (hcached other s hget)
  have hr : At (.everywhere w) r (Standing (.everywhere w) r [] []) r :=
    ⟨hground, rfl, hsound, hstack⟩
  rw [Regular, resolveSchema_eq_among] at hregular
  rw [resolveSchema_eq_among, resolveSchema_eq_among]
  exact (sim_resolveAmong hn (fun _ => List.mem_cons_of_mem type) (room_depth w type r)
    (room_depth w type r.clearResolved) (fun v hv => absurd hv List.not_mem_nil)
    (fun v hv => absurd hv List.not_mem_nil) false (List.mem_cons_self ..) r r.clearResolved hr
    hcleared hregular nofun).1

/-- Registrations of avoided types do not matter. -/
lemma solution_of_avoid {q' : Reader} (hbare : q'.bare = q.bare)
    (hdeclared : ∀ v, v ∉ avoid → q'.declared.get? v = q.declared.get? v) {k : Nat}
    {found : Schema × Bool} (h : solution ids q avoid k type = some found) :
    solution ids q' [] k type = some found := by
  induction k generalizing type found with
  | zero => cases h
  | succ k ih =>
    rw [solution_succ_eq_some] at h ⊢
    obtain ⟨hrun, hend, htype⟩ := h
    rw [resolveByAmong, hdeclared type htype, hbare, ← resolveByAmong,
      (asks_resolveByDocs ids q.declared type).asked_mono (fun _ _ => ih) hrun]
    exact ⟨hrun, hend, List.not_mem_nil⟩

/-- A type is resolved without another one: even while the other is being resolved, when asking for
it would be refused. -/
def ResolvesWithout (w : World) (other type : TypeId) (r : Reader) : Prop :=
  let run := resolveSchema w type { r with stack := [other] : Reader }.clearResolved
  run.1.isOk = true ∧ run.2.names.unambiguous w = true

/-- The schema of a type that is resolved without `p` does not depend on what `p` is registered
with. -/
lemma resolveSchema_of_resolvesWithout {r' : Reader} {p : TypeId}
    (hfollows : Follows (.everywhere w) r r')
    (hdeclared : ∀ v, v ≠ p → r'.declared.get? v = r.declared.get? v)
    (hr : r.names.Clear (.everywhere w)) (hr' : r'.names.Clear (.everywhere w))
    (hstack : r.stack = []) (hwithout : ResolvesWithout w p type r') :
    (resolveSchema w type r'.clearResolved).1 = (resolveSchema w type r.clearResolved).1 := by
  obtain ⟨hisOk, hend⟩ := hwithout
  have hground : ∀ stack, Ground (.everywhere w) r' { r' with stack } := fun _ => ⟨rfl, hr', rfl⟩
  have hopen : At (.everywhere w) r' (Standing (.everywhere w) r' [p] [p])
      { r' with stack := [p] : Reader }.clearResolved :=
    at_cleared (hground _) rfl rfl
  cases hres : (resolveSchema w type { r' with stack := [p] : Reader }.clearResolved).1 with
  | error e =>
    rw [hres] at hisOk
    cases hisOk
  | ok s =>
    -- the schema found without `p` solves the type both after and before
    obtain ⟨k, hsol⟩ := solution_of_resolves hr' (fun v hv => hv) hopen hres hend
    have hafter := solution_of_avoid rfl (fun _ _ => rfl) hsol
    let q : Reader := { r' with declared := r.declared }
    have hbare : q.bare = r'.bare := rfl
    have hbefore : solution (.everywhere w) q [] k type = some (s, true) :=
      solution_of_avoid hbare (fun v hv => (hdeclared v (by simpa using hv)).symm) hsol
    have hcleared : At (.everywhere w) q (Standing (.everywhere w) q [] []) r.clearResolved :=
      at_cleared ⟨hfollows.names.imports.symm, hr, hfollows.readsClasses.symm⟩ rfl hstack
    have hcleared' : At (.everywhere w) r' (Standing (.everywhere w) r' [] []) r'.clearResolved :=
      at_cleared (hground _) rfl (hfollows.stack.trans hstack)
    have hq : q.names.Clear (.everywhere w) := hr'
    rw [resolves_of_solution hr' hafter hcleared', resolves_of_solution hq hbefore hcleared]

lemma resolveSchema_cached (h : r.resolved.get? type = some s) :
    resolveSchema w type r = (.ok s, r) := by
  rw [resolveSchema_eq, resolveWithin_cached h]

/-- The reader answers as it would without its cache if and only if what is cached is current. -/
lemma agrees_iff_current (hn : r.names.Clear (.everywhere w)) (hstack : r.stack = [])
    (hcached : ∀ type s, r.resolved.get? type = some s → Regular w type r.clearResolved) :
    (∀ type, Regular w type r.clearResolved →
      (resolveSchema w type r).1 = (resolveSchema w type r.clearResolved).1) ↔ Current w r := by
  refine ⟨fun hagree type s hget => ?_, fun hcurrent type =>
    resolveSchema_clearResolved hn hstack hcached hcurrent⟩
  rw [← hagree type (hcached type s hget), resolveSchema_cached hget]

/-- A session from a new reader is one that went on after its first calls. -/
lemma session_append (w : World) (calls later : List Call) (r : Reader) :
    session w later (session w calls r) = session w (calls ++ later) r :=
  (List.foldl_append ..).symm

/-- What a registration changes. -/
lemma registerAs_ok {key : TypeArg} {d : Descriptor} {p : TypeId}
    (h : (registerAs w key d r).1 = .ok p) :
    let r' := (registerAs w key d r).2
    (∀ t, t ≠ p → r'.declared.get? t = r.declared.get? t) ∧ r'.resolved.get? p = none ∧
      ∀ t, t ≠ p → r'.resolved.get? t = r.resolved.get? t := by
  obtain ⟨r₁, ⟨n, -, rfl⟩, ⟨e, hrun⟩ | ⟨p', s, hrun⟩⟩ :=
    registers_registerAs (.everywhere w) key d r
  · rw [hrun] at h
    cases h
  · rw [hrun] at h ⊢
    cases h
    exact ⟨fun t ht => Keyed.get?_put_of_ne _ ht _, Keyed.get?_erase_self _ _,
      fun t ht => Keyed.get?_erase_of_ne _ ht⟩

/-- After a type is registered its own schema is found anew, but other types that are in the cache
keep their schemas, whatever was registered.  So at any later moment the reader answers as it would
without its cache if and only if everything in the cache is current.  The answers that a
registration cannot make outdated are those about types that are resolved without the registered
one. -/
theorem answers_after_registering (w : World) (imports : Keyed TypeId) (reads : Bool)
    (before later : List Call) (key : TypeArg) (d : Descriptor) (p : TypeId)
    (hp : (registerAs w key d (session w before (start imports reads))).1 = .ok p) :
    let r := session w before (start imports reads)
    let r' := (registerAs w key d r).2
    let r'' := session w later r'
    (r'.resolved.get? p = none ∧
      ∀ t s, t ≠ p → r.resolved.get? t = some s → resolveSchema w t r' = (.ok s, r')) ∧
    (r''.names.unambiguous w = true →
      (∀ t s, r''.resolved.get? t = some s → Regular w t r''.clearResolved) →
      ((∀ t, Regular w t r''.clearResolved →
        (resolveSchema w t r'').1 = (resolveSchema w t r''.clearResolved).1) ↔ Current w r'')) ∧
    (r'.names.unambiguous w = true → ∀ t, ResolvesWithout w p t r' →
      (resolveSchema w t r'.clearResolved).1 = (resolveSchema w t r.clearResolved).1) := by
  intro r r' r''
  obtain ⟨hdeclared, hdropped, hresolved⟩ := registerAs_ok hp
  have hr' : r' = session w (before ++ [.register key d]) (start imports reads) :=
    session_append w before [.register key d] _
  have hr'' : r'' = session w (before ++ [.register key d] ++ later) (start imports reads) := by
    rw [← session_append, ← hr']
  have hfollows : Follows (.everywhere w) r r' := follows_run (.everywhere w) (.register key d) r
  have hstack : ∀ calls, (session w calls (start imports reads)).stack = [] :=
    fun calls => (follows_session (.everywhere w) calls _).stack
  refine ⟨⟨hdropped, fun t s ht hget => ?_⟩, fun hn hcached => ?_, fun hn t => ?_⟩
  · exact resolveSchema_cached ((hresolved t ht).trans hget)
  · rw [hr''] at hn hcached ⊢
    exact agrees_iff_current (clear_session hn) (hstack _) hcached
  · have hclear : r'.names.Clear (.everywhere w) := by
      rw [hr'] at hn ⊢
      exact clear_session hn
    exact resolveSchema_of_resolvesWithout hfollows hdeclared
      (clear_session (hfollows.names.meetsOnly hn)) hclear (hstack before)

/-- A world with three classes. -/
def threeClasses : World where
  modules :=
    [(declaringModule, declaringMembers declaringModule),
      ("app", [("P", .cls "app.P"), ("C", .cls "app.C"), ("D", .cls "app.D")])]
  classes :=
    [("app.P", { id := "app.P", home := "app" }), ("app.C", { id := "app.C", home := "app" }),
      ("app.D", { id := "app.D", home := "app" })]

/-- A schema with one attribute. -/
def withAttribute (name : String) (parent : Option TypeId) : Descriptor :=
  .schema { attributes := [(name, { name })], parent }

/-- The second class extends the first, and the third stands alone. -/
def threeCalls : List Call :=
  [.register (.id "app.P") (withAttribute "a" none),
    .register (.id "app.C") (withAttribute "c" (some "app.P")),
    .register (.id "app.D") (withAttribute "d" none), .resolve (.id "app.C"),
    .resolve (.id "app.D")]

/-- The names of the attributes of a schema that was found. -/
def attributesOf : Except Error Schema → List String
  | .ok s => s.attributes.names
  | .error _ => []

/-- When its parent is registered again, the second class keeps its schema, which is no longer
current.  The third class is not affected. -/
theorem answers_after_registering_parent :
    let r := session threeClasses threeCalls (start [] true)
    let r' := (registerAs threeClasses (.id "app.P") (withAttribute "b" none) r).2
    (∃ s, r.resolved.get? "app.C" = some s ∧
      resolveSchema threeClasses "app.C" r' = (.ok s, r')) ∧
    ¬ Current threeClasses r' ∧
    ¬ (∀ t, Regular threeClasses t r'.clearResolved →
      (resolveSchema threeClasses t r').1 = (resolveSchema threeClasses t r'.clearResolved).1) ∧
    (resolveSchema threeClasses "app.D" r'.clearResolved).1 =
      (resolveSchema threeClasses "app.D" r.clearResolved).1 := by
  intro r r'
  obtain ⟨⟨-, hstale⟩, hiff, hwithout⟩ := answers_after_registering threeClasses [] true threeCalls
    [] (.id "app.P") (withAttribute "b" none) "app.P" rfl
  have hn : r'.names.unambiguous threeClasses = true := by decide +kernel
  have hcached : ∀ t s, r'.resolved.get? t = some s → Regular threeClasses t r'.clearResolved := by
    intro t s hget
    have hnames : r'.resolved.names = ["app.C", "app.D"] := by decide +kernel
    have ht : t ∈ r'.resolved.names := Keyed.mem_names_of_get? hget
    rw [hnames, List.mem_cons, List.mem_singleton] at ht
    rcases ht with rfl | rfl
    · rw [Regular]
      decide +kernel
    · rw [Regular]
      decide +kernel
  obtain ⟨s, hs⟩ : ∃ s, r.resolved.get? "app.C" = some s :=
    Option.isSome_iff_exists.1 (by decide +kernel)
  have hsame := hstale "app.C" s (by decide) hs
  have hold : attributesOf (resolveSchema threeClasses "app.C" r').1 = ["a", "c"] := by
    decide +kernel
  have hnew : attributesOf (resolveSchema threeClasses "app.C" r'.clearResolved).1 =
    ["b", "c"] := by decide +kernel
  have hcurrent : ¬ Current threeClasses r' := by
    intro hcurrent
    have hget : r'.resolved.get? "app.C" = some s := by
      rw [← hs]
      exact Keyed.get?_erase_of_ne _ (by decide)
    rw [hcurrent "app.C" s hget] at hnew
    rw [hsame] at hold
    exact absurd (hold.symm.trans hnew) (by decide)
  exact ⟨⟨s, hs, hsame⟩, hcurrent, fun hagree => hcurrent ((hiff hn hcached).1 hagree),
    hwithout hn "app.D" ⟨by decide +kernel, by decide +kernel⟩⟩

end Reader
end DocTags
