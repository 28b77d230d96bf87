import DocTags.Proofs.Nesting

/-!
# Sound caches

A cache is sound if every schema in it is the solution of its type.  From a sound cache, a type that
has a solution is resolved to it, whatever else is cached (`answers_resolveAmong`).  The types on
the stack cannot be in the way: a type is needed for the solution of another only if it has one of a
lower level.  Conversely what is resolved is the solution, and the cache stays sound even if the run
fails (`tracked_resolveAmong`).

A type without solution is in no sound cache, so two readers resolve it step by step alike, with the
same error in the end (`sim_resolveAmong`).  Together, what is in a sound cache cannot be observed.
All this is said of runs that meet none but the chosen ids.
-/

namespace DocTags
namespace Reader

open Names

variable {w : World} {ids : OwnIds w}

/-! ## Two runs side by side -/

/-- The readers from which resolution goes as from `q`: they have met none but the chosen ids. -/
structure Ground {w : World} (ids : OwnIds w) (q r : Reader) : Prop where
  imports : r.names.imports = q.names.imports
  clear : r.names.Clear ids
  readsClasses : r.readsClasses = q.readsClasses

/-- The readers on the ground of `q` that have a property. -/
structure At {w : World} (ids : OwnIds w) (q : Reader) (P : Reader → Prop) (r : Reader) : Prop where
  ground : Ground ids q r
  holds : P r

/-- Properties that do not look at names. -/
def Nameless (P : Reader → Prop) : Prop :=
  ∀ r n, P r → P { r with names := n }

/-- Two runs give the same result whenever the second one meets none but the chosen ids; with the
flag, only its successes count.  Each of the two keeps a property of its reader. -/
def Sim {w : World} (ids : OwnIds w) (q : Reader) (onlyOk : Bool) (P P' : Reader → Prop) {α : Type}
    (x y : Run Reader α) : Prop :=
  ∀ r r', At ids q P r → At ids q P' r' → (y r').2.names.meetsOnly ids = true →
    (onlyOk = true → (y r').1.isOk = true) →
      (x r).1 = (y r').1 ∧ At ids q P (x r).2 ∧ At ids q P' (y r').2

/-- A run is matched by those that ask for solutions: it keeps a property of its reader, and where
it succeeds so do they, from some level on. -/
def Tracks {w : World} (ids : OwnIds w) (q : Reader) (P : Reader → Prop) {α : Type}
    (x : Nat → Run Reader α) (y : Run Reader α) : Prop :=
  ∀ r', At ids q P r' → (y r').2.names.meetsOnly ids = true →
    At ids q P (y r').2 ∧ ∀ a, (y r').1 = .ok a → ∃ k, ∀ k' ≥ k, ∀ r, Ground ids q r →
      (x k' r).1 = .ok a ∧ (x k' r).2.names.meetsOnly ids = true

section Sides

variable {q : Reader} {onlyOk : Bool} {p : Prop} {P P' : Reader → Prop} {α β : Type}

lemma Ground.later {r r' : Reader} (h : Ground ids q r) (hl : Later ids r r')
    (hr' : r'.names.meetsOnly ids = true) : Ground ids q r' where
  imports := hl.names.imports.trans h.imports
  clear := hl.names.clear h.clear hr'
  readsClasses := hl.readsClasses.trans h.readsClasses

lemma At.onNames {act : Run Names α} (hact : Uniform ids p act) (hP : Nameless P) {r : Reader}
    (h : At ids q P r) (hr : (act r.names).2.meetsOnly ids = true) :
    At ids q P (onNames act r).2 where
  ground := h.ground.later ⟨hact.later r.names, rfl, rfl, rfl⟩ hr
  holds := hP r _ h.holds

lemma Sim.onNames {act : Run Names α} (hact : Uniform ids p act) (hp : p) (hP : Nameless P)
    (hP' : Nameless P') : Sim ids q onlyOk P P' (onNames act) (onNames act) := by
  intro r r' hr hr' hend _
  obtain ⟨hsame, hend'⟩ := hact.agree hp r.names r'.names hr.ground.clear hr'.ground.clear
    (hr.ground.imports.trans hr'.ground.imports.symm) hend
  exact ⟨hsame, hr.onNames hact hP hend', hr'.onNames hact hP' hend⟩

/-- Two steps one after the other; `Q` is what the first one is known to give. -/
lemma Sim.bind {Q : α → Prop} {x y : Run Reader α} {f g : α → Run Reader β}
    (hxy : Sim ids q onlyOk P P' x y)
    (hQ : ∀ r', At ids q P' r' → (y r').2.names.meetsOnly ids = true →
      ∀ a, (y r').1 = .ok a → Q a)
    (hfg : ∀ a, Q a → Sim ids q onlyOk P P' (f a) (g a)) (hlater : ∀ a r, Later ids r (g a r).2) :
    Sim ids q onlyOk P P' (x >>= f) (y >>= g) := by
  intro r r' hr hr' hend hok
  have hmid := (later_bind hlater r').names.meetsOnly hend
  cases hy : (y r').1 with
  | error e =>
    rw [Run.bind_of_fst_error hy] at hok ⊢
    obtain ⟨hsame, hr₁, hr₁'⟩ := hxy r r' hr hr' hmid fun h => nomatch hok h
    rw [Run.bind_of_fst_error (hsame.trans hy)]
    exact ⟨rfl, hr₁, hr₁'⟩
  | ok a =>
    obtain ⟨hsame, hr₁, hr₁'⟩ := hxy r r' hr hr' hmid fun _ => by rw [hy]; rfl
    rw [Run.bind_of_fst_ok hy] at hend hok ⊢
    rw [Run.bind_of_fst_ok (hsame.trans hy)]
    exact hfg a (hQ r' hr' hmid a hy) _ _ hr₁ hr₁' hend hok

/-- Runs that ask are alike if the answers about the types that they may ask for are. -/
lemma Asking.sim {L : TypeId → Prop} {F : Oracle → Run Reader α}
    (hF : Asking ids q.names.imports p L F) (hp : p) (hP : Nameless P) (hP' : Nameless P')
    {so so' : Oracle}
    (hso : ∀ asAncestor type, L type →
      Sim ids q onlyOk P P' (so asAncestor type) (so' asAncestor type))
    (hlater : ∀ asAncestor type r, Later ids r (so' asAncestor type r).2) :
    Sim ids q onlyOk P P' (F so) (F so') := by
  induction hF with
  | pure a => exact fun r r' hr hr' _ _ => ⟨rfl, hr, hr'⟩
  | throw e => exact fun r r' hr hr' _ _ => ⟨rfl, hr, hr'⟩
  | names hact => exact .onNames hact hp hP hP'
  | ask asAncestor h => exact hso asAncestor _ h
  | @resolve _ _ scope f hs name hf hall ihf ihall =>
    refine (Sim.onNames (uniform_resolve hs name) hp hP hP').bind
      (fun r' hr' _ type htype => ?_) (fun type htype => ihf type htype hso)
      fun type => (hall type).later hlater
    rw [← hr'.ground.imports]
    exact denotes_of_resolve htype
  | flag hx hy ihx ihy =>
    intro r r' hr hr' hend hok
    dsimp only at hend hok ⊢
    by_cases hflag : q.readsClasses = true
    · have hflag' := hr'.ground.readsClasses.trans hflag
      rw [flag_pos _ _ hflag'] at hend hok
      rw [flag_pos _ _ (hr.ground.readsClasses.trans hflag), flag_pos _ _ hflag']
      exact ihx hso r r' hr hr' hend hok
    · have hflag' := hr'.ground.readsClasses.trans_ne hflag
      rw [flag_neg _ _ hflag'] at hend hok
      rw [flag_neg _ _ (hr.ground.readsClasses.trans_ne hflag), flag_neg _ _ hflag']
      exact ihy hso r r' hr hr' hend hok
  | bind hx hf ihx ihf =>
    exact (ihx hso).bind (fun _ _ _ _ _ => trivial) (fun a _ => ihf a hso)
      fun a => (hf a).later hlater

lemma Tracks.bind {x : Nat → Run Reader α} {f : Nat → α → Run Reader β}
    {y : Run Reader α} {g : α → Run Reader β} (hxy : Tracks ids q P x y)
    (hfg : ∀ a, Tracks ids q P (fun k => f k a) (g a))
    (hx : ∀ k r, Later ids r (x k r).2) (hg : ∀ a r, Later ids r (g a r).2) :
    Tracks ids q P (fun k => x k >>= f k) (y >>= g) := by
  intro r' hr' hend
  have hmid := (later_bind hg r').names.meetsOnly hend
  obtain ⟨hr₁', hok⟩ := hxy r' hr' hmid
  cases hy : (y r').1 with
  | error e =>
    rw [Run.bind_of_fst_error hy]
    exact ⟨hr₁', fun a ha => nomatch ha⟩
  | ok a =>
    rw [Run.bind_of_fst_ok hy] at hend ⊢
    obtain ⟨hr₂', hok₂⟩ := hfg a _ hr₁' hend
    refine ⟨hr₂', fun b hb => ?_⟩
    obtain ⟨k₁, hk₁⟩ := hok a hy
    obtain ⟨k₂, hk₂⟩ := hok₂ b hb
    refine ⟨max k₁ k₂, fun k hk r hr => ?_⟩
    obtain ⟨hres, hr₁⟩ := hk₁ k (Nat.le_trans (Nat.le_max_left k₁ k₂) hk) r hr
    dsimp only
    rw [Run.bind_of_fst_ok hres]
    exact hk₂ k (Nat.le_trans (Nat.le_max_right k₁ k₂) hk) _ (hr.later (hx k r) hr₁)

/-- Only the readers on the ground of `q` count. -/
lemma Tracks.congr {x x' : Nat → Run Reader α} {y y' : Run Reader α} (h : Tracks ids q P x y)
    (hx : ∀ k r, Ground ids q r → x' k r = x k r) (hy : ∀ r, Ground ids q r → y' r = y r) :
    Tracks ids q P x' y' := by
  intro r' hr' hend
  rw [hy r' hr'.ground] at hend ⊢
  obtain ⟨hr₁', hok⟩ := h r' hr' hend
  refine ⟨hr₁', fun a ha => ?_⟩
  obtain ⟨k, hk⟩ := hok a ha
  refine ⟨k, fun k' hk' r hr => ?_⟩
  rw [hx k' r hr]
  exact hk k' hk' r hr

lemma Tracks.onNames {act : Run Names α} (hact : Uniform ids p act) (hp : p) (hP : Nameless P) :
    Tracks ids q P (fun _ => Reader.onNames act) (Reader.onNames act) := by
  intro r' hr' hend
  refine ⟨hr'.onNames hact hP hend, fun a ha => ⟨0, fun k _ r hr => ?_⟩⟩
  obtain ⟨hsame, hend'⟩ := hact.agree hp r.names r'.names hr.clear hr'.ground.clear
    (hr.imports.trans hr'.ground.imports.symm) hend
  exact ⟨hsame.trans ha, hend'⟩

/-- A run that asks is matched if its answers are. -/
lemma Asking.tracks {imports : Keyed TypeId} {L : TypeId → Prop} {F : Oracle → Run Reader α}
    (hF : Asking ids imports p L F) (hp : p) (hP : Nameless P)
    {answers : Nat → TypeId → Option (Schema × Bool)} {so : Oracle}
    (hso : ∀ asAncestor type,
      Tracks ids q P (fun k => asked (answers k) asAncestor type) (so asAncestor type))
    (hlater : ∀ asAncestor type r, Later ids r (so asAncestor type r).2) :
    Tracks ids q P (fun k => F (asked (answers k))) (F so) := by
  induction hF with
  | pure a =>
    refine fun r' hr' _ => ⟨hr', fun b hb => ⟨0, fun k _ r hr => ⟨hb, hr.clear.meetsOnly⟩⟩⟩
  | throw e => exact fun r' hr' _ => ⟨hr', fun b hb => nomatch hb⟩
  | names hact => exact .onNames hact hp hP
  | ask asAncestor h => exact hso asAncestor _
  | resolve hs name hf hall ihf ihall =>
    have hact := uniform_resolve hs name
    exact (Tracks.onNames hact hp hP).bind (fun type => ihall type)
      (fun _ r => ⟨hact.later r.names, rfl, rfl, rfl⟩) fun type => (hall type).later hlater
  | flag hx hy ihx ihy =>
    by_cases hflag : q.readsClasses = true
    · exact ihx.congr (fun k r hr => flag_pos _ _ (hr.readsClasses.trans hflag))
        fun r hr => flag_pos _ _ (hr.readsClasses.trans hflag)
    · exact ihy.congr (fun k r hr => flag_neg _ _ (hr.readsClasses.trans_ne hflag))
        fun r hr => flag_neg _ _ (hr.readsClasses.trans_ne hflag)
  | bind hx hf ihx ihf =>
    exact ihx.bind ihf
      (fun k => hx.later (later_asked (answers k))) fun a => (hf a).later hlater

end Sides

/-! ## Sound caches -/

/-- Every cached schema is the solution of its type. -/
def Sound {w : World} (ids : OwnIds w) (q : Reader) (avoid : List TypeId) (r : Reader) : Prop :=
  ∀ type s, r.resolved.get? type = some s → ∃ k, solution ids q avoid k type = some (s, true)

/-- The readers in the midst of resolution: they have the registrations of `q`, a sound cache and a
given stack. -/
structure Standing {w : World} (ids : OwnIds w) (q : Reader) (avoid stack : List TypeId)
    (r : Reader) : Prop where
  declared : r.declared = q.declared
  sound : Sound ids q avoid r
  stack : r.stack = stack

section Standing

variable {q : Reader} {avoid stack : List TypeId}

lemma nameless_standing : Nameless (Standing ids q avoid stack) :=
  fun _ _ h => ⟨h.declared, h.sound, h.stack⟩

lemma At.opened {r : Reader} (h : At ids q (Standing ids q avoid stack) r) (type : TypeId) :
    At ids q (Standing ids q avoid (stack ++ [type])) (opened type r) where
  ground := ⟨h.ground.imports, h.ground.clear, h.ground.readsClasses⟩
  holds := ⟨h.holds.declared, h.holds.sound, by rw [Reader.opened, h.holds.stack]⟩

lemma names_closed (type : TypeId) (found : Except Error (Schema × Bool)) (r : Reader) :
    (closed type found r).names = r.names := by
  unfold closed
  split <;> rfl

/-- What is put into the cache is sound if it is the solution. -/
lemma At.closed {type : TypeId} {r : Reader} {found : Except Error (Schema × Bool)}
    (h : At ids q (Standing ids q avoid (stack ++ [type])) r)
    (hfound : ∀ s, found = .ok (s, true) → ∃ k, solution ids q avoid k type = some (s, true)) :
    At ids q (Standing ids q avoid stack) (closed type found r) := by
  have hstack : r.stack.dropLast = stack := by rw [h.holds.stack, List.dropLast_concat]
  unfold Reader.closed
  split
  · next s =>
    refine ⟨⟨h.ground.imports, h.ground.clear, h.ground.readsClasses⟩, h.holds.declared, ?_, hstack⟩
    intro other s' hget
    by_cases ho : other = type
    · subst ho
      rw [Keyed.get?_put_self] at hget
      cases hget
      exact hfound s rfl
    · rw [Keyed.get?_put_of_ne _ ho] at hget
      exact h.holds.sound other s' hget
  · exact ⟨⟨h.ground.imports, h.ground.clear, h.ground.readsClasses⟩, h.holds.declared,
      h.holds.sound, hstack⟩

lemma ground_bare (hq : q.names.Clear ids) : Ground ids q q.bare :=
  ⟨rfl, hq, rfl⟩

/-- An oracle that answers a question about a type with a solution by it. -/
def Answers {w : World} (ids : OwnIds w) (q : Reader) (P : Reader → Prop)
    (answers : TypeId → Option (Schema × Bool)) (so : Oracle) : Prop :=
  ∀ asAncestor type found r, answers type = some found → At ids q P r →
    (so asAncestor type r).1 = expect asAncestor type found ∧ At ids q P (so asAncestor type r).2

lemma Asking.sim_asked {α : Type} {F : Oracle → Run Reader α}
    (hF : Asking ids q.names.imports True (fun _ => True) F) {P : Reader → Prop} (hP : Nameless P)
    {answers : TypeId → Option (Schema × Bool)} {so : Oracle} (h : Answers ids q P answers so) :
    Sim ids q true P (fun _ => True) (F so) (F (asked answers)) := by
  refine hF.sim trivial hP (fun _ _ h => h) ?_ (later_asked answers)
  intro asAncestor type _ r r' hr hr' _ hok
  rw [asked_apply] at hok ⊢
  cases htype : answers type with
  | none =>
    rw [htype] at hok
    exact nomatch hok rfl
  | some found =>
    obtain ⟨hres, hend⟩ := h asAncestor type found r htype hr
    exact ⟨hres, hend, hr'⟩

/-- A type with a solution is resolved to it, whatever is cached, if the levels are enough for that
of the solution.  The types on the stack must not have a solution of that level. -/
lemma answers_resolveAmong (hq : q.names.Clear ids) {k n : Nat} (hkn : k ≤ n)
    (hstack : ∀ v ∈ stack, solution ids q avoid k v = none) :
    Answers ids q (Standing ids q avoid stack) (solution ids q avoid k)
      (resolveAmong w ids.docs n) := by
  intro asAncestor type found r hsol hr
  induction k generalizing type found stack n asAncestor r with
  | zero => cases hsol
  | succ k ih =>
    cases hc : r.resolved.get? type with
    | some s =>
      obtain ⟨k', hk'⟩ := hr.holds.sound type s hc
      cases solution_unique hsol hk'
      rw [resolveAmong_cached hc]
      exact ⟨rfl, hr⟩
    | none =>
      have hbelow : ∀ v ∈ stack, solution ids q avoid k v = none :=
        fun v hv => solution_eq_none_of_succ (hstack v hv)
      have htype : type ∉ r.stack := by
        intro hmem
        rw [hr.holds.stack] at hmem
        rw [hstack type hmem] at hsol
        cases hsol
      cases hk : solution ids q avoid k type with
      | some found' =>
        cases solution_unique hsol hk
        exact ih (Nat.le_of_succ_le hkn) hbelow asAncestor type found r hk hr
      | none =>
        obtain ⟨n, rfl⟩ := Nat.exists_eq_add_one_of_ne_zero (Nat.ne_zero_of_lt hkn)
        -- the type has no solution of the level below, so it may go on the stack
        have hopen : ∀ v ∈ stack ++ [type], solution ids q avoid k v = none := by
          simp only [List.mem_append, List.mem_singleton]
          rintro v (hv | rfl)
          · exact hbelow v hv
          · exact hk
        have hsim := (asking_resolveByDocs ids (bounds_true q.declared) type).sim_asked
          nameless_standing fun asAncestor type found r =>
            ih (Nat.le_of_succ_le_succ hkn) hopen asAncestor type found r
        obtain ⟨hrun, hend, -⟩ := solution_succ_eq_some.1 hsol
        obtain ⟨hres, hr₁, -⟩ := hsim _ q.bare (hr.opened type) ⟨ground_bare hq, trivial⟩ hend
          fun _ => by rw [hrun]; rfl
        rw [hrun] at hres
        rw [resolveAmong_fresh hc htype, hr.holds.declared]
        dsimp only
        refine ⟨by rw [hres]; rfl, hr₁.closed fun s hs => ⟨k + 1, ?_⟩⟩
        rw [hres] at hs
        cases hs
        exact hsol

/-- The oracle of a reader with a sound cache is matched by the solutions. -/
def Tracked {w : World} (ids : OwnIds w) (q : Reader) (avoid stack : List TypeId)
    (so : Oracle) : Prop :=
  ∀ asAncestor type, Tracks ids q (Standing ids q avoid stack)
    (fun k => asked (solution ids q avoid k) asAncestor type) (so asAncestor type)

/-- What one type is resolved to is its solution, if the answers are tracked. -/
lemma solution_of_resolveByAmong (hq : q.names.Clear ids) {type : TypeId} (htype : type ∉ avoid)
    {so : Oracle} (hso : Tracked ids q avoid stack so)
    (hlater : ∀ asAncestor type r, Later ids r (so asAncestor type r).2) {r : Reader}
    (hr : At ids q (Standing ids q avoid stack) r)
    (hend : (resolveByAmong w ids.docs q.declared type so r).2.names.meetsOnly ids = true) :
    At ids q (Standing ids q avoid stack) (resolveByAmong w ids.docs q.declared type so r).2 ∧
      ∀ found, (resolveByAmong w ids.docs q.declared type so r).1 = .ok found →
        ∃ k, solution ids q avoid k type = some found := by
  obtain ⟨hr', hok⟩ :=
    (asks_resolveByDocs ids q.declared type).tracks trivial nameless_standing hso hlater r hr hend
  refine ⟨hr', fun found hfound => ?_⟩
  obtain ⟨k, hk⟩ := hok found hfound
  obtain ⟨hrun, hend'⟩ := hk k (Nat.le_refl k) q.bare (ground_bare hq)
  exact ⟨k + 1, solution_succ_eq_some.2 ⟨hrun, hend', htype⟩⟩

/-- The answer that belongs to a solution is given from its level on. -/
lemma asked_of_solution {k : Nat} {type : TypeId} {found : Schema × Bool} {s : Schema}
    {asAncestor : Bool} (hsol : solution ids q avoid k type = some found)
    (hs : expect asAncestor type found = .ok s) :
    ∃ k, ∀ k' ≥ k, ∀ r, Ground ids q r →
      (asked (solution ids q avoid k') asAncestor type r).1 = .ok s ∧
        (asked (solution ids q avoid k') asAncestor type r).2.names.meetsOnly ids = true := by
  refine ⟨k, fun k' hk' r hr => ?_⟩
  rw [asked_apply, solution_mono hk' hsol]
  exact ⟨hs, hr.clear.meetsOnly⟩

/-- From a sound cache a type is resolved to its solution or not at all, and the cache stays sound
in either case. -/
lemma tracked_resolveAmong (hq : q.names.Clear ids) (n : Nat) (havoid : ∀ v ∈ avoid, v ∈ stack) :
    Tracked ids q avoid stack (resolveAmong w ids.docs n) := by
  intro asAncestor type r hr hend
  induction n using Nat.strongRecOn generalizing asAncestor type stack r with
  | _ n ih =>
    rcases resolveAmong_cases w ids.docs n asAncestor type r with
      ⟨s, hc, hrun⟩ | ⟨e, hrun⟩ | ⟨m, rfl, -, hs, hrun⟩
    · rw [hrun]
      obtain ⟨k, hk⟩ := hr.holds.sound type s hc
      exact ⟨hr, fun a ha => asked_of_solution hk ha⟩
    · rw [hrun]
      exact ⟨hr, fun a ha => nomatch ha⟩
    · rw [hrun, hr.holds.declared] at hend ⊢
      dsimp only at hend ⊢
      rw [names_closed] at hend
      have htype : type ∉ avoid := fun h => hs (by rw [hr.holds.stack]; exact havoid type h)
      have hopen : Tracked ids q avoid (stack ++ [type]) (resolveAmong w ids.docs m) :=
        fun asAncestor other r => ih m (Nat.lt_succ_self m)
          (fun v hv => List.mem_append_left [type] (havoid v hv)) asAncestor other r
      obtain ⟨hr', hsol⟩ := solution_of_resolveByAmong hq htype hopen
        (later_resolveAmong ids.docs m) (hr.opened type) hend
      refine ⟨hr'.closed fun s hs => hsol (s, true) hs, fun a ha => ?_⟩
      cases hres : (resolveByAmong w ids.docs q.declared type (resolveAmong w ids.docs m)
          (opened type r)).1 with
      | error e =>
        rw [hres] at ha
        cases ha
      | ok found =>
        rw [hres] at ha
        obtain ⟨k, hk⟩ := hsol found hres
        exact asked_of_solution hk ha

lemma not_cached_of_unsolved {type : TypeId} (hunsolved : ∀ k, solution ids q avoid k type = none)
    {r : Reader} (hr : At ids q (Standing ids q avoid stack) r) : r.resolved.get? type = none := by
  cases hc : r.resolved.get? type with
  | none => rfl
  | some s =>
    obtain ⟨k, hk⟩ := hr.holds.sound type s hc
    rw [hunsolved k] at hk
    cases hk

/-- A type without solution goes on both stacks, and is resolved alike if the types that it asks for
are. -/
lemma sim_resolveAmong_fresh (hq : q.names.Clear ids) {n m : Nat} {asAncestor : Bool}
    {type : TypeId} (havoid : ∀ v ∈ avoid, v ∈ stack) (hs : type ∉ stack)
    (hunsolved : ∀ k, solution ids q avoid k type = none)
    (hnested : ∀ asAncestor other, other ∈ nameable w q →
      Sim ids q false (Standing ids q avoid (stack ++ [type]))
        (Standing ids q avoid (stack ++ [type]))
        (resolveAmong w ids.docs n asAncestor other) (resolveAmong w ids.docs m asAncestor other)) :
    Sim ids q false (Standing ids q avoid stack) (Standing ids q avoid stack)
      (resolveAmong w ids.docs (n + 1) asAncestor type)
      (resolveAmong w ids.docs (m + 1) asAncestor type) := by
  intro r r' hr hr' hend _
  rw [resolveAmong_fresh (not_cached_of_unsolved hunsolved hr') (by rwa [hr'.holds.stack]),
    hr'.holds.declared] at hend ⊢
  rw [resolveAmong_fresh (not_cached_of_unsolved hunsolved hr) (by rwa [hr.holds.stack]),
    hr.holds.declared]
  dsimp only at hend ⊢
  rw [names_closed] at hend
  have hsim := (asking_resolveByDocs ids (bounds_nameable q) type).sim trivial nameless_standing
    nameless_standing hnested (later_resolveAmong ids.docs m)
  obtain ⟨hsame, hr₁, hr₁'⟩ := hsim _ _ (hr.opened type) (hr'.opened type) hend nofun
  obtain ⟨-, hsol⟩ := solution_of_resolveByAmong hq (fun h => hs (havoid type h))
    (tracked_resolveAmong hq m fun v hv => List.mem_append_left [type] (havoid v hv))
    (later_resolveAmong ids.docs m) (hr'.opened type) hend
  rw [hsame]
  exact ⟨rfl, hr₁.closed fun s hs => hsol (s, true) hs, hr₁'.closed fun s hs => hsol (s, true) hs⟩

/-- A type with a solution is resolved to it, however high its level is: room on the stack is
enough. -/
lemma resolveAmong_of_solution (hq : q.names.Clear ids) {types : List TypeId}
    (htypes : ∀ t ∈ nameable w q, t ∈ types) {n : Nat} (hn : Room types stack n)
    (hstack : ∀ v ∈ stack, ∀ k, solution ids q avoid k v = none) {k : Nat} {type : TypeId}
    {found : Schema × Bool} (hk : solution ids q avoid k type = some found) (htype : type ∈ types)
    (asAncestor : Bool) {r : Reader} (hr : At ids q (Standing ids q avoid stack) r) :
    (resolveAmong w ids.docs n asAncestor type r).1 = expect asAncestor type found ∧
      At ids q (Standing ids q avoid stack) (resolveAmong w ids.docs n asAncestor type r).2 := by
  have hroom : Room types r.stack n := by rwa [hr.holds.stack]
  have hsame :
      resolveAmong w ids.docs n asAncestor type r =
        resolveAmong w ids.docs (max n k) asAncestor type r := by
    refine resolveAmong_congr ?_ htype hroom (hroom.mono (Nat.le_max_left n k))
    rwa [nameable_congr hr.ground.imports hr.holds.declared]
  rw [hsame]
  exact answers_resolveAmong hq (Nat.le_max_right n k) (fun v hv => hstack v hv k) asAncestor type
    found r hk hr

/-- Two readers with sound caches and room on their stacks resolve a type alike, if no type on their
stack has a solution. -/
lemma sim_resolveAmong (hq : q.names.Clear ids) {types : List TypeId}
    (htypes : ∀ t ∈ nameable w q, t ∈ types) {n m : Nat} (hn : Room types stack n)
    (hm : Room types stack m) (havoid : ∀ v ∈ avoid, v ∈ stack)
    (hstack : ∀ v ∈ stack, ∀ k, solution ids q avoid k v = none) (asAncestor : Bool)
    {type : TypeId} (htype : type ∈ types) :
    Sim ids q false (Standing ids q avoid stack) (Standing ids q avoid stack)
      (resolveAmong w ids.docs n asAncestor type) (resolveAmong w ids.docs m asAncestor type) := by
  induction n using Nat.strongRecOn generalizing m asAncestor type stack with
  | _ n ih =>
    intro r r' hr hr' hend hok
    by_cases hsolved : ∃ k found, solution ids q avoid k type = some found
    · -- both readers come to the solution
      obtain ⟨k, found, hk⟩ := hsolved
      obtain ⟨hres, hend⟩ :=
        resolveAmong_of_solution hq htypes hn hstack hk htype asAncestor hr
      obtain ⟨hres', hend'⟩ :=
        resolveAmong_of_solution hq htypes hm hstack hk htype asAncestor hr'
      exact ⟨hres.trans hres'.symm, hend, hend'⟩
    · have hunsolved : ∀ k, solution ids q avoid k type = none := fun k =>
        Option.eq_none_iff_forall_ne_some.2 fun found hk => hsolved ⟨k, found, hk⟩
      by_cases hs : type ∈ stack
      · rw [resolveAmong_cycle (not_cached_of_unsolved hunsolved hr) (by rwa [hr.holds.stack]),
          resolveAmong_cycle (not_cached_of_unsolved hunsolved hr') (by rwa [hr'.holds.stack]),
          hr.holds.stack, hr'.holds.stack]
        exact ⟨rfl, hr, hr'⟩
      · obtain ⟨n, rfl, hn₁⟩ := hn.push htype hs
        obtain ⟨m, rfl, hm₁⟩ := hm.push htype hs
        have hopen : ∀ v ∈ stack ++ [type], ∀ k, solution ids q avoid k v = none := by
          simp only [List.mem_append, List.mem_singleton]
          rintro v (hv | rfl)
          · exact hstack v hv
          · exact hunsolved
        refine sim_resolveAmong_fresh hq havoid hs hunsolved ?_ r r' hr hr' hend hok
        intro asAncestor other hother
        exact ih n (Nat.lt_succ_self n) hn₁ hm₁
          (fun v hv => List.mem_append_left [type] (havoid v hv)) hopen asAncestor
          (htypes other hother)

end Standing

end Reader
end DocTags
