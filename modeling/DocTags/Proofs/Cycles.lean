import DocTags.Proofs.Dependencies
import Mathlib.Algebra.Order.BigOperators.Group.List
import Mathlib.Algebra.Order.Group.Nat
import Mathlib.Data.List.Chain
import Mathlib.Logic.Relation
import Mathlib.Order.Lattice.Nat

/-!
# Cycles

A type that is met again while it is being resolved is reported, with the part of the stack that
begins with it.  Each type on the stack was asked for by the one before, so the stack is a way along
dependencies (`OnWay`) and the reported part is a cycle.

Conversely, a type gets into the cache when all its questions have been answered, so it depends on
types that were settled before it (`Settled`).  A type that is cached in the course of a call can
therefore not be part of a cycle.  The main statement, `cycle_reports_exact`, puts the two together,
and says for registered types that a cycle is reported whenever there is one.
-/

namespace DocTags
namespace Reader

open Names
open Relation (ReflTransGen TransGen)

variable {w : World}

/-! ## The cycles that are reported -/

/-- A way along a relation that comes back to its beginning, and to nothing else. -/
structure IsCycle (D : TypeId → TypeId → Prop) (c : List TypeId) : Prop where
  two_le : 2 ≤ c.length
  ends : c.head? = c.getLast?
  nodup : c.dropLast.Nodup
  chain : c.IsChain D

lemma IsCycle.mono {D D' : TypeId → TypeId → Prop} {c : List TypeId} (h : IsCycle D c)
    (hD : ∀ {a b}, D a b → D' a b) : IsCycle D' c :=
  ⟨h.two_le, h.ends, h.nodup, h.chain.imp fun _ _ => hD⟩

/-- A way that comes back to a place on it makes a cycle from this place on. -/
lemma isCycle_dropWhile {D : TypeId → TypeId → Prop} {stack : List TypeId} {type : TypeId}
    (hnodup : stack.Nodup) (hmem : type ∈ stack) (hchain : (stack ++ [type]).IsChain D) :
    IsCycle D (stack.dropWhile (· != type) ++ [type]) := by
  obtain ⟨before, rest, rfl, hbefore⟩ := List.eq_append_cons_of_mem hmem
  have hdrop : (before ++ type :: rest).dropWhile (· != type) = type :: rest := by
    have hother : ∀ t ∈ before, (t != type) = true := by
      intro t ht
      rw [bne_iff_ne]
      rintro rfl
      exact hbefore ht
    rw [List.dropWhile_append_of_pos hother]
    simp
  rw [hdrop]
  rw [List.append_assoc] at hchain
  refine ⟨by simp, ?_, ?_, hchain.right_of_append⟩
  · rw [List.getLast?_concat]
    rfl
  · rw [List.dropLast_concat]
    exact (List.nodup_append.1 hnodup).2.1

/-- The state of a reader on the way from the type `start`, right before a type is asked for: the
stack is a way along dependencies that leads to this type. -/
structure OnWay (w : World) (q : Reader) (start : TypeId) (r : Reader) (type : TypeId) :
    Prop where
  names : Extends (.everywhere w) q.names r.names
  declared : r.declared = q.declared
  nodup : r.stack.Nodup
  chain : (r.stack ++ [type]).IsChain (DependsOn w q r)
  reached : ∀ t ∈ r.stack ++ [type], ReflTransGen (DependsOn w q r) start t

lemma OnWay.push {q r r₀ r₁ : Reader} {start type other : TypeId} {qs : List Question}
    {question : Question} (h : OnWay w q start r type) (hs : type ∉ r.stack)
    (hqs : questions? w r.declared r.names type = some qs) (hq : question ∈ qs)
    (hr₀ : Later (.everywhere w) (opened type r) r₀) (hmeans : question.Means w r₀.names other)
    (hr₁ : Later (.everywhere w) r₀ r₁) : OnWay w q start r₁ other := by
  have hlater := hr₀.trans hr₁
  have hgrows : Extends (.everywhere w) r.names r₁.names := hlater.names
  have hstack : r₁.stack = r.stack ++ [type] := hlater.stack
  have hdepends : DependsOn w q r₁ type other := by
    refine ⟨r.names, r₀.names, ⟨h.names, hgrows⟩, ⟨h.names.trans hr₀.names, hr₁.names⟩, qs, ?_,
      question, hq, hmeans⟩
    rw [← h.declared]
    exact hqs
  have hreached : ∀ t ∈ r.stack ++ [type], ReflTransGen (DependsOn w q r₁) start t := fun t ht =>
    ReflTransGen.mono (fun _ _ hdep => DependsOn.mono hdep hgrows) start t (h.reached t ht)
  refine ⟨h.names.trans hgrows, hlater.declared.trans h.declared, ?_, ?_, ?_⟩
  · rw [hstack]
    simpa using h.nodup.concat hs
  · rw [hstack]
    refine (h.chain.imp fun _ _ hdep => hdep.mono hgrows).append (.singleton _) ?_
    simpa using hdepends
  · rw [hstack]
    intro t ht
    rcases List.mem_append.1 ht with ht | ht
    · exact hreached t ht
    · obtain rfl := List.mem_singleton.1 ht
      exact (hreached type (by simp)).tail hdepends

/-- A cycle is reported on the way along dependencies: it is the end of this way. -/
lemma isCycle_of_resolveWithin {q : Reader} {start : TypeId} {n : Nat} {asAncestor : Bool}
    {type : TypeId} {r r' : Reader} {c : List TypeId} (h : OnWay w q start r type)
    (hrun : resolveWithin w n asAncestor type r = (.error (.cycle c), r')) :
    IsCycle (DependsOn w q r') c ∧ ∀ t ∈ c, ReflTransGen (DependsOn w q r') start t := by
  induction n using Nat.strongRecOn generalizing asAncestor type r r' with
  | _ n ih =>
    rcases resolveWithin_eq_error hrun rfl with
      ⟨hs, hcycle, rfl⟩ | ⟨-, -, hdeep, -⟩ | ⟨m, r₂, rfl, hs, hres, rfl⟩
    · obtain rfl := Error.cycle.inj hcycle
      refine ⟨isCycle_dropWhile h.nodup hs h.chain, fun t ht => h.reached t ?_⟩
      rcases List.mem_append.1 ht with ht | ht
      · exact List.mem_append_left _ ((List.dropWhile_suffix _).subset ht)
      · exact List.mem_append_right _ ht
    · cases hdeep
    · obtain ⟨qs, hqs, question, hq, other, r₁, ⟨r₀, hr₀, hmeans, hr₁⟩, hblames⟩ :=
        failure_resolveBy (steps_later m) hres rfl
      obtain ⟨asAncestor', hanswer⟩ := hblames.error nofun
      have hend : ∀ {a b}, DependsOn w q r₂ a b →
          DependsOn w q (closed type (.error (.cycle c)) r₂) a b := fun hdep => hdep.mono (.refl _)
      obtain ⟨hcycle, hreached⟩ :=
        ih m (Nat.lt_succ_self m) (h.push hs hqs hq hr₀ hmeans hr₁) hanswer
      exact ⟨hcycle.mono hend, fun t ht =>
        ReflTransGen.mono (fun _ _ => hend) start t (hreached t ht)⟩

/-! ## Types that are resolved -/

/-- A type whose dependencies have an end: at some time of the call it depends on types of lower
rank only, and these are settled too. -/
inductive Settled (w : World) (r r' : Reader) : Nat → TypeId → Prop
  | intro {k : Nat} {type : TypeId} {others : List TypeId} (rank : TypeId → Nat)
      (depends : Depends w r r' type others) (lower : ∀ other ∈ others, rank other < k)
      (settled : ∀ other ∈ others, Settled w r r' (rank other) other) : Settled w r r' k type

namespace Settled

variable {r r₁ r' : Reader}

lemma mono {k : Nat} {type : TypeId} (h : Settled w r r₁ k type)
    (hend : Extends (.everywhere w) r₁.names r'.names) : Settled w r r' k type := by
  induction h with
  | intro rank depends lower settled ih => exact .intro rank (depends.mono hend) lower ih

lemma of_depends {type : TypeId} {others : List TypeId} (h : Depends w r r' type others)
    (hothers : ∀ other ∈ others, ∃ k, Settled w r r' k other) :
    ∃ k, Settled w r r' k type := by
  choose! rank hrank using hothers
  refine ⟨(others.map rank).sum + 1, .intro rank h (fun other hother => ?_) hrank⟩
  exact Nat.lt_succ_of_le (List.le_sum_of_mem (List.mem_map_of_mem hother))

/-- The dependencies of settled types can be chosen so that no type depends on itself: the choice
takes each type at its least rank. -/
lemma exists_acyclic {k : Nat} {type : TypeId} (h : Settled w r r' k type) :
    ∃ D : TypeId → List TypeId, ∀ t, ReflTransGen (fun a b => b ∈ D a) type t →
      Depends w r r' t (D t) ∧ ¬ TransGen (fun a b => b ∈ D a) t t := by
  let rank (t : TypeId) : Nat := sInf {k | Settled w r r' k t}
  have hchoice : ∀ t, ∃ others, (∃ k, Settled w r r' k t) → Depends w r r' t others ∧
      ∀ other ∈ others, (∃ k, Settled w r r' k other) ∧ rank other < rank t := by
    intro t
    by_cases ht : ∃ k, Settled w r r' k t
    · obtain ⟨rank', hdepends, hlower, hsettled⟩ : Settled w r r' (rank t) t := Nat.sInf_mem ht
      refine ⟨_, fun _ => ⟨hdepends, fun other hother => ⟨⟨_, hsettled other hother⟩, ?_⟩⟩⟩
      exact Nat.lt_of_le_of_lt (Nat.sInf_le (hsettled other hother)) (hlower other hother)
    · exact ⟨[], fun hsettled => absurd hsettled ht⟩
  choose D hD using hchoice
  have hreached : ∀ {t}, ReflTransGen (fun a b => b ∈ D a) type t → ∃ k, Settled w r r' k t := by
    intro t ht
    induction ht with
    | refl => exact ⟨k, h⟩
    | tail _ hmem ih => exact (((hD _ ih).2 _ hmem)).1
  have hlower : ∀ {t t'}, TransGen (fun a b => b ∈ D a) t t' → (∃ k, Settled w r r' k t) →
      (∃ k, Settled w r r' k t') ∧ rank t' < rank t := by
    intro t t' htrans ht
    induction htrans with
    | single hmem => exact (hD t ht).2 _ hmem
    | tail _ hmem ih =>
      have hnext := (hD _ ih.1).2 _ hmem
      exact ⟨hnext.1, hnext.2.trans ih.2⟩
  refine ⟨D, fun t ht => ⟨(hD t (hreached ht)).1, fun hcycle => ?_⟩⟩
  exact Nat.lt_irrefl _ (hlower hcycle (hreached ht)).2

end Settled

/-- A reader in the course of a call that began at `q`: all types in its cache are settled. -/
structure CacheSettled (w : World) (q r : Reader) : Prop where
  names : Extends (.everywhere w) q.names r.names
  declared : r.declared = q.declared
  types : ∀ type s, r.resolved.get? type = some s → ∃ k, Settled w q r k type

namespace CacheSettled

variable {q r : Reader}

lemma opened (h : CacheSettled w q r) (type : TypeId) : CacheSettled w q (opened type r) := by
  refine ⟨h.names, h.declared, fun other s hget => ?_⟩
  obtain ⟨k, hk⟩ := h.types other s hget
  exact ⟨k, hk.mono (.refl _)⟩

lemma closed (h : CacheSettled w q r) {type : TypeId} {found : Except Error (Schema × Bool)}
    (htype : ∀ s, found = .ok (s, true) → ∃ k, Settled w q r k type) :
    CacheSettled w q (closed type found r) := by
  have hmono : ∀ {r' : Reader} {other : TypeId}, r'.names = r.names →
      (∃ k, Settled w q r k other) → ∃ k, Settled w q r' k other := by
    rintro r' other hnames ⟨k, hk⟩
    exact ⟨k, hk.mono (hnames ▸ .refl _)⟩
  unfold Reader.closed
  split
  · next s =>
    refine ⟨h.names, h.declared, fun other s' hget => hmono rfl ?_⟩
    by_cases hother : other = type
    · rw [hother]
      exact htype s rfl
    · rw [Keyed.get?_put_of_ne _ hother] at hget
      exact h.types other s' hget
  · exact ⟨h.names, h.declared, fun other s' hget => hmono rfl (h.types other s' hget)⟩

end CacheSettled

/-- What resolution may do to a reader: it goes on from there, and a settled cache stays settled. -/
structure Settles (w : World) (q r r' : Reader) : Prop where
  later : Later (.everywhere w) r r'
  cache : CacheSettled w q r → CacheSettled w q r'

namespace Settles

variable {q r r₁ r₂ : Reader}

lemma refl (r : Reader) : Settles w q r r :=
  ⟨.refl r, fun h => h⟩

lemma trans (h : Settles w q r r₁) (h₁ : Settles w q r₁ r₂) : Settles w q r r₂ :=
  ⟨h.later.trans h₁.later, fun hr => h₁.cache (h.cache hr)⟩

lemma names (h : NamesOnly (.everywhere w) r r₁) : Settles w q r r₁ := by
  obtain ⟨n, hn, rfl⟩ := h
  refine ⟨⟨hn, rfl, rfl, rfl⟩, fun hr => ⟨hr.names.trans hn, hr.declared, fun type s hget => ?_⟩⟩
  obtain ⟨k, hk⟩ := hr.types type s hget
  exact ⟨k, hk.mono hn⟩

end Settles

/-- If the answers of an oracle are about settled types, then a type that was resolved with them is
settled: its questions are about these. -/
lemma settled_of_resolveBy {q r r' : Reader} {so : Oracle} {type : TypeId} {found : Schema × Bool}
    (hsteps : Steps w so (Settles w q))
    (hso : ∀ {asAncestor other r s r'}, CacheSettled w q r →
      so asAncestor other r = (.ok s, r') → ∃ k, Settled w q r' k other)
    (hcache : CacheSettled w q r) (hrun : resolveBy w q.declared type so r = (.ok found, r')) :
    ∃ k, Settled w q r' k type := by
  obtain ⟨qs, hqs, hanswers⟩ := success_resolveBy hsteps hrun
  have hend := step_resolveBy hsteps q.declared type r
  rw [hrun] at hend
  have hdepends : ∀ question ∈ qs, ∃ other, (∃ n, Between w q r' n ∧ question.Means w n other) ∧
      ∃ k, Settled w q r' k other := by
    intro question hq
    obtain ⟨other, r₁, ⟨r₀, hr₀, hmeans, hr₁⟩, asAncestor, s, r₂, hanswer, hr₂⟩ :=
      hanswers question hq
    have hanswered := hsteps.answer asAncestor other r₁
    rw [hanswer] at hanswered
    have hcache₀ := hr₀.cache hcache
    obtain ⟨k, hk⟩ := hso (hr₁.cache hcache₀) hanswer
    refine ⟨other, ⟨r₀.names, ⟨hcache₀.names, ?_⟩, hmeans⟩, k, hk.mono hr₂.later.names⟩
    exact (hr₁.trans (hanswered.trans hr₂)).later.names
  choose! other hother using hdepends
  have hall : Depends w q r' type (qs.map other) := by
    refine ⟨r.names, ⟨hcache.names, hend.later.names⟩, qs, hqs, ?_⟩
    rw [List.forall₂_map_right_iff, List.forall₂_same]
    exact fun question hq => (hother question hq).1
  refine Settled.of_depends hall fun t ht => ?_
  obtain ⟨question, hq, rfl⟩ := List.mem_map.1 ht
  exact (hother question hq).2

/-- From a settled cache, a type that is resolved is settled, and the cache stays settled. -/
lemma settles_resolveWithin {q : Reader} (n : Nat) (asAncestor : Bool) (type : TypeId)
    (r : Reader) :
    Settles w q r (resolveWithin w n asAncestor type r).2 ∧
      (CacheSettled w q r → ∀ {s r'}, resolveWithin w n asAncestor type r = (.ok s, r') →
        ∃ k, Settled w q r' k type) := by
  induction n using Nat.strongRecOn generalizing asAncestor type r with
  | _ n ih =>
    rcases resolveWithin_cases w n asAncestor type r with
      ⟨s, hs, hrun⟩ | ⟨e, hrun⟩ | ⟨m, rfl, -, hs, hrun⟩
    · rw [hrun]
      refine ⟨.refl r, fun hcache s' r' h => ?_⟩
      cases h
      exact hcache.types type s hs
    · rw [hrun]
      exact ⟨.refl r, fun _ => nofun⟩
    · have hsteps : Steps w (resolveWithin w m) (Settles w q) :=
        ⟨.refl, .trans, .names, fun asAncestor other r =>
          (ih m m.lt_succ_self asAncestor other r).1⟩
      have hlater : Later (.everywhere w) r (resolveWithin w (m + 1) asAncestor type r).2 :=
        later_resolveWithin (m + 1) asAncestor type r
      have hstep := step_resolveBy hsteps r.declared type (opened type r)
      have hsettled : CacheSettled w q r → ∀ {found r₁},
          resolveBy w r.declared type (resolveWithin w m) (opened type r) = (.ok found, r₁) →
          ∃ k, Settled w q r₁ k type := by
        intro hcache found r₁ hres
        rw [hcache.declared] at hres
        exact settled_of_resolveBy hsteps
          (fun hr h => (ih m m.lt_succ_self _ _ _).2 hr h) (hcache.opened type) hres
      rw [hrun] at hlater ⊢
      rcases hres : resolveBy w r.declared type (resolveWithin w m) (opened type r) with
        ⟨found, r₁⟩
      rw [hres] at hlater hstep
      refine ⟨⟨hlater, fun hcache => ?_⟩, fun hcache s r' hend => ?_⟩
      · refine (hstep.cache (hcache.opened type)).closed fun s hfound => ?_
        exact hsettled hcache (hres.trans (Prod.ext hfound rfl))
      · obtain ⟨hfound, rfl⟩ := Prod.mk.inj hend
        cases found with
        | error e => cases hfound
        | ok found =>
          obtain ⟨k, hk⟩ := hsettled hcache hres
          refine ⟨k, hk.mono ?_⟩
          rw [closed_names]
          exact .refl _

/-! ## Registered types -/

/-- The type that a registered type extends, as it is named. -/
def parentOf? (r : Reader) (type : TypeId) : Option TypeId :=
  (r.declared.get? type).bind extended?

/-- Where one comes by so many steps from a type to its parent. -/
def ancestor? (r : Reader) : Nat → TypeId → Option TypeId
  | 0, type => some type
  | k + 1, type => (parentOf? r type).bind (ancestor? r k)

/-- A type is registered, and its parent is named by its type id. -/
def NamedById (w : World) (r : Reader) (type : TypeId) : Prop :=
  r.declared.has type = true ∧
    ∀ parent, parentOf? r type = some parent → (resolve w [] parent r.names).1 = .ok parent

section Registered

variable {q r : Reader}

lemma ancestor?_add (i j : Nat) (type : TypeId) :
    ancestor? r (i + j) type = (ancestor? r i type).bind (ancestor? r j) := by
  induction i generalizing type with
  | zero => rw [Nat.zero_add, ancestor?, Option.bind_some]
  | succ i ih =>
    rw [Nat.succ_add, ancestor?, ancestor?, Option.bind_assoc]
    exact congrArg _ (funext ih)

/-- Where the way to the ancestors comes back, it has no end. -/
lemma ancestor?_ne_none {m : Nat} {type : TypeId} (hm : 0 < m)
    (h : ancestor? r m type = some type) (k : Nat) : ancestor? r k type ≠ none := by
  induction k using Nat.strongRecOn with
  | _ k ih =>
    intro hnone
    by_cases hk : k < m
    · obtain ⟨d, rfl⟩ := Nat.exists_eq_add_of_lt hk
      rw [Nat.add_assoc, ancestor?_add, hnone] at h
      cases h
    · obtain ⟨d, rfl⟩ := Nat.exists_eq_add_of_le (Nat.not_lt.1 hk)
      rw [ancestor?_add, h, Option.bind_some] at hnone
      exact ih d (by omega) hnone

lemma ancestor?_of_isChain {type : TypeId} {types : List TypeId}
    (h : (type :: types).IsChain fun a b => parentOf? r a = some b) :
    ancestor? r types.length type = (type :: types).getLast? := by
  induction types generalizing type with
  | nil => rfl
  | cons other types ih =>
    rw [List.isChain_cons_cons] at h
    rw [List.length_cons, ancestor?, h.1, Option.bind_some, ih h.2, List.getLast?_cons_cons]

/-- A type id that means itself goes on to do so. -/
lemma resolve_self_mono {n n' : Names} {scope : Scope} {type : TypeId}
    (h : (resolve w scope type n).1 = .ok type) (hn : Extends (.everywhere w) n n') :
    (resolve w scope type n').1 = .ok type := by
  rw [resolve_apply] at h
  rw [resolve_apply, hn.imports]
  cases himport : n.imports.get? type with
  | some other =>
    rw [himport] at h
    exact h
  | none =>
    rw [himport] at h
    dsimp only at h ⊢
    by_cases hknown : n'.known.has type = true
    · rw [if_pos hknown]
    · have hbefore : ¬ n.known.has type = true := fun hbefore => hknown (hn.known type hbefore)
      rw [if_neg hbefore] at h
      rw [if_neg hknown]
      cases htype : typeAt? w scope type with
      | none =>
        rw [htype] at h
        cases h
      | some other =>
        rw [htype] at h
        exact h

/-- A registered type depends on its parent only. -/
lemma parentOf?_of_dependsOn {r' : Reader} {type other : TypeId} (h : NamedById w r type)
    (hdep : DependsOn w r r' type other) : parentOf? r type = some other := by
  obtain ⟨n, n', -, hn', qs, hqs, question, hq, hmeans⟩ := hdep
  obtain ⟨s, hs⟩ := Option.isSome_iff_exists.1 (Keyed.has_eq_isSome_get? _ _ ▸ h.1)
  have hparentOf : parentOf? r type = extended? s := by rw [parentOf?, hs, Option.bind_some]
  rcases mem_questions hqs hq with ⟨s', parent, hs', hparent, rfl⟩ | ⟨found, hnone, -, -⟩
  · obtain rfl := Option.some.inj (hs.symm.trans hs')
    rw [← hparentOf] at hparent
    have hself := resolve_self_mono (h.2 parent hparent) hn'.1
    rw [hparent, Except.ok.inj (hself.symm.trans hmeans)]
  · rw [hs] at hnone
    cases hnone

/-- If registered types are resolved from an empty cache, the way to the ancestors has an end unless
a cycle is reported. -/
lemma ancestors_end {n : Nat} {asAncestor : Bool} {type : TypeId}
    (hnamed : ∀ k t, ancestor? q k type = some t → NamedById w q t)
    (hnames : Extends (.everywhere w) q.names r.names) (hdeclared : r.declared = q.declared)
    (hresolved : r.resolved = [])
    (hcycle : ∀ c, (resolveWithin w n asAncestor type r).1 ≠ .error (.cycle c))
    (hdeep : (resolveWithin w n asAncestor type r).1 ≠ .error .tooDeep) :
    ∃ k, ancestor? q k type = none := by
  induction n generalizing asAncestor type r with
  | zero =>
    have hnone : r.resolved.get? type = none := by rw [hresolved]; rfl
    by_cases hs : type ∈ r.stack
    · exact absurd (congrArg Prod.fst (resolveWithin_cycle hnone hs)) (hcycle _)
    · exact absurd (congrArg Prod.fst (resolveWithin_zero hnone hs)) hdeep
  | succ m ih =>
    have hnone : r.resolved.get? type = none := by rw [hresolved]; rfl
    by_cases hs : type ∈ r.stack
    · exact absurd (congrArg Prod.fst (resolveWithin_cycle hnone hs)) (hcycle _)
    obtain ⟨hhas, hself⟩ := hnamed 0 type rfl
    obtain ⟨s, hdecl⟩ := Option.isSome_iff_exists.1 (Keyed.has_eq_isSome_get? _ _ ▸ hhas)
    have hparentOf : parentOf? q type = extended? s := by rw [parentOf?, hdecl, Option.bind_some]
    cases hparent : parentOf? q type with
    | none => exact ⟨1, by rw [ancestor?, hparent, Option.bind_none]⟩
    | some parent =>
      let r₁ := (onNames (resolve w [] parent) (opened type r)).2
      have hresolve : onNames (resolve w [] parent) (opened type r) = (.ok parent, r₁) :=
        Prod.ext (resolve_self_mono (hself parent hparent) hnames) rfl
      have hr₁ : Extends (.everywhere w) q.names r₁.names :=
        hnames.trans ((uniform_resolve (p := False) False.elim parent).later r.names)
      -- The parent is asked for right away, so its error is that of the type.
      have hrun : ∀ e, (resolveWithin w m true parent r₁).1 = .error e →
          (resolveWithin w (m + 1) asAncestor type r).1 = .error e := by
        intro e he
        have hdeclaredBy : resolveDeclared w (resolveWithin w m true) type s (opened type r) =
            (.error e, (resolveWithin w m true parent r₁).2) := by
          rw [resolveDeclared_eq, ← hparentOf, hparent]
          exact (Run.bind_ok hresolve _).trans (Run.bind_of_fst_error he _)
        rw [resolveWithin_fresh hnone hs, hdeclared, resolveBy, hdecl, resolveFresh,
          Run.bind_error hdeclaredBy]
        rfl
      obtain ⟨k, hk⟩ := ih (fun k t ht => hnamed (k + 1) t (by rw [ancestor?, hparent]; exact ht))
        hr₁ hdeclared hresolved (fun c hc => hcycle c (hrun _ hc)) fun hc => hdeep (hrun _ hc)
      exact ⟨k + 1, by rw [ancestor?, hparent, Option.bind_some, hk]⟩

end Registered

/-! ## Reports are exact -/

/-- No type that can be reached from a type depends on itself. -/
def Acyclic (D : TypeId → TypeId → Prop) (type : TypeId) : Prop :=
  ∀ t, ReflTransGen D type t → ¬ TransGen D t t

/-- A relation that keeps within another one, wherever that leads, is acyclic if that one is. -/
lemma Acyclic.of_subset {D D' : TypeId → TypeId → Prop} {type : TypeId} (h : Acyclic D type)
    (hD : ∀ t t', ReflTransGen D type t → D' t t' → D t t') : Acyclic D' type := by
  have hreach : ∀ {t}, ReflTransGen D' type t → ReflTransGen D type t := by
    intro t ht
    induction ht with
    | refl => exact .refl
    | tail _ hstep ih => exact ih.tail (hD _ _ ih hstep)
  intro t ht hcycle
  have htrans : ∀ {t'}, TransGen D' t t' → TransGen D t t' := by
    intro t' ht'
    induction ht' with
    | single hstep => exact .single (hD _ _ (hreach ht) hstep)
    | tail _ hstep ih => exact ih.tail (hD _ _ ((hreach ht).trans ih.to_reflTransGen) hstep)
  exact h t (hreach ht) (htrans hcycle)

section Calls

variable {r : Reader} {type : TypeArg}

lemma isCycle_of_schema {c : List TypeId} (hstack : r.stack = [])
    (h : (schema w type r).1 = .error (.cycle c)) :
    IsCycle (DependsOn w r (schema w type r).2) c ∧
      ∀ t ∈ c, ReflTransGen (DependsOn w r (schema w type r).2) type.key t := by
  obtain ⟨r₁, -, hr₁, hrun⟩ := schema_eq (w := w) type r
  have hempty : r₁.stack = [] := hr₁.later.stack.trans hstack
  have hway : OnWay w r type.key r₁ type.key := by
    refine ⟨hr₁.later.names, hr₁.later.declared, ?_, ?_, fun t ht => ?_⟩
    · rw [hempty]
      exact List.nodup_nil
    · rw [hempty]
      exact .singleton _
    · rw [hempty] at ht
      rw [List.mem_singleton.1 ht]
  exact isCycle_of_resolveWithin hway (hrun.symm.trans (Prod.ext h rfl))

lemma settled_of_schema {s : Schema} (hresolved : r.resolved = [])
    (h : (schema w type r).1 = .ok s) : ∃ k, Settled w r (schema w type r).2 k type.key := by
  obtain ⟨r₁, -, hr₁, hrun⟩ := schema_eq (w := w) type r
  have hcache : CacheSettled w r r₁ := by
    refine ⟨hr₁.later.names, hr₁.later.declared, fun other s' hget => ?_⟩
    rw [hr₁.resolved, hresolved] at hget
    cases hget
  exact (settles_resolveWithin _ false type.key r₁).2 hcache (hrun.symm.trans (Prod.ext h rfl))

/-- The ways from a registered type along dependencies are those to its ancestors. -/
lemma ancestor?_of_reflTransGen {r' : Reader} {start t : TypeId}
    (hnamed : ∀ k t, ancestor? r k start = some t → NamedById w r t)
    (h : ReflTransGen (DependsOn w r r') start t) : ∃ k, ancestor? r k start = some t := by
  induction h with
  | refl => exact ⟨0, rfl⟩
  | tail _ hstep ih =>
    obtain ⟨k, hk⟩ := ih
    refine ⟨k + 1, ?_⟩
    rw [ancestor?_add, hk, Option.bind_some, ancestor?,
      parentOf?_of_dependsOn (hnamed k _ hk) hstep]
    rfl

lemma exists_ancestor?_eq_of_isCycle {r' : Reader} {start : TypeId} {c : List TypeId}
    (hnamed : ∀ k t, ancestor? r k start = some t → NamedById w r t)
    (hcycle : IsCycle (DependsOn w r r') c)
    (hreached : ∀ t ∈ c, ReflTransGen (DependsOn w r r') start t) :
    ∃ i j t, i < j ∧ ancestor? r i start = some t ∧ ancestor? r j start = some t := by
  obtain ⟨first, rest, rfl⟩ :=
    List.exists_cons_of_length_pos (Nat.lt_of_lt_of_le Nat.two_pos hcycle.two_le)
  have hparents : (first :: rest).IsChain fun a b => parentOf? r a = some b := by
    refine hcycle.chain.imp_of_mem_imp fun a b ha _ hdep => ?_
    obtain ⟨k, hk⟩ := ancestor?_of_reflTransGen hnamed (hreached a ha)
    exact parentOf?_of_dependsOn (hnamed k a hk) hdep
  obtain ⟨i, hi⟩ := ancestor?_of_reflTransGen hnamed (hreached first (List.mem_cons_self ..))
  have hlength := hcycle.two_le
  rw [List.length_cons] at hlength
  refine ⟨i, i + rest.length, first, by omega, hi, ?_⟩
  rw [ancestor?_add, hi, Option.bind_some, ancestor?_of_isChain hparents, ← hcycle.ends]
  rfl

lemma isCycle_of_ancestor?_eq {i j : Nat} {t : TypeId} (hstack : r.stack = [])
    (hresolved : r.resolved = [])
    (hnamed : ∀ k t, ancestor? r k type.key = some t → NamedById w r t) (hij : i < j)
    (hi : ancestor? r i type.key = some t) (hj : ancestor? r j type.key = some t) :
    ∃ c, (schema w type r).1 = .error (.cycle c) := by
  by_contra hcycle
  obtain ⟨r₁, -, hr₁, hrun⟩ := schema_eq (w := w) type r
  rw [hrun] at hcycle
  have hroom : Room (type.key :: nameable w r₁) r₁.stack (depth w r₁) := by
    rw [hr₁.later.stack, hstack]
    exact room_depth w type.key r₁
  have hdeep : (resolveWithin w (depth w r₁) false type.key r₁).1 ≠ .error .tooDeep :=
    resolveWithin_ne_tooDeep (fun _ => List.mem_cons_of_mem type.key) (List.mem_cons_self ..) hroom
  obtain ⟨k, hk⟩ := ancestors_end hnamed hr₁.later.names hr₁.later.declared
    (hr₁.resolved.trans hresolved) (fun c hc => hcycle ⟨c, hc⟩) hdeep
  obtain ⟨d, rfl⟩ := Nat.exists_eq_add_of_lt hij
  rw [Nat.add_assoc, ancestor?_add, hi, Option.bind_some] at hj
  have hend := ancestor?_add (r := r) k i type.key
  rw [hk, Option.bind_none, Nat.add_comm, ancestor?_add, hi, Option.bind_some] at hend
  exact ancestor?_ne_none (Nat.succ_pos d) hj k hend

end Calls

/-- Cycles are reported exactly, by a reader that is resolving nothing else.  What is reported is a
cycle of types that each directly depend on the next, and the given type leads to it.  A type that
is resolved from an empty cache leads to no type that depends on itself: the dependencies that the
types have at some time of the call can be chosen so, and all dependencies are such if no name is
ambiguous.  For registered types whose parents are named by their ids, a cycle is reported if and
only if the way to the ancestors comes to some type twice. -/
theorem cycle_reports_exact (w : World) (r : Reader) (type : TypeArg) (hstack : r.stack = []) :
    let run := schema w type r
    (∀ c, run.1 = .error (.cycle c) → IsCycle (DependsOn w r run.2) c ∧
      ∀ t ∈ c, ReflTransGen (DependsOn w r run.2) type.key t) ∧
    (r.resolved = [] → ∀ s, run.1 = .ok s →
      (∃ D : TypeId → List TypeId, Acyclic (fun a b => b ∈ D a) type.key ∧
        ∀ t, ReflTransGen (fun a b => b ∈ D a) type.key t → Depends w r run.2 t (D t)) ∧
      (r.names.Clear (.everywhere w) → run.2.names.meetsOnly (.everywhere w) = true →
        Acyclic (DependsOn w r run.2) type.key)) ∧
    (r.resolved = [] → (∀ k t, ancestor? r k type.key = some t → NamedById w r t) →
      ((∃ c, run.1 = .error (.cycle c)) ↔
        ∃ i j t, i < j ∧ ancestor? r i type.key = some t ∧ ancestor? r j type.key = some t)) := by
  intro run
  refine ⟨fun c hc => isCycle_of_schema hstack hc, fun hresolved s hs => ?_,
    fun hresolved hnamed => ⟨?_, ?_⟩⟩
  · obtain ⟨k, hk⟩ := settled_of_schema hresolved hs
    obtain ⟨D, hD⟩ := hk.exists_acyclic
    have hacyclic : Acyclic (fun a b => b ∈ D a) type.key := fun t ht => (hD t ht).2
    refine ⟨⟨D, hacyclic, fun t ht => (hD t ht).1⟩, fun hclear hend => ?_⟩
    exact hacyclic.of_subset fun t t' ht hdep => (hD t ht).1.mem_of_clear hclear hend hdep
  · rintro ⟨c, hc⟩
    obtain ⟨hcycle, hreached⟩ := isCycle_of_schema hstack hc
    exact exists_ancestor?_eq_of_isCycle hnamed hcycle hreached
  · rintro ⟨i, j, t, hij, hi, hj⟩
    exact isCycle_of_ancestor?_eq hstack hresolved hnamed hij hi hj

/-- A class with a base class that is registered on top of a third one, in whose documentation the
first one stands as a nested annotation. -/
def ringClasses : World where
  modules := [("app", [("X", .cls "app.X"), ("Y", .cls "app.Y"), ("Z", .cls "app.Z")])]
  classes :=
    [("app.X", { id := "app.X", home := "app", bases := ["app.Y"] }),
      ("app.Y", { id := "app.Y", home := "app" }),
      ("app.Z", { id := "app.Z", home := "app", doc := some "@Annotation\n@Y(x: @X())" })]

/-- A new reader for which the second class is registered. -/
def ringReader : Reader :=
  (start [] true).register "app.Y" { parent := some "app.Z" }

lemma eq_error_of_errorOf? {α : Type} {x : Except Error α} {e : Error}
    (h : errorOf? x = some e) : x = .error e := by
  cases x with
  | error e' => exact congrArg _ (Option.some.inj h)
  | ok a => cases h

/-- A cycle of the three kinds of dependency. -/
theorem cycle_reports_exact_ring :
    ringReader.stack = [] ∧
    (schema ringClasses (.id "app.X") ringReader).1 =
      .error (.cycle ["app.X", "app.Y", "app.Z", "app.X"]) ∧
    IsCycle (DependsOn ringClasses ringReader (schema ringClasses (.id "app.X") ringReader).2)
      ["app.X", "app.Y", "app.Z", "app.X"] := by
  have hrun : (schema ringClasses (.id "app.X") ringReader).1 =
      .error (.cycle ["app.X", "app.Y", "app.Z", "app.X"]) :=
    eq_error_of_errorOf? (by decide +kernel)
  exact ⟨rfl, hrun, ((cycle_reports_exact ringClasses ringReader (.id "app.X") rfl).1 _ hrun).1⟩

end Reader
end DocTags
