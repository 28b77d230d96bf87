import DocTags.Proofs.Names
import Mathlib.Data.List.Induction
import Mathlib.Data.List.ReduceOption

/-!
# Extending schemas

A class passes on to its subclasses what it inherits, extended by its own declarations if it is an
annotation type.  `Schema.passedOn` is what comes of a line of classes.  It is a fold over the
annotation types of the line (`passedOn_eq`), and the parts of the outcome have closed forms: the
attributes are in the order in which the line introduces them, and all else comes from the last
class that declares it.
-/

namespace DocTags

/-- The names of the attributes that a class declares itself, those of its constructor last. -/
def Declarations.names (d : Declarations) : List String :=
  d.attributes.map AttributeSpec.name ++ (d.params.getD []).map Param.name

/-- The attributes that a constructor with the given parameters takes. -/
def paramNames? : List Param → Option (List String)
  | [] => none
  | params => some (params.map Param.name)

namespace Schema

variable {s : Schema} {d : Declarations}

/-- What a schema declares: all of it but its parent and its accessors. -/
def shape (s : Schema) : Schema :=
  { s with parent := none, accessors := [] }

lemma shape_extend (s : Schema) (d : Declarations) : (s.extend d).shape = s.shape.extend d :=
  rfl

lemma withTargets_eq (s : Schema) :
    s.withTargets =
      { s with targets := if s.targets == .nowhere then .onClass else s.targets } := by
  unfold withTargets
  split <;> rfl

lemma shape_withTargets (s : Schema) : s.withTargets.shape = s.shape.withTargets := by
  rw [withTargets_eq, withTargets_eq]
  rfl

/-- The placement of types that declare none gives way to a declared one, like none at all. -/
lemma withTargets_extend_withTargets (s : Schema) (d : Declarations) :
    (s.withTargets.extend d).withTargets = (s.extend d).withTargets := by
  have hclass : (Placement.onClass == Placement.nowhere) = false := rfl
  rw [withTargets_eq, withTargets_eq, withTargets_eq]
  unfold extend
  congr 1
  dsimp only
  cases hd : d.targets == .nowhere with
  | true => cases hs : s.targets == .nowhere <;> simp [hs, hclass]
  | false => simp [hd]

/-- What a class passes on, given what it inherits and what it declares itself. -/
def pass (s : Schema) : Option Declarations → Schema
  | none => s
  | some d => (s.extend d).withTargets

/-- What a line of classes passes on, given what they declare themselves. -/
def passedOn (ds : List (Option Declarations)) : Schema :=
  ds.foldl pass { targets := .nowhere }

lemma passedOn_concat (ds : List (Option Declarations)) (d : Option Declarations) :
    passedOn (ds ++ [d]) = (passedOn ds).pass d := by
  rw [passedOn, List.foldl_append]
  rfl

/-- A line without annotation types passes on nothing. -/
lemma passedOn_of_none {ds : List (Option Declarations)} (h : ds.reduceOption = []) :
    passedOn ds = { targets := .nowhere } := by
  induction ds with
  | nil => rfl
  | cons d ds ih =>
    cases d with
    | none => exact ih (by rwa [List.reduceOption_cons_of_none] at h)
    | some d => cases (List.reduceOption_cons_of_some d ds).symm.trans h

/-- What a line with at least one annotation type passes on is a fold over the annotation types in
it. -/
lemma passedOn_eq {ds : List (Option Declarations)} (h : ds.reduceOption ≠ []) :
    passedOn ds = (ds.reduceOption.foldl extend { targets := .nowhere }).withTargets := by
  induction ds using List.reverseRecOn with
  | nil => exact absurd rfl h
  | append_singleton ds d ih =>
    rw [passedOn_concat]
    rw [List.reduceOption_append] at h ⊢
    cases d with
    | none =>
      rw [List.reduceOption_cons_of_none, List.reduceOption_nil, List.append_nil] at h ⊢
      exact ih h
    | some d =>
      rw [List.reduceOption_cons_of_some, List.reduceOption_nil, List.foldl_append]
      by_cases hempty : ds.reduceOption = []
      · rw [passedOn_of_none hempty, hempty]
        rfl
      · rw [ih hempty]
        exact withTargets_extend_withTargets _ d

/-! ## The parts of an extended schema -/

lemma names_extend {names : List String} (h : s.attributes.names = names.eraseDups)
    (d : Declarations) : (s.extend d).attributes.names = (names ++ d.names).eraseDups := by
  have hparams : ∀ (params : List Param) {attributes : Keyed AttributeSpec} {names : List String},
      attributes.names = names.eraseDups →
      (params.foldl addParam attributes).names = (names ++ params.map Param.name).eraseDups := by
    intro params
    induction params with
    | nil =>
      intro attributes names hnames
      rw [List.map_nil, List.append_nil]
      exact hnames
    | cons p params ih =>
      intro attributes names hnames
      rw [List.foldl_cons, List.map_cons, ← List.singleton_append, ← List.append_assoc]
      exact ih (Keyed.names_put_eraseDups hnames p.name _)
  have hown : Keyed.names (d.attributes.map fun spec => (spec.name, spec)) =
      d.attributes.map AttributeSpec.name := by
    rw [Keyed.names, List.map_map]
    rfl
  have hmerged := Keyed.names_merge_eraseDups h (d.attributes.map fun spec => (spec.name, spec))
  rw [hown] at hmerged
  rw [Declarations.names, ← List.append_assoc]
  exact hparams (d.params.getD []) hmerged

/-- Attributes are in the order in which they are introduced, and none is lost. -/
lemma names_foldl_extend {names : List String} (h : s.attributes.names = names.eraseDups)
    (ds : List Declarations) :
    (ds.foldl extend s).attributes.names = (names ++ ds.flatMap Declarations.names).eraseDups := by
  induction ds generalizing s names with
  | nil =>
    rw [List.flatMap_nil, List.append_nil]
    exact h
  | cons d ds ih =>
    rw [List.foldl_cons, List.flatMap_cons, ← List.append_assoc]
    exact ih (names_extend h d)

lemma targets_foldl_extend (s : Schema) (ds : List Declarations) :
    (ds.foldl extend s).targets =
      ((ds.map Declarations.targets).filter (· != .nowhere)).getLastD s.targets := by
  induction ds generalizing s with
  | nil => rfl
  | cons d ds ih =>
    rw [List.foldl_cons, ih, List.map_cons, List.filter_cons]
    by_cases hd : d.targets = .nowhere
    · have hown : (s.extend d).targets = s.targets := by simp [extend, hd]
      rw [if_neg (by simp [hd]), hown]
    · have hown : (s.extend d).targets = d.targets := by simp [extend, hd]
      rw [if_pos (by simp [hd]), List.getLastD_cons, hown]

lemma defaultAttribute_foldl_extend (s : Schema) (ds : List Declarations) :
    (ds.foldl extend s).defaultAttribute =
      (ds.filterMap Declarations.defaultAttribute).getLast?.or s.defaultAttribute := by
  induction ds generalizing s with
  | nil => rfl
  | cons d ds ih =>
    rw [List.foldl_cons, ih]
    cases hd : d.defaultAttribute with
    | none => simp [extend, hd]
    | some name => simp [extend, hd, List.getLast?_cons]

lemma constructor_foldl_extend (s : Schema) (ds : List Declarations) :
    (ds.foldl extend s).constructor =
      (ds.filterMap Declarations.params).getLast?.elim s.constructor paramNames? := by
  induction ds generalizing s with
  | nil => rfl
  | cons d ds ih =>
    rw [List.foldl_cons, ih]
    cases hd : d.params with
    | none => simp [extend, hd]
    | some params =>
      have hown : (s.extend d).constructor = paramNames? params := by
        unfold extend paramNames?
        rw [hd]
        cases params <;> rfl
      rw [List.filterMap_cons_some hd, List.getLast?_cons, hown, Option.elim_some]
      cases (ds.filterMap Declarations.params).getLast? <;> rfl

/-- A type may be placed where the last class says that declares a placement, and else on
classes. -/
lemma targets_foldl_withTargets (ds : List Declarations) :
    (ds.foldl extend { targets := .nowhere }).withTargets.targets =
      ((ds.map Declarations.targets).filter (· != .nowhere)).getLastD .onClass := by
  rw [withTargets_eq]
  dsimp only
  rw [targets_foldl_extend]
  dsimp only
  rcases List.eq_nil_or_concat ((ds.map Declarations.targets).filter (· != .nowhere)) with
    hnil | ⟨before, last, hlast⟩
  · rw [hnil]
    rfl
  · have hmem : last ∈ (ds.map Declarations.targets).filter (· != .nowhere) := by simp [hlast]
    have hdeclared : last ≠ .nowhere := by simpa using (List.mem_filter.1 hmem).2
    rw [hlast, List.concat_eq_append, List.getLastD_concat, List.getLastD_concat,
      if_neg (by simpa using hdeclared)]

lemma defaultAttribute_foldl_withTargets (ds : List Declarations) :
    (ds.foldl extend { targets := .nowhere }).withTargets.defaultAttribute =
      (ds.filterMap Declarations.defaultAttribute).getLast? := by
  rw [withTargets_eq]
  exact (defaultAttribute_foldl_extend _ ds).trans Option.or_none

lemma constructor_foldl_withTargets (ds : List Declarations) :
    (ds.foldl extend { targets := .nowhere }).withTargets.constructor =
      (ds.filterMap Declarations.params).getLast?.bind paramNames? := by
  rw [withTargets_eq]
  refine (constructor_foldl_extend _ ds).trans ?_
  cases (ds.filterMap Declarations.params).getLast? <;> rfl

lemma names_passedOn (ds : List (Option Declarations)) :
    (passedOn ds).attributes.names =
      (ds.reduceOption.flatMap Declarations.names).eraseDups := by
  by_cases h : ds.reduceOption = []
  · rw [passedOn_of_none h, h]
    rfl
  · rw [passedOn_eq h, withTargets_eq]
    have hempty : Keyed.names ({ targets := .nowhere } : Schema).attributes = [].eraseDups := rfl
    exact names_foldl_extend hempty _

/-- What the classes at the beginning of a line introduce comes first, and all of it is there. -/
lemma names_passedOn_take (ds : List (Option Declarations)) (k : Nat) :
    (passedOn (ds.take k)).attributes.names <+: (passedOn ds).attributes.names := by
  have hsplit : ds.reduceOption = (ds.take k).reduceOption ++ (ds.drop k).reduceOption := by
    rw [← List.reduceOption_append, List.take_append_drop]
  rw [names_passedOn, names_passedOn, hsplit, List.flatMap_append, List.eraseDups_append]
  exact List.prefix_append _ _

end Schema
end DocTags
