import DocTags.Proofs.Deliveries
import DocTags.Proofs.Indexing
import Mathlib.Data.Nat.Bitwise

/-!
# Which arguments are accepted

Before an object is made, its placement and its arguments are checked, one condition after the
other.  `Build.Accepts` says which arguments pass, without the order of the checks, and
`Build.Refuses` has one rule for each condition, under which all conditions before it hold: so it
says which condition is violated first, and with what error.

The error about a value that does not conform to its type names the attribute and what is expected
there.  It tells the values of an enumeration, which may have no text; then showing them fails, and
the mismatch itself is not reported.  `TypeExpr.Reportable` excludes this, and types that are none.

The main result is `accepts_exactly_valid`.
-/

namespace DocTags

/-- The error is a mismatch at an attribute, or at an element of its value: the name of the
attribute is followed by the positions that lead to the element. -/
def Error.IsMismatchAt (name : String) (e : Error) : Prop :=
  ∃ (path : List Nat) (expectation : Expectation),
    e = .mismatch (path.foldl TypeExpr.itemName name) expectation

namespace TypeExpr

/-! ## Reporting mismatches -/

mutual

/-- The type, and all types inside it. -/
def parts : TypeExpr → List TypeExpr
  | .tuple items => .tuple items :: partsOfAll items
  | .list item => .list item :: parts item
  | t => [t]

/-- The parts of some types. -/
def partsOfAll : List TypeExpr → List TypeExpr
  | [] => []
  | t :: ts => parts t ++ partsOfAll ts

end

/-- Each class that the types refer to can be loaded. -/
def Loads (find : TypeId → Option TypeId) (ts : List TypeExpr) : Prop :=
  ∀ type, .ref type ∈ ts → (find type).isSome = true

/-- It can be said what the types ask for: the values of enumerations have texts, and all of the
types are types. -/
structure Reportable (w : World) (ts : List TypeExpr) : Prop where
  shown : ∀ values, .enum values ∈ ts → (Value.displayAll w values).isOk = true
  known : ∀ kind, .foreign kind ∉ ts

instance (find : TypeId → Option TypeId) (ts : List TypeExpr) : Decidable (Loads find ts) :=
  decidable_of_iff
    (ts.all fun t => match t with | .ref type => (find type).isSome | _ => true) (by
      rw [List.all_eq_true]
      refine ⟨fun h type htype => h _ htype, fun h t ht => ?_⟩
      cases t with
      | ref type => exact h type ht
      | _ => rfl)

/-- A run of a check that fails with a mismatch only, and loads no class other than `find` has
it. -/
def Complains (w : World) (find : TypeId → Option TypeId) (name : String) (act : Run Names Unit) :
    Prop :=
  ∀ n : Names, n.loaded? w = find →
    (∀ e, (act n).1 = .error e → e.IsMismatchAt name) ∧ (act n).2.loaded? w = find

section Mismatches

variable {w : World} {find : TypeId → Option TypeId} {name : String}

lemma Loads.mono {ts us : List TypeExpr} (h : Loads find us) (hsub : ts ⊆ us) : Loads find ts :=
  fun type htype => h type (hsub htype)

lemma Reportable.mono {ts us : List TypeExpr} (h : Reportable w us) (hsub : ts ⊆ us) :
    Reportable w ts :=
  ⟨fun values hvalues => h.shown values (hsub hvalues), fun kind hkind => h.known kind (hsub hkind)⟩

namespace Complains

lemma pass : Complains w find name (pure ()) :=
  fun _ hn => ⟨fun _ he => absurd he (by simp), hn⟩

lemma refuse (expectation : Expectation) :
    Complains w find name (throw (.mismatch name expectation)) := by
  intro n hn
  refine ⟨fun e he => ?_, hn⟩
  obtain rfl := Except.error.inj he
  exact ⟨[], expectation, rfl⟩

lemma demand (holds : Bool) (expectation : Expectation) :
    Complains w find name (TypeExpr.demand name holds expectation) := by
  cases holds with
  | true => exact .pass
  | false => exact .refuse expectation

lemma andThen {x y : Run Names Unit} (hx : Complains w find name x)
    (hy : Complains w find name y) : Complains w find name (x >>= fun _ => y) := by
  intro n hn
  obtain ⟨herror, hstate⟩ := hx n hn
  rcases hres : x n with ⟨e | u, n'⟩
  · rw [hres] at herror hstate
    rw [Run.bind_error hres]
    exact ⟨herror, hstate⟩
  · rw [hres] at hstate
    rw [Run.bind_ok hres]
    exact hy n' hstate

/-- What is wrong with an element is wrong with the array. -/
lemma of_item {act : Run Names Unit} {i : Nat} (h : Complains w find (itemName name i) act) :
    Complains w find name act := by
  intro n hn
  refine ⟨fun e he => ?_, (h n hn).2⟩
  obtain ⟨path, expectation, rfl⟩ := (h n hn).1 e he
  exact ⟨i :: path, expectation, rfl⟩

lemma checkAll {check : String → Value → Run Names Unit}
    (h : ∀ name v, Complains w find name (check name v)) (i : Nat) (vs : List Value) :
    Complains w find name (TypeExpr.checkAll check name i vs) := by
  induction vs generalizing i with
  | nil => exact .pass
  | cons v vs ih => exact (h _ v).of_item.andThen (ih (i + 1))

end Complains

lemma complains_enum (v : Value) {values : List Value}
    (h : (Value.displayAll w values).isOk = true) :
    Complains w find name (check w (some (Names.load w)) name v (.enum values)) := by
  rw [check]
  split
  · exact .pass
  · cases htexts : Value.displayAll w values with
    | error e =>
      rw [htexts] at h
      cases h
    | ok texts => exact .refuse (.oneOf texts)

lemma complains_ref (v : Value) {type : TypeId} (h : (find type).isSome = true) :
    Complains w find name (check w (some (Names.load w)) name v (.ref type)) := by
  intro n hn
  obtain ⟨found, hfound⟩ := Option.isSome_iff_exists.1 h
  obtain ⟨n', hn', hload⟩ := Names.load_apply w n type
  rw [hn] at hn' hload
  rw [hfound] at hload
  rw [check, Run.bind_ok hload]
  exact Complains.demand _ _ n' hn'

mutual

/-- A check of a type that can be loaded and reported fails with a mismatch only. -/
lemma complains_check (name : String) (v : Value) (t : TypeExpr) (hload : Loads find t.parts)
    (hreport : Reportable w t.parts) :
    Complains w find name (check w (some (Names.load w)) name v t) := by
  match t with
  | .mixed => rw [check]; exact .pass
  | .string | .number | .integer | .float | .boolean => exact .demand _ _
  | .enum values =>
    exact complains_enum v (hreport.shown values (by simp [parts]))
  | .ref type => exact complains_ref v (hload type (by simp [parts]))
  | .tuple items =>
    have hsub : partsOfAll items ⊆ (tuple items).parts := by
      rw [parts]
      exact List.subset_cons_self _ _
    rw [check]
    split
    · exact .refuse _
    · split
      · exact .pass
      · split
        · exact .refuse _
        · exact complains_checkEach name 0 _ items (hload.mono hsub) (hreport.mono hsub)
  | .list item =>
    have hsub : item.parts ⊆ (list item).parts := by
      rw [parts]
      exact List.subset_cons_self _ _
    rw [check]
    split
    · exact .refuse _
    · exact .checkAll
        (fun name v => complains_check name v item (hload.mono hsub) (hreport.mono hsub)) 0 _
  | .foreign kind => exact absurd (by simp [parts]) (hreport.known kind)

lemma complains_checkEach (name : String) (i : Nat) (vs : List Value) (ts : List TypeExpr)
    (hload : Loads find (partsOfAll ts)) (hreport : Reportable w (partsOfAll ts)) :
    Complains w find name (checkEach w (some (Names.load w)) name i vs ts) := by
  match ts with
  | [] => rw [checkEach]; exact .pass
  | t :: ts =>
    match vs with
    | [] => exact .pass
    | v :: vs =>
      rw [partsOfAll] at hload hreport
      have hfirst : t.parts ⊆ t.parts ++ partsOfAll ts := List.subset_append_left _ _
      have hrest : partsOfAll ts ⊆ t.parts ++ partsOfAll ts := List.subset_append_right _ _
      have hhead := complains_check (itemName name i) v t (hload.mono hfirst) (hreport.mono hfirst)
      have htail := complains_checkEach name (i + 1) vs ts (hload.mono hrest) (hreport.mono hrest)
      rw [checkEach]
      exact hhead.of_item.andThen htail

end

end Mismatches

end TypeExpr

/-- Whatever is wrong with arguments can be reported: the names of attributes are texts, and what
their types ask for can be said. -/
structure Schema.Reportable (w : World) (s : Schema) : Prop where
  labels : ∀ entry ∈ s.attributes, entry.2.label = none
  types : ∀ entry ∈ s.attributes, TypeExpr.Reportable w entry.2.type.parts

namespace Build

/-! ## The conditions -/

/-- The declared attribute with a name, and its contract. -/
def declared? (s : Schema) (name : String) : Option (String × AttributeSpec) :=
  s.attributes.find? fun (key, spec) => (spec.nameValue key).isText name

/-- The arguments by name: an unnamed one is for the default attribute and comes last. -/
def arguments (s : Schema) (entries : TagList) : Keyed Value :=
  TagList.named entries ++
    (TagList.positional entries).map fun v => (s.defaultAttribute.getD "", v)

/-- The placement is one of the targets: they have a bit in common. -/
def Placed (s : Schema) (placement : Placement) : Prop :=
  ∃ bit, s.targets.mask.testBit bit = true ∧ placement.mask.testBit bit = true

/-- There is one unnamed argument at most, and if there is one, a default attribute that is not also
given by name. -/
structure NamesUnnamed (s : Schema) (entries : TagList) : Prop where
  single : (TagList.positional entries).length ≤ 1
  default : TagList.positional entries ≠ [] →
    ∃ name, s.defaultAttribute = some name ∧ name ≠ "" ∧ name ∉ TagList.keys entries

/-- The argument is for a declared attribute, and is a null that the attribute allows or conforms to
the declared type. -/
def Fits (w : World) (find : TypeId → Option TypeId) (s : Schema) (a : String × Value) : Prop :=
  ∃ key spec, declared? s a.1 = some (key, spec) ∧
    (a.2 = .null ∧ spec.nullable = true ∨ TypeExpr.conforms w find a.2 spec.type = true)

/-- The attribute is among those that the arguments are for. -/
def IsSupplied (s : Schema) (entries : TagList) (key : String) : Prop :=
  ∃ a ∈ arguments s entries, ∃ spec, declared? s a.1 = some (key, spec)

instance (s : Schema) (entries : TagList) (key : String) : Decidable (IsSupplied s entries key) :=
  decidable_of_iff
    ((arguments s entries).any fun a => (declared? s a.1).any fun found => found.1 == key) (by
      simp only [IsSupplied, List.any_eq_true, Option.any_eq_true, Prod.exists, beq_iff_eq]
      refine exists_congr fun name => exists_congr fun v => and_congr_right fun _ => ?_
      refine ⟨?_, fun ⟨spec, hspec⟩ => ⟨key, spec, hspec, rfl⟩⟩
      rintro ⟨_, spec, hspec, rfl⟩
      exact ⟨spec, hspec⟩)

/-- The required attributes that are not supplied, in the order of their declaration. -/
def absent (s : Schema) (entries : TagList) : Keyed AttributeSpec :=
  s.attributes.filter fun entry => entry.2.required && !decide (IsSupplied s entries entry.1)

/-- The arguments are valid for an annotation in this place. -/
structure Accepts (w : World) (find : TypeId → Option TypeId) (s : Schema) (entries : TagList)
    (placement : Placement) : Prop where
  placed : Placed s placement
  unnamed : NamesUnnamed s entries
  fits : ∀ a ∈ arguments s entries, Fits w find s a
  complete : ∀ entry ∈ s.attributes, entry.2.required = true → IsSupplied s entries entry.1

/-- What is wrong with the unnamed arguments. -/
inductive Misnames (type : TypeId) (s : Schema) (entries : TagList) : Error → Prop
  | several (h : 1 < (TagList.positional entries).length) :
      Misnames type s entries (.severalUnnamed type)
  | noDefault (hone : (TagList.positional entries).length = 1)
      (h : s.defaultAttribute.getD "" = "") : Misnames type s entries (.noDefaultAttribute type)
  | twice {name : String} (hone : (TagList.positional entries).length = 1)
      (hname : s.defaultAttribute = some name) (hne : name ≠ "")
      (h : name ∈ TagList.keys entries) : Misnames type s entries (.givenTwice name type)

/-- What is wrong with an argument: the attribute is not declared, or the value does not conform,
which is reported as a mismatch if this can be. -/
inductive Misfits (w : World) (find : TypeId → Option TypeId) (type : TypeId) (s : Schema) :
    String × Value → Error → Prop
  | unknown {name : String} {v : Value} (h : declared? s name = none) :
      Misfits w find type s (name, v) (.unknownAttribute name type)
  | mismatch {name key : String} {v : Value} {spec : AttributeSpec} {e : Error}
      (hspec : declared? s name = some (key, spec)) (hnull : ¬ (v = .null ∧ spec.nullable = true))
      (hconf : TypeExpr.conforms w find v spec.type = false)
      (he : TypeExpr.Reportable w spec.type.parts → e.IsMismatchAt key) :
      Misfits w find type s (name, v) e

/-- The error for the first condition that is violated: those of the rules before hold. -/
inductive Refuses (w : World) (find : TypeId → Option TypeId) (type : TypeId) (s : Schema)
    (entries : TagList) (placement : Placement) : Error → Prop
  | misplaced (h : ¬ Placed s placement) :
      Refuses w find type s entries placement (.misplaced type placement.describe)
  | misnamed {e : Error} (hplaced : Placed s placement) (h : Misnames type s entries e) :
      Refuses w find type s entries placement e
  | misfit {before after : Keyed Value} {a : String × Value} {e : Error}
      (hplaced : Placed s placement) (hunnamed : NamesUnnamed s entries)
      (hargs : arguments s entries = before ++ a :: after)
      (hbefore : ∀ b ∈ before, Fits w find s b) (h : Misfits w find type s a e) :
      Refuses w find type s entries placement e
  | missing {name : String} {others : List String} (hplaced : Placed s placement)
      (hunnamed : NamesUnnamed s entries) (hfits : ∀ a ∈ arguments s entries, Fits w find s a)
      (h : (absent s entries).names = name :: others)
      (htexts : others = [] ∨ ∀ entry ∈ absent s entries, entry.2.label = none) :
      Refuses w find type s entries placement (.missing name others)
  /-- Names that are no texts cannot be listed. -/
  | unlisted (hplaced : Placed s placement) (hunnamed : NamesUnnamed s entries)
      (hfits : ∀ a ∈ arguments s entries, Fits w find s a)
      (h : 1 < (absent s entries).length)
      (htexts : ∃ entry ∈ absent s entries, entry.2.label ≠ none) :
      Refuses w find type s entries placement (.misuse .type)

/-! ## The checks -/

section Checks

variable {w : World} {find : TypeId → Option TypeId} {type : TypeId} {s : Schema}
  {entries : TagList} {placement : Placement}

lemma allows_iff_placed : s.targets.allows placement = true ↔ Placed s placement := by
  simp only [Placement.allows, bne_iff_ne, ne_eq, Placed, ← Bool.and_eq_true, ← Nat.testBit_land]
  refine ⟨fun hne => ?_, ?_⟩
  · by_contra hnone
    simp only [not_exists, Bool.not_eq_true] at hnone
    exact hne (Nat.zero_of_testBit_eq_false hnone)
  · rintro ⟨bit, hbit⟩ hzero
    rw [hzero, Nat.zero_testBit] at hbit
    cases hbit

lemma same_str (v : Value) (name : String) : v.same (.str name) = v.isText name := by
  cases v with
  | str t => simp [Value.same, Value.isSameNaN, Value.equal, Value.isText, Bool.beq_comm]
  | _ => simp [Value.same, Value.isSameNaN, Value.equal, Value.isText, Value.number?]

lemma specOf_str (name : String) :
    specOf w type s (.str name) =
      (declared? s name).elim (.error (.unknownAttribute name type)) .ok := by
  have hfind : (s.attributes.find? fun (key, spec) => (spec.nameValue key).same (.str name)) =
      declared? s name := by
    unfold declared?
    exact congrArg (fun p => s.attributes.find? p) (funext fun entry => same_str _ name)
  unfold specOf
  rw [hfind]
  cases declared? s name with
  | none => rfl
  | some found => rfl

/-- The arguments as they are checked. -/
def pairsOf (args : Keyed Value) : List (Value × Value) :=
  args.map fun a => (.str a.1, a.2)

/-- The unnamed argument gets a name, or there is something wrong with the unnamed ones. -/
lemma normalize_cases (type : TypeId) (s : Schema) (entries : TagList) :
    NamesUnnamed s entries ∧
        normalize type s (.tags entries) = .ok (pairsOf (arguments s entries)) ∨
      ∃ e, Misnames type s entries e ∧ normalize type s (.tags entries) = .error e := by
  have hhas : ∀ name, (TagList.named entries).has name = true ↔ name ∈ TagList.keys entries := by
    intro name
    rw [Keyed.has_eq_contains_names, TagList.names_named, List.contains_iff_mem]
  unfold normalize arguments pairsOf
  dsimp only
  rcases hpositional : TagList.positional entries with _ | ⟨v, _ | ⟨v', rest⟩⟩
  · refine .inl ⟨⟨by simp [hpositional], fun hne => absurd hpositional hne⟩, ?_⟩
    simp
  · have hone : (TagList.positional entries).length = 1 := by rw [hpositional]; rfl
    dsimp only
    by_cases hempty : s.defaultAttribute.getD "" = ""
    · refine .inr ⟨_, .noDefault hone hempty, ?_⟩
      rw [hempty]
      rfl
    · obtain ⟨name, hname⟩ : ∃ name, s.defaultAttribute = some name := by
        cases hd : s.defaultAttribute with
        | none => exact absurd (by rw [hd]; rfl) hempty
        | some name => exact ⟨name, rfl⟩
      rw [hname, Option.getD_some] at hempty ⊢
      rw [if_neg (by simpa using hempty)]
      by_cases hgiven : (TagList.named entries).has name = true
      · rw [if_pos hgiven]
        exact .inr ⟨_, .twice hone hname hempty ((hhas name).1 hgiven), rfl⟩
      · rw [if_neg hgiven]
        refine .inl ⟨⟨hone.le, fun _ => ⟨name, hname, hempty, fun hkey => ?_⟩⟩, by simp⟩
        exact hgiven ((hhas name).2 hkey)
  · exact .inr ⟨_, .several (by simp [hpositional]), rfl⟩

lemma Misnames.not_unnamed {e : Error} (h : Misnames type s entries e) :
    ¬ NamesUnnamed s entries := by
  intro hunnamed
  have hne : (TagList.positional entries).length = 1 → TagList.positional entries ≠ [] := by
    rintro hone hnil
    rw [hnil] at hone
    cases hone
  cases h with
  | several h => exact absurd hunnamed.single (by omega)
  | noDefault hone h =>
    obtain ⟨name, hname, hempty, -⟩ := hunnamed.default (hne hone)
    rw [hname] at h
    exact hempty h
  | twice hone hname _ h =>
    obtain ⟨name, hname', -, hkey⟩ := hunnamed.default (hne hone)
    obtain rfl := Option.some.inj (hname.symm.trans hname')
    exact hkey h

/-- An argument with the key of its attribute. -/
def keyed (s : Schema) (a : String × Value) : String × Value :=
  (((declared? s a.1).map Prod.fst).getD a.1, a.2)

section Argument

variable {name : Value} {key : String} {spec : AttributeSpec}
  (hspec : specOf w type s name = .ok (key, spec)) (rest : List (Value × Value)) (n : Names)

include hspec

lemma checkAttributes_null (hnullable : spec.nullable = true) :
    checkAttributes w type s ((name, .null) :: rest) n =
      (do return (key, .null) :: (← checkAttributes w type s rest) : Run Names _) n := by
  rw [checkAttributes, hspec, Run.bind_ok (Run.liftExcept_apply _ n)]
  dsimp only
  rw [hnullable]

lemma checkAttributes_check {v : Value} (hnull : ¬ (v = .null ∧ spec.nullable = true)) :
    checkAttributes w type s ((name, v) :: rest) n =
      (do
        TypeExpr.check w (some (Names.load w)) key v spec.type
        return (key, v) :: (← checkAttributes w type s rest) : Run Names (Keyed Value)) n := by
  rw [checkAttributes, hspec, Run.bind_ok (Run.liftExcept_apply _ n)]
  dsimp only
  generalize spec.nullable = b at hnull
  split
  · exact absurd ⟨rfl, rfl⟩ hnull
  · rfl

end Argument

lemma Misfits.not_fits {a : String × Value} {e : Error} (h : Misfits w find type s a e) :
    ¬ Fits w find s a := by
  rintro ⟨key, spec, hspec, hfits⟩
  cases h with
  | unknown h => cases h.symm.trans hspec
  | mismatch hspec' hnull hconf _ =>
    obtain ⟨-, rfl⟩ := Prod.mk.inj (Option.some.inj (hspec.symm.trans hspec'))
    rcases hfits with hfits | hfits
    · exact hnull hfits
    · cases hconf.symm.trans hfits

section Loading

variable (hloads : ∀ entry ∈ s.attributes, TypeExpr.Loads find entry.2.type.parts)

include hloads

/-- One argument is checked: it fits, or something is wrong with it. -/
lemma checkAttributes_cons_cases {n : Names} (hn : n.loaded? w = find) (a : String × Value)
    (rest : List (Value × Value)) :
    (Fits w find s a ∧ ∃ n' : Names, n'.loaded? w = find ∧
        checkAttributes w type s ((.str a.1, a.2) :: rest) n =
          (do return keyed s a :: (← checkAttributes w type s rest) : Run Names _) n') ∨
      ∃ e n', Misfits w find type s a e ∧
        checkAttributes w type s ((.str a.1, a.2) :: rest) n = (.error e, n') := by
  obtain ⟨name, v⟩ := a
  have hfound : specOf w type s (.str name) = _ := specOf_str name
  cases hspec : declared? s name with
  | none =>
    rw [hspec] at hfound
    refine .inr ⟨_, n, .unknown hspec, ?_⟩
    rw [checkAttributes, hfound]
    exact Run.bind_error (Run.liftExcept_apply _ n) _
  | some found =>
    obtain ⟨key, spec⟩ := found
    rw [hspec] at hfound
    have hkeyed : keyed s (name, v) = (key, v) := by
      rw [keyed, hspec]
      rfl
    rw [hkeyed]
    by_cases hnull : v = .null ∧ spec.nullable = true
    · obtain ⟨rfl, hnullable⟩ := hnull
      exact .inl ⟨⟨key, spec, hspec, .inl ⟨rfl, hnullable⟩⟩, n, hn,
        checkAttributes_null hfound rest n hnullable⟩
    · obtain ⟨hpass, hstate⟩ := TypeExpr.check_decides key v spec.type n hn
      dsimp only
      rw [checkAttributes_check hfound rest n hnull]
      rcases hres : TypeExpr.check w (some (Names.load w)) key v spec.type n with ⟨e | u, n'⟩
      · rw [hres] at hpass
        have hconf : TypeExpr.conforms w find v spec.type = false := by
          rw [← Bool.not_eq_true]
          intro hconf
          cases hpass.2 hconf
        have hload := hloads _ (List.mem_of_find?_eq_some hspec)
        refine .inr ⟨e, n', .mismatch hspec hnull hconf fun hreport => ?_, Run.bind_error hres _⟩
        exact (TypeExpr.complains_check key v spec.type hload hreport n hn).1 e
          (congrArg Prod.fst hres)
      · rw [hres] at hpass hstate
        exact .inl ⟨⟨key, spec, hspec, .inr (hpass.1 rfl)⟩, n', hstate, Run.bind_ok hres _⟩

/-- All arguments fit, or something is wrong with the first that does not. -/
lemma checkAttributes_cases {n : Names} (hn : n.loaded? w = find) (args : Keyed Value) :
    ((∀ a ∈ args, Fits w find s a) ∧
        ∃ n', checkAttributes w type s (pairsOf args) n = (.ok (args.map (keyed s)), n')) ∨
      ∃ before a after e n', args = before ++ a :: after ∧ (∀ b ∈ before, Fits w find s b) ∧
        Misfits w find type s a e ∧ checkAttributes w type s (pairsOf args) n = (.error e, n') := by
  induction args generalizing n with
  | nil => exact .inl ⟨nofun, n, rfl⟩
  | cons a args ih =>
    rw [pairsOf, List.map_cons]
    -- The check of an argument may load classes, and the next one starts with what it knows.
    rcases checkAttributes_cons_cases hloads hn a (pairsOf args) with ⟨hfits, n₁, hn₁, hrun⟩ | hfail
    · rcases ih hn₁ with ⟨hall, n', hrest⟩ | ⟨before, b, after, e, n', rfl, hbefore, hb, hrest⟩
      · refine .inl ⟨List.forall_mem_cons.2 ⟨hfits, hall⟩, n', hrun.trans ?_⟩
        rw [Run.bind_ok hrest]
        rfl
      · refine .inr ⟨a :: before, b, after, e, n', rfl,
          List.forall_mem_cons.2 ⟨hfits, hbefore⟩, hb, hrun.trans ?_⟩
        rw [Run.bind_error hrest]
    · obtain ⟨e, n', ha, hrun⟩ := hfail
      exact .inr ⟨[], a, args, e, n', rfl, nofun, ha, hrun⟩

end Loading

/-- When all arguments fit, those of the attributes with them are the supplied ones. -/
lemma has_keyed (hfits : ∀ a ∈ arguments s entries, Fits w find s a) (key : String) :
    Keyed.has ((arguments s entries).map (keyed s)) key = decide (IsSupplied s entries key) := by
  rw [Bool.eq_iff_iff, decide_eq_true_iff, Keyed.has, List.any_map, List.any_eq_true]
  refine exists_congr fun a => and_congr_right fun ha => ?_
  obtain ⟨key', spec, hspec, -⟩ := hfits a ha
  simp only [Function.comp_apply, keyed, hspec, Option.map_some, Option.getD_some, beq_iff_eq,
    Option.some.injEq, Prod.mk.injEq]
  constructor
  · exact fun h => ⟨spec, h, rfl⟩
  · rintro ⟨_, h, -⟩
    exact h

/-- All required attributes are there, or those that are not are reported. -/
lemma checkRequired_cases (hplaced : Placed s placement) (hunnamed : NamesUnnamed s entries)
    (hfits : ∀ a ∈ arguments s entries, Fits w find s a) :
    Accepts w find s entries placement ∧
        checkRequired s ((arguments s entries).map (keyed s)) = .ok () ∨
      ∃ e, Refuses w find type s entries placement e ∧
        checkRequired s ((arguments s entries).map (keyed s)) = .error e := by
  have habsent : (s.attributes.filter fun (name, spec) => spec.required &&
      !Keyed.has ((arguments s entries).map (keyed s)) name) = absent s entries := by
    refine List.filter_congr fun entry _ => ?_
    dsimp only
    rw [has_keyed hfits]
  unfold checkRequired
  rw [habsent]
  dsimp only
  cases hnames : (absent s entries).map Prod.fst with
  | nil =>
    refine .inl ⟨⟨hplaced, hunnamed, hfits, fun entry hentry hrequired => ?_⟩, rfl⟩
    have hnone := List.filter_eq_nil_iff.1 (List.map_eq_nil_iff.1 hnames) entry hentry
    simpa [hrequired] using hnone
  | cons name others =>
    dsimp only
    by_cases hothers : others = []
    · subst hothers
      exact .inr ⟨_, .missing hplaced hunnamed hfits hnames (.inl rfl), rfl⟩
    · by_cases htexts : ∀ entry ∈ absent s entries, entry.2.label = none
      · refine .inr ⟨_, .missing hplaced hunnamed hfits hnames (.inr htexts), ?_⟩
        rw [if_neg]
        simpa using fun _ => htexts
      · have hlong : 1 < (absent s entries).length := by
          rw [← List.length_map (f := Prod.fst), hnames, List.length_cons]
          exact Nat.succ_lt_succ (List.length_pos_iff.2 hothers)
        simp only [not_forall] at htexts
        obtain ⟨entry, hentry, hlabel⟩ := htexts
        refine .inr ⟨_, .unlisted hplaced hunnamed hfits hlong ⟨entry, hentry, hlabel⟩, ?_⟩
        rw [if_pos]
        rw [Bool.and_eq_true, List.any_eq_true]
        exact ⟨by simpa using hothers, entry, hentry, Option.isSome_iff_ne_none.2 hlabel⟩

/-- The arguments are valid and the checks pass, or they are refused. -/
lemma checked_cases (hloads : ∀ entry ∈ s.attributes, TypeExpr.Loads find entry.2.type.parts)
    {n : Names} (hn : n.loaded? w = find) :
    (Accepts w find s entries placement ∧
        ∃ n', checked w type s (.tags entries) placement n =
          (.ok ((arguments s entries).map (keyed s)), n')) ∨
      ∃ e n', Refuses w find type s entries placement e ∧
        checked w type s (.tags entries) placement n = (.error e, n') := by
  unfold checked
  by_cases hplaced : Placed s placement
  · rw [allows_iff_placed.2 hplaced, Bool.not_true, if_neg Bool.false_ne_true]
    rcases normalize_cases type s entries with ⟨hunnamed, hpairs⟩ | ⟨e, he, hpairs⟩
    · rw [hpairs]
      dsimp only
      rw [Run.bind_ok (Run.liftExcept_apply _ n)]
      rcases checkAttributes_cases hloads hn (arguments s entries) with
        ⟨hfits, n', hattributes⟩ | ⟨before, a, after, e, n', hargs, hbefore, ha, hattributes⟩
      · rw [Run.bind_ok hattributes]
        rcases checkRequired_cases hplaced hunnamed hfits with
          ⟨haccepts, hrequired⟩ | ⟨e, he, hrequired⟩
        · rw [hrequired]
          exact .inl ⟨haccepts, n', rfl⟩
        · rw [hrequired]
          exact .inr ⟨e, n', he, rfl⟩
      · rw [Run.bind_error hattributes]
        exact .inr ⟨e, n', .misfit hplaced hunnamed hargs hbefore ha, rfl⟩
    · rw [hpairs]
      exact .inr ⟨e, n, .misnamed hplaced he, rfl⟩
  · have hallows : s.targets.allows placement = false := by
      rw [← Bool.not_eq_true, allows_iff_placed]
      exact hplaced
    rw [hallows]
    exact .inr ⟨_, n, .misplaced hplaced, rfl⟩

lemma Refuses.not_accepts {e : Error} (h : Refuses w find type s entries placement e) :
    ¬ Accepts w find s entries placement := by
  intro haccepts
  have hnone : absent s entries = [] := by
    refine List.filter_eq_nil_iff.2 fun entry hentry => ?_
    cases hrequired : entry.2.required with
    | false => simp
    | true => simpa using haccepts.complete entry hentry hrequired
  cases h with
  | misplaced h => exact h haccepts.placed
  | misnamed _ h => exact h.not_unnamed haccepts.unnamed
  | misfit _ _ hargs _ h => exact h.not_fits (haccepts.fits _ (by rw [hargs]; simp))
  | missing _ _ _ h _ =>
    rw [hnone] at h
    cases h
  | unlisted _ _ _ h _ =>
    rw [hnone] at h
    cases h

/-- What can be reported is reported. -/
lemma Refuses.isAnnotationError {e : Error} (h : Refuses w find type s entries placement e)
    (hreport : s.Reportable w) : e.isAnnotationError = true := by
  cases h with
  | misplaced h => rfl
  | misnamed _ h => cases h <;> rfl
  | misfit _ _ _ _ h =>
    cases h with
    | unknown h => rfl
    | mismatch hspec _ _ he =>
      obtain ⟨path, expectation, rfl, -⟩ := he (hreport.types _ (List.mem_of_find?_eq_some hspec))
      rfl
  | missing _ _ _ _ _ => rfl
  | unlisted _ _ _ _ htexts =>
    obtain ⟨entry, hentry, hlabel⟩ := htexts
    exact absurd (hreport.labels entry (List.mem_filter.1 hentry).1) hlabel

end Checks

end Build

namespace Reader

/-- The checks of a build pass exactly on the arguments that are valid for the schema.  Arguments
that are not valid are refused with the error for the first condition that they violate, and then
nothing is done to an object: neither the constructor nor a setter is called. -/
theorem accepts_exactly_valid (w : World) (type : TypeId) (s : Schema) (entries : TagList)
    (placement : Placement) (r r₁ : Reader) (hschema : resolveSchema w type r = (.ok s, r₁))
    (hloads : ∀ entry ∈ s.attributes,
      TypeExpr.Loads (r₁.names.loaded? w) entry.2.type.parts) :
    ((onNames (Build.checked w type s (.tags entries) placement) r₁).1.isOk = true ↔
      Build.Accepts w (r₁.names.loaded? w) s entries placement) ∧
    (¬ Build.Accepts w (r₁.names.loaded? w) s entries placement →
      ∃ e r₂, Build.Refuses w (r₁.names.loaded? w) type s entries placement e ∧
        (s.Reportable w → e.isAnnotationError = true) ∧
        Reader.build w type (.tags entries) placement r = (.error e, r₂) ∧
        buildRecorded w (resolveWithin w (depth w r) false) none type (.tags entries) placement
          (r, []) = (.error e, r₂, [])) := by
  rw [resolveSchema, Run.bind_ok (Run.get_apply r)] at hschema
  rcases @Build.checked_cases w _ type s entries placement hloads r₁.names rfl with
    ⟨haccepts, n', hchecked⟩ | ⟨e, n', hrefuses, hchecked⟩
  · have hok : onNames (Build.checked w type s (.tags entries) placement) r₁ =
        (.ok ((Build.arguments s entries).map (Build.keyed s)), { r₁ with names := n' }) := by
      rw [onNames, hchecked]
    rw [hok]
    exact ⟨iff_of_true rfl haccepts, fun h => absurd haccepts h⟩
  · have hrefused : onNames (Build.checked w type s (.tags entries) placement) r₁ =
        (.error e, { r₁ with names := n' }) := by
      rw [onNames, hchecked]
    have hrun := buildRecorded_of_refused none hschema hrefused []
    have hbuild := build_eq (w := w) type (.tags entries) placement r
    rw [buildWith_eq_recorded none [], hrun] at hbuild
    rw [hrefused]
    exact ⟨iff_of_false Bool.false_ne_true hrefuses.not_accepts, fun _ =>
      ⟨e, _, hrefuses, hrefuses.isAnnotationError, hbuild, hrun⟩⟩

/-- A reader with a schema for one class: two attributes are required, and one is an array of given
values. -/
def choosyReader : Reader :=
  (start [] false).register "app.A"
    { attributes :=
        [("a", { name := "a", type := .list (.enum [.int 1, .str "x"]), required := true }),
          ("b", { name := "b", type := .ref "app.A", nullable := true }),
          ("c", { name := "c", required := true })] }

/-- Of the things that are wrong with these arguments, the second element of the array comes
first. -/
theorem accepts_exactly_valid_choosy :
    let entries : TagList := [(some "b", .null), (some "a", .list [.int 1, .int 2]),
      (some "d", .int 3)]
    ∃ s r₁ r₂, resolveSchema oneClass "app.A" choosyReader = (.ok s, r₁) ∧
      ¬ Build.Accepts oneClass (r₁.names.loaded? oneClass) s entries .onClass ∧
      Build.Refuses oneClass (r₁.names.loaded? oneClass) "app.A" s entries .onClass
        (.mismatch "a[1]" (.oneOf ["1", "x"])) ∧
      buildRecorded oneClass (resolveWithin oneClass (depth oneClass choosyReader) false) none
        "app.A" (.tags entries) .onClass (choosyReader, []) =
          (.error (.mismatch "a[1]" (.oneOf ["1", "x"])), r₂, []) := by
  intro entries
  have hchecks : (match resolveSchema oneClass "app.A" choosyReader with
      | (.error _, _) => false
      | (.ok s, r₁) =>
        decide (∀ entry ∈ s.attributes,
          TypeExpr.Loads (r₁.names.loaded? oneClass) entry.2.type.parts) &&
        !(onNames (Build.checked oneClass "app.A" s (.tags entries) .onClass) r₁).1.isOk) =
      true := by decide +kernel
  have herror : (match Reader.build oneClass "app.A" (.tags entries) .onClass choosyReader with
      | (.error e, _) => some e
      | (.ok _, _) => none) = some (.mismatch "a[1]" (.oneOf ["1", "x"])) := by decide +kernel
  rcases hschema : resolveSchema oneClass "app.A" choosyReader with ⟨e | s, r₁⟩
  · rw [hschema] at hchecks
    cases hchecks
  · rw [hschema] at hchecks
    simp only [Bool.and_eq_true, decide_eq_true_eq, Bool.not_eq_true'] at hchecks
    obtain ⟨hpass, hrefuse⟩ := accepts_exactly_valid oneClass "app.A" s entries .onClass
      choosyReader r₁ hschema hchecks.1
    have hnot : ¬ Build.Accepts oneClass (r₁.names.loaded? oneClass) s entries .onClass := by
      rw [← hpass, hchecks.2]
      exact Bool.false_ne_true
    obtain ⟨e, r₂, hrefuses, -, hbuild, hrecord⟩ := hrefuse hnot
    rw [hbuild] at herror
    obtain rfl := Option.some.inj herror
    exact ⟨s, r₁, r₂, rfl, hnot, hrefuses, hrecord⟩

end Reader
end DocTags
