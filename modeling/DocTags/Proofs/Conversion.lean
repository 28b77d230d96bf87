import DocTags.Proofs.Checking
import DocTags.Reader.Resolve
import Mathlib.Data.List.Forall2

/-!
# What annotations are given

The values of an annotation are checked as they were written, and converted before they are handed
to the constructor and to the accessors.  A tag list counts as an array, whether or not its entries
have keys.  Its native form is an array only if some entry has no key: a list all of whose entries
have keys becomes a dictionary.  So conversion may lead out of a type.

`keepsForm` tells where this cannot happen.  `conforms_native` says that it is exact: the native
form of a value that conforms to a type conforms to it if and only if the value keeps its form.  The
main result, `handed_values_conform`, carries this over to every annotation that is built.
-/

namespace DocTags

/-! ## Native forms -/

namespace Value

/-- `true` on tag lists, the only values that conversion changes. -/
def isTags : Value → Bool
  | tags _ => true
  | _ => false

lemma native_of_not_isTags {v : Value} (h : v.isTags = false) : v.native = v := by
  cases v with
  | tags entries => exact absurd h (by simp [isTags])
  | _ => rw [native]; simp

lemma nativeItems_eq_map (entries : TagList) :
    nativeItems entries = (TagList.values entries).map native := by
  induction entries with
  | nil => rfl
  | cons entry entries ih =>
    rw [nativeItems, ih]
    rfl

lemma native_unkeyed {entries : TagList} (h : entries.any hasKey = false) :
    (tags entries).native = list ((TagList.values entries).map native) := by
  rw [native, h, nativeItems_eq_map]
  rfl

lemma native_keyed {entries : TagList} (h : entries.any hasKey = true)
    (hall : entries.all hasKey = true) : (tags entries).native = dict (nativePairs entries) := by
  rw [native, h, hall]
  rfl

lemma native_mixed {entries : TagList} (h : entries.any hasKey = true)
    (hall : entries.all hasKey = false) : (tags entries).native = tags entries := by
  rw [native, h, hall]
  rfl

/-- Converting a second time changes nothing. -/
lemma native_native (v : Value) : v.native.native = v.native := by
  cases v with
  | tags entries =>
    cases hany : entries.any hasKey with
    | false =>
      rw [native_unkeyed hany]
      exact native_of_not_isTags rfl
    | true =>
      cases hall : entries.all hasKey with
      | true =>
        rw [native_keyed hany hall]
        exact native_of_not_isTags rfl
      | false => rw [native_mixed hany hall, native_mixed hany hall]
  | _ => rw [native_of_not_isTags rfl, native_of_not_isTags rfl]

lemma native_eq_null {v : Value} : v.native = null ↔ v = null := by
  cases v with
  | tags entries =>
    refine ⟨fun h => ?_, fun h => nomatch h⟩
    rw [native] at h
    split at h
    · nomatch h
    · split at h <;> nomatch h
  | _ => rw [native_of_not_isTags rfl]

end Value

/-! ## Conversion inside a type -/

namespace TypeExpr

/-- `true` on lists with equal elements. -/
def isListOf (items : List Value) : Value → Bool
  | .list others => Value.equalItems others items
  | _ => false

/-- `true` on dictionaries with equal pairs. -/
def isDictOf (pairs : List (Value × Value)) : Value → Bool
  | .dict others => others.length == pairs.length && Value.equalPairs others pairs
  | _ => false

variable (w : World) (find : TypeId → Option TypeId)

mutual

/-- `true` when conversion does not lead out of the type: no list with keys only stands where an
array is asked for; where one of some values is asked for, the array or the dictionary that a list
becomes is among them; and where an object of a class is asked for, it is the class of arrays or of
dictionaries, or one that these descend from.  A list with some keys stays as it is, with all that
is inside it. -/
def keepsForm (v : Value) : TypeExpr → Bool
  | .enum values =>
    match v with
    | .tags entries =>
      if entries.any hasKey then
        !entries.all hasKey || values.any (isDictOf (Value.nativePairs entries))
      else values.any (isListOf ((TagList.values entries).map Value.native))
    | _ => true
  | .ref type =>
    match v with
    | .tags entries =>
      if entries.any hasKey then
        !entries.all hasKey || (find type).any (w.ancestryOfAll (builtin "dict")).contains
      else (find type).any (w.ancestryOfAll (builtin "list")).contains
    | _ => true
  | .tuple items =>
    match v with
    | .tags entries =>
      if entries.any hasKey then !entries.all hasKey
      else keepsFormEach (TagList.values entries) items
    | _ => true
  | .list item =>
    match v with
    | .tags entries =>
      if entries.any hasKey then !entries.all hasKey
      else (TagList.values entries).all fun v => keepsForm v item
    | _ => true
  | _ => true

/-- `keepsForm` of values with one type each. -/
def keepsFormEach (vs : List Value) : List TypeExpr → Bool
  | [] => true
  | t :: ts =>
    match vs with
    | [] => true
    | v :: vs => keepsForm v t && keepsFormEach vs ts

end

variable {w find}

lemma isBuiltin_builtin (name : String) : isBuiltin (builtin name) = true := by
  simp [isBuiltin, builtin, String.toList_append]

/-- No program has a say in comparisons of values whose class is one of the language. -/
lemma isMember_of_isBuiltin {v : Value} {name : String} (hv : v.typeOf = builtin name)
    (values : List Value) :
    isMember w v values = values.any fun a => a.typeOf == v.typeOf && a.equal v := by
  have hnone : ∀ a : Value, a.typeOf = v.typeOf → w.comparison? a = none := by
    intro a ha
    cases a with
    | object origin type fields =>
      exact if_pos ((congrArg isBuiltin (ha.trans hv)).trans (isBuiltin_builtin name))
    | _ => rfl
  refine List.any_congr rfl fun a => ?_
  by_cases ha : a.typeOf = v.typeOf
  · rw [World.equal, hnone a ha, hnone v rfl]
  · rw [beq_eq_false_iff_ne.2 ha, Bool.false_and, Bool.false_and]

lemma isMember_list (items values : List Value) :
    isMember w (.list items) values = values.any (isListOf items) := by
  rw [isMember_of_isBuiltin rfl]
  refine List.any_congr rfl fun a => ?_
  cases a <;> simp [isListOf, Value.typeOf, Value.equal, builtin, tagListType, Value.number?]

lemma isMember_dict (pairs : List (Value × Value)) (values : List Value) :
    isMember w (.dict pairs) values = values.any (isDictOf pairs) := by
  rw [isMember_of_isBuiltin rfl]
  refine List.any_congr rfl fun a => ?_
  cases a <;> simp [isDictOf, Value.typeOf, Value.equal, builtin, tagListType, Value.number?]

lemma keepsForm_of_not_isTags {v : Value} (h : v.isTags = false) (t : TypeExpr) :
    keepsForm w find v t = true := by
  cases v with
  | tags entries => exact absurd h (by simp [Value.isTags])
  | _ => cases t <;> (rw [keepsForm] <;> simp)

/-- A list with some keys stays what it is, and one with keys only becomes a dictionary. -/
lemma conforms_native_of_hasKey {entries : TagList} {t : TypeExpr}
    (hany : entries.any hasKey = true) (h : conforms w find (.tags entries) t = true) :
    conforms w find (Value.tags entries).native t =
      (!entries.all hasKey || conforms w find (.dict (Value.nativePairs entries)) t) := by
  cases hall : entries.all hasKey with
  | true => rw [Value.native_keyed hany hall, Bool.not_true, Bool.false_or]
  | false => rw [Value.native_mixed hany hall, h, Bool.not_false, Bool.true_or]

mutual

/-- A value that conforms to a type does so after conversion exactly when it keeps its form. -/
theorem conforms_native (v : Value) (t : TypeExpr) (h : conforms w find v t = true) :
    conforms w find v.native t = keepsForm w find v t := by
  cases hv : v.isTags with
  | false => rw [keepsForm_of_not_isTags hv, Value.native_of_not_isTags hv, h]
  | true =>
    match v, t with
    | .tags entries, .mixed => rfl
    | .tags entries, .string => exact absurd h (by simp [conforms])
    | .tags entries, .number => exact absurd h (by simp [conforms, isNumeric])
    | .tags entries, .integer => exact absurd h (by simp [conforms, isInteger])
    | .tags entries, .float => exact absurd h (by simp [conforms])
    | .tags entries, .boolean => exact absurd h (by simp [conforms])
    | .tags entries, .enum values =>
      rw [keepsForm]
      cases hany : entries.any hasKey with
      | true =>
        rw [conforms_native_of_hasKey hany h, conforms, isMember_dict]
        rfl
      | false => rw [Value.native_unkeyed hany, conforms, isMember_list]; rfl
    | .tags entries, .ref type =>
      rw [keepsForm]
      cases hany : entries.any hasKey with
      | true =>
        rw [conforms_native_of_hasKey hany h, conforms]
        rfl
      | false => rw [Value.native_unkeyed hany, conforms]; rfl
    | .tags entries, .foreign _ => exact absurd h (by simp [conforms])
    | .tags entries, .tuple items =>
      rw [keepsForm]
      cases hany : entries.any hasKey with
      | true =>
        rw [conforms_native_of_hasKey hany h]
        simp [conforms, arrayItems?]
      | false =>
        rw [Value.native_unkeyed hany]
        simp only [conforms, arrayItems?, Bool.or_eq_true, Bool.and_eq_true] at h
        rcases h with h | ⟨hlen, h⟩
        · rw [List.isEmpty_iff.1 h]
          rfl
        · simp only [conforms, arrayItems?, List.length_map, hlen, Bool.true_and,
            Bool.false_eq_true, if_false]
          rw [conformsEach_native _ items h]
          cases items <;> rfl
    | .tags entries, .list item =>
      rw [keepsForm]
      cases hany : entries.any hasKey with
      | true =>
        rw [conforms_native_of_hasKey hany h]
        simp [conforms, arrayItems?]
      | false =>
        rw [Value.native_unkeyed hany]
        simp only [conforms, arrayItems?, List.all_eq_true] at h
        simp only [conforms, arrayItems?, List.all_map, Bool.false_eq_true, if_false]
        rw [Bool.eq_iff_iff, List.all_eq_true, List.all_eq_true]
        refine forall₂_congr fun v hv => ?_
        rw [Function.comp_apply, conforms_native v item (h v hv)]

theorem conformsEach_native (vs : List Value) (ts : List TypeExpr)
    (h : conformsEach w find vs ts = true) :
    conformsEach w find (vs.map Value.native) ts = keepsFormEach w find vs ts := by
  match ts with
  | [] => rfl
  | t :: ts =>
    match vs with
    | [] => rfl
    | v :: vs =>
      rw [conformsEach, Bool.and_eq_true] at h
      rw [List.map_cons, conformsEach, keepsFormEach, conforms_native v t h.1,
        conformsEach_native vs ts h.2]

end

end TypeExpr

/-! ## Building -/

namespace Build

variable {w : World}

/-- The attributes with the values that are handed over for them. -/
def handed (attributes : Keyed Value) : Keyed Value :=
  attributes.map fun (name, v) => (name, v.native)

lemma get?_handed (attributes : Keyed Value) (name : String) :
    (handed attributes).get? name = (attributes.get? name).map Value.native := by
  induction attributes with
  | nil => rfl
  | cons entry attributes ih =>
    obtain ⟨key, v⟩ := entry
    simp only [handed, Keyed.get?, List.map_cons, List.lookup_cons] at ih ⊢
    cases name == key with
    | true => rfl
    | false => exact ih

lemma erase_handed (attributes : Keyed Value) (name : String) :
    (handed attributes).erase name = handed (attributes.erase name) := by
  simp only [handed, Keyed.erase, List.filter_map]
  rfl

lemma takeArgs_handed (s : Schema) (names : List String) (attributes : Keyed Value) :
    takeArgs s names (handed attributes) =
      ((takeArgs s names attributes).1, handed (takeArgs s names attributes).2) := by
  induction names generalizing attributes with
  | nil => rfl
  | cons name names ih =>
    rw [takeArgs, takeArgs, get?_handed]
    cases attributes.get? name with
    | none =>
      simp only [Option.map_none]
      rw [ih attributes]
    | some v =>
      simp only [Option.map_some]
      rw [erase_handed, ih, Value.native_native]

lemma apply_native (found : TypeId) (s : Schema) (fields : Keyed Value) (name : String)
    (v : Value) : apply w found s fields name v.native = apply w found s fields name v := by
  rw [apply, Value.native_native]
  rfl

lemma applyAll_handed (found : TypeId) (s : Schema) (fields attributes : Keyed Value) :
    applyAll w found s fields (handed attributes) = applyAll w found s fields attributes := by
  induction attributes generalizing fields with
  | nil => rfl
  | cons entry attributes ih =>
    obtain ⟨name, v⟩ := entry
    rw [handed, List.map_cons, applyAll, applyAll, apply_native]
    exact bind_congr fun fields => ih fields

/-- Nothing but the native values goes into an object. -/
lemma construct_handed (found : TypeId) (s : Schema) (attributes : Keyed Value) :
    construct w found s (handed attributes) = construct w found s attributes := by
  unfold construct
  rw [takeArgs_handed]
  exact bind_congr fun fields => applyAll_handed found s fields _

/-- The attribute that a pair was taken for: its name and its value, which conforms to the declared
type or is a null that the declaration allows. -/
def Matches (w : World) (find : TypeId → Option TypeId) (type : TypeId) (s : Schema)
    (pair : Value × Value) (name : String) (spec : AttributeSpec) : Prop :=
  specOf w type s pair.1 = .ok (name, spec) ∧
    (pair.2 = .null ∧ spec.nullable = true ∨ TypeExpr.conforms w find pair.2 spec.type = true)

lemma checkAttributes_ok {type : TypeId} {s : Schema} {pairs : List (Value × Value)} {n n' : Names}
    {attributes : Keyed Value} (h : checkAttributes w type s pairs n = (.ok attributes, n')) :
    n'.loaded? w = n.loaded? w ∧
      List.Forall₂ (fun pair entry => entry.2 = pair.2 ∧
        ∃ spec, Matches w (n.loaded? w) type s pair entry.1 spec) pairs attributes := by
  induction pairs generalizing n n' attributes with
  | nil =>
    cases h
    exact ⟨rfl, .nil⟩
  | cons pair pairs ih =>
    obtain ⟨label, v⟩ := pair
    rw [checkAttributes] at h
    obtain ⟨⟨name, spec⟩, n₁, hspec, h⟩ := Run.bind_eq_ok h
    rw [Run.liftExcept_apply] at hspec
    obtain ⟨hfound, rfl⟩ := Prod.mk.inj hspec
    dsimp only at h
    -- the two ways in which an attribute passes go on alike
    suffices hpass : ∃ n₂ : Names, n₂.loaded? w = n.loaded? w ∧
        (v = .null ∧ spec.nullable = true ∨
          TypeExpr.conforms w (n.loaded? w) v spec.type = true) ∧
        ((checkAttributes w type s pairs >>= fun rest => pure ((name, v) :: rest)) :
          Run Names (Keyed Value)) n₂ = (.ok attributes, n') by
      obtain ⟨n₂, hstate, hconf, h⟩ := hpass
      obtain ⟨rest, n₃, hrest, h⟩ := Run.bind_eq_ok h
      cases h
      obtain ⟨hstate', hall⟩ := ih hrest
      rw [hstate] at hstate' hall
      exact ⟨hstate', .cons ⟨rfl, spec, hfound, hconf⟩ hall⟩
    generalize spec.nullable = b at h
    split at h
    · exact ⟨n, rfl, .inl ⟨rfl, rfl⟩, h⟩
    · obtain ⟨u, n₂, hcheck, h⟩ := Run.bind_eq_ok h
      obtain ⟨hdecides, hstate⟩ := TypeExpr.check_decides name v spec.type n rfl
      rw [hcheck] at hdecides hstate
      exact ⟨n₂, hstate, .inr (hdecides.1 rfl), h⟩

/-- Checks that pass have passed one after the other. -/
lemma checked_eq_ok {type : TypeId} {s : Schema} {supplied : Value} {placement : Placement}
    {n n' : Names} {attributes : Keyed Value}
    (h : checked w type s supplied placement n = (.ok attributes, n')) :
    ∃ pairs, normalize type s supplied = .ok pairs ∧
      checkAttributes w type s pairs n = (.ok attributes, n') ∧
      checkRequired s attributes = .ok () := by
  unfold checked at h
  split at h
  · obtain ⟨u, n₀, hthrow, -⟩ := Run.bind_eq_ok h
    cases hthrow
  · obtain ⟨pairs, n₁, hpairs, h⟩ := Run.bind_eq_ok h
    obtain ⟨found, n₂, hattributes, h⟩ := Run.bind_eq_ok h
    obtain ⟨u, n₃, hrequired, h⟩ := Run.bind_eq_ok h
    rw [Run.liftExcept_apply] at hpairs hrequired
    obtain ⟨hnormal, rfl⟩ := Prod.mk.inj hpairs
    obtain ⟨hpresent, rfl⟩ := Prod.mk.inj hrequired
    cases h
    exact ⟨pairs, hnormal, hattributes, hpresent⟩

/-- The checks before an object is made tell which attribute each pair was taken for. -/
lemma checked_ok {type : TypeId} {s : Schema} {supplied : Value} {placement : Placement}
    {n n' : Names} {attributes : Keyed Value}
    (h : checked w type s supplied placement n = (.ok attributes, n')) :
    n'.loaded? w = n.loaded? w ∧ ∃ pairs, normalize type s supplied = .ok pairs ∧
      List.Forall₂ (fun pair entry => entry.2 = pair.2 ∧
        ∃ spec, Matches w (n.loaded? w) type s pair entry.1 spec) pairs attributes := by
  obtain ⟨pairs, hnormal, hattributes, -⟩ := checked_eq_ok h
  obtain ⟨hstate, hall⟩ := checkAttributes_ok hattributes
  exact ⟨hstate, pairs, hnormal, hall⟩

end Build

namespace Reader

lemma onNames_eq_ok {α : Type} {act : Run Names α} {r r' : Reader} {a : α}
    (h : onNames act r = (.ok a, r')) : act r.names = (.ok a, r'.names) := by
  unfold onNames at h
  rcases hact : act r.names with ⟨result, n⟩
  rw [hact] at h
  cases h
  rfl

/-- An annotation that is built went through all steps of building. -/
lemma buildWith_eq_ok {w : World} {schemaOf : TypeId → Run Reader Schema} {owner : Option TypeId}
    {type : TypeId} {supplied : Value} {placement : Placement} {r r' : Reader} {built : Value}
    (h : buildWith w schemaOf owner type supplied placement r = (.ok built, r')) :
    ∃ s r₁ attributes n found fields, schemaOf type r = (.ok s, r₁) ∧
      Build.checked w type s supplied placement r₁.names = (.ok attributes, n) ∧
      Names.load w type n = (.ok found, r'.names) ∧
      Build.construct w found s attributes = .ok fields ∧
      built = .object (.built owner) found fields := by
  unfold buildWith at h
  obtain ⟨s, r₁, hschema, h⟩ := Run.bind_eq_ok h
  obtain ⟨attributes, r₂, hchecked, h⟩ := Run.bind_eq_ok h
  obtain ⟨found, r₃, hload, h⟩ := Run.bind_eq_ok h
  obtain ⟨fields, r₄, hfields, h⟩ := Run.bind_eq_ok h
  rw [Run.liftExcept_apply] at hfields
  obtain ⟨hconstruct, rfl⟩ := Prod.mk.inj hfields
  obtain ⟨hbuilt, rfl⟩ := Prod.mk.inj h
  exact ⟨s, r₁, attributes, r₂.names, found, fields, hschema, onNames_eq_ok hchecked,
    onNames_eq_ok hload, hconstruct, (Except.ok.inj hbuilt).symm⟩

/-- Every annotation that is built is made of the native forms of the values supplied for it.  The
native form of the value of an attribute is a null that the attribute allows, or passes the check of
the declared type, exactly when the value keeps its form in that type. -/
theorem handed_values_conform (w : World) (schemaOf : TypeId → Run Reader Schema)
    (owner : Option TypeId) (type : TypeId) (supplied : Value) (placement : Placement)
    (r r' : Reader) (built : Value)
    (h : buildWith w schemaOf owner type supplied placement r = (.ok built, r')) :
    ∃ s r₁ pairs attributes found fields,
      schemaOf type r = (.ok s, r₁) ∧ Build.normalize type s supplied = .ok pairs ∧
      built = .object (.built owner) found fields ∧
      Build.construct w found s (Build.handed attributes) = .ok fields ∧
      (∀ entry ∈ Build.handed attributes, entry.2.native = entry.2) ∧
      List.Forall₂ (fun pair entry => entry.2 = pair.2 ∧ ∃ spec,
        Build.specOf w type s pair.1 = .ok (entry.1, spec) ∧
        ((pair.2.native = .null ∧ spec.nullable = true ∨
            (TypeExpr.check w (some (Names.load w)) entry.1 pair.2.native spec.type r'.names).1 =
              .ok ()) ↔
          TypeExpr.keepsForm w (r'.names.loaded? w) pair.2 spec.type = true))
        pairs attributes := by
  obtain ⟨s, r₁, attributes, n, found, fields, hschema, hchecked, hload, hfields, hbuilt⟩ :=
    buildWith_eq_ok h
  obtain ⟨hstate, pairs, hnormal, hall⟩ := Build.checked_ok hchecked
  have hfind : r'.names.loaded? w = r₁.names.loaded? w := by
    obtain ⟨n', hn', hload'⟩ := Names.load_apply w n type
    rw [hload] at hload'
    rw [(Prod.mk.inj hload').2, hn', hstate]
  refine ⟨s, r₁, pairs, attributes, found, fields, hschema, hnormal, hbuilt, ?_, ?_, ?_⟩
  · rw [Build.construct_handed, hfields]
  · intro entry hentry
    obtain ⟨⟨name, v⟩, -, rfl⟩ := List.mem_map.1 hentry
    exact Value.native_native v
  · refine hall.imp fun pair entry hmatch => ?_
    obtain ⟨heq, spec, hspec, hconf⟩ := hmatch
    refine ⟨heq, spec, hspec, ?_⟩
    rw [(TypeExpr.check_decides entry.1 pair.2.native spec.type r'.names rfl).1, hfind,
      Value.native_eq_null]
    rcases hconf with hnull | hconf
    · rw [hnull.1, TypeExpr.keepsForm_of_not_isTags rfl]
      simp [hnull.2]
    · rw [TypeExpr.conforms_native _ _ hconf]
      refine ⟨?_, .inr⟩
      rintro (⟨hnull, -⟩ | hkeeps)
      · rw [hnull, TypeExpr.keepsForm_of_not_isTags rfl]
      · exact hkeeps

/-- A world with one class, which has no constructor. -/
def oneClass : World where
  modules := [("app", [("A", .cls "app.A")])]
  classes := [("app.A", { id := "app.A", home := "app" })]

/-- A reader with a schema for that class: its one attribute is an array of integers. -/
def integersReader : Reader :=
  (start [] false).register "app.A"
    { attributes := [("a", { name := "a", type := .list .integer })] }

/-- Building from a list without keys. -/
theorem handed_values_conform_unkeyed : ∃ built r',
    buildWith oneClass (resolveSchema oneClass) none "app.A"
      (.tags [(some "a", .tags [(none, .int 1), (none, .int 2)])]) .onClass integersReader =
        (.ok built, r') ∧
    ∃ s attributes found fields, built = .object (.built none) found fields ∧
      Build.construct oneClass found s (Build.handed attributes) = .ok fields := by
  rcases hrun : buildWith oneClass (resolveSchema oneClass) none "app.A"
    (.tags [(some "a", .tags [(none, .int 1), (none, .int 2)])]) .onClass integersReader with
    ⟨e | built, r'⟩
  · have hok : (buildWith oneClass (resolveSchema oneClass) none "app.A"
        (.tags [(some "a", .tags [(none, .int 1), (none, .int 2)])]) .onClass
        integersReader).1.isOk = true := by decide +kernel
    rw [hrun] at hok
    exact absurd hok (by simp [Except.isOk, Except.toBool])
  · obtain ⟨s, r₁, pairs, attributes, found, fields, -, -, hbuilt, hfields, -⟩ :=
      handed_values_conform _ _ _ _ _ _ _ _ _ hrun
    exact ⟨built, r', rfl, s, attributes, found, fields, hbuilt, hfields⟩

/-- A list with keys only passes as an array of integers and is handed over as a dictionary, which
would not pass. -/
theorem keyed_list_leaves_array_type :
    let run := buildWith oneClass (resolveSchema oneClass) none "app.A"
      (.tags [(some "a", .tags [(some "x", .int 1)])]) .onClass integersReader
    (match run.1 with
      | .ok (.object _ _ fields) => (Keyed.get? fields "a").map Value.typeOf
      | _ => none) = some (builtin "dict") ∧
    (Value.tags [(some "x", .int 1)]).native = .dict [(.str "x", .int 1)] ∧
    ∀ pairs, (TypeExpr.check oneClass (some (Names.load oneClass)) "a" (.dict pairs)
      (.list .integer) run.2.names).1 ≠ .ok () := by
  intro run
  refine ⟨by decide +kernel, rfl, fun pairs => ?_⟩
  simp [TypeExpr.check, TypeExpr.arrayItems?]

end Reader
end DocTags
