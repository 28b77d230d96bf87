import DocTags.Proofs.Lineage
import DocTags.Proofs.Loading
import DocTags.TypeExpr.Declaration

/-!
# Which declarations declare a type

A declaration is null, a text, a class, a scalar, a set of placements, the missing mark or a
collection of declarations.  `Converts` says which of them declare a type, and which one: kinds and
classes by name, classes, and collections of such, where a collection of one declaration is an array
of any length and any other collection is an array of that length.  `Fails` says what goes wrong
with the others.  It follows a collection to the first of its elements that does not convert, so it
leads to the leftmost declaration that is to blame.

Class names are looked up as they are met, which may change what is known about names; so both
relations carry a state from left to right.

A set of placements is the collection of its members, and these are sets of placements again that
have themselves as their only members.  So a set with members leads to no type and to no declaration
that could be blamed, and its conversion never ends.

The main result is `ofDeclaration_exact`.
-/

namespace DocTags

namespace World

/-- The values of a class list no values and have no elements. -/
def IsPlain (w : World) (type : TypeId) : Prop :=
  w.member? type "values" = none ∧ w.member? type "__iter__" = none

/-- The ids that no class of a program has: those of the classes that are part of every world, and
those of the classes of moments. -/
def reservedTypes : List TypeId :=
  base.classes.names ++ ["datetime.date", "datetime.datetime"]

section OfModules

variable {modules : List ModuleSource} {classes : List Class}

lemma classes_addImport (w : World) (home short path : String) :
    (w.addImport home short path).classes = w.classes := by
  unfold addImport
  dsimp only
  split <;> rfl

lemma classes_foldl_addImport (w : World) (home : String) (imports : List (String × String)) :
    (imports.foldl (fun w (short, path) => w.addImport home short path) w).classes = w.classes := by
  induction imports generalizing w with
  | nil => rfl
  | cons entry imports ih => rw [List.foldl_cons, ih, classes_addImport]

lemma classes_ofModules :
    (ofModules modules classes).classes = base.classes.merge (classes.map fun c => (c.id, c)) := by
  unfold ofModules
  generalize hbare : World.mk _ _ = bare
  have hclasses : bare.classes = base.classes.merge (classes.map fun c => (c.id, c)) := by
    rw [← hbare]
  rw [← hclasses]
  clear hbare hclasses
  generalize modules = sources
  induction sources generalizing bare with
  | nil => rfl
  | cons m sources ih => rw [List.foldl_cons, ih, classes_foldl_addImport]

/-- Programs do not change the reserved classes. -/
lemma get?_classes_ofModules (h : ∀ c ∈ classes, c.id ∉ reservedTypes) {type : TypeId}
    (htype : type ∈ reservedTypes) :
    (ofModules modules classes).classes.get? type = base.classes.get? type := by
  rw [classes_ofModules]
  refine Keyed.get?_merge_of_not_has _ ?_
  rw [Keyed.has_eq_contains_names, Bool.eq_false_iff, ne_eq, List.contains_iff_mem]
  intro hmem
  obtain ⟨entry, hentry, rfl⟩ := List.mem_map.1 hmem
  obtain ⟨c, hc, rfl⟩ := List.mem_map.1 hentry
  exact h c hc htype

end OfModules

section Scalars

variable {modules : List ModuleSource} {classes : List Class}

/-- The classes of scalars and of the missing mark. -/
def scalarTypes : List TypeId :=
  [builtin "bool", builtin "int", builtin "float", "datetime.date", "datetime.datetime",
    missingType]

lemma scalarTypes_reserved : ∀ type ∈ objectType :: scalarTypes, type ∈ reservedTypes := by
  decide +kernel

/-- The bases of scalars, and of the class of all objects, are scalars. -/
lemma bases_base : ∀ type ∈ objectType :: scalarTypes, ∀ c, base.classes.get? type = some c →
    ∀ parent ∈ c.bases, parent ∈ objectType :: scalarTypes := by
  have h : ∀ type ∈ objectType :: scalarTypes, ∀ c ∈ base.classes.get? type,
      ∀ parent ∈ c.bases, parent ∈ objectType :: scalarTypes := by
    decide +kernel
  exact fun type htype c hc => h type htype c hc

lemma ownMember?_base : ∀ type ∈ objectType :: scalarTypes, ∀ name ∈ ["values", "__iter__"],
    (base.classes.get? type).bind (ownMember? · name) = none := by
  decide +kernel

/-- Scalars descend from scalars and from the class of all objects. -/
lemma ancestry_scalar (h : ∀ c ∈ classes, c.id ∉ reservedTypes) {type : TypeId}
    (htype : type ∈ scalarTypes) :
    ∀ id ∈ (ofModules modules classes).ancestryOfAll type, id ∈ objectType :: scalarTypes := by
  refine forall_mem_ancestryOfAll ?_ (List.mem_cons_self ..) (List.mem_cons_of_mem _ htype)
  intro type c htype hc base hbase
  rw [get?_classes_ofModules h (scalarTypes_reserved type htype)] at hc
  exact bases_base type htype c hc base hbase

/-- Scalars and the missing mark list no values and have no elements. -/
lemma isPlain_scalar (h : ∀ c ∈ classes, c.id ∉ reservedTypes) {type : TypeId}
    (htype : type ∈ scalarTypes) : (ofModules modules classes).IsPlain type := by
  have hmember : ∀ name ∈ ["values", "__iter__"],
      (ofModules modules classes).member? type name = none := by
    intro name hname
    rw [member?, List.findSome?_eq_none_iff]
    intro id hid
    have hscalar := ancestry_scalar h htype id hid
    rw [get?_classes_ofModules h (scalarTypes_reserved id hscalar), ownMember?_base id hscalar name
      hname]
    rfl
  exact ⟨hmember _ (by simp), hmember _ (by simp)⟩

end Scalars

end World

namespace TypeExpr

variable {σ : Type}

/-! ## What a declaration means -/

/-- The declarations that a collection of declarations consists of; those in a dictionary are its
keys. -/
def parts? : Value → Option (List Value)
  | .list items | .tuple items => some items
  | .dict pairs => some (pairs.map Prod.fst)
  | .tags entries => some (entries.map Prod.snd)
  | _ => none

/-- Scalars other than texts, and the missing mark. -/
inductive IsScalar : Value → Prop
  | bool (b : Bool) : IsScalar (.bool b)
  | int (n : Int) : IsScalar (.int n)
  | float (x : Binary64) (mark : Nat) : IsScalar (.float x mark)
  | moment (m : Moment) : IsScalar (.moment m)
  | missing : IsScalar .missing

/-- The values that are built from null, texts, classes, scalars, sets of placements and the missing
mark by collections. -/
inductive IsDeclaration : Value → Prop
  | null : IsDeclaration .null
  | text (s : String) : IsDeclaration (.str s)
  | cls (id : TypeId) : IsDeclaration (.cls id)
  | scalar {v : Value} (h : IsScalar v) : IsDeclaration v
  | placement (p : Placement) : IsDeclaration (.placement p)
  | collection {v : Value} {items : List Value} (hv : parts? v = some items)
      (h : ∀ item ∈ items, IsDeclaration item) : IsDeclaration v

mutual

/-- The declaration declares the type; the state goes from the first one to the last one. -/
inductive Converts (resolve : String → Run σ TypeId) : Value → σ → TypeExpr → σ → Prop
  | null {s : σ} : Converts resolve .null s .mixed s
  | kind {text : String} {t : TypeExpr} {s : σ} (h : ofKindText? text = some t) :
      Converts resolve (.str text) s t s
  | named {text : String} {id : TypeId} {s s' : σ} (h : ofKindText? text = none)
      (hid : resolve text s = (.ok id, s')) : Converts resolve (.str text) s (.ref id) s'
  | cls {id : TypeId} {s : σ} : Converts resolve (.cls id) s (ofClass id) s
  | nowhere {p : Placement} {s : σ} (h : p.members = []) :
      Converts resolve (.placement p) s (.tuple []) s
  | single {v item : Value} {t : TypeExpr} {s s' : σ} (hv : parts? v = some [item])
      (h : Converts resolve item s t s') : Converts resolve v s (.list t) s'
  | several {v : Value} {items : List Value} {ts : List TypeExpr} {s s' : σ}
      (hv : parts? v = some items) (hlength : items.length ≠ 1)
      (h : ConvertsAll resolve items s ts s') : Converts resolve v s (.tuple ts) s'

/-- The declarations declare the types, one after the other. -/
inductive ConvertsAll (resolve : String → Run σ TypeId) :
    List Value → σ → List TypeExpr → σ → Prop
  | nil {s : σ} : ConvertsAll resolve [] s [] s
  | cons {v : Value} {vs : List Value} {t : TypeExpr} {ts : List TypeExpr} {s s₁ s' : σ}
      (h : Converts resolve v s t s₁) (hrest : ConvertsAll resolve vs s₁ ts s') :
      ConvertsAll resolve (v :: vs) s (t :: ts) s'

end

/-- Why a declaration that is no collection declares no type. -/
inductive Refuses (w : World) (resolve : String → Run σ TypeId) :
    Value → σ → Error → σ → Prop
  | unresolved {text : String} {e : Error} {s s' : σ} (h : ofKindText? text = none)
      (he : resolve text s = (.error e, s')) : Refuses w resolve (.str text) s e s'
  | unsupported {v : Value} {shown : String} {s : σ} (hv : IsScalar v)
      (h : v.render w = .ok shown) : Refuses w resolve v s (.unsupportedDeclaration shown) s
  /-- The error shows the declaration, which may have too many digits for that. -/
  | textless {v : Value} {e : Error} {s : σ} (hv : IsScalar v) (h : v.render w = .error e) :
      Refuses w resolve v s e s
  /-- A set of placements that has members declares itself over again. -/
  | endless {p : Placement} {s : σ} (h : p.members ≠ []) :
      Refuses w resolve (.placement p) s (.misuse .recursion) s

/-- The leftmost declaration that declares no type is `blamed`, and it fails with the error. -/
inductive Fails (w : World) (resolve : String → Run σ TypeId) :
    Value → σ → Value → Error → σ → Prop
  | here {v : Value} {e : Error} {s s' : σ} (h : Refuses w resolve v s e s') :
      Fails w resolve v s v e s'
  | inside {v item blamed : Value} {before after : List Value} {ts : List TypeExpr} {e : Error}
      {s s₁ s' : σ} (hv : parts? v = some (before ++ item :: after))
      (hbefore : ConvertsAll resolve before s ts s₁) (h : Fails w resolve item s₁ blamed e s') :
      Fails w resolve v s blamed e s'

/-! ## What the conversion does -/

section Equations

variable {w : World} {resolve : String → Run σ TypeId}

lemma ofKeys_eq (pairs : List (Value × Value)) :
    ofKeys w resolve pairs = ofDeclarations w resolve (pairs.map Prod.fst) := by
  induction pairs with
  | nil => rfl
  | cons pair pairs ih =>
    rw [List.map_cons, ofDeclarations, ← ih]
    rfl

lemma ofEntries_eq (entries : List (Option String × Value)) :
    ofEntries w resolve entries = ofDeclarations w resolve (entries.map Prod.snd) := by
  induction entries with
  | nil => rfl
  | cons entry entries ih =>
    rw [List.map_cons, ofDeclarations, ← ih]
    rfl

/-- A collection is converted by its parts. -/
lemma ofDeclaration_of_parts {v : Value} {items : List Value} (hv : parts? v = some items) :
    ofDeclaration w resolve v = do return ofItems (← ofDeclarations w resolve items) := by
  cases v with
  | list | tuple =>
    cases hv
    simp only [ofDeclaration]
  | dict pairs =>
    cases hv
    simp only [ofDeclaration, ofKeys_eq]
  | tags entries =>
    cases hv
    simp only [ofDeclaration, ofEntries_eq]
  | _ => cases hv

lemma ofItems_of_length {ts : List TypeExpr} (h : ts.length ≠ 1) : ofItems ts = .tuple ts := by
  match ts with
  | [] | _ :: _ :: _ => rfl
  | [_] => exact absurd rfl h

end Equations

section Scalars

variable {w : World} {resolve : String → Run σ TypeId} {v : Value}

lemma IsScalar.typeOf_mem (hv : IsScalar v) : v.typeOf ∈ World.scalarTypes := by
  cases hv with
  | moment m =>
    rw [Value.typeOf, Moment.sortName]
    split <;> decide +kernel
  | _ => exact of_decide_eq_true rfl

lemma IsScalar.attribute?_eq_none (hv : IsScalar v) (hplain : w.IsPlain v.typeOf) :
    w.attribute? v "values" = none ∧ w.attribute? v "__iter__" = none := by
  cases hv <;> exact hplain

/-- Scalars are refused, with their text in the error. -/
lemma IsScalar.ofDeclaration_apply (hv : IsScalar v) (hplain : w.IsPlain v.typeOf) (s : σ) :
    ofDeclaration w resolve v s =
      ((v.render w).bind fun shown => .error (.unsupportedDeclaration shown), s) := by
  obtain ⟨hvalues, hiter⟩ := hv.attribute?_eq_none hplain
  have hother : ofOther w v =
      (v.render w).bind fun shown => .error (.unsupportedDeclaration shown) := by
    rw [ofOther, enumValues?, hvalues]
    simp only [hiter]
    rfl
  rw [← hother, ← Run.liftExcept_apply]
  cases hv <;> simp only [ofDeclaration]

end Scalars

section Runs

variable {w : World} {resolve : String → Run σ TypeId}

lemma ofDeclarations_cons_ok {v : Value} {vs : List Value} {t : TypeExpr} {ts : List TypeExpr}
    {s s₁ s' : σ} (h : ofDeclaration w resolve v s = (.ok t, s₁))
    (hrest : ofDeclarations w resolve vs s₁ = (.ok ts, s')) :
    ofDeclarations w resolve (v :: vs) s = (.ok (t :: ts), s') := by
  rw [ofDeclarations, Run.bind_ok h, Run.bind_ok hrest]
  rfl

lemma ofDeclarations_cons_error {v : Value} {s s' : σ} {e : Error}
    (h : ofDeclaration w resolve v s = (.error e, s')) (vs : List Value) :
    ofDeclarations w resolve (v :: vs) s = (.error e, s') := by
  rw [ofDeclarations, Run.bind_error h]

lemma ConvertsAll.length_eq {vs : List Value} {s s' : σ} {ts : List TypeExpr}
    (h : ConvertsAll resolve vs s ts s') : ts.length = vs.length := by
  match h with
  | .nil => rfl
  | .cons _ hvs => rw [List.length_cons, List.length_cons, hvs.length_eq]

mutual

lemma Converts.run_eq {v : Value} {s s' : σ} {t : TypeExpr} (h : Converts resolve v s t s') :
    ofDeclaration w resolve v s = (.ok t, s') := by
  match h with
  | .null | .cls =>
    simp only [ofDeclaration]
    rfl
  | .kind hkind =>
    simp only [ofDeclaration, hkind]
    rfl
  | .named hkind hid =>
    simp only [ofDeclaration, hkind]
    rw [Run.bind_ok hid]
    rfl
  | .nowhere hp =>
    simp only [ofDeclaration, ofPlacement, hp]
    rfl
  | .single hv hitem =>
    rw [ofDeclaration_of_parts hv, Run.bind_ok (ofDeclarations_cons_ok hitem.run_eq rfl)]
    rfl
  | .several hv hlength hitems =>
    rw [ofDeclaration_of_parts hv, Run.bind_ok hitems.run_eq,
      ofItems_of_length (hitems.length_eq ▸ hlength)]
    rfl

lemma ConvertsAll.run_eq {vs : List Value} {s s' : σ} {ts : List TypeExpr}
    (h : ConvertsAll resolve vs s ts s') : ofDeclarations w resolve vs s = (.ok ts, s') := by
  match h with
  | .nil => rfl
  | .cons hv hvs => exact ofDeclarations_cons_ok hv.run_eq hvs.run_eq

end

lemma ConvertsAll.run_append_error {before : List Value} {s s₁ s' : σ} {ts : List TypeExpr}
    (h : ConvertsAll resolve before s ts s₁) {vs : List Value} {e : Error}
    (hvs : ofDeclarations w resolve vs s₁ = (.error e, s')) :
    ofDeclarations w resolve (before ++ vs) s = (.error e, s') := by
  match h with
  | .nil => exact hvs
  | .cons hv hbefore =>
    rw [List.cons_append, ofDeclarations, Run.bind_ok hv.run_eq,
      Run.bind_error (hbefore.run_append_error hvs)]

lemma Refuses.run_eq (hplain : ∀ type ∈ World.scalarTypes, w.IsPlain type) {v : Value} {s s' : σ}
    {e : Error} (h : Refuses w resolve v s e s') :
    ofDeclaration w resolve v s = (.error e, s') := by
  cases h with
  | unresolved hkind he =>
    simp only [ofDeclaration, hkind]
    rw [Run.bind_error he]
  | unsupported hv hshown | textless hv hshown =>
    rw [hv.ofDeclaration_apply (hplain _ hv.typeOf_mem), hshown]
    rfl
  | endless hp =>
    simp only [ofDeclaration, ofPlacement, List.isEmpty_eq_false_iff.2 hp]
    rfl

lemma Fails.run_eq (hplain : ∀ type ∈ World.scalarTypes, w.IsPlain type) {v blamed : Value}
    {s s' : σ} {e : Error} (h : Fails w resolve v s blamed e s') :
    ofDeclaration w resolve v s = (.error e, s') := by
  induction h with
  | here h => exact h.run_eq hplain
  | inside hv hbefore _ ih =>
    rw [ofDeclaration_of_parts hv,
      Run.bind_error (hbefore.run_append_error (ofDeclarations_cons_error ih _))]

end Runs

section Total

variable (w : World) (resolve : String → Run σ TypeId)

/-- In a list of declarations each of which converts or fails, all convert or there is a first one
that fails. -/
lemma convertsAll_or_fails {items : List Value}
    (h : ∀ item ∈ items, ∀ s, (∃ t s', Converts resolve item s t s') ∨
      ∃ blamed e s', Fails w resolve item s blamed e s') (s : σ) :
    (∃ ts s', ConvertsAll resolve items s ts s') ∨
      ∃ before item after ts s₁ blamed e s', items = before ++ item :: after ∧
        ConvertsAll resolve before s ts s₁ ∧ Fails w resolve item s₁ blamed e s' := by
  induction items generalizing s with
  | nil => exact .inl ⟨[], s, .nil⟩
  | cons v vs ih =>
    rw [List.forall_mem_cons] at h
    rcases h.1 s with ⟨t, s₁, hv⟩ | ⟨blamed, e, s', hv⟩
    · rcases ih h.2 s₁ with ⟨ts, s', hvs⟩ | ⟨before, item, after, ts, s₂, blamed, e, s', rfl, hvs⟩
      · exact .inl ⟨t :: ts, s', .cons hv hvs⟩
      · exact .inr ⟨v :: before, item, after, t :: ts, s₂, blamed, e, s', rfl, .cons hv hvs.1,
          hvs.2⟩
    · exact .inr ⟨[], v, vs, [], s, blamed, e, s', rfl, .nil, hv⟩

/-- A declaration declares a type or fails. -/
lemma converts_or_fails {v : Value} (hv : IsDeclaration v) (s : σ) :
    (∃ t s', Converts resolve v s t s') ∨ ∃ blamed e s', Fails w resolve v s blamed e s' := by
  induction hv generalizing s with
  | null => exact .inl ⟨_, _, .null⟩
  | cls id => exact .inl ⟨_, _, .cls⟩
  | text text =>
    cases hkind : ofKindText? text with
    | some t => exact .inl ⟨t, s, .kind hkind⟩
    | none =>
      rcases hid : resolve text s with ⟨e | id, s'⟩
      · exact .inr ⟨_, e, s', .here (.unresolved hkind hid)⟩
      · exact .inl ⟨_, s', .named hkind hid⟩
  | @scalar v hv =>
    cases hshown : v.render w with
    | ok shown => exact .inr ⟨v, _, s, .here (.unsupported hv hshown)⟩
    | error e => exact .inr ⟨v, e, s, .here (.textless hv hshown)⟩
  | placement p =>
    by_cases hp : p.members = []
    · exact .inl ⟨_, s, .nowhere hp⟩
    · exact .inr ⟨_, _, s, .here (.endless hp)⟩
  | @collection v items hv _ ih =>
    rcases convertsAll_or_fails w resolve ih s with
      ⟨ts, s', hitems⟩ | ⟨before, item, after, ts, s₁, blamed, e, s', rfl, hbefore, hitem⟩
    · by_cases hlength : items.length = 1
      · obtain ⟨item, rfl⟩ := List.length_eq_one_iff.1 hlength
        rcases hitems with _ | ⟨hitem, ⟨⟩⟩
        exact .inl ⟨_, s', .single hv hitem⟩
      · exact .inl ⟨_, s', .several hv hlength hitems⟩
    · exact .inr ⟨blamed, e, s', .inside hv hbefore hitem⟩

end Total

/-- What is blamed for a failure: a name that is not found and a scalar give an error about
annotations, which names them.  The exceptions are integers with too many digits to be shown, and
sets of placements that have members. -/
lemma Fails.error_cases {w : World} {resolve : String → Run σ TypeId}
    (hresolve : ∀ name s e s', resolve name s = (.error e, s') → ∃ missing, e = .unresolved missing)
    {v blamed : Value} {s s' : σ} {e : Error} (h : Fails w resolve v s blamed e s') :
    e.isAnnotationError = true ∨
      (e = .illegible .tooLarge ∧
        ∃ n : Int, blamed = .int n ∧ Nat.pow 10 Numeral.maxDigits ≤ n.natAbs) ∨
      (e = .misuse .recursion ∧ ∃ p : Placement, blamed = .placement p ∧ p.members ≠ []) := by
  induction h with
  | inside _ _ _ ih => exact ih
  | here h =>
    cases h with
    | unresolved _ he =>
      obtain ⟨missing, rfl⟩ := hresolve _ _ _ _ he
      exact .inl rfl
    | unsupported _ _ => exact .inl rfl
    | endless hp => exact .inr (.inr ⟨rfl, _, rfl, hp⟩)
    | textless hv hshown =>
      cases hv with
      | int n =>
        have hdigits : digitsOf n = .error _ := hshown
        unfold digitsOf at hdigits
        split at hdigits
        · next hlarge =>
          cases hdigits
          exact .inr (.inl ⟨rfl, n, rfl, hlarge⟩)
        · cases hdigits
      | _ => cases hshown

/-- Every declaration declares a type or is refused, in every state and whatever is known about
names.  It is converted exactly if `Converts` gives it a type, which is the type it gets; otherwise
it is refused with the error about the leftmost declaration that has no type, which is an error
about annotations unless that declaration is an integer with too many digits to be shown or a set of
placements that has members. -/
theorem ofDeclaration_exact {modules : List ModuleSource} {classes : List Class}
    (hclasses : ∀ c ∈ classes, c.id ∉ World.reservedTypes) (resolve : String → Run σ TypeId)
    (hresolve : ∀ name s e s', resolve name s = (.error e, s') → ∃ missing, e = .unresolved missing)
    {v : Value} (hv : IsDeclaration v) (s : σ) :
    let w := World.ofModules modules classes
    (∀ t s', ofDeclaration w resolve v s = (.ok t, s') ↔ Converts resolve v s t s') ∧
    (∀ e s', ofDeclaration w resolve v s = (.error e, s') ↔
      ∃ blamed, Fails w resolve v s blamed e s') ∧
    ∀ blamed e s', Fails w resolve v s blamed e s' →
      e.isAnnotationError = true ∨
      (e = .illegible .tooLarge ∧
        ∃ n : Int, blamed = .int n ∧ Nat.pow 10 Numeral.maxDigits ≤ n.natAbs) ∨
      (e = .misuse .recursion ∧ ∃ p : Placement, blamed = .placement p ∧ p.members ≠ []) := by
  intro w
  have hplain : ∀ type ∈ World.scalarTypes, w.IsPlain type :=
    fun type htype => World.isPlain_scalar hclasses htype
  refine ⟨fun t s' => ⟨fun hrun => ?_, Converts.run_eq⟩,
    fun e s' => ⟨fun hrun => ?_, fun ⟨blamed, h⟩ => h.run_eq hplain⟩,
    fun blamed e s' h => h.error_cases hresolve⟩
  · rcases converts_or_fails w resolve hv s with ⟨t', s₁, h⟩ | ⟨blamed, e, s₁, h⟩
    · have hrun' := (h.run_eq (w := w)).symm.trans hrun
      cases hrun'
      exact h
    · have hrun' := (h.run_eq hplain).symm.trans hrun
      cases hrun'
  · rcases converts_or_fails w resolve hv s with ⟨t', s₁, h⟩ | ⟨blamed, e', s₁, h⟩
    · have hrun' := (h.run_eq (w := w)).symm.trans hrun
      cases hrun'
    · have hrun' := (h.run_eq hplain).symm.trans hrun
      cases hrun'
      exact ⟨blamed, h⟩

/-- In a list whose third declaration is the missing mark, the two before it convert and the mark is
blamed; the set of placements behind it is not reached. -/
theorem ofDeclaration_exact_missing :
    ofDeclaration (World.ofModules [] []) (fun name => (pure name : Run Unit TypeId))
      (.list [.str "int", .tuple [.str "app.A"], .missing, .placement .onClass]) () =
      (.error (.unsupportedDeclaration "MISSING"), ()) := by
  have hdeclaration : IsDeclaration
      (.list [.str "int", .tuple [.str "app.A"], .missing, .placement .onClass]) := by
    refine .collection rfl fun item hitem => ?_
    simp only [List.mem_cons, List.not_mem_nil, or_false] at hitem
    rcases hitem with rfl | rfl | rfl | rfl
    · exact .text _
    · exact .collection rfl (List.forall_mem_singleton.2 (.text _))
    · exact .scalar .missing
    · exact .placement _
  have hresolve : ∀ (name : String) (s : Unit) e s',
      (pure name : Run Unit TypeId) s = (.error e, s') → ∃ missing, e = .unresolved missing := by
    intro name s e s' h
    cases h
  have hbefore : ConvertsAll (fun name => (pure name : Run Unit TypeId))
      [.str "int", .tuple [.str "app.A"]] () [.integer, .list (.ref "app.A")] () :=
    .cons (.kind (by rfl)) (.cons (.single rfl (.named (by rfl) rfl)) .nil)
  exact ((ofDeclaration_exact (List.forall_mem_nil _) _ hresolve hdeclaration ()).2.1 _ _).2
    ⟨_, .inside rfl hbefore (.here (.unsupported .missing rfl))⟩

end TypeExpr
end DocTags
