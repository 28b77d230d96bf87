import DocTags.Proofs.Keyed
import DocTags.Proofs.Lineage
import DocTags.Proofs.OneLine.Texts
import DocTags.World.Construct

/-!
# Worlds whose names are on one line

If the names that values show are on one line in all modules and classes of a world, then so are
they in whatever a dot gives (`World.isOneLine_attribute?`).  So the texts of all objects are one
line (`World.shownOnLines`).
-/

namespace DocTags

open Text

/-! ## Worlds -/

/-- `true` when the names of fields and parameters, and the names in their values, are on one
line. -/
def Constructor.isOneLine (c : Constructor) : Bool :=
  areFieldsOneLine c.fields && c.params.all fun p => isLine p.name && p.default.all Value.isOneLine

/-- `true` when the names of bases and fields, and the names in members, are on one line. -/
def Class.isOneLine (c : Class) : Bool :=
  c.bases.all isLine && c.members.all (fun member => member.2.isOneLine) &&
    c.constructor.all Constructor.isOneLine

/-- `true` when the names in what a scope gives are on one line. -/
def Scope.isOneLine (scope : Scope) : Bool :=
  scope.all fun member => member.2.isOneLine

lemma Scope.isOneLine_of_get? {scope : Scope} (h : scope.isOneLine = true) {name : String}
    {v : Value} (hget : scope.get? name = some v) : v.isOneLine = true :=
  List.all_eq_true.1 h _ (Keyed.mem_of_get? hget)

/-- `true` when the names in what modules and classes hold are on one line. -/
def World.isOneLine (w : World) : Bool :=
  w.modules.all (fun m => Scope.isOneLine m.2) &&
    w.classes.all fun c => c.2.isOneLine

/-! ## What values tell about themselves -/

/-- A value with an alternative is one of the two. -/
lemma eq_some_of_orElse {α : Type} {x y : Option α} {a : α} (h : (x <|> y) = some a) :
    x = some a ∨ y = some a := by
  cases x with
  | none => exact .inr h
  | some b => exact .inl h

lemma isLine_of_get? {fields : Keyed Value} (h : areFieldsOneLine fields = true) {name : String}
    {v : Value} (hget : fields.get? name = some v) : isLine name = true ∧ v.isOneLine = true :=
  areFieldsOneLine_iff.1 h _ (Keyed.mem_of_get? hget)

namespace Value

variable {v u : Value} {name : String}

lemma isLine_builtin {name : String} (h : isLine name = true) : isLine (builtin name) = true := by
  rw [builtin, isLine_append, h]
  rfl

lemma isLine_classOf_typeExpr (t : TypeExpr) : isLine t.classOf = true := by
  have hform : isLine t.form = true := by
    cases t <;> rw [TypeExpr.form] <;> rfl
  unfold TypeExpr.classOf
  split
  · exact isLine_builtin rfl
  · rw [isLine_append, hform]
    rfl

lemma isLine_typeOf (h : v.isOneLine = true) : isLine v.typeOf = true := by
  cases v with
  | object origin type fields =>
    rw [isOneLine, Bool.and_eq_true] at h
    exact h.1
  | moment m =>
    rw [typeOf, Moment.sortName, isLine_append]
    split <;> rfl
  | routine r =>
    rw [typeOf, Routine.classOf]
    split <;> exact isLine_builtin rfl
  | cls | tags | placement | missing =>
    rw [typeOf]
    rfl
  | typeExpr t => exact isLine_classOf_typeExpr t
  | _ => exact isLine_builtin rfl

lemma isOneLine_ofText? (s : Option String) : (ofText? s).isOneLine = true := by
  cases s <;> rfl

lemma isOneLine_ofFields {fields : Keyed Value} (h : areFieldsOneLine fields = true) :
    (ofFields fields).isOneLine = true := by
  rw [areFieldsOneLine_iff] at h
  rw [ofFields, isOneLine, arePairsOneLine_iff]
  intro pair hpair
  obtain ⟨field, hfield, rfl⟩ := List.mem_map.1 hpair
  exact ⟨rfl, (h field hfield).2⟩

lemma isOneLine_placementFields (p : Placement) : areFieldsOneLine (placementFields p) = true := by
  have hname := isOneLine_ofText? p.name?
  rw [placementFields, areFieldsOneLine_iff, List.forall_mem_append]
  refine ⟨List.forall_mem_cons.2 ⟨⟨(rfl : isLine "_value_" = true), rfl⟩,
    List.forall_mem_singleton.2 ⟨(rfl : isLine "_name_" = true), hname⟩⟩, ?_⟩
  split
  · exact List.forall_mem_cons.2 ⟨⟨rfl, rfl⟩,
      List.forall_mem_singleton.2 ⟨(rfl : isLine "_sort_order_" = true), rfl⟩⟩
  · exact List.forall_mem_nil _

lemma isOneLine_typeFields {t : TypeExpr} (h : t.isOneLine = true) :
    areFieldsOneLine (typeFields t) = true := by
  rw [areFieldsOneLine_iff]
  cases t with
  | «enum» values => exact List.forall_mem_singleton.2 ⟨(rfl : isLine "values" = true), h⟩
  | ref type => exact List.forall_mem_singleton.2 ⟨(rfl : isLine "type_id" = true), rfl⟩
  | tuple items =>
    rw [TypeExpr.isOneLine, areTypesOneLine_iff] at h
    refine List.forall_mem_singleton.2 ⟨(rfl : isLine "items" = true),
      areOneLine_iff.2 fun v hv => ?_⟩
    obtain ⟨t, ht, rfl⟩ := List.mem_map.1 hv
    exact h t ht
  | list item => exact List.forall_mem_singleton.2 ⟨(rfl : isLine "item" = true), h⟩
  | _ => exact List.forall_mem_nil _

lemma isOneLine_kindFields? {fields : Keyed Value} (hv : v.isOneLine = true)
    (h : v.kindFields? = some fields) : areFieldsOneLine fields = true := by
  unfold kindFields? at h
  split at h
  · cases h
  · cases h
    exact isOneLine_typeFields hv
  · cases h
    rfl
  · split at h <;> cases h
    rfl
  · cases h
    exact isOneLine_placementFields _
  · cases h

lemma isOneLine_wholeFact? {n : Int} (h : wholeFact? n name = some u) : u.isOneLine = true := by
  unfold wholeFact? at h
  split at h <;> cases h <;> rfl

lemma isOneLine_placementFact? {p : Placement} (h : placementFact? p name = some u) :
    u.isOneLine = true := by
  unfold placementFact? at h
  split at h
  · cases h
    rfl
  · cases h
    exact isOneLine_ofText? _
  · rcases eq_some_of_orElse h with h | h
    · exact (isLine_of_get? (isOneLine_placementFields p) h).2
    rcases eq_some_of_orElse h with h | h
    · obtain ⟨q, -, rfl⟩ := Option.map_eq_some_iff.1 h
      rfl
    · exact isOneLine_wholeFact? h

lemma isOneLine_routineFact? {r : Routine} (hr : r.isOneLine = true)
    (h : routineFact? r name = some u) : u.isOneLine = true := by
  have hbinding : ∀ type, r.binding = .bound type → isLine type = true := by
    intro type hbound
    rw [Routine.isOneLine, hbound] at hr
    simp only [Bool.and_eq_true] at hr
    exact hr.1.2
  have hfree : (routine { r with binding := .free }).isOneLine = true := by
    simp only [Routine.isOneLine, Bool.and_eq_true] at hr
    simp only [isOneLine, Routine.isOneLine, hr, Bool.and_self]
  unfold routineFact? at h
  split at h
  · cases h
    rfl
  · cases h
    rfl
  · cases h
    exact isOneLine_ofText? _
  · split at h <;> cases h
    rfl
  · split at h <;> cases h
    rfl
  · next hbound =>
    cases h
    exact hbinding _ hbound
  · split at h <;> cases h
    exact hfree
  · cases h

lemma isOneLine_propertyFact? {p : Property} (hp : isLine p.name = true)
    (h : propertyFact? p name = some u) : u.isOneLine = true := by
  unfold propertyFact? at h
  split at h <;> cases h
  · exact isOneLine_ofText? _
  · rw [isOneLine, Routine.isOneLine, hp]
    rfl
  · rfl
  · rfl
  · rfl

lemma isOneLine_tagsFact? {entries : List (Option String × Value)}
    (hentries : areEntriesOneLine entries = true) (h : tagsFact? entries name = some u) :
    u.isOneLine = true := by
  rw [areEntriesOneLine_iff] at hentries
  unfold tagsFact? at h
  split at h <;> cases h
  · rfl
  · refine areOneLine_iff.2 fun v hv => ?_
    obtain ⟨entry, hentry, rfl⟩ := List.mem_map.1 hv
    exact areOneLine_iff.2 (List.forall_mem_cons.2 ⟨isOneLine_ofText? _,
      List.forall_mem_singleton.2 (hentries entry hentry).2⟩)
  · refine arePairsOneLine_iff.2 fun pair hpair => ?_
    obtain ⟨entry, -, hentry⟩ := List.mem_filterMap.1 hpair
    obtain ⟨key, -, rfl⟩ := Option.map_eq_some_iff.1 hentry
    exact ⟨rfl, rfl⟩
  · rfl

lemma isOneLine_fact? (hv : v.isOneLine = true) (h : v.fact? name = some u) :
    u.isOneLine = true := by
  unfold fact? at h
  split at h
  · exact isOneLine_wholeFact? h
  · exact isOneLine_wholeFact? h
  · split at h <;> cases h <;> rfl
  · exact isOneLine_placementFact? h
  · split at h
    · cases h
      refine areOneLine_iff.2 fun v hv => ?_
      obtain ⟨field, -, rfl⟩ := List.mem_map.1 hv
      rfl
    · exact (isLine_of_get? (isOneLine_typeFields hv) h).2
  · exact isOneLine_tagsFact? hv h
  · exact isOneLine_routineFact? hv h
  · exact isOneLine_propertyFact? hv h
  · cases h

lemma isOneLine_of_elements? {vs : List Value} (hv : v.isOneLine = true)
    (h : v.elements? = some vs) : areOneLine vs = true := by
  unfold elements? at h
  split at h <;> cases h
  · refine areOneLine_iff.2 fun v hv => ?_
    obtain ⟨c, -, rfl⟩ := List.mem_map.1 hv
    rfl
  · exact hv
  · exact hv
  · refine areOneLine_iff.2 fun v hmem => ?_
    obtain ⟨pair, hpair, rfl⟩ := List.mem_map.1 hmem
    exact (arePairsOneLine_iff.1 hv pair hpair).1
  · refine areOneLine_iff.2 fun v hmem => ?_
    obtain ⟨entry, hentry, rfl⟩ := List.mem_map.1 hmem
    exact (areEntriesOneLine_iff.1 hv entry hentry).2
  · refine areOneLine_iff.2 fun v hmem => ?_
    obtain ⟨p, -, rfl⟩ := List.mem_map.1 hmem
    rfl

lemma isOneLine_of_elements {vs : List Value} (hv : v.isOneLine = true)
    (h : v.elements = .ok vs) : areOneLine vs = true := by
  unfold elements at h
  split at h
  · next helements =>
    cases h
    exact isOneLine_of_elements? hv helements
  · cases h

end Value

namespace World

variable {w : World} {id : TypeId} {name : String} {v u : Value}

/-! ## Classes and their members -/

lemma isOneLine_of_class (hw : w.isOneLine = true) {c : Class} (h : w.classes.get? id = some c) :
    (∀ base ∈ c.bases, isLine base = true) ∧ (∀ member ∈ c.members, member.2.isOneLine = true) ∧
      ∀ k ∈ c.constructor, k.isOneLine = true := by
  rw [isOneLine, Bool.and_eq_true, List.all_eq_true, List.all_eq_true] at hw
  have hc := hw.2 _ (Keyed.mem_of_get? h)
  rw [Class.isOneLine, Bool.and_eq_true, Bool.and_eq_true, List.all_eq_true, List.all_eq_true] at hc
  exact ⟨hc.1.1, hc.1.2, fun k hk => by simpa [Option.mem_def.1 hk] using hc.2⟩

lemma isLine_of_mem_ancestryOfAll (hw : w.isOneLine = true) (hid : isLine id = true) :
    ∀ c ∈ w.ancestryOfAll id, isLine c = true :=
  forall_mem_ancestryOfAll (fun _ _ _ hc => (isOneLine_of_class hw hc).1) (Value.isLine_builtin rfl)
    hid

lemma isLine_nameOf (hid : isLine id = true) : isLine (w.nameOf id) = true := by
  rw [nameOf, isLine_ofList]
  exact fun h => isLine_iff.1 hid (List.mem_of_mem_drop h)

lemma isOneLine_bindTo (hid : isLine id = true) (hv : v.isOneLine = true) :
    (w.bindTo id v).isOneLine = true := by
  unfold bindTo
  split
  · split
    · exact hv
    · next r type hbound =>
      simp only [Value.isOneLine, Routine.isOneLine, Bool.and_eq_true] at hv ⊢
      refine ⟨⟨⟨hv.1.1.1, ?_⟩, hid⟩, hv.2⟩
      split
      · exact isLine_nameOf hid
      · exact hv.1.1.2
  · exact hv

lemma isOneLine_ownMember? (hw : w.isOneLine = true) {c : Class} (hc : w.classes.get? id = some c)
    (h : ownMember? c name = some v) : v.isOneLine = true := by
  unfold ownMember? at h
  split at h
  · next hget =>
    cases h
    exact (isOneLine_of_class hw hc).2.1 _ (Keyed.mem_of_get? hget)
  · split at h <;> cases h
    simp only [initialiser, Value.isOneLine, Routine.isOneLine]
    rfl

/-- A member of a class is one line if the id is that it is taken from. -/
lemma isOneLine_member? (hw : w.isOneLine = true) (hid : isLine id = true)
    (h : w.member? id name = some v) : v.isOneLine = true := by
  obtain ⟨c, -, h⟩ := List.exists_of_findSome?_eq_some h
  obtain ⟨u, hu, rfl⟩ := Option.map_eq_some_iff.1 h
  obtain ⟨c, hc, hown⟩ := Option.bind_eq_some_iff.1 hu
  exact isOneLine_bindTo hid (isOneLine_ownMember? hw hc hown)

/-! ## What a dot gives -/

lemma isOneLine_classFact? (hw : w.isOneLine = true) (hid : isLine id = true)
    (h : w.classFact? id name = some v) : v.isOneLine = true := by
  have hbases : ∀ base ∈ (w.classOf id).bases, isLine base = true := by
    unfold classOf
    cases hc : w.classes.get? id with
    | none => exact List.forall_mem_nil _
    | some c => exact (isOneLine_of_class hw hc).1
  have hall : ∀ base ∈ if (w.classOf id).bases.isEmpty && id != objectType then [objectType]
      else (w.classOf id).bases, isLine base = true := by
    split
    · exact List.forall_mem_singleton.2 (Value.isLine_builtin rfl)
    · exact hbases
  have hcls {ids : List TypeId} (hids : ∀ base ∈ ids, isLine base = true) :
      areOneLine (ids.map .cls) = true := by
    refine areOneLine_iff.2 fun v hv => ?_
    obtain ⟨base, hbase, rfl⟩ := List.mem_map.1 hv
    exact hids base hbase
  unfold classFact? at h
  dsimp only at h
  split at h
  · cases h
    rfl
  · cases h
    rfl
  · cases h
    rfl
  · cases h
    exact Value.isOneLine_ofText? _
  · cases h
    exact hcls hall
  · cases h
    generalize (if (w.classOf id).bases.isEmpty && id != objectType then [objectType]
      else (w.classOf id).bases) = bases at hall
    cases bases with
    | nil => rfl
    | cons base bases => exact (List.forall_mem_cons.1 hall).1
  · cases h
    exact hcls (isLine_of_mem_ancestryOfAll hw hid)
  · cases h
    exact Value.isLine_builtin rfl
  all_goals cases h <;> rfl

lemma isOneLine_classAttribute? (hw : w.isOneLine = true) (hid : isLine id = true)
    (h : w.classAttribute? id name = some v) : v.isOneLine = true := by
  rcases eq_some_of_orElse h with h | h
  · exact isOneLine_classFact? hw hid h
  rcases eq_some_of_orElse h with h | h
  · exact isOneLine_member? hw hid h
  · obtain ⟨u, hu, rfl⟩ := Option.map_eq_some_iff.1 h
    exact isOneLine_bindTo hid (isOneLine_member? hw (Value.isLine_builtin rfl) hu)

lemma isOneLine_fieldsOf? {fields : Keyed Value} (hv : v.isOneLine = true)
    (h : w.fieldsOf? v = some fields) : areFieldsOneLine fields = true := by
  unfold fieldsOf? at h
  split at h
  · split at h
    · obtain rfl := Option.some.inj h
      rw [Value.isOneLine, Bool.and_eq_true, areFieldsOneLine_iff] at hv
      exact areFieldsOneLine_iff.2 fun field hfield => hv.2 field (List.mem_of_mem_filter hfield)
    · cases h
  · exact Value.isOneLine_kindFields? hv h

lemma isOneLine_inherited? (hw : w.isOneLine = true) (hv : v.isOneLine = true)
    (h : w.inherited? v name = some u) : u.isOneLine = true := by
  unfold inherited? at h
  dsimp only at h
  split at h
  · cases h
    exact Value.isLine_typeOf hv
  · obtain ⟨fields, hfields, rfl⟩ := Option.map_eq_some_iff.1 h
    exact Value.isOneLine_ofFields (isOneLine_fieldsOf? hv hfields)
  · cases h
    exact Value.isOneLine_ofText? _
  · split at h <;> cases h
    rfl
  · exact isOneLine_member? hw (Value.isLine_typeOf hv) h

/-- What a dot gives behind a value is one line if the value is. -/
lemma isOneLine_attribute? (hw : w.isOneLine = true) (hv : v.isOneLine = true)
    (h : w.attribute? v name = some u) : u.isOneLine = true := by
  unfold attribute? at h
  split at h
  · rcases eq_some_of_orElse h with h | h
    · obtain ⟨members, hmembers, hget⟩ := Option.bind_eq_some_iff.1 h
      simp only [isOneLine, Bool.and_eq_true, List.all_eq_true] at hw
      exact Scope.isOneLine_of_get? (hw.1 _ (Keyed.mem_of_get? hmembers)) hget
    · exact isOneLine_inherited? hw hv h
  · exact isOneLine_classAttribute? hw hv h
  · next origin type fields =>
    have hfields := (Bool.and_eq_true _ _ ▸ hv : _ ∧ _)
    unfold objectAttribute? at h
    split at h
    · cases h
      rfl
    · split at h
      · exact isOneLine_inherited? hw hv h
      split at h
      · cases h
        rfl
      rcases eq_some_of_orElse h with h | h
      · exact (isLine_of_get? hfields.2 h).2
      · exact isOneLine_inherited? hw hv h
  · rcases eq_some_of_orElse h with h | h
    · exact Value.isOneLine_fact? hv h
    · exact isOneLine_inherited? hw hv h

lemma isOneLine_required (hw : w.isOneLine = true) (hv : v.isOneLine = true)
    (h : w.required v name = .ok u) : u.isOneLine = true := by
  unfold required at h
  split at h
  · next hattribute =>
    cases h
    exact isOneLine_attribute? hw hv hattribute
  · cases h

lemma isOneLine_follow? (hw : w.isOneLine = true) {path : List String} (hv : v.isOneLine = true)
    (h : w.follow? v path = some u) : u.isOneLine = true := by
  induction path generalizing v with
  | nil =>
    cases h
    exact hv
  | cons name path ih =>
    obtain ⟨next, hnext, h⟩ := Option.bind_eq_some_iff.1 h
    exact ih (isOneLine_attribute? hw hv hnext) h

lemma isOneLine_import? (hw : w.isOneLine = true) {path : String}
    (h : w.import? path = some v) : v.isOneLine = true := by
  obtain ⟨split, -, h⟩ := List.exists_of_findSome?_eq_some h
  unfold importAt? at h
  dsimp only at h
  split at h
  · exact isOneLine_follow? hw rfl h
  · cases h

lemma isOneLine_lookup? (hw : w.isOneLine = true) {scope : Scope}
    (hscope : scope.isOneLine = true) (h : w.lookup? scope name = some v) : v.isOneLine = true := by
  unfold lookup? at h
  split at h
  · cases h
  · obtain ⟨first, hfirst, h⟩ := Option.bind_eq_some_iff.1 h
    exact isOneLine_follow? hw (Scope.isOneLine_of_get? hscope hfirst) h

/-! ## Texts of objects -/

/-- What the methods of classes make of an object is one line if the names in the object are on one
line. -/
def TellsOnLines (w : World) : Prop :=
  ∀ entry ∈ w.classes, ∀ own, ownLook? entry.2 = some (.own own) →
    ∀ v text, v.isOneLine = true → own v = some text → isLine text = true

lemma TellsOnLines.isLine (h : w.TellsOnLines) {own : Value → Option String}
    (hlook : w.lookOf id = .own own) (hv : v.isOneLine = true) {text : String}
    (htext : demandText (own v) = .ok text) : isLine text = true := by
  have hown : own v = some text := by
    cases hown : own v with
    | none =>
      rw [hown] at htext
      cases htext
    | some told =>
      rw [hown] at htext
      exact congrArg some (Except.ok.inj htext)
  unfold lookOf at hlook
  cases hfound : (w.ancestry id).findSome? fun c => (w.classes.get? c).bind ownLook? with
  | none =>
    rw [hfound] at hlook
    cases hlook
  | some look =>
    rw [hfound] at hlook
    obtain rfl : look = .own own := hlook
    obtain ⟨c, -, hc⟩ := List.exists_of_findSome?_eq_some hfound
    obtain ⟨entry, hentry, hlook⟩ := Option.bind_eq_some_iff.1 hc
    exact h _ (Keyed.mem_of_get? hentry) own hlook v text hv hown

/-- The texts of objects are one line, through however many objects. -/
lemma shownOnLines (hw : w.isOneLine = true) (htells : w.TellsOnLines) (n : Nat) :
    ShownOnLines (w.showObject n) := by
  induction n with
  | zero =>
    intro origin type fields text _ h
    cases h
  | succ n ih =>
    intro origin type fields text hv h
    have hshown {name text : String} (h : (do
        Value.renderWith (w.showObject n) (← w.required (.object origin type fields) name)) =
          .ok text) : isLine text = true := by
      obtain ⟨u, hu, h⟩ := ok_of_bind h
      exact Value.isLine_renderWith ih u (isOneLine_required hw hv hu) h
    unfold showObject at h
    dsimp only at h
    split at h
    · cases h
      rw [isLine_append, isLine_append, Value.isLine_typeOf hv]
      rfl
    · obtain ⟨nameText, hname, h⟩ := ok_of_bind h
      obtain ⟨typeText, htype, h⟩ := ok_of_bind h
      cases h
      simp only [isLine_append, hshown hname, hshown htype]
      rfl
    · obtain ⟨values, hvalues, h⟩ := ok_of_bind h
      cases h
      simp only [isLine_append, hshown hvalues]
      rfl
    · obtain ⟨target, -, h⟩ := ok_of_bind h
      split at h
      · cases h
        simp only [isLine_append, Placement.isLine_describe]
        rfl
      · cases h
    · next own hlook => exact htells.isLine hlook hv h

lemma isLine_render (hw : w.isOneLine = true) (htells : w.TellsOnLines) (hv : v.isOneLine = true)
    {text : String} (h : v.render w = .ok text) : isLine text = true :=
  Value.isLine_renderWith (shownOnLines hw htells _) v hv h

end World

end DocTags
