import DocTags.Proofs.Names

/-!
# The causes of failure

Errors are of three sorts.  Three of them tell something about the reader: that a type is met again
while it is resolved, that types are nested too deeply, and that a schema has no accessor for one of
its attributes (`isOfReader`).  Two are about how a tag is written: it is malformed, or several of
its values have no name.  All others are `isOrdinary`, and a result is `Ordinary` if it is no
failure or an ordinary one.

What is done with values is ordinary: showing them, taking them as collections, sorting them, and
making objects of them.
-/

namespace DocTags

/-- The errors about the nesting of types and about missing accessors. -/
def Error.isOfReader : Error → Bool
  | .cycle _ | .tooDeep | .misuse .key => true
  | _ => false

/-- All errors but those about the reader and those about how a tag is written. -/
def Error.isOrdinary : Error → Bool
  | .malformed .. | .severalUnnamed _ => false
  | e => !e.isOfReader

lemma Error.isOfReader_eq_false {e : Error} (h : e.isOrdinary = true) : e.isOfReader = false := by
  unfold isOrdinary at h
  split at h
  · cases h
  · cases h
  · simpa using h

/-- A result that is no failure, or an ordinary one. -/
def Ordinary {α : Type} (x : Except Error α) : Prop :=
  ∀ e, x = .error e → e.isOrdinary = true

namespace Ordinary

variable {α β : Type}

lemma ok (a : α) : Ordinary (.ok a) := by
  intro e h
  cases h

lemma error {e : Error} (h : e.isOrdinary = true) : Ordinary (.error e : Except Error α) := by
  rintro _ ⟨⟩
  exact h

lemma bind {x : Except Error α} {f : α → Except Error β} (hx : Ordinary x)
    (hf : ∀ a, Ordinary (f a)) : Ordinary (x >>= f) := by
  cases x with
  | error e => exact .error (hx e rfl)
  | ok a => exact hf a

/-- What is made of a result fails as that does. -/
lemma map {x : Except Error α} (hx : Ordinary x) (f : α → β) :
    Ordinary (x >>= fun a => pure (f a)) :=
  hx.bind fun a => .ok (f a)

lemma mapM {f : α → Except Error β} (hf : ∀ a, Ordinary (f a)) (as : List α) :
    Ordinary (as.mapM f) := by
  induction as with
  | nil => exact .ok []
  | cons a as ih =>
    rw [List.mapM_cons]
    exact (hf a).bind fun b => ih.map _

lemma foldlM {f : β → α → Except Error β} (hf : ∀ b a, Ordinary (f b a)) (b : β) (as : List α) :
    Ordinary (as.foldlM f b) := by
  induction as generalizing b with
  | nil => exact .ok b
  | cons a as ih =>
    rw [List.foldlM_cons]
    exact (hf b a).bind fun b' => ih b'

end Ordinary

/-! ## Texts of values -/

lemma ordinary_digitsOf (n : Int) : Ordinary (digitsOf n) := by
  unfold digitsOf
  split
  · exact .error rfl
  · exact .ok _

lemma ordinary_required (w : World) (v : Value) (name : String) : Ordinary (w.required v name) := by
  unfold World.required
  split
  · exact .ok _
  · exact .error rfl

namespace Value

section Render

variable {shown told : Value → Except Error String}

mutual

lemma ordinary_renderWith (hshown : ∀ v, Ordinary (shown v)) (v : Value) :
    Ordinary (renderWith shown v) := by
  match v with
  | .null | .bool _ | .float _ _ | .str _ | .moment _ | .cls _ | .routine _ | .property _
  | .moduleNamed _ | .missing =>
    simp only [renderWith]
    exact .ok _
  | .int n => simp only [renderWith]; exact ordinary_digitsOf n
  | .list items | .tuple items =>
    simp only [renderWith]
    exact (ordinary_renderItems hshown items).map _
  | .dict pairs => simp only [renderWith]; exact (ordinary_renderPairs hshown pairs).map _
  | .tags entries => simp only [renderWith]; exact (ordinary_renderEntries hshown entries).map _
  | .object origin type fields => simp only [renderWith]; exact hshown _
  | .placement p => simp only [renderWith]; exact (ordinary_digitsOf _).map _
  | .typeExpr t => simp only [renderWith]; exact ordinary_renderType hshown t

lemma ordinary_renderItems (hshown : ∀ v, Ordinary (shown v)) (vs : List Value) :
    Ordinary (renderItems shown vs) := by
  match vs with
  | [] => simp only [renderItems]; exact .ok _
  | v :: vs =>
    simp only [renderItems]
    exact (ordinary_renderWith hshown v).bind fun _ => (ordinary_renderItems hshown vs).map _

lemma ordinary_renderPairs (hshown : ∀ v, Ordinary (shown v)) (pairs : List (Value × Value)) :
    Ordinary (renderPairs shown pairs) := by
  match pairs with
  | [] => simp only [renderPairs]; exact .ok _
  | (k, v) :: rest =>
    simp only [renderPairs]
    exact (ordinary_renderWith hshown k).bind fun _ => (ordinary_renderWith hshown v).bind fun _ =>
      (ordinary_renderPairs hshown rest).map _

lemma ordinary_renderEntries (hshown : ∀ v, Ordinary (shown v))
    (entries : List (Option String × Value)) :
    Ordinary (renderEntries shown entries) := by
  match entries with
  | [] => simp only [renderEntries]; exact .ok _
  | (key, v) :: rest =>
    simp only [renderEntries]
    exact (ordinary_renderWith hshown v).bind fun _ => (ordinary_renderEntries hshown rest).map _

lemma ordinary_renderType (hshown : ∀ v, Ordinary (shown v)) (t : TypeExpr) :
    Ordinary (renderType shown t) := by
  match t with
  | .enum values => simp only [renderType]; exact (ordinary_renderItems hshown values).map _
  | .tuple items => simp only [renderType]; exact (ordinary_renderTypes hshown items).map _
  | .list item => simp only [renderType]; exact (ordinary_renderType hshown item).map _
  | .ref _ | .foreign _ | .mixed | .string | .number | .integer | .float | .boolean =>
    simp only [renderType]
    exact .ok _

lemma ordinary_renderTypes (hshown : ∀ v, Ordinary (shown v)) (ts : List TypeExpr) :
    Ordinary (renderTypes shown ts) := by
  match ts with
  | [] => simp only [renderTypes]; exact .ok _
  | t :: ts =>
    simp only [renderTypes]
    exact (ordinary_renderType hshown t).bind fun _ => (ordinary_renderTypes hshown ts).map _

end

mutual

lemma ordinary_displayWith (hshown : ∀ v, Ordinary (shown v)) (htold : ∀ v, Ordinary (told v))
    (v : Value) : Ordinary (displayWith shown told v) := by
  match v with
  | .object _ _ _ => simp only [displayWith]; exact htold _
  | .str _ | .moment _ => simp only [displayWith]; exact .ok _
  | .placement p => simp only [displayWith]; exact ordinary_digitsOf _
  | .typeExpr t => simp only [displayWith]; exact ordinary_displayTypeWith hshown htold t
  | .null | .bool _ | .int _ | .float _ _ | .list _ | .tuple _ | .dict _ | .tags _
  | .cls _ | .routine _ | .property _ | .moduleNamed _ | .missing =>
    simp only [displayWith]
    exact ordinary_renderWith hshown _

lemma ordinary_displayItems (hshown : ∀ v, Ordinary (shown v)) (htold : ∀ v, Ordinary (told v))
    (vs : List Value) : Ordinary (displayItems shown told vs) := by
  match vs with
  | [] => simp only [displayItems]; exact .ok _
  | v :: vs =>
    simp only [displayItems]
    exact (ordinary_displayWith hshown htold v).bind fun _ =>
      (ordinary_displayItems hshown htold vs).map _

lemma ordinary_displayTypeWith (hshown : ∀ v, Ordinary (shown v))
    (htold : ∀ v, Ordinary (told v)) (t : TypeExpr) : Ordinary (displayTypeWith shown told t) := by
  match t with
  | .enum values =>
    simp only [displayTypeWith]
    exact (ordinary_displayItems hshown htold values).map _
  | .tuple items =>
    simp only [displayTypeWith]
    exact (ordinary_displayTypes hshown htold items).map _
  | .list item =>
    simp only [displayTypeWith]
    exact (ordinary_displayTypeWith hshown htold item).map _
  | .ref _ | .foreign _ | .mixed | .string | .number | .integer | .float | .boolean =>
    simp only [displayTypeWith]
    exact .ok _

lemma ordinary_displayTypes (hshown : ∀ v, Ordinary (shown v)) (htold : ∀ v, Ordinary (told v))
    (ts : List TypeExpr) : Ordinary (displayTypes shown told ts) := by
  match ts with
  | [] => simp only [displayTypes]; exact .ok _
  | t :: ts =>
    simp only [displayTypes]
    exact (ordinary_displayTypeWith hshown htold t).bind fun _ =>
      (ordinary_displayTypes hshown htold ts).map _

end

end Render

lemma ordinary_demandText (text : Option String) : Ordinary (World.demandText text) := by
  cases text with
  | none => exact .error rfl
  | some text => exact .ok text

lemma ordinary_showObject (w : World) (n : Nat) (v : Value) : Ordinary (w.showObject n v) := by
  induction n generalizing v with
  | zero => exact .error rfl
  | succ n ih =>
    have hshown : ∀ name, Ordinary (do renderWith (w.showObject n) (← w.required v name)) :=
      fun name => (ordinary_required w v name).bind fun v => ordinary_renderWith ih v
    rw [World.showObject]
    dsimp only
    split
    · exact .ok _
    · exact (hshown "name").bind fun _ => (hshown "type").map _
    · exact (hshown "values").map _
    · refine (ordinary_required w v "target").bind fun target => ?_
      split
      · exact .ok _
      · exact .error rfl
    · exact ordinary_demandText _

lemma ordinary_told (w : World) (v : Value) : Ordinary (w.told v) := by
  unfold World.told
  split
  · exact ordinary_demandText _
  · exact ordinary_showObject w _ v

lemma ordinary_render (w : World) (v : Value) : Ordinary (v.render w) :=
  ordinary_renderWith (ordinary_showObject w _) v

lemma ordinary_display (w : World) (v : Value) : Ordinary (v.display w) :=
  ordinary_displayWith (ordinary_showObject w _) (ordinary_told w) v

lemma ordinary_displayAll (w : World) (vs : List Value) : Ordinary (displayAll w vs) :=
  ordinary_displayItems (ordinary_showObject w _) (ordinary_told w) vs

/-! ## Values as collections -/

lemma ordinary_elements (v : Value) : Ordinary v.elements := by
  unfold elements
  split
  · exact .ok _
  · exact .error rfl

lemma ordinary_toPair (v : Value) : Ordinary v.toPair := by
  refine (ordinary_elements v).bind fun items => ?_
  split
  · split
    · exact .ok _
    · exact .error rfl
  · exact .error rfl

lemma ordinary_addPairs (acc : List (Value × Value)) (vs : List Value) :
    Ordinary (addPairs acc vs) := by
  induction vs generalizing acc with
  | nil => exact .ok acc
  | cons v vs ih => exact (ordinary_toPair v).bind fun pair => ih _

lemma ordinary_toPairs (v : Value) : Ordinary v.toPairs := by
  unfold toPairs
  split
  · exact .ok _
  · exact .ok _
  · exact (ordinary_elements v).bind fun items => ordinary_addPairs [] items

lemma ordinary_less (v w : Value) : Ordinary (less v w) := by
  unfold less
  split
  · exact .ok _
  · exact .error rfl

lemma ordinary_takeRun (descending : Bool) (last : Value) (run vs : List Value) :
    Ordinary (takeRun descending last run vs) := by
  induction vs generalizing last run with
  | nil => exact .ok _
  | cons v vs ih =>
    refine (ordinary_less v last).bind fun answer => ?_
    split
    · exact ih v _
    · exact .ok _

lemma ordinary_startRun (vs : List Value) : Ordinary (startRun vs) := by
  unfold startRun
  split
  · exact (ordinary_less _ _).bind fun descending =>
      (ordinary_takeRun descending _ _ _).bind fun pair => .ok _
  · exact .ok _

lemma ordinary_placeIn (v : Value) (sorted : List Value) : Ordinary (placeIn v sorted) := by
  fun_induction placeIn v sorted with
  | case1 => exact .ok _
  | case2 sorted middle behind h ih ih' =>
    refine (ordinary_less v middle).bind fun answer => ?_
    split
    · exact ih
    · exact ih'.map _

lemma ordinary_sort (vs : List Value) : Ordinary (sort vs) :=
  (ordinary_startRun vs).bind fun _ =>
    .foldlM (fun sorted v => (ordinary_placeIn v sorted).map _) _ _

end Value

/-! ## Making objects -/

namespace Placement

variable (w : World)

lemma ordinary_ofText (s : String) : Ordinary (ofText s) := by
  unfold ofText
  split
  · exact .ok _
  · exact .error rfl

mutual

lemma ordinary_parse (v : Value) : Ordinary (parse w v) := by
  match v with
  | .placement p => simp only [parse]; exact .ok _
  | .int n => simp only [parse]; exact .ok _
  | .str s => simp only [parse]; exact ordinary_ofText s
  | .list items | .tuple items => simp only [parse]; exact ordinary_parseItems items _
  | .dict pairs => simp only [parse]; exact ordinary_parseKeys pairs _
  | .tags entries => simp only [parse]; exact ordinary_parseEntries entries _
  | .null | .bool _ | .float _ _ | .moment _ | .object _ _ _ | .cls _ | .routine _ | .property _
  | .moduleNamed _ | .missing | .typeExpr _ =>
    simp only [parse]
    split
    · exact .error rfl
    · exact (Value.ordinary_render w _).bind fun _ => .error rfl

lemma ordinary_parseItems (vs : List Value) (acc : Placement) :
    Ordinary (parseItems w vs acc) := by
  match vs with
  | [] => simp only [parseItems]; exact .ok _
  | v :: vs =>
    simp only [parseItems]
    exact (ordinary_parse v).bind fun _ => ordinary_parseItems vs _

lemma ordinary_parseKeys (pairs : List (Value × Value)) (acc : Placement) :
    Ordinary (parseKeys w pairs acc) := by
  match pairs with
  | [] => simp only [parseKeys]; exact .ok _
  | (k, _) :: rest =>
    simp only [parseKeys]
    exact (ordinary_parse k).bind fun _ => ordinary_parseKeys rest _

lemma ordinary_parseEntries (entries : List (Option String × Value)) (acc : Placement) :
    Ordinary (parseEntries w entries acc) := by
  match entries with
  | [] => simp only [parseEntries]; exact .ok _
  | (_, v) :: rest =>
    simp only [parseEntries]
    exact (ordinary_parse v).bind fun _ => ordinary_parseEntries rest _

end

end Placement

lemma Constructor.ordinary_bindArgs (ps : List Param) (args : List Value) :
    Ordinary (bindArgs ps args) := by
  induction ps generalizing args with
  | nil =>
    cases args with
    | nil => exact .ok _
    | cons _ _ => exact .error rfl
  | cons p ps ih =>
    rw [bindArgs.eq_def]
    dsimp only
    split
    · exact (ih []).map _
    · exact (ih _).map _
    · refine (ih _).bind fun _ => Ordinary.map ?_ _
      split
      · exact .ok _
      · exact .error rfl
    · exact (ih _).map _
    · refine Ordinary.bind ?_ fun _ => (ih []).map _
      split
      · exact .ok _
      · exact .error rfl

namespace World

variable (w : World)

lemma ordinary_assign (type : TypeId) (fields : Keyed Value) (name : String) (v : Value) :
    Ordinary (w.assign type fields name v) := by
  unfold assign
  split
  · exact .error rfl
  · split
    · exact .ok _
    · exact .error rfl

lemma ordinary_assignAll (type : TypeId) (fields : Keyed Value) (vs : List (String × Value)) :
    Ordinary (w.assignAll type fields vs) := by
  induction vs generalizing fields with
  | nil => exact .ok _
  | cons v vs ih => exact (ordinary_assign w type fields v.1 v.2).bind fun fields => ih fields

lemma ordinary_initialise (id : TypeId) (c : Constructor) (fields : Keyed Value)
    (args : List Value) : Ordinary (w.initialise id c fields args) := by
  refine (Constructor.ordinary_bindArgs c.params args).bind fun bound => ?_
  refine (Ordinary.mapM (fun pair => ?_) bound).bind fun taken => ordinary_assignAll w id fields _
  dsimp only
  split
  · exact (Placement.ordinary_parse w pair.2).map _
  · exact .ok _

lemma ordinary_construct (id : TypeId) (args : List Value) : Ordinary (w.construct id args) := by
  unfold construct
  split
  · split
    · exact .ok _
    · exact .error rfl
  · exact ordinary_initialise w id _ [] args

lemma ordinary_write (type : TypeId) (fields : Keyed Value) (field : String) (mode : SetterMode)
    (v : Value) : Ordinary (w.write type fields field mode v) := by
  have hassign := ordinary_assign w type fields field
  unfold write
  split
  · exact hassign v
  · exact (Value.ordinary_elements v).bind fun items => (Value.ordinary_sort items).bind fun _ =>
      hassign _
  · dsimp only
    split
    · exact (Value.ordinary_elements _).bind fun _ => hassign _
    · exact (Ordinary.ok _).bind fun _ => hassign _

lemma ordinary_eraseField (type : TypeId) (fields : Keyed Value) (name : String) :
    Ordinary (w.eraseField type fields name) := by
  unfold eraseField
  split
  · exact .error rfl
  · split
    · split
      · exact .ok _
      · exact .error rfl
    · split
      · exact .error rfl
      · split
        · exact .ok _
        · exact .error rfl

lemma ordinary_textOf (v : Value) : Ordinary (textOf v) := by
  unfold textOf
  split
  · exact .ok _
  · exact .error rfl

lemma ordinary_demandVersion (v : Value) : Ordinary (demandVersion v) := by
  unfold demandVersion
  split
  · split
    · exact .ok _
    · exact .error rfl
  · split
    · exact .ok _
    · exact .error rfl
  · exact .ok _
  · exact .error rfl

lemma ordinary_callRoutine (type : TypeId) (fields : Keyed Value) (r : Routine) (v : Value) :
    Ordinary (w.callRoutine type fields r v) := by
  unfold callRoutine
  split
  · exact .ok _
  · exact .error rfl
  · exact ordinary_write w type fields _ _ v
  · split
    · exact .error rfl
    · exact ordinary_initialise w type _ fields _
  · split
    · exact .error rfl
    · exact (ordinary_construct w _ _).map _
  · exact (ordinary_textOf v).bind fun _ => ordinary_eraseField w type fields _
  · exact (ordinary_textOf v).bind fun _ => (ordinary_required w _ _).map _
  · refine (ordinary_textOf v).bind fun _ => ?_
    split
    · exact .ok _
    · exact .error rfl
  · exact (ordinary_demandVersion v).map _

lemma ordinary_call (type : TypeId) (fields : Keyed Value) (target v : Value) :
    Ordinary (w.call type fields target v) := by
  unfold call
  split
  · exact ordinary_callRoutine w type fields _ v
  · exact (ordinary_construct w _ _).map _
  · split
    · split
      · exact .ok _
      · exact .error rfl
    · exact .error rfl
  · exact .error rfl

end World

end DocTags
