import DocTags.Proofs.Deliveries
import Mathlib.Data.Set.Basic

/-!
# Deeds that do not meet

Attributes are handed to an object one after the other, and what their setters do may depend on what
was done before.  `Deed.touched?` are the fields that a deed reads or writes; there are none to name
for a deed that has to do with all fields at once.  A deed is confined to its fields (`Confined`):
it leaves the others as they are, and what it does depends on these only.  So two deeds that touch
different fields can be done in either order, and a deed can be put behind any number of others that
it does not meet (`alike_moved`).

The order in which the fields of an object were first written is not looked at here: `Alike`
compares the fields by name.
-/

namespace DocTags

/-! ## Fields that agree -/

/-- Two ways to make an object come out alike, as far as some of its fields are concerned: both
fail, or both succeed and these fields have the same values. -/
inductive Alike (S : Set String) : Except Error (Keyed Value) → Except Error (Keyed Value) → Prop
  | failed (e e' : Error) : Alike S (.error e) (.error e')
  | same {fields fields' : Keyed Value} (h : ∀ name ∈ S, fields.get? name = fields'.get? name) :
      Alike S (.ok fields) (.ok fields')

/-- An act on the fields of an object is confined to some of them: it leaves the others as they are,
and what it does depends on these only. -/
structure Confined (S : Set String) (act : Keyed Value → Except Error (Keyed Value)) : Prop where
  frame : ∀ {fields fields'}, act fields = .ok fields' →
    ∀ name ∉ S, fields'.get? name = fields.get? name
  reads : ∀ {fields fields'}, (∀ name ∈ S, fields.get? name = fields'.get? name) →
    Alike S (act fields) (act fields')

section Agreement

variable {S T : Set String} {x y z : Except Error (Keyed Value)}
  {a b : Keyed Value → Except Error (Keyed Value)} {fields fields' : Keyed Value}

namespace Alike

lemma refl (S : Set String) (x : Except Error (Keyed Value)) : Alike S x x := by
  cases x with
  | error e => exact .failed e e
  | ok fields => exact .same fun _ _ => rfl

lemma symm (h : Alike S x y) : Alike S y x := by
  cases h with
  | failed e e' => exact .failed e' e
  | same h => exact .same fun name hname => (h name hname).symm

lemma trans (h : Alike S x y) (h' : Alike S y z) : Alike S x z := by
  cases h with
  | failed e e' =>
    cases h' with
    | failed e' e'' => exact .failed e e''
  | same h =>
    cases h' with
    | same h' => exact .same fun name hname => (h name hname).trans (h' name hname)

lemma error_left {e : Error} (h : Alike S (.error e) y) : ∃ e', y = .error e' := by
  cases h with
  | failed _ e' => exact ⟨e', rfl⟩

lemma ok_left (h : Alike S (.ok fields) y) :
    ∃ fields', y = .ok fields' ∧ ∀ name ∈ S, fields.get? name = fields'.get? name := by
  cases h with
  | same h => exact ⟨_, rfl, h⟩

lemma bind (h : Alike S x y) (hab : ∀ {fields fields'},
    (∀ name ∈ S, fields.get? name = fields'.get? name) → Alike S (a fields) (b fields')) :
    Alike S (x >>= a) (y >>= b) := by
  cases h with
  | failed e e' => exact .failed e e'
  | same h => exact hab h

end Alike

namespace Confined

/-- An act that is confined to some fields is confined to more of them. -/
lemma mono (h : Confined S a) (hsub : S ⊆ T) : Confined T a := by
  refine ⟨fun hact name hname => h.frame hact name fun hS => hname (hsub hS),
    fun {fields fields'} hagree => ?_⟩
  have hreads := h.reads fun name hname => hagree name (hsub hname)
  cases hact : a fields with
  | error e =>
    rw [hact] at hreads
    obtain ⟨e', hact'⟩ := hreads.error_left
    rw [hact']
    exact .failed e e'
  | ok found =>
    rw [hact] at hreads
    obtain ⟨found', hact', hsame⟩ := hreads.ok_left
    rw [hact']
    refine .same fun name hname => ?_
    by_cases hS : name ∈ S
    · exact hsame name hS
    · rw [h.frame hact name hS, h.frame hact' name hS, hagree name hname]

lemma bind (ha : Confined S a) (hb : Confined S b) : Confined S fun fields => a fields >>= b := by
  refine ⟨fun {fields fields'} hact name hname => ?_, fun hagree => (ha.reads hagree).bind hb.reads⟩
  obtain ⟨between, hbetween, hact⟩ := ok_of_bind hact
  rw [hb.frame hact name hname, ha.frame hbetween name hname]

/-- What is found out by a look at some fields may decide what is done to them. -/
lemma after {α : Type} {look : Keyed Value → Except Error α}
    {k : α → Keyed Value → Except Error (Keyed Value)}
    (hlook : ∀ {fields fields'}, (∀ name ∈ S, fields.get? name = fields'.get? name) →
      look fields = look fields')
    (hk : ∀ found, Confined S (k found)) :
    Confined S fun fields => look fields >>= fun found => k found fields := by
  refine ⟨fun {fields fields'} hact name hname => ?_, fun {fields fields'} hagree => ?_⟩
  · obtain ⟨found, -, hact⟩ := ok_of_bind hact
    exact (hk found).frame hact name hname
  · rw [hlook hagree]
    cases look fields' with
    | error e => exact .failed e e
    | ok found => exact (hk found).reads hagree

/-- What is known without a look at the object may decide what is done to it. -/
lemma given {α : Type} {x : Except Error α} {k : α → Keyed Value → Except Error (Keyed Value)}
    (hk : ∀ found, x = .ok found → Confined S (k found)) :
    Confined S fun fields => x >>= fun found => k found fields := by
  cases x with
  | error e => exact ⟨nofun, fun _ => .failed e e⟩
  | ok found => exact hk found rfl

end Confined

lemma confined_ok (S : Set String) : Confined S .ok :=
  ⟨fun hact _ _ => by rw [Except.ok.inj hact], .same⟩

lemma confined_error (S : Set String) (e : Error) : Confined S fun _ => .error e :=
  ⟨nofun, fun _ => .failed e e⟩

/-- An act does not notice that another one was done before, if they are confined to different
fields. -/
lemma Confined.reads_behind (ha : Confined S a) (hb : Confined T b) (hdisj : ∀ name ∈ S, name ∉ T)
    (hsame : ∀ name, fields.get? name = fields'.get? name) {found : Keyed Value}
    (hfound : b fields' = .ok found) : Alike S (a fields) (a found) :=
  ha.reads fun name hname => (hsame name).trans (hb.frame hfound name (hdisj name hname)).symm

/-- Acts that are confined to different fields can be done in either order. -/
lemma Confined.swap (ha : Confined S a) (hb : Confined T b) (hdisj : ∀ name ∈ S, name ∉ T)
    (hsame : ∀ name, fields.get? name = fields'.get? name) :
    Alike Set.univ (a fields >>= b) (b fields' >>= a) := by
  cases hact : a fields with
  | error e =>
    cases hact' : b fields' with
    | error e' => exact .failed e e'
    | ok found' =>
      have halike := ha.reads_behind hb hdisj hsame hact'
      rw [hact] at halike
      obtain ⟨e', hlast'⟩ := halike.error_left
      change Alike _ (.error e) (a found')
      rw [hlast']
      exact .failed e e'
  | ok found =>
    have hbehind := hb.reads_behind ha (fun name hT hS => hdisj name hS hT)
      (fun name => (hsame name).symm) hact
    cases hact' : b fields' with
    | error e' =>
      rw [hact'] at hbehind
      obtain ⟨e, hlast⟩ := hbehind.error_left
      change Alike _ (b found) (.error e')
      rw [hlast]
      exact .failed e e'
    | ok found' =>
      have hbehind' := ha.reads_behind hb hdisj hsame hact'
      rw [hact'] at hbehind
      rw [hact] at hbehind'
      obtain ⟨last, hlast, hT⟩ := hbehind.ok_left
      obtain ⟨last', hlast', hS⟩ := hbehind'.ok_left
      change Alike _ (b found) (a found')
      rw [hlast, hlast']
      refine .same fun name _ => ?_
      -- A field is touched by one of the acts at most, and then it is as that act left it.
      by_cases hname : name ∈ S
      · rw [hb.frame hlast name (hdisj name hname), hS name hname]
      · rw [ha.frame hlast' name hname]
        by_cases hname' : name ∈ T
        · exact (hT name hname').symm
        · rw [hb.frame hlast name hname', ha.frame hact name hname, hsame,
            hb.frame hact' name hname']

end Agreement

/-! ## What is done to an object -/

namespace Constructor

/-- Each parameter is bound once. -/
lemma map_fst_of_bindArgs {ps : List Param} {args : List Value} {bound : List (String × Value)}
    (h : bindArgs ps args = .ok bound) : bound.map Prod.fst = ps.map Param.name := by
  induction ps generalizing args bound with
  | nil =>
    cases args with
    | nil =>
      obtain rfl := Except.ok.inj h
      rfl
    | cons arg args => cases h
  | cons p ps ih =>
    rw [bindArgs.eq_def] at h
    dsimp only at h
    split at h
    · obtain ⟨rest, hrest, h⟩ := ok_of_bind h
      rw [← Except.ok.inj h, List.map_cons, ih hrest, List.map_cons]
    · obtain ⟨rest, hrest, h⟩ := ok_of_bind h
      rw [← Except.ok.inj h, List.map_cons, ih hrest, List.map_cons]
    · obtain ⟨rest, hrest, h⟩ := ok_of_bind h
      obtain ⟨v, -, h⟩ := ok_of_bind h
      rw [← Except.ok.inj h, List.map_cons, ih hrest, List.map_cons]
    · obtain ⟨rest, hrest, h⟩ := ok_of_bind h
      rw [← Except.ok.inj h, List.map_cons, ih hrest, List.map_cons]
    · obtain ⟨v, -, h⟩ := ok_of_bind h
      obtain ⟨rest, hrest, h⟩ := ok_of_bind h
      rw [← Except.ok.inj h, List.map_cons, ih hrest, List.map_cons]

end Constructor

namespace World

variable {w : World} {type : TypeId} {S : Set String}

lemma confined_assign {name : String} (hname : name ∈ S) (v : Value) :
    Confined S fun fields => w.assign type fields name v := by
  have hput : Confined S fun fields => Except.ok (fields.put name v) := by
    refine ⟨fun hact other hother => ?_,
      fun {fields fields'} hagree => .same fun other hother => ?_⟩
    · rw [← Except.ok.inj hact, Keyed.get?_put_of_ne]
      rintro rfl
      exact hother hname
    · by_cases h : other = name
      · rw [h, Keyed.get?_put_self, Keyed.get?_put_self]
      · rw [Keyed.get?_put_of_ne _ h, Keyed.get?_put_of_ne _ h, hagree other hother]
  unfold assign
  split
  · exact confined_error S _
  · split
    · exact hput
    · exact confined_error S _

lemma confined_assignAll {entries : Keyed Value} (h : ∀ entry ∈ entries, entry.1 ∈ S) :
    Confined S fun fields => w.assignAll type fields entries := by
  induction entries with
  | nil => exact confined_ok S
  | cons entry entries ih =>
    rw [List.forall_mem_cons] at h
    exact (confined_assign h.1 entry.2).bind (ih h.2)

/-- What an object has under a name depends on the field of that name only. -/
lemma attribute?_object_congr (origin : Origin) {name : String} (hall : name ≠ "__dict__")
    {fields fields' : Keyed Value} (h : fields.get? name = fields'.get? name) :
    w.attribute? (.object origin type fields) name =
      w.attribute? (.object origin type fields') name := by
  have hinherited : w.inherited? (.object origin type fields) name =
      w.inherited? (.object origin type fields') name := by
    unfold inherited?
    split
    · rfl
    · exact absurd rfl hall
    · rfl
    · rfl
    · rfl
  unfold attribute?
  dsimp only
  unfold objectAttribute?
  rw [h, hinherited]

/-- A setter that writes a field touches no other one, unless it goes by the name of all fields. -/
lemma confined_write {field : String} (hfield : field ∈ S) (hall : field ≠ "__dict__")
    (mode : SetterMode) (v : Value) :
    Confined S fun fields => w.write type fields field mode v := by
  cases mode with
  | store => exact confined_assign hfield v
  | sorted => exact .given fun _ _ => .given fun _ _ => confined_assign hfield _
  | append =>
    let look : Keyed Value → Except Error (List Value) := fun fields =>
      let old := (w.attribute? (.object (.built none) type fields) field).getD .null
      if old.truthy then old.elements else .ok []
    have hwrite : (fun fields => w.write type fields field .append v) = fun fields =>
        look fields >>= fun items => w.assign type fields field (.list (items ++ [v])) := by
      funext fields
      unfold write
      dsimp only [look]
      split <;> rfl
    rw [hwrite]
    refine .after (fun hagree => ?_) fun items => confined_assign hfield _
    dsimp only [look]
    rw [attribute?_object_congr _ hall (hagree field hfield)]

lemma confined_eraseField {name : String} (hname : name ∈ S) (hall : name ≠ "__dict__") :
    Confined S fun fields => w.eraseField type fields name := by
  have herase : Confined S fun fields =>
      if fields.has name then Except.ok (fields.erase name) else .error (.misuse .field) := by
    refine ⟨fun {fields fields'} hact other hother => ?_, fun {fields fields'} hagree => ?_⟩
    · split at hact
      · rw [← Except.ok.inj hact, Keyed.get?_erase_of_ne]
        rintro rfl
        exact hother hname
      · cases hact
    · rw [Keyed.has_eq_isSome_get?, Keyed.has_eq_isSome_get?, hagree name hname]
      split
      · refine .same fun other hother => ?_
        by_cases h : other = name
        · rw [h, Keyed.get?_erase_self, Keyed.get?_erase_self]
        · rw [Keyed.get?_erase_of_ne _ h, Keyed.get?_erase_of_ne _ h, hagree other hother]
      · exact .failed _ _
  have hdict : (name == "__dict__") = false := by simpa using hall
  unfold eraseField
  simp only [hdict, Bool.false_eq_true, if_false]
  split
  · exact confined_error S _
  · split
    · exact confined_error S _
    · exact herase

lemma textOf_eq_ok {v : Value} {name : String} (h : textOf v = .ok name) : v = .str name := by
  unfold textOf at h
  split at h
  · rw [Except.ok.inj h]
  · cases h

/-- The names of the fields that a constructor writes. -/
def written (c : Constructor) : List String :=
  c.fields.map Prod.fst ++ c.params.map Param.name

lemma confined_initialise (c : Constructor) (args : List Value) :
    Confined {name | name ∈ written c} fun fields => w.initialise type c fields args := by
  refine .given fun bound hbound => .given fun taken htaken =>
    confined_assignAll fun entry hentry => ?_
  rcases List.mem_append.1 hentry with hentry | hentry
  · exact List.mem_append_left _ (List.mem_map_of_mem hentry)
  · refine List.mem_append_right _ ?_
    rw [← Constructor.map_fst_of_bindArgs hbound, ← map_fst_of_mapM (fun x y h => ?_) htaken]
    · exact List.mem_map_of_mem hentry
    · dsimp only at h
      split at h
      · obtain ⟨placement, -, h⟩ := ok_of_bind h
        rw [← Except.ok.inj h]
      · rw [← Except.ok.inj h]

/-- The fields that a call of a routine reads or writes, if it does not have to do with all of them
at once. -/
def touchedByRoutine? (w : World) (type : TypeId) (r : Routine) (v : Value) :
    Option (List String) :=
  match r.effect, v with
  | .write field _, _ => if field == "__dict__" then none else some [field]
  | .initialise, _ => some ((w.constructor? type).elim [] written)
  | .erase, .str name => if name == "__dict__" then none else some [name]
  | .look, .str name => if name == "__dict__" then none else some [name]
  | _, _ => some []

lemma confined_callRoutine {r : Routine} {v : Value} {names : List String}
    (h : w.touchedByRoutine? type r v = some names) :
    Confined {name | name ∈ names} fun fields => w.callRoutine type fields r v := by
  unfold touchedByRoutine? at h
  unfold callRoutine
  cases heffect : r.effect with
  | nothing => exact confined_ok _
  | refused => exact confined_error _ _
  | write field mode =>
    rw [heffect] at h
    dsimp only at h
    split at h
    · cases h
    · next hall =>
      obtain rfl := Option.some.inj h
      exact confined_write (by simp) (by simpa using hall) mode v
  | initialise =>
    rw [heffect] at h
    dsimp only at h ⊢
    obtain rfl := Option.some.inj h
    cases w.constructor? type with
    | none => exact confined_error _ _
    | some c => exact confined_initialise c [v]
  | construct =>
    dsimp only
    cases r.binding with
    | free => exact confined_error _ _
    | bound id => exact .given fun _ _ => confined_ok _
  | format =>
    refine .given fun text _ => ?_
    split
    · exact confined_ok _
    · exact confined_error _ _
  | reduce => exact .given fun _ _ => confined_ok _
  | erase =>
    refine .given fun name hname => ?_
    obtain rfl := textOf_eq_ok hname
    rw [heffect] at h
    dsimp only at h
    split at h
    · cases h
    · next hall =>
      obtain rfl := Option.some.inj h
      exact confined_eraseField (by simp) (by simpa using hall)
  | look =>
    refine .given fun name hname => ?_
    obtain rfl := textOf_eq_ok hname
    rw [heffect] at h
    dsimp only at h
    split at h
    · cases h
    · next hall =>
      obtain rfl := Option.some.inj h
      refine .after (fun hagree => ?_) fun _ => confined_ok _
      unfold required
      rw [attribute?_object_congr _ (by simpa using hall) (hagree name (by simp))]

/-- The fields that a call with an object and a value reads or writes. -/
def touchedByCall? (w : World) (type : TypeId) (target v : Value) : Option (List String) :=
  match target with
  | .routine r => w.touchedByRoutine? type r v
  | _ => some []

lemma confined_call {target v : Value} {names : List String}
    (h : w.touchedByCall? type target v = some names) :
    Confined {name | name ∈ names} fun fields => w.call type fields target v := by
  unfold touchedByCall? at h
  unfold call
  split
  · exact confined_callRoutine h
  · exact .given fun _ _ => confined_ok _
  · split
    · split
      · exact confined_ok _
      · exact confined_error _ _
    · exact confined_error _ _
  · exact confined_error _ _

end World

namespace Build

/-- The fields that handing over a value reads or writes, if these can be named. -/
def Deed.touched? (w : World) (found : TypeId) : Deed → Option (List String)
  | create _ => none
  | hand _ (some (.field name)) _ => some [name]
  | hand _ (some (.call target)) v => w.touchedByCall? found target v
  | hand _ _ _ => some []

/-- Neither of the deeds reads or writes a field that the other one writes. -/
def Deed.Apart (w : World) (found : TypeId) (d d' : Deed) : Prop :=
  ∃ names names', d.touched? w found = some names ∧ d'.touched? w found = some names' ∧
    names.Disjoint names'

section Moving

variable {w : World} {found : TypeId} {d d' : Deed}

lemma confined_perform {names : List String} (h : d.touched? w found = some names) :
    Confined {name | name ∈ names} fun fields => d.perform w found fields := by
  cases d with
  | create args => cases h
  | hand name how v =>
    rcases how with _ | ⟨⟨field⟩ | ⟨target⟩ | _⟩
    · exact confined_error _ _
    · obtain rfl := Option.some.inj h
      exact World.confined_assign (by simp) v
    · exact World.confined_call h
    · exact confined_error _ _

/-- Doing the same deeds to objects with the same fields. -/
lemma alike_foldlM {ds : List Deed} (hds : ∀ d' ∈ ds, (d'.touched? w found).isSome = true)
    {fields fields' : Keyed Value} (hsame : ∀ name, fields.get? name = fields'.get? name) :
    Alike Set.univ (ds.foldlM (Deed.perform w found) fields)
      (ds.foldlM (Deed.perform w found) fields') := by
  induction ds generalizing fields fields' with
  | nil => exact .same fun name _ => hsame name
  | cons d' ds ih =>
    rw [List.forall_mem_cons] at hds
    obtain ⟨names, hnames⟩ := Option.isSome_iff_exists.1 hds.1
    have hconfined := (confined_perform hnames).mono (Set.subset_univ _)
    rw [List.foldlM_cons, List.foldlM_cons]
    exact (hconfined.reads fun name _ => hsame name).bind fun h =>
      ih hds.2 fun name => h name (Set.mem_univ name)

/-- A deed can be put behind others that it has nothing to do with. -/
lemma alike_moved {ds : List Deed} (hds : ∀ d' ∈ ds, d.Apart w found d') (fields : Keyed Value) :
    Alike Set.univ ((d :: ds).foldlM (Deed.perform w found) fields)
      ((ds ++ [d]).foldlM (Deed.perform w found) fields) := by
  induction ds generalizing fields with
  | nil => exact .refl _ _
  | cons d' ds ih =>
    rw [List.forall_mem_cons] at hds
    obtain ⟨⟨names, names', hnames, hnames', hdisj⟩, hds⟩ := hds
    have hdisj' : ∀ name ∈ {name | name ∈ names}, name ∉ {name | name ∈ names'} :=
      fun _ h h' => hdisj h h'
    have hswap := (confined_perform hnames).swap (confined_perform hnames') hdisj'
      fun name => (rfl : fields.get? name = fields.get? name)
    have htouched : ∀ d'' ∈ ds, (d''.touched? w found).isSome = true := by
      intro d'' hmem
      obtain ⟨-, names'', -, hnames'', -⟩ := hds d'' hmem
      rw [hnames'', Option.isSome_some]
    -- First the two deeds change places, and then the deed goes on behind the rest.
    have hfirst : Alike Set.univ ((d :: d' :: ds).foldlM (Deed.perform w found) fields)
        ((d' :: d :: ds).foldlM (Deed.perform w found) fields) := by
      simp only [List.foldlM_cons, ← bind_assoc]
      exact hswap.bind fun h => alike_foldlM htouched fun name => h name (Set.mem_univ name)
    refine hfirst.trans ?_
    rw [List.cons_append, List.foldlM_cons, List.foldlM_cons]
    cases d'.perform w found fields with
    | error e => exact .refl _ _
    | ok fields' => exact ih hds fields'

end Moving

end Build
end DocTags
