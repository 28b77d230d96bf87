import DocTags.Proofs.OneLine.Worlds

/-!
# Objects whose names are on one line

In a world whose names are on one line, constructors make objects with such fields
(`World.isOneLine_construct`), and setters leave such fields (`World.isOneLine_call`).  A setter may
sort a value first, which brings in nothing new (`Value.mem_of_mem_sort`).
-/

namespace DocTags

open Text

namespace Value

/-! ## Sorting -/

/-- A run and what is behind it are the values that it was cut off from. -/
lemma mem_of_takeRun {descending : Bool} {last x : Value} {run vs run' rest : List Value}
    (h : takeRun descending last run vs = .ok (run', rest)) (hx : x ∈ run' ∨ x ∈ rest) :
    x ∈ last :: run ++ vs := by
  induction vs generalizing last run with
  | nil =>
    cases h
    simpa using hx
  | cons v vs ih =>
    obtain ⟨less, -, h⟩ := ok_of_bind h
    split at h
    · have hmem := ih h
      simp only [List.mem_append, List.mem_cons] at hmem ⊢
      tauto
    · cases h
      simpa [or_assoc] using hx

lemma mem_of_startRun {x : Value} {vs run rest : List Value} (h : startRun vs = .ok (run, rest))
    (hx : x ∈ run ∨ x ∈ rest) : x ∈ vs := by
  unfold startRun at h
  split at h
  · obtain ⟨descending, -, h⟩ := ok_of_bind h
    obtain ⟨⟨taken, behind⟩, htaken, h⟩ := ok_of_bind h
    cases h
    have hx' : x ∈ taken ∨ x ∈ rest := by
      refine hx.imp_left fun hmem => ?_
      split at hmem
      · exact hmem
      · exact List.mem_reverse.1 hmem
    have hmem := mem_of_takeRun htaken hx'
    simp only [List.mem_append, List.mem_cons] at hmem ⊢
    tauto
  · cases h
    simpa using hx

lemma mem_of_insertInto {x v : Value} {sorted sorted' : List Value}
    (h : insertInto sorted v = .ok sorted') (hx : x ∈ sorted') : x = v ∨ x ∈ sorted := by
  obtain ⟨place, -, h⟩ := ok_of_bind h
  cases h
  rcases List.mem_append.1 hx with hx | hx
  · exact .inr (List.mem_of_mem_take hx)
  · exact (List.mem_cons.1 hx).imp_right List.mem_of_mem_drop

/-- Sorting brings in nothing new. -/
lemma mem_of_mem_sort {vs sorted : List Value} (h : sort vs = .ok sorted) {x : Value}
    (hx : x ∈ sorted) : x ∈ vs := by
  obtain ⟨⟨run, rest⟩, hrun, h⟩ := ok_of_bind h
  suffices hmem : x ∈ run ∨ x ∈ rest from mem_of_startRun hrun hmem
  dsimp only at h
  clear hrun
  induction rest generalizing run with
  | nil =>
    cases h
    exact .inl hx
  | cons v rest ih =>
    rw [List.foldlM_cons] at h
    obtain ⟨next, hnext, h⟩ := ok_of_bind h
    rcases ih next h with hmem | hmem
    · exact (mem_of_insertInto hnext hmem).elim (fun he => .inr (he ▸ List.mem_cons_self)) .inl
    · exact .inr (List.mem_cons_of_mem v hmem)

end Value

namespace World

variable {w : World} {id type : TypeId} {name : String} {v u : Value} {fields : Keyed Value}

/-! ## Making objects -/

lemma isOneLine_put (hfields : areFieldsOneLine fields = true) (hname : isLine name = true)
    (hv : v.isOneLine = true) : areFieldsOneLine (fields.put name v) = true := by
  rw [areFieldsOneLine_iff] at hfields ⊢
  rintro ⟨other, u⟩ hmem
  rcases Keyed.mem_put hmem with ⟨rfl, rfl⟩ | hmem
  · exact ⟨hname, hv⟩
  · exact hfields _ hmem

lemma isOneLine_assign (hfields : areFieldsOneLine fields = true) (hname : isLine name = true)
    (hv : v.isOneLine = true) {fields' : Keyed Value}
    (h : w.assign type fields name v = .ok fields') : areFieldsOneLine fields' = true := by
  unfold assign at h
  split at h
  · cases h
  · split at h <;> cases h
    exact isOneLine_put hfields hname hv

lemma isOneLine_assignAll {more : List (String × Value)} (hfields : areFieldsOneLine fields = true)
    (hmore : areFieldsOneLine more = true) {fields' : Keyed Value}
    (h : w.assignAll type fields more = .ok fields') : areFieldsOneLine fields' = true := by
  induction more generalizing fields with
  | nil =>
    cases h
    exact hfields
  | cons field more ih =>
    rw [areFieldsOneLine, Bool.and_eq_true, Bool.and_eq_true] at hmore
    obtain ⟨next, hnext, h⟩ := ok_of_bind h
    exact ih (isOneLine_assign hfields hmore.1.1 hmore.1.2 hnext) hmore.2 h

lemma isOneLine_bindArgs {params : List Param} {args : List Value}
    (hparams : ∀ p ∈ params, isLine p.name = true ∧ ∀ v ∈ p.default, v.isOneLine = true)
    (hargs : ∀ v ∈ args, v.isOneLine = true) {bound : List (String × Value)}
    (h : Constructor.bindArgs params args = .ok bound) : areFieldsOneLine bound = true := by
  induction params generalizing args bound with
  | nil =>
    cases args with
    | nil =>
      cases h
      rfl
    | cons => cases h
  | cons p params ih =>
    obtain ⟨⟨hname, hdefault⟩, hparams⟩ := List.forall_mem_cons.1 hparams
    have hcons {v : Value} {rest : List (String × Value)} (hv : v.isOneLine = true)
        (hrest : areFieldsOneLine rest = true) : areFieldsOneLine ((p.name, v) :: rest) = true := by
      rw [areFieldsOneLine, hname, hv, hrest]
      rfl
    rw [Constructor.bindArgs.eq_def] at h
    dsimp only at h
    split at h
    · obtain ⟨rest, hrest, h⟩ := ok_of_bind h
      cases h
      exact hcons (areOneLine_iff.2 hargs) (ih hparams (List.forall_mem_nil _) hrest)
    · obtain ⟨rest, hrest, h⟩ := ok_of_bind h
      cases h
      exact hcons rfl (ih hparams hargs hrest)
    · obtain ⟨rest, hrest, h⟩ := ok_of_bind h
      obtain ⟨v, hv, h⟩ := ok_of_bind h
      cases h
      split at hv
      · next hu =>
        cases hv
        exact hcons (hdefault _ hu) (ih hparams hargs hrest)
      · cases hv
    · obtain ⟨rest, hrest, h⟩ := ok_of_bind h
      cases h
      obtain ⟨harg, hargs⟩ := List.forall_mem_cons.1 hargs
      exact hcons harg (ih hparams hargs hrest)
    · obtain ⟨v, hv, h⟩ := ok_of_bind h
      obtain ⟨rest, hrest, h⟩ := ok_of_bind h
      cases h
      split at hv
      · next hu =>
        cases hv
        exact hcons (hdefault _ hu) (ih hparams (List.forall_mem_nil _) hrest)
      · cases hv

lemma isOneLine_initialise {k : Constructor} (hk : k.isOneLine = true)
    (hfields : areFieldsOneLine fields = true) {args : List Value}
    (hargs : ∀ v ∈ args, v.isOneLine = true) {fields' : Keyed Value}
    (h : w.initialise id k fields args = .ok fields') : areFieldsOneLine fields' = true := by
  rw [Constructor.isOneLine, Bool.and_eq_true, List.all_eq_true] at hk
  have hparams : ∀ p ∈ k.params, isLine p.name = true ∧ ∀ v ∈ p.default, v.isOneLine = true := by
    intro p hp
    have hp' := hk.2 p hp
    rw [Bool.and_eq_true] at hp'
    exact ⟨hp'.1, fun v hv => by simpa [Option.mem_def.1 hv] using hp'.2⟩
  obtain ⟨bound, hbound, h⟩ := ok_of_bind h
  obtain ⟨taken, htaken, h⟩ := ok_of_bind h
  have hboundLines := areFieldsOneLine_iff.1 (isOneLine_bindArgs hparams hargs hbound)
  have htakenLines : ∀ field ∈ taken, isLine field.1 = true ∧ field.2.isOneLine = true := by
    intro field hfield
    obtain ⟨⟨name, v⟩, hmem, hstep⟩ := exists_of_mem_mapM htaken hfield
    dsimp only at hstep
    split at hstep
    · obtain ⟨p, -, hstep⟩ := ok_of_bind hstep
      cases hstep
      exact ⟨(hboundLines _ hmem).1, rfl⟩
    · cases hstep
      exact hboundLines _ hmem
  refine isOneLine_assignAll hfields (areFieldsOneLine_iff.2 ?_) h
  exact List.forall_mem_append.2 ⟨areFieldsOneLine_iff.1 hk.1, htakenLines⟩

lemma isOneLine_constructor? (hw : w.isOneLine = true) {k : Constructor}
    (h : w.constructor? id = some k) : k.isOneLine = true := by
  obtain ⟨c, -, h⟩ := List.exists_of_findSome?_eq_some h
  obtain ⟨c, hc, hk⟩ := Option.bind_eq_some_iff.1 h
  exact (isOneLine_of_class hw hc).2.2 k hk

/-- The fields that a constructor makes are one line if its arguments are. -/
lemma isOneLine_construct (hw : w.isOneLine = true) {args : List Value}
    (hargs : ∀ v ∈ args, v.isOneLine = true) {fields : Keyed Value}
    (h : w.construct id args = .ok fields) : areFieldsOneLine fields = true := by
  unfold construct at h
  split at h
  · split at h <;> cases h
    rfl
  · next k hk => exact isOneLine_initialise (isOneLine_constructor? hw hk) rfl hargs h

/-! ## Setters -/

lemma isOneLine_write (hw : w.isOneLine = true) (htype : isLine type = true)
    (hfields : areFieldsOneLine fields = true) {field : String} (hfield : isLine field = true)
    (hv : v.isOneLine = true) {mode : SetterMode} {fields' : Keyed Value}
    (h : w.write type fields field mode v = .ok fields') : areFieldsOneLine fields' = true := by
  cases mode with
  | store => exact isOneLine_assign hfields hfield hv h
  | sorted =>
    obtain ⟨vs, hvs, h⟩ := ok_of_bind h
    obtain ⟨sorted, hsorted, h⟩ := ok_of_bind h
    have hitems := areOneLine_iff.1 (Value.isOneLine_of_elements hv hvs)
    have hlist : (Value.list sorted).isOneLine = true :=
      areOneLine_iff.2 fun u hu => hitems u (Value.mem_of_mem_sort hsorted hu)
    exact isOneLine_assign hfields hfield hlist h
  | append =>
    have hold : ((w.attribute? (.object (.built none) type fields) field).getD .null).isOneLine =
        true := by
      cases hget : w.attribute? (.object (.built none) type fields) field with
      | none => rfl
      | some old =>
        refine isOneLine_attribute? hw ?_ hget
        rw [Value.isOneLine, htype, hfields]
        rfl
    have happend {items : List Value} (hitems : ∀ u ∈ items, u.isOneLine = true)
        (h : w.assign type fields field (.list (items ++ [v])) = .ok fields') :
        areFieldsOneLine fields' = true := by
      have hlist : (Value.list (items ++ [v])).isOneLine = true :=
        areOneLine_iff.2 (List.forall_mem_append.2 ⟨hitems, List.forall_mem_singleton.2 hv⟩)
      exact isOneLine_assign hfields hfield hlist h
    unfold write at h
    dsimp only at h
    split at h
    · obtain ⟨items, hitems, h⟩ := ok_of_bind h
      exact happend (areOneLine_iff.1 (Value.isOneLine_of_elements hold hitems)) h
    · exact happend (List.forall_mem_nil _) h

lemma isOneLine_eraseField (hfields : areFieldsOneLine fields = true) {fields' : Keyed Value}
    (h : w.eraseField type fields name = .ok fields') : areFieldsOneLine fields' = true := by
  rw [areFieldsOneLine_iff] at hfields ⊢
  unfold eraseField at h
  split at h
  · cases h
  split at h
  · split at h <;> cases h
    exact fun field hfield => hfields field (List.mem_of_mem_filter hfield)
  split at h
  · cases h
  · split at h <;> cases h
    exact fun field hfield => hfields field (List.mem_of_mem_filter hfield)

lemma isOneLine_callRoutine (hw : w.isOneLine = true) (htype : isLine type = true)
    (hfields : areFieldsOneLine fields = true) {r : Routine} (hr : r.isOneLine = true)
    (hv : v.isOneLine = true) {fields' : Keyed Value}
    (h : w.callRoutine type fields r v = .ok fields') : areFieldsOneLine fields' = true := by
  unfold callRoutine at h
  split at h
  · cases h
    exact hfields
  · cases h
  · next field mode heffect =>
    have hfield : isLine field = true := by
      rw [Routine.isOneLine, heffect, Bool.and_eq_true] at hr
      exact hr.2
    exact isOneLine_write hw htype hfields hfield hv h
  · split at h
    · cases h
    · next k hk =>
      exact isOneLine_initialise (isOneLine_constructor? hw hk) hfields
        (List.forall_mem_singleton.2 hv) h
  · split at h
    · cases h
    · obtain ⟨_, -, h⟩ := ok_of_bind h
      cases h
      exact hfields
  · obtain ⟨name, -, h⟩ := ok_of_bind h
    exact isOneLine_eraseField hfields h
  · obtain ⟨name, -, h⟩ := ok_of_bind h
    obtain ⟨_, -, h⟩ := ok_of_bind h
    cases h
    exact hfields
  · obtain ⟨name, -, h⟩ := ok_of_bind h
    split at h <;> cases h
    exact hfields
  · obtain ⟨_, -, h⟩ := ok_of_bind h
    cases h
    exact hfields

/-- The fields that a setter leaves are one line if those before are, and the value. -/
lemma isOneLine_call (hw : w.isOneLine = true) (htype : isLine type = true)
    (hfields : areFieldsOneLine fields = true) {target : Value} (htarget : target.isOneLine = true)
    (hv : v.isOneLine = true) {fields' : Keyed Value}
    (h : w.call type fields target v = .ok fields') : areFieldsOneLine fields' = true := by
  unfold call at h
  split at h
  · exact isOneLine_callRoutine hw htype hfields htarget hv h
  · obtain ⟨_, -, h⟩ := ok_of_bind h
    cases h
    exact hfields
  · split at h
    · split at h <;> cases h
      exact hfields
    · cases h
  · cases h

end World

end DocTags
