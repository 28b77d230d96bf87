import DocTags.Proofs.Run
import DocTags.Value.Render
import Mathlib.Data.List.Basic

/-!
# Values whose text is one line

Listings show most texts between quotes, where a line feed is escaped.  What they show without
quotes are names: those of classes, of functions and of fields, and the keys of tag lists.  So the
text of a value is one line if these names are, at any depth (`Value.isOneLine`).

Objects are shown by what the world tells about them, which is the business of
`DocTags.Proofs.OneLine.Worlds`.  Here their texts are given (`isLine_renderWith`).
-/

namespace DocTags

/-! ## Texts without line feeds -/

namespace Text

/-- `true` on texts without a line feed. -/
def isLine (s : String) : Bool :=
  !s.toList.contains '\n'

lemma isLine_iff {s : String} : isLine s = true ↔ '\n' ∉ s.toList := by
  rw [isLine, Bool.not_eq_true', ← Bool.not_eq_true, List.contains_iff_mem]

lemma isLine_ofList {cs : List Char} : isLine (String.ofList cs) = true ↔ '\n' ∉ cs := by
  rw [isLine_iff, String.toList_ofList]

@[simp] lemma isLine_append (s t : String) : isLine (s ++ t) = (isLine s && isLine t) := by
  rw [isLine, String.toList_append, List.contains_append, Bool.not_or]
  rfl

lemma isLine_intercalate {sep : String} (hsep : isLine sep = true) {parts : List String}
    (h : ∀ part ∈ parts, isLine part = true) : isLine (sep.intercalate parts) = true := by
  induction parts with
  | nil => rfl
  | cons part parts ih =>
    obtain ⟨hpart, hparts⟩ := List.forall_mem_cons.1 h
    cases parts with
    | nil => rwa [String.intercalate_singleton]
    | cons next parts =>
      rw [String.intercalate_cons_cons, isLine_append, isLine_append, hpart, hsep, ih hparts]
      rfl

lemma isLine_enclosed {opening closing : String} (hopening : isLine opening = true)
    (hclosing : isLine closing = true) {parts : List String}
    (h : ∀ part ∈ parts, isLine part = true) : isLine (enclosed opening closing parts) = true := by
  have hparts : isLine (", ".intercalate parts) = true := isLine_intercalate rfl h
  rw [enclosed, isLine_append, isLine_append, hopening, hclosing, hparts]
  rfl

lemma isLine_enclosedTuple {parts : List String} (h : ∀ part ∈ parts, isLine part = true) :
    isLine (enclosedTuple parts) = true := by
  unfold enclosedTuple
  split
  · rw [isLine_append, isLine_append, h _ (List.mem_singleton_self _)]
    rfl
  · exact isLine_enclosed rfl rfl h

/-! ## Quoted texts -/

lemma hexDigit_ne_newline {n : Nat} (h : n < 16) : hexDigit n ≠ '\n' := by
  revert n
  decide

lemma newline_not_mem_hexDigits (width n : Nat) : '\n' ∉ hexDigits width n := by
  induction width generalizing n with
  | zero => exact List.not_mem_nil
  | succ width ih =>
    rw [hexDigits, List.mem_append, List.mem_singleton]
    rintro (hmem | heq)
    · exact ih _ hmem
    · exact hexDigit_ne_newline (Nat.mod_lt _ (by decide)) heq.symm

lemma newline_not_mem_escapeChar {mark : Char} (hmark : mark ≠ '\n') (c : Char) :
    '\n' ∉ escapeChar mark c := by
  unfold escapeChar
  split
  · next hc =>
    rw [Bool.or_eq_true, beq_iff_eq, beq_iff_eq] at hc
    rcases hc with rfl | rfl
    · simp [Ne.symm hmark]
    · decide
  split
  · decide
  split
  · decide
  split
  · decide
  split
  · next hne _ _ _ =>
    rw [List.mem_singleton]
    rintro rfl
    exact hne rfl
  have hdigits (width : Nat) (d : Char) (hd : d ≠ '\n') :
      '\n' ∉ '\\' :: d :: hexDigits width c.toNat := by
    rw [List.mem_cons, List.mem_cons, not_or, not_or]
    exact ⟨by decide, Ne.symm hd, newline_not_mem_hexDigits width _⟩
  split
  · exact hdigits 2 'x' (by decide)
  split
  · exact hdigits 4 'u' (by decide)
  · exact hdigits 8 'U' (by decide)

/-- A quoted text is one line, whatever it is. -/
lemma isLine_quoted (s : String) : isLine (quoted s) = true := by
  have hmark : quoteMark s.toList ≠ '\n' := by
    unfold quoteMark
    split <;> decide
  rw [quoted, isLine_ofList, quoteChars]
  simp only [List.cons_append, List.mem_cons, List.mem_append, List.mem_flatMap, List.not_mem_nil,
    or_false]
  rintro (heq | ⟨c, -, hc⟩ | heq)
  · exact hmark heq.symm
  · exact newline_not_mem_escapeChar hmark c hc
  · exact hmark heq.symm

/-! ## Numbers, moments and placements -/

lemma newline_not_mem_toDigits (n : Nat) : '\n' ∉ Nat.toDigits 10 n := fun h =>
  absurd (Nat.isDigit_of_mem_toDigits (by decide) (by decide) h) (by decide)

lemma isLine_natToString (n : Nat) : isLine (toString n) = true := by
  rw [Nat.toString_eq_repr, Nat.repr_eq_ofList_toDigits, isLine_ofList]
  exact newline_not_mem_toDigits n

lemma isLine_intToString (n : Int) : isLine (toString n) = true := by
  cases n with
  | ofNat n => exact isLine_natToString n
  | negSucc n =>
    have htext : toString (Int.negSucc n) = "-" ++ toString (n + 1) := rfl
    rw [htext, isLine_append, isLine_natToString]
    rfl

lemma isLine_digitsOf {n : Int} {text : String} (h : digitsOf n = .ok text) :
    isLine text = true := by
  unfold digitsOf at h
  split at h
  · cases h
  · cases h
    exact isLine_intToString n

end Text

open Text

lemma Binary64.mem_of_mem_trimZeros {ds : List Char} {c : Char} (h : c ∈ trimZeros ds) :
    c ∈ ds := by
  rw [trimZeros, List.mem_reverse] at h
  exact List.mem_reverse.1 ((List.dropWhile_sublist _).subset h)

lemma Binary64.newline_not_mem_layout {ds : List Char} (h : '\n' ∉ ds) (point : Int) :
    '\n' ∉ layout ds point := by
  have htake (n : Nat) : '\n' ∉ ds.take n := fun hmem => h (List.mem_of_mem_take hmem)
  have hdrop (n : Nat) : '\n' ∉ ds.drop n := fun hmem => h (List.mem_of_mem_drop hmem)
  have hzeros (n : Nat) : '\n' ∉ List.replicate n '0' := fun hmem =>
    absurd (List.eq_of_mem_replicate hmem) (by decide)
  have hpower := newline_not_mem_toDigits (point - 1).natAbs
  unfold layout
  dsimp only
  split
  · split
    · simp [h, hzeros]
    · simp only [List.mem_append, htake, hzeros, List.mem_cons, false_or, not_or]
      refine ⟨by decide, ?_⟩
      split
      · decide
      · exact hdrop _
  · simp only [List.mem_append, htake, false_or, not_or]
    refine ⟨⟨?_, ?_⟩, ?_⟩
    · split
      · exact List.not_mem_nil
      · exact List.not_mem_cons_of_ne_of_not_mem (by decide) (hdrop 1)
    · split <;> decide
    · split
      · simp [hpower]
      · exact hpower

lemma Binary64.isLine_text (x : Binary64) : isLine x.text = true := by
  unfold Binary64.text
  split
  · rfl
  · rw [isLine_ofList]
    have hbody {body : List Char} (h : '\n' ∉ body) :
        '\n' ∉ if x.isNegative then '-' :: body else body := by
      split
      · simp [h]
      · exact h
    apply hbody
    split
    · decide
    split
    · decide
    · exact newline_not_mem_layout (fun h => newline_not_mem_toDigits _ (mem_of_mem_trimZeros h)) _

lemma Moment.isLine_render (m : Moment) : isLine m.render = true := by
  have hnumbers (ns : List Nat) : isLine (", ".intercalate (ns.map toString)) = true := by
    refine isLine_intercalate rfl fun part hpart => ?_
    obtain ⟨n, -, rfl⟩ := List.mem_map.1 hpart
    exact isLine_natToString n
  have hsort : isLine m.sortName = true := by
    unfold Moment.sortName
    split <;> rfl
  unfold Moment.render
  simp only [isLine_append, hsort, hnumbers]
  rfl

lemma Placement.isLine_name {p : Placement} {name : String} (h : p.name? = some name) :
    isLine name = true := by
  have hnamed : ∀ q ∈ Placement.named, isLine q.1 = true := by decide
  have hfound : ∀ part ∈ (named.filter fun entry => p.includes entry.2).map Prod.fst,
      isLine part = true := by
    intro part hpart
    obtain ⟨q, hq, rfl⟩ := List.mem_map.1 hpart
    exact hnamed q (List.mem_of_mem_filter hq)
  unfold Placement.name? at h
  split at h
  · cases h
    rfl
  · dsimp only at h
    split at h
    · cases h
    · cases h
      refine isLine_intercalate rfl (List.forall_mem_append.2 ⟨hfound, ?_⟩)
      split
      · exact List.forall_mem_nil _
      · exact List.forall_mem_singleton.2 (isLine_natToString _)

lemma Placement.isLine_describe (p : Placement) : isLine p.describe = true := by
  have hnamed : ∀ q ∈ Placement.named, '\n' ∉ q.1.toList.map Char.toLower := by decide
  unfold Placement.describe
  split
  · rfl
  · split
    · rfl
    · refine isLine_intercalate rfl fun part hpart => ?_
      obtain ⟨q, hq, rfl⟩ := List.mem_map.1 hpart
      rw [isLine_iff, String.toList_map]
      exact hnamed q (List.mem_of_mem_filter hq)

lemma Placement.isLine_rendered {p : Placement} {text : String} (h : p.rendered = .ok text) :
    isLine text = true := by
  unfold Placement.rendered at h
  cases hdigits : digitsOf p.mask with
  | error e =>
    rw [hdigits] at h
    cases h
  | ok digits =>
    rw [hdigits] at h
    cases h
    have hname : isLine (p.name?.elim "" fun name => "." ++ name) = true := by
      cases hname : p.name? with
      | none => rfl
      | some name =>
        change isLine ("." ++ name) = true
        rw [isLine_append, isLine_name hname]
        rfl
    unfold Placement.render
    simp only [isLine_append, hname, isLine_natToString]
    rfl

/-! ## Values -/

/-- `true` on the routines whose names, and those of their classes and fields, are on one line. -/
def Routine.isOneLine (r : Routine) : Bool :=
  isLine r.name && isLine r.owner &&
    (match r.binding with
      | .free => true
      | .bound type => isLine type) &&
    match r.effect with
    | .write field _ => isLine field
    | _ => true

mutual

/-- `true` when the names in the value, and the keys of the tag lists in it, are on one line. -/
def Value.isOneLine : Value → Bool
  | .list items | .tuple items => areOneLine items
  | .dict pairs => arePairsOneLine pairs
  | .tags entries => areEntriesOneLine entries
  | .object _ type fields => isLine type && areFieldsOneLine fields
  | .cls id => isLine id
  | .routine r => r.isOneLine
  | .property p => isLine p.name
  | .typeExpr t => t.isOneLine
  | _ => true

/-- `Value.isOneLine` of all values. -/
def areOneLine : List Value → Bool
  | [] => true
  | v :: vs => v.isOneLine && areOneLine vs

/-- `Value.isOneLine` of all keys and values. -/
def arePairsOneLine : List (Value × Value) → Bool
  | [] => true
  | (k, v) :: rest => k.isOneLine && v.isOneLine && arePairsOneLine rest

/-- `Value.isOneLine` of all entries. -/
def areEntriesOneLine : List (Option String × Value) → Bool
  | [] => true
  | (key, v) :: rest => key.all isLine && v.isOneLine && areEntriesOneLine rest

/-- `Value.isOneLine` of all fields. -/
def areFieldsOneLine : List (String × Value) → Bool
  | [] => true
  | (name, v) :: rest => isLine name && v.isOneLine && areFieldsOneLine rest

/-- `Value.isOneLine` of the values in a type. -/
def TypeExpr.isOneLine : TypeExpr → Bool
  | .enum values => areOneLine values
  | .tuple items => areTypesOneLine items
  | .list item => item.isOneLine
  | _ => true

/-- `TypeExpr.isOneLine` of all types. -/
def areTypesOneLine : List TypeExpr → Bool
  | [] => true
  | t :: ts => t.isOneLine && areTypesOneLine ts

end

@[simp] lemma areOneLine_iff {vs : List Value} :
    areOneLine vs = true ↔ ∀ v ∈ vs, v.isOneLine = true := by
  induction vs with
  | nil => simp [areOneLine]
  | cons v vs ih => rw [areOneLine, Bool.and_eq_true, ih, List.forall_mem_cons]

@[simp] lemma arePairsOneLine_iff {pairs : List (Value × Value)} :
    arePairsOneLine pairs = true ↔
      ∀ pair ∈ pairs, pair.1.isOneLine = true ∧ pair.2.isOneLine = true := by
  induction pairs with
  | nil => simp [arePairsOneLine]
  | cons pair pairs ih =>
    rw [arePairsOneLine, Bool.and_eq_true, Bool.and_eq_true, ih, List.forall_mem_cons]

@[simp] lemma areEntriesOneLine_iff {entries : List (Option String × Value)} :
    areEntriesOneLine entries = true ↔
      ∀ entry ∈ entries, entry.1.all isLine = true ∧ entry.2.isOneLine = true := by
  induction entries with
  | nil => simp [areEntriesOneLine]
  | cons entry entries ih =>
    rw [areEntriesOneLine, Bool.and_eq_true, Bool.and_eq_true, ih, List.forall_mem_cons]

@[simp] lemma areFieldsOneLine_iff {fields : List (String × Value)} :
    areFieldsOneLine fields = true ↔
      ∀ field ∈ fields, isLine field.1 = true ∧ field.2.isOneLine = true := by
  induction fields with
  | nil => simp [areFieldsOneLine]
  | cons field fields ih =>
    rw [areFieldsOneLine, Bool.and_eq_true, Bool.and_eq_true, ih, List.forall_mem_cons]

@[simp] lemma areTypesOneLine_iff {ts : List TypeExpr} :
    areTypesOneLine ts = true ↔ ∀ t ∈ ts, t.isOneLine = true := by
  induction ts with
  | nil => simp [areTypesOneLine]
  | cons t ts ih => rw [areTypesOneLine, Bool.and_eq_true, ih, List.forall_mem_cons]

lemma isLine_renderClass (id : TypeId) : isLine (renderClass id) = true := by
  unfold renderClass
  split <;> simp only [isLine_append, isLine_quoted] <;> rfl

lemma Routine.isLine_render {r : Routine} (h : r.isOneLine = true) : isLine r.render = true := by
  obtain ⟨⟨⟨hname, howner⟩, -⟩, -⟩ : ((isLine r.name = true ∧ isLine r.owner = true) ∧ _) ∧ _ := by
    simpa only [Routine.isOneLine, Bool.and_eq_true] using h
  have hfull : isLine r.fullName = true := by
    unfold Routine.fullName
    split
    · exact hname
    · rw [isLine_append, isLine_append, howner, hname]
      rfl
  unfold Routine.render
  split <;>
    simp only [isLine_append, isLine_quoted, isLine_renderClass, hfull, hname] <;> rfl

/-- What is said about the texts of objects: they are one line if the names in the objects are. -/
def ShownOnLines (shown : Value → Except Error String) : Prop :=
  ∀ origin type fields text, (Value.object origin type fields).isOneLine = true →
    shown (.object origin type fields) = .ok text → isLine text = true

namespace Value

variable {shown : Value → Except Error String}

mutual

/-- The text of a value is one line if the names in it are, and the texts of objects are. -/
lemma isLine_renderWith (hshown : ShownOnLines shown) (v : Value) (hv : v.isOneLine = true)
    {text : String} (h : renderWith shown v = .ok text) : isLine text = true := by
  cases v with
  | null | missing | property _ =>
    cases h
    rfl
  | bool b => cases b <;> cases h <;> rfl
  | int n => exact isLine_digitsOf h
  | float x m =>
    cases h
    exact x.isLine_text
  | str s =>
    cases h
    exact isLine_quoted s
  | moment m =>
    cases h
    exact m.isLine_render
  | list items =>
    obtain ⟨parts, hparts, h⟩ := ok_of_bind h
    cases h
    exact isLine_enclosed rfl rfl (isLine_renderItems hshown items hv hparts)
  | tuple items =>
    obtain ⟨parts, hparts, h⟩ := ok_of_bind h
    cases h
    exact isLine_enclosedTuple (isLine_renderItems hshown items hv hparts)
  | dict pairs =>
    obtain ⟨parts, hparts, h⟩ := ok_of_bind h
    cases h
    exact isLine_enclosed rfl rfl (isLine_renderPairs hshown pairs hv hparts)
  | tags entries =>
    obtain ⟨parts, hparts, h⟩ := ok_of_bind h
    cases h
    exact isLine_enclosed rfl rfl (isLine_renderEntries hshown entries hv hparts)
  | object origin type fields => exact hshown origin type fields text hv h
  | cls id =>
    cases h
    exact isLine_renderClass id
  | routine r =>
    cases h
    exact r.isLine_render hv
  | moduleNamed name =>
    cases h
    rw [isLine_append, isLine_append, isLine_quoted]
    rfl
  | placement p => exact p.isLine_rendered h
  | typeExpr t => exact isLine_renderType hshown t hv h

lemma isLine_renderItems (hshown : ShownOnLines shown) (vs : List Value)
    (hvs : areOneLine vs = true) {parts : List String} (h : renderItems shown vs = .ok parts) :
    ∀ part ∈ parts, isLine part = true := by
  cases vs with
  | nil =>
    cases h
    exact List.forall_mem_nil _
  | cons v vs =>
    rw [areOneLine, Bool.and_eq_true] at hvs
    obtain ⟨text, htext, h⟩ := ok_of_bind h
    obtain ⟨texts, htexts, h⟩ := ok_of_bind h
    cases h
    exact List.forall_mem_cons.2 ⟨isLine_renderWith hshown v hvs.1 htext,
      isLine_renderItems hshown vs hvs.2 htexts⟩

lemma isLine_renderPairs (hshown : ShownOnLines shown) (pairs : List (Value × Value))
    (hpairs : arePairsOneLine pairs = true) {parts : List String}
    (h : renderPairs shown pairs = .ok parts) : ∀ part ∈ parts, isLine part = true := by
  cases pairs with
  | nil =>
    cases h
    exact List.forall_mem_nil _
  | cons pair pairs =>
    obtain ⟨k, v⟩ := pair
    rw [arePairsOneLine, Bool.and_eq_true, Bool.and_eq_true] at hpairs
    obtain ⟨key, hkey, h⟩ := ok_of_bind h
    obtain ⟨text, htext, h⟩ := ok_of_bind h
    obtain ⟨texts, htexts, h⟩ := ok_of_bind h
    cases h
    refine List.forall_mem_cons.2 ⟨?_, isLine_renderPairs hshown pairs hpairs.2 htexts⟩
    rw [isLine_append, isLine_append, isLine_renderWith hshown k hpairs.1.1 hkey,
      isLine_renderWith hshown v hpairs.1.2 htext]
    rfl

lemma isLine_renderEntries (hshown : ShownOnLines shown)
    (entries : List (Option String × Value)) (hentries : areEntriesOneLine entries = true)
    {parts : List String} (h : renderEntries shown entries = .ok parts) :
    ∀ part ∈ parts, isLine part = true := by
  cases entries with
  | nil =>
    cases h
    exact List.forall_mem_nil _
  | cons entry entries =>
    obtain ⟨key, v⟩ := entry
    rw [areEntriesOneLine, Bool.and_eq_true, Bool.and_eq_true] at hentries
    obtain ⟨text, htext, h⟩ := ok_of_bind h
    obtain ⟨texts, htexts, h⟩ := ok_of_bind h
    cases h
    refine List.forall_mem_cons.2 ⟨?_, isLine_renderEntries hshown entries hentries.2 htexts⟩
    have hv := isLine_renderWith hshown v hentries.1.2 htext
    cases key with
    | none => exact hv
    | some key =>
      have hkey : isLine key = true := hentries.1.1
      change isLine (key ++ ": " ++ text) = true
      rw [isLine_append, isLine_append, hkey, hv]
      rfl

lemma isLine_renderType (hshown : ShownOnLines shown) (t : TypeExpr) (ht : t.isOneLine = true)
    {text : String} (h : renderType shown t = .ok text) : isLine text = true := by
  cases t with
  | «enum» values =>
    obtain ⟨parts, hparts, h⟩ := ok_of_bind h
    cases h
    rw [isLine_append, isLine_append,
      isLine_enclosedTuple (isLine_renderItems hshown values ht hparts)]
    rfl
  | ref type =>
    cases h
    rw [isLine_append, isLine_append, isLine_quoted]
    rfl
  | tuple items =>
    obtain ⟨parts, hparts, h⟩ := ok_of_bind h
    cases h
    rw [isLine_append, isLine_append,
      isLine_enclosedTuple (isLine_renderTypes hshown items ht hparts)]
    rfl
  | list item =>
    obtain ⟨part, hpart, h⟩ := ok_of_bind h
    cases h
    rw [isLine_append, isLine_append, isLine_renderType hshown item ht hpart]
    rfl
  | _ =>
    cases h
    rfl

lemma isLine_renderTypes (hshown : ShownOnLines shown) (ts : List TypeExpr)
    (hts : areTypesOneLine ts = true) {parts : List String}
    (h : renderTypes shown ts = .ok parts) : ∀ part ∈ parts, isLine part = true := by
  cases ts with
  | nil =>
    cases h
    exact List.forall_mem_nil _
  | cons t ts =>
    rw [areTypesOneLine, Bool.and_eq_true] at hts
    obtain ⟨text, htext, h⟩ := ok_of_bind h
    obtain ⟨texts, htexts, h⟩ := ok_of_bind h
    cases h
    exact List.forall_mem_cons.2 ⟨isLine_renderType hshown t hts.1 htext,
      isLine_renderTypes hshown ts hts.2 htexts⟩

end

end Value

end DocTags
