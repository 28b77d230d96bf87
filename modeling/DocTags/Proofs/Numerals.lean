import DocTags.Number.Numeral
import Mathlib.Data.List.TakeWhile
import Mathlib.Tactic.Common

/-!
# Which texts are numerals

`Numeral.Spells n text` says that a text spells a numeral: an optional sign, digits with at most one
point among or beside them, and an optional exponent.  The reader of numerals takes exactly these
texts, and takes them apart as they are spelled (`read?_eq_some_iff`).
-/

namespace DocTags
namespace Numeral

/-- A sign or none; `true` is a minus. -/
inductive IsSign : Bool → List Char → Prop
  | absent : IsSign false []
  | plus : IsSign false ['+']
  | minus : IsSign true ['-']

/-- The power of ten that an exponent part stands for. -/
inductive IsExponent : Int → List Char → Prop
  | absent : IsExponent 0 []
  | present {e : Char} {negative : Bool} {sign ds : List Char} (he : e = 'e' ∨ e = 'E')
      (hsign : IsSign negative sign) (hds : isDigits ds = true) :
      IsExponent (if negative then -(ofDigits ds : Int) else ofDigits ds) (e :: (sign ++ ds))

/-- The texts of a numeral. -/
inductive Spells : Numeral → List Char → Prop
  | whole {negative : Bool} {sign ds power : List Char} {exponent : Int}
      (hsign : IsSign negative sign) (hds : isDigits ds = true)
      (hexp : IsExponent exponent power) :
      Spells ⟨negative, ds, [], exponent⟩ (sign ++ (ds ++ power))
  | pointed {negative : Bool} {sign ds ds' power : List Char} {exponent : Int}
      (hsign : IsSign negative sign) (hds : ∀ c ∈ ds, c.isDigit = true)
      (hds' : ∀ c ∈ ds', c.isDigit = true) (hne : ds ++ ds' ≠ [])
      (hexp : IsExponent exponent power) :
      Spells ⟨negative, ds, ds', exponent⟩ (sign ++ (ds ++ '.' :: (ds' ++ power)))

/-! ## Parts of a numeral -/

lemma isDigits_iff {ds : List Char} :
    isDigits ds = true ↔ ds ≠ [] ∧ ∀ c ∈ ds, c.isDigit = true := by
  simp [isDigits]

lemma exists_sign (cs : List Char) :
    ∃ sign, IsSign (readSign cs).1 sign ∧ sign ++ (readSign cs).2 = cs := by
  unfold readSign
  split
  · exact ⟨['-'], .minus, rfl⟩
  · exact ⟨['+'], .plus, rfl⟩
  · exact ⟨[], .absent, rfl⟩

/-- Behind a sign, or without one, stands something that is no sign. -/
lemma readSign_append {negative : Bool} {sign cs : List Char} (hsign : IsSign negative sign)
    (hplus : cs.head? ≠ some '+') (hminus : cs.head? ≠ some '-') :
    readSign (sign ++ cs) = (negative, cs) := by
  cases hsign with
  | absent =>
    rw [List.nil_append, readSign.eq_def]
    split
    · exact absurd rfl hminus
    · exact absurd rfl hplus
    · rfl
  | plus => rfl
  | minus => rfl

lemma head?_ne_of_isDigits {ds : List Char} (h : isDigits ds = true) (rest : List Char) {c : Char}
    (hc : c.isDigit = false) : (ds ++ rest).head? ≠ some c := by
  obtain ⟨hne, hall⟩ := isDigits_iff.1 h
  obtain ⟨d, ds, rfl⟩ := List.exists_cons_of_ne_nil hne
  intro hhead
  obtain rfl := Option.some.inj hhead
  rw [hall d List.mem_cons_self] at hc
  cases hc

lemma readExponent?_eq_some_iff {cs : List Char} {exponent : Int} :
    readExponent? cs = some exponent ↔ IsExponent exponent cs := by
  constructor
  · intro h
    cases cs with
    | nil =>
      cases h
      exact .absent
    | cons e cs =>
      rw [readExponent?] at h
      split at h
      · next he =>
        obtain ⟨sign, hsign, hcs⟩ := exists_sign cs
        rcases hread : readSign cs with ⟨negative, ds⟩
        rw [hread] at hsign hcs h
        dsimp only at hcs h
        split at h
        · next hds =>
          rw [← Option.some.inj h, ← hcs]
          rw [Bool.or_eq_true, beq_iff_eq, beq_iff_eq] at he
          exact .present he hsign hds
        · cases h
      · cases h
  · intro h
    cases h with
    | absent => rfl
    | @present e negative sign ds he hsign hds =>
      have he' : (e == 'e' || e == 'E') = true := by
        rwa [Bool.or_eq_true, beq_iff_eq, beq_iff_eq]
      have hread : readSign (sign ++ ds) = (negative, ds) := by
        have hhead := fun c => head?_ne_of_isDigits hds [] (c := c)
        rw [List.append_nil] at hhead
        exact readSign_append hsign (hhead '+' (by decide)) (hhead '-' (by decide))
      rw [readExponent?, if_pos he', hread]
      exact if_pos hds

/-- No digit stands at the head of an exponent part, so digits before it end there. -/
lemma head?_of_isExponent {exponent : Int} {power : List Char} (h : IsExponent exponent power) :
    ∀ c ∈ power.head?, c.isDigit = false ∧ c ≠ '.' := by
  cases h with
  | absent => exact fun c hc => nomatch hc
  | present he _ _ =>
    rintro c ⟨rfl⟩
    rcases he with rfl | rfl <;> decide

lemma spells_of_isDigits {ds : List Char} (h : isDigits ds = true) :
    Spells ⟨false, ds, [], 0⟩ ds := by
  have hspells := Spells.whole .absent h .absent
  rwa [List.nil_append, List.append_nil] at hspells

/-! ## Digits and what follows them -/

/-- The digits at the head of a text, and a rest that does not begin with one. -/
lemma exists_digits (cs : List Char) :
    ∃ ds rest, cs = ds ++ rest ∧ (∀ c ∈ ds, c.isDigit = true) ∧
      cs.takeWhile Char.isDigit = ds ∧ cs.dropWhile Char.isDigit = rest :=
  ⟨_, _, List.takeWhile_append_dropWhile.symm, fun _ hc => List.mem_takeWhile_imp hc, rfl, rfl⟩

lemma takeWhile_digits {ds rest : List Char} (hds : ∀ c ∈ ds, c.isDigit = true)
    (hrest : ∀ c ∈ rest.head?, c.isDigit = false) :
    (ds ++ rest).takeWhile Char.isDigit = ds ∧ (ds ++ rest).dropWhile Char.isDigit = rest := by
  rw [List.takeWhile_append_of_pos hds, List.dropWhile_append_of_pos hds]
  cases rest with
  | nil => exact ⟨List.append_nil ds, rfl⟩
  | cons c rest =>
    have hc : ¬ c.isDigit = true := by simp [hrest c rfl]
    rw [List.takeWhile_cons_of_neg hc, List.dropWhile_cons_of_neg hc]
    exact ⟨List.append_nil ds, rfl⟩

/-! ## Whole numerals -/

lemma spells_of_read? {cs : List Char} {n : Numeral} (h : read? cs = some n) : Spells n cs := by
  obtain ⟨sign, hsign, hcs⟩ := exists_sign cs
  rw [read?] at h
  rcases hread : readSign cs with ⟨negative, body⟩
  rw [hread] at hsign hcs h
  obtain ⟨ds, rest, rfl, hds, htake, hdrop⟩ := exists_digits body
  dsimp only at h hcs
  rw [htake, hdrop] at h
  rw [← hcs]
  split at h
  · next tail =>
    obtain ⟨ds', power, rfl, hds', htake', hdrop'⟩ := exists_digits tail
    rw [htake', hdrop'] at h
    dsimp only at h
    split at h
    · cases h
    · next hne =>
      obtain ⟨exponent, hexp, rfl⟩ := Option.map_eq_some_iff.1 h
      refine .pointed hsign hds hds' (fun hnil => hne ?_) (readExponent?_eq_some_iff.1 hexp)
      obtain ⟨rfl, rfl⟩ := List.append_eq_nil_iff.1 hnil
      rfl
  · dsimp only at h
    split at h
    · cases h
    · next hne =>
      obtain ⟨exponent, hexp, rfl⟩ := Option.map_eq_some_iff.1 h
      refine .whole hsign (isDigits_iff.2 ⟨fun hnil => hne ?_, hds⟩)
        (readExponent?_eq_some_iff.1 hexp)
      rw [hnil]
      rfl

lemma read?_of_spells {cs : List Char} {n : Numeral} (h : Spells n cs) : read? cs = some n := by
  cases h with
  | @whole negative sign ds power exponent hsign hds hexp =>
    have hread : readSign (sign ++ (ds ++ power)) = (negative, ds ++ power) :=
      readSign_append hsign (head?_ne_of_isDigits hds _ (by decide))
        (head?_ne_of_isDigits hds _ (by decide))
    obtain ⟨hne, hall⟩ := isDigits_iff.1 hds
    have hpower := head?_of_isExponent hexp
    obtain ⟨htake, hdrop⟩ := takeWhile_digits hall fun c hc => (hpower c hc).1
    have hpoint : ∀ rest, power ≠ '.' :: rest := by
      rintro rest rfl
      exact (hpower '.' rfl).2 rfl
    have hempty : ds.isEmpty = false := by simpa using hne
    rw [read?, hread]
    dsimp only
    rw [htake, hdrop]
    split
    · next rest => exact absurd rfl (hpoint rest)
    · simp [hempty, readExponent?_eq_some_iff.2 hexp]
  | @pointed negative sign ds ds' power exponent hsign hds hds' hne hexp =>
    have hhead : ∀ c, c.isDigit = false → c ≠ '.' →
        (ds ++ '.' :: (ds' ++ power)).head? ≠ some c := by
      intro c hc hpoint hhead
      cases ds with
      | nil => exact hpoint (Option.some.inj hhead).symm
      | cons d ds =>
        rw [← Option.some.inj hhead, hds d List.mem_cons_self] at hc
        cases hc
    have hread : readSign (sign ++ (ds ++ '.' :: (ds' ++ power))) =
        (negative, ds ++ '.' :: (ds' ++ power)) :=
      readSign_append hsign (hhead '+' (by decide) (by decide)) (hhead '-' (by decide) (by decide))
    have hpower := head?_of_isExponent hexp
    have hpoint : ∀ c ∈ ('.' :: (ds' ++ power)).head?, c.isDigit = false := by
      rintro c ⟨rfl⟩
      decide
    obtain ⟨htake, hdrop⟩ := takeWhile_digits hds hpoint
    obtain ⟨htake', hdrop'⟩ := takeWhile_digits hds' fun c hc => (hpower c hc).1
    have hempty : (ds.isEmpty && ds'.isEmpty) = false := by
      rw [Bool.eq_false_iff]
      intro hempty
      rw [Bool.and_eq_true, List.isEmpty_iff, List.isEmpty_iff] at hempty
      exact hne (List.append_eq_nil_iff.2 hempty)
    rw [read?, hread]
    dsimp only
    rw [htake, hdrop]
    simp [htake', hdrop', hempty, readExponent?_eq_some_iff.2 hexp]

/-- The reader takes the texts of numerals, and no others. -/
theorem read?_eq_some_iff {cs : List Char} {n : Numeral} : read? cs = some n ↔ Spells n cs :=
  ⟨spells_of_read?, read?_of_spells⟩

end Numeral
end DocTags
