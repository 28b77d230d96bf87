import DocTags.Text.Block
import Mathlib.Data.List.DropRight
import Mathlib.Tactic.Common

/-!
# Lines and blanks

A text and its lines determine each other (`joinWith_splitAt`, `splitAt_joinWith`).  Around this
file stands what else is needed to follow a text through `dedent`: what trimming does to texts put
together, the indentation and the margin of lines, tabs, and empty lines at both ends.
-/

namespace DocTags.Text

/-! ## Splitting and joining -/

section Parts

variable {sep : Char}

lemma joinWith_cons {parts : List (List Char)} (h : parts ≠ []) (part : List Char) :
    joinWith sep (part :: parts) = part ++ sep :: joinWith sep parts := by
  cases parts with
  | nil => exact absurd rfl h
  | cons _ _ => rfl

lemma splitAt_ne_nil (cs : List Char) : splitAt sep cs ≠ [] := by
  cases cs with
  | nil => simp [splitAt]
  | cons c cs =>
    rw [splitAt]
    split
    · simp
    · split <;> simp

lemma exists_splitAt_eq_cons (sep : Char) (cs : List Char) :
    ∃ part parts, splitAt sep cs = part :: parts :=
  List.exists_cons_of_ne_nil (splitAt_ne_nil cs)

lemma splitAt_cons_of_ne {c : Char} (h : c ≠ sep) {cs part : List Char} {parts : List (List Char)}
    (hcs : splitAt sep cs = part :: parts) : splitAt sep (c :: cs) = (c :: part) :: parts := by
  rw [splitAt, if_neg (by simpa using h), hcs]

/-- Putting the parts of a text together gives the text. -/
lemma joinWith_splitAt (sep : Char) (cs : List Char) : joinWith sep (splitAt sep cs) = cs := by
  induction cs with
  | nil => rfl
  | cons c cs ih =>
    by_cases hc : c = sep
    · subst hc
      rw [splitAt, if_pos (by simp), joinWith_cons (splitAt_ne_nil cs), ih]
      rfl
    · obtain ⟨part, parts, hparts⟩ := exists_splitAt_eq_cons sep cs
      rw [splitAt_cons_of_ne hc hparts]
      rw [hparts] at ih
      cases parts with
      | nil => exact congrArg (c :: ·) ih
      | cons _ _ => exact congrArg (c :: ·) ih

lemma not_mem_of_mem_splitAt {cs part : List Char} (h : part ∈ splitAt sep cs) : sep ∉ part := by
  induction cs generalizing part with
  | nil =>
    rw [List.mem_singleton.1 h]
    exact List.not_mem_nil
  | cons c cs ih =>
    by_cases hc : c = sep
    · subst hc
      rw [splitAt, if_pos (by simp)] at h
      rcases List.mem_cons.1 h with rfl | h
      · exact List.not_mem_nil
      · exact ih h
    · obtain ⟨head, parts, hparts⟩ := exists_splitAt_eq_cons sep cs
      rw [splitAt_cons_of_ne hc hparts] at h
      rw [hparts] at ih
      rcases List.mem_cons.1 h with rfl | h
      · intro hmem
        rcases List.mem_cons.1 hmem with hmem | hmem
        · exact hc hmem.symm
        · exact ih List.mem_cons_self hmem
      · exact ih (List.mem_cons_of_mem _ h)

lemma splitAt_of_not_mem {part : List Char} (h : sep ∉ part) : splitAt sep part = [part] := by
  induction part with
  | nil => rfl
  | cons c part ih =>
    have hc : c ≠ sep := fun hc => h (by simp [hc])
    exact splitAt_cons_of_ne hc (ih fun hmem => h (List.mem_cons_of_mem _ hmem))

lemma splitAt_append {part : List Char} (h : sep ∉ part) (rest : List Char) :
    splitAt sep (part ++ sep :: rest) = part :: splitAt sep rest := by
  induction part with
  | nil => rw [List.nil_append, splitAt, if_pos (by simp)]
  | cons c part ih =>
    have hc : c ≠ sep := fun hc => h (by simp [hc])
    exact splitAt_cons_of_ne hc (ih fun hmem => h (List.mem_cons_of_mem _ hmem))

/-- Parts without the separator are found again. -/
lemma splitAt_joinWith {parts : List (List Char)} (hne : parts ≠ [])
    (h : ∀ part ∈ parts, sep ∉ part) : splitAt sep (joinWith sep parts) = parts := by
  induction parts with
  | nil => exact absurd rfl hne
  | cons part parts ih =>
    have hpart : sep ∉ part := h part List.mem_cons_self
    by_cases hparts : parts = []
    · subst hparts
      exact splitAt_of_not_mem hpart
    · rw [joinWith_cons hparts, splitAt_append hpart,
        ih hparts fun p hp => h p (List.mem_cons_of_mem _ hp)]

lemma mem_joinWith {parts : List (List Char)} {c : Char} (h : c ∈ joinWith sep parts) :
    c = sep ∨ ∃ part ∈ parts, c ∈ part := by
  induction parts with
  | nil => exact absurd h List.not_mem_nil
  | cons part parts ih =>
    by_cases hparts : parts = []
    · subst hparts
      exact .inr ⟨part, List.mem_cons_self, h⟩
    · rw [joinWith_cons hparts, List.mem_append, List.mem_cons] at h
      rcases h with h | h | h
      · exact .inr ⟨part, List.mem_cons_self, h⟩
      · exact .inl h
      · refine (ih h).imp_right ?_
        rintro ⟨p, hp, hc⟩
        exact ⟨p, List.mem_cons_of_mem _ hp, hc⟩

lemma mem_joinWith_of_mem {parts : List (List Char)} {part : List Char} {c : Char}
    (hp : part ∈ parts) (hc : c ∈ part) : c ∈ joinWith sep parts := by
  induction parts with
  | nil => exact absurd hp List.not_mem_nil
  | cons head parts ih =>
    by_cases hparts : parts = []
    · subst hparts
      rw [List.mem_singleton.1 hp] at hc
      exact hc
    · rw [joinWith_cons hparts, List.mem_append, List.mem_cons]
      rcases List.mem_cons.1 hp with rfl | hp
      · exact .inl hc
      · exact .inr (.inr (ih hp))

end Parts

/-! ## Trimming -/

lemma trimStart_eq_nil {cs : List Char} : trimStart cs = [] ↔ ∀ c ∈ cs, isBlank c = true := by
  rw [trimStart, List.dropWhile_eq_nil_iff]

lemma trimStart_append_of_blank {a : List Char} (h : trimStart a = []) (b : List Char) :
    trimStart (a ++ b) = trimStart b :=
  List.dropWhile_append_of_pos (trimStart_eq_nil.1 h)

lemma trimStart_append_of_not_blank {a : List Char} (h : trimStart a ≠ []) (b : List Char) :
    trimStart (a ++ b) = trimStart a ++ b := by
  rw [trimStart, List.dropWhile_append, if_neg]
  · rfl
  · simpa [trimStart] using h

lemma trimStart_trimStart_append (a b : List Char) :
    trimStart (trimStart a ++ b) = trimStart (a ++ b) := by
  by_cases h : trimStart a = []
  · rw [trimStart_append_of_blank h, h, List.nil_append]
  · have hidem : trimStart (trimStart a) = trimStart a := List.dropWhile_idempotent _ _
    rw [trimStart_append_of_not_blank h, trimStart_append_of_not_blank (by rwa [hidem]), hidem]

lemma trimEnd_append_of_blank {b : List Char} (h : trimStart b = []) (a : List Char) :
    trimEnd (a ++ b) = trimEnd a := by
  rw [trimEnd, List.reverse_append, List.dropWhile_append_of_pos]
  · rfl
  · intro c hc
    exact trimStart_eq_nil.1 h c (List.mem_reverse.1 hc)

lemma trimEnd_append_of_not_blank {b : List Char} (h : trimStart b ≠ []) (a : List Char) :
    trimEnd (a ++ b) = a ++ trimEnd b := by
  rw [trimEnd, trimEnd, List.reverse_append, List.dropWhile_append, if_neg]
  · simp
  · rw [List.isEmpty_iff, List.dropWhile_eq_nil_iff]
    intro hall
    exact h (trimStart_eq_nil.2 fun c hc => hall c (List.mem_reverse.2 hc))

lemma trimStart_eq_self_of_head {c : Char} (h : isBlank c = false) (cs : List Char) :
    trimStart (c :: cs) = c :: cs :=
  List.dropWhile_cons_of_neg (by simp [h])

lemma trim_eq_nil {cs : List Char} (h : trimStart cs = []) : trim cs = [] := by
  rw [trim, h]
  rfl

/-! ## Indentation -/

lemma indentation_eq (cs : List Char) : indentation cs = (cs.takeWhile isBlank).length := by
  have h : (cs.takeWhile isBlank).length + (trimStart cs).length = cs.length := by
    rw [trimStart, ← List.length_append, List.takeWhile_append_dropWhile]
  rw [indentation]
  omega

lemma indentation_append_of_not_blank {a : List Char} (h : trimStart a ≠ []) (b : List Char) :
    indentation (a ++ b) = indentation a := by
  rw [indentation, indentation, trimStart_append_of_not_blank h, List.length_append,
    List.length_append]
  omega

lemma indentation_append_of_blank {a : List Char} (h : trimStart a = []) (b : List Char) :
    indentation (a ++ b) = a.length + indentation b := by
  have hle : (trimStart b).length ≤ b.length := (List.dropWhile_suffix _).length_le
  rw [indentation, indentation, trimStart_append_of_blank h, List.length_append]
  omega

/-- Blanks behind a text do not change how far it is indented. -/
lemma indentation_trimEnd {cs : List Char} (h : trimStart cs ≠ []) :
    indentation (trimEnd cs) = indentation cs := by
  have hsplit : trimEnd cs ++ cs.rtakeWhile isBlank = cs := List.rdropWhile_append_rtakeWhile
  have hblank : trimStart (cs.rtakeWhile isBlank) = [] :=
    trimStart_eq_nil.2 fun c hc => List.mem_rtakeWhile_imp hc
  have hne : trimStart (trimEnd cs) ≠ [] := by
    intro hnil
    apply h
    rw [← hsplit, trimStart_append_of_blank hnil, hblank]
  calc indentation (trimEnd cs) = indentation (trimEnd cs ++ cs.rtakeWhile isBlank) :=
        (indentation_append_of_not_blank hne _).symm
    _ = indentation cs := by rw [hsplit]

lemma trimStart_drop {line : List Char} {k : Nat} (h : k ≤ indentation line) :
    trimStart (line.drop k) = trimStart line := by
  induction line generalizing k with
  | nil => rw [List.drop_nil]
  | cons c line ih =>
    cases k with
    | zero => rfl
    | succ k =>
      cases hc : isBlank c with
      | true =>
        rw [indentation_eq, List.takeWhile_cons_of_pos hc, List.length_cons] at h
        rw [List.drop_succ_cons, ih (by rw [indentation_eq]; omega)]
        exact (List.dropWhile_cons_of_pos hc).symm
      | false =>
        rw [indentation_eq, List.takeWhile_cons_of_neg (by simp [hc])] at h
        exact absurd h (by simp)

lemma indentation_drop {line : List Char} {k : Nat} (h : k ≤ indentation line) :
    indentation (line.drop k) = indentation line - k := by
  rw [indentation, trimStart_drop h, List.length_drop, indentation]
  omega

/-! ## Margins -/

lemma margin?_eq_none {lines : List (List Char)} :
    margin? lines = none ↔ ∀ line ∈ lines, trimStart line = [] := by
  rw [margin?, List.min?_eq_none_iff, List.map_eq_nil_iff, List.filter_eq_nil_iff]
  simp

lemma margin?_eq_some {lines : List (List Char)} {m : Nat} :
    margin? lines = some m ↔
      (∃ line ∈ lines, trimStart line ≠ [] ∧ indentation line = m) ∧
        ∀ line ∈ lines, trimStart line ≠ [] → m ≤ indentation line := by
  rw [margin?, List.min?_eq_some_iff]
  simp only [List.mem_map, List.mem_filter, Bool.not_eq_true', List.isEmpty_eq_false_iff, and_assoc]
  refine and_congr_right fun _ => ⟨?_, ?_⟩
  · intro h line hl hne
    exact h _ ⟨line, hl, hne, rfl⟩
  · rintro h _ ⟨line, hl, hne, rfl⟩
    exact h line hl hne

/-- No line that holds more than blanks loses any of it when the margin is cut. -/
lemma margin?_le {lines : List (List Char)} {line : List Char} (hl : line ∈ lines)
    (hne : trimStart line ≠ []) : (margin? lines).getD 0 ≤ indentation line := by
  cases hm : margin? lines with
  | none => exact absurd (margin?_eq_none.1 hm line hl) hne
  | some m => exact (margin?_eq_some.1 hm).2 line hl hne

/-- The lines that are blank after the margin is cut are those that were before. -/
lemma trimStart_cut {lines : List (List Char)} {line : List Char} (hl : line ∈ lines) :
    trimStart (line.drop ((margin? lines).getD 0)) = trimStart line := by
  by_cases hne : trimStart line = []
  · rw [hne, trimStart_eq_nil]
    intro c hc
    exact trimStart_eq_nil.1 hne c (List.mem_of_mem_drop hc)
  · exact trimStart_drop (margin?_le hl hne)

/-- What is left after the margin is cut has none. -/
lemma margin?_cut (lines : List (List Char)) :
    (margin? (lines.map (List.drop ((margin? lines).getD 0)))).getD 0 = 0 := by
  cases hm : margin? lines with
  | none =>
    rw [Option.getD_none, List.map_congr_left (g := id) (by simp), List.map_id, hm]
    rfl
  | some m =>
    obtain ⟨line, hl, hne, hind⟩ := (margin?_eq_some.1 hm).1
    have hcut : trimStart (line.drop m) = trimStart line := trimStart_drop hind.ge
    have hle := margin?_le (List.mem_map_of_mem (f := List.drop m) hl) (by rwa [hcut])
    rw [indentation_drop hind.ge, hind, Nat.sub_self] at hle
    exact Nat.le_zero.1 hle

/-! ## Empty lines at both ends -/

lemma dropOuterEmpty_eq (lines : List (List Char)) :
    dropOuterEmpty lines = (lines.dropWhile List.isEmpty).rdropWhile List.isEmpty := rfl

/-- Lines are what `dropOuterEmpty` leaves of them with empty lines before and behind. -/
lemma exists_outer (lines : List (List Char)) : ∃ before behind,
    lines = before ++ (dropOuterEmpty lines ++ behind) ∧ (∀ line ∈ before, line = []) ∧
      ∀ line ∈ behind, line = [] := by
  refine ⟨lines.takeWhile List.isEmpty, (lines.dropWhile List.isEmpty).rtakeWhile List.isEmpty,
    ?_, ?_, ?_⟩
  · rw [dropOuterEmpty_eq, List.rdropWhile_append_rtakeWhile, List.takeWhile_append_dropWhile]
  · intro line hl
    exact List.isEmpty_iff.1 (List.mem_takeWhile_imp hl)
  · intro line hl
    exact List.isEmpty_iff.1 (List.mem_rtakeWhile_imp hl)

lemma mem_of_mem_dropOuterEmpty {lines : List (List Char)} {line : List Char}
    (h : line ∈ dropOuterEmpty lines) : line ∈ lines := by
  obtain ⟨before, behind, heq, -, -⟩ := exists_outer lines
  rw [heq]
  simp [h]

lemma dropOuterEmpty_cons {line : List Char} (h : line ≠ []) (lines : List (List Char)) :
    dropOuterEmpty (line :: lines) = line :: lines.rdropWhile List.isEmpty := by
  have hline : ¬ line.isEmpty = true := by simpa using h
  rw [dropOuterEmpty_eq, List.dropWhile_cons_of_neg hline, List.rdropWhile, List.rdropWhile,
    List.reverse_cons, List.dropWhile_append]
  split
  · next hnil =>
    rw [List.isEmpty_iff.1 hnil, List.dropWhile_cons_of_neg hline]
    rfl
  · rw [List.reverse_append]
    rfl

lemma head_ne_nil_of_dropOuterEmpty {lines ls : List (List Char)} {line : List Char}
    (h : dropOuterEmpty lines = line :: ls) : line ≠ [] := by
  rintro rfl
  have hpre : dropOuterEmpty lines <+: lines.dropWhile List.isEmpty := List.rdropWhile_prefix _ _
  rw [h] at hpre
  obtain ⟨tail, htail⟩ := hpre
  have hhead := List.head?_dropWhile_not List.isEmpty lines
  rw [← htail] at hhead
  exact absurd hhead (by simp)

/-- Dropping the empty lines at both ends a second time changes nothing. -/
lemma dropOuterEmpty_dropOuterEmpty (lines : List (List Char)) :
    dropOuterEmpty (dropOuterEmpty lines) = dropOuterEmpty lines := by
  cases h : dropOuterEmpty lines with
  | nil => rfl
  | cons line ls =>
    have hne := head_ne_nil_of_dropOuterEmpty h
    rw [dropOuterEmpty_eq, List.dropWhile_cons_of_neg (by simpa using hne), ← h, dropOuterEmpty_eq,
      List.rdropWhile_idempotent]

lemma filter_notBlank_of_empty {lines : List (List Char)} (h : ∀ line ∈ lines, line = []) :
    lines.filter (fun line => !(trimStart line).isEmpty) = [] := by
  rw [List.filter_eq_nil_iff]
  intro line hl
  rw [h line hl]
  decide

lemma margin?_append_empty {behind : List (List Char)} (h : ∀ line ∈ behind, line = [])
    (lines : List (List Char)) : margin? (lines ++ behind) = margin? lines := by
  rw [margin?, margin?, List.filter_append, filter_notBlank_of_empty h, List.append_nil]

lemma margin?_dropOuterEmpty (lines : List (List Char)) :
    margin? (dropOuterEmpty lines) = margin? lines := by
  obtain ⟨before, behind, heq, hbefore, hbehind⟩ := exists_outer lines
  calc margin? (dropOuterEmpty lines) = margin? (dropOuterEmpty lines ++ behind) :=
        (margin?_append_empty hbehind _).symm
    _ = margin? (before ++ (dropOuterEmpty lines ++ behind)) := by
        rw [margin?, margin?, List.filter_append before, filter_notBlank_of_empty hbefore,
          List.nil_append]
    _ = margin? lines := by rw [← heq]

lemma margin?_rdropWhile (lines : List (List Char)) :
    margin? (lines.rdropWhile List.isEmpty) = margin? lines := by
  have hempty : ∀ line ∈ lines.rtakeWhile List.isEmpty, line = [] := fun line hl =>
    List.isEmpty_iff.1 (List.mem_rtakeWhile_imp hl)
  rw [← margin?_append_empty hempty, List.rdropWhile_append_rtakeWhile]

lemma trim_joinWith_nil_cons (lines : List (List Char)) :
    trim (joinWith '\n' ([] :: lines)) = trim (joinWith '\n' lines) := by
  by_cases h : lines = []
  · subst h
    rfl
  · rw [joinWith_cons h, List.nil_append, trim, trim]
    rfl

lemma joinWith_concat {lines : List (List Char)} (h : lines ≠ []) (line : List Char) :
    joinWith '\n' (lines ++ [line]) = joinWith '\n' lines ++ '\n' :: line := by
  induction lines with
  | nil => exact absurd rfl h
  | cons head lines ih =>
    by_cases hl : lines = []
    · subst hl
      rfl
    · rw [List.cons_append, joinWith_cons (by simp), ih hl, joinWith_cons hl]
      simp

lemma trim_joinWith_concat_nil (lines : List (List Char)) :
    trim (joinWith '\n' (lines ++ [[]])) = trim (joinWith '\n' lines) := by
  by_cases h : lines = []
  · subst h
    rfl
  · have hnewline : trimStart ['\n'] = [] := by decide
    rw [joinWith_concat h, trim, trim]
    by_cases hblank : trimStart (joinWith '\n' lines) = []
    · rw [trimStart_append_of_blank hblank, hblank, hnewline]
    · rw [trimStart_append_of_not_blank hblank, trimEnd_append_of_blank hnewline]

/-- The empty lines at both ends do not count in a text that is trimmed. -/
lemma trim_joinWith_dropOuterEmpty (lines : List (List Char)) :
    trim (joinWith '\n' (dropOuterEmpty lines)) = trim (joinWith '\n' lines) := by
  have hbefore : ∀ ls rest : List (List Char), (∀ line ∈ ls, line = []) →
      trim (joinWith '\n' (ls ++ rest)) = trim (joinWith '\n' rest) := by
    intro ls rest hls
    induction ls with
    | nil => rfl
    | cons line ls ih =>
      rw [hls line List.mem_cons_self, List.cons_append, trim_joinWith_nil_cons]
      exact ih fun l hl => hls l (List.mem_cons_of_mem _ hl)
  have hbehind : ∀ ls rest : List (List Char), (∀ line ∈ ls, line = []) →
      trim (joinWith '\n' (rest ++ ls)) = trim (joinWith '\n' rest) := by
    intro ls
    induction ls with
    | nil =>
      intro rest _
      rw [List.append_nil]
    | cons line ls ih =>
      intro rest hls
      rw [hls line List.mem_cons_self, List.append_cons,
        ih _ fun l hl => hls l (List.mem_cons_of_mem _ hl), trim_joinWith_concat_nil]
  obtain ⟨before, behind, heq, hempty, hempty'⟩ := exists_outer lines
  calc trim (joinWith '\n' (dropOuterEmpty lines))
      = trim (joinWith '\n' (before ++ (dropOuterEmpty lines ++ behind))) := by
        rw [hbefore _ _ hempty, hbehind _ _ hempty']
    _ = trim (joinWith '\n' lines) := by rw [← heq]

lemma trim_joinWith_trimStart_cons (line : List Char) (lines : List (List Char)) :
    trim (joinWith '\n' (trimStart line :: lines)) = trim (joinWith '\n' (line :: lines)) := by
  by_cases h : lines = []
  · subst h
    rw [trim, trim]
    exact congrArg trimEnd (List.dropWhile_idempotent _ _)
  · rw [joinWith_cons h, joinWith_cons h, trim, trim, trimStart_trimStart_append]

/-! ## Tabs -/

lemma tab_not_mem_expandTabs (k : Nat) (cs : List Char) : '\t' ∉ expandTabs k cs := by
  induction cs generalizing k with
  | nil => exact List.not_mem_nil
  | cons c cs ih =>
    rw [expandTabs]
    split
    · rw [List.mem_append, not_or]
      exact ⟨fun h => absurd (List.eq_of_mem_replicate h) (by decide), ih 0⟩
    · next htab =>
      have hc : ¬ '\t' = c := fun h => htab (by simp [← h])
      split
      · rw [List.mem_cons, not_or]
        exact ⟨hc, ih 0⟩
      · rw [List.mem_cons, not_or]
        exact ⟨hc, ih (k + 1)⟩

lemma expandTabs_of_not_mem {cs : List Char} (h : '\t' ∉ cs) (k : Nat) : expandTabs k cs = cs := by
  induction cs generalizing k with
  | nil => rfl
  | cons c cs ih =>
    have hc : ¬ c = '\t' := fun hc => h (by simp [hc])
    have hcs : '\t' ∉ cs := fun hmem => h (List.mem_cons_of_mem _ hmem)
    rw [expandTabs, if_neg (by simpa using hc)]
    split
    · rw [ih hcs]
    · rw [ih hcs]

lemma trimStart_spaces (n : Nat) : trimStart (List.replicate n ' ') = [] := by
  rw [trimStart_eq_nil]
  intro c hc
  rw [List.eq_of_mem_replicate hc]
  decide

lemma trimStart_expandTabs_eq_nil {cs : List Char} (h : trimStart cs = []) (k : Nat) :
    trimStart (expandTabs k cs) = [] := by
  induction cs generalizing k with
  | nil => rfl
  | cons c cs ih =>
    rw [trimStart_eq_nil, List.forall_mem_cons, ← trimStart_eq_nil] at h
    have hcons : ∀ j, trimStart (c :: expandTabs j cs) = [] := by
      intro j
      rw [trimStart, List.dropWhile_cons_of_pos h.1]
      exact ih h.2 j
    rw [expandTabs]
    split
    · rw [trimStart_append_of_blank (trimStart_spaces _), ih h.2]
    · split
      · exact hcons 0
      · exact hcons (k + 1)

end DocTags.Text
