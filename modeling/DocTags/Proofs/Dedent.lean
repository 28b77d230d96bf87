import DocTags.Proofs.Lines

/-!
# Dedenting twice

`dedent` cuts the indentation that the lines after the first have in common, and drops the first
line if it is blank.  Then another line comes first, and what the lines after that one have in
common may be cut by dedenting again.  So `dedent` is not idempotent: a text in which every line is
indented more than the first one loses its shape the second time.

A text is `isFlush` if the lines after the first have no indentation in common, and `isSettled` if
in addition it does not begin with a blank.  Both are exact: `dedent_dedent_iff` says that dedenting
a second time leaves a dedented text alone exactly when it is settled, and `trim_dedent_dedent_iff`
that it does so up to blanks at both ends exactly when the text is flush.  A text that begins on its
first line is settled when it is dedented (`isSettled_dedent_of_first`).
-/

namespace DocTags.Text

/-- `true` when the lines after the first have no indentation in common. -/
def isFlush (text : List Char) : Bool :=
  (margin? ((splitAt '\n' text).drop 1)).getD 0 == 0

/-- `true` when a text is flush and does not begin with a blank. -/
def isSettled (text : List Char) : Bool :=
  !text.head?.any isBlank && isFlush text

/-! ## The lines of a dedented text -/

/-- The lines that dedenting makes of a first line and the lines after it. -/
def cutLines (first : List Char) (rest : List (List Char)) : List (List Char) :=
  dropOuterEmpty (trimStart first :: rest.map (List.drop ((margin? rest).getD 0)))

lemma dedent_eq {text first : List Char} {rest : List (List Char)}
    (h : splitAt '\n' (expandTabs 0 text) = first :: rest) :
    dedent text = joinWith '\n' (cutLines first rest) := by
  rw [dedent, h]
  rfl

lemma mem_of_mem_cutLines {first line : List Char} {rest : List (List Char)}
    (h : line ∈ cutLines first rest) {c : Char} (hc : c ∈ line) :
    ∃ l ∈ first :: rest, c ∈ l := by
  rcases List.mem_cons.1 (mem_of_mem_dropOuterEmpty h) with rfl | hmem
  · exact ⟨first, List.mem_cons_self, (List.dropWhile_suffix _).subset hc⟩
  · obtain ⟨l, hl, rfl⟩ := List.mem_map.1 hmem
    exact ⟨l, List.mem_cons_of_mem _ hl, List.mem_of_mem_drop hc⟩

/-- The lines of a dedented text have no indentation in common. -/
lemma margin?_cutLines (first : List Char) (rest : List (List Char)) :
    (margin? (cutLines first rest)).getD 0 = 0 := by
  rw [cutLines, margin?_dropOuterEmpty]
  by_cases hfirst : trimStart first = []
  · have hskip : margin? (trimStart first :: rest.map (List.drop ((margin? rest).getD 0))) =
        margin? (rest.map (List.drop ((margin? rest).getD 0))) := by
      rw [hfirst]
      rfl
    rw [hskip, margin?_cut]
  · have hidem : trimStart (trimStart first) = trimStart first := List.dropWhile_idempotent _ _
    have hle := margin?_le (List.mem_cons_self (a := trimStart first)
      (l := rest.map (List.drop ((margin? rest).getD 0)))) (by rwa [hidem])
    have hzero : indentation (trimStart first) = 0 := by
      rw [indentation, hidem, Nat.sub_self]
    omega

lemma tab_not_mem_dedent (text : List Char) : '\t' ∉ dedent text := by
  obtain ⟨first, rest, hlines⟩ := exists_splitAt_eq_cons '\n' (expandTabs 0 text)
  rw [dedent_eq hlines]
  intro hmem
  rcases mem_joinWith hmem with h | ⟨line, hline, hc⟩
  · exact absurd h (by decide)
  · obtain ⟨l, hl, hcl⟩ := mem_of_mem_cutLines hline hc
    rw [← hlines] at hl
    apply tab_not_mem_expandTabs 0 text
    rw [← joinWith_splitAt '\n' (expandTabs 0 text)]
    exact mem_joinWith_of_mem hl hcl

lemma splitAt_dedent {text first : List Char} {rest : List (List Char)}
    (h : splitAt '\n' (expandTabs 0 text) = first :: rest) (hne : cutLines first rest ≠ []) :
    splitAt '\n' (dedent text) = cutLines first rest := by
  rw [dedent_eq h]
  refine splitAt_joinWith hne fun line hline hnl => ?_
  obtain ⟨l, hl, hnl'⟩ := mem_of_mem_cutLines hline hnl
  rw [← h] at hl
  exact not_mem_of_mem_splitAt hl hnl'

/-- A dedented text is empty, or it has lines of which neither the first nor the last is empty. -/
lemma dedent_lines (text : List Char) : dedent text = [] ∨ ∃ line lines,
    splitAt '\n' (dedent text) = line :: lines ∧ line ≠ [] ∧
      dropOuterEmpty (line :: lines) = line :: lines ∧ (margin? (line :: lines)).getD 0 = 0 := by
  obtain ⟨first, rest, hlines⟩ := exists_splitAt_eq_cons '\n' (expandTabs 0 text)
  cases hcut : cutLines first rest with
  | nil =>
    left
    rw [dedent_eq hlines, hcut]
    rfl
  | cons line lines =>
    refine .inr ⟨line, lines, ?_, head_ne_nil_of_dropOuterEmpty hcut, ?_, ?_⟩
    · rw [splitAt_dedent hlines (by simp [hcut]), hcut]
    · rw [← hcut, cutLines, dropOuterEmpty_dropOuterEmpty]
    · rw [← hcut, margin?_cutLines]

/-- Dedenting a dedented text works on its lines. -/
lemma dedent_dedent_eq {text line : List Char} {lines : List (List Char)}
    (h : splitAt '\n' (dedent text) = line :: lines) :
    dedent (dedent text) = joinWith '\n' (cutLines line lines) := by
  apply dedent_eq
  rw [expandTabs_of_not_mem (tab_not_mem_dedent text), h]

/-! ## When dedenting twice is dedenting once -/

lemma head?_of_lines {text line : List Char} {lines : List (List Char)}
    (h : splitAt '\n' text = line :: lines) (hne : line ≠ []) : text.head? = line.head? := by
  obtain ⟨c, line, rfl⟩ := List.exists_cons_of_ne_nil hne
  rw [← joinWith_splitAt '\n' text, h]
  cases lines <;> rfl

lemma trimStart_eq_self_iff {line : List Char} :
    trimStart line = line ↔ line.head?.any isBlank = false := by
  cases line with
  | nil => exact ⟨fun _ => rfl, fun _ => rfl⟩
  | cons c line =>
    rw [List.head?_cons, Option.any_some]
    refine ⟨fun h => ?_, fun h => trimStart_eq_self_of_head h line⟩
    by_contra hc
    have hlen := congrArg List.length h
    rw [trimStart, List.dropWhile_cons_of_pos (by simpa using hc)] at hlen
    have hle := (List.dropWhile_suffix isBlank (l := line)).length_le
    rw [List.length_cons] at hlen
    omega

lemma map_drop_eq_self_iff {lines : List (List Char)} :
    lines.map (List.drop ((margin? lines).getD 0)) = lines ↔ (margin? lines).getD 0 = 0 := by
  refine ⟨fun h => ?_, fun h => ?_⟩
  · have hcut := margin?_cut lines
    rwa [h] at hcut
  · rw [h]
    exact List.map_id lines

/-- Cutting leaves lines alone only if there is nothing to cut. -/
lemma cutLines_eq_self_iff {line : List Char} {lines : List (List Char)}
    (houter : dropOuterEmpty (line :: lines) = line :: lines) :
    cutLines line lines = line :: lines ↔ trimStart line = line ∧ (margin? lines).getD 0 = 0 := by
  rw [← map_drop_eq_self_iff]
  refine ⟨fun h => ?_, fun ⟨hline, hmap⟩ => ?_⟩
  · rw [cutLines] at h
    obtain ⟨before, behind, heq, -, -⟩ :=
      exists_outer (trimStart line :: lines.map (List.drop ((margin? lines).getD 0)))
    rw [h] at heq
    -- nothing was dropped, since the number of lines is the same
    have hlen := congrArg List.length heq
    simp only [List.length_append, List.length_cons, List.length_map] at hlen
    have hbefore : before = [] := List.length_eq_zero_iff.1 (by omega)
    have hbehind : behind = [] := List.length_eq_zero_iff.1 (by omega)
    rw [hbefore, hbehind, List.nil_append, List.append_nil] at heq
    exact List.cons.inj heq
  · rw [cutLines, hline, hmap, houter]

/-- Dedenting again changes nothing exactly when the text is settled. -/
theorem dedent_dedent_iff (text : List Char) :
    dedent (dedent text) = dedent text ↔ isSettled (dedent text) = true := by
  rcases dedent_lines text with hnil | ⟨line, lines, hlines, hne, houter, -⟩
  · rw [hnil]
    exact ⟨fun _ => rfl, fun _ => rfl⟩
  have hjoin : dedent text = joinWith '\n' (line :: lines) := by
    rw [← hlines, joinWith_splitAt]
  have hsettled : isSettled (dedent text) = true ↔
      trimStart line = line ∧ (margin? lines).getD 0 = 0 := by
    rw [isSettled, isFlush, hlines, head?_of_lines hlines hne, trimStart_eq_self_iff]
    simp
  rw [dedent_dedent_eq hlines, hsettled, ← cutLines_eq_self_iff houter, hjoin]
  refine ⟨fun h => ?_, fun h => by rw [h]⟩
  cases hcut : cutLines line lines with
  | nil =>
    rw [hcut] at h
    obtain ⟨c, line, rfl⟩ := List.exists_cons_of_ne_nil hne
    cases lines <;> exact absurd h (by simp [joinWith])
  | cons head tail =>
    have hsep : ∀ l ∈ line :: lines, '\n' ∉ l := by
      intro l hl
      rw [← hlines] at hl
      exact not_mem_of_mem_splitAt hl
    have hsep' : ∀ l ∈ cutLines line lines, '\n' ∉ l := by
      intro l hl hnl
      obtain ⟨l', hl', hnl'⟩ := mem_of_mem_cutLines hl hnl
      exact hsep l' hl' hnl'
    rw [← hcut, ← splitAt_joinWith (by simp [hcut]) hsep', h, splitAt_joinWith (by simp) hsep]

/-! ## Up to blanks at both ends -/

lemma indentation_newline_cons (cs : List Char) :
    indentation ('\n' :: cs) = indentation cs + 1 := by
  have h := indentation_append_of_blank (a := ['\n']) (by decide) cs
  rw [List.singleton_append, List.length_singleton] at h
  omega

/-- Cutting an indentation that the lines have in common brings the first character of their text
that is not blank further to the front. -/
lemma indentation_joinWith_drop_lt {lines : List (List Char)} {m : Nat} (hm : 0 < m)
    (hex : ∃ line ∈ lines, trimStart line ≠ [])
    (hle : ∀ line ∈ lines, trimStart line ≠ [] → m ≤ indentation line) :
    indentation (joinWith '\n' (lines.map (List.drop m))) < indentation (joinWith '\n' lines) := by
  induction lines with
  | nil =>
    obtain ⟨line, hline, -⟩ := hex
    exact absurd hline List.not_mem_nil
  | cons line lines ih =>
    by_cases hblank : trimStart line = []
    · have hcut : trimStart (line.drop m) = [] := by
        rw [trimStart_eq_nil]
        intro c hc
        exact trimStart_eq_nil.1 hblank c (List.mem_of_mem_drop hc)
      have hex' : ∃ line ∈ lines, trimStart line ≠ [] := by
        obtain ⟨l, hl, hne⟩ := hex
        rcases List.mem_cons.1 hl with rfl | hl
        · exact absurd hblank hne
        · exact ⟨l, hl, hne⟩
      have hlines : lines ≠ [] := by
        rintro rfl
        obtain ⟨l, hl, -⟩ := hex'
        exact absurd hl List.not_mem_nil
      have hlt := ih hex' fun l hl => hle l (List.mem_cons_of_mem _ hl)
      rw [List.map_cons, joinWith_cons (by simpa using hlines), joinWith_cons hlines,
        indentation_append_of_blank hcut, indentation_append_of_blank hblank,
        indentation_newline_cons, indentation_newline_cons, List.length_drop]
      omega
    · have hind : m ≤ indentation line := hle line List.mem_cons_self hblank
      have hcut : trimStart (line.drop m) ≠ [] := by rwa [trimStart_drop hind]
      have hlt : indentation (line.drop m) < indentation line := by
        rw [indentation_drop hind]
        omega
      by_cases hlines : lines = []
      · subst hlines
        exact hlt
      · rw [List.map_cons, joinWith_cons (by simpa using hlines), joinWith_cons hlines,
          indentation_append_of_not_blank hcut, indentation_append_of_not_blank hblank]
        exact hlt

/-- If the lines after the first one have an indentation in common and all lines together have none,
the text begins with the first line. -/
lemma first_of_margin? {line : List Char} {lines : List (List Char)} {m : Nat}
    (hmargin : margin? lines = some m) (hm : 0 < m) (hall : (margin? (line :: lines)).getD 0 = 0) :
    trimStart line = line ∧ line ≠ [] := by
  obtain ⟨⟨l, hl, hne, -⟩, hle⟩ := margin?_eq_some.1 hmargin
  cases hk : margin? (line :: lines) with
  | none => exact absurd (margin?_eq_none.1 hk l (List.mem_cons_of_mem _ hl)) hne
  | some k =>
    rw [hk, Option.getD_some] at hall
    subst hall
    obtain ⟨⟨l', hl', hne', hzero⟩, -⟩ := margin?_eq_some.1 hk
    rcases List.mem_cons.1 hl' with rfl | hl'
    · refine ⟨?_, fun h => hne' (by rw [h]; rfl)⟩
      rw [indentation_eq, List.length_eq_zero_iff] at hzero
      have hsplit := List.takeWhile_append_dropWhile (p := isBlank) (l := l')
      rwa [hzero, List.nil_append] at hsplit
    · have := hle l' hl' hne'
      omega

lemma trimStart_joinWith_ne_nil {lines : List (List Char)} {line : List Char} (hl : line ∈ lines)
    (hne : trimStart line ≠ []) : trimStart (joinWith '\n' lines) ≠ [] := by
  intro hnil
  apply hne
  rw [trimStart_eq_nil] at hnil ⊢
  intro c hc
  exact hnil c (mem_joinWith_of_mem hl hc)

/-- Trimming a text that begins without blanks only concerns its end. -/
lemma trim_append_newline {line cs : List Char} (hfirst : trimStart line = line) (hne : line ≠ [])
    (hcs : trimStart cs ≠ []) : trim (line ++ '\n' :: cs) = line ++ trimEnd ('\n' :: cs) := by
  rw [trim, trimStart_append_of_not_blank (by rwa [hfirst]), hfirst,
    trimEnd_append_of_not_blank (b := '\n' :: cs) hcs]

/-- Dedenting again changes nothing but blanks at both ends exactly when the text is flush. -/
theorem trim_dedent_dedent_iff (text : List Char) :
    trim (dedent (dedent text)) = trim (dedent text) ↔ isFlush (dedent text) = true := by
  rcases dedent_lines text with hnil | ⟨line, lines, hlines, hne, -, hall⟩
  · rw [hnil]
    exact ⟨fun _ => rfl, fun _ => rfl⟩
  have hflush : isFlush (dedent text) = true ↔ (margin? lines).getD 0 = 0 := by
    rw [isFlush, hlines]
    simp
  have hjoin : dedent text = joinWith '\n' (line :: lines) := by
    rw [← hlines, joinWith_splitAt]
  rw [hflush, dedent_dedent_eq hlines, cutLines, trim_joinWith_dropOuterEmpty,
    trim_joinWith_trimStart_cons, hjoin]
  refine ⟨fun h => ?_, fun h => by rw [map_drop_eq_self_iff.2 h]⟩
  cases hmargin : margin? lines with
  | none => rfl
  | some m =>
    rw [hmargin, Option.getD_some] at h
    rw [Option.getD_some]
    by_contra hm
    obtain ⟨hfirst, hne⟩ := first_of_margin? hmargin (by omega) hall
    obtain ⟨⟨l, hl, hlne, -⟩, hle⟩ := margin?_eq_some.1 hmargin
    have hlines' : lines ≠ [] := List.ne_nil_of_mem hl
    have hrest : trimStart (joinWith '\n' lines) ≠ [] := trimStart_joinWith_ne_nil hl hlne
    have hcut : trimStart (joinWith '\n' (lines.map (List.drop m))) ≠ [] := by
      refine trimStart_joinWith_ne_nil (List.mem_map_of_mem hl) ?_
      rwa [trimStart_drop (hle l hl hlne)]
    rw [joinWith_cons (by simpa using hlines'), joinWith_cons hlines',
      trim_append_newline hfirst hne hcut, trim_append_newline hfirst hne hrest,
      List.append_cancel_left_eq] at h
    have hind := congrArg indentation h
    have hrest' : trimStart ('\n' :: joinWith '\n' lines) ≠ [] := hrest
    have hcut' : trimStart ('\n' :: joinWith '\n' (lines.map (List.drop m))) ≠ [] := hcut
    rw [indentation_trimEnd hcut', indentation_trimEnd hrest', indentation_newline_cons,
      indentation_newline_cons] at hind
    have hlt := indentation_joinWith_drop_lt (by omega) ⟨l, hl, hlne⟩ hle
    omega

/-- A text that begins on its first line is settled once it is dedented. -/
theorem isSettled_dedent_of_first {text first : List Char} {rest : List (List Char)}
    (h : splitAt '\n' (expandTabs 0 text) = first :: rest) (hfirst : trimStart first ≠ []) :
    isSettled (dedent text) = true := by
  have hcut : cutLines first rest = trimStart first ::
      (rest.map (List.drop ((margin? rest).getD 0))).rdropWhile List.isEmpty :=
    dropOuterEmpty_cons hfirst _
  have hidem : trimStart (trimStart first) = trimStart first := List.dropWhile_idempotent _ _
  have hlines := splitAt_dedent h (by simp [hcut])
  rw [hcut] at hlines
  rw [isSettled, isFlush, head?_of_lines hlines hfirst, hlines, trimStart_eq_self_iff.1 hidem,
    List.drop_succ_cons, List.drop_zero, margin?_rdropWhile, margin?_cut]
  rfl

/-! ## Fences

Dedenting moves blanks only, so it neither makes nor breaks an opening fence.  A fence stands at the
beginning of the first line that is not blank. -/

/-- `true` on texts that begin with an opening fence. -/
def opensFence (text : List Char) : Bool :=
  ['/', '*'].isPrefixOf (trimStart text)

/-- The first line that is not blank, without its indentation. -/
def firstText? (lines : List (List Char)) : Option (List Char) :=
  (lines.map trimStart).find? fun line => !line.isEmpty

lemma afterOpeningFence?_eq_none {text : List Char} :
    afterOpeningFence? text = none ↔ opensFence text = false := by
  unfold afterOpeningFence? opensFence
  split
  · next rest heq => simp [heq, List.isPrefixOf]
  · next hne =>
    simp only [true_iff]
    by_contra hpre
    rw [Bool.not_eq_false, List.isPrefixOf_iff_prefix] at hpre
    obtain ⟨rest, hrest⟩ := hpre
    exact hne rest hrest.symm

lemma isPrefixOf_append_newline {line : List Char} (h : line ≠ []) (cs : List Char) :
    ['/', '*'].isPrefixOf (line ++ '\n' :: cs) = ['/', '*'].isPrefixOf line := by
  match line, h with
  | [c], _ => simp [List.isPrefixOf]
  | c :: d :: line, _ => simp [List.isPrefixOf]

lemma opensFence_joinWith (lines : List (List Char)) :
    opensFence (joinWith '\n' lines) = (firstText? lines).any ['/', '*'].isPrefixOf := by
  induction lines with
  | nil => rfl
  | cons line lines ih =>
    rw [firstText?, List.map_cons]
    by_cases hblank : trimStart line = []
    · rw [List.find?_cons_of_neg (by simp [hblank]), ← firstText?, ← ih]
      by_cases hlines : lines = []
      · subst hlines
        show ['/', '*'].isPrefixOf (trimStart line) = false
        rw [hblank]
        rfl
      · rw [joinWith_cons hlines, opensFence, trimStart_append_of_blank hblank]
        rfl
    · rw [List.find?_cons_of_pos (by simpa using hblank), Option.any_some]
      by_cases hlines : lines = []
      · subst hlines
        rfl
      · rw [joinWith_cons hlines, opensFence, trimStart_append_of_not_blank hblank,
          isPrefixOf_append_newline hblank]

lemma firstText?_dropOuterEmpty (lines : List (List Char)) :
    firstText? (dropOuterEmpty lines) = firstText? lines := by
  obtain ⟨before, behind, heq, hbefore, hbehind⟩ := exists_outer lines
  have hempty : ∀ ls : List (List Char), (∀ line ∈ ls, line = []) →
      (ls.map trimStart).find? (fun line => !line.isEmpty) = none := by
    intro ls hls
    rw [List.find?_eq_none]
    intro line hline
    obtain ⟨l, hl, rfl⟩ := List.mem_map.1 hline
    rw [hls l hl]
    decide
  calc firstText? (dropOuterEmpty lines)
      = firstText? (before ++ (dropOuterEmpty lines ++ behind)) := by
        rw [firstText?, firstText?, List.map_append, List.map_append, List.find?_append,
          List.find?_append, hempty before hbefore, hempty behind hbehind, Option.none_or,
          Option.or_none]
    _ = firstText? lines := by rw [← heq]

lemma firstText?_cutLines (first : List Char) (rest : List (List Char)) :
    firstText? (cutLines first rest) = firstText? (first :: rest) := by
  have hidem : trimStart (trimStart first) = trimStart first := List.dropWhile_idempotent _ _
  rw [cutLines, firstText?_dropOuterEmpty, firstText?, firstText?, List.map_cons, List.map_cons,
    hidem, List.map_map]
  congr 2
  exact List.map_congr_left fun line hline => trimStart_cut hline

lemma isPrefixOf_expandTabs (k : Nat) (cs : List Char) :
    ['*'].isPrefixOf (expandTabs k cs) = ['*'].isPrefixOf cs := by
  cases cs with
  | nil => rfl
  | cons c cs =>
    rw [expandTabs]
    split
    · next htab =>
      obtain ⟨n, hn⟩ : ∃ n, 8 - k % 8 = n + 1 := ⟨7 - k % 8, by omega⟩
      rw [hn, List.replicate_succ, eq_of_beq htab]
      rfl
    · split <;> rfl

lemma opensFence_expandTabs (k : Nat) (cs : List Char) :
    opensFence (expandTabs k cs) = opensFence cs := by
  induction cs generalizing k with
  | nil => rfl
  | cons c cs ih =>
    cases hblank : isBlank c with
    | true =>
      have hskip : ∀ ds, opensFence (c :: ds) = opensFence ds := fun ds => by
        rw [opensFence, opensFence, trimStart, List.dropWhile_cons_of_pos hblank, trimStart]
      rw [hskip, expandTabs]
      split
      · rw [opensFence, trimStart_append_of_blank (trimStart_spaces _), ← opensFence, ih]
      · split
        · rw [hskip, ih]
        · rw [hskip, ih]
    | false =>
      have hne : ∀ d, isBlank d = true → (c == d) = false := by
        intro d hd
        rw [beq_eq_false_iff_ne]
        rintro rfl
        rw [hblank] at hd
        exact Bool.false_ne_true hd
      rw [expandTabs, hne '\t' (by decide), hne '\n' (by decide), hne '\r' (by decide), opensFence,
        opensFence, trimStart_eq_self_of_head hblank]
      simp only [Bool.false_eq_true, if_false, Bool.or_self]
      rw [trimStart_eq_self_of_head hblank, List.isPrefixOf, List.isPrefixOf,
        isPrefixOf_expandTabs]

/-- A text has an opening fence exactly when it has one after dedenting. -/
lemma opensFence_dedent (text : List Char) : opensFence (dedent text) = opensFence text := by
  obtain ⟨first, rest, hlines⟩ := exists_splitAt_eq_cons '\n' (expandTabs 0 text)
  rw [dedent_eq hlines, opensFence_joinWith, firstText?_cutLines, ← opensFence_joinWith, ← hlines,
    joinWith_splitAt, opensFence_expandTabs]

/-! ## Documentation -/

lemma trimStart_dedent_eq_nil {text : List Char} (h : trimStart text = []) :
    trimStart (dedent text) = [] := by
  obtain ⟨first, rest, hlines⟩ := exists_splitAt_eq_cons '\n' (expandTabs 0 text)
  rw [dedent_eq hlines, trimStart_eq_nil]
  intro c hc
  rcases mem_joinWith hc with rfl | ⟨line, hline, hc⟩
  · decide
  · obtain ⟨l, hl, hc⟩ := mem_of_mem_cutLines hline hc
    rw [← hlines] at hl
    refine trimStart_eq_nil.1 (trimStart_expandTabs_eq_nil h 0) c ?_
    rw [← joinWith_splitAt '\n' (expandTabs 0 text)]
    exact mem_joinWith_of_mem hl hc

lemma isFlush_of_blank {text : List Char} (h : trimStart text = []) : isFlush text = true := by
  have hnone : margin? ((splitAt '\n' text).drop 1) = none := by
    rw [margin?_eq_none]
    intro line hline
    rw [trimStart_eq_nil] at h ⊢
    intro c hc
    apply h
    rw [← joinWith_splitAt '\n' text]
    exact mem_joinWith_of_mem (List.mem_of_mem_drop hline) hc
  rw [isFlush, hnone]
  rfl

lemma bare_of_opensFence {block : List Char} (h : opensFence block = false) :
    bare block = dedent block := by
  rw [bare, afterOpeningFence?_eq_none.2 h]

lemma bare_documentation {doc : List Char} (h : opensFence doc = false)
    (hne : trimStart doc ≠ []) : bare (documentation doc) = dedent (dedent doc) := by
  rw [documentation, if_neg (by simpa using hne), bare_of_opensFence]
  rw [opensFence_dedent, h]

/-- The documentation of an element has the same bare lines as the text attached to it exactly when
these are settled. -/
theorem bare_documentation_iff {doc : List Char} (h : opensFence doc = false) :
    bare (documentation doc) = bare doc ↔ isSettled (bare doc) = true := by
  rw [bare_of_opensFence h]
  by_cases hne : trimStart doc = []
  · rw [documentation, if_pos (by simpa using hne)]
    have hblank := trimStart_dedent_eq_nil hne
    cases hdedent : dedent doc with
    | nil => exact ⟨fun _ => rfl, fun _ => rfl⟩
    | cons c cs =>
      rw [hdedent, trimStart_eq_nil, List.forall_mem_cons] at hblank
      have hempty : bare [] = [] := rfl
      refine ⟨fun hnil => ?_, fun hsettled => ?_⟩
      · exact absurd hnil (by simp [hempty])
      · exact absurd hsettled (by simp [isSettled, hblank.1])
  · rw [bare_documentation h hne, dedent_dedent_iff]

/-- The two agree up to blanks at both ends exactly when the bare lines are flush. -/
theorem trim_bare_documentation_iff {doc : List Char} (h : opensFence doc = false) :
    trim (bare (documentation doc)) = trim (bare doc) ↔ isFlush (bare doc) = true := by
  rw [bare_of_opensFence h]
  by_cases hne : trimStart doc = []
  · have hblank := trimStart_dedent_eq_nil hne
    rw [documentation, if_pos (by simpa using hne), trim_eq_nil hblank, isFlush_of_blank hblank]
    exact ⟨fun _ => rfl, fun _ => rfl⟩
  · rw [bare_documentation h hne, trim_dedent_dedent_iff]

end DocTags.Text
