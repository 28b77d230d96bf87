import DocTags.Proofs.LineFeeds
import DocTags.Proofs.Reading
import DocTags.Proofs.Sections

/-!
# Blanks behind a text

Blanks behind a documentation block change nothing that can be read from it.  They pass through each
stage on their own terms.

* Dedenting sees them in the last line or as lines of their own, and neither counts for the margin
  (`Text.trimEnd_dedent_append`).
* They stay behind the last tag line, so they come to stand behind the tag section, or behind the
  description if there is none (`Text.splitSection_append`).
* Behind a section that does not end with a blank they are one more whitespace token
  (`Token.pieces_append_blanks`).
* A reader of tags passes over such a token.  Only a list that is never closed can tell: the error
  blames the end of the text, which stands further down (`Tag.Reads.concat_blank`).

So errors are compared without the token they blame.  The main result is `readBlock_unplaced_congr`:
texts that agree up to the blanks behind them are read alike.
-/

namespace DocTags

/-! ## Lines -/

namespace Text

lemma trim_append_of_blank {b : List Char} (h : trimStart b = []) (a : List Char) :
    trim (a ++ b) = trim a := by
  rw [trim, trim]
  by_cases ha : trimStart a = []
  · rw [trimStart_append_of_blank ha, h, ha]
  · rw [trimStart_append_of_not_blank ha, trimEnd_append_of_blank h]

/-- What follows the last line of a text goes on with it. -/
lemma joinWith_concat_append (lines : List (List Char)) (line more : List Char) :
    joinWith '\n' (lines ++ [line ++ more]) = joinWith '\n' (lines ++ [line]) ++ more := by
  by_cases h : lines = []
  · subst h
    rfl
  · rw [joinWith_concat h, joinWith_concat h, List.append_assoc]
    rfl

lemma exists_splitAt_eq_concat (sep : Char) (cs : List Char) :
    ∃ lines line, splitAt sep cs = lines ++ [line] :=
  ⟨_, _, (List.dropLast_append_getLast (splitAt_ne_nil cs)).symm⟩

section OneMore

variable {cs line : List Char} {lines : List (List Char)}

lemma splitAt_concat_newline (h : splitAt '\n' cs = lines ++ [line]) :
    splitAt '\n' (cs ++ ['\n']) = lines ++ [line] ++ [[]] := by
  have hsep : ∀ l ∈ lines ++ [line], '\n' ∉ l := by
    rw [← h]
    exact fun l hl => not_mem_of_mem_splitAt hl
  have hcs : cs = joinWith '\n' (lines ++ [line]) := by rw [← h, joinWith_splitAt]
  have hjoin : cs ++ ['\n'] = joinWith '\n' (lines ++ [line] ++ [[]]) := by
    rw [joinWith_concat (by simp), ← hcs]
  rw [hjoin]
  refine splitAt_joinWith (by simp) fun l hl => ?_
  rcases List.mem_append.1 hl with hl | hl
  · exact hsep l hl
  · rw [List.mem_singleton.1 hl]
    exact List.not_mem_nil

lemma splitAt_concat_of_ne (h : splitAt '\n' cs = lines ++ [line]) {c : Char} (hc : c ≠ '\n') :
    splitAt '\n' (cs ++ [c]) = lines ++ [line ++ [c]] := by
  have hsep : ∀ l ∈ lines ++ [line], '\n' ∉ l := by
    rw [← h]
    exact fun l hl => not_mem_of_mem_splitAt hl
  have hjoin : cs ++ [c] = joinWith '\n' (lines ++ [line ++ [c]]) := by
    rw [joinWith_concat_append, ← h, joinWith_splitAt]
  rw [hjoin]
  refine splitAt_joinWith (by simp) fun l hl => ?_
  rcases List.mem_append.1 hl with hl | hl
  · exact hsep l (List.mem_append_left _ hl)
  · rw [List.mem_singleton.1 hl, List.mem_append, not_or]
    exact ⟨hsep line (by simp), by simpa using hc.symm⟩

end OneMore

/-! ## Dedenting -/

lemma dropOuterEmpty_concat_nil (lines : List (List Char)) :
    dropOuterEmpty (lines ++ [[]]) = dropOuterEmpty lines := by
  rw [dropOuterEmpty_eq, dropOuterEmpty_eq, List.dropWhile_append]
  split
  · next h =>
    rw [List.isEmpty_iff.1 h]
    rfl
  · rw [List.rdropWhile_concat_pos _ _ _ rfl]

lemma trimEnd_joinWith_concat_nil (lines : List (List Char)) :
    trimEnd (joinWith '\n' (lines ++ [[]])) = trimEnd (joinWith '\n' lines) := by
  by_cases h : lines = []
  · subst h
    rfl
  · rw [joinWith_concat h, trimEnd_append_of_blank (by decide)]

/-- The empty lines at the end do not count in a text that is trimmed there. -/
lemma trimEnd_joinWith_dropOuterEmpty (lines : List (List Char)) :
    trimEnd (joinWith '\n' (dropOuterEmpty lines)) =
      trimEnd (joinWith '\n' (lines.dropWhile List.isEmpty)) := by
  rw [dropOuterEmpty_eq]
  induction lines.dropWhile List.isEmpty using List.reverseRecOn with
  | nil => rfl
  | append_singleton ls l ih =>
    by_cases hl : l = []
    · subst hl
      rw [List.rdropWhile_concat_pos _ _ _ rfl, ih, trimEnd_joinWith_concat_nil]
    · rw [List.rdropWhile_concat_neg _ _ _ (by simpa using hl)]

lemma trimEnd_joinWith_concat_append {more : List Char} (hmore : trimStart more = [])
    (lines : List (List Char)) (line : List Char) :
    trimEnd (joinWith '\n' (dropOuterEmpty (lines ++ [line ++ more]))) =
      trimEnd (joinWith '\n' (dropOuterEmpty (lines ++ [line]))) := by
  have hone : ∀ l : List Char, joinWith '\n' ([l].dropWhile List.isEmpty) = l := by
    intro l
    cases l <;> rfl
  rw [trimEnd_joinWith_dropOuterEmpty, trimEnd_joinWith_dropOuterEmpty, List.dropWhile_append,
    List.dropWhile_append]
  split
  · rw [hone, hone, trimEnd_append_of_blank hmore]
  · rw [joinWith_concat_append, trimEnd_append_of_blank hmore]

lemma margin?_concat_append {more : List Char} (hmore : trimStart more = [])
    (lines : List (List Char)) (line : List Char) :
    margin? (lines ++ [line ++ more]) = margin? (lines ++ [line]) := by
  rw [margin?, margin?, List.filter_append, List.filter_append]
  by_cases hline : trimStart line = []
  · have hboth : trimStart (line ++ more) = [] := by
      rw [trimStart_append_of_blank hline, hmore]
    simp [hline, hboth]
  · have hboth : trimStart (line ++ more) ≠ [] := by
      rw [trimStart_append_of_not_blank hline]
      simp [hline]
    simp [hline, hboth, indentation_append_of_not_blank hline]

/-- A line that stands alone is only trimmed. -/
lemma joinWith_cutLines_nil (first : List Char) :
    joinWith '\n' (cutLines first []) = trimStart first := by
  rw [cutLines, List.map_nil]
  cases h : trimStart first <;> rfl

lemma trimEnd_cutLines_concat_append {more : List Char} (hmore : trimStart more = [])
    (first : List Char) (lines : List (List Char)) (line : List Char) :
    trimEnd (joinWith '\n' (cutLines first (lines ++ [line ++ more]))) =
      trimEnd (joinWith '\n' (cutLines first (lines ++ [line]))) := by
  rw [cutLines, cutLines, margin?_concat_append hmore, List.map_append, List.map_append,
    ← List.cons_append, ← List.cons_append, List.map_singleton, List.map_singleton,
    List.drop_append]
  refine trimEnd_joinWith_concat_append ?_ _ _
  rw [trimStart_eq_nil] at hmore ⊢
  exact fun c hc => hmore c (List.mem_of_mem_drop hc)

/-- One more blank behind the lines of a text. -/
lemma trimEnd_cutLines_concat {c : Char} (hc : isBlank c = true) {cs first first' : List Char}
    {rest rest' : List (List Char)} (h : splitAt '\n' cs = first :: rest)
    (h' : splitAt '\n' (cs ++ [c]) = first' :: rest') :
    trimEnd (joinWith '\n' (cutLines first' rest')) =
      trimEnd (joinWith '\n' (cutLines first rest)) := by
  have hblank : trimStart [c] = [] := trimStart_eq_nil.2 (by simpa using hc)
  obtain ⟨lines, line, hlines⟩ := exists_splitAt_eq_concat '\n' cs
  by_cases hnl : c = '\n'
  · -- a line of its own, which is empty
    subst hnl
    rw [splitAt_concat_newline hlines, ← hlines, h, List.cons_append] at h'
    obtain ⟨rfl, rfl⟩ := List.cons.inj h'
    rw [cutLines, cutLines, margin?_append_empty (by simp), List.map_append, ← List.cons_append,
      List.map_singleton, List.drop_nil, dropOuterEmpty_concat_nil]
  · rw [splitAt_concat_of_ne hlines hnl] at h'
    rw [h] at hlines
    cases lines with
    | nil =>
      obtain ⟨rfl, rfl⟩ := List.cons.inj hlines
      obtain ⟨rfl, rfl⟩ := List.cons.inj h'
      rw [joinWith_cutLines_nil, joinWith_cutLines_nil]
      exact trim_append_of_blank hblank first
    | cons head lines =>
      obtain ⟨rfl, rfl⟩ := List.cons.inj hlines
      obtain ⟨rfl, rfl⟩ := List.cons.inj h'
      exact trimEnd_cutLines_concat_append hblank _ lines line

lemma exists_expandTabs_append (k : Nat) (cs more : List Char) :
    ∃ j, expandTabs k (cs ++ more) = expandTabs k cs ++ expandTabs j more := by
  induction cs generalizing k with
  | nil => exact ⟨k, rfl⟩
  | cons c cs ih =>
    rw [List.cons_append, expandTabs, expandTabs]
    split
    · obtain ⟨j, hj⟩ := ih 0
      exact ⟨j, by rw [hj, List.append_assoc]⟩
    · split
      · obtain ⟨j, hj⟩ := ih 0
        exact ⟨j, by rw [hj, List.cons_append]⟩
      · obtain ⟨j, hj⟩ := ih (k + 1)
        exact ⟨j, by rw [hj, List.cons_append]⟩

/-- Blanks behind a text are blanks behind the dedented text, or they are gone. -/
theorem trimEnd_dedent_append {blanks : List Char} (h : trimStart blanks = []) (text : List Char) :
    trimEnd (dedent (text ++ blanks)) = trimEnd (dedent text) := by
  have hlines : ∀ (more cs first first' : List Char) (rest rest' : List (List Char)),
      trimStart more = [] → splitAt '\n' cs = first :: rest →
      splitAt '\n' (cs ++ more) = first' :: rest' →
      trimEnd (joinWith '\n' (cutLines first' rest')) =
        trimEnd (joinWith '\n' (cutLines first rest)) := by
    intro more
    induction more with
    | nil =>
      intro cs first first' rest rest' _ hcs hmore
      rw [List.append_nil, hcs] at hmore
      obtain ⟨rfl, rfl⟩ := List.cons.inj hmore
      rfl
    | cons c more ih =>
      intro cs first first' rest rest' hblank hcs hmore
      rw [trimStart_eq_nil, List.forall_mem_cons, ← trimStart_eq_nil] at hblank
      obtain ⟨mid, mids, hmid⟩ := exists_splitAt_eq_cons '\n' (cs ++ [c])
      rw [List.append_cons] at hmore
      rw [ih (cs ++ [c]) mid first' mids rest' hblank.2 hmid hmore]
      exact trimEnd_cutLines_concat hblank.1 hcs hmid
  obtain ⟨j, hj⟩ := exists_expandTabs_append 0 text blanks
  obtain ⟨first, rest, hfirst⟩ := exists_splitAt_eq_cons '\n' (expandTabs 0 text)
  obtain ⟨first', rest', hfirst'⟩ := exists_splitAt_eq_cons '\n' (expandTabs 0 (text ++ blanks))
  rw [dedent_eq hfirst, dedent_eq hfirst']
  rw [hj] at hfirst'
  exact hlines _ _ _ _ _ _ (trimStart_expandTabs_eq_nil h j) hfirst hfirst'

/-! ## The tag section -/

lemma isAlpha_eq_false_of_isBlank {c : Char} (hc : isBlank c = true) : c.isAlpha = false := by
  by_contra h
  have hrange := isAlpha_range (by simpa using h)
  simp only [isBlank, Bool.or_eq_true, Bool.and_eq_true, decide_eq_true_eq, beq_iff_eq] at hc
  omega

lemma isTagLine_concat {c : Char} (hc : isBlank c = true) (line : List Char) :
    isTagLine (line ++ [c]) = isTagLine line := by
  have hat : c ≠ '@' := by
    rintro rfl
    exact absurd hc (by decide)
  have halpha := isAlpha_eq_false_of_isBlank hc
  rw [isTagLine, isTagLine, List.dropWhile_append]
  match line.dropWhile isIndent with
  | [] =>
    cases hindent : isIndent c with
    | true => simp [hindent]
    | false => simp [hindent]
  | [d] =>
    by_cases hd : d = '@'
    · subst hd
      exact halpha
    · simp [hd]
  | d :: e :: rest =>
    by_cases hd : d = '@'
    · subst hd
      rfl
    · simp [hd]

/-- The first tag line divides the lines of a text. -/
lemma splitSection_of_lines {text : List Char} {before tags : List (List Char)}
    (hlines : splitAt '\n' text = before ++ tags) (hne : tags ≠ [])
    (hbefore : ∀ line ∈ before, isTagLine line = false)
    (htags : ∀ line ∈ tags.head?, isTagLine line = true) :
    splitSection text = (joinWith '\n' before, some (joinWith '\n' tags)) := by
  obtain ⟨first, rest, rfl⟩ := List.exists_cons_of_ne_nil hne
  have hpass : ∀ line ∈ before, (!isTagLine line) = true := by simpa using hbefore
  have hfirst : isTagLine first = true := htags first rfl
  rw [splitSection, hlines, List.dropWhile_append_of_pos hpass, List.takeWhile_append_of_pos hpass]
  simp [hfirst]

lemma splitSection_of_no_tags {text : List Char}
    (h : ∀ line ∈ splitAt '\n' text, isTagLine line = false) :
    splitSection text = (text, none) := by
  have hpass : (splitAt '\n' text).dropWhile (fun line => !isTagLine line) = [] := by
    rw [List.dropWhile_eq_nil_iff]
    simpa using h
  rw [splitSection, hpass]

/-- A text has no tag lines, or they begin with one of its lines. -/
lemma exists_tagLines (text : List Char) :
    (∀ line ∈ splitAt '\n' text, isTagLine line = false) ∨
      ∃ before tags, splitAt '\n' text = before ++ tags ∧ tags ≠ [] ∧
        (∀ line ∈ before, isTagLine line = false) ∧
        ∀ line ∈ tags.head?, isTagLine line = true := by
  cases htags : (splitAt '\n' text).dropWhile (fun line => !isTagLine line) with
  | nil =>
    rw [List.dropWhile_eq_nil_iff] at htags
    exact .inl (by simpa using htags)
  | cons first rest =>
    refine .inr ⟨(splitAt '\n' text).takeWhile (fun line => !isTagLine line), first :: rest, ?_,
      by simp, fun line hline => by simpa using List.mem_takeWhile_imp hline, ?_⟩
    · rw [← htags, List.takeWhile_append_dropWhile]
    · have hfirst := List.head?_dropWhile_not (fun line => !isTagLine line) (splitAt '\n' text)
      rw [htags] at hfirst
      rintro line ⟨⟩
      simpa using hfirst

/-- The text before the tags of a text and its tag section, with more behind it. -/
def sectionBefore (text more : List Char) : List Char × Option (List Char) :=
  match splitSection text with
  | (_, none) => (text ++ more, none)
  | (before, some tags) => (before, some (tags ++ more))

/-- One more blank behind a text stands behind its tag section, if it has one. -/
lemma splitSection_concat {c : Char} (hc : isBlank c = true) (text : List Char) :
    splitSection (text ++ [c]) = sectionBefore text [c] := by
  rw [sectionBefore]
  rcases exists_tagLines text with hnone | ⟨before, tags, hlines, hne, hbefore, htags⟩
  · rw [splitSection_of_no_tags hnone, splitSection_of_no_tags]
    obtain ⟨lines, line, hlines⟩ := exists_splitAt_eq_concat '\n' text
    rw [hlines, List.forall_mem_append, List.forall_mem_singleton] at hnone
    by_cases hnl : c = '\n'
    · subst hnl
      rw [splitAt_concat_newline hlines, List.forall_mem_append, List.forall_mem_append]
      simpa using ⟨hnone, rfl⟩
    · rw [splitAt_concat_of_ne hlines hnl, List.forall_mem_append, List.forall_mem_singleton,
        isTagLine_concat hc]
      exact hnone
  · obtain ⟨init, last, rfl⟩ : ∃ init last, tags = init ++ [last] :=
      ⟨_, _, (List.dropLast_append_getLast hne).symm⟩
    rw [splitSection_of_lines hlines hne hbefore htags]
    rw [← List.append_assoc] at hlines
    by_cases hnl : c = '\n'
    · subst hnl
      have hlines' := splitAt_concat_newline hlines
      rw [List.append_assoc before, List.append_assoc before] at hlines'
      rw [splitSection_of_lines hlines' (by simp) hbefore, joinWith_concat (by simp)]
      cases init <;> exact htags
    · have hlines' := splitAt_concat_of_ne hlines hnl
      rw [List.append_assoc before] at hlines'
      rw [splitSection_of_lines hlines' (by simp) hbefore, joinWith_concat_append]
      cases init with
      | nil =>
        rintro line ⟨⟩
        rw [isTagLine_concat hc]
        exact htags last rfl
      | cons first init => exact htags

/-- Blanks behind a text stand behind its tag section, if it has one. -/
theorem splitSection_append {blanks : List Char} (h : trimStart blanks = []) (text : List Char) :
    splitSection (text ++ blanks) = sectionBefore text blanks := by
  induction blanks generalizing text with
  | nil =>
    rw [List.append_nil, sectionBefore]
    split
    · next hnone => rw [Reader.splitSection_of_none (by rw [hnone]), List.append_nil]
    · next hsome => rw [hsome, List.append_nil]
  | cons c blanks ih =>
    rw [trimStart_eq_nil, List.forall_mem_cons, ← trimStart_eq_nil] at h
    rw [List.append_cons, ih h.2, sectionBefore, splitSection_concat h.1, sectionBefore,
      sectionBefore]
    rcases splitSection text with ⟨before, _ | tags⟩
    · simp
    · simp

end Text

/-! ## Tokens -/

namespace Lexeme

/-- Blanks at the head of a text end where they end before anything else. -/
lemma blanks_append_of_not_blank {cs : List Char} (h : ¬ ∀ c ∈ cs, Text.isBlank c = true)
    (more : List Char) :
    (cs ++ more).takeWhile Text.isBlank = cs.takeWhile Text.isBlank ∧
      (cs ++ more).dropWhile Text.isBlank = cs.dropWhile Text.isBlank ++ more := by
  have hdrop : ¬ (cs.dropWhile Text.isBlank).isEmpty = true := by
    rwa [List.isEmpty_iff, List.dropWhile_eq_nil_iff]
  have htake : ¬ (cs.takeWhile Text.isBlank).length = cs.length := by
    intro hlen
    have hall := (List.takeWhile_prefix Text.isBlank).eq_of_length hlen
    exact h (List.takeWhile_eq_self_iff.1 hall)
  rw [List.takeWhile_append, if_neg htake, List.dropWhile_append, if_neg hdrop]
  exact ⟨rfl, rfl⟩

section Blanks

variable {blanks : List Char} (hblanks : ∀ c ∈ blanks, Text.isBlank c = true)

include hblanks

lemma not_mem_blanks {c : Char} (hc : Text.isBlank c = false) : c ∉ blanks := by
  intro hmem
  rw [hblanks c hmem] at hc
  exact Bool.false_ne_true hc.symm

lemma head?_blanks_ne_colon : blanks.head? ≠ some ':' := fun h =>
  not_mem_blanks hblanks (by decide) (List.mem_of_head? h)

lemma match?_blanks (hne : blanks ≠ []) (afterColon : Bool) :
    match? afterColon blanks = some (⟨.whitespace, blanks⟩, []) := by
  obtain ⟨c, cs, rfl⟩ := List.exists_cons_of_ne_nil hne
  rw [List.forall_mem_cons] at hblanks
  rw [(Found.blanks hblanks.1 cs).match?, List.takeWhile_eq_self_iff.2 hblanks.2,
    List.dropWhile_eq_nil_iff.2 hblanks.2]

/-- Blanks behind a text that does not end with one are one more lexeme. -/
lemma split_append_blanks (hne : blanks ≠ []) (afterColon : Bool) {cs : List Char}
    (hlast : ∀ c ∈ cs.getLast?, Text.isBlank c = false) :
    split afterColon (cs ++ blanks) = split afterColon cs ++ [⟨.whitespace, blanks⟩] := by
  have hend : ∀ b, split b blanks = [⟨.whitespace, blanks⟩] := by
    intro b
    rw [split_of_match (match?_blanks hblanks hne b), split]
  have hcolon := head?_blanks_ne_colon hblanks
  fun_induction split afterColon cs with
  | case1 afterColon => exact hend afterColon
  | case2 afterColon c tail l rest hmatch ih =>
    have hrest : ∀ d ∈ rest.getLast?, Text.isBlank d = false := by
      intro d hd
      apply hlast
      rw [← match?_append hmatch, List.getLast?_append, hd]
      rfl
    -- The blanks at the head end before the last character of the text.
    have hhead : ∀ d ∈ (c :: tail).head?, Text.isBlank d = true →
        (tail ++ blanks).takeWhile Text.isBlank = tail.takeWhile Text.isBlank ∧
          (tail ++ blanks).dropWhile Text.isBlank = tail.dropWhile Text.isBlank ++ blanks := by
      rintro d ⟨⟩ hblank
      refine blanks_append_of_not_blank (fun hall => ?_) blanks
      have hlastBlank : ∀ e ∈ c :: tail, Text.isBlank e = true :=
        List.forall_mem_cons.2 ⟨hblank, hall⟩
      have hlast' := hlast _ (List.getLast?_eq_some_getLast (List.cons_ne_nil c tail))
      rw [hlastBlank _ (List.getLast_mem _)] at hlast'
      cases hlast'
    rw [split_of_match (match?_append_right hcolon hhead hmatch), ih hrest]
    rfl
  | case3 afterColon c tail hmatch ih =>
    have htail : ∀ d ∈ tail.getLast?, Text.isBlank d = false := by
      intro d hd
      apply hlast
      rw [List.getLast?_cons, hd]
      rfl
    have hopen : isQuote c = true → ¬ Closes c (tail ++ blanks) := by
      intro hquote hcloses
      rw [isQuote, Bool.or_eq_true, beq_iff_eq, beq_iff_eq] at hquote
      refine (match?_eq_none_iff.1 hmatch).1 hquote (hcloses.of_append (not_mem_blanks hblanks ?_))
      rcases hquote with rfl | rfl <;> decide
    rw [List.cons_append, split_of_none (match?_append_right_of_none hopen hmatch), ih htail]
    by_cases hnil : tail = []
    · subst hnil
      rw [split]
      rfl
    · exact consWord_append (split_ne_nil hnil) c _

end Blanks

end Lexeme

lemma Token.pieces_append_blanks {text blanks : List Char} (hne : blanks ≠ [])
    (hblanks : ∀ c ∈ blanks, Text.isBlank c = true)
    (hlast : ∀ c ∈ text.getLast?, Text.isBlank c = false) :
    pieces (text ++ blanks) =
      pieces text ++ [⟨.whitespace, String.ofList blanks, text.length⟩] := by
  rw [pieces, Lexeme.split_append_blanks hblanks hne false hlast, locate_append,
    Lexeme.flatMap_split, Nat.zero_add]
  rfl

/-! ## Errors without their place -/

/-- The error without the token it blames. -/
def Error.unplaced : Error → Error
  | .malformed fault _ => .malformed fault none
  | e => e

/-- Errors that agree without their place are equal, or one fault at two tokens. -/
lemma Error.eq_or_malformed_of_unplaced {e e' : Error} (h : e.unplaced = e'.unplaced) :
    e = e' ∨ ∃ fault t t', e = .malformed fault t ∧ e' = .malformed fault t' := by
  unfold unplaced at h
  split at h
  · next fault t =>
    split at h
    · next fault' t' =>
      obtain rfl : fault = fault' := (Error.malformed.inj h).1
      exact .inr ⟨fault, t, t', rfl, rfl⟩
    · next hother => exact absurd h.symm (hother fault none)
  · next hother =>
    split at h
    · next fault' t' => exact absurd h (hother fault' none)
    · exact .inl h

mutual

/-- The item with its errors without their place. -/
def Item.unplaced : Item → Item
  | .value v => .value v
  | .word name => .word name
  | .list entries => .list entries.unplaced
  | .nested name arguments => .nested name arguments.unplaced

/-- The entries with their errors without their place. -/
def Entries.unplaced : Entries → Entries
  | .closed => .closed
  | .entry key item rest => .entry key item.unplaced rest.unplaced
  | .broken none e => .broken none e.unplaced
  | .broken (some item) e => .broken (some item.unplaced) e.unplaced

end

/-- The tag with the errors of its lists without their place. -/
def Tag.unplaced : Tag → Tag
  | .plain name text => .plain name text
  | .list name entries after => .list name entries.unplaced after
  | .typed name arguments => .typed name arguments.unplaced

/-! ## Reading past a blank -/

namespace Entries

lemma unplaced_broken (before : Option Item) (e : Error) :
    (Entries.broken before e).unplaced = .broken (before.map Item.unplaced) e.unplaced := by
  cases before <;> rfl

lemma unplaced_brokenAt {pending pending' : Option Pending}
    (h : (Pending.effect? pending').map Item.unplaced = (Pending.effect? pending).map Item.unplaced)
    (fault : Malformation) (t t' : Token) :
    (brokenAt pending' fault t').unplaced = (brokenAt pending fault t).unplaced := by
  rw [brokenAt, brokenAt, unplaced_broken, unplaced_broken, h]
  rfl

section Blank

variable {eof eof' : Token} {g : Grammar} {closing : TokenKind} {started : Bool}
  {key : Option String} {pending : Option Pending} {ts rest : List Token} {es : Entries}
  {blank : Token} (hblank : blank.kind = .whitespace)

include hblank

lemma action_blank : action g closing started key pending blank = .go key pending := by
  unfold action
  rw [hblank]

lemma annotated?_concat_blank (h : annotated? ts = none) : annotated? (ts ++ [blank]) = none := by
  match ts with
  | [] => rfl
  | [name] => simp [annotated?, hblank]
  | name :: opening :: ts =>
    rw [annotated?] at h
    split at h
    · cases h
    · next hkinds => exact if_neg hkinds

lemma unplaced_unannotated_concat_blank :
    (unannotated eof' (ts ++ [blank])).unplaced = (unannotated eof ts).unplaced := by
  cases ts with
  | nil =>
    have hword : ¬ blank.kind = .word := by simp [hblank]
    rw [List.nil_append, unannotated, unannotated, if_neg hword]
    exact unplaced_brokenAt rfl _ _ _
  | cons name ts => rfl

/-- A list that breaks off breaks off with the same fault if a blank follows. -/
lemma Reads.concat_blank (h : Reads eof g closing started key pending ts es rest)
    (hopen : ¬ IsClosed es) (eof' : Token) :
    ∃ es', Reads eof' g closing started key pending (ts ++ [blank]) es' [] ∧
      es'.unplaced = es.unplaced := by
  induction h with
  | ended => exact ⟨_, .go (action_blank hblank) .ended, unplaced_brokenAt rfl _ _ _⟩
  | go h _ ih =>
    obtain ⟨es', hreads, hsame⟩ := ih hopen
    exact ⟨es', .go h hreads, hsame⟩
  | @list g closing started key pending t ts behind rest inner es h hinner hrest ihinner ih =>
    by_cases hclosed : IsClosed inner
    · obtain ⟨es', hreads, hsame⟩ := ih hopen
      exact ⟨es', .list h (hinner.append hclosed eof' [blank]) hreads, hsame⟩
    · -- Behind an inner list that breaks off there is nothing.
      obtain ⟨inner', hreads, hsame⟩ := ihinner hclosed
      obtain rfl := hinner.isClosed_or_nil.resolve_left hclosed
      cases hrest
      refine ⟨_, .list h hreads .ended, unplaced_brokenAt ?_ _ _ _⟩
      simp [Pending.effect?, Item.unplaced, hsame]
  | @annotated g closing started key pending t name ts us behind rest inner es h hname hinner hrest
      ihinner ih =>
    have hname' := annotated?_append hname [blank]
    by_cases hclosed : IsClosed inner
    · obtain ⟨es', hreads, hsame⟩ := ih hopen
      exact ⟨es', .annotated h hname' (hinner.append hclosed eof' [blank]) hreads, hsame⟩
    · obtain ⟨inner', hreads, hsame⟩ := ihinner hclosed
      obtain rfl := hinner.isClosed_or_nil.resolve_left hclosed
      cases hrest
      refine ⟨_, .annotated h hname' hreads .ended, unplaced_brokenAt ?_ _ _ _⟩
      simp [Pending.effect?, Item.unplaced, hsame]
  | unannotated h hname =>
    exact ⟨_, .unannotated h (annotated?_concat_blank hblank hname),
      unplaced_unannotated_concat_blank hblank⟩
  | file h _ ih =>
    obtain ⟨es', hreads, hsame⟩ := ih fun hclosed => hopen (.entry hclosed)
    refine ⟨_, .file h hreads, ?_⟩
    rw [Entries.unplaced, Entries.unplaced, hsame]
  | close _ => exact absurd (isClosed_lastEntry _ _) hopen
  | fail h => exact ⟨_, .fail h, rfl⟩

end Blank

end Entries

namespace Tag

variable {blank : Token}

lemma textOf_concat_blank (htext : ∀ c ∈ blank.text.toList, Text.isBlank c = true)
    (ts : List Token) : textOf (ts ++ [blank]) = textOf ts := by
  rw [textOf, textOf, List.flatMap_append, Text.trim_append_of_blank]
  rw [Text.trimStart_eq_nil]
  simpa using htext

variable (hblank : blank.kind = .whitespace)

include hblank

lemma strayAfter?_concat_blank (ts : List Token) :
    strayAfter? (ts ++ [blank]) = strayAfter? ts := by
  unfold strayAfter?
  induction ts with
  | nil =>
    by_cases hnl : blank.hasNewline = true
    · simp [hnl, endsValue]
    · simp [hnl, hblank]
  | cons t ts ih =>
    by_cases ht : (t.kind == .whitespace && !t.hasNewline) = true
    · simpa only [List.cons_append, List.dropWhile_cons, ht, if_true] using ih
    · simp only [List.cons_append, List.dropWhile_cons, ht, Bool.false_eq_true, if_false]

/-- The tags of a section are the same if a blank follows, up to the places of their errors. -/
lemma Reads.concat_blank (htext : ∀ c ∈ blank.text.toList, Text.isBlank c = true)
    {eof : Token} {ts : List Token} {tags : List Tag} (h : Reads eof ts tags) (eof' : Token) :
    ∃ tags', Reads eof' (ts ++ [blank]) tags' ∧ tags'.map unplaced = tags.map unplaced := by
  have hparen : blank.kind ≠ .leftParen := by simp [hblank]
  induction h with
  | nil => exact ⟨[], .lone, rfl⟩
  | lone =>
    have hword : blank.kind ≠ .word := by simp [hblank]
    exact ⟨[], .skip (.inr hword) .lone, rfl⟩
  | skip h _ ih =>
    obtain ⟨tags', hreads, hsame⟩ := ih
    exact ⟨tags', .skip h hreads, hsame⟩
  | @typed t name opening ts rest args tags ht hname hopening hargs hrest ih =>
    by_cases hclosed : args.IsClosed
    · obtain ⟨tags', hreads, hsame⟩ := ih
      refine ⟨_, .typed ht hname hopening (hargs.append hclosed eof' [blank]) hreads, ?_⟩
      rw [List.map_cons, List.map_cons, hsame]
    · obtain ⟨args', hreads, hsame⟩ := hargs.concat_blank hblank hclosed eof'
      obtain rfl := hargs.isClosed_or_nil.resolve_left hclosed
      cases hrest
      refine ⟨_, .typed ht hname hopening hreads .nil, ?_⟩
      simp [unplaced, hsame]
  | @plain t name value after tags ht hname hopening hvalue hafter hrest ih =>
    have hopening' := forall_head?_append hparen hopening []
    rw [List.append_assoc] at hopening'
    rw [List.cons_append, List.cons_append, List.append_assoc]
    by_cases hends : endsValue blank = true
    · obtain ⟨tags', hreads, hsame⟩ := ih
      refine ⟨_, .plain ht hname hopening' hvalue (forall_head?_append hends hafter []) hreads, ?_⟩
      rw [List.map_cons, List.map_cons, hsame]
    · cases after with
      | nil =>
        -- The blank is part of the value, from which it is trimmed.
        cases hrest
        have htextual : ∀ v ∈ value ++ [blank], isText v = true := by
          rw [List.forall_mem_append, List.forall_mem_singleton]
          exact ⟨hvalue, by simp [isText, hends, hblank]⟩
        rw [List.nil_append, ← List.append_nil (value ++ [blank])] at hopening' ⊢
        refine ⟨_, .plain ht hname hopening' htextual (by simp) .nil, ?_⟩
        rw [textOf_concat_blank htext]
      | cons first after =>
        obtain ⟨tags', hreads, hsame⟩ := ih
        refine ⟨_, .plain ht hname hopening' hvalue hafter hreads, ?_⟩
        rw [List.map_cons, List.map_cons, hsame]
  | @list t name brace value ts rest es tags ht hname hopening hvalue hbrace hlist hrest ih =>
    have hopening' := forall_head?_append hparen hopening []
    rw [List.append_assoc] at hopening'
    rw [List.cons_append, List.cons_append, List.append_assoc, List.cons_append]
    by_cases hclosed : es.IsClosed
    · obtain ⟨tags', hreads, hsame⟩ := ih
      refine ⟨_, .list ht hname hopening' hvalue hbrace (hlist.append hclosed eof' [blank]) hreads,
        ?_⟩
      rw [List.map_cons, List.map_cons, hsame, strayAfter?_concat_blank hblank]
    · obtain ⟨es', hreads, hsame⟩ := hlist.concat_blank hblank hclosed eof'
      obtain rfl := hlist.isClosed_or_nil.resolve_left hclosed
      cases hrest
      refine ⟨_, .list ht hname hopening' hvalue hbrace hreads .nil, ?_⟩
      simp [unplaced, hsame]

end Tag

/-! ## Runs up to the place of an error -/

namespace Run

variable {σ α β : Type}

/-- The run with its errors without their place. -/
def unplaced (x : Run σ α) : Run σ α := fun s =>
  ((x s).1.mapError Error.unplaced, (x s).2)

lemma unplaced_throw (e : Error) :
    (throw e : Run σ α).unplaced = (throw e.unplaced : Run σ α).unplaced := by
  cases e <;> rfl

lemma unplaced_bind_congr {x y : Run σ α} {f g : α → Run σ β} (hxy : x.unplaced = y.unplaced)
    (hfg : ∀ a, (f a).unplaced = (g a).unplaced) : (x >>= f).unplaced = (y >>= g).unplaced := by
  funext s
  have hs := congrFun hxy s
  unfold unplaced at hs ⊢
  rcases hx : x s with ⟨e | a, t⟩ <;> rcases hy : y s with ⟨e' | a', t'⟩ <;>
    rw [hx, hy] at hs <;> obtain ⟨hres, rfl⟩ := Prod.mk.inj hs
  · have he : e.unplaced = e'.unplaced := Except.error.inj hres
    rw [bind_error hx, bind_error hy]
    simp only [Except.mapError, he]
  · cases hres
  · cases hres
  · obtain rfl := Except.ok.inj hres
    rw [bind_ok hx, bind_ok hy]
    exact congrFun (hfg a) t

/-- Runs that agree up to the place of an error leave the same state, and have the same result or
fail with the same fault. -/
lemma eq_or_malformed_of_unplaced {x y : Run σ α} (h : x.unplaced = y.unplaced) (s : σ) :
    (x s).2 = (y s).2 ∧ ((x s).1 = (y s).1 ∨ ∃ fault t t',
      (x s).1 = .error (.malformed fault t) ∧ (y s).1 = .error (.malformed fault t')) := by
  obtain ⟨hres, hstate⟩ := Prod.mk.inj (congrFun h s)
  refine ⟨hstate, ?_⟩
  rcases hx : (x s).1 with e | a <;> rcases hy : (y s).1 with e' | a' <;> rw [hx, hy] at hres
  · rcases Error.eq_or_malformed_of_unplaced (Except.error.inj hres) with
      rfl | ⟨fault, t, t', rfl, rfl⟩
    · exact .inl rfl
    · exact .inr ⟨fault, t, t', rfl, rfl⟩
  · cases hres
  · cases hres
  · obtain rfl := Except.ok.inj hres
    exact .inl rfl

end Run

namespace Setting

variable (x : Setting)

mutual

lemma unplaced_item (i : Item) : (x.item i.unplaced).unplaced = (x.item i).unplaced := by
  match i with
  | .value v => rfl
  | .word name => rfl
  | .list es =>
    simp only [Item.unplaced, item]
    exact Run.unplaced_bind_congr (unplaced_entries es []) fun _ => rfl
  | .nested name args =>
    simp only [Item.unplaced, item]
    exact Run.unplaced_bind_congr (unplaced_entries args []) fun _ => rfl

lemma unplaced_entries (es : Entries) (acc : TagList) :
    (x.entries es.unplaced acc).unplaced = (x.entries es acc).unplaced := by
  match es with
  | .closed => rfl
  | .entry key i rest =>
    simp only [Entries.unplaced, entries]
    exact Run.unplaced_bind_congr (unplaced_item i) fun v => unplaced_entries rest _
  | .broken none e =>
    simp only [Entries.unplaced, entries]
    exact (Run.unplaced_throw e).symm
  | .broken (some i) e =>
    simp only [Entries.unplaced, entries]
    exact Run.unplaced_bind_congr (unplaced_item i) fun _ => (Run.unplaced_throw e).symm

end

lemma unplaced_tag (c : Comment) (t : Tag) :
    (x.tag c t.unplaced).unplaced = (x.tag c t).unplaced := by
  cases t with
  | plain name text => rfl
  | list name es after => exact Run.unplaced_bind_congr (unplaced_entries x es []) fun _ => rfl
  | typed name args => exact Run.unplaced_bind_congr (unplaced_entries x args []) fun _ => rfl

/-- The places of errors matter for nothing but the errors. -/
lemma unplaced_tags (c : Comment) (ts : List Tag) :
    (x.tags c (ts.map Tag.unplaced)).unplaced = (x.tags c ts).unplaced := by
  induction ts generalizing c with
  | nil => rfl
  | cons t ts ih => exact Run.unplaced_bind_congr (unplaced_tag x c t) fun c' => ih c'

end Setting

/-! ## Texts up to the blanks behind them -/

namespace Text

/-- A text is what is left of it when it is trimmed at the end, and blanks. -/
lemma exists_blanks (cs : List Char) : ∃ blanks, cs = trimEnd cs ++ blanks ∧
    ∀ c ∈ blanks, isBlank c = true :=
  ⟨cs.rtakeWhile isBlank, List.rdropWhile_append_rtakeWhile.symm,
    fun _ hc => List.mem_rtakeWhile_imp hc⟩

lemma isBlank_getLast?_trimEnd (cs : List Char) :
    ∀ c ∈ (trimEnd cs).getLast?, isBlank c = false := by
  intro c hc
  have hnot := List.head?_dropWhile_not isBlank cs.reverse
  rw [trimEnd, List.getLast?_reverse] at hc
  rw [hc] at hnot
  simpa using hnot

end Text

namespace Tag

/-- Blanks behind a section change no tag but for the places of errors. -/
lemma unplaced_ofSection_trimEnd (text : List Char) :
    (ofSection text).map unplaced = (ofSection (Text.trimEnd text)).map unplaced := by
  obtain ⟨blanks, htext, hblanks⟩ := Text.exists_blanks text
  by_cases hne : blanks = []
  · rw [hne, List.append_nil] at htext
    rw [← htext]
  · have hpieces := Token.pieces_append_blanks hne hblanks (Text.isBlank_getLast?_trimEnd text)
    have hkind : (Token.mk .whitespace (String.ofList blanks) (Text.trimEnd text).length).kind =
        .whitespace := rfl
    obtain ⟨tags, hreads, hsame⟩ := (reads_parse (Token.ending (Text.trimEnd text))
      (Token.pieces (Text.trimEnd text))).concat_blank hkind (by simpa using hblanks)
      (Token.ending text)
    rw [← hpieces, ← htext] at hreads
    rw [ofSection, hreads.parse_eq, hsame, ofSection]

end Tag

namespace Reader

/-- Blanks behind a text change neither its description nor, up to the places of errors, its
tags. -/
lemma section_trimEnd (text : List Char) :
    Text.trim (Text.splitSection text).1 = Text.trim (Text.splitSection (Text.trimEnd text)).1 ∧
      (tagsOf text).map (List.map Tag.unplaced) =
        (tagsOf (Text.trimEnd text)).map (List.map Tag.unplaced) := by
  obtain ⟨blanks, htext, hblanks⟩ := Text.exists_blanks text
  have hblank : Text.trimStart blanks = [] := Text.trimStart_eq_nil.2 hblanks
  have hsplit := Text.splitSection_append hblank (Text.trimEnd text)
  rw [← htext, Text.sectionBefore] at hsplit
  rw [tagsOf, tagsOf, hsplit]
  rcases htrim : Text.splitSection (Text.trimEnd text) with ⟨before, _ | tags⟩
  · rw [splitSection_of_none (by rw [htrim])] at htrim
    obtain rfl := (Prod.mk.inj htrim).1
    exact ⟨Text.trim_append_of_blank hblank _, rfl⟩
  · refine ⟨rfl, congrArg some ?_⟩
    rw [Tag.unplaced_ofSection_trimEnd, Text.trimEnd_append_of_blank hblank,
      ← Tag.unplaced_ofSection_trimEnd]

variable {w : World} {placement : Placement} {scope : Scope}

/-- Blocks with the same bare lines, up to the blanks behind these, are read alike. -/
theorem readBlock_unplaced_congr {a b : List Char}
    (h : Text.trimEnd (Text.bare a) = Text.trimEnd (Text.bare b)) :
    (readBlock w a placement scope).unplaced = (readBlock w b placement scope).unplaced := by
  obtain ⟨hbefore, htags⟩ := section_trimEnd (Text.bare a)
  obtain ⟨hbefore', htags'⟩ := section_trimEnd (Text.bare b)
  rw [h, ← hbefore'] at hbefore
  rw [h, ← htags', tagsOf, tagsOf] at htags
  unfold readBlock
  refine Run.unplaced_bind_congr rfl fun r => ?_
  unfold Setting.read Setting.scan
  rcases ha : Text.splitSection (Text.bare a) with ⟨before, _ | text⟩ <;>
    rcases hb : Text.splitSection (Text.bare b) with ⟨before', _ | text'⟩ <;>
    rw [ha, hb] at hbefore htags
  · simp only [hbefore]
  · cases htags
  · cases htags
  · have hsame : (Tag.ofSection text).map Tag.unplaced = (Tag.ofSection text').map Tag.unplaced :=
      Option.some.inj htags
    simp only [hbefore]
    rw [← Setting.unplaced_tags, hsame, Setting.unplaced_tags]

end Reader
end DocTags
