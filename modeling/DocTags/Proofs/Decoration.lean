import DocTags.Proofs.TrailingBlanks

/-!
# Decorated blocks

The lines of a documentation block may stand between `/**` and ` */`, each behind a star.  This file
says that the decoration is not seen: a block of decorated lines is read as the same lines without
it.

The closing fence takes the blanks before it along, so the two texts differ in the blanks at their
end (`Text.exists_undecorated`), and `readBlock_unplaced_congr` says that such blanks do not matter.
The main result is `fenced_reads_as_plain`.
-/

namespace DocTags
namespace Text

/-- Lines between line feeds. -/
def plainBlock (lines : List String) : String :=
  "\n" ++ String.join (lines.map fun line => line ++ "\n")

/-- Lines between fences, each behind a star. -/
def fencedBlock (lines : List String) : String :=
  "/**\n" ++ String.join (lines.map fun line => " * " ++ line ++ "\n") ++ " */"

/-! ## The lines of a block -/

/-- The line behind a star. -/
def starred (line : List Char) : List Char :=
  ' ' :: '*' :: ' ' :: line

lemma newline_not_mem_starred {line : List Char} (h : '\n' ∉ line) : '\n' ∉ starred line := by
  simpa [starred] using h

lemma toList_join_marked (lines : List String) (mark : String) :
    (String.join (lines.map fun line => mark ++ line ++ "\n")).toList =
      joinWith '\n' (lines.map (fun line => mark.toList ++ line.toList) ++ [[]]) := by
  induction lines with
  | nil => rfl
  | cons line lines ih =>
    rw [List.map_cons, String.join_cons, String.toList_append, ih, List.map_cons, List.cons_append,
      joinWith_cons (by simp)]
    simp

lemma newline_cons_joinWith (lines : List (List Char)) :
    '\n' :: joinWith '\n' (lines ++ [[]]) = joinWith '\n' ([] :: lines ++ [[]]) := by
  rw [List.cons_append, joinWith_cons (by simp)]
  rfl

lemma toList_plainBlock (lines : List String) :
    (plainBlock lines).toList = joinWith '\n' ([] :: lines.map String.toList ++ [[]]) := by
  have hjoin := toList_join_marked lines ""
  simp only [String.empty_append, String.toList_empty, List.nil_append] at hjoin
  rw [plainBlock, String.toList_append, hjoin, ← newline_cons_joinWith]
  rfl

lemma toList_fencedBlock (lines : List String) :
    (fencedBlock lines).toList = "/**".toList ++
      joinWith '\n' ([] :: (lines.map String.toList).map starred ++ [[]]) ++ " */".toList := by
  rw [fencedBlock, String.toList_append, String.toList_append, toList_join_marked,
    ← newline_cons_joinWith, List.map_map]
  rfl

/-! ## Fences and stars -/

lemma withoutClosingFence_append (text : List Char) :
    withoutClosingFence (text ++ " */".toList) = trimEnd text := by
  rw [withoutClosingFence, List.reverse_append]
  rfl

lemma withoutStar_starred (line : List Char) : withoutStar (starred line) = line := rfl

/-- A star keeps the blanks before it from being trimmed, but not those behind it. -/
lemma withoutStar_trimEnd_starred (line : List Char) :
    withoutStar (trimEnd (starred line)) = trimEnd line := by
  have hstarred : starred line = starred [] ++ line := rfl
  rw [hstarred]
  by_cases h : trimStart line = []
  · rw [trimEnd_append_of_blank h, ← List.nil_append line, trimEnd_append_of_blank h]
    rfl
  · rw [trimEnd_append_of_not_blank h, ← withoutStar_starred (trimEnd line)]
    rfl

lemma trimEnd_joinWith_concat {line : List Char} (h : trimStart line ≠ [])
    (lines : List (List Char)) :
    trimEnd (joinWith '\n' (lines ++ [line])) = joinWith '\n' (lines ++ [trimEnd line]) := by
  have hjoin := joinWith_concat_append lines []
  simp only [List.nil_append] at hjoin
  rw [hjoin line, trimEnd_append_of_not_blank h, ← hjoin]

/-- A decorated block is taken down to its lines, without the blanks at their end. -/
lemma bare_fencedBlock (lines : List String) :
    bare (fencedBlock lines).toList =
      dedent (joinWith '\n' ((splitAt '\n' (trimEnd (joinWith '\n'
        ([] :: (lines.map String.toList).map starred)))).map withoutStar)) := by
  have hafter : afterOpeningFence? (fencedBlock lines).toList =
      some (joinWith '\n' ([] :: (lines.map String.toList).map starred ++ [[]]) ++
        " */".toList) := by
    rw [toList_fencedBlock, ← newline_cons_joinWith]
    rfl
  rw [bare, hafter]
  dsimp only
  rw [withoutClosingFence_append, trimEnd_joinWith_concat_nil]

/-- A decorated block has the bare lines of the plain one, but for blanks behind the last line. -/
lemma exists_undecorated {lines : List String} (hlines : ∀ line ∈ lines, '\n' ∉ line.toList) :
    ∃ text blanks, (plainBlock lines).toList = text ++ blanks ∧ trimStart blanks = [] ∧
      bare (fencedBlock lines).toList = dedent text := by
  rw [bare_fencedBlock, toList_plainBlock]
  obtain rfl | ⟨init, last, rfl⟩ : lines = [] ∨ ∃ init last, lines = init ++ [last] :=
    List.eq_nil_or_concat' lines
  · exact ⟨[], ['\n'], rfl, rfl, rfl⟩
  obtain ⟨blanks, hlast, hblanks⟩ := exists_blanks last.toList
  refine ⟨joinWith '\n' ([] :: init.map String.toList ++ [trimEnd last.toList]), blanks ++ ['\n'],
    ?_, ?_, ?_⟩
  · rw [← List.append_assoc, ← joinWith_concat_append, ← hlast, joinWith_concat (by simp)]
    simp
  · rw [trimStart_append_of_blank (trimStart_eq_nil.2 hblanks)]
    rfl
  · have hstar : trimStart (starred last.toList) ≠ [] := nofun
    have hmap : (init.map String.toList).map (withoutStar ∘ starred) = init.map String.toList :=
      List.map_id'' withoutStar_starred _
    have hnewline : ∀ line ∈ [] :: (init.map String.toList).map starred ++
        [trimEnd (starred last.toList)], '\n' ∉ line := by
      rw [List.forall_mem_append, List.forall_mem_singleton] at hlines
      rw [List.forall_mem_append, List.forall_mem_singleton, List.forall_mem_cons, List.map_map,
        List.forall_mem_map]
      exact ⟨⟨List.not_mem_nil, fun line hline => newline_not_mem_starred (hlines.1 line hline)⟩,
        fun hmem => newline_not_mem_starred hlines.2 ((List.rdropWhile_prefix _ _).subset hmem)⟩
    rw [List.map_append, List.map_append, List.map_singleton, List.map_singleton,
      ← List.cons_append, trimEnd_joinWith_concat hstar, splitAt_joinWith (by simp) hnewline,
      List.map_append, List.map_singleton, withoutStar_trimEnd_starred, List.map_cons, List.map_map,
      hmap]
    rfl

end Text

namespace Reader

/-- A block of decorated lines is read as the lines without their decoration, from every state, in
every place and with all names in scope: the reader is left in the same state, and the comment is
the same, or both fail, with the same error or, if it is the text that is malformed, with the same
fault. -/
theorem fenced_reads_as_plain (w : World) (lines : List String) (placement : Placement)
    (scope : Scope) (r : Reader) (hlines : ∀ line ∈ lines, '\n' ∉ line.toList)
    (hfence : Text.opensFence (Text.plainBlock lines).toList = false) :
    let fenced := parse w (Text.fencedBlock lines) placement scope r
    let plain := parse w (Text.plainBlock lines) placement scope r
    fenced.2 = plain.2 ∧ (fenced.1 = plain.1 ∨ ∃ fault t t',
      fenced.1 = .error (.malformed fault t) ∧ plain.1 = .error (.malformed fault t')) := by
  obtain ⟨text, blanks, hplain, hblanks, hbare⟩ := Text.exists_undecorated hlines
  have hsame : Text.trimEnd (Text.bare (Text.fencedBlock lines).toList) =
      Text.trimEnd (Text.bare (Text.plainBlock lines).toList) := by
    rw [Text.bare_of_opensFence hfence, hbare, hplain, Text.trimEnd_dedent_append hblanks]
  exact Run.eq_or_malformed_of_unplaced (readBlock_unplaced_congr hsame) r

/-- The lines may begin with stars and end with fences and blanks of their own. -/
theorem fenced_reads_as_plain_unclosed :
    let lines := ["* a */", "@tag \x7b1, @  ", "\t"]
    let fenced := parse { modules := [], classes := [] } (Text.fencedBlock lines) .onClass [] {}
    let plain := parse { modules := [], classes := [] } (Text.plainBlock lines) .onClass [] {}
    (∀ line ∈ lines, '\n' ∉ line.toList) ∧
      Text.opensFence (Text.plainBlock lines).toList = false ∧
      fenced.2 = plain.2 ∧ (fenced.1 = plain.1 ∨ ∃ fault t t',
        fenced.1 = .error (.malformed fault t) ∧ plain.1 = .error (.malformed fault t')) := by
  intro lines
  have hlines : ∀ line ∈ lines, '\n' ∉ line.toList := by decide +kernel
  have hfence : Text.opensFence (Text.plainBlock lines).toList = false := by decide +kernel
  exact ⟨hlines, hfence, fenced_reads_as_plain _ lines _ _ _ hlines hfence⟩

end Reader
end DocTags
