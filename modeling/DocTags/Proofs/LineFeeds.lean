import DocTags.Proofs.Keyed
import DocTags.Proofs.Lines
import DocTags.Proofs.Lossless
import DocTags.Proofs.Run
import DocTags.Proofs.Steps
import DocTags.Reader.Operations

/-!
# Plain tags and their lines

The value of a plain tag ends at the next tag or at the end of its line, and the end of a line is
seen on the blanks between the tokens.  A line feed inside a string is not between tokens, so a
value goes on behind it.  Two apostrophes on different lines are enough for that, since what stands
between them is a string.

`Lexeme.Shape` says what the lexemes of each kind are made of.  From it follows which tokens can
hold a line feed: blanks and strings, and no others.  `Tag.Written` says where a plain tag stands
among the tokens of a section.  The main result is `plain_value_spans_lines_iff`: what a plain tag
has for a text is not empty, has no blanks at its ends, and holds a line feed exactly if one of its
own tokens is a string that does.
-/

namespace DocTags

/-! ## What lexemes are made of -/

namespace Lexeme

/-- Words hold no blanks and runs of blanks hold nothing else.  A string stands between two quotes
of one kind, and the others are single characters. -/
inductive Shape : Lexeme → Prop
  | word {cs : List Char} (h : ∀ c ∈ cs, Text.isBlank c = false) : Shape ⟨.word, cs⟩
  | blanks {cs : List Char} (h : ∀ c ∈ cs, Text.isBlank c = true) : Shape ⟨.whitespace, cs⟩
  | string {quote : Char} (h : quote = '\'' ∨ quote = '"') (body : List Char) :
      Shape ⟨.string, quote :: (body ++ [quote])⟩
  | symbol {kind : TokenKind} {c : Char} (hword : kind ≠ .word) (hblank : kind ≠ .whitespace)
      (hstring : kind ≠ .string) (h : Text.isBlank c = false) : Shape ⟨kind, [c]⟩

lemma shape_of_match {afterColon : Bool} {cs rest : List Char} {l : Lexeme}
    (h : match? afterColon cs = some (l, rest)) : Shape l := by
  cases found_of_match h with
  | string hquote => exact .string hquote _
  | blanks hblank tail =>
    exact .blanks (List.forall_mem_cons.2 ⟨hblank, fun d hd => List.mem_takeWhile_imp hd⟩)
  | colon => exact .symbol (by decide) (by decide) (by decide) (by decide)
  | symbol hkind =>
    obtain ⟨hword, -, hstring, hblank⟩ := kind_of_ofSymbol? hkind
    exact .symbol hword hblank hstring (char_of_ofSymbol? hkind).2.2.1

lemma shape_of_mem_split (afterColon : Bool) (cs : List Char) :
    ∀ l ∈ split afterColon cs, Shape l := by
  refine forall_mem_split shape_of_match (fun hmatch => ?_) (fun hmatch h => ?_) afterColon cs
  · obtain ⟨-, hblank, -⟩ := match?_eq_none_iff.1 hmatch
    exact .word (List.forall_mem_singleton.2 hblank)
  · obtain ⟨-, hblank, -⟩ := match?_eq_none_iff.1 hmatch
    cases h with
    | word hcs => exact .word (List.forall_mem_cons.2 ⟨hblank, hcs⟩)
    | symbol hword => exact absurd rfl hword

end Lexeme

namespace Token

/-- What a token is made of, by its kind. -/
abbrev Shape (t : Token) : Prop :=
  Lexeme.Shape ⟨t.kind, t.text.toList⟩

lemma shape_of_mem_locate {start : Nat} {afterColon : Bool} {cs : List Char} {t : Token}
    (h : t ∈ locate start (Lexeme.split afterColon cs)) : t.Shape := by
  obtain ⟨l, hl, hkind, htext⟩ := exists_lexeme_of_mem_locate h
  rw [Shape, hkind, htext]
  exact Lexeme.shape_of_mem_split afterColon cs l hl

lemma Shape.of_string {t : Token} (h : t.Shape) (hk : t.kind = .string) :
    ∃ quote body, (quote = '\'' ∨ quote = '"') ∧ t.text.toList = quote :: (body ++ [quote]) := by
  obtain ⟨kind, text, position⟩ := t
  dsimp only at hk ⊢
  generalize hcs : text.toList = cs
  rw [Shape, hcs, hk] at h
  cases h with
  | string hquote body => exact ⟨_, body, hquote, rfl⟩
  | symbol _ _ hstring _ => exact absurd rfl hstring

/-- Line feeds stand among blanks and in strings. -/
lemma Shape.of_newline {t : Token} (h : t.Shape) (hmem : '\n' ∈ t.text.toList) :
    t.kind = .whitespace ∨ t.kind = .string := by
  obtain ⟨kind, text, position⟩ := t
  dsimp only at hmem ⊢
  generalize hcs : text.toList = cs at hmem
  rw [Shape, hcs] at h
  cases h with
  | word hcs => exact absurd (hcs _ hmem) (by decide)
  | blanks hcs => exact .inl rfl
  | string hquote body => exact .inr rfl
  | symbol hword hblank hstring hc =>
    rw [← List.mem_singleton.1 hmem] at hc
    exact absurd hc (by decide)

end Token

/-! ## The text of a plain tag -/

namespace Text

/-- What stands between two characters that are no blanks is not trimmed away. -/
lemma mem_trim_of_between {c d x : Char} (hc : isBlank c = false) (hd : isBlank d = false)
    (a : List Char) {b : List Char} (e : List Char) (hx : x ∈ b) :
    x ∈ trim (a ++ (c :: (b ++ (d :: e)))) := by
  have hstart : trimStart (a ++ (c :: (b ++ (d :: e)))) =
      trimStart a ++ (c :: (b ++ (d :: e))) := by
    by_cases ha : trimStart a = []
    · rw [trimStart_append_of_blank ha, trimStart_eq_self_of_head hc, ha, List.nil_append]
    · exact trimStart_append_of_not_blank ha _
  have hne : trimStart (d :: e) ≠ [] := by
    rw [trimStart_eq_self_of_head hd]
    exact List.cons_ne_nil d e
  rw [trim, hstart, ← List.cons_append, ← List.append_assoc, trimEnd_append_of_not_blank hne]
  simp [hx]

lemma mem_of_mem_trim {cs : List Char} {c : Char} (h : c ∈ trim cs) : c ∈ cs := by
  have hfront : trim cs <+: trimStart cs := List.rdropWhile_prefix _ _
  exact (List.dropWhile_sublist _).mem (hfront.subset h)

lemma head?_trim {cs : List Char} {c : Char} (h : (trim cs).head? = some c) :
    isBlank c = false := by
  obtain ⟨rest, hrest⟩ : trim cs <+: trimStart cs := List.rdropWhile_prefix _ _
  have hhead : (trimStart cs).head? = some c := by
    rw [← hrest, List.head?_append, h]
    rfl
  have hnot := List.head?_dropWhile_not isBlank cs
  rw [← trimStart, hhead] at hnot
  simpa using hnot

lemma getLast?_trim {cs : List Char} {c : Char} (h : (trim cs).getLast? = some c) :
    isBlank c = false := by
  obtain ⟨hne, rfl⟩ := List.mem_getLast?_eq_getLast h
  have hlast := List.rdropWhile_last_not isBlank (trimStart cs) hne
  rw [Bool.not_eq_true] at hlast
  exact hlast

end Text

namespace Tag

/-- A plain tag stands among the tokens: an `@`, its name and the tokens of its value, which end
before the next tag, at the end of a line or at the end of all tokens. -/
def Written (ts : List Token) (name : String) (value : List Token) : Prop :=
  ∃ before sign word after, ts = before ++ sign :: word :: (value ++ after) ∧
    sign.kind = .atSign ∧ word.kind = .word ∧ word.text = name ∧ (∀ t ∈ value, isText t = true) ∧
      ∀ t ∈ after.head?, endsValue t = true

lemma Written.of_suffix {ts us : List Token} {name : String} {value : List Token}
    (h : Written us name value) (hsuffix : us <:+ ts) : Written ts name value := by
  obtain ⟨front, sign, word, after, rfl, hrest⟩ := h
  obtain ⟨before, rfl⟩ := hsuffix
  exact ⟨before ++ front, sign, word, after, (List.append_assoc ..).symm, hrest⟩

/-- A plain tag that is read stands among the tokens, and its text is that of its own tokens. -/
lemma Reads.exists_written {eof : Token} {ts : List Token} {tags : List Tag} {name text : String}
    (h : Reads eof ts tags) (hmem : .plain name text ∈ tags) :
    ∃ value, Written ts name value ∧ text = textOf value := by
  -- What is read behind a tag is a later part of the same tokens.
  have hlater : ∀ {ts us : List Token}, us <:+ ts →
      (∃ value, Written us name value ∧ text = textOf value) →
        ∃ value, Written ts name value ∧ text = textOf value := by
    rintro ts us hsuffix ⟨value, hvalue, htext⟩
    exact ⟨value, hvalue.of_suffix hsuffix, htext⟩
  induction h with
  | nil => cases hmem
  | lone => cases hmem
  | skip _ _ ih => exact hlater (List.suffix_cons ..) (ih hmem)
  | @typed t word opening ts rest args tags _ _ _ hargs _ ih =>
    rcases List.mem_cons.1 hmem with heq | hmem
    · cases heq
    · exact hlater (hargs.suffix.trans ⟨[t, word, opening], rfl⟩) (ih hmem)
  | @plain t word value after tags ht hword _ hvalue hafter _ ih =>
    rcases List.mem_cons.1 hmem with heq | hmem
    · obtain ⟨rfl, rfl⟩ := Tag.plain.inj heq
      exact ⟨value, ⟨[], t, word, after, rfl, ht, hword, rfl, hvalue, hafter⟩, rfl⟩
    · exact hlater ⟨t :: word :: value, rfl⟩ (ih hmem)
  | @list t word brace value ts rest es tags _ _ _ _ _ hlist _ ih =>
    rcases List.mem_cons.1 hmem with heq | hmem
    · cases heq
    · refine hlater (hlist.suffix.trans ⟨t :: word :: (value ++ [brace]), ?_⟩) (ih hmem)
      simp

/-- The text of a plain tag holds a line feed exactly if one of its tokens is a string that does. -/
lemma newline_mem_textOf_iff {value : List Token} (hshape : ∀ t ∈ value, t.Shape)
    (hvalue : ∀ t ∈ value, isText t = true) :
    '\n' ∈ (textOf value).toList ↔ ∃ t ∈ value, t.kind = .string ∧ '\n' ∈ t.text.toList := by
  rw [textOf, String.toList_ofList]
  constructor
  · intro hmem
    obtain ⟨t, ht, hnewline⟩ := List.mem_flatMap.1 (Text.mem_of_mem_trim hmem)
    refine ⟨t, ht, ((hshape t ht).of_newline hnewline).resolve_left fun hblank => ?_, hnewline⟩
    -- Blanks with a line feed would have ended the value.
    have htext := hvalue t ht
    simp [isText, endsValue, Token.hasNewline, hblank, hnewline] at htext
  · rintro ⟨t, ht, hstring, hnewline⟩
    obtain ⟨before, after, rfl⟩ := List.append_of_mem ht
    obtain ⟨quote, body, hquote, htext⟩ := (hshape t ht).of_string hstring
    have hblank : Text.isBlank quote = false := by
      rcases hquote with rfl | rfl <;> decide
    have hne : '\n' ≠ quote := by
      rintro rfl
      exact absurd hblank (by decide)
    have hbody : '\n' ∈ body := by
      rw [htext] at hnewline
      simpa [hne] using hnewline
    have hspelling := Text.mem_trim_of_between hblank hblank (Token.spelling before)
      (Token.spelling after) hbody
    rw [List.flatMap_append, List.flatMap_cons, htext]
    simpa [Token.spelling] using hspelling

end Tag

/-! ## Comments that are read -/

namespace Setting

variable {x : Setting} {c c' : Comment} {r r' : Reader}

/-- A text under a tag was there before, or the tag is a plain one with that text. -/
lemma text_of_tag {t : Tag} (h : x.tag c t r = (.ok c', r')) {name s : String}
    (hmem : (name, Value.str s) ∈ c'.tags) :
    (name, Value.str s) ∈ c.tags ∨ t = .plain name s ∧ s ≠ "" := by
  cases t with
  | plain tagName text =>
    cases h
    rcases Keyed.mem_put hmem with ⟨rfl, hvalue⟩ | hmem
    · split at hvalue
      · cases hvalue
      · next hne =>
        cases hvalue
        exact .inr ⟨rfl, by simpa using hne⟩
    · exact .inl hmem
  | list tagName es after =>
    rw [tag] at h
    obtain ⟨v, r₁, -, h⟩ := Run.bind_eq_ok h
    cases after with
    | some t => cases h
    | none =>
      cases h
      rcases Keyed.mem_put hmem with ⟨-, hvalue⟩ | hmem
      · cases hvalue
      · exact .inl hmem
  | typed tagName args =>
    rw [tag] at h
    obtain ⟨args, r₁, -, h⟩ := Run.bind_eq_ok h
    obtain ⟨⟨type, v⟩, r₂, -, h⟩ := Run.bind_eq_ok h
    cases h
    exact .inl hmem

lemma text_of_tags {ts : List Tag} (h : x.tags c ts r = (.ok c', r')) {name s : String}
    (hmem : (name, Value.str s) ∈ c'.tags) :
    (name, Value.str s) ∈ c.tags ∨ .plain name s ∈ ts ∧ s ≠ "" := by
  induction ts generalizing c r with
  | nil =>
    cases h
    exact .inl hmem
  | cons t ts ih =>
    rw [tags] at h
    obtain ⟨c₁, r₁, htag, h⟩ := Run.bind_eq_ok h
    rcases ih h with hmem | ⟨hmem, hne⟩
    · rcases text_of_tag htag hmem with hmem | ⟨rfl, hne⟩
      · exact .inl hmem
      · exact .inr ⟨List.mem_cons_self, hne⟩
    · exact .inr ⟨List.mem_cons_of_mem t hmem, hne⟩

end Setting

namespace Reader

/-- A text under a tag of a comment that was read is not empty and neither begins nor ends with a
blank.  It is the text of the tokens of a plain tag, which stand between its name and the next tag
or the end of a line; and it holds a line feed if and only if one of these tokens is a string that
does. -/
theorem plain_value_spans_lines_iff (w : World) (text : String) (placement : Placement)
    (scope : Scope) (r : Reader) (c : Comment) (h : (parse w text placement scope r).1 = .ok c)
    (name s : String) (hmem : (name, Value.str s) ∈ c.tags) :
    s ≠ "" ∧ (∀ a ∈ s.toList.head?, Text.isBlank a = false) ∧
    (∀ a ∈ s.toList.getLast?, Text.isBlank a = false) ∧
    ∃ tags value, (Text.splitSection (Text.bare text.toList)).2 = some tags ∧
      Tag.Written (Token.pieces tags) name value ∧ s = Tag.textOf value ∧
      ('\n' ∈ s.toList ↔ ∃ t ∈ value, t.kind = .string ∧ '\n' ∈ t.text.toList) := by
  have hrun : parse w text placement scope r = (.ok c, (parse w text placement scope r).2) :=
    Prod.ext h rfl
  rw [parse, readBlock, Run.bind_ok (Run.get_apply r), Setting.read] at hrun
  rcases hsplit : Text.splitSection (Text.bare text.toList) with ⟨before, _ | tags⟩
  · rw [hsplit] at hrun
    cases hrun
    cases hmem
  · rw [hsplit] at hrun
    obtain hmem | ⟨hplain, hne⟩ := Setting.text_of_tags hrun hmem
    · cases hmem
    · obtain ⟨value, hwritten, htext⟩ := (Tag.reads_parse _ _).exists_written hplain
      have hvalue := hwritten
      obtain ⟨front, sign, word, after, hpieces, -, -, -, hisText, -⟩ := hvalue
      have hshape : ∀ t ∈ value, t.Shape := by
        intro t ht
        refine @Token.shape_of_mem_locate 0 false tags t ?_
        rw [← Token.pieces, hpieces]
        simp [ht]
      have htrim : s.toList = Text.trim (Token.spelling value) := by
        rw [htext, Tag.textOf, String.toList_ofList, Token.spelling]
      refine ⟨hne, fun a ha => ?_, fun a ha => ?_, tags, value, rfl, hwritten, htext, ?_⟩
      · rw [htrim] at ha
        exact Text.head?_trim ha
      · rw [htrim] at ha
        exact Text.getLast?_trim ha
      · rw [htext]
        exact Tag.newline_mem_textOf_iff hshape hisText

/-- Two apostrophes make a string of all that stands between them, so the first tag takes the second
line and the tag on it. -/
theorem plain_value_spans_lines_iff_apostrophes :
    let text := "@author O'Brien\n@since it's old"
    let s := "O'Brien\n@since it's old"
    let c : Comment := { tags := [("author", .str s)] }
    (parse { modules := [], classes := [] } text .onClass [] (start [] true)).1 = .ok c ∧
    ∃ tags value, (Text.splitSection (Text.bare text.toList)).2 = some tags ∧
      Tag.Written (Token.pieces tags) "author" value ∧ s = Tag.textOf value ∧ '\n' ∈ s.toList ∧
      ∃ t ∈ value, t.kind = .string ∧ '\n' ∈ t.text.toList := by
  intro text s c
  let value : List Token :=
    [⟨.whitespace, " ", 7⟩, ⟨.word, "O", 8⟩, ⟨.string, "'Brien\n@since it'", 9⟩, ⟨.word, "s", 26⟩,
      ⟨.whitespace, " ", 27⟩, ⟨.word, "old", 28⟩]
  have hsplit : Text.splitSection (Text.bare text.toList) = ([], some text.toList) := by
    decide +kernel
  have hpieces : Token.pieces text.toList =
      ⟨.atSign, "@", 0⟩ :: ⟨.word, "author", 1⟩ :: (value ++ []) := by
    decide +kernel
  have htext : Tag.textOf value = s := by decide +kernel
  have hreads : Tag.Reads (Token.ending text.toList)
      (⟨.atSign, "@", 0⟩ :: ⟨.word, "author", 1⟩ :: (value ++ []))
      [.plain "author" (Tag.textOf value)] :=
    .plain rfl rfl (by decide +kernel) (by decide +kernel) (fun a ha => nomatch ha) .nil
  have htags : Tag.ofSection text.toList = [.plain "author" s] := by
    rw [Tag.ofSection, hpieces, hreads.parse_eq, htext]
  have hparse : (parse { modules := [], classes := [] } text .onClass [] (start [] true)).1 =
      .ok c := by
    rw [parse, readBlock, Run.bind_ok (Run.get_apply _), Setting.read, hsplit]
    dsimp only
    rw [Setting.scan, htags]
    rfl
  obtain ⟨-, -, -, tags, value', htags', hwritten, hs, hiff⟩ :=
    plain_value_spans_lines_iff _ text .onClass [] (start [] true) c hparse "author" s
      List.mem_cons_self
  have hnewline : '\n' ∈ s.toList := by decide
  exact ⟨hparse, tags, value', htags', hwritten, hs, hnewline, hiff.1 hnewline⟩

end Reader
end DocTags
