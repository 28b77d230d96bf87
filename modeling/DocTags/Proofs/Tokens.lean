import DocTags.Proofs.Lexemes
import DocTags.Text.Letter

/-!
# The tokens of a text, piece by piece

A text that begins with a piece whose end is plain to see has the tokens of that piece first and
those of the remaining text after them.  This file states that fact once for each sort of piece: a
run of blanks, a symbol, a lone colon, a string without escapes and a word.  Statements about a
whole notation are then put together from these without a look into the lexer.

`Token.tokensFrom start text` stands for the tokens of `text` with positions that count from
`start`. A word needs its end marked, by the end of the text or by a lexeme of another kind:
`Delimited` says so of the text behind it.
-/

namespace DocTags

namespace Text

lemma isAlpha_range {c : Char} (h : c.isAlpha = true) :
    65 ≤ c.toNat ∧ c.toNat ≤ 90 ∨ 97 ≤ c.toNat ∧ c.toNat ≤ 122 := by
  have hr : (decide (c.val ≥ 'A'.val ∧ c.val ≤ 'Z'.val) ||
      decide (c.val ≥ 'a'.val) && decide (c.val ≤ 'z'.val)) = true := h
  simp only [Bool.or_eq_true, Bool.and_eq_true, decide_eq_true_eq, UInt32.le_iff_toNat_le,
    ge_iff_le] at hr
  exact hr

lemma isDigit_range {c : Char} (h : c.isDigit = true) : 48 ≤ c.toNat ∧ c.toNat ≤ 57 := by
  have hr : (decide (c.val ≥ '0'.val) && decide (c.val ≤ '9'.val)) = true := h
  simp only [Bool.and_eq_true, decide_eq_true_eq, UInt32.le_iff_toNat_le, ge_iff_le] at hr
  exact hr

/-- The blanks beyond ASCII are no letters: one look at the table for each of them. -/
lemma letterRanges_blank : ∀ n ∈ [0x85, 0xa0, 0x1680, 0x2000, 0x2001, 0x2002, 0x2003, 0x2004,
    0x2005, 0x2006, 0x2007, 0x2008, 0x2009, 0x200a, 0x2028, 0x2029, 0x202f, 0x205f, 0x3000],
    (letterRanges.any fun r => r.1 ≤ n && n ≤ r.2) = false := by
  decide +kernel

lemma isBlank_eq_false_of_isLetter {c : Char} (h : isLetter c = true) : isBlank c = false := by
  by_contra hb
  simp only [isBlank, Bool.not_eq_false, Bool.or_eq_true, Bool.and_eq_true, decide_eq_true_eq,
    beq_iff_eq] at hb
  unfold isLetter at h
  split at h
  · have := isAlpha_range h
    omega
  · rename_i hlt
    have hmem : c.toNat ∈ [0x85, 0xa0, 0x1680, 0x2000, 0x2001, 0x2002, 0x2003, 0x2004, 0x2005,
        0x2006, 0x2007, 0x2008, 0x2009, 0x200a, 0x2028, 0x2029, 0x202f, 0x205f, 0x3000] := by
      simp only [List.mem_cons, List.not_mem_nil, or_false]
      omega
    rw [letterRanges_blank _ hmem] at h
    exact Bool.false_ne_true h

end Text

namespace Lexeme

/-! ## One lexeme at a time -/

/-- `true` on the characters that can only be part of a word. -/
def isInert (c : Char) : Bool :=
  c != '\'' && c != '"' && !Text.isBlank c && c != ':' && (TokenKind.ofSymbol? c).isNone

/-- Nothing that could go on with a word stands at the head of the text. -/
def Delimited (cs : List Char) : Prop :=
  cs = [] ∨ (match? false cs).isSome

lemma match?_inert {afterColon : Bool} {c : Char} (tail : List Char) (h : isInert c = true) :
    match? afterColon (c :: tail) = none := by
  simp only [isInert, Bool.and_eq_true, bne_iff_ne, ne_eq, Bool.not_eq_true',
    Option.isNone_iff_eq_none] at h
  obtain ⟨⟨⟨⟨hsingle, hdouble⟩, hblank⟩, hcolon⟩, hsymbol⟩ := h
  exact match?_eq_none_iff.2 ⟨fun hquote => absurd hquote (not_or.2 ⟨hsingle, hdouble⟩), hblank,
    fun hc => absurd hc hcolon, hsymbol⟩

/-- In front of a delimiter a character makes a word of its own. -/
lemma consWord_split {rest : List Char} (h : Delimited rest) (c : Char) :
    consWord c (split false rest) = ⟨.word, [c]⟩ :: split false rest := by
  rcases h with rfl | h
  · simp [split, consWord]
  · obtain ⟨⟨l, r⟩, hl⟩ := Option.isSome_iff_exists.1 h
    rw [split_of_match hl]
    have hne := kind_ne_word_of_match hl
    unfold consWord
    split
    · rename_i heq
      simp only [List.cons.injEq] at heq
      rw [heq.1] at hne
      exact absurd rfl hne
    · rfl

lemma split_word {word : List Char} (hne : word ≠ []) (hw : ∀ c ∈ word, isInert c = true)
    {rest : List Char} (hr : Delimited rest) (afterColon : Bool) :
    split afterColon (word ++ rest) = ⟨.word, word⟩ :: split false rest := by
  induction word generalizing afterColon with
  | nil => exact absurd rfl hne
  | cons c word ih =>
    have hc := hw c (by simp)
    have hcolon : (c == ':') = false := by
      simp only [isInert, Bool.and_eq_true, bne_iff_ne] at hc
      simp [hc.1.2]
    rw [List.cons_append, split_of_none (match?_inert _ hc), hcolon]
    cases word with
    | nil => exact consWord_split hr c
    | cons d word =>
      rw [ih (by simp) (fun x hx => hw x (by simp [hx])) false]
      rfl

/-! ## Letters and digits make words -/

/-- The characters that have a meaning of their own. -/
def marks : List Char :=
  ['\'', '"', ':', '@', '(', ')', ',', '=', '{', '}']

lemma isInert_iff {c : Char} : isInert c = true ↔ Text.isBlank c = false ∧ c ∉ marks := by
  rw [isInert, marks]
  simp only [Bool.and_eq_true, bne_iff_ne, Bool.not_eq_true', Option.isNone_iff_eq_none,
    ofSymbol?_eq_none_iff, List.mem_cons]
  tauto

/-- The characters of a class are parts of words if neither blanks nor marks belong to it. -/
lemma isInert_of_class {p : Char → Bool} (hp : (marks.all fun d => !p d) = true) {c : Char}
    (hblank : Text.isBlank c = false) (h : p c = true) : isInert c = true := by
  refine isInert_iff.2 ⟨hblank, fun hc => ?_⟩
  have hnot := List.all_eq_true.1 hp c hc
  rw [h] at hnot
  cases hnot

lemma isInert_of_isLetter {c : Char} (h : Text.isLetter c = true) : isInert c = true :=
  isInert_of_class (by rfl) (Text.isBlank_eq_false_of_isLetter h) h

lemma isInert_of_isDigit {c : Char} (h : c.isDigit = true) : isInert c = true := by
  have hrange := Text.isDigit_range h
  have hblank : Text.isBlank c = false := by
    simp only [Text.isBlank, Bool.or_eq_false_iff, Bool.and_eq_false_iff, decide_eq_false_iff_not,
      beq_eq_false_iff_ne]
    omega
  exact isInert_of_class (by rfl) hblank h

end Lexeme

namespace Token

/-! ## Tokens behind a prefix -/

/-- The tokens of a text that stands behind `start` other characters. -/
def tokensFrom (start : Nat) (text : List Char) : List Token :=
  locate start (Lexeme.split false text)

lemma pieces_eq_tokensFrom (text : List Char) : pieces text = tokensFrom 0 text := rfl

lemma tokensFrom_nil (start : Nat) : tokensFrom start [] = [] := by
  rw [tokensFrom, Lexeme.split]
  rfl

lemma tokensFrom_of_match {text rest : List Char} {l : Lexeme}
    (h : Lexeme.match? false text = some (l, rest)) (start : Nat) :
    tokensFrom start text =
      ⟨l.kind, String.ofList l.chars, start⟩ :: tokensFrom (start + l.chars.length) rest := by
  rw [tokensFrom, Lexeme.split_of_match h]
  rfl

lemma match?_symbol {c : Char} {kind : TokenKind} (h : TokenKind.ofSymbol? c = some kind)
    (rest : List Char) : Lexeme.match? false (c :: rest) = some (⟨kind, [c]⟩, rest) :=
  (Lexeme.Found.symbol h rest).match?

lemma tokensFrom_symbol {c : Char} {kind : TokenKind} (h : TokenKind.ofSymbol? c = some kind)
    (start : Nat) (rest : List Char) :
    tokensFrom start (c :: rest) =
      ⟨kind, String.ofList [c], start⟩ :: tokensFrom (start + 1) rest :=
  tokensFrom_of_match (match?_symbol h rest) start

lemma match?_colon {rest : List Char} (h : rest.head? ≠ some ':') :
    Lexeme.match? false (':' :: rest) = some (⟨.colon, [':']⟩, rest) :=
  (Lexeme.Found.colon rfl h).match?

lemma tokensFrom_colon {rest : List Char} (h : rest.head? ≠ some ':') (start : Nat) :
    tokensFrom start (':' :: rest) =
      ⟨.colon, String.ofList [':'], start⟩ :: tokensFrom (start + 1) rest :=
  tokensFrom_of_match (match?_colon h) start

lemma match?_blank {c : Char} (h : Text.isBlank c = true) (rest : List Char) :
    Lexeme.match? false (c :: rest) =
      some (⟨.whitespace, c :: rest.takeWhile Text.isBlank⟩, rest.dropWhile Text.isBlank) :=
  (Lexeme.Found.blanks h rest).match?

lemma tokensFrom_word {word rest : List Char} (hne : word ≠ [])
    (hw : ∀ c ∈ word, Lexeme.isInert c = true) (hr : Lexeme.Delimited rest) (start : Nat) :
    tokensFrom start (word ++ rest) =
      ⟨.word, String.ofList word, start⟩ :: tokensFrom (start + word.length) rest := by
  rw [tokensFrom, Lexeme.split_word hne hw hr]
  rfl

/-- Strings are taken whole, whatever they hold, if they have no escapes. -/
lemma tokensFrom_string {quote : Char} (hquote : quote = '\'' ∨ quote = '"') {body : List Char}
    (hq : quote ∉ body) (hb : '\\' ∉ body) (rest : List Char) (start : Nat) :
    tokensFrom start (quote :: (body ++ quote :: rest)) =
      ⟨.string, String.ofList (quote :: (body ++ [quote])), start⟩ ::
        tokensFrom (start + (body.length + 2)) rest := by
  rw [tokensFrom_of_match (Lexeme.Found.string hquote (.of_not_mem hq hb) rest).match?]
  simp

end Token
end DocTags
