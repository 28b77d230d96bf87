import DocTags.Token.Lexer
import Mathlib.Tactic.Common

/-!
# What the lexer finds at the head of a text

Each step of the lexer looks at the head of the text that is left.  Either it finds a lexeme there
and goes on behind it (`split_of_match`), or it finds none and the first character belongs to a word
(`split_of_none`).

`Found` says which lexemes are found and what is behind them.  A string literal is `Enclosed` in
two quotes of one kind, and a quote that nothing `Closes` is part of a word.  The lexer finds what
`Found` says (`match?_eq_some_iff`), and `match?_eq_none_iff` tells where it finds nothing.  With
`forall_mem_split`, what is said of single steps is said of all lexemes of a text.
-/

namespace DocTags

namespace Lexeme

/-! ## One step -/

lemma split_of_match {afterColon : Bool} {cs rest : List Char} {l : Lexeme}
    (h : match? afterColon cs = some (l, rest)) :
    split afterColon cs = l :: split false rest := by
  cases cs with
  | nil => simp [match?] at h
  | cons c tail =>
    rw [split]
    split
    · rename_i l' rest' h'
      rw [h] at h'
      obtain ⟨rfl, rfl⟩ := Prod.mk.inj (Option.some.inj h')
      rfl
    · rename_i h'
      rw [h] at h'
      exact absurd h' (by simp)

lemma split_of_none {afterColon : Bool} {c : Char} {tail : List Char}
    (h : match? afterColon (c :: tail) = none) :
    split afterColon (c :: tail) = consWord c (split (c == ':') tail) := by
  rw [split]
  split
  · rename_i l' rest' h'
    rw [h] at h'
    exact absurd h' (by simp)
  · rfl

/-! ## String literals -/

/-- What can stand between two quotes of one kind.  A backslash stands in a pair with the character
behind it, which is no line feed, and outside such pairs there is no quote of that kind. -/
inductive Enclosed (quote : Char) : List Char → Prop
  | nil : Enclosed quote []
  | plain {c : Char} {cs : List Char} (hquote : c ≠ quote) (hslash : c ≠ '\\')
      (h : Enclosed quote cs) : Enclosed quote (c :: cs)
  | pair {d : Char} {cs : List Char} (hd : d ≠ '\n') (h : Enclosed quote cs) :
      Enclosed quote ('\\' :: d :: cs)

/-- The text closes a string that was opened before it. -/
def Closes (quote : Char) (cs : List Char) : Prop :=
  ∃ inner rest, Enclosed quote inner ∧ cs = inner ++ quote :: rest

section Literals

variable {quote : Char} {inner cs body rest more : List Char}

lemma Enclosed.of_not_mem (hquote : quote ∉ inner) (hslash : '\\' ∉ inner) :
    Enclosed quote inner := by
  induction inner with
  | nil => exact .nil
  | cons c inner ih =>
    rw [List.mem_cons, not_or] at hquote hslash
    exact .plain (Ne.symm hquote.1) (Ne.symm hslash.1) (ih hquote.2 hslash.2)

lemma enclosed_of_closeString? (h : closeString? quote cs = some (body, rest)) :
    ∃ inner, Enclosed quote inner ∧ body = inner ++ [quote] ∧ cs = inner ++ quote :: rest := by
  fun_induction closeString? quote cs generalizing body rest with
  | case1 => cases h
  | case2 => cases h
  | case3 => cases h
  | case4 d cs hd ih =>
    obtain ⟨⟨body', rest'⟩, hclose, hpair⟩ := Option.map_eq_some_iff.1 h
    obtain ⟨rfl, rfl⟩ := Prod.mk.inj hpair
    obtain ⟨inner, hinner, rfl, rfl⟩ := ih hclose
    exact ⟨'\\' :: d :: inner, .pair (by simpa using hd) hinner, rfl, rfl⟩
  | case5 c cs _ hc =>
    obtain ⟨rfl, rfl⟩ := Prod.mk.inj (Option.some.inj h)
    obtain rfl := eq_of_beq hc
    exact ⟨[], .nil, rfl, rfl⟩
  | case6 c cs hslash hc ih =>
    obtain ⟨⟨body', rest'⟩, hclose, hpair⟩ := Option.map_eq_some_iff.1 h
    obtain ⟨rfl, rfl⟩ := Prod.mk.inj hpair
    obtain ⟨inner, hinner, rfl, rfl⟩ := ih hclose
    exact ⟨c :: inner, .plain (by simpa using hc) hslash hinner, rfl, rfl⟩

/-- The first quote outside pairs closes a string. -/
lemma Enclosed.closeString? (h : Enclosed quote inner) (hquote : quote ≠ '\\') (rest : List Char) :
    Lexeme.closeString? quote (inner ++ quote :: rest) = some (inner ++ [quote], rest) := by
  induction h with
  | nil =>
    rw [List.nil_append, Lexeme.closeString?, if_pos (beq_self_eq_true quote)]
    · rfl
    · exact hquote
  | @plain c cs hc hslash _ ih =>
    rw [List.cons_append, Lexeme.closeString?, if_neg (by simpa using hc), ih]
    · rfl
    · exact hslash
  | @pair d cs hd _ ih =>
    rw [List.cons_append, List.cons_append, Lexeme.closeString?, if_neg (by simpa using hd), ih]
    rfl

lemma closeString?_eq_none_iff (hquote : quote ≠ '\\') :
    closeString? quote cs = none ↔ ¬ Closes quote cs := by
  constructor
  · rintro h ⟨inner, rest, hinner, rfl⟩
    rw [hinner.closeString? hquote] at h
    cases h
  · intro h
    cases hclose : closeString? quote cs with
    | none => rfl
    | some found =>
      obtain ⟨inner, hinner, -, hcs⟩ := enclosed_of_closeString? hclose
      exact absurd ⟨inner, found.2, hinner, hcs⟩ h

/-- A string that is open at the end of a text stays open if its quote does not follow. -/
lemma Closes.of_append (h : Closes quote (cs ++ more)) (hmore : quote ∉ more) :
    Closes quote cs := by
  obtain ⟨inner, rest, hinner, heq⟩ := h
  rcases List.append_eq_append_iff.1 heq with ⟨between, rfl, rfl⟩ | ⟨between, rfl, hbetween⟩
  · exact absurd (List.mem_append_right between List.mem_cons_self) hmore
  · cases between with
    | nil =>
      rw [List.nil_append] at hbetween
      exact absurd (hbetween ▸ List.mem_cons_self) hmore
    | cons c between =>
      obtain ⟨rfl, -⟩ := List.cons.inj hbetween
      exact ⟨inner, between, hinner, rfl⟩

lemma ne_backslash_of_quote (h : quote = '\'' ∨ quote = '"') : quote ≠ '\\' := by
  rcases h with rfl | rfl <;> decide

end Literals

/-! ## Symbols -/

section Symbols

variable {c : Char} {kind : TokenKind}

lemma ofSymbol?_eq_none_iff :
    TokenKind.ofSymbol? c = none ↔ c ∉ ['@', '(', ')', ',', '=', '{', '}'] := by
  unfold TokenKind.ofSymbol?
  split <;> simp_all

lemma kind_of_ofSymbol? (h : TokenKind.ofSymbol? c = some kind) :
    kind ≠ .word ∧ kind ≠ .eof ∧ kind ≠ .string ∧ kind ≠ .whitespace := by
  unfold TokenKind.ofSymbol? at h
  split at h <;> cases h <;> decide

lemma char_of_ofSymbol? (h : TokenKind.ofSymbol? c = some kind) :
    c ≠ '\'' ∧ c ≠ '"' ∧ Text.isBlank c = false ∧ c ≠ ':' := by
  unfold TokenKind.ofSymbol? at h
  split at h <;> cases h <;> decide

end Symbols

/-! ## What is found -/

/-- The lexemes that can be found at the head of a text, each with the text behind it. -/
inductive Found (afterColon : Bool) : List Char → Lexeme → List Char → Prop
  | string {quote : Char} {inner : List Char} (hquote : quote = '\'' ∨ quote = '"')
      (h : Enclosed quote inner) (rest : List Char) :
      Found afterColon (quote :: (inner ++ quote :: rest)) ⟨.string, quote :: (inner ++ [quote])⟩
        rest
  | blanks {c : Char} (h : Text.isBlank c = true) (tail : List Char) :
      Found afterColon (c :: tail) ⟨.whitespace, c :: tail.takeWhile Text.isBlank⟩
        (tail.dropWhile Text.isBlank)
  | colon {rest : List Char} (hbefore : afterColon = false) (hbehind : rest.head? ≠ some ':') :
      Found afterColon (':' :: rest) ⟨.colon, [':']⟩ rest
  | symbol {c : Char} {kind : TokenKind} (h : TokenKind.ofSymbol? c = some kind)
      (rest : List Char) : Found afterColon (c :: rest) ⟨kind, [c]⟩ rest

section Steps

variable {afterColon : Bool} {c : Char} {cs tail rest : List Char} {l : Lexeme}

lemma found_of_match (h : match? afterColon cs = some (l, rest)) : Found afterColon cs l rest := by
  cases cs with
  | nil => cases h
  | cons c tail =>
    rw [match?] at h
    split at h
    · next hquote =>
      obtain ⟨⟨body, behind⟩, hclose, hpair⟩ := Option.map_eq_some_iff.1 h
      obtain ⟨rfl, rfl⟩ := Prod.mk.inj hpair
      obtain ⟨inner, hinner, rfl, rfl⟩ := enclosed_of_closeString? hclose
      exact .string (by simpa using hquote) hinner behind
    · split at h
      · next hblank =>
        obtain ⟨rfl, rfl⟩ := Prod.mk.inj (Option.some.inj h)
        exact .blanks hblank tail
      · split at h
        · next hcolon =>
          obtain rfl := eq_of_beq hcolon
          split at h
          · cases h
          · next halone =>
            obtain ⟨rfl, rfl⟩ := Prod.mk.inj (Option.some.inj h)
            rw [Bool.or_eq_true, beq_iff_eq, not_or, Bool.not_eq_true] at halone
            exact .colon halone.1 halone.2
        · obtain ⟨kind, hkind, hpair⟩ := Option.map_eq_some_iff.1 h
          obtain ⟨rfl, rfl⟩ := Prod.mk.inj hpair
          exact .symbol hkind tail

lemma Found.match? (h : Found afterColon cs l rest) :
    Lexeme.match? afterColon cs = some (l, rest) := by
  cases h with
  | string hquote h =>
    rw [Lexeme.match?, if_pos (by simpa using hquote),
      h.closeString? (ne_backslash_of_quote hquote)]
    rfl
  | @blanks c h tail =>
    have hsingle : c ≠ '\'' := by
      rintro rfl
      exact absurd h (by decide)
    have hdouble : c ≠ '"' := by
      rintro rfl
      exact absurd h (by decide)
    simp [Lexeme.match?, hsingle, hdouble, h]
  | colon hbefore hbehind =>
    have hblank : Text.isBlank ':' = false := by decide
    simp [Lexeme.match?, hblank, hbefore, hbehind]
  | symbol h =>
    obtain ⟨hsingle, hdouble, hblank, hcolon⟩ := char_of_ofSymbol? h
    simp [Lexeme.match?, hsingle, hdouble, hblank, hcolon, h]

lemma match?_eq_some_iff : match? afterColon cs = some (l, rest) ↔ Found afterColon cs l rest :=
  ⟨found_of_match, Found.match?⟩

/-- Nothing is found at a quote that is not closed, at a colon next to another one and at the
characters that have no meaning of their own. -/
lemma match?_eq_none_iff :
    match? afterColon (c :: tail) = none ↔
      ((c = '\'' ∨ c = '"') → ¬ Closes c tail) ∧ Text.isBlank c = false ∧
      (c = ':' → afterColon = true ∨ tail.head? = some ':') ∧ TokenKind.ofSymbol? c = none := by
  by_cases hquote : c = '\'' ∨ c = '"'
  · have hrest : Text.isBlank c = false ∧ c ≠ ':' ∧ TokenKind.ofSymbol? c = none := by
      rcases hquote with rfl | rfl <;> decide
    have hmatch : match? afterColon (c :: tail) = none ↔ closeString? c tail = none := by
      simp [match?, hquote]
    rw [hmatch, closeString?_eq_none_iff (ne_backslash_of_quote hquote)]
    simp [hquote, hrest]
  · rw [match?, if_neg (by simpa using hquote)]
    by_cases hblank : Text.isBlank c = true
    · simp [hblank]
    · by_cases hcolon : c = ':'
      · subst hcolon
        cases afterColon <;> simp [TokenKind.ofSymbol?, hblank]
      · simp [hquote, hblank, hcolon]

/-- The lexer never takes a word at once; words are what is left between other lexemes. -/
lemma kind_ne_word_of_match (h : match? afterColon cs = some (l, rest)) : l.kind ≠ .word := by
  cases found_of_match h with
  | string => exact nofun
  | blanks => exact nofun
  | colon => exact nofun
  | symbol hkind => exact (kind_of_ofSymbol? hkind).1

end Steps

/-! ## All lexemes of a text -/

section All

variable {p : Lexeme → Prop}

/-- What holds of the lexemes that are found, of words of one character and of words with one more
character in front holds of all lexemes of a text. -/
lemma forall_mem_split
    (hfound : ∀ {b : Bool} {cs rest : List Char} {l : Lexeme}, match? b cs = some (l, rest) → p l)
    (hbegin : ∀ {b : Bool} {c : Char} {tail : List Char}, match? b (c :: tail) = none →
      p ⟨.word, [c]⟩)
    (hextend : ∀ {b : Bool} {c : Char} {tail cs : List Char}, match? b (c :: tail) = none →
      p ⟨.word, cs⟩ → p ⟨.word, c :: cs⟩)
    (afterColon : Bool) (cs : List Char) : ∀ l ∈ split afterColon cs, p l := by
  fun_induction split afterColon cs with
  | case1 => exact fun l hl => absurd hl List.not_mem_nil
  | case2 afterColon c tail l rest hmatch ih =>
    exact List.forall_mem_cons.2 ⟨hfound hmatch, ih⟩
  | case3 afterColon c tail hmatch ih =>
    unfold consWord
    split
    · next cs ls hsplit =>
      rw [hsplit, List.forall_mem_cons] at ih
      exact List.forall_mem_cons.2 ⟨hextend hmatch ih.1, ih.2⟩
    · exact List.forall_mem_cons.2 ⟨hbegin hmatch, ih⟩

end All

end Lexeme
end DocTags
