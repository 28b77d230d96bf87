import DocTags.Text.Blank
import DocTags.Token

/-!
# Splitting a section into tokens

At each position the lexer looks for, in this order, a terminated string literal, a run of
whitespace, a colon that stands alone and a symbol.  A character at which none of them begins
belongs to a word.  No text is refused: a quote that is never closed is part of a word, and what is
wrong with it is for the reader of the tokens to say.

The work is done on lexemes, pieces of text with a kind, and positions are added at the end.
-/

namespace DocTags

theorem length_dropWhile_le {α : Type} (p : α → Bool) (xs : List α) :
    (xs.dropWhile p).length ≤ xs.length :=
  (List.dropWhile_sublist p).length_le

/-- A piece of the text and its kind. -/
structure Lexeme where
  kind : TokenKind
  chars : List Char
  deriving DecidableEq, Repr

namespace Lexeme

/-- Reads the rest of a string literal after its opening quote: the characters up to and with the
closing quote, and what follows.  A backslash protects the next character, which must not be a line
feed. -/
def closeString? (quote : Char) : List Char → Option (List Char × List Char)
  | [] => none
  | '\\' :: cs =>
    match cs with
    | [] => none
    | d :: cs =>
      if d == '\n' then none
      else (closeString? quote cs).map fun (body, rest) => ('\\' :: d :: body, rest)
  | c :: cs =>
    if c == quote then some ([c], cs)
    else (closeString? quote cs).map fun (body, rest) => (c :: body, rest)

/-- The lexeme, other than a word, that begins at the head of the text, with the text after it.
`afterColon` tells whether the character before the head is a colon. -/
def match? (afterColon : Bool) : List Char → Option (Lexeme × List Char)
  | [] => none
  | c :: cs =>
    if c == '\'' || c == '"' then
      (closeString? c cs).map fun (body, rest) => (⟨.string, c :: body⟩, rest)
    else if Text.isBlank c then
      some (⟨.whitespace, c :: cs.takeWhile Text.isBlank⟩, cs.dropWhile Text.isBlank)
    else if c == ':' then
      if afterColon || cs.head? == some ':' then none else some (⟨.colon, [c]⟩, cs)
    else (TokenKind.ofSymbol? c).map fun kind => (⟨kind, [c]⟩, cs)

/-- Puts one more character in front of a list of lexemes, as part of a word. -/
def consWord (c : Char) : List Lexeme → List Lexeme
  | ⟨.word, cs⟩ :: rest => ⟨.word, c :: cs⟩ :: rest
  | rest => ⟨.word, [c]⟩ :: rest

theorem closeString?_length {quote : Char} {cs body rest : List Char}
    (h : closeString? quote cs = some (body, rest)) : rest.length < cs.length := by
  fun_induction closeString? quote cs generalizing body rest with
  | case1 => simp at h
  | case2 => simp at h
  | case3 => simp at h
  | case4 d cs hd ih =>
    obtain ⟨⟨b, r⟩, hb, hr⟩ := Option.map_eq_some_iff.1 h
    have := ih hb
    simp only [Prod.mk.injEq] at hr
    simp only [List.length_cons, ← hr.2]
    omega
  | case5 c cs _ hc =>
    simp only [Option.some.injEq, Prod.mk.injEq] at h
    simp [← h.2]
  | case6 c cs _ hc ih =>
    obtain ⟨⟨b, r⟩, hb, hr⟩ := Option.map_eq_some_iff.1 h
    have := ih hb
    simp only [Prod.mk.injEq] at hr
    simp only [List.length_cons, ← hr.2]
    omega

/-- What follows a lexeme is shorter than what it was found in. -/
theorem match?_length {afterColon : Bool} {cs : List Char} {l : Lexeme} {rest : List Char}
    (h : match? afterColon cs = some (l, rest)) : rest.length < cs.length := by
  cases cs with
  | nil => simp [match?] at h
  | cons c cs =>
    simp only [match?] at h
    split at h
    · obtain ⟨⟨b, r⟩, hb, hr⟩ := Option.map_eq_some_iff.1 h
      have := closeString?_length hb
      simp only [Prod.mk.injEq] at hr
      simp only [List.length_cons, ← hr.2]
      omega
    · split at h
      · simp only [Option.some.injEq, Prod.mk.injEq] at h
        have := length_dropWhile_le Text.isBlank cs
        simp only [List.length_cons, ← h.2]
        omega
      · split at h
        · split at h
          · simp at h
          · simp only [Option.some.injEq, Prod.mk.injEq] at h
            simp [← h.2]
        · obtain ⟨k, _, hk⟩ := Option.map_eq_some_iff.1 h
          simp only [Prod.mk.injEq] at hk
          simp [← hk.2]

/-- Splits a text into lexemes.  `afterColon` tells whether the character before the text is a
colon; behind a lexeme that is no word this makes no difference, since no colon follows a lone
one. -/
def split (afterColon : Bool) (cs : List Char) : List Lexeme :=
  match cs with
  | [] => []
  | c :: tail =>
    match _ : match? afterColon (c :: tail) with
    | some (l, rest) => l :: split false rest
    | none => consWord c (split (c == ':') tail)
  termination_by cs.length
  decreasing_by
    · apply match?_length; assumption
    · simp

end Lexeme

namespace Token

/-- Gives each lexeme its position, counting from `start`. -/
def locate (start : Nat) : List Lexeme → List Token
  | [] => []
  | l :: ls => ⟨l.kind, String.ofList l.chars, start⟩ :: locate (start + l.chars.length) ls

/-- The tokens of a text, without the final one. -/
def pieces (text : List Char) : List Token :=
  locate 0 (Lexeme.split false text)

/-- The token that stands at the end of a text. -/
def ending (text : List Char) : Token :=
  ⟨.eof, "", text.length⟩

/-- The tokens of a text; the last one is its end. -/
def tokenize (text : String) : List Token :=
  pieces text.toList ++ [ending text.toList]

end Token
end DocTags
