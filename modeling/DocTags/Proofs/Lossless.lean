import DocTags.Proofs.Tokens
import Mathlib.Algebra.GroupWithZero.Nat

/-!
# Tokens lose nothing

The lexer takes a text apart without leaving anything out.  At each position it either matches a
lexeme, which is a non-empty front part of the text (`match?_append`), or puts one character into a
word, so the lexemes of a text put together are the text (`flatMap_split`).  Positions are counted
along the lexemes, so they are where the tokens stand.

The main result is `tokenize_lossless`.
-/

namespace DocTags

namespace Lexeme

/-! ## What is matched -/

lemma match?_append {afterColon : Bool} {cs rest : List Char} {l : Lexeme}
    (h : match? afterColon cs = some (l, rest)) : l.chars ++ rest = cs := by
  cases found_of_match h with
  | string => rw [List.cons_append, List.append_assoc, List.singleton_append]
  | blanks => rw [List.cons_append, List.takeWhile_append_dropWhile]
  | colon => rfl
  | symbol => rfl

/-- The lexemes of a text are not empty, none is its end, and a string begins with a quote. -/
structure Proper (l : Lexeme) : Prop where
  ne_nil : l.chars ≠ []
  kind_ne_eof : l.kind ≠ .eof
  quoted : l.kind = .string → ∃ c ∈ l.chars, c = '\'' ∨ c = '"'

lemma proper_of_match {afterColon : Bool} {cs rest : List Char} {l : Lexeme}
    (h : match? afterColon cs = some (l, rest)) : Proper l := by
  cases found_of_match h with
  | string hquote => exact ⟨List.cons_ne_nil _ _, nofun, fun _ => ⟨_, List.mem_cons_self, hquote⟩⟩
  | blanks => exact ⟨List.cons_ne_nil _ _, nofun, nofun⟩
  | colon => exact ⟨List.cons_ne_nil _ _, nofun, nofun⟩
  | symbol hkind =>
    obtain ⟨-, heof, hstring, -⟩ := kind_of_ofSymbol? hkind
    exact ⟨List.cons_ne_nil _ _, heof, fun hk => absurd hk hstring⟩

/-! ## All lexemes of a text -/

lemma flatMap_consWord (c : Char) (ls : List Lexeme) :
    (consWord c ls).flatMap chars = c :: ls.flatMap chars := by
  unfold consWord
  split
  · rfl
  · rfl

/-- The lexemes of a text put together are the text. -/
lemma flatMap_split (afterColon : Bool) (cs : List Char) :
    (split afterColon cs).flatMap chars = cs := by
  fun_induction split afterColon cs with
  | case1 => rfl
  | case2 afterColon c tail l rest hmatch ih =>
    rw [List.flatMap_cons, ih, match?_append hmatch]
  | case3 afterColon c tail hmatch ih => rw [flatMap_consWord, ih]

lemma proper_of_mem_split (afterColon : Bool) (cs : List Char) :
    ∀ l ∈ split afterColon cs, Proper l :=
  forall_mem_split proper_of_match (fun _ => ⟨List.cons_ne_nil _ _, nofun, nofun⟩)
    (fun _ _ => ⟨List.cons_ne_nil _ _, nofun, nofun⟩) afterColon cs

end Lexeme

namespace Token

/-! ## Tokens and their positions -/

/-- The text that some tokens were taken from. -/
def spelling (ts : List Token) : List Char :=
  ts.flatMap fun t => t.text.toList

lemma spelling_append (before behind : List Token) :
    spelling (before ++ behind) = spelling before ++ spelling behind :=
  List.flatMap_append

lemma spelling_cons (t : Token) (ts : List Token) :
    spelling (t :: ts) = t.text.toList ++ spelling ts :=
  List.flatMap_cons

lemma spelling_locate (start : Nat) (ls : List Lexeme) :
    spelling (locate start ls) = ls.flatMap Lexeme.chars := by
  induction ls generalizing start with
  | nil => rfl
  | cons l ls ih => rw [locate, spelling_cons, ih, String.toList_ofList, List.flatMap_cons]

lemma spelling_pieces (text : List Char) : spelling (pieces text) = text := by
  rw [pieces, spelling_locate, Lexeme.flatMap_split]

/-- Each token comes from a lexeme of the same kind and text. -/
lemma exists_lexeme_of_mem_locate {start : Nat} {ls : List Lexeme} {t : Token}
    (h : t ∈ locate start ls) : ∃ l ∈ ls, t.kind = l.kind ∧ t.text.toList = l.chars := by
  induction ls generalizing start with
  | nil => cases h
  | cons l ls ih =>
    rw [locate, List.mem_cons] at h
    rcases h with rfl | h
    · exact ⟨l, List.mem_cons_self, rfl, String.toList_ofList⟩
    · obtain ⟨l', hl', hsame⟩ := ih h
      exact ⟨l', List.mem_cons_of_mem l hl', hsame⟩

lemma exists_lexeme_of_mem_pieces {text : List Char} {t : Token} (h : t ∈ pieces text) :
    ∃ l, Lexeme.Proper l ∧ t.kind = l.kind ∧ t.text.toList = l.chars := by
  obtain ⟨l, hl, hsame⟩ := exists_lexeme_of_mem_locate h
  exact ⟨l, Lexeme.proper_of_mem_split false text l hl, hsame⟩

lemma position_of_locate_eq {start : Nat} {ls : List Lexeme} {before after : List Token} {t : Token}
    (h : locate start ls = before ++ t :: after) :
    t.position = start + (spelling before).length := by
  induction before generalizing start ls with
  | nil =>
    cases ls with
    | nil => cases h
    | cons l ls =>
      rw [locate, List.nil_append] at h
      obtain ⟨rfl, -⟩ := List.cons.inj h
      rfl
  | cons b before ih =>
    cases ls with
    | nil => cases h
    | cons l ls =>
      rw [locate, List.cons_append] at h
      obtain ⟨rfl, hrest⟩ := List.cons.inj h
      rw [ih hrest, spelling_cons, String.toList_ofList, List.length_append, Nat.add_assoc]

/-- A token stands behind the text of the tokens before it; this holds of the last one too. -/
lemma position_of_tokenize_eq {text : String} {before after : List Token} {t : Token}
    (h : tokenize text = before ++ t :: after) : t.position = (spelling before).length := by
  rcases List.eq_nil_or_concat after with rfl | ⟨after, last, rfl⟩
  · obtain ⟨rfl, hlast⟩ := List.append_inj' h rfl
    obtain ⟨rfl, -⟩ := List.cons.inj hlast
    rw [spelling_pieces]
    rfl
  · rw [List.concat_eq_append, ← List.cons_append, ← List.append_assoc] at h
    obtain ⟨hpieces, -⟩ := List.append_inj' h rfl
    rw [position_of_locate_eq hpieces, Nat.zero_add]

lemma spelling_tokenize (text : String) : spelling (tokenize text) = text.toList := by
  rw [tokenize, spelling_append, spelling_pieces]
  exact List.append_nil _

/-- The tokens of a text end with its end, which stands once and behind all characters.  The other
tokens are not empty, the texts of the tokens in order are the text, and each token stands where its
text was taken from. -/
theorem tokenize_lossless (text : String) :
    (∃ ts, tokenize text = ts ++ [⟨.eof, "", text.length⟩] ∧
      ∀ t ∈ ts, t.kind ≠ .eof ∧ t.text ≠ "") ∧
    String.join ((tokenize text).map Token.text) = text ∧
    ∀ before t after, tokenize text = before ++ t :: after →
      t.position = (before.map fun b => b.text.length).sum ∧
      (text.toList.drop t.position).take t.text.length = t.text.toList := by
  refine ⟨⟨pieces text.toList, rfl, fun t ht => ?_⟩, ?_, fun before t after h => ?_⟩
  · obtain ⟨l, hl, hkind, htext⟩ := exists_lexeme_of_mem_pieces ht
    refine ⟨hkind ▸ hl.kind_ne_eof, fun hempty => hl.ne_nil ?_⟩
    rw [← htext, hempty]
    rfl
  · rw [← String.toList_inj, String.toList_join, List.flatMap_map]
    exact spelling_tokenize text
  · have hposition := position_of_tokenize_eq h
    have htext := spelling_tokenize text
    rw [h, spelling_append, spelling_cons] at htext
    refine ⟨?_, ?_⟩
    · rw [hposition, spelling, List.length_flatMap]
      rfl
    · rw [hposition, ← htext, List.drop_left, ← String.length_toList, List.take_left]

end Token
end DocTags
