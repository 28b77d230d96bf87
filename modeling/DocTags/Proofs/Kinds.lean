import DocTags.Proofs.LineFeeds
import Mathlib.Data.List.Chain

/-!
# What tokens are, wherever they stand

Which lexeme the lexer finds at a place depends on what is around it: a colon is looked at together
with its neighbours, a run of blanks goes as far as there are blanks, and a quote counts only if it
is closed further on.  `Lexeme.Stands` says of a lexeme between two texts that the lexer found it
there, or found nothing at any of its characters and made a word of them.  All lexemes of a text
stand in it (`standAll_split`), and none goes on behind its end (`StandAll.apart`).

From these two facts follows what the lexemes of each kind are (`Genuine`).  In the end the
surroundings do not matter: a lexeme taken out of its text is read as the same one, for what its
kind depends on is either inside it or was not there (`Genuine.split_alone`).  The main result is
`tokenize_kinds_exact`.
-/

namespace DocTags

namespace Lexeme

/-! ## Lexemes between two texts -/

/-- What the lexer finds at the head of a text that stands behind another one. -/
def matchBehind? (left cs : List Char) : Option (Lexeme × List Char) :=
  match? (left.getLast? == some ':') cs

/-- The lexeme is what the lexer makes of its characters between the two texts.  It is found there,
or it is a word and nothing is found at any of its characters. -/
inductive Stands (left right : List Char) : Lexeme → Prop
  | found {l : Lexeme} (h : matchBehind? left (l.chars ++ right) = some (l, right)) :
      Stands left right l
  | word {cs : List Char} (hne : cs ≠ [])
      (h : ∀ pre c post, cs = pre ++ c :: post →
        matchBehind? (left ++ pre) (c :: (post ++ right)) = none) :
      Stands left right ⟨.word, cs⟩

/-- The lexemes make up a text behind another one: each of them stands where it is, and no word
stands next to a word. -/
def StandAll (left : List Char) : List Lexeme → Prop
  | [] => True
  | l :: ls => Stands left (ls.flatMap chars) l ∧
      (l.kind = .word → ∀ next ∈ ls.head?, next.kind ≠ .word) ∧ StandAll (left ++ l.chars) ls

/-- Neither two colons nor two blanks meet between the texts. -/
structure Apart (left right : List Char) : Prop where
  colon : left.getLast? = some ':' → right.head? ≠ some ':'
  blank : ∀ c ∈ left.getLast?, Text.isBlank c = true → ∀ d ∈ right.head?, Text.isBlank d = false

section Standing

variable {afterColon : Bool} {c : Char} {left right cs tail rest : List Char} {l : Lexeme}

/-- What stands before a text matters only if it begins with a colon. -/
lemma match?_congr {b b' : Bool} (h : cs.head? = some ':' → b = b') :
    match? b cs = match? b' cs := by
  cases cs with
  | nil => rfl
  | cons c tail =>
    by_cases hc : c = ':'
    · rw [h (congrArg some hc)]
    · simp [match?, hc]

/-- Behind a colon no lexeme begins with another one. -/
lemma alone_of_match (h : match? afterColon (':' :: tail) = some (l, rest)) :
    afterColon = false := by
  cases found_of_match h with
  | string hquote => exact absurd hquote (by decide)
  | blanks hblank => exact absurd hblank (by decide)
  | colon hbefore => exact hbefore
  | symbol hkind => cases hkind

/-- There is no colon on both sides of the end of a lexeme that is found. -/
lemma head?_of_match (h : match? afterColon cs = some (l, rest))
    (hlast : l.chars.getLast? = some ':') : rest.head? ≠ some ':' := by
  cases found_of_match h with
  | string hquote h =>
    rw [← List.cons_append, List.getLast?_concat] at hlast
    obtain rfl := Option.some.inj hlast
    exact absurd hquote (by decide)
  | blanks hblank tail =>
    rcases List.mem_cons.1 (List.mem_of_getLast? hlast) with rfl | hmem
    · exact absurd hblank (by decide)
    · exact absurd (List.mem_takeWhile_imp hmem) (by decide)
  | colon _ hbehind => exact hbehind
  | symbol hkind =>
    obtain rfl := Option.some.inj hlast
    cases hkind

/-- Where nothing is found, a word begins or goes on. -/
lemma standAll_consWord {ls : List Lexeme}
    (hnone : matchBehind? left (c :: ls.flatMap chars) = none) (h : StandAll (left ++ [c]) ls) :
    StandAll left (consWord c ls) := by
  unfold consWord
  split
  · next cs ls =>
    obtain ⟨hword, hnext, hls⟩ := h
    refine ⟨.word (List.cons_ne_nil c cs) fun pre d post heq => ?_, hnext, ?_⟩
    · cases pre with
      | nil =>
        obtain ⟨rfl, rfl⟩ := List.cons.inj heq
        rwa [List.append_nil]
      | cons c' pre =>
        obtain ⟨rfl, rfl⟩ := List.cons.inj heq
        cases hword with
        | found h => exact absurd rfl (kind_ne_word_of_match h)
        | word _ h => simpa using h pre d post rfl
    · rwa [List.append_assoc] at hls
  · next hls =>
    refine ⟨.word (List.cons_ne_nil c []) fun pre d post heq => ?_, fun _ next hmem hnext => ?_, h⟩
    · obtain ⟨rfl, hpost⟩ | ⟨pre', rfl, hpre⟩ := List.cons_eq_append_iff.1 heq
      · obtain ⟨rfl, rfl⟩ := List.cons.inj hpost
        rwa [List.append_nil]
      · exact absurd hpre (by simp)
    · obtain ⟨rest, rfl⟩ := List.head?_eq_some_iff.1 hmem
      obtain ⟨kind, cs⟩ := next
      obtain rfl : kind = .word := hnext
      exact hls cs rest rfl

/-- All lexemes of a text stand. -/
lemma standAll_split (afterColon : Bool) (cs : List Char)
    (hcolon : cs.head? = some ':' → afterColon = (left.getLast? == some ':')) :
    StandAll left (split afterColon cs) := by
  fun_induction split afterColon cs generalizing left with
  | case1 => trivial
  | case2 afterColon c tail l rest hmatch ih =>
    refine ⟨.found ?_, fun hword => absurd hword (kind_ne_word_of_match hmatch), ih fun hhead => ?_⟩
    · rw [flatMap_split, match?_append hmatch, matchBehind?, ← match?_congr hcolon, hmatch]
    · rw [List.getLast?_append_of_ne_nil _ (proper_of_match hmatch).ne_nil]
      exact (beq_eq_false_iff_ne.2 fun hlast => head?_of_match hmatch hlast hhead).symm
  | case3 afterColon c tail hmatch ih =>
    refine standAll_consWord ?_ (ih fun _ => ?_)
    · rw [flatMap_split, matchBehind?, ← match?_congr hcolon, hmatch]
    · rw [List.getLast?_concat, Option.some_beq_some]

section

variable {before after : List Lexeme}

lemma StandAll.stands (h : StandAll left (before ++ l :: after)) :
    Stands (left ++ before.flatMap chars) (after.flatMap chars) l := by
  induction before generalizing left with
  | nil =>
    rw [List.flatMap_nil, List.append_nil]
    exact h.1
  | cons first before ih =>
    rw [List.flatMap_cons, ← List.append_assoc]
    exact ih h.2.2

lemma StandAll.isChain {ls : List Lexeme} (h : StandAll left ls) :
    (ls.map kind).IsChain fun k next => k = .word → next ≠ .word := by
  induction ls generalizing left with
  | nil => exact .nil
  | cons l ls ih =>
    refine (ih h.2.2).cons fun next hnext hword => ?_
    rw [List.head?_map] at hnext
    obtain ⟨l', hl', rfl⟩ := Option.map_eq_some_iff.1 hnext
    exact h.2.1 hword l' hl'

/-- Only a run of blanks ends with a blank. -/
lemma Shape.kind_eq_whitespace (h : Shape l) (hc : c ∈ l.chars.getLast?)
    (hblank : Text.isBlank c = true) : l.kind = .whitespace := by
  cases h with
  | word hcs => exact absurd (hcs c (List.mem_of_getLast? hc)) (by simp [hblank])
  | blanks _ => rfl
  | @string quote hquote body =>
    rw [← List.cons_append, List.getLast?_concat] at hc
    obtain rfl := Option.mem_some_iff.1 hc
    rcases hquote with rfl | rfl <;> exact absurd hblank (by decide)
  | symbol _ _ _ hd =>
    obtain rfl := Option.mem_some_iff.1 hc
    exact absurd hblank (by simp [hd])

/-- Behind the blanks that are found there is no further one. -/
lemma isBlank_head?_of_match (h : match? afterColon cs = some (l, rest))
    (hkind : l.kind = .whitespace) : ∀ d ∈ rest.head?, Text.isBlank d = false := by
  intro d hd
  cases found_of_match h with
  | string => cases hkind
  | blanks _ tail =>
    have hnot := List.head?_dropWhile_not Text.isBlank tail
    rw [Option.mem_def.1 hd] at hnot
    simpa using hnot
  | colon => cases hkind
  | symbol hsymbol => exact absurd hkind (kind_of_ofSymbol? hsymbol).2.2.2

lemma apart_of_match (h : matchBehind? left (l.chars ++ right) = some (l, right)) :
    Apart (left ++ l.chars) right := by
  have hlast : (left ++ l.chars).getLast? = l.chars.getLast? :=
    List.getLast?_append_of_ne_nil _ (proper_of_match h).ne_nil
  refine ⟨fun hcolon => head?_of_match h (hlast ▸ hcolon), fun c hc hblank => ?_⟩
  exact isBlank_head?_of_match h ((shape_of_match h).kind_eq_whitespace (hlast ▸ hc) hblank)

/-- Lexemes do not go on behind their ends. -/
lemma StandAll.apart_cons (h : StandAll left (l :: after)) :
    Apart (left ++ l.chars) (after.flatMap chars) := by
  obtain ⟨hl, hnext, hafter⟩ := h
  cases hl with
  | found h => exact apart_of_match h
  | @word cs hne h =>
    have hlast : (left ++ cs).getLast? = cs.getLast? := List.getLast?_append_of_ne_nil _ hne
    cases after with
    | nil => exact ⟨fun _ => nofun, fun c hc hblank d hd => nomatch hd⟩
    | cons next after =>
      constructor
      · -- Behind a colon there is no lone one, so the next lexeme would go on with the word.
        intro hcolon hhead
        cases hafter.1 with
        | found hfound =>
          rw [List.flatMap_cons] at hhead
          obtain ⟨tail, htail⟩ := List.head?_eq_some_iff.1 hhead
          rw [htail, matchBehind?] at hfound
          simpa [hcolon] using alone_of_match hfound
        | word _ _ => exact absurd rfl (hnext rfl _ rfl)
      · intro c hc hblank
        obtain ⟨pre, hpre⟩ := List.getLast?_eq_some_iff.1 (hlast ▸ hc)
        exact absurd (match?_eq_none_iff.1 (h pre c [] hpre)).2.1 (by simp [hblank])

/-- So the places between the lexemes are where colons and runs of blanks end. -/
lemma StandAll.apart (h : StandAll left (before ++ after))
    (hleft : Apart left ((before ++ after).flatMap chars)) :
    Apart (left ++ before.flatMap chars) (after.flatMap chars) := by
  induction before generalizing left with
  | nil =>
    rw [List.flatMap_nil, List.append_nil]
    exact hleft
  | cons first before ih =>
    rw [List.flatMap_cons, ← List.append_assoc]
    exact ih h.2.2 h.apart_cons

end

end Standing

/-! ## What is found nowhere in a word -/

section Words

variable {left right cs : List Char}

/-- A text at whose characters nothing is found is a word. -/
lemma split_of_forall_none (hne : cs ≠ [])
    (h : ∀ pre c post, cs = pre ++ c :: post → matchBehind? (left ++ pre) (c :: post) = none) :
    split (left.getLast? == some ':') cs = [⟨.word, cs⟩] := by
  induction cs generalizing left with
  | nil => exact absurd rfl hne
  | cons c cs ih =>
    have hc := h [] c cs rfl
    rw [List.append_nil] at hc
    rw [split_of_none hc]
    cases cs with
    | nil =>
      rw [split, consWord]
      rintro _ _ ⟨⟩
    | cons d cs =>
      have hrest : ∀ pre e post, d :: cs = pre ++ e :: post →
          matchBehind? (left ++ [c] ++ pre) (e :: post) = none := by
        intro pre e post heq
        rw [List.append_assoc]
        exact h (c :: pre) e post (by rw [heq]; rfl)
      have hsplit := ih (List.cons_ne_nil d cs) hrest
      rw [List.getLast?_concat, Option.some_beq_some] at hsplit
      rw [hsplit]
      rfl

end Words

/-! ## What lexemes of each kind are -/

/-- What makes a word of the characters, with `right` behind them.  Colons stand together in it, and
no string begins at its quotes, not even one that is closed behind the word. -/
structure IsWord (right cs : List Char) : Prop where
  ne_nil : cs ≠ []
  plain : ∀ c ∈ cs, Text.isBlank c = false ∧ c ∉ ['@', '(', ')', ',', '=', '{', '}']
  colons : ∀ pre n post, cs = pre ++ (List.replicate n ':' ++ post) → 0 < n →
    pre.getLast? ≠ some ':' → post.head? ≠ some ':' → 2 ≤ n
  quotes : ∀ pre quote post, cs = pre ++ quote :: post → quote = '\'' ∨ quote = '"' →
    ¬ Closes quote (post ++ right)

/-- What makes a lexeme of each kind of the characters between two texts. -/
inductive Genuine (left right : List Char) : TokenKind → List Char → Prop
  | string {quote : Char} {inner : List Char} (hquote : quote = '\'' ∨ quote = '"')
      (h : Enclosed quote inner) : Genuine left right .string (quote :: (inner ++ [quote]))
  | colon (hleft : left.getLast? ≠ some ':') (hright : right.head? ≠ some ':') :
      Genuine left right .colon [':']
  | whitespace {cs : List Char} (hne : cs ≠ []) (h : ∀ c ∈ cs, Text.isBlank c = true)
      (hleft : ∀ c ∈ left.getLast?, Text.isBlank c = false)
      (hright : ∀ c ∈ right.head?, Text.isBlank c = false) : Genuine left right .whitespace cs
  | word {cs : List Char} (h : IsWord right cs) : Genuine left right .word cs
  | symbol {c : Char} {kind : TokenKind} (h : TokenKind.ofSymbol? c = some kind) :
      Genuine left right kind [c]
  | eof (hright : right = []) : Genuine left right .eof []

section Kinds

variable {left right cs : List Char} {l : Lexeme}

lemma isWord_of_none (hne : cs ≠ []) (hleft : Apart left (cs ++ right))
    (hright : Apart (left ++ cs) right)
    (h : ∀ pre c post, cs = pre ++ c :: post →
      matchBehind? (left ++ pre) (c :: (post ++ right)) = none) : IsWord right cs := by
  refine ⟨hne, fun c hc => ?_, fun pre n post hcs hpos hpre hpost => ?_,
    fun pre quote post hcs hquote => (match?_eq_none_iff.1 (h pre quote post hcs)).1 hquote⟩
  · obtain ⟨pre, post, hcs⟩ := List.append_of_mem hc
    obtain ⟨-, hblank, -, hsymbol⟩ := match?_eq_none_iff.1 (h pre c post hcs)
    exact ⟨hblank, ofSymbol?_eq_none_iff.1 hsymbol⟩
  · by_contra hlt
    obtain rfl : n = 1 := by omega
    rw [List.replicate_one, List.singleton_append] at hcs
    -- A colon by itself would have been found.
    rcases (match?_eq_none_iff.1 (h pre ':' post hcs)).2.2.1 rfl with hlast | hhead
    · cases pre with
      | nil =>
        rw [List.append_nil] at hlast
        exact hleft.colon (by simpa using hlast) (by rw [hcs]; rfl)
      | cons d pre =>
        rw [List.getLast?_append_of_ne_nil _ (List.cons_ne_nil d pre)] at hlast
        exact hpre (by simpa using hlast)
    · cases post with
      | nil =>
        refine hright.colon ?_ hhead
        rw [hcs, ← List.append_assoc, List.getLast?_concat]
      | cons d post => exact hpost hhead

lemma Stands.genuine (h : Stands left right l) (hleft : Apart left (l.chars ++ right))
    (hright : Apart (left ++ l.chars) right) : Genuine left right l.kind l.chars := by
  cases h with
  | word hne h => exact .word (isWord_of_none hne hleft hright h)
  | found h =>
    generalize hcs : l.chars ++ right = cs at h
    cases found_of_match h with
    | string hquote hinner => exact .string hquote hinner
    | @blanks c hblank tail =>
      have hblanks : ∀ d ∈ c :: tail.takeWhile Text.isBlank, Text.isBlank d = true :=
        List.forall_mem_cons.2 ⟨hblank, fun d hd => List.mem_takeWhile_imp hd⟩
      refine .whitespace (List.cons_ne_nil c _) hblanks (fun d hd => ?_)
        (isBlank_head?_of_match h rfl)
      rw [Bool.eq_false_iff]
      intro hd'
      exact absurd (hleft.blank d hd hd' c rfl) (by simp [hblank])
    | colon hbefore hbehind => exact .colon (by simpa using hbefore) hbehind
    | symbol hkind => exact .symbol hkind

/-- What makes a lexeme of its kind is still there when it is taken out of the text. -/
lemma Genuine.split_alone {kind : TokenKind} (h : Genuine left right kind cs)
    (hkind : kind ≠ .eof) : split false cs = [⟨kind, cs⟩] := by
  cases h with
  | @string quote inner hquote h =>
    rw [split_of_match (Found.string hquote h []).match?, split]
  | colon _ _ => rw [split_of_match (Token.match?_colon (by simp)), split]
  | whitespace hne h _ _ =>
    obtain ⟨c, tail, rfl⟩ := List.exists_cons_of_ne_nil hne
    obtain ⟨hc, htail⟩ := List.forall_mem_cons.1 h
    rw [split_of_match (Token.match?_blank hc tail), List.takeWhile_eq_self_iff.2 htail,
      List.dropWhile_eq_nil_iff.2 htail, split]
  | symbol h => rw [split_of_match (Token.match?_symbol h []), split]
  | eof _ => exact absurd rfl hkind
  | word h =>
    refine @split_of_forall_none [] cs h.ne_nil fun pre c post hcs => ?_
    obtain ⟨hblank, hsymbol⟩ := h.plain c (by simp [hcs])
    refine match?_eq_none_iff.2 ⟨fun hquote hcloses => ?_, hblank, fun hcolon => ?_,
      ofSymbol?_eq_none_iff.2 hsymbol⟩
    · obtain ⟨inner, rest, hinner, rfl⟩ := hcloses
      refine h.quotes pre c _ hcs hquote ⟨inner, rest ++ right, hinner, ?_⟩
      rw [List.append_assoc]
      rfl
    · subst hcolon
      by_contra hnot
      rw [not_or, List.nil_append, beq_iff_eq] at hnot
      exact absurd (h.colons pre 1 post hcs Nat.one_pos hnot.1 hnot.2) (by decide)

end Kinds

end Lexeme

namespace Token

/-! ## Tokens -/

/-- What makes a token of its kind of its text, between the texts before it and behind it. -/
abbrev Genuine (left right : List Char) (t : Token) : Prop :=
  Lexeme.Genuine left right t.kind t.text.toList

lemma exists_lexemes_of_locate_eq {start : Nat} {ls : List Lexeme} {before after : List Token}
    {t : Token} (h : locate start ls = before ++ t :: after) :
    ∃ lbefore l lafter, ls = lbefore ++ l :: lafter ∧ t.kind = l.kind ∧ t.text.toList = l.chars ∧
      spelling before = lbefore.flatMap Lexeme.chars ∧
      spelling after = lafter.flatMap Lexeme.chars := by
  induction before generalizing start ls with
  | nil =>
    cases ls with
    | nil => cases h
    | cons l ls =>
      obtain ⟨rfl, rfl⟩ := List.cons.inj h
      exact ⟨[], l, ls, rfl, rfl, String.toList_ofList, rfl, spelling_locate _ ls⟩
  | cons b before ih =>
    cases ls with
    | nil => cases h
    | cons first ls =>
      obtain ⟨rfl, hrest⟩ := List.cons.inj h
      obtain ⟨lbefore, l, lafter, rfl, hkind, htext, hbefore, hafter⟩ := ih hrest
      refine ⟨first :: lbefore, l, lafter, rfl, hkind, htext, ?_, hafter⟩
      rw [spelling_cons, hbefore, String.toList_ofList, List.flatMap_cons]

lemma map_kind_locate (start : Nat) (ls : List Lexeme) :
    (locate start ls).map Token.kind = ls.map Lexeme.kind := by
  induction ls generalizing start with
  | nil => rfl
  | cons l ls ih => rw [locate, List.map_cons, List.map_cons, ih]

lemma genuine_of_pieces_eq {text : List Char} {before after : List Token} {t : Token}
    (h : pieces text = before ++ t :: after) :
    Genuine (spelling before) (spelling after) t ∧ t.kind ≠ .eof := by
  obtain ⟨lbefore, l, lafter, hsplit, hkind, htext, hbefore, hafter⟩ :=
    exists_lexemes_of_locate_eq h
  have hall : Lexeme.StandAll [] (lbefore ++ l :: lafter) :=
    hsplit ▸ Lexeme.standAll_split false text fun _ => rfl
  have hproper := Lexeme.proper_of_mem_split false text l (by simp [hsplit])
  have hleft := hall.apart ⟨nofun, nofun⟩
  have hright : Lexeme.Apart ([] ++ (lbefore ++ [l]).flatMap Lexeme.chars)
      (lafter.flatMap Lexeme.chars) :=
    Lexeme.StandAll.apart (List.append_cons .. ▸ hall) ⟨nofun, nofun⟩
  rw [List.flatMap_append, List.flatMap_singleton, ← List.append_assoc] at hright
  rw [Genuine, hkind, htext, hbefore, hafter]
  exact ⟨hall.stands.genuine hleft hright, hproper.kind_ne_eof⟩

lemma Genuine.tokenize_alone {left right : List Char} {t : Token} (h : t.Genuine left right)
    (hkind : t.kind ≠ .eof) :
    tokenize t.text = [{ t with position := 0 }, ⟨.eof, "", t.text.length⟩] := by
  rw [tokenize, pieces, Lexeme.Genuine.split_alone h hkind, locate, locate, String.ofList_toList,
    ending, String.length_toList]
  rfl

/-- Each token is what its kind says it is, between the parts of the text before it and behind it;
no word stands next to a word; and the text of a token by itself has that token and its end for
tokens. -/
theorem tokenize_kinds_exact (text : String) :
    (∀ before t after, tokenize text = before ++ t :: after →
      text.toList = spelling before ++ (t.text.toList ++ spelling after) ∧
      Genuine (spelling before) (spelling after) t ∧
      (t.kind ≠ .eof →
        tokenize t.text = [{ t with position := 0 }, ⟨.eof, "", t.text.length⟩])) ∧
    ((tokenize text).map kind).IsChain fun k next => k = .word → next ≠ .word := by
  constructor
  · intro before t after h
    refine ⟨?_, ?_⟩
    · rw [← spelling_cons, ← spelling_append, ← h, spelling_tokenize]
    rcases List.eq_nil_or_concat after with rfl | ⟨after, last, rfl⟩
    · obtain ⟨-, hlast⟩ := List.append_inj' h rfl
      obtain ⟨rfl, -⟩ := List.cons.inj hlast
      exact ⟨.eof rfl, fun hkind => absurd rfl hkind⟩
    · rw [List.concat_eq_append, ← List.cons_append, ← List.append_assoc] at h
      obtain ⟨hpieces, hlast⟩ := List.append_inj' h rfl
      obtain ⟨rfl, -⟩ := List.cons.inj hlast
      obtain ⟨hgenuine, hkind⟩ := genuine_of_pieces_eq hpieces
      have hspelling : spelling (after ++ [ending text.toList]) = spelling after := by
        rw [spelling_append]
        exact List.append_nil _
      rw [List.concat_eq_append, hspelling]
      exact ⟨hgenuine, hgenuine.tokenize_alone⟩
  · have hall : Lexeme.StandAll [] _ := Lexeme.standAll_split false text.toList fun _ => rfl
    rw [tokenize, pieces, List.map_append, map_kind_locate]
    refine hall.isChain.append (.singleton _) fun k _ next hnext _ => ?_
    obtain rfl := Option.mem_some_iff.1 hnext
    change TokenKind.eof ≠ .word
    decide

/-- The second colon of a pair stays in its word, and so does a quote that only an escaped one
follows. -/
example : ((tokenize "a::b:'c\\'d").map fun t => (t.kind, t.text)) =
    [(.word, "a::b"), (.colon, ":"), (.word, "'c\\'d"), (.eof, "")] := by
  decide +kernel

end Token
end DocTags
