import DocTags.Proofs.Entries
import DocTags.Proofs.Indexing
import DocTags.Proofs.Run
import DocTags.Proofs.Tokens
import DocTags.Reader.Read

/-!
# Written lists read back

Tag lists whose leaves are nulls, truth values, integers and strings have a written form.  It is not
unique: blanks may stand between any two tokens, integers may have leading zeros, a string may have
either sort of quote that it does not hold, and a comma may follow the last entry.  `Writes` is the
relation between such a value and its texts, and `isWritable` says which values have one.

The main result is `read_written_list`: reading any text of a tag list gives the tag list back, with
the order and the types of its entries, and stops right behind the closing brace, whatever the text
goes on with.  It holds for both grammars and in every scope, since nothing in such a text is looked
up.

The proof follows the text from left to right.  Each part of it moves the reader from one state to
the next while the rest of the text stays open: `outcome_gap`, `outcome_key`, `outcome_item`, and
for the entries of a list `outcome_entries`.
-/

namespace DocTags

namespace Notation

/-! ## The written form -/

/-- A run of blanks, which may be empty. -/
def IsGap (cs : List Char) : Prop :=
  ∀ c ∈ cs, Text.isBlank c = true

/-- The text in front of an item: a key of letters with its colon, if the entry has one. -/
def WritesKey : Option String → List Char → Prop
  | none, cs => IsGap cs
  | some key, cs =>
    Text.isAlphabetic key.toList = true ∧ ∃ before between behind,
      IsGap before ∧ IsGap between ∧ IsGap behind ∧
        cs = before ++ (key.toList ++ (between ++ ':' :: behind))

/-- The text of a truth value. -/
def truthText (b : Bool) : List Char :=
  (if b then "true" else "false").toList

mutual

/-- The texts of a value. -/
def Writes : Value → List Char → Prop
  | .null, cs => cs = "null".toList
  | .bool b, cs => cs = truthText b
  | .int n, cs =>
    Numeral.isDigits cs = true ∧ cs.length ≤ Numeral.maxDigits ∧ n = Numeral.ofDigits cs
  | .str s, cs =>
    '\\' ∉ s.toList ∧ ∃ quote, (quote = '\'' ∨ quote = '"') ∧ quote ∉ s.toList ∧
      cs = quote :: (s.toList ++ [quote])
  | .tags entries, cs =>
    (TagList.keys entries).Nodup ∧ ∃ body, WritesEntries entries body ∧ cs = '{' :: (body ++ ['}'])
  | _, _ => False

/-- The texts of the entries of a list, between its braces. -/
def WritesEntries : List (Option String × Value) → List Char → Prop
  | [], cs => IsGap cs
  | (key, v) :: rest, cs => ∃ before item behind,
    WritesKey key before ∧ Writes v item ∧ IsGap behind ∧
      (rest = [] ∧ cs = before ++ (item ++ behind) ∨
        ∃ more, WritesEntries rest more ∧ cs = before ++ (item ++ (behind ++ ',' :: more)))

end

mutual

/-- `true` on the values that have a written form: integers are not negative and not too long, a
string has no backslash and lacks one of the quotes, and the keys of a list are words of letters. -/
def isWritable : Value → Bool
  | .null => true
  | .bool _ => true
  | .int n => decide (0 ≤ n) && decide ((Nat.toDigits 10 n.toNat).length ≤ Numeral.maxDigits)
  | .str s =>
    !s.toList.contains '\\' && (!s.toList.contains '\'' || !s.toList.contains '"')
  | .tags entries => decide (TagList.keys entries).Nodup && areWritable entries
  | _ => false

/-- `true` on the entries of a list that has a written form. -/
def areWritable : List (Option String × Value) → Bool
  | [] => true
  | (key, v) :: rest =>
    key.all (fun key => Text.isAlphabetic key.toList) && isWritable v && areWritable rest

end

/-! ## Which values have a text -/

lemma writes_int {n : Int} (h : isWritable (.int n) = true) :
    Writes (.int n) (Nat.toDigits 10 n.toNat) := by
  simp only [isWritable, Bool.and_eq_true, decide_eq_true_eq] at h
  obtain ⟨hpos, hlen⟩ := h
  refine ⟨?_, hlen, ?_⟩
  · simp only [Numeral.isDigits, Bool.and_eq_true, Bool.not_eq_true', List.isEmpty_eq_false_iff,
      List.all_eq_true]
    exact ⟨Nat.toDigits_ne_nil, fun c hc => Nat.isDigit_of_mem_toDigits (by decide) (by decide) hc⟩
  · have hfold := Nat.ofDigitChars_ten_toDigits (n := n.toNat)
    rw [Nat.ofDigitChars_eq_foldl] at hfold
    rw [Numeral.ofDigits, hfold, Int.toNat_of_nonneg hpos]

lemma writes_str {s : String} (h : isWritable (.str s) = true) : ∃ text, Writes (.str s) text := by
  simp only [isWritable, Bool.and_eq_true, Bool.or_eq_true, Bool.not_eq_true',
    List.contains_eq_mem, decide_eq_false_iff_not] at h
  obtain ⟨hslash, hquote | hquote⟩ := h
  · exact ⟨_, hslash, '\'', .inl rfl, hquote, rfl⟩
  · exact ⟨_, hslash, '"', .inr rfl, hquote, rfl⟩

lemma writesKey {key : Option String}
    (h : key.all (fun key => Text.isAlphabetic key.toList) = true) :
    ∃ text, WritesKey key text := by
  cases key with
  | none => exact ⟨[], by simp [WritesKey, IsGap]⟩
  | some key =>
    exact ⟨_, h, [], [], [], by simp [IsGap], by simp [IsGap], by simp [IsGap], rfl⟩

mutual

theorem exists_text (v : Value) (h : isWritable v = true) : ∃ text, Writes v text := by
  match v with
  | .null => exact ⟨_, rfl⟩
  | .bool _ => exact ⟨_, rfl⟩
  | .int n => exact ⟨_, writes_int h⟩
  | .str s => exact writes_str h
  | .tags entries =>
    simp only [isWritable, Bool.and_eq_true, decide_eq_true_eq] at h
    obtain ⟨body, hbody⟩ := exists_entries entries h.2
    exact ⟨_, by rw [Writes]; exact ⟨h.1, body, hbody, rfl⟩⟩
  | .float _ _ | .moment _ | .list _ | .tuple _ | .dict _ | .object _ _ _ | .cls _ | .routine _
  | .property _ | .moduleNamed _ | .placement _ | .missing | .typeExpr _ =>
    simp [isWritable] at h

theorem exists_entries (entries : List (Option String × Value)) (h : areWritable entries = true) :
    ∃ text, WritesEntries entries text := by
  match entries with
  | [] => exact ⟨[], by simp [WritesEntries, IsGap]⟩
  | (key, v) :: rest =>
    simp only [areWritable, Bool.and_eq_true] at h
    obtain ⟨before, hbefore⟩ := writesKey h.1.1
    obtain ⟨item, hitem⟩ := exists_text v h.1.2
    obtain ⟨more, hmore⟩ := exists_entries rest h.2
    exact ⟨_, by
      rw [WritesEntries]
      exact ⟨before, item, [], hbefore, hitem, by simp [IsGap], .inr ⟨more, hmore, rfl⟩⟩⟩

end

/-! ## Gaps and delimiters -/

lemma head?_gap_append {gap rest : List Char} (hg : IsGap gap) (hr : rest.head? ≠ some ':') :
    (gap ++ rest).head? ≠ some ':' := by
  cases gap with
  | nil => exact hr
  | cons c gap =>
    intro h
    have hc := hg c (by simp)
    rw [Option.some.inj h] at hc
    exact absurd hc (by decide)

/-- A gap with something behind it that begins a lexeme ends a word. -/
lemma delimited_gap_append {gap rest : List Char} (hg : IsGap gap)
    (hr : (Lexeme.match? false rest).isSome) : Lexeme.Delimited (gap ++ rest) := by
  cases gap with
  | nil => exact .inr hr
  | cons c gap =>
    refine .inr ?_
    rw [List.cons_append, Token.match?_blank (hg c (by simp))]
    rfl

section Reading

variable {eof : Token} {g : Grammar} {started : Bool} {key : Option String}
  {pending : Option Pending}

open Entries Token

/-- Blanks at the head of a text make one token at most, which is passed over. -/
lemma outcome_skip (start : Nat) (text : List Char) :
    outcome eof g .rightBrace started key pending (tokensFrom start text) =
      outcome eof g .rightBrace started key pending
        (tokensFrom (start + (text.takeWhile Text.isBlank).length)
          (text.dropWhile Text.isBlank)) := by
  cases text with
  | nil => rfl
  | cons c text =>
    by_cases hc : Text.isBlank c = true
    · rw [tokensFrom_of_match (match?_blank hc text), outcome_whitespace rfl,
        List.takeWhile_cons_of_pos hc, List.dropWhile_cons_of_pos hc]
    · rw [List.takeWhile_cons_of_neg hc, List.dropWhile_cons_of_neg hc]
      rfl

lemma outcome_gap {gap : List Char} (hg : IsGap gap) (start : Nat) (rest : List Char) :
    outcome eof g .rightBrace started key pending (tokensFrom start (gap ++ rest)) =
      outcome eof g .rightBrace started key pending (tokensFrom (start + gap.length) rest) := by
  rw [outcome_skip start (gap ++ rest), outcome_skip (start + gap.length) rest,
    List.dropWhile_append_of_pos hg, List.takeWhile_append_of_pos hg, List.length_append,
    Nat.add_assoc]

/-- A key is taken in with its colon; what follows must not make the colon a double one. -/
lemma outcome_key {before : List Char} (hk : WritesKey key before) {rest : List Char}
    (hr : rest.head? ≠ some ':') (start : Nat) :
    outcome eof g .rightBrace started none none (tokensFrom start (before ++ rest)) =
      outcome eof g .rightBrace started key none (tokensFrom (start + before.length) rest) := by
  cases key with
  | none => exact outcome_gap hk start rest
  | some key =>
    obtain ⟨halpha, a, b, c, ha, hb, hc, rfl⟩ := hk
    have hcolon : (c ++ rest).head? ≠ some ':' := head?_gap_append hc hr
    have hletters : ∀ ch ∈ key.toList, Text.isLetter ch = true := by
      simp only [Text.isAlphabetic, Bool.and_eq_true, List.all_eq_true] at halpha
      exact halpha.2
    have hne : key.toList ≠ [] := by
      rintro h
      rw [h] at halpha
      exact absurd halpha (by decide)
    have hdel : Lexeme.Delimited (b ++ ':' :: (c ++ rest)) :=
      delimited_gap_append hb (by rw [match?_colon hcolon]; rfl)
    simp only [List.append_assoc, List.cons_append]
    rw [outcome_gap ha,
      tokensFrom_word hne (fun ch h => Lexeme.isInert_of_isLetter (hletters ch h)) hdel,
      outcome_token (.inl rfl) rfl, outcome_gap hb, tokensFrom_colon hcolon,
      outcome_colon rfl (by simpa using halpha), outcome_gap hc]
    simp only [List.length_append, List.length_cons, String.ofList_toList]
    congr 2
    omega

/-! ## Leaves -/

lemma literal?_digits {cs : List Char} (hd : Numeral.isDigits cs = true)
    (hl : cs.length ≤ Numeral.maxDigits) (position : Nat) :
    literal? ⟨.word, String.ofList cs, position⟩ = .ok (some (.int (Numeral.ofDigits cs))) := by
  have hall : ∀ c ∈ cs, c.isDigit = true := by
    simp only [Numeral.isDigits, Bool.and_eq_true, List.all_eq_true] at hd
    exact hd.2
  have hnot : ∀ c, c.isDigit = false → c ∉ cs := by
    intro c hc hmem
    rw [hall c hmem] at hc
    exact Bool.false_ne_true hc.symm
  have htext : ∀ s : String, s.toList.head?.any Char.isDigit = false →
      (String.ofList cs == s) = false := by
    intro s hs
    rw [beq_eq_false_iff_ne]
    rintro rfl
    rw [String.toList_ofList] at hs
    cases cs with
    | nil => exact absurd hd (by decide)
    | cons c cs => simp [hall c (by simp)] at hs
  simp [literal?, hnot '\'' (by decide), hnot '"' (by decide), htext "true" (by decide),
    htext "false" (by decide), htext "null" (by decide), hd, Nat.not_lt.2 hl]

lemma itemOf_literal {t : Token} {v : Value} (h : literal? t = .ok (some v)) :
    itemOf g t = .ok (.value v) := by
  unfold itemOf
  rw [h]
  rfl

/-- What a leaf of the notation is read as: one token that denotes the value by itself. -/
lemma outcome_leaf {v : Value} {item : List Char} (hw : Writes v item)
    (hv : ∀ entries, v ≠ .tags entries) {rest : List Char} (hr : Lexeme.Delimited rest)
    (start : Nat) :
    ∃ t : Token, itemOf g t = .ok (.value v) ∧
      Entries.outcome eof g .rightBrace started key none
          (Token.tokensFrom start (item ++ rest)) =
        Entries.outcome eof g .rightBrace started key (some (.token t))
          (Token.tokensFrom (start + item.length) rest) := by
  cases v with
  | null =>
    rw [Writes] at hw
    subst hw
    exact ⟨⟨.word, "null", start⟩, itemOf_literal (by simp [literal?]), by
      rw [Token.tokensFrom_word (by decide) (List.all_eq_true.1 (by decide)) hr,
        Entries.outcome_token (.inl rfl) rfl]
      rfl⟩
  | bool b =>
    rw [Writes] at hw
    subst hw
    cases b with
    | true =>
      exact ⟨⟨.word, "true", start⟩, itemOf_literal (by simp [literal?]), by
        rw [truthText, Token.tokensFrom_word (by decide) (List.all_eq_true.1 (by decide)) hr,
          Entries.outcome_token (.inl rfl) rfl]
        rfl⟩
    | false =>
      exact ⟨⟨.word, "false", start⟩, itemOf_literal (by simp [literal?]), by
        rw [truthText, Token.tokensFrom_word (by decide) (List.all_eq_true.1 (by decide)) hr,
          Entries.outcome_token (.inl rfl) rfl]
        rfl⟩
  | int n =>
    rw [Writes] at hw
    obtain ⟨hd, hl, rfl⟩ := hw
    have hd' := hd
    simp only [Numeral.isDigits, Bool.and_eq_true, List.all_eq_true, Bool.not_eq_true',
      List.isEmpty_eq_false_iff] at hd'
    refine ⟨⟨.word, String.ofList item, start⟩, ?_, ?_⟩
    · exact itemOf_literal (literal?_digits hd hl start)
    · rw [Token.tokensFrom_word hd'.1 (fun c hc => Lexeme.isInert_of_isDigit (hd'.2 c hc)) hr,
        Entries.outcome_token (.inl rfl) rfl]
  | str s =>
    rw [Writes] at hw
    obtain ⟨hslash, quote, hquote, hq, rfl⟩ := hw
    refine ⟨⟨.string, String.ofList (quote :: (s.toList ++ [quote])), start⟩, ?_, ?_⟩
    · exact itemOf_literal (by simp [literal?, unquote])
    · rw [List.cons_append, List.append_assoc, List.singleton_append,
        Token.tokensFrom_string hquote hq hslash, Entries.outcome_token (.inr rfl) rfl]
      simp
  | tags entries => exact absurd rfl (hv entries)
  | _ => simp [Writes] at hw

/-! ## Lists -/

lemma head?_item {v : Value} {item : List Char} (hw : Writes v item) (rest : List Char) :
    (item ++ rest).head? ≠ some ':' := by
  cases v with
  | null =>
    rw [Writes] at hw
    subst hw
    exact fun h => absurd (Option.some.inj h) (by decide)
  | bool b =>
    rw [Writes] at hw
    subst hw
    cases b <;> exact fun h => absurd (Option.some.inj h) (by decide)
  | int n =>
    rw [Writes] at hw
    obtain ⟨hd, -, -⟩ := hw
    cases item with
    | nil => exact absurd hd (by decide)
    | cons c item =>
      intro h
      rw [List.cons_append, List.head?_cons, Option.some.injEq] at h
      subst h
      simp [Numeral.isDigits] at hd
  | str s =>
    rw [Writes] at hw
    obtain ⟨-, quote, hquote, -, rfl⟩ := hw
    rcases hquote with rfl | rfl <;> exact fun h => absurd (Option.some.inj h) (by decide)
  | tags entries =>
    rw [Writes] at hw
    obtain ⟨-, body, -, rfl⟩ := hw
    exact fun h => absurd (Option.some.inj h) (by decide)
  | _ => simp [Writes] at hw

mutual

/-- Reading an item makes it pending, and what is pending then evaluates to the value written. -/
theorem outcome_item (v : Value) {item : List Char} (hw : Writes v item) {rest : List Char}
    (hr : Lexeme.Delimited rest) (started : Bool) (key : Option String) (start : Nat) :
    ∃ (p : Pending) (i : Item), p.item g .rightBrace started key = .ok i ∧
      (∀ (x : Setting) (r : Reader), x.item i r = (.ok v, r)) ∧
      outcome eof g .rightBrace started key none (tokensFrom start (item ++ rest)) =
        outcome eof g .rightBrace started key (some p) (tokensFrom (start + item.length) rest) := by
  match v with
  | .tags entries =>
    rw [Writes] at hw
    obtain ⟨hkeys, body, hbody, rfl⟩ := hw
    obtain ⟨es, heval, hes⟩ := outcome_entries entries hbody rest false (start + 1)
    refine ⟨.nested (.list es) ⟨.leftBrace, String.ofList ['{'], start⟩, .list es, ?_, ?_, ?_⟩
    · simp [Pending.item]
    · intro x r
      rw [Setting.item, Run.bind_ok (heval x r []), ← TagList.ofEntries,
        TagList.ofEntries_of_nodup hkeys]
      rfl
    · have hopen : TokenKind.ofSymbol? '{' = some .leftBrace := rfl
      rw [List.cons_append, List.append_assoc, List.singleton_append, tokensFrom_symbol hopen,
        outcome_leftBrace rfl hes]
      congr 2
      simp only [List.length_cons, List.length_append, List.length_nil]
      omega
  | .null | .bool _ | .int _ | .str _ =>
    obtain ⟨t, ht, hout⟩ := outcome_leaf hw (by simp) hr start
    exact ⟨.token t, _, by simpa [Pending.item] using ht, fun _ _ => rfl, hout⟩
  | .float _ _ | .moment _ | .list _ | .tuple _ | .dict _ | .object _ _ _ | .cls _ | .routine _
  | .property _ | .moduleNamed _ | .placement _ | .missing | .typeExpr _ =>
    simp [Writes] at hw

/-- Reading the entries of a list ends behind its closing brace. -/
theorem outcome_entries (entries : List (Option String × Value)) {body : List Char}
    (hw : WritesEntries entries body) (rest : List Char) (started : Bool) (start : Nat) :
    ∃ es : Entries, (∀ (x : Setting) (r : Reader) (acc : TagList), x.entries es acc r =
        (.ok (entries.foldl (fun acc entry => acc.append entry.1 entry.2) acc), r)) ∧
      outcome eof g .rightBrace started none none (tokensFrom start (body ++ '}' :: rest)) =
        (es, tokensFrom (start + (body.length + 1)) rest) := by
  have hclose : TokenKind.ofSymbol? '}' = some .rightBrace := rfl
  match entries with
  | [] =>
    rw [WritesEntries] at hw
    refine ⟨.closed, fun _ _ _ => rfl, ?_⟩
    rw [outcome_gap hw, tokensFrom_symbol hclose, outcome_rightBrace_closed rfl, Nat.add_assoc]
  | (key, v) :: others =>
    rw [WritesEntries] at hw
    obtain ⟨before, item, behind, hkey, hitem, hbehind, hend⟩ := hw
    rcases hend with ⟨rfl, rfl⟩ | ⟨more, hmore, rfl⟩
    · have hdel : Lexeme.Delimited (behind ++ '}' :: rest) :=
        delimited_gap_append hbehind (by rw [match?_symbol hclose]; rfl)
      obtain ⟨p, i, hp, heval, hout⟩ :=
        outcome_item v hitem hdel started key (start + before.length)
      refine ⟨.entry key i .closed, ?_, ?_⟩
      · intro x r acc
        rw [Setting.entries, Run.bind_ok (heval x r)]
        rfl
      · rw [List.append_assoc, List.append_assoc, outcome_key hkey (head?_item hitem _), hout,
          outcome_gap hbehind, tokensFrom_symbol hclose, outcome_rightBrace rfl hp]
        simp only [List.length_append]
        congr 2
        omega
    · have hcomma : TokenKind.ofSymbol? ',' = some .comma := rfl
      have hdel : Lexeme.Delimited (behind ++ ',' :: (more ++ '}' :: rest)) :=
        delimited_gap_append hbehind (by rw [match?_symbol hcomma]; rfl)
      obtain ⟨p, i, hp, heval, hout⟩ :=
        outcome_item v hitem hdel started key (start + before.length)
      obtain ⟨es, hes, htail⟩ := outcome_entries others hmore rest true
        (start + before.length + item.length + behind.length + 1)
      refine ⟨.entry key i es, ?_, ?_⟩
      · intro x r acc
        rw [Setting.entries, Run.bind_ok (heval x r), hes]
        rfl
      · simp only [List.append_assoc, List.cons_append]
        rw [outcome_key hkey (head?_item hitem _), hout, outcome_gap hbehind,
          tokensFrom_symbol hcomma, outcome_comma rfl hp htail]
        simp only [List.length_append, List.length_cons]
        congr 2
        omega

end

end Reading

/-! ## The round trip -/

/-- Whatever text a list is written as, and whatever follows it, its tokens after the opening brace
read back as the list, in both grammars and in every setting, and the tokens left over are those of
the text that follows. -/
theorem read_written_list (entries : TagList) (hv : isWritable (.tags entries) = true) :
    (∃ text, Writes (.tags entries) text) ∧
    ∀ text rest, Writes (.tags entries) text → ∃ inner : List Token,
      Token.tokenize (String.ofList (text ++ rest)) =
        ⟨.leftBrace, "\x7b", 0⟩ :: (inner ++ [Token.ending (text ++ rest)]) ∧
      ∀ g : Grammar,
        let list := Entries.read (Token.ending (text ++ rest)) g .rightBrace inner
        list.2.1 = Token.tokensFrom text.length rest ∧
        ∀ (x : Setting) (r : Reader), x.entries list.1 [] r = (.ok entries, r) := by
  refine ⟨exists_text _ hv, ?_⟩
  intro text rest hw
  rw [Writes] at hw
  obtain ⟨hkeys, body, hbody, rfl⟩ := hw
  have hopen : TokenKind.ofSymbol? '{' = some .leftBrace := rfl
  refine ⟨Token.tokensFrom 1 (body ++ '}' :: rest), ?_, ?_⟩
  · rw [Token.tokenize, String.toList_ofList, Token.pieces_eq_tokensFrom, List.cons_append,
      List.append_assoc, List.singleton_append, Token.tokensFrom_symbol hopen]
    rfl
  · intro g
    obtain ⟨es, heval, hes⟩ := @outcome_entries (Token.ending ('{' :: (body ++ ['}']) ++ rest)) g
      entries body hbody rest false 1
    obtain ⟨hlist, hbehind⟩ := Prod.mk.inj hes
    refine ⟨?_, ?_⟩
    · rw [Entries.read, hbehind]
      congr 1
      simp only [List.length_cons, List.length_append, List.length_nil]
      omega
    · intro x r
      rw [Entries.read, hlist, heval x r [], ← TagList.ofEntries,
        TagList.ofEntries_of_nodup hkeys]

/-- A list in a list under a key whose colon stands apart, a string that holds a brace and a line
break, a comma behind the last entry, and a second closing brace in what follows. -/
theorem read_written_list_nested :
    let entries : TagList := [(none, .int 7), (some "on", .tags [(none, .str "\x7d\n")])]
    let text := "\x7b07, on :\x7b'\x7d\n'\x7d ,\x7d".toList
    Writes (.tags entries) text ∧ ∃ inner : List Token,
      Token.tokenize (String.ofList (text ++ " \x7d".toList)) =
        ⟨.leftBrace, "\x7b", 0⟩ :: (inner ++ [⟨.eof, "", 20⟩]) ∧
      ∀ g : Grammar,
        let list := Entries.read ⟨.eof, "", 20⟩ g .rightBrace inner
        list.2.1 = Token.tokensFrom 18 " \x7d".toList ∧
        ∀ (x : Setting) (r : Reader), x.entries list.1 [] r = (.ok entries, r) := by
  intro entries text
  have hgap : ∀ n, IsGap (List.replicate n ' ') := by
    intro n c hc
    rw [List.eq_of_mem_replicate hc]
    rfl
  have hinner : Writes (.tags [(none, .str "\x7d\n")]) "\x7b'\x7d\n'\x7d".toList := by
    rw [Writes]
    refine ⟨by decide, "'\x7d\n'".toList, ?_, by decide⟩
    rw [WritesEntries]
    exact ⟨[], "'\x7d\n'".toList, [], hgap 0,
      ⟨by decide, '\'', .inl rfl, by decide, by decide⟩, hgap 0, .inl ⟨rfl, by decide⟩⟩
  have hkey : WritesKey (some "on") " on :".toList :=
    ⟨by decide, [' '], [' '], [], hgap 1, hgap 1, hgap 0, by decide⟩
  have hwrites : Writes (.tags entries) text := by
    rw [Writes]
    refine ⟨by decide, "07, on :\x7b'\x7d\n'\x7d ,".toList, ?_, by decide⟩
    rw [WritesEntries]
    refine ⟨[], "07".toList, [], hgap 0, ⟨by decide, by decide, by decide⟩, hgap 0,
      .inr ⟨" on :\x7b'\x7d\n'\x7d ,".toList, ?_, by decide⟩⟩
    rw [WritesEntries]
    exact ⟨_, _, [' '], hkey, hinner, hgap 1, .inr ⟨[], hgap 0, by decide⟩⟩
  exact ⟨hwrites, (read_written_list entries (by decide +kernel)).2 text " \x7d".toList hwrites⟩

end Notation
end DocTags
