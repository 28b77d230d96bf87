import DocTags.Proofs.Lossless
import DocTags.Proofs.Notation
import DocTags.Proofs.Numerals

/-!
# The grammar of plain lists

The list of a plain tag has a grammar: entries with commas between them and perhaps one behind the
last, an entry is an item that may have a key, and an item is a string, a word of a certain form or
a list in braces.  `Derives` is that grammar, on tokens without the blanks, with the values that are
denoted.

The reader is no copy of the grammar.  It takes one token at a time, and what it keeps of those it
has seen is a key and a pending item.  `Step` says once what each token does to it.  From left to
right the invariant is `Taken`: the tokens since the last separator are the front part of an entry,
whose key and item are what the reader keeps.  So the reader finds a derivation or fails with an
error (`settles_outcome`).  The other way round, each derivation is followed by the reader
(`Derives.isRead`), whatever stands behind it, so there is one derivation at most.

The main result is `reads_exactly_grammar`.
-/

namespace DocTags

/-! ## What a list means -/

/-- The item has a value by itself: no setting and no reader make a difference. -/
def Item.Means (i : Item) (v : Value) : Prop :=
  ∀ (x : Setting) (r : Reader), x.item i r = (.ok v, r)

/-- Reading the list adds the entries, in order, to those before. -/
def Entries.Means (es : Entries) (entries : List (Option String × Value)) : Prop :=
  ∀ (x : Setting) (r : Reader) (acc : TagList), x.entries es acc r =
    (.ok (entries.foldl (fun acc entry => acc.append entry.1 entry.2) acc), r)

/-- Reading the list ends with an error about a token. -/
def Entries.Fails (es : Entries) : Prop :=
  ∃ fault t, ∀ (x : Setting) (r : Reader) (acc : TagList),
    x.entries es acc r = (.error (.malformed fault (some t)), r)

lemma Item.Means.list {es : Entries} {entries : List (Option String × Value)}
    (h : es.Means entries) : (Item.list es).Means (.tags (TagList.ofEntries entries)) := by
  intro x r
  rw [Setting.item, Run.bind_ok (h x r [])]
  rfl

lemma Entries.means_closed : closed.Means [] :=
  fun _ _ _ => rfl

lemma Entries.Means.entry {key : Option String} {i : Item} {v : Value} {es : Entries}
    {entries : List (Option String × Value)} (hi : i.Means v) (hes : es.Means entries) :
    (Entries.entry key i es).Means ((key, v) :: entries) := by
  intro x r acc
  rw [Setting.entries, Run.bind_ok (hi x r), hes]
  rfl

lemma Entries.Fails.entry {key : Option String} {i : Item} {v : Value} {es : Entries}
    (hi : i.Means v) (hes : es.Fails) : (Entries.entry key i es).Fails := by
  obtain ⟨fault, t, hfail⟩ := hes
  refine ⟨fault, t, fun x r acc => ?_⟩
  rw [Setting.entries, Run.bind_ok (hi x r), hfail]

lemma Entries.fails_broken (fault : Malformation) (t : Token) :
    (broken none (.malformed fault (some t))).Fails :=
  ⟨fault, t, fun _ _ _ => rfl⟩

lemma Entries.fails_broken_means {i : Item} {v : Value} (hi : i.Means v) (fault : Malformation)
    (t : Token) : (broken (some i) (.malformed fault (some t))).Fails := by
  refine ⟨fault, t, fun x r acc => ?_⟩
  rw [Setting.entries, Run.bind_ok (hi x r)]
  rfl

/-- A list that fails inside another one makes that one fail first. -/
lemma Entries.fails_broken_fails {es : Entries} (hes : es.Fails) (e : Error) :
    (broken (some (.list es)) e).Fails := by
  obtain ⟨fault, t, hfail⟩ := hes
  refine ⟨fault, t, fun x r acc => ?_⟩
  have hitem : x.item (.list es) r = (.error (.malformed fault (some t)), r) := by
    rw [Setting.item, Run.bind_error (hfail x r [])]
  rw [Setting.entries, Run.bind_error hitem]

namespace PlainList

/-! ## Words and strings -/

/-- The words that are keywords. -/
def keywords : List String :=
  ["true", "false", "null"]

/-- What a text without quotes denotes as a word: keywords first, then numerals, integers before
the others, and then the words of ASCII letters, digits and underscores, which denote themselves. -/
inductive WordDenotes (text : String) : Value → Prop
  | truth (h : text = "true") : WordDenotes text (.bool true)
  | falsity (h : text = "false") : WordDenotes text (.bool false)
  | null (h : text = "null") : WordDenotes text .null
  | integer (h : Numeral.isDigits text.toList = true) :
      WordDenotes text (.int (Numeral.ofDigits text.toList))
  | float {n : Numeral} (hdigits : Numeral.isDigits text.toList = false)
      (h : Numeral.Spells n text.toList) : WordDenotes text (.float n.toBinary64 0)
  | bare (hkeyword : text ∉ keywords) (hnumeral : ∀ n, ¬ Numeral.Spells n text.toList)
      (hne : text ≠ "") (h : ∀ c ∈ text.toList, isBareChar c = true) : WordDenotes text (.str text)

/-- What a word or a string denotes. -/
inductive Denotes (t : Token) : Value → Prop
  | string (h : t.kind = .string) : Denotes t (.str (unquote t.text))
  | word {v : Value} (h : t.kind = .word) (hquote : '\'' ∉ t.text.toList)
      (hquote' : '"' ∉ t.text.toList) (hword : WordDenotes t.text v) : Denotes t v

/-- The token is no integer that is too long to be read. -/
def IsLegible (t : Token) : Prop :=
  t.kind = .word → Numeral.isDigits t.text.toList = true → t.text.length ≤ Numeral.maxDigits

instance (t : Token) : Decidable (IsLegible t) :=
  inferInstanceAs (Decidable (_ → _ → _))

lemma not_mem_keywords {text : String} :
    text ∉ keywords ↔ text ≠ "true" ∧ text ≠ "false" ∧ text ≠ "null" := by
  simp [keywords]

lemma read?_eq_none_iff {cs : List Char} :
    Numeral.read? cs = none ↔ ∀ n, ¬ Numeral.Spells n cs := by
  rw [Option.eq_none_iff_forall_ne_some]
  exact forall_congr' fun n => not_congr Numeral.read?_eq_some_iff

/-- Keywords are no numerals. -/
lemma not_mem_keywords_of_spells {text : String} {n : Numeral}
    (h : Numeral.Spells n text.toList) : text ∉ keywords := by
  have hread := Numeral.read?_eq_some_iff.2 h
  rw [not_mem_keywords]
  refine ⟨?_, ?_, ?_⟩ <;> rintro rfl <;> cases hread

/-- A word that is no literal denotes itself if it is made of the right characters. -/
lemma itemOf_of_not_literal {t : Token} (hlit : literal? t = .ok none) :
    itemOf .plain t =
      if !t.text.toList.isEmpty && t.text.toList.all isBareChar then .ok (.value (.str t.text))
      else .error (.malformed .unexpectedValue (some t)) := by
  unfold itemOf
  rw [hlit]
  rfl

section Word

variable {t : Token} (hk : t.kind = .word) (hquote : '\'' ∉ t.text.toList)
  (hquote' : '"' ∉ t.text.toList)

include hk hquote hquote'

/-- Past the keywords and the integers, a word without quotes is read as a numeral if it is one. -/
lemma literal?_of_not_integer (hword : t.text ∉ keywords)
    (hdigits : Numeral.isDigits t.text.toList = false) :
    literal? t = .ok ((Numeral.read? t.text.toList).map fun n => .float n.toBinary64 0) := by
  obtain ⟨htrue, hfalse, hnull⟩ := not_mem_keywords.1 hword
  cases hread : Numeral.read? t.text.toList with
  | none => simp [literal?, hk, hquote, hquote', htrue, hfalse, hnull, hdigits, hread]
  | some n => simp [literal?, hk, hquote, hquote', htrue, hfalse, hnull, hdigits, hread]

lemma itemOf_word {v : Value} (hlegible : IsLegible t) (h : WordDenotes t.text v) :
    itemOf .plain t = .ok (.value v) := by
  cases h with
  | truth h => exact Notation.itemOf_literal (by simp [literal?, hk, h])
  | falsity h => exact Notation.itemOf_literal (by simp [literal?, hk, h])
  | null h => exact Notation.itemOf_literal (by simp [literal?, hk, h])
  | integer h =>
    have hlength : t.text.toList.length ≤ Numeral.maxDigits := by
      rw [String.length_toList]
      exact hlegible hk h
    have hlit := Notation.literal?_digits h hlength t.position
    rw [String.ofList_toList, ← hk] at hlit
    exact Notation.itemOf_literal hlit
  | float hdigits h =>
    refine Notation.itemOf_literal ?_
    rw [literal?_of_not_integer hk hquote hquote' (not_mem_keywords_of_spells h) hdigits,
      Numeral.read?_eq_some_iff.2 h]
    rfl
  | bare hkeyword hnumeral hne h =>
    have hread := read?_eq_none_iff.2 hnumeral
    have hdigits : Numeral.isDigits t.text.toList = false := by
      rw [Bool.eq_false_iff]
      exact fun h => hnumeral _ (Numeral.spells_of_isDigits h)
    rw [itemOf_of_not_literal, if_pos]
    · simpa using ⟨hne, h⟩
    · rw [literal?_of_not_integer hk hquote hquote' hkeyword hdigits, hread]
      rfl

/-- A word without quotes denotes something or is refused. -/
lemma itemOf_word_cases (hlegible : IsLegible t) :
    (∃ v, WordDenotes t.text v ∧ itemOf .plain t = .ok (.value v)) ∨
      itemOf .plain t = .error (.malformed .unexpectedValue (some t)) := by
  suffices h : (∃ v, WordDenotes t.text v) ∨
      itemOf .plain t = .error (.malformed .unexpectedValue (some t)) by
    rcases h with ⟨v, hv⟩ | h
    · exact .inl ⟨v, hv, itemOf_word hk hquote hquote' hlegible hv⟩
    · exact .inr h
  by_cases hkeyword : t.text ∈ keywords
  · refine .inl ?_
    simp only [keywords, List.mem_cons, List.not_mem_nil, or_false] at hkeyword
    rcases hkeyword with h | h | h
    · exact ⟨_, .truth h⟩
    · exact ⟨_, .falsity h⟩
    · exact ⟨_, .null h⟩
  cases hdigits : Numeral.isDigits t.text.toList with
  | true => exact .inl ⟨_, .integer hdigits⟩
  | false =>
    cases hread : Numeral.read? t.text.toList with
    | some n => exact .inl ⟨_, .float hdigits (Numeral.read?_eq_some_iff.1 hread)⟩
    | none =>
      have hlit := literal?_of_not_integer hk hquote hquote' hkeyword hdigits
      rw [hread] at hlit
      rw [itemOf_of_not_literal hlit]
      split
      · next hbare =>
        simp only [Bool.and_eq_true, Bool.not_eq_true', List.isEmpty_eq_false_iff,
          List.all_eq_true] at hbare
        refine .inl ⟨_, .bare hkeyword (read?_eq_none_iff.1 hread) ?_ hbare.2⟩
        rintro hempty
        exact hbare.1 (by rw [hempty]; rfl)
      · exact .inr rfl

end Word

lemma itemOf_of_denotes {t : Token} {v : Value} (hlegible : IsLegible t)
    (h : Denotes t v) : itemOf .plain t = .ok (.value v) := by
  cases h with
  | string h => exact Notation.itemOf_literal (by simp [literal?, h])
  | word h hquote hquote' hword => exact itemOf_word h hquote hquote' hlegible hword

/-- A word or a string denotes something or is refused. -/
lemma itemOf_cases {t : Token} (hk : t.kind = .word ∨ t.kind = .string)
    (hlegible : IsLegible t) :
    (∃ v, Denotes t v ∧ itemOf .plain t = .ok (.value v)) ∨
      ∃ fault, itemOf .plain t = .error (.malformed fault (some t)) := by
  rcases hk with hk | hk
  · by_cases hquote : '\'' ∈ t.text.toList ∨ '"' ∈ t.text.toList
    · refine .inr ⟨.unterminatedString, ?_⟩
      have hlit : literal? t = .error (.malformed .unterminatedString (some t)) := by
        rcases hquote with h | h <;> simp [literal?, hk, h]
      unfold itemOf
      rw [hlit]
      rfl
    · rw [not_or] at hquote
      obtain ⟨hquote, hquote'⟩ := hquote
      rcases itemOf_word_cases hk hquote hquote' hlegible with ⟨v, hv, hitem⟩ | h
      · exact .inl ⟨v, .word hk hquote hquote' hv, hitem⟩
      · exact .inr ⟨_, h⟩
  · exact .inl ⟨_, .string hk, itemOf_of_denotes hlegible (.string hk)⟩

/-! ## The grammar -/

/-- The parts of a list, with what they denote. -/
inductive Phrase where
  | item (v : Value)
  | entry (key : Option String) (v : Value)
  | list (entries : List (Option String × Value))

/-- The grammar of plain lists, on tokens without the blanks. -/
inductive Derives : Phrase → List Token → Prop
  | leaf {t : Token} {v : Value} (h : Denotes t v) : Derives (.item v) [t]
  | braces {opening closing : Token} {entries : List (Option String × Value)} {ts : List Token}
      (hopen : opening.kind = .leftBrace) (h : Derives (.list entries) ts)
      (hclose : closing.kind = .rightBrace) :
      Derives (.item (.tags (TagList.ofEntries entries))) (opening :: (ts ++ [closing]))
  | unnamed {v : Value} {ts : List Token} (h : Derives (.item v) ts) : Derives (.entry none v) ts
  | named {key colon : Token} {v : Value} {ts : List Token} (hkey : key.kind = .word)
      (halpha : Text.isAlphabetic key.text.toList = true) (hcolon : colon.kind = .colon)
      (h : Derives (.item v) ts) : Derives (.entry (some key.text) v) (key :: colon :: ts)
  | nothing : Derives (.list []) []
  | last {key : Option String} {v : Value} {ts : List Token} (h : Derives (.entry key v) ts) :
      Derives (.list [(key, v)]) ts
  /-- With nothing behind it, the comma is a trailing one. -/
  | more {key : Option String} {v : Value} {entries : List (Option String × Value)}
      {comma : Token} {ts us : List Token} (h : Derives (.entry key v) ts)
      (hcomma : comma.kind = .comma) (hmore : Derives (.list entries) us) :
      Derives (.list ((key, v) :: entries)) (ts ++ comma :: us)

/-- The tokens without the blanks. -/
def inked (ts : List Token) : List Token :=
  ts.filter fun t => t.kind != .whitespace

/-- The tokens are those of a list with its closing brace, which is the last of them. -/
def IsClosedList (entries : List (Option String × Value)) (ts : List Token) : Prop :=
  ∃ body closing, ts = body ++ [closing] ∧ closing.kind = .rightBrace ∧
    Derives (.list entries) (inked body)

section Reading

open Entries

variable {eof : Token} {started : Bool} {key : Option String} {pending : Option Pending}

/-! ## Derivations are followed -/

lemma inked_cons {t : Token} (h : t.kind ≠ .whitespace) (ts : List Token) :
    inked (t :: ts) = t :: inked ts :=
  List.filter_cons_of_pos (by simpa using h)

lemma inked_blank {t : Token} (h : t.kind = .whitespace) : inked [t] = [] :=
  List.filter_cons_of_neg (by simpa using h)

lemma inked_append (ts us : List Token) : inked (ts ++ us) = inked ts ++ inked us :=
  List.filter_append ts us

lemma outcome_of_inked_nil {us : List Token} (h : inked us = []) (rest : List Token) :
    outcome eof .plain .rightBrace started key pending (us ++ rest) =
      outcome eof .plain .rightBrace started key pending rest := by
  induction us with
  | nil => rfl
  | cons t us ih =>
    by_cases hk : t.kind = .whitespace
    · rw [inked, List.filter_cons_of_neg (by simpa using hk)] at h
      rw [List.cons_append, outcome_whitespace hk, ih h]
    · rw [inked_cons hk] at h
      cases h

lemma exists_of_inked_append {us before behind : List Token} {t : Token}
    (h : inked us = before ++ t :: behind) :
    ∃ us₁ us₂, us = us₁ ++ t :: us₂ ∧ inked us₁ = before ∧ inked us₂ = behind := by
  obtain ⟨front, back, rfl, hfront, hback⟩ := List.filter_eq_append_iff.1 h
  obtain ⟨blanks, us₂, rfl, hblanks, -, hbehind⟩ := List.filter_eq_cons_iff.1 hback
  refine ⟨front ++ blanks, us₂, (List.append_assoc _ _ _).symm, ?_, hbehind⟩
  rw [inked_append, inked, hfront, inked, List.filter_eq_nil_iff.2 hblanks, List.append_nil]

/-- The blanks before a token are passed over, and those behind it are left. -/
lemma exists_of_inked_cons {us ts : List Token} {t : Token} (h : inked us = t :: ts) :
    ∃ us', inked us' = ts ∧ ∀ eof started key pending rest,
      outcome eof .plain .rightBrace started key pending (us ++ rest) =
        outcome eof .plain .rightBrace started key pending (t :: (us' ++ rest)) := by
  have hfront : inked us = [] ++ t :: ts := h
  obtain ⟨blanks, us', rfl, hblanks, hrest⟩ := exists_of_inked_append hfront
  refine ⟨us', hrest, fun eof started key pending rest => ?_⟩
  rw [List.append_assoc, outcome_of_inked_nil hblanks]
  rfl

/-- What the reader makes of a phrase: an item or an entry becomes pending, and a list is closed by
the brace behind it. -/
def Phrase.IsRead (eof : Token) : Phrase → List Token → Prop
  | .item v, us => ∀ (started : Bool) (key : Option String) (rest : List Token),
    ∃ (p : Pending) (i : Item), p.item .plain .rightBrace started key = .ok i ∧ i.Means v ∧
      outcome eof .plain .rightBrace started key none (us ++ rest) =
        outcome eof .plain .rightBrace started key (some p) rest
  | .entry key v, us => ∀ (started : Bool) (rest : List Token),
    ∃ (p : Pending) (i : Item), p.item .plain .rightBrace started key = .ok i ∧ i.Means v ∧
      outcome eof .plain .rightBrace started none none (us ++ rest) =
        outcome eof .plain .rightBrace started key (some p) rest
  | .list entries, us => ∀ (started : Bool) (closing : Token) (rest : List Token),
    closing.kind = .rightBrace → ∃ es : Entries, es.Means entries ∧
      outcome eof .plain .rightBrace started none none (us ++ closing :: rest) = (es, rest)

lemma Denotes.kind {t : Token} {v : Value} (h : Denotes t v) :
    t.kind = .word ∨ t.kind = .string := by
  cases h with
  | string h => exact .inr h
  | word h _ _ _ => exact .inl h

/-- The reader follows a derivation, wherever blanks stand in the tokens. -/
lemma Derives.isRead {phrase : Phrase} {ts : List Token} (h : Derives phrase ts) (eof : Token)
    (hlegible : ∀ t ∈ ts, IsLegible t) {us : List Token} (hus : inked us = ts) :
    phrase.IsRead eof us := by
  induction h generalizing us with
  | @leaf t v h =>
    intro started key rest
    obtain ⟨us', hus', hskip⟩ := exists_of_inked_cons hus
    refine ⟨.token t, .value v, ?_, fun _ _ => rfl, ?_⟩
    · simpa [Pending.item] using itemOf_of_denotes (hlegible t List.mem_cons_self) h
    · rw [hskip, outcome_token h.kind rfl, outcome_of_inked_nil hus']
  | @braces opening closing entries ts hopen h hclose ih =>
    intro started key rest
    obtain ⟨us', hus', hskip⟩ := exists_of_inked_cons hus
    obtain ⟨inside, behind, rfl, hinside, hbehind⟩ := exists_of_inked_append hus'
    have hlegible' : ∀ t ∈ ts, IsLegible t := fun t ht => hlegible t (by simp [ht])
    obtain ⟨es, hes, hout⟩ := ih hlegible' hinside false closing (behind ++ rest) hclose
    refine ⟨.nested (.list es) opening, .list es, by simp [Pending.item], .list hes, ?_⟩
    rw [hskip, List.append_assoc, List.cons_append, outcome_leftBrace hopen hout,
      outcome_of_inked_nil hbehind]
  | unnamed h ih => exact fun started rest => ih hlegible hus started none rest
  | @named k colon v ts hkey halpha hcolon h ih =>
    intro started rest
    obtain ⟨us', hus', hskip⟩ := exists_of_inked_cons hus
    obtain ⟨us'', hus'', hskip'⟩ := exists_of_inked_cons hus'
    have hlegible' : ∀ t ∈ ts, IsLegible t := fun t ht => hlegible t (by simp [ht])
    obtain ⟨p, i, hp, hi, hout⟩ := ih hlegible' hus'' started (some k.text) rest
    refine ⟨p, i, hp, hi, ?_⟩
    rw [hskip, outcome_token (.inl hkey) rfl, hskip', outcome_colon hcolon halpha, hout]
  | nothing =>
    intro started closing rest hclose
    exact ⟨.closed, means_closed, by
      rw [outcome_of_inked_nil hus, outcome_rightBrace_closed hclose]⟩
  | last h ih =>
    intro started closing rest hclose
    obtain ⟨p, i, hp, hi, hout⟩ := ih hlegible hus started (closing :: rest)
    exact ⟨_, .entry hi means_closed, by rw [hout, outcome_rightBrace hclose hp]⟩
  | @more key v entries comma ts ts' h hcomma hmore ih ihmore =>
    intro started closing rest hclose
    obtain ⟨front, back, rfl, hfront, hback⟩ := exists_of_inked_append hus
    obtain ⟨p, i, hp, hi, hout⟩ :=
      ih (fun t ht => hlegible t (by simp [ht])) hfront started (comma :: (back ++ closing :: rest))
    obtain ⟨es, hes, hout'⟩ :=
      ihmore (fun t ht => hlegible t (by simp [ht])) hback true closing rest hclose
    exact ⟨_, .entry hi hes, by
      rw [List.append_assoc, List.cons_append, hout, outcome_comma hcomma hp hout']⟩

/-! ## What a token does -/

/-- The tokens that plain lists are read from: there is no annotation among them, no integer that is
too long, and no string that is all letters, since a string has its quotes. -/
structure IsPlain (t : Token) : Prop where
  kind_ne : t.kind ≠ .atSign
  legible : IsLegible t
  quoted : t.kind = .string → Text.isAlphabetic t.text.toList = false

/-- What may be pending, with the tokens it was read from. -/
inductive Waiting : Pending → List Token → Prop
  | token {t : Token} (hk : t.kind = .word ∨ t.kind = .string) (hplain : IsPlain t) :
      Waiting (.token t) [t]
  | list {es : Entries} {opening : Token} {v : Value} {ts : List Token}
      (hes : (Item.list es).Means v) (h : Derives (.item v) ts) :
      Waiting (.nested (.list es) opening) ts

/-- What is pending is an item of the grammar, or is malformed. -/
lemma Waiting.item_cases {p : Pending} {ts : List Token} (h : Waiting p ts) (started : Bool)
    (key : Option String) :
    (∃ i v, p.item .plain .rightBrace started key = .ok i ∧ i.Means v ∧ Derives (.item v) ts) ∨
      ∃ fault t, p.item .plain .rightBrace started key = .error (.malformed fault (some t)) := by
  cases h with
  | @token t hk hplain =>
    have hitem : (Pending.token t).item .plain .rightBrace started key = itemOf .plain t := by
      simp [Pending.item]
    rw [hitem]
    rcases itemOf_cases hk hplain.legible with ⟨v, hv, hitem⟩ | ⟨fault, hitem⟩
    · exact .inl ⟨.value v, v, hitem, fun _ _ => rfl, .leaf hv⟩
    · exact .inr ⟨fault, t, hitem⟩
  | @list es opening v ts hes h => exact .inl ⟨.list es, v, by simp [Pending.item], hes, h⟩

/-- What a token does to the reader of a plain list. -/
inductive Step (eof : Token) (started : Bool) : Option String → Option Pending → Token →
    List Token → Entries × List Token → Prop
  | blank {key : Option String} {pending : Option Pending} {t : Token} {ts : List Token}
      (h : t.kind = .whitespace) :
      Step eof started key pending t ts (outcome eof .plain .rightBrace started key pending ts)
  | token {key : Option String} {t : Token} {ts : List Token}
      (h : t.kind = .word ∨ t.kind = .string) :
      Step eof started key none t ts
        (outcome eof .plain .rightBrace started key (some (.token t)) ts)
  | brace {key : Option String} {t : Token} {ts : List Token} (h : t.kind = .leftBrace) :
      Step eof started key none t ts
        (outcome eof .plain .rightBrace started key
          (some (.nested (.list (outcome eof .plain .rightBrace false none none ts).1) t))
          (outcome eof .plain .rightBrace false none none ts).2)
  | colon {p t : Token} {ts : List Token} (h : t.kind = .colon)
      (halpha : Text.isAlphabetic p.text.toList = true) :
      Step eof started none (some (.token p)) t ts
        (outcome eof .plain .rightBrace started (some p.text) none ts)
  | comma {key : Option String} {p : Pending} {i : Item} {t : Token} {ts : List Token}
      (h : t.kind = .comma) (hp : p.item .plain .rightBrace started key = .ok i) :
      Step eof started key (some p) t ts
        (.entry key i (outcome eof .plain .rightBrace true none none ts).1,
          (outcome eof .plain .rightBrace true none none ts).2)
  | close {key : Option String} {p : Pending} {i : Item} {t : Token} {ts : List Token}
      (h : t.kind = .rightBrace) (hp : p.item .plain .rightBrace started key = .ok i) :
      Step eof started key (some p) t ts (.entry key i .closed, ts)
  | closeEmpty {t : Token} {ts : List Token} (h : t.kind = .rightBrace) :
      Step eof started none none t ts (.closed, ts)
  | fail {key : Option String} {pending : Option Pending} {t : Token} {ts : List Token}
      (fault : Malformation) (blamed : Token) :
      Step eof started key pending t ts
        (.broken (Pending.effect? pending) (.malformed fault (some blamed)), [])

lemma step_outcome {t : Token} (hat : t.kind ≠ .atSign) (hp : ∀ p ∈ pending, ∃ us, Waiting p us)
    (ts : List Token) :
    Step eof started key pending t ts
      (outcome eof .plain .rightBrace started key pending (t :: ts)) := by
  obtain ⟨kind, text, position⟩ := t
  unfold outcome
  rw [parse.eq_def]
  cases kind with
  | whitespace => exact .blank rfl
  | atSign => exact absurd rfl hat
  | leftBrace =>
    cases pending with
    | none => exact .brace rfl
    | some p => exact .fail _ _
  | comma =>
    cases pending with
    | none => exact .fail _ _
    | some p =>
      obtain ⟨us, hus⟩ := hp p rfl
      rcases hus.item_cases started key with ⟨i, v, hi, -⟩ | ⟨fault, t, hi⟩
      · simp only [hi]
        exact .comma rfl hi
      · simp only [hi]
        exact .fail _ _
  | colon =>
    match key, pending with
    | none, some (.token p) =>
      cases halpha : Text.isAlphabetic p.text.toList with
      | true =>
        simp only [halpha]
        exact .colon rfl halpha
      | false =>
        simp only [halpha]
        exact .fail _ _
    | none, none => exact .fail _ _
    | none, some (.nested _ _) => exact .fail _ _
    | some _, _ => exact .fail _ _
  | rightBrace =>
    match pending, key with
    | some p, key =>
      obtain ⟨us, hus⟩ := hp p rfl
      rcases hus.item_cases started key with ⟨i, v, hi, -⟩ | ⟨fault, t, hi⟩
      · simp only [hi]
        exact .close rfl hi
      · simp only [hi]
        exact .fail _ _
    | none, some key => exact .fail _ _
    | none, none => exact .closeEmpty rfl
  | word =>
    cases pending with
    | none => exact .token (.inl rfl)
    | some p => exact .fail _ _
  | string =>
    cases pending with
    | none => exact .token (.inr rfl)
    | some p => exact .fail _ _
  | leftParen => exact .fail _ _
  | rightParen => exact .fail _ _
  | equals => exact .fail _ _
  | eof => exact .fail _ _

/-! ## The reader finds derivations -/

/-- The tokens since the last separator, and what the reader keeps of them. -/
inductive Taken : Option String → Option Pending → List Token → Prop
  | nothing : Taken none none []
  | key {k colon : Token} (hk : k.kind = .word) (halpha : Text.isAlphabetic k.text.toList = true)
      (hcolon : colon.kind = .colon) : Taken (some k.text) none [k, colon]
  | item {key : Option String} {p : Pending} {front ts : List Token} (h : Taken key none front)
      (hp : Waiting p ts) : Taken key (some p) (front ++ ts)

lemma Taken.waiting {taken : List Token} (h : Taken key pending taken) :
    ∀ p ∈ pending, ∃ us, Waiting p us := by
  cases h with
  | nothing => exact fun p hp => nomatch hp
  | key _ _ _ => exact fun p hp => nomatch hp
  | item _ hp =>
    rintro p ⟨rfl⟩
    exact ⟨_, hp⟩

/-- An item completes the entry that was begun. -/
lemma Taken.entry {front ts : List Token} {v : Value} (h : Taken key none front)
    (hv : Derives (.item v) ts) : Derives (.entry key v) (front ++ ts) := by
  cases h with
  | nothing => exact .unnamed hv
  | key hk halpha hcolon => exact .named hk halpha hcolon hv

lemma Taken.exists_entry {taken : List Token} {p : Pending} {i : Item}
    (h : Taken key (some p) taken) (hi : p.item .plain .rightBrace started key = .ok i) :
    ∃ v, i.Means v ∧ Derives (.entry key v) taken := by
  cases h with
  | item h hp =>
    rcases hp.item_cases started key with ⟨i', v, hi', hmeans, hv⟩ | ⟨fault, t, herror⟩
    · rw [hi] at hi'
      obtain rfl := Except.ok.inj hi'
      exact ⟨v, hmeans, h.entry hv⟩
    · rw [hi] at herror
      cases herror

lemma Taken.fails {taken : List Token} (h : Taken key pending taken) (fault : Malformation)
    (t : Token) : (Entries.broken (Pending.effect? pending) (.malformed fault (some t))).Fails := by
  cases h with
  | nothing => exact fails_broken fault t
  | key _ _ _ => exact fails_broken fault t
  | item _ hp =>
    cases hp with
    | token _ _ => exact fails_broken fault t
    | list hes _ => exact fails_broken_means hes fault t

/-- The reader has found a list that begins with the tokens already taken, and has left what is
behind its closing brace, or it has failed. -/
def Settles (taken ts : List Token) (out : Entries × List Token) : Prop :=
  (∃ body closing entries, ts = body ++ closing :: out.2 ∧ closing.kind = .rightBrace ∧
    Derives (.list entries) (taken ++ inked body) ∧ out.1.Means entries) ∨
  out.1.Fails ∧ out.2 = []

lemma Settles.append {taken us rest : List Token} {out : Entries × List Token}
    (h : Settles (taken ++ inked us) rest out) : Settles taken (us ++ rest) out := by
  rcases h with ⟨body, closing, entries, rfl, hclose, hder, hmeans⟩ | hfail
  · refine .inl ⟨us ++ body, closing, entries, (List.append_assoc _ _ _).symm, hclose, ?_, hmeans⟩
    rwa [inked_append, ← List.append_assoc]
  · exact .inr hfail

lemma Settles.cons {taken ts : List Token} {t : Token} {out : Entries × List Token}
    (hk : t.kind ≠ .whitespace) (h : Settles (taken ++ [t]) ts out) :
    Settles taken (t :: ts) out := by
  refine @Settles.append taken [t] ts out ?_
  rwa [inked_cons hk]

/-- A list inside is taken with its braces. -/
lemma Settles.braces {taken body rest : List Token} {opening closing : Token}
    {out : Entries × List Token} (hopen : opening.kind = .leftBrace)
    (hclose : closing.kind = .rightBrace)
    (h : Settles (taken ++ opening :: (inked body ++ [closing])) rest out) :
    Settles taken (opening :: (body ++ closing :: rest)) out := by
  have hink : inked (opening :: (body ++ [closing])) = opening :: (inked body ++ [closing]) := by
    rw [inked_cons (by rw [hopen]; decide), inked_append, inked_cons (by rw [hclose]; decide)]
    rfl
  have hsplit : opening :: (body ++ closing :: rest) = opening :: (body ++ [closing]) ++ rest := by
    rw [List.cons_append, List.append_assoc, List.singleton_append]
  rw [hsplit]
  rw [← hink] at h
  exact h.append

lemma outcome_nil :
    outcome eof .plain .rightBrace started key pending [] =
      (.broken (Pending.effect? pending) (.malformed .endOfText (some eof)), []) := by
  unfold outcome
  rw [parse.eq_def]
  rfl

/-- Whatever the tokens, the reader finds a derivation of those it takes or fails. -/
lemma settles_outcome (started : Bool) {taken ts : List Token} (htaken : Taken key pending taken)
    (hplain : ∀ t ∈ ts, IsPlain t) :
    Settles taken ts (outcome eof .plain .rightBrace started key pending ts) := by
  -- A nested list may leave any part of the tokens, so the induction is on their number.
  induction hn : ts.length using Nat.strong_induction_on generalizing started key pending taken ts
    with
  | _ n ih =>
  cases ts with
  | nil =>
    rw [outcome_nil]
    exact .inr ⟨htaken.fails _ _, rfl⟩
  | cons t ts =>
    obtain ⟨ht, hts⟩ := List.forall_mem_cons.1 hplain
    have hlt : ts.length < n := by
      rw [← hn, List.length_cons]
      omega
    have hstep : Step eof started key pending t ts
        (outcome eof .plain .rightBrace started key pending (t :: ts)) :=
      step_outcome ht.kind_ne htaken.waiting ts
    generalize outcome eof .plain .rightBrace started key pending (t :: ts) = out at hstep ⊢
    cases hstep with
    | blank h =>
      have hrest := ih _ hlt started htaken hts rfl
      rw [← List.append_nil taken, ← inked_blank h] at hrest
      exact hrest.append
    | token h =>
      have hk : t.kind ≠ .whitespace := by
        rcases h with h | h <;> rw [h] <;> decide
      exact .cons hk (ih _ hlt started (.item htaken (.token h ht)) hts rfl)
    | brace h =>
      rcases ih _ hlt false .nothing hts rfl with
        ⟨body, closing, entries, hsplit, hclose, hder, hmeans⟩ | ⟨hfail, hnil⟩
      · generalize outcome eof .plain .rightBrace false none none ts = inner at hsplit hmeans ⊢
        subst hsplit
        have hlt' : inner.2.length < n := by
          simp only [List.length_append, List.length_cons] at hlt
          omega
        refine .braces h hclose (ih _ hlt' started ?_ (fun t ht => hts t (by simp [ht])) rfl)
        exact .item htaken (.list (.list hmeans) (.braces h hder hclose))
      · rw [hnil, outcome_nil]
        exact .inr ⟨fails_broken_fails hfail _, rfl⟩
    | @colon p _ _ h halpha =>
      -- Only a word is all letters, and before it there was no key.
      cases htaken with
      | item hfront hp =>
        cases hfront with
        | nothing =>
          cases hp with
          | token hk hp =>
            have hword : p.kind = .word := hk.resolve_right fun hstring => by
              rw [hp.quoted hstring] at halpha
              cases halpha
            exact .cons (by rw [h]; decide) (ih _ hlt started (.key hword halpha h) hts rfl)
    | comma h hp =>
      obtain ⟨v, hv, hder⟩ := htaken.exists_entry hp
      rcases ih _ hlt true .nothing hts rfl with
        ⟨body, closing, entries, hsplit, hclose, hder', hmeans⟩ | ⟨hfail, hnil⟩
      · refine .inl ⟨t :: body, closing, _, congrArg (t :: ·) hsplit, hclose, ?_, .entry hv hmeans⟩
        rw [inked_cons (by rw [h]; decide)]
        exact .more hder h hder'
      · exact .inr ⟨.entry hv hfail, hnil⟩
    | close h hp =>
      obtain ⟨v, hv, hder⟩ := htaken.exists_entry hp
      refine .inl ⟨[], t, _, rfl, h, ?_, .entry hv means_closed⟩
      rw [inked, List.filter_nil, List.append_nil]
      exact .last hder
    | closeEmpty h =>
      cases htaken
      exact .inl ⟨[], t, [], rfl, h, .nothing, means_closed⟩
    | fail fault blamed => exact .inr ⟨htaken.fails fault blamed, rfl⟩

end Reading

/-! ## The reader and the grammar -/

/-- A string is not all letters, for it has its quotes. -/
lemma isAlphabetic_of_string {text : List Char} {t : Token} (ht : t ∈ Token.pieces text)
    (hk : t.kind = .string) : Text.isAlphabetic t.text.toList = false := by
  obtain ⟨l, hl, hkind, htext⟩ := Token.exists_lexeme_of_mem_pieces ht
  obtain ⟨c, hc, hquote⟩ := hl.quoted (hkind ▸ hk)
  have hletter : Text.isLetter c = false := by
    rcases hquote with rfl | rfl <;> decide
  rw [htext, Bool.eq_false_iff]
  intro halpha
  rw [Text.isAlphabetic, Bool.and_eq_true, List.all_eq_true] at halpha
  rw [halpha.2 c hc] at hletter
  cases hletter

/-- The reader of plain lists takes what its grammar derives, and nothing else.  From any token of a
text without annotations and without integers that are too long, it succeeds if and only if a list
with its closing brace stands there, blanks aside.  There is one such list at most; the result has
its entries, added in order, and the tokens behind its closing brace are left.  Where there is none,
the error is that of a malformed text. -/
theorem reads_exactly_grammar (text : String) (start : Nat)
    (hat : ∀ t ∈ Token.tokenize text, t.kind ≠ .atSign)
    (hdigits : ∀ t ∈ Token.tokenize text, IsLegible t) :
    let ts := (Token.pieces text.toList).drop start
    let list := Entries.read (Token.ending text.toList) .plain .rightBrace ts
    (∀ (x : Setting) (r : Reader), (∃ tags, (x.entries list.1 [] r).1 = .ok tags) ↔
      ∃ entries front, front <+: ts ∧ IsClosedList entries front) ∧
    (∀ entries front, front <+: ts → IsClosedList entries front →
      (∀ (x : Setting) (r : Reader),
        x.entries list.1 [] r = (.ok (TagList.ofEntries entries), r)) ∧
      front ++ list.2.1 = ts ∧
      ∀ entries' front', front' <+: ts → IsClosedList entries' front' → front' = front) ∧
    ((¬ ∃ entries front, front <+: ts ∧ IsClosedList entries front) →
      ∃ fault t, ∀ (x : Setting) (r : Reader),
        x.entries list.1 [] r = (.error (.malformed fault (some t)), r)) := by
  intro ts list
  have hplain : ∀ t ∈ ts, IsPlain t := by
    intro t ht
    have hpieces := List.mem_of_mem_drop ht
    have htokens : t ∈ Token.tokenize text := List.mem_append_left _ hpieces
    exact ⟨hat t htokens, hdigits t htokens, isAlphabetic_of_string hpieces⟩
  have hfound : ∀ entries front, front <+: ts → IsClosedList entries front →
      list.1.Means entries ∧ front ++ list.2.1 = ts := by
    rintro _ _ ⟨rest, hrest⟩ ⟨body, closing, rfl, hclose, hder⟩
    have hlegible : ∀ t ∈ inked body, IsLegible t := by
      intro t ht
      refine (hplain t ?_).legible
      rw [← hrest]
      simp [(List.mem_filter.1 ht).1]
    obtain ⟨es, hes, hout⟩ := hder.isRead (Token.ending text.toList) hlegible rfl false closing rest
      hclose
    rw [← List.singleton_append, ← List.append_assoc, hrest] at hout
    obtain ⟨rfl, rfl⟩ := Prod.mk.inj hout
    exact ⟨hes, hrest⟩
  have hsettles : Settles [] ts (list.1, list.2.1) := settles_outcome false .nothing hplain
  have hverdict : (∃ entries front, front <+: ts ∧ IsClosedList entries front) ∨ list.1.Fails := by
    rcases hsettles with ⟨body, closing, entries, hsplit, hclose, hder, -⟩ | ⟨hfail, -⟩
    · refine .inl ⟨entries, body ++ [closing], ⟨list.2.1, ?_⟩, body, closing, rfl, hclose, hder⟩
      rw [List.append_assoc, List.singleton_append]
      exact hsplit.symm
    · exact .inr hfail
  refine ⟨fun x r => ⟨?_, ?_⟩, ?_, ?_⟩
  · rintro ⟨tags, htags⟩
    rcases hverdict with hlist | ⟨fault, t, hfail⟩
    · exact hlist
    · rw [hfail] at htags
      cases htags
  · rintro ⟨entries, front, hfront, hlist⟩
    rw [(hfound entries front hfront hlist).1 x r []]
    exact ⟨_, rfl⟩
  · intro entries front hfront hlist
    obtain ⟨hmeans, hrest⟩ := hfound entries front hfront hlist
    refine ⟨fun x r => hmeans x r [], hrest, fun entries' front' hfront' hlist' => ?_⟩
    have hrest' := (hfound entries' front' hfront' hlist').2
    exact List.append_cancel_right (hrest'.trans hrest.symm)
  · intro hnone
    obtain ⟨fault, t, hfail⟩ := hverdict.resolve_left hnone
    exact ⟨fault, t, fun x r => hfail x r []⟩

/-- A key that is used again, a list under it, a comma behind the last entry, and another brace
behind the list. -/
theorem reads_exactly_grammar_repeated :
    let text := "\x7bn: 1, m: 'x', n: \x7bon\x7d,\x7d \x7d"
    let ts := (Token.pieces text.toList).drop 1
    let list := Entries.read (Token.ending text.toList) .plain .rightBrace ts
    (∀ t ∈ Token.tokenize text, t.kind ≠ .atSign ∧ IsLegible t) ∧
    (∀ (x : Setting) (r : Reader), x.entries list.1 [] r =
      (.ok [(some "n", .tags [(none, .str "on")]), (some "m", .str "x")], r)) ∧
    ts.take 20 ++ list.2.1 = ts := by
  intro text ts list
  have htokens : ∀ t ∈ Token.tokenize text, t.kind ≠ .atSign ∧ IsLegible t := by decide +kernel
  have hone : Derives (.entry (some "n") (.int (Numeral.ofDigits "1".toList)))
      [⟨.word, "n", 1⟩, ⟨.colon, ":", 2⟩, ⟨.word, "1", 4⟩] :=
    @Derives.named ⟨.word, "n", 1⟩ _ _ _ rfl (by decide) rfl
      (@Derives.leaf ⟨.word, "1", 4⟩ _
        (.word rfl (by decide) (by decide) (.integer (by decide))))
  have htext : Derives (.entry (some "m") (.str (unquote "'x'")))
      [⟨.word, "m", 7⟩, ⟨.colon, ":", 8⟩, ⟨.string, "'x'", 10⟩] :=
    @Derives.named ⟨.word, "m", 7⟩ _ _ _ rfl (by decide) rfl
      (@Derives.leaf ⟨.string, "'x'", 10⟩ _ (.string rfl))
  have hword : Derives (.item (.str "on")) [⟨.word, "on", 19⟩] :=
    @Derives.leaf ⟨.word, "on", 19⟩ _ (.word rfl (by decide) (by decide)
      (.bare (by decide) (read?_eq_none_iff.1 (by decide)) (by decide)
        (List.all_eq_true.1 (by decide))))
  have hinner : Derives (.entry (some "n") (.tags (TagList.ofEntries [(none, .str "on")])))
      (⟨.word, "n", 15⟩ :: ⟨.colon, ":", 16⟩ :: ⟨.leftBrace, "\x7b", 18⟩ ::
        ([⟨.word, "on", 19⟩] ++ [⟨.rightBrace, "\x7d", 21⟩])) :=
    @Derives.named ⟨.word, "n", 15⟩ _ _ _ rfl (by decide) rfl
      (.braces rfl (.last (.unnamed hword)) rfl)
  have hlist : Derives (.list _) (_ ++ ⟨.comma, ",", 5⟩ :: (_ ++ ⟨.comma, ",", 13⟩ ::
      (_ ++ ⟨.comma, ",", 22⟩ :: []))) :=
    .more hone rfl (.more htext rfl (.more hinner rfl .nothing))
  have hclosed : IsClosedList [(some "n", .int (Numeral.ofDigits "1".toList)),
      (some "m", .str (unquote "'x'")), (some "n", .tags (TagList.ofEntries [(none, .str "on")]))]
      (ts.take 20) := by
    refine ⟨ts.take 19, ⟨.rightBrace, "\x7d", 23⟩, by decide +kernel, rfl, ?_⟩
    convert hlist using 1
    decide +kernel
  obtain ⟨-, hread, -⟩ := reads_exactly_grammar text 1 (fun t ht => (htokens t ht).1)
    (fun t ht => (htokens t ht).2)
  obtain ⟨hresult, hrest, -⟩ := hread _ _ (List.take_prefix 20 ts) hclosed
  exact ⟨htokens, hresult, hrest⟩

end PlainList
end DocTags
