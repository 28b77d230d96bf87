import DocTags.Proofs.Entries
import Mathlib.Data.List.TakeWhile

/-!
# Reading tags, rule by rule

The readers of lists and of sections take tokens one at a time and decide by what they have seen.
This file takes the decisions apart from the recursion.  `Entries.action` is what the reader of a
list does with one token, and `Entries.Reads` has one rule for each action; `Tag.Reads` does the
same for the tags of a section.  `Entries.reads_iff` and `Tag.reads_iff` say that the rules are the
readers.  What holds of everything that is read can then be shown by induction on the rules.

The first fact of that sort is that a reader looks at nothing behind what it takes: a list that is
closed is read alike whatever follows it (`Entries.Reads.append`).
-/

namespace DocTags

/-- A word or a string is a value, or among arguments a name. -/
lemma value_or_word_of_itemOf {g : Grammar} {t : Token} {item : Item} (h : itemOf g t = .ok item) :
    (∃ v, item = .value v) ∨ g = .argument ∧ ∃ name, item = .word name := by
  unfold itemOf at h
  rcases hliteral : literal? t with e | _ | v <;> rw [hliteral] at h
  · cases h
  · cases g with
    | argument =>
      cases h
      exact .inr ⟨rfl, _, rfl⟩
    | plain =>
      by_cases hbare : (!t.text.toList.isEmpty && t.text.toList.all isBareChar) = true
      · simp only [hbare] at h
        cases h
        exact .inl ⟨_, rfl⟩
      · simp only [hbare] at h
        cases h
  · cases h
    exact .inl ⟨v, rfl⟩

lemma error_of_literal? {t : Token} {e : Error} (h : literal? t = .error e) :
    e = .malformed .unterminatedString (some t) ∨ ∃ n, e = .illegible (.tooManyDigits n) := by
  unfold literal? at h
  dsimp only at h
  split at h
  · cases h
  split at h
  · cases h
    exact .inl rfl
  split at h
  · cases h
  split at h
  · cases h
  split at h
  · cases h
  split at h
  · split at h
    · cases h
      exact .inr ⟨_, rfl⟩
    · cases h
  · split at h <;> cases h

/-- What may be wrong with a word or a string: it is blamed itself, or it has too many digits. -/
lemma error_of_itemOf {g : Grammar} {t : Token} {e : Error} (h : itemOf g t = .error e) :
    (∃ fault, e = .malformed fault (some t) ∧ fault ≠ .endOfText ∧ fault ≠ .unnamedNotFirst) ∨
      ∃ n, e = .illegible (.tooManyDigits n) := by
  unfold itemOf at h
  rcases hliteral : literal? t with e' | _ | v <;> rw [hliteral] at h
  · cases h
    rcases error_of_literal? hliteral with rfl | htoo
    · exact .inl ⟨_, rfl, by simp, by simp⟩
    · exact .inr htoo
  · cases g with
    | argument => cases h
    | plain =>
      by_cases hbare : (!t.text.toList.isEmpty && t.text.toList.all isBareChar) = true
      · simp only [hbare] at h
        cases h
      · simp only [hbare] at h
        cases h
        exact .inl ⟨_, rfl, by simp, by simp⟩
  · cases h

/-- An item took effect before or is what its token denotes. -/
lemma Pending.effect?_or_itemOf {g : Grammar} {closing : TokenKind} {started : Bool}
    {key : Option String} {p : Pending} {item : Item}
    (h : p.item g closing started key = .ok item) :
    effect? (some p) = some item ∨ ∃ t, itemOf g t = .ok item := by
  unfold Pending.item at h
  split at h
  · cases h
  · cases p with
    | token t => exact .inr ⟨t, h⟩
    | nested item t => exact .inl (congrArg some (Except.ok.inj h))

namespace Entries

/-! ## What a token does -/

/-- What the reader of a list does with a token. -/
inductive Action where
  /-- It goes on, with this key and this pending item. -/
  | go (key : Option String) (pending : Option Pending)
  /-- It reads a list in braces, which is pending then. -/
  | list
  /-- It reads an annotation, which is pending then. -/
  | annotated
  /-- It files an item under the key and begins the next entry. -/
  | file (item : Item)
  /-- It ends the list, with a last entry if there is one. -/
  | close (last : Option Item)
  /-- It breaks the list off, behind what has taken effect already. -/
  | fail (before : Option Item) (e : Error)

namespace Action

/-- Breaks a list off at a token. -/
def failAt (pending : Option Pending) (fault : Malformation) (t : Token) : Action :=
  .fail (Pending.effect? pending) (.malformed fault (some t))

/-- Goes on with the item of an entry, if it is one. -/
def ofItem (p : Pending) (act : Item → Action) : Except Error Item → Action
  | .error e => .fail (Pending.effect? (some p)) e
  | .ok item => act item

end Action

/-- The last entries of a list. -/
def lastEntry (key : Option String) : Option Item → Entries
  | none => .closed
  | some item => .entry key item .closed

/-- The action on a token, by what was read since the last separator. -/
def action (g : Grammar) (closing : TokenKind) (started : Bool) (key : Option String)
    (pending : Option Pending) (t : Token) : Action :=
  let unexpected := Action.failAt pending (.unexpected t.text) t
  match t.kind with
  | .whitespace => .go key pending
  | .leftBrace => if pending.isSome then unexpected else .list
  | .atSign => if pending.isSome then unexpected else .annotated
  | .comma =>
    match pending with
    | none => unexpected
    | some p => .ofItem p .file (p.item g closing started key)
  | .colon =>
    match key, pending with
    | none, some (.token p) =>
      if Text.isAlphabetic p.text.toList then .go (some p.text) none
      else .failAt none .keyNotAlphabetic p
    | _, _ => unexpected
  | kind =>
    if kind = closing then
      match pending, key with
      | some p, key => .ofItem p (fun item => .close (some item)) (p.item g closing started key)
      | none, some key => .failAt none (.missingValue key) t
      | none, none => .close none
    else if kind = .word ∨ kind = .string then
      if pending.isSome then .failAt pending .unexpectedData t else .go key (some (.token t))
    else unexpected

/-- What a token does, case by case.  A separator refuses an item for what it is or for want of a
name; every other failure is for the token itself or for the one that is pending. -/
inductive Acts (g : Grammar) (closing : TokenKind) (started : Bool) (key : Option String)
    (pending : Option Pending) (t : Token) : Action → Prop
  | blank (ht : t.kind = .whitespace) : Acts g closing started key pending t (.go key pending)
  | key {p : Token} (ht : t.kind = .colon) (hkey : key = none)
      (hpending : pending = some (.token p)) (halpha : Text.isAlphabetic p.text.toList = true) :
      Acts g closing started key pending t (.go (some p.text) none)
  | word (ht : t.kind = .word ∨ t.kind = .string) (hpending : pending = none) :
      Acts g closing started key pending t (.go key (some (.token t)))
  | list (ht : t.kind = .leftBrace) (hpending : pending = none) :
      Acts g closing started key pending t .list
  | annotated (ht : t.kind = .atSign) (hpending : pending = none) :
      Acts g closing started key pending t .annotated
  | file {p : Pending} {item : Item} (ht : t.kind = .comma) (hpending : pending = some p)
      (hitem : p.item g closing started key = .ok item) :
      Acts g closing started key pending t (.file item)
  | last {p : Pending} {item : Item} (ht : t.kind = closing) (hpending : pending = some p)
      (hitem : p.item g closing started key = .ok item) :
      Acts g closing started key pending t (.close (some item))
  | close (ht : t.kind = closing) : Acts g closing started key pending t (.close none)
  | refused {p : Pending} {e : Error} (ht : t.kind = .comma ∨ t.kind = closing)
      (hpending : pending = some p) (hitem : p.item g closing started key = .error e) :
      Acts g closing started key pending t (.fail (Pending.effect? pending) e)
  | fail {fault : Malformation} {blamed : Token} (hend : fault ≠ .endOfText)
      (hunnamed : fault ≠ .unnamedNotFirst)
      (hblamed : blamed = t ∨ ∃ p ∈ pending, blamed = p.start) :
      Acts g closing started key pending t (.failAt pending fault blamed)

lemma acts (g : Grammar) (closing : TokenKind) (started : Bool) (key : Option String)
    (pending : Option Pending) (t : Token) :
    Acts g closing started key pending t (action g closing started key pending t) := by
  have hunexpected : Acts g closing started key pending t
      (.failAt pending (.unexpected t.text) t) := .fail (by simp) (by simp) (.inl rfl)
  unfold action
  dsimp only
  split
  · next ht => exact .blank ht
  · next ht =>
    cases pending with
    | some _ => exact hunexpected
    | none => exact .list ht rfl
  · next ht =>
    cases pending with
    | some _ => exact hunexpected
    | none => exact .annotated ht rfl
  · next ht =>
    cases pending with
    | none => exact hunexpected
    | some p =>
      dsimp only
      cases hitem : p.item g closing started key with
      | error e => exact .refused (.inl ht) rfl hitem
      | ok item => exact .file ht rfl hitem
  · next ht =>
    split
    · next p =>
      split
      · next halpha => exact .key ht rfl rfl halpha
      · exact .fail (by simp) (by simp) (.inr ⟨_, rfl, rfl⟩)
    · exact hunexpected
  · split
    · next ht =>
      split
      · next p =>
        cases hitem : p.item g closing started key with
        | error e => exact .refused (.inr ht) rfl hitem
        | ok item => exact .last ht rfl hitem
      · exact .fail (by simp) (by simp) (.inl rfl)
      · exact .close ht
    · split
      · next ht =>
        cases pending with
        | some _ => exact .fail (by simp) (by simp) (.inl rfl)
        | none => exact .word ht rfl
      · exact hunexpected

lemma acts_of_action {g : Grammar} {closing : TokenKind} {started : Bool} {key : Option String}
    {pending : Option Pending} {t : Token} {act : Action}
    (h : action g closing started key pending t = act) :
    Acts g closing started key pending t act :=
  h ▸ acts g closing started key pending t

/-- The name of an annotation and the tokens of its arguments, if they stand behind an `@`. -/
def annotated? : List Token → Option (String × List Token)
  | name :: opening :: ts =>
    if name.kind = .word ∧ opening.kind = .leftParen then some (name.text, ts) else none
  | _ => none

/-- A list that breaks off because no annotation stands behind an `@` in it. -/
def unannotated (eof : Token) : List Token → Entries
  | [] => brokenAt none .nameExpected eof
  | name :: _ => brokenAt none (if name.kind = .word then .plainTagInside else .nameExpected) name

/-- The rules by which the entries of a list are read, with the tokens behind its end.  A list that
breaks off leaves no tokens. -/
inductive Reads (eof : Token) : Grammar → TokenKind → Bool → Option String → Option Pending →
    List Token → Entries → List Token → Prop
  | ended {g : Grammar} {closing : TokenKind} {started : Bool} {key : Option String}
      {pending : Option Pending} :
      Reads eof g closing started key pending [] (brokenAt pending .endOfText eof) []
  | go {g : Grammar} {closing : TokenKind} {started : Bool} {key : Option String}
      {pending : Option Pending} {key' : Option String} {pending' : Option Pending} {t : Token}
      {ts rest : List Token} {es : Entries}
      (h : action g closing started key pending t = .go key' pending')
      (hrest : Reads eof g closing started key' pending' ts es rest) :
      Reads eof g closing started key pending (t :: ts) es rest
  | list {g : Grammar} {closing : TokenKind} {started : Bool} {key : Option String}
      {pending : Option Pending} {t : Token} {ts behind rest : List Token} {inner es : Entries}
      (h : action g closing started key pending t = .list)
      (hinner : Reads eof g .rightBrace false none none ts inner behind)
      (hrest : Reads eof g closing started key (some (.nested (.list inner) t)) behind es rest) :
      Reads eof g closing started key pending (t :: ts) es rest
  | annotated {g : Grammar} {closing : TokenKind} {started : Bool} {key : Option String}
      {pending : Option Pending} {t : Token} {name : String} {ts us behind rest : List Token}
      {inner es : Entries} (h : action g closing started key pending t = .annotated)
      (hname : annotated? ts = some (name, us))
      (hinner : Reads eof .argument .rightParen false none none us inner behind)
      (hrest : Reads eof g closing started key (some (.nested (.nested name inner) t)) behind es
        rest) :
      Reads eof g closing started key pending (t :: ts) es rest
  | unannotated {g : Grammar} {closing : TokenKind} {started : Bool} {key : Option String}
      {pending : Option Pending} {t : Token} {ts : List Token}
      (h : action g closing started key pending t = .annotated) (hname : annotated? ts = none) :
      Reads eof g closing started key pending (t :: ts) (unannotated eof ts) []
  | file {g : Grammar} {closing : TokenKind} {started : Bool} {key : Option String}
      {pending : Option Pending} {item : Item} {t : Token} {ts rest : List Token} {es : Entries}
      (h : action g closing started key pending t = .file item)
      (hrest : Reads eof g closing true none none ts es rest) :
      Reads eof g closing started key pending (t :: ts) (.entry key item es) rest
  | close {g : Grammar} {closing : TokenKind} {started : Bool} {key : Option String}
      {pending : Option Pending} {last : Option Item} {t : Token} {ts : List Token}
      (h : action g closing started key pending t = .close last) :
      Reads eof g closing started key pending (t :: ts) (lastEntry key last) ts
  | fail {g : Grammar} {closing : TokenKind} {started : Bool} {key : Option String}
      {pending : Option Pending} {before : Option Item} {e : Error} {t : Token} {ts : List Token}
      (h : action g closing started key pending t = .fail before e) :
      Reads eof g closing started key pending (t :: ts) (.broken before e) []

section Rules

variable {eof : Token} {g : Grammar} {closing : TokenKind} {started : Bool} {key : Option String}
  {pending : Option Pending} {t : Token} {ts rest : List Token} {es : Entries}

lemma outcome_of_nil :
    outcome eof g closing started key pending [] = (brokenAt pending .endOfText eof, []) := by
  unfold outcome
  rw [parse.eq_def]
  rfl

/-- Reading a token is its action, and reading on from there. -/
lemma outcome_cons (eof : Token) (g : Grammar) (closing : TokenKind) (started : Bool)
    (key : Option String) (pending : Option Pending) (t : Token) (ts : List Token) :
    outcome eof g closing started key pending (t :: ts) =
      match action g closing started key pending t with
      | .go key pending => outcome eof g closing started key pending ts
      | .list =>
        let inner := outcome eof g .rightBrace false none none ts
        outcome eof g closing started key (some (.nested (.list inner.1) t)) inner.2
      | .annotated =>
        match annotated? ts with
        | none => (unannotated eof ts, [])
        | some (name, us) =>
          let inner := outcome eof .argument .rightParen false none none us
          outcome eof g closing started key (some (.nested (.nested name inner.1) t)) inner.2
      | .file item =>
        let more := outcome eof g closing true none none ts
        (.entry key item more.1, more.2)
      | .close last => (lastEntry key last, ts)
      | .fail before e => (.broken before e, []) := by
  obtain ⟨kind, text, position⟩ := t
  unfold outcome action
  rw [parse.eq_def]
  cases kind with
  | whitespace => rfl
  | leftBrace => cases pending <;> rfl
  | atSign =>
    cases pending with
    | some p => rfl
    | none =>
      match ts with
      | [] => rfl
      | [name] => rfl
      | name :: opening :: ts =>
        by_cases hname : name.kind = .word
        · by_cases hopening : opening.kind = .leftParen
          · simp [annotated?, hname, hopening, Rest.of]
          · simp [annotated?, unannotated, hname, hopening, breakOff]
        · simp [annotated?, unannotated, hname, breakOff]
  | comma =>
    cases pending with
    | none => rfl
    | some p =>
      dsimp only
      cases p.item g closing started key <;> rfl
  | colon =>
    cases key with
    | some key => rfl
    | none =>
      rcases pending with _ | ⟨p⟩ | ⟨item, p⟩
      · rfl
      · dsimp only
        cases Text.isAlphabetic p.text.toList <;> rfl
      · rfl
  | leftParen | rightParen | rightBrace | equals | word | string | eof =>
    dsimp only
    split
    · cases pending with
      | some p =>
        dsimp only
        cases p.item g closing started key <;> rfl
      | none => cases key <;> rfl
    · cases pending <;> rfl

/-! ## The rules -/

lemma length_outcome_le (eof : Token) (g : Grammar) (closing : TokenKind) (started : Bool)
    (key : Option String) (pending : Option Pending) (ts : List Token) :
    (outcome eof g closing started key pending ts).2.length ≤ ts.length :=
  (parse eof g closing started key pending ts).2.2

lemma length_annotated?_lt {name : String} {us : List Token} (h : annotated? ts = some (name, us)) :
    us.length < ts.length := by
  unfold annotated? at h
  split at h
  · next word opening vs =>
    split at h
    · cases h
      simp only [List.length_cons]
      omega
    · cases h
  · cases h

/-- The reader follows the rules. -/
lemma reads_outcome (eof : Token) (g : Grammar) (closing : TokenKind) (started : Bool)
    (key : Option String) (pending : Option Pending) (ts : List Token) :
    Reads eof g closing started key pending ts (outcome eof g closing started key pending ts).1
      (outcome eof g closing started key pending ts).2 := by
  -- A list inside may leave any part of the tokens, so the induction is on their number.
  induction hn : ts.length using Nat.strongRecOn
    generalizing g closing started key pending ts with
  | _ n ih =>
  cases ts with
  | nil =>
    rw [outcome_of_nil]
    exact .ended
  | cons t ts =>
    have hlt : ts.length < n := by
      rw [← hn, List.length_cons]
      omega
    rw [outcome_cons]
    cases haction : action g closing started key pending t with
    | go key' pending' => exact .go haction (ih _ hlt g closing started key' pending' ts rfl)
    | list =>
      have hinner := length_outcome_le eof g .rightBrace false none none ts
      exact .list haction (ih _ hlt g .rightBrace false none none ts rfl)
        (ih _ (Nat.lt_of_le_of_lt hinner hlt) g closing started key _ _ rfl)
    | annotated =>
      cases hname : annotated? ts with
      | none => exact .unannotated haction hname
      | some found =>
        obtain ⟨name, us⟩ := found
        have hus := Nat.lt_trans (length_annotated?_lt hname) hlt
        have hinner := length_outcome_le eof .argument .rightParen false none none us
        exact .annotated haction hname (ih _ hus .argument .rightParen false none none us rfl)
          (ih _ (Nat.lt_of_le_of_lt hinner hus) g closing started key _ _ rfl)
    | file item => exact .file haction (ih _ hlt g closing true none none ts rfl)
    | close last => exact .close haction
    | fail before e => exact .fail haction

lemma Reads.outcome_eq (h : Reads eof g closing started key pending ts es rest) :
    outcome eof g closing started key pending ts = (es, rest) := by
  induction h with
  | ended => exact outcome_of_nil
  | go h _ ih => rw [outcome_cons, h, ← ih]
  | list h _ _ ihinner ih =>
    rw [outcome_cons, h, ← ih]
    dsimp only
    rw [ihinner]
  | annotated h hname _ _ ihinner ih =>
    rw [outcome_cons, h, ← ih]
    dsimp only
    rw [hname]
    dsimp only
    rw [ihinner]
  | unannotated h hname =>
    rw [outcome_cons, h]
    dsimp only
    rw [hname]
  | file h _ ih =>
    rw [outcome_cons, h]
    dsimp only
    rw [ih]
  | close h => rw [outcome_cons, h]
  | fail h => rw [outcome_cons, h]

lemma reads_iff : Reads eof g closing started key pending ts es rest ↔
    outcome eof g closing started key pending ts = (es, rest) := by
  refine ⟨Reads.outcome_eq, fun h => ?_⟩
  have hreads := reads_outcome eof g closing started key pending ts
  rwa [h] at hreads

/-! ## Lists that are closed -/

lemma exists_of_annotated? {name : String} {us : List Token}
    (h : annotated? ts = some (name, us)) :
    ∃ word opening, ts = word :: opening :: us ∧ word.kind = .word ∧ word.text = name ∧
      opening.kind = .leftParen := by
  unfold annotated? at h
  split at h
  · next word opening vs =>
    split at h
    · next hkinds =>
      obtain ⟨rfl, rfl⟩ := Prod.mk.inj (Option.some.inj h)
      exact ⟨word, opening, rfl, hkinds.1, rfl, hkinds.2⟩
    · cases h
  · cases h

/-- The arguments of an annotation stand behind its name. -/
lemma suffix_of_annotated? {name : String} {us : List Token}
    (h : annotated? ts = some (name, us)) : us <:+ ts := by
  obtain ⟨word, opening, rfl, -⟩ := exists_of_annotated? h
  exact (List.suffix_cons ..).trans (List.suffix_cons ..)

/-- What is left is the end of what was given. -/
lemma Reads.suffix (h : Reads eof g closing started key pending ts es rest) : rest <:+ ts := by
  induction h with
  | ended => exact List.suffix_refl _
  | go _ _ ih => exact ih.trans (List.suffix_cons ..)
  | list _ _ _ ihinner ih => exact (ih.trans ihinner).trans (List.suffix_cons ..)
  | annotated _ hname _ _ ihinner ih =>
    exact (ih.trans ihinner).trans ((suffix_of_annotated? hname).trans (List.suffix_cons ..))
  | unannotated _ _ => exact List.nil_suffix
  | file _ _ ih => exact ih.trans (List.suffix_cons ..)
  | close _ => exact List.suffix_cons ..
  | fail _ => exact List.nil_suffix

/-- The list ends with its closing token. -/
inductive IsClosed : Entries → Prop
  | closed : IsClosed .closed
  | entry {key : Option String} {item : Item} {es : Entries} (h : IsClosed es) :
      IsClosed (.entry key item es)

lemma isClosed_lastEntry (key : Option String) (last : Option Item) :
    IsClosed (lastEntry key last) := by
  cases last with
  | none => exact .closed
  | some item => exact .entry .closed

lemma Reads.isClosed_or_nil (h : Reads eof g closing started key pending ts es rest) :
    IsClosed es ∨ rest = [] := by
  induction h with
  | ended => exact .inr rfl
  | go _ _ ih => exact ih
  | list _ _ _ _ ih => exact ih
  | annotated _ _ _ _ _ ih => exact ih
  | unannotated _ _ => exact .inr rfl
  | file _ _ ih => exact ih.imp_left .entry
  | close _ => exact .inl (isClosed_lastEntry _ _)
  | fail _ => exact .inr rfl

/-- A list that is closed has only closed lists in it: behind one that breaks off there are no
tokens to go on with. -/
lemma Reads.isClosed_of_behind {g' : Grammar} {closing' : TokenKind} {started' : Bool}
    {key' : Option String} {pending' : Option Pending} {inner : Entries} {behind : List Token}
    (hinner : Reads eof g' closing' started' key' pending' ts inner behind)
    (hrest : Reads eof g closing started key pending behind es rest) (hes : IsClosed es) :
    IsClosed inner := by
  rcases hinner.isClosed_or_nil with hclosed | rfl
  · exact hclosed
  · cases hrest
    cases hes

lemma annotated?_append {name : String} {us : List Token} (h : annotated? ts = some (name, us))
    (more : List Token) : annotated? (ts ++ more) = some (name, us ++ more) := by
  obtain ⟨word, opening, rfl, hword, rfl, hopening⟩ := exists_of_annotated? h
  simp [annotated?, hword, hopening]

/-- A list that is closed is read alike whatever stands behind it. -/
lemma Reads.append (h : Reads eof g closing started key pending ts es rest) (hes : IsClosed es)
    (eof' : Token) (more : List Token) :
    Reads eof' g closing started key pending (ts ++ more) es (rest ++ more) := by
  induction h with
  | ended => cases hes
  | go h _ ih => exact .go h (ih hes)
  | list h hinner hrest ihinner ih =>
    exact .list h (ihinner (hinner.isClosed_of_behind hrest hes)) (ih hes)
  | annotated h hname hinner hrest ihinner ih =>
    exact .annotated h (annotated?_append hname more)
      (ihinner (hinner.isClosed_of_behind hrest hes)) (ih hes)
  | @unannotated _ _ _ _ _ _ ts _ _ => cases ts <;> cases hes
  | file h _ ih =>
    cases hes with
    | entry hes => exact .file h (ih hes)
  | close h => exact .close h
  | fail _ => cases hes

end Rules

end Entries

namespace Tag

/-! ## Sections -/

/-- The rules by which the tags of a section are read. -/
inductive Reads (eof : Token) : List Token → List Tag → Prop
  | nil : Reads eof [] []
  | lone {t : Token} : Reads eof [t] []
  | skip {t name : Token} {ts : List Token} {tags : List Tag}
      (h : t.kind ≠ .atSign ∨ name.kind ≠ .word) (hrest : Reads eof (name :: ts) tags) :
      Reads eof (t :: name :: ts) tags
  | typed {t name opening : Token} {ts rest : List Token} {args : Entries} {tags : List Tag}
      (ht : t.kind = .atSign) (hname : name.kind = .word) (hopening : opening.kind = .leftParen)
      (hargs : Entries.Reads eof .argument .rightParen false none none ts args rest)
      (hrest : Reads eof rest tags) :
      Reads eof (t :: name :: opening :: ts) (.typed name.text args :: tags)
  | plain {t name : Token} {value after : List Token} {tags : List Tag} (ht : t.kind = .atSign)
      (hname : name.kind = .word) (hopening : ∀ o ∈ (value ++ after).head?, o.kind ≠ .leftParen)
      (hvalue : ∀ v ∈ value, isText v = true) (hafter : ∀ a ∈ after.head?, endsValue a = true)
      (hrest : Reads eof after tags) :
      Reads eof (t :: name :: (value ++ after)) (.plain name.text (textOf value) :: tags)
  | list {t name brace : Token} {value ts rest : List Token} {es : Entries} {tags : List Tag}
      (ht : t.kind = .atSign) (hname : name.kind = .word)
      (hopening : ∀ o ∈ (value ++ brace :: ts).head?, o.kind ≠ .leftParen)
      (hvalue : ∀ v ∈ value, isText v = true) (hbrace : brace.kind = .leftBrace)
      (hlist : Entries.Reads eof .plain .rightBrace false none none ts es rest)
      (hrest : Reads eof rest tags) :
      Reads eof (t :: name :: (value ++ brace :: ts))
        (.list name.text es (strayAfter? rest) :: tags)

section Rules

variable {eof : Token} {ts : List Token} {tags : List Tag}

lemma isText_eq_false_iff {t : Token} :
    isText t = false ↔ endsValue t = true ∨ t.kind = .leftBrace := by
  simp [isText, or_iff_not_imp_left]

section Value

variable {value after : List Token} (hvalue : ∀ v ∈ value, isText v = true)
  (hafter : ∀ a ∈ after.head?, isText a = false)

include hvalue hafter

lemma dropWhile_isText : (value ++ after).dropWhile isText = after := by
  rw [List.dropWhile_append_of_pos hvalue]
  cases after with
  | nil => rfl
  | cons a after => exact List.dropWhile_cons_of_neg (by simp [hafter a rfl])

lemma takeWhile_isText : (value ++ after).takeWhile isText = value := by
  rw [List.takeWhile_append_of_pos hvalue]
  cases after with
  | nil => exact List.append_nil value
  | cons a after =>
    rw [List.takeWhile_cons_of_neg (by simp [hafter a rfl]), List.append_nil]

end Value

/-- The text of a plain tag goes up to the token that ends it. -/
lemma readPlain_text {value after : List Token} (hvalue : ∀ v ∈ value, isText v = true)
    (hafter : ∀ a ∈ after.head?, endsValue a = true) (eof : Token) (name : String) :
    (readPlain eof name (value ++ after)).1 = .plain name (textOf value) ∧
      (readPlain eof name (value ++ after)).2.1 = after := by
  have hstop : ∀ a ∈ after.head?, isText a = false :=
    fun a ha => isText_eq_false_iff.2 (.inl (hafter a ha))
  have hdrop := dropWhile_isText hvalue hstop
  unfold readPlain
  split
  · next hnil =>
    obtain rfl : after = [] := hdrop.symm.trans hnil
    rw [List.append_nil]
    exact ⟨rfl, rfl⟩
  · next t rest hcons =>
    obtain rfl : after = t :: rest := hdrop.symm.trans hcons
    have hbrace : t.kind ≠ .leftBrace := by
      intro hk
      have hends := hafter t rfl
      simp [endsValue, Token.hasNewline, hk] at hends
    rw [if_neg hbrace, takeWhile_isText hvalue hstop]
    exact ⟨rfl, rfl⟩

/-- A brace makes the value of a plain tag a list. -/
lemma readPlain_list {value us : List Token} {brace : Token}
    (hvalue : ∀ v ∈ value, isText v = true) (hbrace : brace.kind = .leftBrace) (eof : Token)
    (name : String) :
    let list := Entries.outcome eof .plain .rightBrace false none none us
    (readPlain eof name (value ++ brace :: us)).1 = .list name list.1 (strayAfter? list.2) ∧
      (readPlain eof name (value ++ brace :: us)).2.1 = list.2 := by
  have hstop : ∀ a ∈ (brace :: us).head?, isText a = false := by
    rintro a ⟨⟩
    exact isText_eq_false_iff.2 (.inr hbrace)
  have hdrop := dropWhile_isText hvalue hstop
  unfold readPlain
  split
  · next hnil => cases hdrop.symm.trans hnil
  · next t rest hcons =>
    obtain ⟨rfl, rfl⟩ := List.cons.inj (hdrop.symm.trans hcons)
    rw [if_pos hbrace]
    exact ⟨rfl, rfl⟩

/-- Tokens begin with text, up to one that is none. -/
lemma exists_text (ts : List Token) : ∃ value after, ts = value ++ after ∧
    (∀ v ∈ value, isText v = true) ∧ ∀ a ∈ after.head?, isText a = false := by
  refine ⟨ts.takeWhile isText, ts.dropWhile isText, List.takeWhile_append_dropWhile.symm,
    fun v hv => List.mem_takeWhile_imp hv, fun a ha => ?_⟩
  have hnot := List.head?_dropWhile_not isText ts
  rw [ha] at hnot
  simpa using hnot

lemma exists_head_of_not {p : Token → Prop} (h : ¬ ∀ o ∈ ts.head?, p o) :
    ∃ o us, ts = o :: us ∧ ¬ p o := by
  cases ts with
  | nil => exact absurd nofun h
  | cons o us =>
    refine ⟨o, us, rfl, fun ho => h fun b hb => ?_⟩
    rwa [← Option.mem_some.1 hb]

lemma parse_typed {t name opening : Token} (ht : t.kind = .atSign) (hname : name.kind = .word)
    (hopening : opening.kind = .leftParen) (eof : Token) (ts : List Token) :
    parse eof (t :: name :: opening :: ts) =
      .typed name.text (Entries.outcome eof .argument .rightParen false none none ts).1 ::
        parse eof (Entries.outcome eof .argument .rightParen false none none ts).2 := by
  rw [parse]
  simp only [ht, hname, hopening]
  rfl

lemma parse_plain {t name : Token} (ht : t.kind = .atSign) (hname : name.kind = .word)
    {ts : List Token} (hopening : ∀ o ∈ ts.head?, o.kind ≠ .leftParen) (eof : Token) :
    parse eof (t :: name :: ts) =
      (readPlain eof name.text ts).1 :: parse eof (readPlain eof name.text ts).2.1 := by
  cases ts with
  | nil =>
    obtain ⟨htag, hrest⟩ := @readPlain_text [] [] nofun nofun eof name.text
    rw [List.append_nil] at htag hrest
    rw [htag, hrest, parse.eq_def, parse.eq_def eof []]
    simp only [ht, hname]
    rfl
  | cons opening ts =>
    rw [parse]
    simp only [ht, hname, hopening opening rfl]
    rfl

/-- The reader follows the rules. -/
lemma reads_parse (eof : Token) (ts : List Token) : Reads eof ts (parse eof ts) := by
  induction hn : ts.length using Nat.strongRecOn generalizing ts with
  | _ n ih =>
  match ts with
  | [] =>
    rw [parse]
    exact .nil
  | [t] =>
    rw [parse]
    exact .lone
  | t :: name :: ts =>
    simp only [List.length_cons] at hn
    by_cases hskip : t.kind ≠ .atSign ∨ name.kind ≠ .word
    · rw [parse.eq_def]
      dsimp only
      rw [if_pos hskip]
      exact .skip hskip (ih _ (by omega) (name :: ts) List.length_cons)
    · simp only [ne_eq, not_or, not_not] at hskip
      obtain ⟨ht, hname⟩ := hskip
      by_cases hopening : ∀ o ∈ ts.head?, o.kind ≠ .leftParen
      · rw [parse_plain ht hname hopening]
        obtain ⟨value, after, rfl, hvalue, hafter⟩ := exists_text ts
        rw [List.length_append] at hn
        by_cases hends : ∀ a ∈ after.head?, endsValue a = true
        · obtain ⟨htag, hrest⟩ := readPlain_text hvalue hends eof name.text
          rw [htag, hrest]
          exact .plain ht hname hopening hvalue hends (ih _ (by omega) after rfl)
        · obtain ⟨brace, us, rfl, hstop⟩ := exists_head_of_not hends
          have hbrace := (isText_eq_false_iff.1 (hafter brace rfl)).resolve_left hstop
          obtain ⟨htag, hrest⟩ := @readPlain_list value us brace hvalue hbrace eof name.text
          have hle := Entries.length_outcome_le eof .plain .rightBrace false none none us
          rw [List.length_cons] at hn
          rw [htag, hrest]
          exact .list ht hname hopening hvalue hbrace (Entries.reads_outcome ..)
            (ih _ (by omega) _ rfl)
      · obtain ⟨opening, us, rfl, hparen⟩ := exists_head_of_not hopening
        rw [ne_eq, not_not] at hparen
        have hle := Entries.length_outcome_le eof .argument .rightParen false none none us
        rw [List.length_cons] at hn
        rw [parse_typed ht hname hparen]
        exact .typed ht hname hparen (Entries.reads_outcome ..) (ih _ (by omega) _ rfl)

lemma Reads.parse_eq (h : Reads eof ts tags) : parse eof ts = tags := by
  induction h with
  | nil => rw [parse]
  | lone => rw [parse]
  | skip h _ ih =>
    rw [parse.eq_def]
    dsimp only
    rw [if_pos h, ih]
  | typed ht hname hopening hargs _ ih =>
    rw [parse_typed ht hname hopening, hargs.outcome_eq, ih]
  | plain ht hname hopening hvalue hafter _ ih =>
    obtain ⟨htag, hrest⟩ := readPlain_text hvalue hafter _ _
    rw [parse_plain ht hname hopening, htag, hrest, ih]
  | list ht hname hopening hvalue hbrace hlist _ ih =>
    obtain ⟨htag, hrest⟩ := readPlain_list hvalue hbrace _ _
    rw [hlist.outcome_eq] at htag hrest
    rw [parse_plain ht hname hopening, htag, hrest, ih]

lemma reads_iff : Reads eof ts tags ↔ parse eof ts = tags :=
  ⟨Reads.parse_eq, fun h => h ▸ reads_parse eof ts⟩

end Rules

end Tag
end DocTags
