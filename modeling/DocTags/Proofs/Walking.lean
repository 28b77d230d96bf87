import DocTags.Cursor
import DocTags.Proofs.Lossless
import DocTags.Proofs.Run
import DocTags.Proofs.Steps
import DocTags.Reader.Read

/-!
# Reading with a cursor

The readers take their tokens from a list.  Here they walk over the tokens of a section with a
cursor instead: it looks at the current token, moves on by one, and saves its position before an `@`
that may stand alone.  `Entries.Walks` and `Tag.Walks` have one rule for each way to go on, and list
the cursors that are taken on the way.  Where a list breaks off or something stands behind it, the
walk ends.

A cursor of a section `Faces` the tokens that are ahead of it, up to the end token, so it is never
behind that one.  From the first cursor there is a walk, and every walk faces what the readers read,
so it finds the tags of the section up to the one where it ends.

The main result is `Tag.walks_section`.
-/

namespace DocTags

/-! ## What is ahead -/

namespace Cursor

/-- The cursor is one of the section, and these tokens are ahead of it, with the end token behind
them. -/
structure Faces (text : List Char) (c : Cursor) (ts : List Token) : Prop where
  tokens : c.tokens = Token.pieces text ++ [Token.ending text]
  ahead : c.tokens.drop c.position = ts ++ [Token.ending text]

section Faces

variable {text : List Char} {c : Cursor} {t : Token} {ts : List Token}

lemma faces_start (text : List Char) :
    (start (Token.pieces text ++ [Token.ending text])).Faces text (Token.pieces text) :=
  ⟨rfl, rfl⟩

/-- The cursor is not behind the end token. -/
lemma Faces.position_lt (h : c.Faces text ts) : c.position < c.tokens.length := by
  rw [← Nat.not_le, ← List.drop_eq_nil_iff, h.ahead]
  exact List.append_ne_nil_of_right_ne_nil _ (List.cons_ne_nil _ _)

lemma Faces.getElem? (h : c.Faces text ts) :
    c.tokens[c.position]? = (ts ++ [Token.ending text]).head? := by
  rw [← h.ahead, List.head?_drop]

lemma Faces.current_nil (h : c.Faces text []) : c.current = Token.ending text := by
  rw [current, h.getElem?]
  rfl

lemma Faces.current_cons (h : c.Faces text (t :: ts)) : c.current = t := by
  rw [current, h.getElem?]
  rfl

lemma Faces.suffix (h : c.Faces text ts) : ts <:+ Token.pieces text := by
  have hsuffix : ts ++ [Token.ending text] <:+ Token.pieces text ++ [Token.ending text] := by
    rw [← h.ahead, ← h.tokens]
    exact List.drop_suffix _ _
  obtain ⟨before, hbefore⟩ := hsuffix
  rw [← List.append_assoc] at hbefore
  exact ⟨before, List.append_cancel_right hbefore⟩

/-- The tokens ahead of the end token are no end tokens. -/
lemma Faces.kind_ne (h : c.Faces text ts) : ∀ t ∈ ts, t.kind ≠ .eof := by
  intro t ht
  obtain ⟨l, hl, hkind, -⟩ := Token.exists_lexeme_of_mem_pieces (h.suffix.subset ht)
  rw [hkind]
  exact hl.kind_ne_eof

lemma Faces.current_kind_ne (h : c.Faces text (t :: ts)) : c.current.kind ≠ .eof := by
  rw [h.current_cons]
  exact h.kind_ne t List.mem_cons_self

lemma Faces.isAtEnd_nil (h : c.Faces text []) : c.isAtEnd = true := by
  rw [isAtEnd, h.current_nil]
  exact Bool.or_true _

lemma Faces.isAtEnd_cons (h : c.Faces text (t :: ts)) : c.isAtEnd = false := by
  have hkind := h.kind_ne t List.mem_cons_self
  rw [isAtEnd, h.current_cons, Bool.or_eq_false_iff]
  exact ⟨decide_eq_false (Nat.not_le.2 h.position_lt), beq_eq_false_iff_ne.2 hkind⟩

lemma Faces.isAt_nil (h : c.Faces text []) {kind : TokenKind} (hkind : kind ≠ .eof) :
    c.isAt [kind] = false := by
  rw [isAt, h.current_nil]
  simpa [Token.ending] using hkind.symm

lemma Faces.isAt_cons (h : c.Faces text (t :: ts)) (kind : TokenKind) :
    c.isAt [kind] = true ↔ t.kind = kind := by
  rw [isAt, h.current_cons]
  simp

lemma Faces.advance (h : c.Faces text (t :: ts)) : c.advance.Faces text ts := by
  have hadvance : c.advance = { c with position := c.position + 1 } := if_pos h.position_lt
  rw [hadvance]
  refine ⟨h.tokens, ?_⟩
  rw [← List.tail_drop, h.ahead]
  rfl

lemma Faces.save (h : c.Faces text ts) : c.save.Faces text ts :=
  ⟨h.tokens, h.ahead⟩

lemma Faces.ending_eq (h : c.Faces text ts) : c.ending = Token.ending text := by
  rw [ending, h.tokens, List.getLast?_concat]
  rfl

lemma Faces.eq_nil (h : c.Faces text ts) (hc : c.current.kind = .eof) : ts = [] := by
  cases ts with
  | nil => rfl
  | cons t ts =>
    rw [h.current_cons] at hc
    exact absurd hc (h.kind_ne t List.mem_cons_self)

lemma Faces.exists_cons (h : c.Faces text ts) (hc : c.current.kind ≠ .eof) :
    ∃ us, ts = c.current :: us ∧ c.advance.Faces text us := by
  cases ts with
  | nil =>
    rw [h.current_nil] at hc
    exact absurd rfl hc
  | cons t us =>
    rw [h.current_cons]
    exact ⟨us, rfl, h.advance⟩

/-- All cursors on a way are cursors of the section. -/
def AllFace (text : List Char) (path : List Cursor) : Prop :=
  ∀ v ∈ path, ∃ us, v.Faces text us

lemma Faces.single (h : c.Faces text ts) : AllFace text [c] :=
  List.forall_mem_singleton.2 ⟨ts, h⟩

lemma Faces.cons {path : List Cursor} (h : c.Faces text ts) (hpath : AllFace text path) :
    AllFace text (c :: path) :=
  List.forall_mem_cons.2 ⟨⟨ts, h⟩, hpath⟩

lemma AllFace.append {path path' : List Cursor} (h : AllFace text path)
    (h' : AllFace text path') : AllFace text (path ++ path') :=
  List.forall_mem_append.2 ⟨h, h'⟩

end Faces

section Moves

variable {c c' : Cursor} {kind : TokenKind} {message : String} {t : Token} {e : Error}

lemma consume_eq_ok (h : c.consume kind message = .ok (t, c')) :
    c.current.kind = kind ∧ t = c.current ∧ c' = c.advance := by
  unfold consume at h
  split at h
  · next hkind =>
    obtain ⟨rfl, rfl⟩ := Prod.mk.inj (Except.ok.inj h)
    exact ⟨eq_of_beq hkind, rfl, rfl⟩
  · cases h

lemma consume_of_kind (h : c.current.kind = kind) (message : String) :
    c.consume kind message = .ok (c.current, c.advance) := by
  rw [consume, if_pos (beq_iff_eq.2 h)]

lemma kind_ne_of_consume (h : c.consume kind message = .error e) : c.current.kind ≠ kind := by
  intro hkind
  rw [consume_of_kind hkind] at h
  cases h

lemma exists_consume_error (h : c.current.kind ≠ kind) (message : String) :
    ∃ e, c.consume kind message = .error e := by
  rw [consume, if_neg (by simpa using h)]
  exact ⟨_, rfl⟩

/-- To save, move on and restore is to stay. -/
lemma restore_save_advance (c : Cursor) : c.save.advance.restore = .ok c := by
  unfold advance
  split <;> rfl

lemma discard_save_advance (c : Cursor) : c.save.advance.discard = .ok c.advance := by
  unfold advance save
  dsimp only
  split <;> rfl

end Moves

end Cursor

/-! ## Lists -/

namespace Entries

open Cursor (AllFace)

/-- The walks over a list with the entries that they find, the cursors on the way and the last one.
A list inside that breaks off ends the walk. -/
inductive Walks : Grammar → TokenKind → Bool → Option String → Option Pending → Cursor → Entries →
    List Cursor → Cursor → Prop
  | ended {g : Grammar} {closing : TokenKind} {started : Bool} {key : Option String}
      {pending : Option Pending} {c : Cursor} (hc : c.current.kind = .eof) :
      Walks g closing started key pending c (brokenAt pending .endOfText c.current) [c] c
  | go {g : Grammar} {closing : TokenKind} {started : Bool} {key : Option String}
      {pending : Option Pending} {key' : Option String} {pending' : Option Pending} {c c' : Cursor}
      {es : Entries} {path : List Cursor} (hc : c.current.kind ≠ .eof)
      (h : action g closing started key pending c.current = .go key' pending')
      (hrest : Walks g closing started key' pending' c.advance es path c') :
      Walks g closing started key pending c es (c :: path) c'
  | list {g : Grammar} {closing : TokenKind} {started : Bool} {key : Option String}
      {pending : Option Pending} {c c₁ c' : Cursor} {inner es : Entries}
      {path₁ path : List Cursor} (hc : c.current.kind ≠ .eof)
      (h : action g closing started key pending c.current = .list)
      (hinner : Walks g .rightBrace false none none c.advance inner path₁ c₁)
      (hclosed : IsClosed inner)
      (hrest : Walks g closing started key (some (.nested (.list inner) c.current)) c₁ es path c') :
      Walks g closing started key pending c es (c :: (path₁ ++ path)) c'
  | listBroken {g : Grammar} {closing : TokenKind} {started : Bool} {key : Option String}
      {pending : Option Pending} {c c' : Cursor} {inner : Entries} {path : List Cursor}
      (hc : c.current.kind ≠ .eof)
      (h : action g closing started key pending c.current = .list)
      (hinner : Walks g .rightBrace false none none c.advance inner path c')
      (hbroken : ¬ IsClosed inner) :
      Walks g closing started key pending c
        (brokenAt (some (.nested (.list inner) c.current)) .endOfText c.ending) (c :: path) c'
  | annotated {g : Grammar} {closing : TokenKind} {started : Bool} {key : Option String}
      {pending : Option Pending} {c c₁ c₂ c' : Cursor} {name : Token} {inner es : Entries}
      {path₁ path : List Cursor} (hc : c.current.kind ≠ .eof)
      (h : action g closing started key pending c.current = .annotated)
      (hname : c.advance.consume .word "Expected annotation name" = .ok (name, c₁))
      (hopening : c₁.isAt [.leftParen] = true)
      (hinner : Walks .argument .rightParen false none none c₁.advance inner path₁ c₂)
      (hclosed : IsClosed inner)
      (hrest : Walks g closing started key (some (.nested (.nested name.text inner) c.current)) c₂
        es path c') :
      Walks g closing started key pending c es (c :: c.advance :: c₁ :: (path₁ ++ path)) c'
  | annotatedBroken {g : Grammar} {closing : TokenKind} {started : Bool} {key : Option String}
      {pending : Option Pending} {c c₁ c' : Cursor} {name : Token} {inner : Entries}
      {path : List Cursor} (hc : c.current.kind ≠ .eof)
      (h : action g closing started key pending c.current = .annotated)
      (hname : c.advance.consume .word "Expected annotation name" = .ok (name, c₁))
      (hopening : c₁.isAt [.leftParen] = true)
      (hinner : Walks .argument .rightParen false none none c₁.advance inner path c')
      (hbroken : ¬ IsClosed inner) :
      Walks g closing started key pending c
        (brokenAt (some (.nested (.nested name.text inner) c.current)) .endOfText c.ending)
        (c :: c.advance :: c₁ :: path) c'
  | nameless {g : Grammar} {closing : TokenKind} {started : Bool} {key : Option String}
      {pending : Option Pending} {c : Cursor} {e : Error} (hc : c.current.kind ≠ .eof)
      (h : action g closing started key pending c.current = .annotated)
      (hname : c.advance.consume .word "Expected annotation name" = .error e) :
      Walks g closing started key pending c (brokenAt none .nameExpected c.advance.current)
        [c, c.advance] c.advance
  | plainTag {g : Grammar} {closing : TokenKind} {started : Bool} {key : Option String}
      {pending : Option Pending} {c c₁ : Cursor} {name : Token} (hc : c.current.kind ≠ .eof)
      (h : action g closing started key pending c.current = .annotated)
      (hname : c.advance.consume .word "Expected annotation name" = .ok (name, c₁))
      (hopening : c₁.isAt [.leftParen] = false) :
      Walks g closing started key pending c (brokenAt none .plainTagInside name)
        [c, c.advance, c₁] c₁
  | file {g : Grammar} {closing : TokenKind} {started : Bool} {key : Option String}
      {pending : Option Pending} {item : Item} {c c' : Cursor} {es : Entries} {path : List Cursor}
      (hc : c.current.kind ≠ .eof)
      (h : action g closing started key pending c.current = .file item)
      (hrest : Walks g closing true none none c.advance es path c') :
      Walks g closing started key pending c (.entry key item es) (c :: path) c'
  | close {g : Grammar} {closing : TokenKind} {started : Bool} {key : Option String}
      {pending : Option Pending} {last : Option Item} {c : Cursor} (hc : c.current.kind ≠ .eof)
      (h : action g closing started key pending c.current = .close last) :
      Walks g closing started key pending c (lastEntry key last) [c, c.advance] c.advance
  | fail {g : Grammar} {closing : TokenKind} {started : Bool} {key : Option String}
      {pending : Option Pending} {before : Option Item} {e : Error} {c : Cursor}
      (hc : c.current.kind ≠ .eof)
      (h : action g closing started key pending c.current = .fail before e) :
      Walks g closing started key pending c (.broken before e) [c, c.advance] c.advance

section Walks

variable {text : List Char} {g : Grammar} {closing : TokenKind} {started : Bool}
  {key : Option String} {pending : Option Pending} {c c' : Cursor} {es : Entries}
  {path : List Cursor} {ts : List Token}

section Annotated

variable {c₁ : Cursor} {name : Token} {message : String}

lemma exists_of_name (hc : c.Faces text ts) (hname : c.consume .word message = .ok (name, c₁)) :
    ∃ us, ts = name :: us ∧ name.kind = .word ∧ c₁.Faces text us := by
  obtain ⟨hword, rfl, rfl⟩ := Cursor.consume_eq_ok hname
  obtain ⟨us, rfl, hus⟩ := hc.exists_cons (by simp [hword])
  exact ⟨us, rfl, hword, hus⟩

/-- An annotation stands ahead of the cursor. -/
lemma exists_annotated (hc : c.Faces text ts) (hname : c.consume .word message = .ok (name, c₁))
    (hopening : c₁.isAt [.leftParen] = true) :
    ∃ us vs, annotated? ts = some (name.text, us) ∧ c₁.Faces text vs ∧
      c₁.advance.Faces text us := by
  obtain ⟨vs, rfl, hword, hvs⟩ := exists_of_name hc hname
  cases vs with
  | nil =>
    rw [hvs.isAt_nil (by simp)] at hopening
    cases hopening
  | cons opening us =>
    have hparen := (hvs.isAt_cons .leftParen).1 hopening
    exact ⟨us, _, by simp [annotated?, hword, hparen], hvs, hvs.advance⟩

lemma unannotated_nameless {e : Error} (hc : c.Faces text ts)
    (hname : c.consume .word message = .error e) : annotated? ts = none ∧
      unannotated (Token.ending text) ts = brokenAt none .nameExpected c.current := by
  have hword := Cursor.kind_ne_of_consume hname
  cases ts with
  | nil =>
    rw [hc.current_nil]
    exact ⟨rfl, rfl⟩
  | cons name us =>
    rw [hc.current_cons] at hword ⊢
    rw [unannotated, if_neg hword]
    cases us <;> simp [annotated?, hword]

lemma unannotated_plainTag (hc : c.Faces text ts)
    (hname : c.consume .word message = .ok (name, c₁))
    (hopening : c₁.isAt [.leftParen] = false) : annotated? ts = none ∧
      unannotated (Token.ending text) ts = brokenAt none .plainTagInside name := by
  obtain ⟨us, rfl, hword, hus⟩ := exists_of_name hc hname
  rw [unannotated, if_pos hword]
  cases us with
  | nil => exact ⟨rfl, rfl⟩
  | cons opening us =>
    have hparen : opening.kind ≠ .leftParen := by
      rw [ne_eq, ← hus.isAt_cons, hopening]
      exact Bool.false_ne_true
    simp [annotated?, hparen]

end Annotated

/-- What a walk has come to: it has found what the reader reads, all cursors on the way are cursors
of the section, and behind a list that is closed the last one faces what the reader leaves. -/
def Reaches (text : List Char) (g : Grammar) (closing : TokenKind) (started : Bool)
    (key : Option String) (pending : Option Pending) (ts : List Token) (es : Entries)
    (path : List Cursor) (c' : Cursor) : Prop :=
  ∃ rest left, Reads (Token.ending text) g closing started key pending ts es rest ∧
    c'.Faces text left ∧ (IsClosed es → left = rest) ∧ AllFace text path

/-- A walk finds what the reader reads. -/
lemma Walks.reaches (h : Walks g closing started key pending c es path c')
    (hc : c.Faces text ts) : Reaches text g closing started key pending ts es path c' := by
  induction h generalizing ts with
  | ended hend =>
    obtain rfl := hc.eq_nil hend
    rw [hc.current_nil]
    exact ⟨[], [], .ended, hc, fun _ => rfl, hc.single⟩
  | go hcurrent h _ ih =>
    obtain ⟨us, rfl, hus⟩ := hc.exists_cons hcurrent
    obtain ⟨rest, left, hreads, hleft, hclosed, hpath⟩ := ih hus
    exact ⟨rest, left, .go h hreads, hleft, hclosed, hc.cons hpath⟩
  | list hcurrent h _ hinner _ ihinner ih =>
    obtain ⟨us, rfl, hus⟩ := hc.exists_cons hcurrent
    obtain ⟨behind, left₁, hreads₁, hleft₁, hclosed₁, hpath₁⟩ := ihinner hus
    obtain rfl := hclosed₁ hinner
    obtain ⟨rest, left, hreads, hleft, hclosed, hpath⟩ := ih hleft₁
    exact ⟨rest, left, .list h hreads₁ hreads, hleft, hclosed, hc.cons (hpath₁.append hpath)⟩
  | listBroken hcurrent h _ hbroken ih =>
    obtain ⟨us, rfl, hus⟩ := hc.exists_cons hcurrent
    obtain ⟨behind, left, hreads, hleft, -, hpath⟩ := ih hus
    obtain rfl := hreads.isClosed_or_nil.resolve_left hbroken
    rw [hc.ending_eq]
    exact ⟨[], left, .list h hreads .ended, hleft, nofun, hc.cons hpath⟩
  | annotated hcurrent h hname hopening _ hinner _ ihinner ih =>
    obtain ⟨us, rfl, hus⟩ := hc.exists_cons hcurrent
    obtain ⟨ws, vs, hannotated, hvs, hws⟩ := exists_annotated hus hname hopening
    obtain ⟨behind, left₁, hreads₁, hleft₁, hclosed₁, hpath₁⟩ := ihinner hws
    obtain rfl := hclosed₁ hinner
    obtain ⟨rest, left, hreads, hleft, hclosed, hpath⟩ := ih hleft₁
    exact ⟨rest, left, .annotated h hannotated hreads₁ hreads, hleft, hclosed,
      hc.cons (hus.cons (hvs.cons (hpath₁.append hpath)))⟩
  | annotatedBroken hcurrent h hname hopening _ hbroken ih =>
    obtain ⟨us, rfl, hus⟩ := hc.exists_cons hcurrent
    obtain ⟨ws, vs, hannotated, hvs, hws⟩ := exists_annotated hus hname hopening
    obtain ⟨behind, left, hreads, hleft, -, hpath⟩ := ih hws
    obtain rfl := hreads.isClosed_or_nil.resolve_left hbroken
    rw [hc.ending_eq]
    exact ⟨[], left, .annotated h hannotated hreads .ended, hleft, nofun,
      hc.cons (hus.cons (hvs.cons hpath))⟩
  | nameless hcurrent h hname =>
    obtain ⟨us, rfl, hus⟩ := hc.exists_cons hcurrent
    obtain ⟨hnone, hbroken⟩ := unannotated_nameless hus hname
    rw [← hbroken]
    refine ⟨[], us, .unannotated h hnone, hus, fun hes => ?_, hc.cons hus.single⟩
    rw [hbroken] at hes
    cases hes
  | plainTag hcurrent h hname hopening =>
    obtain ⟨us, rfl, hus⟩ := hc.exists_cons hcurrent
    obtain ⟨hnone, hbroken⟩ := unannotated_plainTag hus hname hopening
    obtain ⟨vs, -, -, hvs⟩ := exists_of_name hus hname
    rw [← hbroken]
    refine ⟨[], vs, .unannotated h hnone, hvs, fun hes => ?_, hc.cons (hus.cons hvs.single)⟩
    rw [hbroken] at hes
    cases hes
  | file hcurrent h _ ih =>
    obtain ⟨us, rfl, hus⟩ := hc.exists_cons hcurrent
    obtain ⟨rest, left, hreads, hleft, hclosed, hpath⟩ := ih hus
    refine ⟨rest, left, .file h hreads, hleft, fun hentry => ?_, hc.cons hpath⟩
    cases hentry with
    | entry hes => exact hclosed hes
  | close hcurrent h =>
    obtain ⟨us, rfl, hus⟩ := hc.exists_cons hcurrent
    exact ⟨us, us, .close h, hus, fun _ => rfl, hc.cons hus.single⟩
  | fail hcurrent h =>
    obtain ⟨us, rfl, hus⟩ := hc.exists_cons hcurrent
    exact ⟨[], us, .fail h, hus, nofun, hc.cons hus.single⟩

/-- A cursor behind a list that is closed faces what the reader leaves. -/
lemma Walks.faces_rest {rest : List Token} (h : Walks g closing started key pending c es path c')
    (hc : c.Faces text ts) (hes : IsClosed es)
    (hreads : Reads (Token.ending text) g closing started key pending ts es rest) :
    c'.Faces text rest := by
  obtain ⟨behind, left, hwalk, hleft, hclosed, -⟩ := h.reaches hc
  obtain rfl := hclosed hes
  obtain ⟨-, rfl⟩ := Prod.mk.inj (hwalk.outcome_eq.symm.trans hreads.outcome_eq)
  exact hleft

/-- What the reader reads is found by a walk. -/
lemma Reads.exists_walk {rest : List Token}
    (h : Reads (Token.ending text) g closing started key pending ts es rest)
    (hc : c.Faces text ts) : ∃ path c', Walks g closing started key pending c es path c' := by
  induction h generalizing c with
  | ended =>
    rw [← hc.current_nil]
    exact ⟨_, _, .ended (by rw [hc.current_nil]; rfl)⟩
  | go h _ ih =>
    obtain ⟨path, c', hwalk⟩ := ih hc.advance
    rw [← hc.current_cons] at h
    exact ⟨_, _, .go hc.current_kind_ne h hwalk⟩
  | @list _ _ _ _ _ t ts behind rest inner es h hinner hrest ihinner ih =>
    obtain ⟨path₁, c₁, hwalk₁⟩ := ihinner hc.advance
    rw [← hc.current_cons] at h hrest ih
    by_cases hclosed : IsClosed inner
    · obtain ⟨path, c', hwalk⟩ := ih (hwalk₁.faces_rest hc.advance hclosed hinner)
      exact ⟨_, _, .list hc.current_kind_ne h hwalk₁ hclosed hwalk⟩
    · obtain rfl := hinner.isClosed_or_nil.resolve_left hclosed
      cases hrest
      rw [← hc.ending_eq]
      exact ⟨_, _, .listBroken hc.current_kind_ne h hwalk₁ hclosed⟩
  | @annotated _ _ _ _ _ t name ts us behind rest inner es h hname hinner hrest ihinner ih =>
    obtain ⟨word, opening, rfl, hword, rfl, hparen⟩ := exists_of_annotated? hname
    have hus := hc.advance
    have hconsume : c.advance.consume .word "Expected annotation name" =
        .ok (word, c.advance.advance) := by
      have hcurrent : c.advance.current.kind = .word := by
        rw [hus.current_cons, hword]
      rw [Cursor.consume_of_kind hcurrent, hus.current_cons]
    have hopening := (hus.advance.isAt_cons .leftParen).2 hparen
    obtain ⟨path₁, c₁, hwalk₁⟩ := ihinner hus.advance.advance
    rw [← hc.current_cons] at h hrest ih
    by_cases hclosed : IsClosed inner
    · obtain ⟨path, c', hwalk⟩ := ih (hwalk₁.faces_rest hus.advance.advance hclosed hinner)
      exact ⟨_, _, .annotated hc.current_kind_ne h hconsume hopening hwalk₁ hclosed hwalk⟩
    · obtain rfl := hinner.isClosed_or_nil.resolve_left hclosed
      cases hrest
      rw [← hc.ending_eq]
      exact ⟨_, _, .annotatedBroken hc.current_kind_ne h hconsume hopening hwalk₁ hclosed⟩
  | @unannotated _ _ _ _ _ t ts h hname =>
    have hus := hc.advance
    rw [← hc.current_cons] at h
    by_cases hword : c.advance.current.kind = .word
    · have hconsume := Cursor.consume_of_kind hword "Expected annotation name"
      have hopening : c.advance.advance.isAt [.leftParen] = false := by
        rw [Bool.eq_false_iff]
        intro hopening
        obtain ⟨_, _, hannotated, -⟩ := exists_annotated hus hconsume hopening
        rw [hname] at hannotated
        cases hannotated
      rw [(unannotated_plainTag hus hconsume hopening).2]
      exact ⟨_, _, .plainTag hc.current_kind_ne h hconsume hopening⟩
    · obtain ⟨e, hconsume⟩ := Cursor.exists_consume_error hword "Expected annotation name"
      rw [(unannotated_nameless hus hconsume).2]
      exact ⟨_, _, .nameless hc.current_kind_ne h hconsume⟩
  | file h _ ih =>
    obtain ⟨path, c', hwalk⟩ := ih hc.advance
    rw [← hc.current_cons] at h
    exact ⟨_, _, .file hc.current_kind_ne h hwalk⟩
  | close h =>
    rw [← hc.current_cons] at h
    exact ⟨_, _, .close hc.current_kind_ne h⟩
  | fail h =>
    rw [← hc.current_cons] at h
    exact ⟨_, _, .fail hc.current_kind_ne h⟩

end Walks

end Entries

/-! ## Tags -/

namespace Tag

open Cursor (AllFace)
open Entries (IsClosed)

/-- `true` where a cursor is at the end of the value of a plain tag. -/
def endsValueAt (c : Cursor) : Bool :=
  c.isAtEnd || c.isAt [.atSign] || c.current.hasNewline

/-- The walks behind the list of a tag, with the token that must not stand there, if there is
one. -/
inductive AfterWalks : Cursor → Option Token → List Cursor → Cursor → Prop
  | stop {c : Cursor} (h : endsValueAt c = true) : AfterWalks c none [c] c
  | blank {c c' : Cursor} {stray : Option Token} {path : List Cursor}
      (h : endsValueAt c = false) (hc : c.current.kind = .whitespace)
      (hrest : AfterWalks c.advance stray path c') : AfterWalks c stray (c :: path) c'
  | stray {c : Cursor} (h : endsValueAt c = false) (hc : c.current.kind ≠ .whitespace) :
      AfterWalks c (some c.current) [c, c.advance] c.advance

/-- The walks over the value of a plain tag, with the tokens of it that were passed before. -/
inductive ValueWalks (name : String) : List Token → Cursor → Tag → List Cursor → Cursor → Prop
  | stop {value : List Token} {c : Cursor} (h : endsValueAt c = true) :
      ValueWalks name value c (.plain name (textOf value)) [c] c
  | text {value : List Token} {c c' : Cursor} {tag : Tag} {path : List Cursor}
      (h : endsValueAt c = false) (hc : c.current.kind ≠ .leftBrace)
      (hrest : ValueWalks name (value ++ [c.current]) c.advance tag path c') :
      ValueWalks name value c tag (c :: path) c'
  | list {value : List Token} {c c₁ c' : Cursor} {es : Entries} {stray : Option Token}
      {path₁ path : List Cursor} (h : endsValueAt c = false) (hc : c.current.kind = .leftBrace)
      (hlist : Entries.Walks .plain .rightBrace false none none c.advance es path₁ c₁)
      (hclosed : IsClosed es) (hafter : AfterWalks c₁ stray path c') :
      ValueWalks name value c (.list name es stray) (c :: (path₁ ++ path)) c'
  | listBroken {value : List Token} {c c' : Cursor} {es : Entries} {path : List Cursor}
      (h : endsValueAt c = false) (hc : c.current.kind = .leftBrace)
      (hlist : Entries.Walks .plain .rightBrace false none none c.advance es path c')
      (hbroken : ¬ IsClosed es) : ValueWalks name value c (.list name es none) (c :: path) c'

/-- The walks behind the name of a tag. -/
inductive BodyWalks (name : String) : Cursor → Tag → List Cursor → Cursor → Prop
  | typed {c c' : Cursor} {args : Entries} {path : List Cursor}
      (hopening : c.isAt [.leftParen] = true)
      (hargs : Entries.Walks .argument .rightParen false none none c.advance args path c') :
      BodyWalks name c (.typed name args) (c :: path) c'
  | plain {c c' : Cursor} {tag : Tag} {path : List Cursor}
      (hopening : c.isAt [.leftParen] = false) (hvalue : ValueWalks name [] c tag path c') :
      BodyWalks name c tag path c'

/-- The tag is read to its end. -/
inductive IsComplete : Tag → Prop
  | plain {name text : String} : IsComplete (.plain name text)
  | list {name : String} {es : Entries} (h : IsClosed es) : IsComplete (.list name es none)
  | typed {name : String} {args : Entries} (h : IsClosed args) : IsComplete (.typed name args)

/-- The walks over a section, with the tags that they find and the cursors on the way.  The position
before an `@` is saved, and restored if no word follows. -/
inductive Walks : Cursor → List Tag → List Cursor → Prop
  | stop {c : Cursor} (hend : c.isAtEnd = true) : Walks c [] [c]
  | skip {c : Cursor} {tags : List Tag} {path : List Cursor} (hend : c.isAtEnd = false)
      (hat : c.isAt [.atSign] = false) (hrest : Walks c.advance tags path) :
      Walks c tags (c :: path)
  | lone {c c₁ c₂ : Cursor} {t : Token} {tags : List Tag} {path : List Cursor}
      (hend : c.isAtEnd = false) (hat : c.isAt [.atSign] = true)
      (ht : c.save.consume .atSign "" = .ok (t, c₁)) (hname : c₁.isAt [.word] = false)
      (hrestore : c₁.restore = .ok c₂) (hrest : Walks c₂.advance tags path) :
      Walks c tags (c :: c.save :: c₁ :: c₂ :: path)
  | tag {c c₁ c₂ c₃ : Cursor} {t : Token} {tag : Tag} {tags : List Tag} {path₁ path : List Cursor}
      (hend : c.isAtEnd = false) (hat : c.isAt [.atSign] = true)
      (ht : c.save.consume .atSign "" = .ok (t, c₁)) (hname : c₁.isAt [.word] = true)
      (hdiscard : c₁.discard = .ok c₂) (hbody : BodyWalks c₂.current.text c₂.advance tag path₁ c₃)
      (hcomplete : tag.IsComplete) (hrest : Walks c₃ tags path) :
      Walks c (tag :: tags) (c :: c.save :: c₁ :: c₂ :: (path₁ ++ path))
  | last {c c₁ c₂ c₃ : Cursor} {t : Token} {tag : Tag} {path : List Cursor}
      (hend : c.isAtEnd = false) (hat : c.isAt [.atSign] = true)
      (ht : c.save.consume .atSign "" = .ok (t, c₁)) (hname : c₁.isAt [.word] = true)
      (hdiscard : c₁.discard = .ok c₂) (hbody : BodyWalks c₂.current.text c₂.advance tag path c₃)
      (hbroken : ¬ tag.IsComplete) : Walks c [tag] (c :: c.save :: c₁ :: c₂ :: path)

section Values

variable {text : List Char} {name : String} {c c' : Cursor} {t : Token} {ts value : List Token}
  {stray : Option Token} {tag : Tag} {path : List Cursor}

lemma endsValueAt_nil (hc : c.Faces text []) : endsValueAt c = true := by
  simp [endsValueAt, hc.isAtEnd_nil]

lemma endsValueAt_cons (hc : c.Faces text (t :: ts)) : endsValueAt c = endsValue t := by
  have hat : c.isAt [.atSign] = (t.kind == .atSign) := by
    rw [Bool.eq_iff_iff, hc.isAt_cons, beq_iff_eq]
  rw [endsValueAt, hc.isAtEnd_cons, hat, hc.current_cons]
  rfl

lemma exists_cons_of_not_ends (hc : c.Faces text ts) (h : endsValueAt c = false) :
    ∃ us, ts = c.current :: us ∧ endsValue c.current = false ∧ c.advance.Faces text us := by
  cases ts with
  | nil =>
    rw [endsValueAt_nil hc] at h
    cases h
  | cons t us =>
    rw [endsValueAt_cons hc] at h
    rw [hc.current_cons]
    exact ⟨us, rfl, h, hc.advance⟩

lemma head_ends (hc : c.Faces text ts) (h : endsValueAt c = true) :
    ∀ a ∈ ts.head?, endsValue a = true := by
  cases ts with
  | nil => simp
  | cons t ts =>
    rw [endsValueAt_cons hc] at h
    simpa using h

lemma strayAfter?_of_ends (h : ∀ a ∈ ts.head?, endsValue a = true) : strayAfter? ts = none := by
  cases ts with
  | nil => rfl
  | cons t ts =>
    have ht : endsValue t = true := h t rfl
    have hkeep : (t.kind == .whitespace && !t.hasNewline) = false := by
      unfold endsValue at ht
      cases hnewline : t.hasNewline with
      | true => simp
      | false =>
        rw [hnewline, Bool.or_false, beq_iff_eq] at ht
        simp [ht]
    rw [strayAfter?, List.dropWhile_cons_of_neg (by simp [hkeep])]
    exact if_pos ht

lemma strayAfter?_blank (h : endsValue t = false) (ht : t.kind = .whitespace) (ts : List Token) :
    strayAfter? (t :: ts) = strayAfter? ts := by
  have hnewline : t.hasNewline = false := (Bool.or_eq_false_iff.1 h).2
  rw [strayAfter?, List.dropWhile_cons_of_pos (by simp [ht, hnewline]), strayAfter?]

lemma strayAfter?_stray (h : endsValue t = false) (ht : t.kind ≠ .whitespace) (ts : List Token) :
    strayAfter? (t :: ts) = some t := by
  rw [strayAfter?, List.dropWhile_cons_of_neg (by simp [ht])]
  exact if_neg (by simp [h])

/-- Behind a list a walk passes the blanks, up to what must not stand there. -/
lemma AfterWalks.reaches (h : AfterWalks c stray path c') (hc : c.Faces text ts) :
    stray = strayAfter? ts ∧ AllFace text path ∧
      (stray = none → ∃ blanks left, ts = blanks ++ left ∧ (∀ b ∈ blanks, b.kind = .whitespace) ∧
        c'.Faces text left) := by
  induction h generalizing ts with
  | stop h =>
    exact ⟨(strayAfter?_of_ends (head_ends hc h)).symm, hc.single,
      fun _ => ⟨[], ts, rfl, List.forall_mem_nil _, hc⟩⟩
  | blank h hblank _ ih =>
    obtain ⟨us, rfl, hends, hus⟩ := exists_cons_of_not_ends hc h
    obtain ⟨hstray, hpath, hleft⟩ := ih hus
    refine ⟨hstray.trans (strayAfter?_blank hends hblank us).symm, hc.cons hpath, fun hnone => ?_⟩
    obtain ⟨blanks, left, rfl, hblanks, hfaces⟩ := hleft hnone
    exact ⟨_ :: blanks, left, rfl, List.forall_mem_cons.2 ⟨hblank, hblanks⟩, hfaces⟩
  | stray h hkind =>
    obtain ⟨us, rfl, hends, hus⟩ := exists_cons_of_not_ends hc h
    exact ⟨(strayAfter?_stray hends hkind us).symm, hc.cons hus.single, nofun⟩

/-- What a walk over a tag has come to: the cursors on the way are cursors of the section, the
reader reads the tag and goes on with the tokens `rest`, and a walk that has not ended faces these
without the blanks.  It ends if no tokens are left or something stands behind a list. -/
structure Reached (text : List Char) (ts : List Token) (tag : Tag) (path : List Cursor)
    (c' : Cursor) (rest : List Token) : Prop where
  path : AllFace text path
  suffix : rest <:+ ts
  faces : tag.IsComplete → ∃ blanks left, rest = blanks ++ left ∧
    (∀ b ∈ blanks, b.kind = .whitespace) ∧ c'.Faces text left
  ended : ¬ tag.IsComplete → rest = [] ∨ ∃ name es stray, tag = .list name es (some stray)

/-- The value of a plain tag is its text, or a list behind some text. -/
lemma ValueWalks.reaches (h : ValueWalks name value c tag path c') (hc : c.Faces text ts) :
    (∃ more after, ts = more ++ after ∧ (∀ v ∈ more, isText v = true) ∧
      (∀ a ∈ after.head?, endsValue a = true) ∧ tag = .plain name (textOf (value ++ more)) ∧
      Reached text ts tag path c' after) ∨
    ∃ more brace us es rest, ts = more ++ brace :: us ∧ (∀ v ∈ more, isText v = true) ∧
      brace.kind = .leftBrace ∧
      Entries.Reads (Token.ending text) .plain .rightBrace false none none us es rest ∧
      tag = .list name es (strayAfter? rest) ∧ Reached text ts tag path c' rest := by
  induction h generalizing ts with
  | @stop value c h =>
    refine .inl ⟨[], ts, rfl, List.forall_mem_nil _, head_ends hc h, by rw [List.append_nil], ?_⟩
    exact ⟨hc.single, List.suffix_refl ts,
      fun _ => ⟨[], ts, rfl, List.forall_mem_nil _, hc⟩, fun hbroken => absurd .plain hbroken⟩
  | @text value c c' tag path h hkind _ ih =>
    obtain ⟨us, rfl, hends, hus⟩ := exists_cons_of_not_ends hc h
    have htext : isText c.current = true := by simp [isText, hends, hkind]
    have hreached : ∀ {rest}, Reached text us tag path c' rest →
        Reached text (c.current :: us) tag (c :: path) c' rest := fun hus =>
      ⟨hc.cons hus.path, hus.suffix.trans (List.suffix_cons _ _),
        hus.faces, hus.ended⟩
    rcases ih hus with ⟨more, after, rfl, hmore, hafter, htag, hrest⟩ |
      ⟨more, brace, vs, es, rest, rfl, hmore, hbrace, hlist, htag, hrest⟩
    · refine .inl ⟨c.current :: more, after, rfl, List.forall_mem_cons.2 ⟨htext, hmore⟩, hafter, ?_,
        hreached hrest⟩
      rw [htag, List.append_assoc, List.singleton_append]
    · exact .inr ⟨c.current :: more, brace, vs, es, rest, rfl,
        List.forall_mem_cons.2 ⟨htext, hmore⟩, hbrace, hlist, htag, hreached hrest⟩
  | @list value c c₁ c' es stray path₁ path h hbrace hlist hclosed hafter =>
    obtain ⟨us, rfl, -, hus⟩ := exists_cons_of_not_ends hc h
    obtain ⟨rest, left, hreads, hleft, hrest, hpath₁⟩ := hlist.reaches hus
    obtain rfl := hrest hclosed
    obtain ⟨rfl, hpath, hfaces⟩ := hafter.reaches hleft
    refine .inr ⟨[], c.current, us, es, left, rfl, List.forall_mem_nil _, hbrace, hreads, rfl, ?_⟩
    refine ⟨hc.cons (hpath₁.append hpath),
      hreads.suffix.trans (List.suffix_cons _ _), fun hcomplete => ?_, fun hbroken => ?_⟩
    · generalize hstray : strayAfter? left = stray at hcomplete
      cases hcomplete with
      | list _ => exact hfaces hstray
    · cases hstray : strayAfter? left with
      | none =>
        rw [hstray] at hbroken
        exact absurd (.list hclosed) hbroken
      | some stray => exact .inr ⟨_, _, stray, rfl⟩
  | @listBroken value c c' es path h hbrace hlist hbroken =>
    obtain ⟨us, rfl, -, hus⟩ := exists_cons_of_not_ends hc h
    obtain ⟨rest, left, hreads, hleft, -, hpath⟩ := hlist.reaches hus
    obtain rfl := hreads.isClosed_or_nil.resolve_left hbroken
    refine .inr ⟨[], c.current, us, es, [], rfl, List.forall_mem_nil _, hbrace, hreads, rfl, ?_⟩
    refine ⟨hc.cons hpath, List.nil_suffix, fun hcomplete => ?_,
      fun _ => .inl rfl⟩
    cases hcomplete with
    | list hclosed => exact absurd hclosed hbroken

end Values

section Bodies

variable {text : List Char} {c c' : Cursor} {t name : Token} {ts : List Token} {tag : Tag}
  {path : List Cursor}

/-- A walk behind the name of a tag finds the tag that the reader reads. -/
lemma BodyWalks.reaches (h : BodyWalks name.text c tag path c') (hc : c.Faces text ts)
    (ht : t.kind = .atSign) (hname : name.kind = .word) : ∃ rest,
      Reached text ts tag path c' rest ∧ ∀ tags, Reads (Token.ending text) rest tags →
        Reads (Token.ending text) (t :: name :: ts) (tag :: tags) := by
  cases h with
  | typed hopening hargs =>
    cases ts with
    | nil =>
      rw [hc.isAt_nil (by simp)] at hopening
      cases hopening
    | cons opening us =>
      have hparen := (hc.isAt_cons .leftParen).1 hopening
      obtain ⟨rest, left, hreads, hleft, hrest, hpath⟩ := hargs.reaches hc.advance
      refine ⟨rest, ⟨hc.cons hpath,
        hreads.suffix.trans (List.suffix_cons _ _), fun hcomplete => ?_, fun hbroken => ?_⟩,
        fun tags htags => .typed ht hname hparen hreads htags⟩
      · cases hcomplete with
        | typed hclosed =>
          obtain rfl := hrest hclosed
          exact ⟨[], left, rfl, List.forall_mem_nil _, hleft⟩
      · exact .inl (hreads.isClosed_or_nil.resolve_left fun hclosed => hbroken (.typed hclosed))
  | plain hopening hvalue =>
    have hhead : ∀ o ∈ ts.head?, o.kind ≠ .leftParen := by
      cases ts with
      | nil => simp
      | cons o us =>
        rintro _ ⟨⟩
        rw [ne_eq, ← hc.isAt_cons, hopening]
        exact Bool.false_ne_true
    rcases hvalue.reaches hc with ⟨more, after, rfl, hmore, hafter, rfl, hreached⟩ |
      ⟨more, brace, us, es, rest, rfl, hmore, hbrace, hlist, rfl, hreached⟩
    · exact ⟨after, hreached, fun tags htags => .plain ht hname hhead hmore hafter htags⟩
    · exact ⟨rest, hreached, fun tags htags => .list ht hname hhead hmore hbrace hlist htags⟩

end Bodies

section Sections

variable {text : List Char} {c : Cursor} {t : Token} {ts : List Token} {tags : List Tag}
  {path : List Cursor}

lemma Reads.cons_skip {eof : Token} (h : Reads eof ts tags) (ht : t.kind ≠ .atSign) :
    Reads eof (t :: ts) tags := by
  cases ts with
  | nil =>
    cases h
    exact .lone
  | cons name ts => exact .skip (.inl ht) h

lemma Reads.blanks_append {eof : Token} (h : Reads eof ts tags) {blanks : List Token}
    (hblanks : ∀ b ∈ blanks, b.kind = .whitespace) : Reads eof (blanks ++ ts) tags := by
  induction blanks with
  | nil => exact h
  | cons b blanks ih =>
    rw [List.forall_mem_cons] at hblanks
    exact (ih hblanks.2).cons_skip (by simp [hblanks.1])

/-- What stands behind a list ends the reading of the tags. -/
lemma tags_stray (x : Setting) (comment : Comment) (name : String) (es : Entries) (stray : Token)
    (tags : List Tag) : x.tags comment (.list name es (some stray) :: tags) =
      x.tags comment [.list name es (some stray)] := by
  funext r
  have htag : ∃ e r', x.tag comment (.list name es (some stray)) r = (.error e, r') := by
    rcases hlist : x.entries es [] r with ⟨e | v, r'⟩
    · exact ⟨e, r', Run.bind_error hlist _⟩
    · exact ⟨_, r', Run.bind_ok hlist _⟩
  obtain ⟨e, r', htag⟩ := htag
  rw [Setting.tags, Run.bind_error htag, Setting.tags, Run.bind_error htag]

/-- The position before an `@` is not needed any more where a word follows. -/
lemma exists_name {c₁ c₂ : Cursor} (hc : c.Faces text ts)
    (ht : c.save.consume .atSign "" = .ok (t, c₁)) (hname : c₁.isAt [.word] = true)
    (hdiscard : c₁.discard = .ok c₂) : ∃ name us, ts = t :: name :: us ∧ t.kind = .atSign ∧
      name.kind = .word ∧ c₁.Faces text (name :: us) ∧ c₂.Faces text (name :: us) := by
  obtain ⟨hat, rfl, rfl⟩ := Cursor.consume_eq_ok ht
  rw [Cursor.discard_save_advance] at hdiscard
  obtain rfl := Except.ok.inj hdiscard
  obtain ⟨us, rfl, hus⟩ := hc.save.exists_cons (by simp [hat])
  cases us with
  | nil =>
    rw [hus.isAt_nil (by simp)] at hname
    cases hname
  | cons name us => exact ⟨name, us, rfl, hat, (hus.isAt_cons .word).1 hname, hus, hc.advance⟩

/-- A walk over a section finds the tags that are read, up to the one where it ends. -/
lemma Walks.reaches (h : Walks c tags path) (hc : c.Faces text ts) :
    (∃ read, Reads (Token.ending text) ts read ∧
      ∀ (x : Setting) comment, x.tags comment tags = x.tags comment read) ∧
    AllFace text path := by
  induction h generalizing ts with
  | stop hend =>
    cases ts with
    | nil => exact ⟨⟨[], .nil, fun _ _ => rfl⟩, hc.single⟩
    | cons t ts =>
      rw [hc.isAtEnd_cons] at hend
      cases hend
  | skip hend hat _ ih =>
    cases ts with
    | nil =>
      rw [hc.isAtEnd_nil] at hend
      cases hend
    | cons t ts =>
      obtain ⟨⟨read, hread, heval⟩, hpath⟩ := ih hc.advance
      have ht : t.kind ≠ .atSign := by
        rw [ne_eq, ← hc.isAt_cons, hat]
        exact Bool.false_ne_true
      exact ⟨⟨read, hread.cons_skip ht, heval⟩, hc.cons hpath⟩
  | @lone c c₁ c₂ t tags path hend _ ht hname hrestore _ ih =>
    obtain ⟨-, -, rfl⟩ := Cursor.consume_eq_ok ht
    rw [Cursor.restore_save_advance] at hrestore
    obtain rfl := Except.ok.inj hrestore
    cases ts with
    | nil =>
      rw [hc.isAtEnd_nil] at hend
      cases hend
    | cons at' us =>
      obtain ⟨⟨read, hread, heval⟩, hpath⟩ := ih hc.advance
      refine ⟨⟨read, ?_, heval⟩, hc.cons (hc.save.cons (hc.save.advance.cons (hc.cons hpath)))⟩
      cases us with
      | nil =>
        cases hread
        exact .lone
      | cons n vs =>
        have hn : n.kind ≠ .word := by
          rw [ne_eq, ← hc.save.advance.isAt_cons, hname]
          exact Bool.false_ne_true
        exact .skip (.inr hn) hread
  | @tag c c₁ c₂ c₃ t tag tags path₁ path _ _ ht hname hdiscard hbody hcomplete _ ih =>
    obtain ⟨name, us, rfl, hat, hword, hc₁, hc₂⟩ := exists_name hc ht hname hdiscard
    rw [hc₂.current_cons] at hbody
    obtain ⟨rest, hreached, hreads⟩ := hbody.reaches hc₂.advance hat hword
    obtain ⟨blanks, left, rfl, hblanks, hleft⟩ := hreached.faces hcomplete
    obtain ⟨⟨read, hread, heval⟩, hpath⟩ := ih hleft
    refine ⟨⟨tag :: read, hreads read (hread.blanks_append hblanks), fun x comment => ?_⟩, ?_⟩
    · rw [Setting.tags, Setting.tags]
      exact congrArg _ (funext fun comment => heval x comment)
    · exact hc.cons (hc.save.cons (hc₁.cons (hc₂.cons (hreached.path.append hpath))))
  | @last c c₁ c₂ c₃ t tag path _ _ ht hname hdiscard hbody hbroken =>
    obtain ⟨name, us, rfl, hat, hword, hc₁, hc₂⟩ := exists_name hc ht hname hdiscard
    rw [hc₂.current_cons] at hbody
    obtain ⟨rest, hreached, hreads⟩ := hbody.reaches hc₂.advance hat hword
    refine ⟨?_, hc.cons (hc.save.cons (hc₁.cons (hc₂.cons hreached.path)))⟩
    rcases hreached.ended hbroken with rfl | ⟨listName, es, stray, rfl⟩
    · exact ⟨[tag], hreads [] .nil, fun _ _ => rfl⟩
    · exact ⟨_, hreads _ (reads_parse _ rest),
        fun x comment => (tags_stray x comment listName es stray _).symm⟩

/-! ## There is a walk -/

lemma exists_afterWalk (hc : c.Faces text ts) : ∃ stray path c', AfterWalks c stray path c' := by
  induction ts generalizing c with
  | nil => exact ⟨none, _, c, .stop (endsValueAt_nil hc)⟩
  | cons t ts ih =>
    cases hends : endsValueAt c with
    | true => exact ⟨none, _, c, .stop hends⟩
    | false =>
      by_cases hblank : c.current.kind = .whitespace
      · obtain ⟨stray, path, c', hwalk⟩ := ih hc.advance
        exact ⟨stray, _, c', .blank hends hblank hwalk⟩
      · exact ⟨_, _, _, .stray hends hblank⟩

lemma exists_valueWalk (hc : c.Faces text ts) (name : String) (value : List Token) :
    ∃ tag path c', ValueWalks name value c tag path c' := by
  induction ts generalizing c value with
  | nil => exact ⟨_, _, c, .stop (endsValueAt_nil hc)⟩
  | cons t ts ih =>
    cases hends : endsValueAt c with
    | true => exact ⟨_, _, c, .stop hends⟩
    | false =>
      by_cases hbrace : c.current.kind = .leftBrace
      · have hreads :=
          Entries.reads_outcome (Token.ending text) .plain .rightBrace false none none ts
        obtain ⟨path₁, c₁, hlist⟩ := hreads.exists_walk hc.advance
        obtain ⟨rest, left, -, hleft, -⟩ := hlist.reaches hc.advance
        by_cases hclosed : IsClosed
            (Entries.outcome (Token.ending text) .plain .rightBrace false none none ts).1
        · obtain ⟨stray, path, c', hafter⟩ := exists_afterWalk hleft
          exact ⟨_, _, c', .list hends hbrace hlist hclosed hafter⟩
        · exact ⟨_, _, c₁, .listBroken hends hbrace hlist hclosed⟩
      · obtain ⟨tag, path, c', hwalk⟩ := ih hc.advance (value ++ [c.current])
        exact ⟨tag, _, c', .text hends hbrace hwalk⟩

lemma exists_bodyWalk (hc : c.Faces text ts) (name : String) :
    ∃ tag path c', BodyWalks name c tag path c' := by
  cases hopening : c.isAt [.leftParen] with
  | true =>
    cases ts with
    | nil =>
      rw [hc.isAt_nil (by simp)] at hopening
      cases hopening
    | cons opening us =>
      have hreads :=
        Entries.reads_outcome (Token.ending text) .argument .rightParen false none none us
      obtain ⟨path, c', hargs⟩ := hreads.exists_walk hc.advance
      exact ⟨_, _, c', .typed hopening hargs⟩
  | false =>
    obtain ⟨tag, path, c', hvalue⟩ := exists_valueWalk hc name []
    exact ⟨tag, path, c', .plain hopening hvalue⟩

lemma exists_walk (hc : c.Faces text ts) : ∃ tags path, Walks c tags path := by
  -- A tag takes any number of tokens.
  induction hn : ts.length using Nat.strongRecOn generalizing c ts with
  | _ n ih =>
  cases ts with
  | nil => exact ⟨[], _, .stop hc.isAtEnd_nil⟩
  | cons t us =>
    have hlt : us.length < n := by
      rw [← hn, List.length_cons]
      omega
    have hend := hc.isAtEnd_cons
    cases hat : c.isAt [.atSign] with
    | false =>
      obtain ⟨tags, path, hwalk⟩ := ih _ hlt hc.advance rfl
      exact ⟨tags, _, .skip hend hat hwalk⟩
    | true =>
      have hsign : c.save.current.kind = .atSign := by
        rw [hc.save.current_cons, (hc.isAt_cons .atSign).1 hat]
      have ht := Cursor.consume_of_kind hsign ""
      cases hname : c.save.advance.isAt [.word] with
      | false =>
        obtain ⟨tags, path, hwalk⟩ := ih _ hlt hc.advance rfl
        exact ⟨tags, _, .lone hend hat ht hname (Cursor.restore_save_advance c) hwalk⟩
      | true =>
        have hdiscard := Cursor.discard_save_advance c
        obtain ⟨name, vs, hts, hkind, hword, -, hc₂⟩ := exists_name hc ht hname hdiscard
        obtain ⟨tag, path₁, c₃, hbody⟩ := exists_bodyWalk hc₂.advance c.advance.current.text
        by_cases hcomplete : tag.IsComplete
        · have hreach := hbody
          rw [hc₂.current_cons] at hreach
          obtain ⟨rest, hreached, -⟩ := hreach.reaches hc₂.advance hkind hword
          obtain ⟨blanks, left, rfl, -, hleft⟩ := hreached.faces hcomplete
          have hless : left.length < n := by
            have hle := hreached.suffix.length_le
            obtain ⟨-, rfl⟩ := List.cons.inj hts
            rw [List.length_append] at hle
            rw [List.length_cons] at hlt
            omega
          obtain ⟨tags, path, hwalk⟩ := ih _ hless hleft rfl
          exact ⟨_, _, .tag hend hat ht hname hdiscard hbody hcomplete hwalk⟩
        · exact ⟨_, _, .last hend hat ht hname hdiscard hbody hcomplete⟩

/-- From the first token of a section there is a walk.  What any walk finds takes the same effect as
the section, and the cursor is always at one of the tokens, of which the end token is the last
one. -/
lemma walks_section (text : List Char) :
    let tokens := Token.pieces text ++ [Token.ending text]
    (∃ tags path, Walks (.start tokens) tags path) ∧
    ∀ tags path, Walks (.start tokens) tags path →
      (∀ (x : Setting) comment, x.tags comment tags = x.scan comment text) ∧
      ∀ v ∈ path, v.tokens = tokens ∧ v.position < tokens.length := by
  intro tokens
  have hstart : (Cursor.start tokens).Faces text (Token.pieces text) := Cursor.faces_start text
  refine ⟨exists_walk hstart, fun tags path hwalk => ?_⟩
  obtain ⟨⟨read, hread, heval⟩, hpath⟩ := hwalk.reaches hstart
  refine ⟨fun x comment => ?_, fun v hv => ?_⟩
  · rw [heval, Setting.scan, ofSection, hread.parse_eq]
  · obtain ⟨us, hus⟩ := hpath v hv
    have hlt := hus.position_lt
    rw [hus.tokens] at hlt
    exact ⟨hus.tokens, hlt⟩

end Sections

end Tag
end DocTags
