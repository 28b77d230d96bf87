import DocTags.Proofs.Lossless
import DocTags.Proofs.Moving
import DocTags.Proofs.Names

/-!
# Sections one behind the other

A section that begins with a tag can be put behind another one.  Three things must hold for this to
be the same as scanning the first section and then the second one into its comment.

* No token may stand across the border.  Only a string could: a quote that is not closed in the
  first text may find its other half in the second.  Such a quote is part of a word, so it is enough
  that words hold no quotes (`Lexeme.split_append`).
* No decision of the reader may have been due to the end of the first section.  A list that is not
  closed breaks off there, but then the scan fails; all other decisions fall the same way before an
  `@` (`Tag.Reads.append`).
* The second section may not look at the comment it is scanned into, which it does not: its tags
  succeed or fail alike on every comment, and what they leave is the one comment laid over the other
  (`Setting.alike_tags`).

The main result is `scan_append`.
-/

namespace DocTags

/-! ## Tokens across the border -/

namespace Lexeme

variable {afterColon : Bool} {c : Char} {cs rest more : List Char} {l : Lexeme}

/-- `true` on the quotes that strings can stand in. -/
def isQuote (c : Char) : Bool :=
  c == '\'' || c == '"'

/-! A lexeme looks beyond its text in three cases only: a string for its closing quote, a run of
blanks for more of them, and a colon for a second one. -/

/-- A lexeme that is found is found before other text too, if that goes on neither with blanks nor
with a colon. -/
lemma match?_append_right (hcolon : more.head? ≠ some ':')
    (hblanks : ∀ d ∈ cs.head?, Text.isBlank d = true →
      (cs.tail ++ more).takeWhile Text.isBlank = cs.tail.takeWhile Text.isBlank ∧
        (cs.tail ++ more).dropWhile Text.isBlank = cs.tail.dropWhile Text.isBlank ++ more)
    (h : match? afterColon cs = some (l, rest)) :
    match? afterColon (cs ++ more) = some (l, rest ++ more) := by
  rw [match?_eq_some_iff] at h ⊢
  cases h with
  | @string quote inner hquote h =>
    rw [List.cons_append, List.append_assoc]
    exact .string hquote h (rest ++ more)
  | blanks h tail =>
    obtain ⟨htake, hdrop⟩ := hblanks _ rfl h
    rw [List.tail_cons] at htake hdrop
    rw [List.cons_append, ← htake, ← hdrop]
    exact .blanks h (tail ++ more)
  | colon hbefore hbehind =>
    refine .colon hbefore ?_
    cases rest with
    | nil => exact hcolon
    | cons d rest => exact hbehind
  | symbol h => exact .symbol h (rest ++ more)

/-- Where no lexeme is found there is none before other text either, unless that closes an open
quote. -/
lemma match?_append_right_of_none (hquote : isQuote c = true → ¬ Closes c (cs ++ more))
    (h : match? afterColon (c :: cs) = none) : match? afterColon (c :: (cs ++ more)) = none := by
  rw [match?_eq_none_iff] at h ⊢
  obtain ⟨-, hblank, halone, hsymbol⟩ := h
  refine ⟨fun hc => hquote ?_, hblank, fun hc => (halone hc).imp_right fun hbehind => ?_, hsymbol⟩
  · simpa [isQuote] using hc
  · rw [List.head?_append, hbehind]
    rfl

section Border

variable (hmore : more.head? = some '@')

include hmore

lemma exists_tail : ∃ tail, more = '@' :: tail := by
  cases more with
  | nil => cases hmore
  | cons c tail => exact ⟨tail, by rw [Option.some.inj hmore]⟩

lemma blanks_append :
    (cs ++ more).takeWhile Text.isBlank = cs.takeWhile Text.isBlank ∧
      (cs ++ more).dropWhile Text.isBlank = cs.dropWhile Text.isBlank ++ more := by
  obtain ⟨tail, rfl⟩ := exists_tail hmore
  have hat : Text.isBlank '@' = false := by decide
  induction cs with
  | nil => simp [hat]
  | cons c cs ih =>
    by_cases hc : Text.isBlank c = true
    · simp [hc, ih]
    · simp [hc]

lemma match?_border (afterColon : Bool) :
    match? afterColon more = some (⟨.atSign, ['@']⟩, more.tail) := by
  obtain ⟨tail, rfl⟩ := exists_tail hmore
  rfl

end Border

/-- A word that a character is put in front of has the quotes that the word had. -/
lemma isQuote_of_consWord {ls : List Lexeme}
    (h : ∀ l ∈ consWord c ls, l.kind = .word → ∀ q ∈ l.chars, isQuote q = false) :
    isQuote c = false ∧ ∀ l ∈ ls, l.kind = .word → ∀ q ∈ l.chars, isQuote q = false := by
  unfold consWord at h
  split at h
  · next cs rest =>
    rw [List.forall_mem_cons] at h ⊢
    have hword := List.forall_mem_cons.1 (h.1 rfl)
    exact ⟨hword.1, fun _ => hword.2, h.2⟩
  · rw [List.forall_mem_cons] at h
    exact ⟨h.1 rfl c List.mem_cons_self, h.2⟩

lemma consWord_append {ls : List Lexeme} (hls : ls ≠ []) (c : Char) (others : List Lexeme) :
    consWord c (ls ++ others) = consWord c ls ++ others := by
  cases ls with
  | nil => exact absurd rfl hls
  | cons l ls =>
    obtain ⟨kind, chars⟩ := l
    cases kind <;> rfl

lemma split_ne_nil (hcs : cs ≠ []) : split afterColon cs ≠ [] := by
  intro hnil
  have hchars := flatMap_split afterColon cs
  rw [hnil] at hchars
  exact hcs hchars.symm

/-- The lexemes of a text before an `@` are its own: none goes on behind the border unless a quote
is open there, and then a word holds it. -/
lemma split_append (afterColon : Bool) {cs : List Char}
    (hwords : ∀ l ∈ split afterColon cs, l.kind = .word → ∀ q ∈ l.chars, isQuote q = false)
    (hmore : more.head? = some '@') :
    split afterColon (cs ++ more) = split afterColon cs ++ split false more := by
  have hborder := match?_border hmore
  have hcolon : more.head? ≠ some ':' := by
    rw [hmore]
    decide
  fun_induction split afterColon cs with
  | case1 afterColon =>
    rw [List.nil_append, List.nil_append, split_of_match (hborder afterColon),
      split_of_match (hborder false)]
  | case2 afterColon c tail l rest hmatch ih =>
    have hlater := ih fun l' hl' => hwords l' (List.mem_cons_of_mem l hl')
    rw [split_of_match (match?_append_right hcolon (fun _ _ _ => blanks_append hmore) hmatch),
      hlater]
    rfl
  | case3 afterColon c tail hmatch ih =>
    obtain ⟨hquote, hothers⟩ := isQuote_of_consWord hwords
    rw [List.cons_append,
      split_of_none (match?_append_right_of_none (by simp [hquote]) hmatch), ih hothers]
    by_cases htail : tail = []
    · -- The text ends in a word of one character.
      subst htail
      have hdelimited : Delimited more := .inr (by rw [hborder]; rfl)
      rw [split, List.nil_append, consWord_split hdelimited]
      rfl
    · exact consWord_append (split_ne_nil htail) c _

end Lexeme

namespace Token

lemma locate_append (start : Nat) (ls others : List Lexeme) :
    locate start (ls ++ others) =
      locate start ls ++ locate (start + (ls.flatMap Lexeme.chars).length) others := by
  induction ls generalizing start with
  | nil => rfl
  | cons l ls ih =>
    rw [List.cons_append, locate, locate, ih, List.flatMap_cons, List.length_append,
      Nat.add_assoc]
    rfl

lemma locate_add (n start : Nat) (ls : List Lexeme) :
    locate (n + start) ls = (locate start ls).map (moved n) := by
  induction ls generalizing start with
  | nil => rfl
  | cons l ls ih =>
    rw [locate, locate, List.map_cons, ← ih, Nat.add_assoc]
    rfl

lemma exists_token_of_mem (start : Nat) {ls : List Lexeme} {l : Lexeme} (h : l ∈ ls) :
    ∃ t ∈ locate start ls, t.kind = l.kind ∧ t.text.toList = l.chars := by
  induction ls generalizing start with
  | nil => cases h
  | cons first ls ih =>
    rw [locate]
    rcases List.mem_cons.1 h with rfl | h
    · exact ⟨_, List.mem_cons_self, rfl, String.toList_ofList⟩
    · obtain ⟨t, ht, hsame⟩ := ih (start + first.chars.length) h
      exact ⟨t, List.mem_cons_of_mem _ ht, hsame⟩

/-- The tokens of two texts one behind the other, if the second begins with a tag. -/
lemma pieces_append {a b : List Char}
    (hquotes : ∀ t ∈ pieces a, t.kind = .word → ∀ q ∈ t.text.toList, Lexeme.isQuote q = false)
    (hb : b.head? = some '@') :
    pieces (a ++ b) = pieces a ++ (pieces b).map (moved a.length) := by
  have hwords : ∀ l ∈ Lexeme.split false a, l.kind = .word →
      ∀ q ∈ l.chars, Lexeme.isQuote q = false := by
    intro l hl hword q hq
    obtain ⟨t, ht, hkind, htext⟩ := exists_token_of_mem 0 hl
    exact hquotes t ht (hkind.trans hword) q (htext ▸ hq)
  rw [pieces, Lexeme.split_append false hwords hb, locate_append, Lexeme.flatMap_split,
    Nat.zero_add, ← Nat.add_zero a.length, locate_add]
  rfl

lemma ending_append (a b : List Char) : ending (a ++ b) = (ending b).moved a.length := by
  simp [ending, moved]

end Token

/-! ## Tags across the border -/

namespace Tag

/-- The tag has no list that breaks off at its end. -/
def IsClosed : Tag → Prop
  | .plain _ _ => True
  | .list _ es _ => es.IsClosed
  | .typed _ args => args.IsClosed

section Border

variable {more : List Token} {sign : Token}

lemma forall_head?_append {p : Token → Prop} (hp : p sign) {ts : List Token}
    (h : ∀ t ∈ ts.head?, p t) (more : List Token) : ∀ t ∈ (ts ++ sign :: more).head?, p t := by
  cases ts with
  | nil =>
    rintro t ⟨⟩
    exact hp
  | cons t ts => exact h

variable (hsign : sign.kind = .atSign)

include hsign

lemma strayAfter?_append (ts : List Token) : strayAfter? (ts ++ sign :: more) = strayAfter? ts := by
  have hblank : (sign.kind == .whitespace) = false := by rw [hsign]; rfl
  have hends : endsValue sign = true := by simp [endsValue, hsign]
  unfold strayAfter?
  induction ts with
  | nil => simp [hblank, hends]
  | cons t ts ih =>
    by_cases ht : (t.kind == .whitespace && !t.hasNewline) = true
    · simpa only [List.cons_append, List.dropWhile_cons, ht, if_true] using ih
    · simp only [List.cons_append, List.dropWhile_cons, ht, Bool.false_eq_true, if_false]

/-- The tags of a section are read alike before another tag, if no list in them breaks off. -/
lemma Reads.append {eof eof' : Token} {ts : List Token} {tags others : List Tag}
    (h : Reads eof ts tags) (hclosed : ∀ t ∈ tags, t.IsClosed)
    (hothers : Reads eof' (sign :: more) others) :
    Reads eof' (ts ++ sign :: more) (tags ++ others) := by
  have hends : endsValue sign = true := by simp [endsValue, hsign]
  have hparen : sign.kind ≠ .leftParen := by simp [hsign]
  induction h with
  | nil => exact hothers
  | lone =>
    have hword : sign.kind ≠ .word := by simp [hsign]
    exact .skip (.inr hword) hothers
  | skip h _ ih => exact .skip h (ih hclosed)
  | typed ht hname hopening hargs _ ih =>
    rw [List.forall_mem_cons] at hclosed
    exact .typed ht hname hopening (hargs.append hclosed.1 _ _) (ih hclosed.2)
  | plain ht hname hopening hvalue hafter _ ih =>
    rw [List.forall_mem_cons] at hclosed
    have hopening' := forall_head?_append hparen hopening more
    rw [List.append_assoc] at hopening'
    rw [List.cons_append, List.cons_append, List.append_assoc]
    exact .plain ht hname hopening' hvalue (forall_head?_append hends hafter more)
      (ih hclosed.2)
  | @list t name brace value ts rest es tags ht hname hopening hvalue hbrace hlist _ ih =>
    rw [List.forall_mem_cons] at hclosed
    have hopening' := forall_head?_append hparen hopening more
    rw [List.append_assoc] at hopening'
    rw [List.cons_append, List.cons_append, List.append_assoc, List.cons_append,
      ← strayAfter?_append hsign rest]
    exact .list ht hname hopening' hvalue hbrace (hlist.append hclosed.1 _ _) (ih hclosed.2)

end Border

/-- The tags of two sections one behind the other, if the second begins with a tag. -/
lemma ofSection_append {a b : List Char}
    (hquotes : ∀ t ∈ Token.pieces a, t.kind = .word →
      ∀ q ∈ t.text.toList, Lexeme.isQuote q = false)
    (hb : b.head? = some '@') (hclosed : ∀ t ∈ ofSection a, t.IsClosed) :
    ofSection (a ++ b) = ofSection a ++ (ofSection b).map (Tag.moved a.length) := by
  have hothers := reads_parse ((Token.ending b).moved a.length)
    ((Token.pieces b).map (Token.moved a.length))
  rw [parse_moved] at hothers
  have hfirst : Token.pieces b = ⟨.atSign, "@", 0⟩ :: Token.tokensFrom 1 b.tail :=
    Token.tokensFrom_of_match (Lexeme.match?_border hb false) 0
  rw [ofSection, Token.ending_append, Token.pieces_append hquotes hb]
  apply Reads.parse_eq
  rw [hfirst, List.map_cons] at hothers ⊢
  rw [← hfirst] at hothers
  exact (reads_parse _ _).append rfl hclosed hothers

end Tag

/-! ## Comments one over the other -/

namespace Keyed

variable {α : Type}

/-- The names are those of one list and behind them the new ones of another. -/
def NamesJoin (xs ys zs : Keyed α) : Prop :=
  zs.names = xs.names ++ ys.names.filter fun name => !xs.has name

lemma NamesJoin.put {xs ys zs : Keyed α} (h : NamesJoin xs ys zs) (name : String) (a b : α) :
    NamesJoin xs (ys.put name a) (zs.put name b) := by
  have hhas : zs.has name = (xs.has name || ys.has name) := by
    rw [has_eq_contains_names, h, has_eq_contains_names xs, has_eq_contains_names ys]
    by_cases hxs : name ∈ xs.names
    · simp [hxs]
    · simp [hxs, has_eq_contains_names]
  unfold NamesJoin at h ⊢
  rw [names_put, names_put, hhas, h]
  by_cases hxs : xs.has name = true
  · by_cases hys : ys.has name = true
    · simp [hxs, hys]
    · simp [hxs, hys]
  · by_cases hys : ys.has name = true
    · simp [hxs, hys]
    · simp [hxs, hys]

end Keyed

namespace Comment

/-- A comment laid over another one.  Its tags replace those of the same name where these stand, and
its other tags follow in order.  Its annotations come behind those of the same type, and its other
types follow in order. -/
structure Joins (c d joined : Comment) : Prop where
  description : joined.description = c.description
  tagNames : Keyed.NamesJoin c.tags d.tags joined.tags
  tags : ∀ name, joined.tags.get? name = (d.tags.get? name).or (c.tags.get? name)
  typeNames : Keyed.NamesJoin c.annotations d.annotations joined.annotations
  annotations : ∀ type, (joined.annotations.get? type).getD [] =
    (c.annotations.get? type).getD [] ++ (d.annotations.get? type).getD []

namespace Joins

variable {c d joined : Comment}

lemma empty (c : Comment) : Joins c {} c where
  description := rfl
  tagNames := (List.append_nil _).symm
  tags _ := rfl
  typeNames := (List.append_nil _).symm
  annotations _ := (List.append_nil _).symm

lemma add (h : Joins c d joined) (name : String) (v : Value) :
    Joins c (d.add name v) (joined.add name v) where
  description := h.description
  tagNames := h.tagNames.put name v v
  tags other := by
    by_cases hother : other = name
    · subst hother
      simp [Comment.add, Keyed.get?_put_self]
    · simp only [Comment.add, Keyed.get?_put_of_ne _ hother]
      exact h.tags other
  typeNames := h.typeNames
  annotations := h.annotations

lemma annotate (h : Joins c d joined) (type : TypeId) (v : Value) :
    Joins c (d.annotate type v) (joined.annotate type v) where
  description := h.description
  tagNames := h.tagNames
  tags := h.tags
  typeNames := h.typeNames.put type _ _
  annotations other := by
    by_cases hother : other = type
    · subst hother
      simp [Comment.annotate, Keyed.get?_put_self, h.annotations]
    · simp only [Comment.annotate, Keyed.get?_put_of_ne _ hother]
      exact h.annotations other

end Joins

end Comment

namespace Run

variable {σ α β γ δ : Type}

/-- Two runs fail alike, or both succeed with related results; they leave the same state. -/
def Alike (R : α → β → Prop) (x : Run σ α) (y : Run σ β) : Prop :=
  ∀ s, (∃ e t, x s = (.error e, t) ∧ y s = (.error e, t)) ∨
    ∃ a b t, x s = (.ok a, t) ∧ y s = (.ok b, t) ∧ R a b

namespace Alike

variable {R : α → β → Prop} {S : γ → δ → Prop}

lemma pure {a : α} {b : β} (h : R a b) : Alike R (pure a : Run σ α) (pure b) :=
  fun s => .inr ⟨a, b, s, rfl, rfl, h⟩

lemma throw (e : Error) : Alike R (throw e : Run σ α) (throw e) :=
  fun s => .inl ⟨e, s, rfl, rfl⟩

lemma bind {x : Run σ α} {y : Run σ β} {f : α → Run σ γ} {g : β → Run σ δ} (hxy : Alike R x y)
    (hfg : ∀ a b, R a b → Alike S (f a) (g b)) : Alike S (x >>= f) (y >>= g) := by
  intro s
  rcases hxy s with ⟨e, t, hx, hy⟩ | ⟨a, b, t, hx, hy, hR⟩
  · exact .inl ⟨e, t, bind_error hx f, bind_error hy g⟩
  · rw [bind_ok hx, bind_ok hy]
    exact hfg a b hR t

/-- Two runs that begin with the same one. -/
lemma bind_same (x : Run σ α) {f : α → Run σ γ} {g : α → Run σ δ}
    (hfg : ∀ a, Alike S (f a) (g a)) : Alike S (x >>= f) (x >>= g) := by
  have hx : Alike Eq x x := by
    intro s
    rcases hs : x s with ⟨e | a, t⟩
    · exact .inl ⟨e, t, rfl, rfl⟩
    · exact .inr ⟨a, a, t, rfl, rfl, rfl⟩
  refine hx.bind ?_
  rintro a _ rfl
  exact hfg a

end Alike

end Run

namespace Setting

open Run (Alike)

variable (x : Setting)

lemma alike_tag {c d joined : Comment} (h : Comment.Joins c d joined) (t : Tag) :
    Alike (Comment.Joins c) (x.tag d t) (x.tag joined t) := by
  cases t with
  | plain name text => exact .pure (h.add name _)
  | list name es after =>
    refine .bind_same _ fun v => ?_
    cases after with
    | some t => exact .throw _
    | none => exact .pure (h.add name _)
  | typed name args =>
    exact .bind_same _ fun args => .bind_same _ fun built => .pure (h.annotate built.1 built.2)

/-- Tags have the same effect on every comment. -/
lemma alike_tags {c d joined : Comment} (h : Comment.Joins c d joined) (ts : List Tag) :
    Alike (Comment.Joins c) (x.tags d ts) (x.tags joined ts) := by
  induction ts generalizing d joined with
  | nil => exact .pure h
  | cons t ts ih => exact (alike_tag x h t).bind fun _ _ h' => ih h'

/-! ## Scans across the border -/

variable {x} {c c' : Comment} {r r' : Reader}

/-- A list that takes effect is closed. -/
lemma isClosed_of_entries {es : Entries} {acc v : TagList} {r r' : Reader}
    (h : x.entries es acc r = (.ok v, r')) : es.IsClosed := by
  match es with
  | .closed => exact .closed
  | .entry key i rest =>
    rw [entries] at h
    obtain ⟨value, r₁, -, hrest⟩ := Run.bind_eq_ok h
    exact .entry (isClosed_of_entries hrest)
  | .broken none e => cases h
  | .broken (some i) e =>
    rw [entries] at h
    obtain ⟨value, r₁, -, hthrow⟩ := Run.bind_eq_ok h
    cases hthrow

lemma isClosed_of_tag {t : Tag} (h : x.tag c t r = (.ok c', r')) : t.IsClosed := by
  cases t with
  | plain name text => trivial
  | list name es after =>
    obtain ⟨v, r₁, hes, -⟩ := Run.bind_eq_ok h
    exact isClosed_of_entries hes
  | typed name args =>
    obtain ⟨v, r₁, hargs, -⟩ := Run.bind_eq_ok h
    exact isClosed_of_entries hargs

lemma isClosed_of_tags {ts : List Tag} (h : x.tags c ts r = (.ok c', r')) :
    ∀ t ∈ ts, t.IsClosed := by
  induction ts generalizing c r with
  | nil => exact nofun
  | cons t ts ih =>
    obtain ⟨c₁, r₁, htag, htags⟩ := Run.bind_eq_ok h
    rw [List.forall_mem_cons]
    exact ⟨isClosed_of_tag htag, ih htags⟩

lemma tags_append {ts : List Tag} (h : x.tags c ts r = (.ok c', r')) (others : List Tag) :
    x.tags c (ts ++ others) r = x.tags c' others r' := by
  induction ts generalizing c r with
  | nil =>
    cases h
    rfl
  | cons t ts ih =>
    obtain ⟨c₁, r₁, htag, htags⟩ := Run.bind_eq_ok h
    rw [List.cons_append, tags, Run.bind_ok htag, ih htags]

/-- Scanning a section `a` and behind it a section `b` that begins with a tag is scanning `a` and
then `b` into the comment of `a`, if `a` can be scanned and no word in it holds a quote.  Whether
`a` ends with its line makes no difference.

The tags of `b` stand further down then.  This changes nothing but the position of the token in an
error at a token of `b`, which is the length of `a` further down; all other outcomes are the same
wherever `b` stands.  And `b` fails on the comment of `a` as it fails on an empty one, or else what
is left is the comment of `b` laid over the one of `a`. -/
theorem scan_append (x : Setting) (a b : List Char) (c ca : Comment) (r ra : Reader)
    (hquotes : ∀ t ∈ Token.pieces a, t.kind = .word → ∀ q ∈ t.text.toList, q ≠ '\'' ∧ q ≠ '"')
    (hb : b.head? = some '@') (ha : x.scan c a r = (.ok ca, ra)) :
    x.scan c (a ++ b) r = x.tags ca ((Tag.ofSection b).map (Tag.moved a.length)) ra ∧
    ((∀ n, x.tags ca ((Tag.ofSection b).map (Tag.moved n)) ra = x.scan ca b ra) ∨
      ∃ fault t rb, x.scan ca b ra = (.error (.malformed fault (some t)), rb) ∧
        ∀ n, x.tags ca ((Tag.ofSection b).map (Tag.moved n)) ra =
          (.error (.malformed fault (some { t with position := n + t.position })), rb)) ∧
    ((∃ e rb, x.scan {} b ra = (.error e, rb) ∧ x.scan ca b ra = (.error e, rb)) ∨
      ∃ cb joined rb, x.scan {} b ra = (.ok cb, rb) ∧ x.scan ca b ra = (.ok joined, rb) ∧
        Comment.Joins ca cb joined) := by
  have hwords : ∀ t ∈ Token.pieces a, t.kind = .word →
      ∀ q ∈ t.text.toList, Lexeme.isQuote q = false := by
    intro t ht hword q hq
    have hne := hquotes t ht hword q hq
    simp [Lexeme.isQuote, hne.1, hne.2]
  have htags := Tag.ofSection_append hwords hb (isClosed_of_tags ha)
  refine ⟨?_, moves_tags x ca (Tag.ofSection b) ra, ?_⟩
  · rw [scan, htags]
    exact tags_append ha _
  · exact alike_tags x (Comment.Joins.empty ca) (Tag.ofSection b) ra

/-- The list of the second section is not closed, and the error is at the end of the whole text.  In
the first section a string goes over two lines and an `@` stands alone before the border. -/
theorem scan_append_broken_list :
    let w : World := { modules := [], classes := [] }
    let r := Reader.start [] true
    let x : Setting := ⟨w, [], .onClass, none, Reader.resolveWithin w (Reader.depth w r) false⟩
    let a := "@v 'x\ny' @\n".toList
    let b := "@w \x7b".toList
    let ca : Comment := { tags := [("v", .str "'x\ny'")] }
    (∀ t ∈ Token.pieces a, t.kind = .word → ∀ q ∈ t.text.toList, q ≠ '\'' ∧ q ≠ '"') ∧
    x.scan {} a r = (.ok ca, r) ∧
    x.scan ca b r = (.error (.malformed .endOfText (some ⟨.eof, "", 4⟩)), r) ∧
    x.scan {} (a ++ b) r = (.error (.malformed .endOfText (some ⟨.eof, "", 15⟩)), r) := by
  intro w r x a b ca
  let value : List Token := [⟨.whitespace, " ", 2⟩, ⟨.string, "'x\ny'", 3⟩, ⟨.whitespace, " ", 8⟩]
  let after : List Token := [⟨.atSign, "@", 9⟩, ⟨.whitespace, "\n", 10⟩]
  have hpieces : Token.pieces a =
      ⟨.atSign, "@", 0⟩ :: ⟨.word, "v", 1⟩ :: (value ++ after) := by
    decide +kernel
  have hquotes : ∀ t ∈ Token.pieces a, t.kind = .word →
      ∀ q ∈ t.text.toList, q ≠ '\'' ∧ q ≠ '"' := by
    have hall : ((Token.pieces a).all fun t => t.kind != .word ||
        t.text.toList.all fun q => q != '\'' && q != '"') = true := by
      decide +kernel
    intro t ht hword q hq
    have hword' := List.all_eq_true.1 hall t ht
    simp only [hword, bne_self_eq_false, Bool.false_or, List.all_eq_true, Bool.and_eq_true,
      bne_iff_ne] at hword'
    exact hword' q hq
  have htags : Tag.ofSection a = [.plain "v" "'x\ny'"] := by
    have htext : Tag.textOf value = "'x\ny'" := by decide +kernel
    have hreads : Tag.Reads (Token.ending a)
        (⟨.atSign, "@", 0⟩ :: ⟨.word, "v", 1⟩ :: (value ++ after))
        [.plain "v" (Tag.textOf value)] :=
      .plain rfl rfl (by decide +kernel) (by decide +kernel) (by decide +kernel)
        (.skip (.inr (by decide)) .lone)
    rw [Tag.ofSection, hpieces, hreads.parse_eq, htext]
  have hlist : Tag.ofSection b =
      [.list "w" (.broken none (.malformed .endOfText (some ⟨.eof, "", 4⟩))) none] := by
    have hpieces : Token.pieces b = ⟨.atSign, "@", 0⟩ :: ⟨.word, "w", 1⟩ ::
        ([⟨.whitespace, " ", 2⟩] ++ [⟨.leftBrace, "\x7b", 3⟩]) := by
      decide +kernel
    rw [Tag.ofSection, hpieces]
    exact (Tag.Reads.list rfl rfl (by decide +kernel) (by decide +kernel) rfl .ended .nil).parse_eq
  have ha : x.scan {} a r = (.ok ca, r) := by
    rw [scan, htags]
    rfl
  have hb : x.scan ca b r = (.error (.malformed .endOfText (some ⟨.eof, "", 4⟩)), r) := by
    rw [scan, hlist]
    rfl
  obtain ⟨hscan, -⟩ := scan_append x a b {} ca r r hquotes rfl ha
  refine ⟨hquotes, ha, hb, ?_⟩
  rw [hscan, hlist]
  rfl

end Setting
end DocTags
