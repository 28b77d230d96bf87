import DocTags.Proofs.LineFeeds
import DocTags.Proofs.OneLine.Texts

/-!
# Names in tags

The names of tags and annotations, the words in lists and the keys there are made of tokens that
hold no blanks: each of the first three is a word, and a key is a text of letters
(`Tag.isUnbroken_of_mem_ofSection`).  Blanks stand between such tokens and in strings, and what a
string denotes is a text, which is shown between quotes.
-/

namespace DocTags

open Text

namespace Text

/-- `true` on texts without blanks. -/
def isUnbroken (s : String) : Bool :=
  s.toList.all fun c => !isBlank c

lemma isUnbroken_iff {s : String} : isUnbroken s = true ↔ ∀ c ∈ s.toList, isBlank c = false := by
  simp [isUnbroken]

lemma isLine_of_isUnbroken {s : String} (h : isUnbroken s = true) : isLine s = true :=
  isLine_iff.2 fun hmem => absurd (isUnbroken_iff.1 h _ hmem) (by decide)

lemma isUnbroken_of_isAlphabetic {s : String} (h : isAlphabetic s.toList = true) :
    isUnbroken s = true := by
  rw [isAlphabetic, Bool.and_eq_true, List.all_eq_true] at h
  exact isUnbroken_iff.2 fun c hc => isBlank_eq_false_of_isLetter (h.2 c hc)

end Text

/-! ## Tags without blanks in their names -/

mutual

/-- `true` when the names and keys in an item hold no blanks, and its values are on one line. -/
def Item.isUnbroken : Item → Bool
  | .value v => v.isOneLine
  | .word name => Text.isUnbroken name
  | .list entries => entries.isUnbroken
  | .nested name arguments => Text.isUnbroken name && arguments.isUnbroken

/-- `Item.isUnbroken` of all items and keys, also of an item that takes effect before an error. -/
def Entries.isUnbroken : Entries → Bool
  | .closed => true
  | .entry key item rest => key.all Text.isUnbroken && item.isUnbroken && rest.isUnbroken
  | .broken none _ => true
  | .broken (some item) _ => item.isUnbroken

end

/-- `true` when the names and keys in a tag hold no blanks. -/
def Tag.isUnbroken : Tag → Bool
  | .plain name _ => Text.isUnbroken name
  | .list name entries _ => Text.isUnbroken name && entries.isUnbroken
  | .typed name arguments => Text.isUnbroken name && arguments.isUnbroken

/-! ## What tokens give -/

lemma Token.Shape.isUnbroken {t : Token} (h : t.Shape) (hk : t.kind = .word) :
    Text.isUnbroken t.text = true := by
  obtain ⟨kind, text, position⟩ := t
  dsimp only at hk ⊢
  rw [isUnbroken_iff]
  generalize hcs : text.toList = cs
  rw [Shape, hcs, hk] at h
  cases h with
  | word hcs => exact hcs
  | symbol hword => exact absurd rfl hword

/-- A literal is a text, a number, a truth value or a null. -/
lemma isOneLine_of_literal? {t : Token} {v : Value} (h : literal? t = .ok (some v)) :
    v.isOneLine = true := by
  unfold literal? at h
  dsimp only at h
  split at h
  · cases h
    rfl
  split at h
  · cases h
  split at h
  · cases h
    rfl
  split at h
  · cases h
    rfl
  split at h
  · cases h
    rfl
  split at h
  · split at h <;> cases h
    rfl
  · split at h <;> cases h
    rfl

/-- What a string denotes is a value, whatever stands in it. -/
lemma Item.isUnbroken_of_itemOf {g : Grammar} {t : Token} {item : Item}
    (ht : t.kind = .string ∨ Text.isUnbroken t.text = true) (h : itemOf g t = .ok item) :
    item.isUnbroken = true := by
  unfold itemOf at h
  obtain ⟨literal, hliteral, h⟩ := ok_of_bind h
  cases literal with
  | some v =>
    cases h
    exact isOneLine_of_literal? hliteral
  | none =>
    cases g with
    | argument =>
      cases h
      refine ht.resolve_left fun hstring => ?_
      rw [literal?, hstring] at hliteral
      cases hliteral
    | plain =>
      dsimp only at h
      split at h
      · cases h
        rfl
      · cases h

namespace Pending

/-- What is pending is a string, a word without blanks or an item with such names. -/
def IsUnbroken : Pending → Prop
  | .token t => t.kind = .string ∨ Text.isUnbroken t.text = true
  | .nested item _ => item.isUnbroken = true

variable {pending : Option Pending}

lemma IsUnbroken.effect? (h : ∀ p ∈ pending, IsUnbroken p) :
    ∀ item ∈ effect? pending, item.isUnbroken = true := by
  match pending with
  | none | some (.token _) => exact nofun
  | some (.nested item t) =>
    rintro _ ⟨⟩
    exact h _ rfl

lemma IsUnbroken.item {p : Pending} (hp : IsUnbroken p) {g : Grammar} {closing : TokenKind}
    {started : Bool} {key : Option String} {i : Item} (h : p.item g closing started key = .ok i) :
    i.isUnbroken = true := by
  unfold Pending.item at h
  split at h
  · cases h
  · cases p with
    | token t => exact Item.isUnbroken_of_itemOf hp h
    | nested item t =>
      cases h
      exact hp

end Pending

namespace Entries

variable {eof : Token} {g : Grammar} {closing : TokenKind} {started : Bool} {key : Option String}
  {pending : Option Pending} {ts : List Token}

lemma isUnbroken_broken {before : Option Item} (h : ∀ item ∈ before, item.isUnbroken = true)
    (e : Error) : (Entries.broken before e).isUnbroken = true := by
  cases before with
  | none => rw [isUnbroken]
  | some item =>
    rw [isUnbroken]
    exact h item rfl

lemma isUnbroken_entry {item : Item} {es : Entries} (hkey : ∀ k ∈ key, Text.isUnbroken k = true)
    (hitem : item.isUnbroken = true) (hes : es.isUnbroken = true) :
    (Entries.entry key item es).isUnbroken = true := by
  rw [isUnbroken, hitem, hes, Bool.and_true, Bool.and_true]
  cases key with
  | none => rfl
  | some k => exact hkey k rfl

/-- The names and keys in what an action leads to hold no blanks. -/
def Action.IsUnbroken : Action → Prop
  | .go key pending => (∀ k ∈ key, Text.isUnbroken k = true) ∧ ∀ p ∈ pending, p.IsUnbroken
  | .list | .annotated => True
  | .file item => item.isUnbroken = true
  | .close last => ∀ item ∈ last, item.isUnbroken = true
  | .fail before _ => ∀ item ∈ before, item.isUnbroken = true

lemma isUnbroken_of_action (hkey : ∀ k ∈ key, Text.isUnbroken k = true)
    (hpending : ∀ p ∈ pending, p.IsUnbroken) {t : Token} (ht : t.Shape) {act : Action}
    (h : action g closing started key pending t = act) : act.IsUnbroken := by
  cases acts_of_action h with
  | blank _ => exact ⟨hkey, hpending⟩
  | key _ _ _ halpha =>
    refine ⟨?_, nofun⟩
    rintro _ ⟨⟩
    exact isUnbroken_of_isAlphabetic halpha
  | word hkind _ =>
    refine ⟨hkey, ?_⟩
    rintro _ ⟨⟩
    exact hkind.symm.imp_right ht.isUnbroken
  | list _ _ | annotated _ _ => trivial
  | file _ hp hitem => exact (hpending _ hp).item hitem
  | last _ hp hitem =>
    rintro _ ⟨⟩
    exact (hpending _ hp).item hitem
  | close _ => exact nofun
  | refused _ _ _ => exact Pending.IsUnbroken.effect? hpending
  | fail _ _ _ => exact Pending.IsUnbroken.effect? hpending

/-- A list that is read has no blanks in its names and keys. -/
lemma Reads.isUnbroken {rest : List Token} {es : Entries}
    (h : Reads eof g closing started key pending ts es rest) (hts : ∀ t ∈ ts, t.Shape)
    (hkey : ∀ k ∈ key, Text.isUnbroken k = true) (hpending : ∀ p ∈ pending, p.IsUnbroken) :
    es.isUnbroken = true := by
  induction h with
  | ended => exact isUnbroken_broken (Pending.IsUnbroken.effect? hpending) _
  | go h _ ih =>
    obtain ⟨ht, hts⟩ := List.forall_mem_cons.1 hts
    obtain ⟨hkey', hpending'⟩ := isUnbroken_of_action hkey hpending ht h
    exact ih hts hkey' hpending'
  | list h hinner _ ihinner ih =>
    obtain ⟨-, hts⟩ := List.forall_mem_cons.1 hts
    refine ih (fun t ht => hts t (hinner.suffix.subset ht)) hkey ?_
    rintro _ ⟨⟩
    exact ihinner hts nofun nofun
  | annotated h hname hinner _ ihinner ih =>
    obtain ⟨-, hts⟩ := List.forall_mem_cons.1 hts
    obtain ⟨word, opening, rfl, hword, rfl, -⟩ := exists_of_annotated? hname
    obtain ⟨hshape, hbehind⟩ := List.forall_mem_cons.1 hts
    have hus := (List.forall_mem_cons.1 hbehind).2
    refine ih (fun t ht => hus t (hinner.suffix.subset ht)) hkey ?_
    rintro _ ⟨⟩
    rw [Pending.IsUnbroken, Item.isUnbroken, hshape.isUnbroken hword, ihinner hus nofun nofun]
    rfl
  | @unannotated _ _ _ _ _ _ ts _ _ =>
    cases ts with
    | nil | cons => exact isUnbroken_broken (Pending.IsUnbroken.effect? (by simp)) _
  | file h _ ih =>
    obtain ⟨ht, hts⟩ := List.forall_mem_cons.1 hts
    exact isUnbroken_entry hkey (isUnbroken_of_action hkey hpending ht h) (ih hts nofun nofun)
  | @close _ _ _ _ _ last _ _ h =>
    have hlast := isUnbroken_of_action hkey hpending (hts _ List.mem_cons_self) h
    cases last with
    | none => rw [lastEntry, Entries.isUnbroken]
    | some item => exact isUnbroken_entry hkey (hlast item rfl) (by rw [Entries.isUnbroken])
  | fail h =>
    exact isUnbroken_broken (isUnbroken_of_action hkey hpending (hts _ List.mem_cons_self) h) _

end Entries

namespace Tag

/-- Tags that are read have no blanks in their names and keys. -/
lemma Reads.isUnbroken {eof : Token} {ts : List Token} {tags : List Tag} (h : Reads eof ts tags)
    (hts : ∀ t ∈ ts, t.Shape) : ∀ tag ∈ tags, tag.isUnbroken = true := by
  induction h with
  | nil | lone => exact List.forall_mem_nil _
  | skip _ _ ih => exact ih (List.forall_mem_cons.1 hts).2
  | typed _ hname _ hargs _ ih =>
    obtain ⟨hword, hbehind⟩ := List.forall_mem_cons.1 (List.forall_mem_cons.1 hts).2
    have hargument := (List.forall_mem_cons.1 hbehind).2
    refine List.forall_mem_cons.2 ⟨?_, ih fun t ht => hargument t (hargs.suffix.subset ht)⟩
    rw [Tag.isUnbroken, hword.isUnbroken hname, hargs.isUnbroken hargument nofun nofun]
    rfl
  | plain _ hname _ _ _ _ ih =>
    obtain ⟨hword, hbehind⟩ := List.forall_mem_cons.1 (List.forall_mem_cons.1 hts).2
    exact List.forall_mem_cons.2 ⟨hword.isUnbroken hname, ih (List.forall_mem_append.1 hbehind).2⟩
  | list _ hname _ _ _ hlist _ ih =>
    obtain ⟨hword, hbehind⟩ := List.forall_mem_cons.1 (List.forall_mem_cons.1 hts).2
    have hentries := (List.forall_mem_cons.1 (List.forall_mem_append.1 hbehind).2).2
    refine List.forall_mem_cons.2 ⟨?_, ih fun t ht => hentries t (hlist.suffix.subset ht)⟩
    rw [Tag.isUnbroken, hword.isUnbroken hname, hlist.isUnbroken hentries nofun nofun]
    rfl

lemma isUnbroken_of_mem_ofSection {text : List Char} :
    ∀ tag ∈ ofSection text, tag.isUnbroken = true :=
  (reads_parse _ _).isUnbroken fun _ ht => Token.shape_of_mem_locate ht

end Tag
end DocTags
