import DocTags.Proofs.Dedent
import DocTags.Proofs.Lossless
import DocTags.Proofs.Reading
import DocTags.Proofs.Steps

/-!
# Texts without annotations

What a text names is looked up in the program it belongs to: the types of annotations, and the bare
words among their arguments.  Both stand behind a parenthesis, and only there.  So a text in which
no parenthesis is written means the same everywhere, whether it can be read or not: nothing in it is
looked up, and neither the names in scope, nor the placement, nor the reader, nor the program behind
it makes a difference.

A tree of tags shows what is looked up when it is evaluated (`Tag.lookups`), and a tree that shows
nothing is self-contained (`selfContained_tags`).  In a section without parentheses no rule of the
readers leads to a tree that shows something: words of plain lists are values, at any depth
(`Entries.Reads.lookups_eq_nil`), and an `@` in a list has no annotation behind it.

The main result is `parse_selfContained`.
-/

namespace DocTags

/-! ## What is looked up -/

mutual

/-- The names in an item that are looked up: bare words, and the types of annotations. -/
def Item.lookups : Item → List String
  | .value _ => []
  | .word name => [name]
  | .list entries => entries.lookups
  | .nested name arguments => name :: arguments.lookups

/-- The names in a list that are looked up. -/
def Entries.lookups : Entries → List String
  | .closed => []
  | .entry _ item rest => item.lookups ++ rest.lookups
  | .broken none _ => []
  | .broken (some item) _ => item.lookups

end

/-- The names in a tag that are looked up. -/
def Tag.lookups : Tag → List String
  | .plain _ _ => []
  | .list _ entries _ => entries.lookups
  | .typed name arguments => name :: arguments.lookups

/-- The computation has one outcome in all settings and for all readers, and the reader stays as it
is. -/
def SelfContained {α : Type} (act : Setting → Run Reader α) : Prop :=
  ∃ outcome, ∀ x r, act x r = (outcome, r)

namespace SelfContained

variable {α β : Type}

lemma pure (a : α) : SelfContained fun _ => (Pure.pure a : Run Reader α) :=
  ⟨.ok a, fun _ _ => rfl⟩

lemma throw (e : Error) : SelfContained fun _ => (MonadExcept.throw e : Run Reader α) :=
  ⟨.error e, fun _ _ => rfl⟩

lemma bind {act : Setting → Run Reader α} {f : Setting → α → Run Reader β}
    (h : SelfContained act) (hf : ∀ a, SelfContained fun x => f x a) :
    SelfContained fun x => act x >>= f x := by
  obtain ⟨outcome, hact⟩ := h
  cases outcome with
  | error e => exact ⟨.error e, fun x r => Run.bind_error (hact x r) _⟩
  | ok a =>
    obtain ⟨outcome, hrest⟩ := hf a
    exact ⟨outcome, fun x r => (Run.bind_ok (hact x r) _).trans (hrest x r)⟩

end SelfContained

mutual

lemma selfContained_item (i : Item) (h : i.lookups = []) :
    SelfContained fun x => x.item i := by
  cases i with
  | value v =>
    simp only [Setting.item]
    exact .pure v
  | word name => cases h
  | list es =>
    rw [Item.lookups] at h
    simp only [Setting.item]
    exact (selfContained_entries es h []).bind fun _ => .pure _
  | nested name args => cases h

lemma selfContained_entries (es : Entries) (h : es.lookups = []) (acc : TagList) :
    SelfContained fun x => x.entries es acc := by
  cases es with
  | closed =>
    simp only [Setting.entries]
    exact .pure acc
  | entry key i rest =>
    rw [Entries.lookups, List.append_eq_nil_iff] at h
    simp only [Setting.entries]
    exact (selfContained_item i h.1).bind fun v => selfContained_entries rest h.2 _
  | broken before e =>
    cases before with
    | none =>
      simp only [Setting.entries]
      exact .throw e
    | some i =>
      rw [Entries.lookups] at h
      simp only [Setting.entries]
      exact (selfContained_item i h).bind fun _ => .throw e

end

lemma selfContained_tag (c : Comment) {t : Tag} (h : t.lookups = []) :
    SelfContained fun x => x.tag c t := by
  cases t with
  | plain name text =>
    simp only [Setting.tag]
    exact .pure _
  | list name es after =>
    simp only [Setting.tag]
    refine (selfContained_entries es h []).bind fun v => ?_
    cases after with
    | none => exact .pure _
    | some t => exact .throw _
  | typed name args => cases h

/-- Tags that look nothing up have one outcome. -/
lemma selfContained_tags (c : Comment) {ts : List Tag} (h : ∀ t ∈ ts, t.lookups = []) :
    SelfContained fun x => x.tags c ts := by
  induction ts generalizing c with
  | nil =>
    simp only [Setting.tags]
    exact .pure c
  | cons t ts ih =>
    rw [List.forall_mem_cons] at h
    simp only [Setting.tags]
    exact (selfContained_tag c h.1).bind fun c => ih c h.2

/-! ## Lists without annotations -/

/-- The words of plain lists are values. -/
lemma lookups_itemOf_plain {t : Token} {i : Item} (h : itemOf .plain t = .ok i) :
    i.lookups = [] := by
  obtain ⟨v, rfl⟩ | ⟨hg, -⟩ := value_or_word_of_itemOf h
  · rfl
  · cases hg

namespace Entries

/-- The items that an action leads to. -/
def Action.items : Action → List Item
  | .go _ pending => (Pending.effect? pending).toList
  | .list | .annotated => []
  | .file item => [item]
  | .close last => last.toList
  | .fail before _ => before.toList

section Rules

variable {g : Grammar} {closing : TokenKind} {started : Bool} {key : Option String}
  {pending : Option Pending}

/-- An item that comes out of an action took effect before or is what a token denotes. -/
lemma mem_items_of_action {t : Token} {act : Action} {i : Item}
    (hact : action g closing started key pending t = act) (h : i ∈ act.items) :
    Pending.effect? pending = some i ∨ ∃ t, itemOf g t = .ok i := by
  cases acts_of_action hact with
  | blank _ | refused _ _ _ | fail _ _ _ => exact .inl (Option.mem_toList.1 h)
  | key _ _ _ | word _ _ | list _ _ | annotated _ _ | close _ => cases h
  | file _ hpending hitem | last _ hpending hitem =>
    subst hpending
    rw [List.mem_singleton.1 h]
    exact Pending.effect?_or_itemOf hitem

lemma lookups_broken {before : Option Item} (h : ∀ i ∈ before, i.lookups = []) (e : Error) :
    (Entries.broken before e).lookups = [] := by
  cases before with
  | none => rfl
  | some item => exact h item rfl

lemma lookups_lastEntry {last : Option Item} (h : ∀ i ∈ last, i.lookups = [])
    (key : Option String) : (lastEntry key last).lookups = [] := by
  cases last with
  | none => rfl
  | some item =>
    rw [lastEntry, Entries.lookups, h item rfl]
    rfl

/-- Nothing in a plain list without parentheses is looked up. -/
lemma Reads.lookups_eq_nil {eof : Token} {ts rest : List Token} {es : Entries}
    (h : Reads eof g closing started key pending ts es rest) (hg : g = .plain)
    (hparen : ∀ t ∈ ts, t.kind ≠ .leftParen)
    (hpending : ∀ i ∈ Pending.effect? pending, i.lookups = []) : es.lookups = [] := by
  have hitems : ∀ {closing started key pending t act},
      action .plain closing started key pending t = act →
      (∀ i ∈ Pending.effect? pending, i.lookups = []) → ∀ i ∈ act.items, i.lookups = [] := by
    intro closing started key pending t act hact hpending i hi
    rcases mem_items_of_action hact hi with heffect | ⟨u, hu⟩
    · exact hpending i heffect
    · exact lookups_itemOf_plain hu
  induction h with
  | ended => exact lookups_broken hpending _
  | go hact _ ih =>
    subst hg
    refine ih rfl (fun t ht => hparen t (List.mem_cons_of_mem _ ht)) fun i hi => ?_
    exact hitems hact hpending i (Option.mem_toList.2 hi)
  | list _ hinner _ ihinner ih =>
    have htail := fun t ht => hparen t (List.mem_cons_of_mem _ ht)
    refine ih hg (fun t ht => htail t (hinner.suffix.subset ht)) ?_
    rintro i ⟨⟩
    exact ihinner hg htail nofun
  | annotated _ hname _ _ _ _ =>
    -- An annotation in a list has its own parenthesis.
    obtain ⟨word, opening, rfl, -, -, hopening⟩ := exists_of_annotated? hname
    exact absurd hopening (hparen opening (by simp))
  | @unannotated _ _ _ _ _ _ ts _ _ => cases ts <;> rfl
  | file hact _ ih =>
    subst hg
    rw [Entries.lookups, hitems hact hpending _ List.mem_cons_self, List.nil_append]
    exact ih rfl (fun t ht => hparen t (List.mem_cons_of_mem _ ht)) nofun
  | close hact =>
    subst hg
    exact lookups_lastEntry (fun i hi => hitems hact hpending i (Option.mem_toList.2 hi)) _
  | fail hact =>
    subst hg
    exact lookups_broken (fun i hi => hitems hact hpending i (Option.mem_toList.2 hi)) _

end Rules

end Entries

/-- Nothing in a section without parentheses is looked up. -/
lemma Tag.Reads.lookups_eq_nil {eof : Token} {ts : List Token} {tags : List Tag}
    (h : Reads eof ts tags) (hparen : ∀ t ∈ ts, t.kind ≠ .leftParen) :
    ∀ t ∈ tags, t.lookups = [] := by
  induction h with
  | nil | lone => simp
  | skip _ _ ih => exact ih fun t ht => hparen t (List.mem_cons_of_mem _ ht)
  | @typed _ _ opening _ _ _ _ _ _ hopening _ _ _ =>
    exact absurd hopening (hparen opening (by simp))
  | plain _ _ _ _ _ _ ih =>
    refine List.forall_mem_cons.2 ⟨rfl, ih fun t ht => hparen t ?_⟩
    simp [ht]
  | list _ _ _ _ _ hlist _ ih =>
    refine List.forall_mem_cons.2 ⟨hlist.lookups_eq_nil rfl (fun t ht => hparen t ?_) nofun,
      ih fun t ht => hparen t ?_⟩
    · simp [ht]
    · simp [hlist.suffix.subset ht]

/-! ## Where parentheses come from -/

lemma TokenKind.eq_paren_of_ofSymbol? {c : Char} (h : ofSymbol? c = some .leftParen) : c = '(' := by
  unfold ofSymbol? at h
  split at h <;> cases h
  rfl

namespace Lexeme

lemma chars_of_match {afterColon : Bool} {cs rest : List Char} {l : Lexeme}
    (h : match? afterColon cs = some (l, rest)) (hk : l.kind = .leftParen) : l.chars = ['('] := by
  cases found_of_match h with
  | string => cases hk
  | blanks => cases hk
  | colon => cases hk
  | @symbol c kind hkind =>
    rw [show kind = .leftParen from hk] at hkind
    rw [TokenKind.eq_paren_of_ofSymbol? hkind]

lemma chars_of_mem_split (afterColon : Bool) (cs : List Char) :
    ∀ l ∈ split afterColon cs, l.kind = .leftParen → l.chars = ['('] :=
  forall_mem_split chars_of_match (fun _ => nofun) (fun _ _ => nofun) afterColon cs

end Lexeme

lemma Token.paren_mem_of_mem_pieces {text : List Char} {t : Token} (h : t ∈ pieces text)
    (hk : t.kind = .leftParen) : '(' ∈ text := by
  obtain ⟨l, hl, hkind, -⟩ := exists_lexeme_of_mem_locate h
  have hchars := Lexeme.chars_of_mem_split false text l hl (hkind.symm.trans hk)
  rw [← Lexeme.flatMap_split false text]
  exact List.mem_flatMap.2 ⟨l, hl, by simp [hchars]⟩

namespace Text

lemma mem_of_mem_splitAt {sep c : Char} {cs part : List Char} (hpart : part ∈ splitAt sep cs)
    (h : c ∈ part) : c ∈ cs := by
  rw [← joinWith_splitAt sep cs]
  exact mem_joinWith_of_mem hpart h

lemma mem_of_mem_withoutStar {c : Char} {line : List Char} (h : c ∈ withoutStar line) :
    c ∈ line := by
  have hdrop : ∀ d ∈ line.dropWhile isIndent, d ∈ line :=
    fun d hd => (List.dropWhile_suffix _).subset hd
  unfold withoutStar at h
  split at h
  · next hline =>
    rw [hline] at hdrop
    split at h
    · exact hdrop c (by simp [h])
    · exact hdrop c (List.mem_cons_of_mem _ h)
  · cases h
  · exact h

lemma mem_of_mem_withoutClosingFence {c : Char} {text : List Char}
    (h : c ∈ withoutClosingFence text) : c ∈ text := by
  unfold withoutClosingFence at h
  split at h
  · next rest hrest =>
    have hsuffix : rest <:+ text.reverse.dropWhile isBlank :=
      hrest ▸ (List.suffix_cons ..).trans (List.suffix_cons ..)
    rw [List.mem_reverse] at h
    have hmem := ((List.dropWhile_suffix _).trans ((List.dropWhile_suffix _).trans
      (hsuffix.trans (List.dropWhile_suffix _)))).subset h
    exact List.mem_reverse.1 hmem
  · exact h

lemma mem_of_mem_afterOpeningFence? {c : Char} {text rest : List Char}
    (hrest : afterOpeningFence? text = some rest) (h : c ∈ rest) : c ∈ text := by
  unfold afterOpeningFence? at hrest
  split at hrest
  · next tail htail =>
    obtain rfl := Option.some.inj hrest
    have hsuffix : tail <:+ trimStart text :=
      htail ▸ (List.suffix_cons ..).trans (List.suffix_cons ..)
    exact ((List.dropWhile_suffix _).trans (hsuffix.trans (List.dropWhile_suffix _))).subset h
  · cases hrest

section Ink

variable {c : Char} (hc : isBlank c = false)

include hc

lemma mem_of_mem_expandTabs {column : Nat} {cs : List Char} (h : c ∈ expandTabs column cs) :
    c ∈ cs := by
  induction cs generalizing column with
  | nil => exact h
  | cons d cs ih =>
    rw [expandTabs] at h
    split at h
    · rcases List.mem_append.1 h with hspace | h
      · rw [List.eq_of_mem_replicate hspace] at hc
        cases hc
      · exact List.mem_cons_of_mem _ (ih h)
    · split at h
      · exact List.mem_cons.2 ((List.mem_cons.1 h).imp_right ih)
      · exact List.mem_cons.2 ((List.mem_cons.1 h).imp_right ih)

lemma exists_mem_of_mem_joinWith {lines : List (List Char)} (h : c ∈ joinWith '\n' lines) :
    ∃ line ∈ lines, c ∈ line := by
  rcases mem_joinWith h with rfl | hline
  · cases hc
  · exact hline

lemma mem_of_mem_dedent {text : List Char} (h : c ∈ dedent text) : c ∈ text := by
  obtain ⟨first, rest, hlines⟩ := exists_splitAt_eq_cons '\n' (expandTabs 0 text)
  rw [dedent_eq hlines] at h
  obtain ⟨line, hline, hmem⟩ := exists_mem_of_mem_joinWith hc h
  obtain ⟨l, hl, hmem⟩ := mem_of_mem_cutLines hline hmem
  rw [← hlines] at hl
  exact mem_of_mem_expandTabs hc (mem_of_mem_splitAt hl hmem)

/-- What is not blank in the bare lines of a block was written in the block. -/
lemma mem_of_mem_bare {block : List Char} (h : c ∈ bare block) : c ∈ block := by
  unfold bare at h
  split at h
  · exact mem_of_mem_dedent hc h
  · next text hfence =>
    obtain ⟨line, hline, hmem⟩ := exists_mem_of_mem_joinWith hc (mem_of_mem_dedent hc h)
    obtain ⟨l, hl, rfl⟩ := List.mem_map.1 hline
    have htext := mem_of_mem_splitAt hl (mem_of_mem_withoutStar hmem)
    exact mem_of_mem_afterOpeningFence? hfence (mem_of_mem_withoutClosingFence htext)

lemma mem_of_mem_section {text tags : List Char} (htags : (splitSection text).2 = some tags)
    (h : c ∈ tags) : c ∈ text := by
  unfold splitSection at htags
  dsimp only at htags
  split at htags
  · cases htags
  · obtain rfl := Option.some.inj htags
    obtain ⟨line, hline, hmem⟩ := exists_mem_of_mem_joinWith hc h
    exact mem_of_mem_splitAt ((List.dropWhile_suffix _).subset hline) hmem

end Ink

end Text

/-! ## The main result -/

/-- Nothing is looked up in a block without parentheses. -/
lemma lookups_eq_nil_of_no_paren {block : List Char} (h : '(' ∉ block) {tags : List Char}
    (htags : (Text.splitSection (Text.bare block)).2 = some tags) :
    ∀ t ∈ Tag.ofSection tags, t.lookups = [] := by
  refine (Tag.reads_parse _ _).lookups_eq_nil fun t ht hk => h ?_
  have hmem := Text.mem_of_mem_section (by decide) htags (Token.paren_mem_of_mem_pieces ht hk)
  exact Text.mem_of_mem_bare (by decide) hmem

lemma selfContained_read {block : List Char} (h : '(' ∉ block) :
    SelfContained fun x => x.read block := by
  unfold Setting.read
  split
  · exact .pure _
  · next before tags hsplit =>
    exact selfContained_tags _ (lookups_eq_nil_of_no_paren h (congrArg Prod.snd hsplit))

/-- A text without parentheses has one outcome, a comment or an error, whatever program it is read
for, with whatever names in scope, in whatever place and by whatever reader, and the reader is left
as it was.  Nothing in its tags is looked up, and so no word of its lists. -/
theorem parse_selfContained {text : String} (h : '(' ∉ text.toList) :
    (∀ tags, (Text.splitSection (Text.bare text.toList)).2 = some tags →
      ∀ t ∈ Tag.ofSection tags, t.lookups = []) ∧
    ∃ outcome, ∀ (w : World) (placement : Placement) (scope : Scope) (r : Reader),
      Reader.parse w text placement scope r = (outcome, r) := by
  refine ⟨fun tags htags => lookups_eq_nil_of_no_paren h htags, ?_⟩
  obtain ⟨outcome, hread⟩ := selfContained_read h
  exact ⟨outcome, fun w placement scope r => hread _ r⟩

/-- The words of a list are not looked up, not even where classes have their names. -/
theorem parse_selfContained_classNames :
    let text := "Text.\n@uses {A, more: {B, 1}}"
    let classes : World :=
      { modules := []
        classes := [("A", { id := "A", home := "" }), ("B", { id := "B", home := "" })] }
    '(' ∉ text.toList ∧
      (Tag.ofSection "@uses {A, more: {B, 1}}".toList).flatMap Tag.lookups = [] ∧
      Reader.parse classes text .onClass [("A", .cls "A")] (.start [] true) =
        ((Reader.parse ⟨[], []⟩ text .onMethod [] (.start [("B", "A")] false)).1,
          .start [] true) := by
  have htext : '(' ∉ "Text.\n@uses {A, more: {B, 1}}".toList := by decide
  obtain ⟨htags, outcome, hparse⟩ := parse_selfContained htext
  refine ⟨htext, List.flatMap_eq_nil_iff.2 (htags _ (by decide +kernel)), ?_⟩
  rw [hparse, hparse]

end DocTags
