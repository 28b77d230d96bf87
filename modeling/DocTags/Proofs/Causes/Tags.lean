import DocTags.Proofs.Causes.Values
import DocTags.Proofs.Steps

/-!
# The errors in tags

A tree of tags records errors at the places where they were found, and `errors` lists them.  All of
them are about the tokens that were read: one of them stands where it must not, an integer among
them is too long, or there are no more of them.  `FoundIn` says so, and `found_ofSection` shows it
of the tags of a section.
-/

namespace DocTags

mutual

/-- The errors in an item. -/
def Item.errors : Item → List Error
  | .value _ | .word _ => []
  | .list entries => entries.errors
  | .nested _ arguments => arguments.errors

/-- The errors in a list. -/
def Entries.errors : Entries → List Error
  | .closed => []
  | .entry _ item rest => item.errors ++ rest.errors
  | .broken none e => [e]
  | .broken (some item) e => item.errors ++ [e]

end

/-- The errors in a tag. -/
def Tag.errors : Tag → List Error
  | .plain _ _ => []
  | .list _ entries after =>
    entries.errors ++ after.toList.map fun t => .malformed .dataAfterList (some t)
  | .typed _ arguments => arguments.errors

/-- The errors that are found when some tokens are read, which end before the token `eof`. -/
inductive FoundIn (eof : Token) (ts : List Token) : Error → Prop
  | token {fault : Malformation} (hfault : fault ≠ .endOfText) {t : Token} (h : t ∈ ts) :
      FoundIn eof ts (.malformed fault (some t))
  | endOfText : FoundIn eof ts (.malformed .endOfText (some eof))
  | nameExpected : FoundIn eof ts (.malformed .nameExpected (some eof))
  | tooManyDigits (count : Nat) : FoundIn eof ts (.illegible (.tooManyDigits count))

lemma FoundIn.isOfReader_eq_false {eof : Token} {ts : List Token} {e : Error}
    (h : FoundIn eof ts e) : e.isOfReader = false := by
  cases h <;> rfl

section Words

variable {eof : Token} {ts : List Token} {g : Grammar} {t : Token} {e : Error}

lemma found_itemOf (ht : t ∈ ts) (h : itemOf g t = .error e) : FoundIn eof ts e := by
  obtain ⟨fault, rfl, hend, -⟩ | ⟨n, rfl⟩ := error_of_itemOf h
  · exact .token hend ht
  · exact .tooManyDigits n

/-- The item that a word or a string is has no errors in it. -/
lemma errors_itemOf {item : Item} (h : itemOf g t = .ok item) : item.errors = [] := by
  obtain ⟨v, rfl⟩ | ⟨-, name, rfl⟩ := value_or_word_of_itemOf h <;> rfl

end Words

namespace Pending

/-- What is pending was read from some tokens. -/
inductive IsFrom (eof : Token) (ts : List Token) : Pending → Prop
  | token {t : Token} (ht : t ∈ ts) : IsFrom eof ts (.token t)
  | nested {item : Item} {t : Token} (ht : t ∈ ts) (h : ∀ e ∈ item.errors, FoundIn eof ts e) :
      IsFrom eof ts (.nested item t)

variable {eof : Token} {ts : List Token} {g : Grammar} {closing : TokenKind} {started : Bool}
  {key : Option String} {p : Pending}

lemma IsFrom.start_mem (h : IsFrom eof ts p) : p.start ∈ ts := by
  cases h with
  | token ht => exact ht
  | nested ht _ => exact ht

lemma IsFrom.effect? {pending : Option Pending} (h : ∀ p ∈ pending, IsFrom eof ts p) :
    ∀ item ∈ effect? pending, ∀ e ∈ item.errors, FoundIn eof ts e := by
  match pending with
  | none | some (.token _) => exact nofun
  | some (.nested item t) =>
    rintro _ ⟨⟩
    cases h _ rfl with
    | nested _ h => exact h

lemma IsFrom.found_error (hp : IsFrom eof ts p) {e : Error}
    (h : p.item g closing started key = .error e) : FoundIn eof ts e := by
  unfold item at h
  split at h
  · cases h
    exact .token (by decide) hp.start_mem
  · cases hp with
    | token ht => exact found_itemOf ht h
    | nested _ _ => cases h

lemma IsFrom.found_item (hp : IsFrom eof ts p) {i : Item}
    (h : p.item g closing started key = .ok i) : ∀ e ∈ i.errors, FoundIn eof ts e := by
  unfold item at h
  split at h
  · cases h
  · cases hp with
    | token _ =>
      rw [errors_itemOf h]
      exact List.forall_mem_nil _
    | nested _ hitem =>
      cases h
      exact hitem

end Pending

namespace Entries

variable {eof : Token} {ts : List Token} {g : Grammar} {closing : TokenKind} {started : Bool}
  {key : Option String} {pending : Option Pending}

/-- The errors in what an action leads to were found in some tokens. -/
def Action.IsFrom (eof : Token) (ts : List Token) : Action → Prop
  | .go _ pending => ∀ p ∈ pending, p.IsFrom eof ts
  | .list | .annotated => True
  | .file item => ∀ e ∈ item.errors, FoundIn eof ts e
  | .close last => ∀ item ∈ last, ∀ e ∈ item.errors, FoundIn eof ts e
  | .fail before e => (∀ item ∈ before, ∀ e ∈ item.errors, FoundIn eof ts e) ∧ FoundIn eof ts e

lemma found_broken {before : Option Item} {fault : Error}
    (hbefore : ∀ item ∈ before, ∀ e ∈ item.errors, FoundIn eof ts e)
    (hfault : FoundIn eof ts fault) :
    ∀ e ∈ (Entries.broken before fault).errors, FoundIn eof ts e := by
  cases before with
  | none =>
    rw [errors, List.forall_mem_singleton]
    exact hfault
  | some item =>
    rw [errors, List.forall_mem_append, List.forall_mem_singleton]
    exact ⟨hbefore item rfl, hfault⟩

lemma found_lastEntry {last : Option Item}
    (h : ∀ item ∈ last, ∀ e ∈ item.errors, FoundIn eof ts e) (key : Option String) :
    ∀ e ∈ (lastEntry key last).errors, FoundIn eof ts e := by
  cases last with
  | none => exact List.forall_mem_nil _
  | some item =>
    rw [lastEntry, errors, errors, List.append_nil]
    exact h item rfl

/-- A token leads to no errors but such as are found in the tokens. -/
lemma isFrom_of_action (h : ∀ p ∈ pending, p.IsFrom eof ts) {t : Token} (ht : t ∈ ts)
    {act : Action} (hact : action g closing started key pending t = act) : act.IsFrom eof ts := by
  cases acts_of_action hact with
  | blank _ => exact h
  | key _ _ _ => exact fun _ hnone => nomatch hnone
  | word _ _ =>
    rintro _ ⟨⟩
    exact .token ht
  | list _ _ | annotated _ _ => trivial
  | file _ hpending hitem => exact (h _ hpending).found_item hitem
  | last _ hpending hitem =>
    rintro _ ⟨⟩
    exact (h _ hpending).found_item hitem
  | close _ => exact fun _ hnone => nomatch hnone
  | refused _ hpending hitem =>
    exact ⟨Pending.IsFrom.effect? h, (h _ hpending).found_error hitem⟩
  | fail hend _ hblamed =>
    refine ⟨Pending.IsFrom.effect? h, .token hend ?_⟩
    rcases hblamed with rfl | ⟨p, hp, rfl⟩
    · exact ht
    · exact (h p hp).start_mem

lemma found_unannotated {us : List Token} (hts : ∀ t ∈ ts, t ∈ us) :
    ∀ e ∈ (unannotated eof ts).errors, FoundIn eof us e := by
  cases ts with
  | nil => exact found_broken (Pending.IsFrom.effect? (by simp)) .nameExpected
  | cons name ts =>
    refine found_broken (Pending.IsFrom.effect? (by simp)) (.token ?_ (hts name List.mem_cons_self))
    split <;> simp

/-- All errors in a list were found in the tokens that it was read from. -/
lemma Reads.found {rest us : List Token} {es : Entries}
    (h : Reads eof g closing started key pending ts es rest) (hts : ∀ t ∈ ts, t ∈ us)
    (hpending : ∀ p ∈ pending, p.IsFrom eof us) : ∀ e ∈ es.errors, FoundIn eof us e := by
  induction h with
  | ended => exact found_broken (Pending.IsFrom.effect? hpending) .endOfText
  | go h _ ih =>
    obtain ⟨ht, hts⟩ := List.forall_mem_cons.1 hts
    exact ih hts (isFrom_of_action hpending ht h)
  | list h hinner _ ihinner ih =>
    obtain ⟨ht, hts⟩ := List.forall_mem_cons.1 hts
    refine ih (fun t ht => hts t (hinner.suffix.subset ht)) ?_
    rintro _ ⟨⟩
    exact .nested ht (ihinner hts nofun)
  | annotated h hname hinner _ ihinner ih =>
    obtain ⟨ht, hts⟩ := List.forall_mem_cons.1 hts
    have hus := fun t ht => hts t ((suffix_of_annotated? hname).subset ht)
    refine ih (fun t ht => hus t (hinner.suffix.subset ht)) ?_
    rintro _ ⟨⟩
    exact .nested ht (ihinner hus nofun)
  | unannotated _ _ => exact found_unannotated (List.forall_mem_cons.1 hts).2
  | file h _ ih =>
    obtain ⟨ht, hts⟩ := List.forall_mem_cons.1 hts
    rw [errors, List.forall_mem_append]
    exact ⟨isFrom_of_action hpending ht h, ih hts nofun⟩
  | close h => exact found_lastEntry (isFrom_of_action hpending (hts _ List.mem_cons_self) h) _
  | fail h =>
    obtain ⟨hbefore, he⟩ := isFrom_of_action hpending (hts _ List.mem_cons_self) h
    exact found_broken hbefore he

end Entries

namespace Tag

variable {eof : Token} {ts us : List Token}

lemma mem_of_strayAfter? {t : Token} (h : strayAfter? ts = some t) : t ∈ ts := by
  unfold strayAfter? at h
  split at h
  · cases h
  · next stray _ hdrop =>
    split at h
    · cases h
    · obtain rfl := Option.some.inj h
      exact (List.dropWhile_sublist _).subset (hdrop ▸ List.mem_cons_self)

/-- All errors in the tags of a section were found in its tokens. -/
lemma Reads.found {tags : List Tag} (h : Reads eof ts tags) (hts : ∀ t ∈ ts, t ∈ us) :
    ∀ tag ∈ tags, ∀ e ∈ tag.errors, FoundIn eof us e := by
  induction h with
  | nil | lone => exact List.forall_mem_nil _
  | skip _ _ ih => exact ih (List.forall_mem_cons.1 hts).2
  | typed _ _ _ hargs _ ih =>
    have hbehind := (List.forall_mem_cons.1 (List.forall_mem_cons.1 hts).2).2
    obtain ⟨-, hargument⟩ := List.forall_mem_cons.1 hbehind
    refine List.forall_mem_cons.2 ⟨hargs.found hargument nofun, ?_⟩
    exact ih fun t ht => hargument t (hargs.suffix.subset ht)
  | plain _ _ _ _ _ _ ih =>
    have hbehind := (List.forall_mem_cons.1 (List.forall_mem_cons.1 hts).2).2
    refine List.forall_mem_cons.2 ⟨List.forall_mem_nil _, ?_⟩
    exact ih (List.forall_mem_append.1 hbehind).2
  | @list _ _ _ _ _ rest es _ _ _ _ _ _ hlist _ ih =>
    have hbehind := (List.forall_mem_cons.1 (List.forall_mem_cons.1 hts).2).2
    obtain ⟨-, hentries⟩ := List.forall_mem_cons.1 (List.forall_mem_append.1 hbehind).2
    have hrest : ∀ t ∈ rest, t ∈ us := fun t ht => hentries t (hlist.suffix.subset ht)
    refine List.forall_mem_cons.2 ⟨?_, ih hrest⟩
    rw [errors, List.forall_mem_append]
    refine ⟨hlist.found hentries nofun, List.forall_mem_map.2 fun t ht => ?_⟩
    exact .token (by simp) (hrest t (mem_of_strayAfter? (Option.mem_toList.1 ht)))

lemma found_ofSection (text : List Char) :
    ∀ tag ∈ ofSection text, ∀ e ∈ tag.errors, FoundIn (Token.ending text) (Token.pieces text) e :=
  (reads_parse _ _).found fun _ ht => ht

end Tag
end DocTags
