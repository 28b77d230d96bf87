import DocTags.Proofs.Causes
import DocTags.Proofs.Indexing
import DocTags.Proofs.Steps
import DocTags.Reader.Read

/-!
# Arguments without a name

Of the arguments of an annotation only the first one may have no name.  A list of arguments that is
read from tokens is of this form (`Entries.Reads.allNamed`), and so are the lists of arguments
inside it, whichever lists are between them (`Entries.Reads.exists_read`).  The form of a list
passes on to its value (`Setting.othersNamed_of_entries`): a key that is there keeps its place, and
a new one comes behind the others.  A value of this form can be the arguments of an annotation
(`TagList.OthersNamed.oneUnnamed`).
-/

namespace DocTags

/-! ## The arguments of annotations -/

mutual

/-- The lists of arguments in an item. -/
def Item.argumentLists : Item → List Entries
  | .value _ | .word _ => []
  | .list entries => entries.argumentLists
  | .nested _ arguments => arguments :: arguments.argumentLists

/-- The lists of arguments inside a list, at any depth. -/
def Entries.argumentLists : Entries → List Entries
  | .closed => []
  | .entry _ item rest => item.argumentLists ++ rest.argumentLists
  | .broken none _ => []
  | .broken (some item) _ => item.argumentLists

end

/-- The lists of arguments in a tag. -/
def Tag.argumentLists : Tag → List Entries
  | .plain _ _ => []
  | .list _ entries _ => entries.argumentLists
  | .typed _ arguments => arguments :: arguments.argumentLists

namespace Entries

/-- All values have a key. -/
def AllNamed : Entries → Prop
  | .closed | .broken _ _ => True
  | .entry key _ rest => key.isSome = true ∧ rest.AllNamed

/-- All values behind the first have a key. -/
def OthersNamed : Entries → Prop
  | .closed | .broken _ _ => True
  | .entry _ _ rest => rest.AllNamed

/-! ## Reading lists of arguments -/

section Reading

variable {eof : Token} {g : Grammar} {closing : TokenKind} {started : Bool} {key : Option String}
  {pending : Option Pending} {t : Token} {ts rest : List Token} {es : Entries} {item : Item}

/-- Behind the first one, an argument is filed under a key only. -/
lemma isSome_of_item {p : Pending} (h : p.item g .rightParen true key = .ok item) :
    key.isSome = true := by
  cases key with
  | some key => rfl
  | none => cases h

/-- Arguments have keys, but for the first one. -/
lemma Reads.allNamed (h : Reads eof g closing started key pending ts es rest)
    (hclosing : closing = .rightParen) : es.OthersNamed ∧ (started = true → es.AllNamed) := by
  induction h with
  | ended => exact ⟨trivial, fun _ => trivial⟩
  | go _ _ ih | list _ _ _ _ ih | annotated _ _ _ _ _ ih => exact ih hclosing
  | @unannotated _ _ _ _ _ _ ts _ _ => cases ts <;> exact ⟨trivial, fun _ => trivial⟩
  | file h _ ih =>
    subst hclosing
    refine ⟨(ih rfl).2 rfl, fun hstarted => ⟨?_, (ih rfl).2 rfl⟩⟩
    subst hstarted
    cases acts_of_action h with
    | file _ _ hitem => exact isSome_of_item hitem
  | close h =>
    subst hclosing
    cases acts_of_action h with
    | last _ _ hitem =>
      refine ⟨trivial, fun hstarted => ⟨?_, trivial⟩⟩
      subst hstarted
      exact isSome_of_item hitem
    | close _ => exact ⟨trivial, fun _ => trivial⟩
  | fail _ => exact ⟨trivial, fun _ => trivial⟩

/-- A list of arguments was read from some of the tokens. -/
def IsRead (eof : Token) (us : List Token) (args : Entries) : Prop :=
  ∃ vs, vs <:+ us ∧ (read eof .argument .rightParen vs).1 = args

/-- The lists of arguments in an item that may take effect were read from some of the tokens. -/
def AllRead (eof : Token) (us : List Token) (item : Option Item) : Prop :=
  ∀ i ∈ item, ∀ args ∈ i.argumentLists, IsRead eof us args

lemma AllRead.of_item {us : List Token} {p : Pending}
    (hpending : AllRead eof us (Pending.effect? p))
    (h : p.item g closing started key = .ok item) : AllRead eof us (some item) := by
  rintro _ ⟨⟩
  rcases Pending.effect?_or_itemOf h with heffect | ⟨t, ht⟩
  · exact hpending _ heffect
  · obtain ⟨v, rfl⟩ | ⟨-, name, rfl⟩ := value_or_word_of_itemOf ht <;>
      exact List.forall_mem_nil _

lemma AllRead.broken {us : List Token} {before : Option Item} (h : AllRead eof us before)
    (e : Error) : ∀ args ∈ (Entries.broken before e).argumentLists, IsRead eof us args := by
  cases before with
  | none => exact List.forall_mem_nil _
  | some item => exact h item rfl

/-- The lists of arguments inside a list were read from some of its tokens. -/
lemma Reads.exists_read {us : List Token}
    (h : Reads eof g closing started key pending ts es rest) (hts : ts <:+ us)
    (hpending : AllRead eof us (Pending.effect? pending)) :
    ∀ args ∈ es.argumentLists, IsRead eof us args := by
  induction h with
  | ended => exact hpending.broken _
  | go h _ ih =>
    have htail := (List.suffix_cons ..).trans hts
    cases acts_of_action h with
    | blank _ => exact ih htail hpending
    | key _ _ _ | word _ _ => exact ih htail nofun
  | list _ hinner _ ihinner ih =>
    have htail := (List.suffix_cons ..).trans hts
    refine ih (hinner.suffix.trans htail) ?_
    rintro _ ⟨⟩
    exact ihinner htail nofun
  | annotated _ hname hinner _ ihinner ih =>
    have htail := (suffix_of_annotated? hname).trans ((List.suffix_cons ..).trans hts)
    refine ih (hinner.suffix.trans htail) ?_
    rintro _ ⟨⟩
    refine List.forall_mem_cons.2 ⟨⟨_, htail, ?_⟩, ihinner htail nofun⟩
    exact congrArg Prod.fst hinner.outcome_eq
  | @unannotated _ _ _ _ _ _ ts _ _ => cases ts <;> exact List.forall_mem_nil _
  | file h _ ih =>
    rw [argumentLists, List.forall_mem_append]
    cases acts_of_action h with
    | file _ hp hitem =>
      subst hp
      exact ⟨hpending.of_item hitem _ rfl, ih ((List.suffix_cons ..).trans hts) nofun⟩
  | close h =>
    cases acts_of_action h with
    | last _ hp hitem =>
      subst hp
      rw [lastEntry, argumentLists, argumentLists, List.append_nil]
      exact hpending.of_item hitem _ rfl
    | close _ => exact List.forall_mem_nil _
  | fail h =>
    cases acts_of_action h with
    | refused _ _ _ | fail _ _ _ => exact hpending.broken _

/-- Lists of arguments that were read from tokens have keys behind the first value, and so have
those inside them. -/
lemma IsRead.othersNamed {us : List Token} {args : Entries} (h : IsRead eof us args) :
    args.OthersNamed := by
  obtain ⟨vs, -, rfl⟩ := h
  exact ((reads_outcome eof .argument .rightParen false none none vs).allNamed rfl).1

end Reading

end Entries

/-! ## Values of lists -/

namespace TagList

/-- All values behind the first have a key. -/
def OthersNamed (entries : TagList) : Prop :=
  ∀ entry ∈ entries.tail, entry.1.isSome = true

variable {entries : TagList}

lemma OthersNamed.append (h : OthersNamed entries) {key : Option String} (hkey : key.isSome = true)
    (v : Value) : OthersNamed (entries.append key v) := by
  obtain ⟨key, rfl⟩ := Option.isSome_iff_exists.1 hkey
  cases entries with
  | nil => exact List.forall_mem_nil _
  | cons first entries =>
    rw [TagList.append, putNamed]
    split
    · exact h
    · intro entry hentry
      rcases mem_putNamed hentry with hentry | rfl
      · exact h entry hentry
      · rfl

lemma othersNamed_nil : OthersNamed [] :=
  List.forall_mem_nil _

lemma othersNamed_append_nil (key : Option String) (v : Value) :
    OthersNamed (TagList.append [] key v) := by
  cases key <;> exact List.forall_mem_nil _

/-- Of values with keys behind the first, one at most has none. -/
lemma OthersNamed.oneUnnamed (h : OthersNamed entries) : Build.OneUnnamed (.tags entries) := by
  rintro _ ⟨⟩
  cases entries with
  | nil => exact Nat.zero_le 1
  | cons first entries =>
    have hnone : entries.filter (fun entry => entry.1.isNone) = [] := by
      refine List.filter_eq_nil_iff.2 fun entry hentry => ?_
      have hsome := h entry hentry
      rw [Option.isSome_iff_ne_none] at hsome
      rwa [Option.isNone_iff_eq_none]
    rw [positional, List.length_map, List.filter_cons, hnone]
    split
    · exact Nat.le_refl 1
    · exact Nat.zero_le 1

end TagList

namespace Setting

open TagList (OthersNamed)

variable {x : Setting} {tags : TagList} {r' : Reader}

/-- Entries with keys are added to a list of values without changing its form. -/
lemma othersNamed_of_allNamed {es : Entries} (hes : es.AllNamed) {acc : TagList}
    (hacc : OthersNamed acc) {r : Reader} (h : x.entries es acc r = (.ok tags, r')) :
    OthersNamed tags := by
  match es with
  | .closed =>
    simp only [Setting.entries, Run.pure_apply] at h
    cases h
    exact hacc
  | .entry key i rest =>
    simp only [Setting.entries] at h
    obtain ⟨v, r₁, -, hrest⟩ := Run.bind_eq_ok h
    exact othersNamed_of_allNamed hes.2 (hacc.append hes.1 v) hrest
  | .broken none e =>
    simp only [Setting.entries] at h
    cases h
  | .broken (some i) e =>
    simp only [Setting.entries] at h
    obtain ⟨v, r₁, -, hthrow⟩ := Run.bind_eq_ok h
    cases hthrow

/-- The value of a list has keys where the list has. -/
lemma othersNamed_of_entries {es : Entries} (hes : es.OthersNamed) {r : Reader}
    (h : x.entries es [] r = (.ok tags, r')) : OthersNamed tags := by
  cases es with
  | entry key i rest =>
    simp only [Setting.entries] at h
    obtain ⟨v, r₁, -, hrest⟩ := Run.bind_eq_ok h
    exact othersNamed_of_allNamed hes (TagList.othersNamed_append_nil key v) hrest
  | closed | broken =>
    refine othersNamed_of_allNamed ?_ TagList.othersNamed_nil h
    trivial

end Setting

/-! ## Sections -/

namespace Tag

open Entries (IsRead)

variable {eof : Token} {ts us : List Token} {tags : List Tag}

/-- The lists of arguments in the tags of a section were read from its tokens. -/
lemma Reads.exists_read (h : Reads eof ts tags) (hts : ts <:+ us) :
    ∀ tag ∈ tags, ∀ args ∈ tag.argumentLists, IsRead eof us args := by
  induction h with
  | nil | lone => exact List.forall_mem_nil _
  | skip _ _ ih => exact ih ((List.suffix_cons ..).trans hts)
  | @typed _ _ _ ts rest _ _ _ _ _ hargs _ ih =>
    have hbehind : ts <:+ us :=
      (((List.suffix_cons ..).trans (List.suffix_cons ..)).trans (List.suffix_cons ..)).trans hts
    refine List.forall_mem_cons.2 ⟨List.forall_mem_cons.2 ⟨⟨ts, hbehind, ?_⟩, ?_⟩, ?_⟩
    · exact congrArg Prod.fst hargs.outcome_eq
    · exact hargs.exists_read hbehind nofun
    · exact ih (hargs.suffix.trans hbehind)
  | plain _ _ _ _ _ _ ih =>
    refine List.forall_mem_cons.2 ⟨List.forall_mem_nil _, ih ?_⟩
    exact ((List.suffix_append ..).trans ((List.suffix_cons ..).trans (List.suffix_cons ..))).trans
      hts
  | @list _ _ _ _ ts rest _ _ _ _ _ _ _ hlist _ ih =>
    have hbehind : ts <:+ us :=
      ((List.suffix_cons ..).trans (List.suffix_append ..)).trans
        (((List.suffix_cons ..).trans (List.suffix_cons ..)).trans hts)
    refine List.forall_mem_cons.2 ⟨hlist.exists_read hbehind nofun, ?_⟩
    exact ih (hlist.suffix.trans hbehind)

lemma exists_read_ofSection (text : List Char) : ∀ tag ∈ ofSection text,
    ∀ args ∈ tag.argumentLists, IsRead (Token.ending text) (Token.pieces text) args :=
  (reads_parse _ _).exists_read (List.suffix_refl _)

end Tag
end DocTags
