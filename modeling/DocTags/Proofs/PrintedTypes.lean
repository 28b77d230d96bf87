import DocTags.Proofs.Declarations
import DocTags.Proofs.Dedent
import DocTags.Proofs.PlainList
import DocTags.Proofs.Steps
import DocTags.Proofs.TrailingBlanks
import DocTags.Reader.Operations

/-!
# Types that read back

Types are shown in the notation of plain lists: a kind by its name, and an array type as the list of
the types of its elements.  So the text of an array type is the list of a plain tag, and that list
declares a type.  It is the type that was shown if there are no arrays of length one in it: the text
of such an array is that of an array of any length.

`Spells` relates a text to a phrase of the grammar of plain lists, wherever the text stands.  It is
shown for the texts of types along with the type that the phrase declares (`ReadsBack`).

The main result is `printed_reads_back`.
-/

namespace DocTags

/-- Texts without line feeds and tabs are found by a test. -/
lemma flat_of_all {cs : List Char} (h : cs.all (fun c => c != '\n' && c != '\t') = true) :
    ∀ c ∈ cs, c ≠ '\n' ∧ c ≠ '\t' := by
  intro c hc
  simpa using List.all_eq_true.1 h c hc

namespace PlainList

open Token (tokensFrom)

/-! ## Texts of phrases -/

/-- The tokens of the text are those of the phrase, wherever the text stands and whatever stands
behind it, if that does not go on with a word. -/
def Spells (phrase : Phrase) (text : List Char) : Prop :=
  ∀ start rest, Lexeme.Delimited rest → ∃ ts,
    tokensFrom start (text ++ rest) = ts ++ tokensFrom (start + text.length) rest ∧
      Derives phrase (inked ts) ∧ ∀ t ∈ ts, IsLegible t

lemma isLegible_of_kind {t : Token} (h : t.kind ≠ .word) : IsLegible t :=
  fun hk => absurd hk h

/-- A symbol ends a word. -/
lemma delimited_symbol {c : Char} {kind : TokenKind} (h : TokenKind.ofSymbol? c = some kind)
    (rest : List Char) : Lexeme.Delimited (c :: rest) :=
  .inr (by rw [Token.match?_symbol h]; rfl)

lemma spells_nothing : Spells (.list []) [] :=
  fun _ _ _ => ⟨[], rfl, .nothing, List.forall_mem_nil _⟩

lemma Spells.last {v : Value} {text : List Char} (h : Spells (.item v) text) :
    Spells (.list [(none, v)]) text := by
  intro start rest hrest
  obtain ⟨ts, htokens, hitem, hlegible⟩ := h start rest hrest
  exact ⟨ts, htokens, .last (.unnamed hitem), hlegible⟩

/-- A comma and a blank separate the entries of a list. -/
lemma Spells.more {v : Value} {entries : List (Option String × Value)} {text body : List Char}
    (h : Spells (.item v) text) (hbody : Spells (.list entries) body)
    (hbegins : ∃ c cs, body = c :: cs ∧ Text.isBlank c = false) :
    Spells (.list ((none, v) :: entries)) (text ++ ',' :: ' ' :: body) := by
  intro start rest hrest
  have hcomma : TokenKind.ofSymbol? ',' = some .comma := rfl
  obtain ⟨ts, htokens, hitem, hlegible⟩ :=
    h start (',' :: ' ' :: (body ++ rest)) (delimited_symbol hcomma _)
  obtain ⟨us, hustokens, hentries, huslegible⟩ := hbody (start + text.length + 1 + 1) rest hrest
  obtain ⟨c, cs, rfl, hc⟩ := hbegins
  have hblank : tokensFrom (start + text.length + 1) (' ' :: (c :: cs ++ rest)) =
      ⟨.whitespace, " ", start + text.length + 1⟩ ::
        tokensFrom (start + text.length + 1 + 1) (c :: cs ++ rest) := by
    rw [Token.tokensFrom_of_match (Token.match?_blank (by rfl) _)]
    simp [hc]
  refine ⟨ts ++ ⟨.comma, ",", start + text.length⟩ ::
    ⟨.whitespace, " ", start + text.length + 1⟩ :: us, ?_, ?_, ?_⟩
  · rw [List.append_assoc, List.cons_append, List.cons_append, htokens,
      Token.tokensFrom_symbol hcomma, hblank, hustokens]
    simp [Nat.add_assoc, Nat.add_comm 2]
  · rw [inked_append, inked_cons (by simp)]
    exact .more (.unnamed hitem) rfl hentries
  · simp only [List.forall_mem_append, List.forall_mem_cons]
    exact ⟨hlegible, isLegible_of_kind (by simp), isLegible_of_kind (by simp), huslegible⟩

lemma Spells.braces {entries : List (Option String × Value)} {body : List Char}
    (h : Spells (.list entries) body) :
    Spells (.item (.tags (TagList.ofEntries entries))) ('{' :: (body ++ ['}'])) := by
  intro start rest _
  have hopen : TokenKind.ofSymbol? '{' = some .leftBrace := rfl
  have hclose : TokenKind.ofSymbol? '}' = some .rightBrace := rfl
  obtain ⟨ts, htokens, hentries, hlegible⟩ :=
    h (start + 1) ('}' :: rest) (delimited_symbol hclose _)
  refine ⟨⟨.leftBrace, "\x7b", start⟩ :: (ts ++ [⟨.rightBrace, "\x7d", start + 1 + body.length⟩]),
    ?_, ?_, ?_⟩
  · rw [List.cons_append, List.append_assoc, List.singleton_append,
      Token.tokensFrom_symbol hopen, htokens, Token.tokensFrom_symbol hclose]
    simp [Nat.add_assoc, Nat.add_comm 1]
  · rw [inked_cons (by simp), inked_append]
    exact .braces rfl hentries rfl
  · simp only [List.forall_mem_append, List.forall_mem_cons]
    exact ⟨isLegible_of_kind (by simp), hlegible, isLegible_of_kind (by simp),
      List.forall_mem_nil _⟩

lemma spells_word {word : List Char} {v : Value} (hne : word ≠ [])
    (hinert : ∀ c ∈ word, Lexeme.isInert c = true) (hword : WordDenotes (String.ofList word) v)
    (hdigits : Numeral.isDigits word = false) : Spells (.item v) word := by
  intro start rest hrest
  refine ⟨[⟨.word, String.ofList word, start⟩],
    Token.tokensFrom_word hne hinert hrest start, ?_, ?_⟩
  · refine .leaf (.word rfl ?_ ?_ hword)
    · intro hquote
      rw [String.toList_ofList] at hquote
      exact absurd (hinert _ hquote) (by decide)
    · intro hquote
      rw [String.toList_ofList] at hquote
      exact absurd (hinert _ hquote) (by decide)
  · refine List.forall_mem_singleton.2 fun _ hlong => ?_
    rw [String.toList_ofList, hdigits] at hlong
    cases hlong

end PlainList

namespace TypeExpr

open PlainList (Spells WordDenotes)

/-! ## Texts of types -/

/-- The kinds by their names. -/
inductive IsKind : TypeExpr → String → Prop
  | mixed : IsKind .mixed "mixed"
  | string : IsKind .string "string"
  | number : IsKind .number "number"
  | integer : IsKind .integer "integer"
  | float : IsKind .float "float"
  | boolean : IsKind .boolean "boolean"

/-- The types that are built from kinds as arrays, none of which has length one. -/
inductive IsPrintable : TypeExpr → Prop
  | kind {t : TypeExpr} {name : String} (h : IsKind t name) : IsPrintable t
  | list {item : TypeExpr} (h : IsPrintable item) : IsPrintable (.list item)
  | tuple {items : List TypeExpr} (hlength : items.length ≠ 1)
      (h : ∀ item ∈ items, IsPrintable item) : IsPrintable (.tuple items)

section Kinds

variable {t : TypeExpr} {name : String}

lemma IsKind.display (h : IsKind t name) (w : World) : t.display w = .ok name := by
  cases h <;> rfl

lemma IsKind.ofKindText? (h : IsKind t name) : ofKindText? name = some t := by
  cases h <;> rfl

lemma IsKind.ne_empty (h : IsKind t name) : name ≠ "" := by
  cases h <;> decide

lemma IsKind.wordDenotes (h : IsKind t name) : WordDenotes name (.str name) := by
  refine .bare ?_ (PlainList.read?_eq_none_iff.1 ?_) h.ne_empty (List.all_eq_true.1 ?_)
  · cases h <;> decide
  · cases h <;> decide
  · cases h <;> decide

lemma IsKind.spells (h : IsKind t name) : Spells (.item (.str name)) name.toList := by
  refine PlainList.spells_word ?_ ?_ ?_ ?_
  · simpa using h.ne_empty
  · exact List.all_eq_true.1 (by cases h <;> rfl)
  · rw [String.ofList_toList]
    exact h.wordDenotes
  · cases h <;> decide

end Kinds

/-- The text of a type is that of a value which declares the type. -/
structure ReadsBack (w : World) (t : TypeExpr) (text : String) (v : Value) : Prop where
  shown : t.display w = .ok text
  spells : Spells (.item v) text.toList
  begins : ∃ c cs, text.toList = c :: cs ∧ Text.isBlank c = false
  flat : ∀ c ∈ text.toList, c ≠ '\n' ∧ c ≠ '\t'
  declares : ∀ {σ : Type} (resolve : String → Run σ TypeId) (s : σ), Converts resolve v s t s

/-- The texts of types are, with commas between them, those of values which declare the types. -/
structure AllReadBack (w : World) (ts : List TypeExpr) (texts : List String) (values : List Value) :
    Prop where
  shown : Value.displayTypes w.shown w.told ts = .ok texts
  spells : Spells (.list (values.map fun v => (none, v))) (", ".intercalate texts).toList
  begins : ts ≠ [] → ∃ c cs, (", ".intercalate texts).toList = c :: cs ∧ Text.isBlank c = false
  flat : ∀ c ∈ (", ".intercalate texts).toList, c ≠ '\n' ∧ c ≠ '\t'
  declares : ∀ {σ : Type} (resolve : String → Run σ TypeId) (s : σ),
    ConvertsAll resolve values s ts s

section Arrays

variable {w : World} {t : TypeExpr} {ts : List TypeExpr} {text : String} {texts : List String}
  {v : Value} {values : List Value}

lemma IsKind.readsBack {name : String} (h : IsKind t name) (w : World) :
    ReadsBack w t name (.str name) where
  shown := h.display w
  spells := h.spells
  begins := by cases h <;> exact ⟨_, _, rfl, by decide⟩
  flat := flat_of_all (by cases h <;> rfl)
  declares _ _ := .kind h.ofKindText?

lemma allReadBack_nil (w : World) : AllReadBack w [] [] [] where
  shown := rfl
  spells := PlainList.spells_nothing
  begins h := absurd rfl h
  flat := List.forall_mem_nil _
  declares _ _ := .nil

lemma displayTypes_cons (h : t.display w = .ok text)
    (hrest : Value.displayTypes w.shown w.told ts = .ok texts) :
    Value.displayTypes w.shown w.told (t :: ts) = .ok (text :: texts) := by
  rw [display] at h
  rw [Value.displayTypes, h, hrest]
  rfl

/-- A type is put before others with a comma. -/
lemma ReadsBack.cons (h : ReadsBack w t text v) (hrest : AllReadBack w ts texts values) :
    AllReadBack w (t :: ts) (text :: texts) (v :: values) := by
  have hdeclares : ∀ {σ : Type} (resolve : String → Run σ TypeId) (s : σ),
      ConvertsAll resolve (v :: values) s (t :: ts) s :=
    fun resolve s => .cons (h.declares resolve s) (hrest.declares resolve s)
  by_cases hts : ts = []
  · subst hts
    cases hrest.shown
    have hvalues : ConvertsAll (fun name => (pure name : Run Unit TypeId)) values () [] () :=
      hrest.declares _ _
    cases hvalues
    exact ⟨displayTypes_cons h.shown hrest.shown, h.spells.last, fun _ => h.begins, h.flat,
      hdeclares⟩
  · obtain ⟨c, cs, htext, hc⟩ := h.begins
    have htexts : texts ≠ [] := by
      rintro rfl
      obtain ⟨c, cs, hcs, -⟩ := hrest.begins hts
      cases hcs
    have hjoin : (", ".intercalate (text :: texts)).toList =
        text.toList ++ ',' :: ' ' :: (", ".intercalate texts).toList := by
      rw [String.intercalate_cons_of_ne_nil htexts]
      simp
    refine ⟨displayTypes_cons h.shown hrest.shown, ?_, fun _ => ?_, ?_, hdeclares⟩
    · rw [hjoin]
      exact h.spells.more hrest.spells (hrest.begins hts)
    · rw [hjoin, htext]
      exact ⟨c, _, rfl, hc⟩
    · rw [hjoin]
      simp only [List.forall_mem_append, List.forall_mem_cons]
      exact ⟨h.flat, by decide, by decide, hrest.flat⟩

/-- The types of a list are read back if each of them is. -/
lemma exists_allReadBack (w : World) {ts : List TypeExpr}
    (h : ∀ t ∈ ts, ∃ text v, ReadsBack w t text v) :
    ∃ texts values, AllReadBack w ts texts values := by
  induction ts with
  | nil => exact ⟨[], [], allReadBack_nil w⟩
  | cons t ts ih =>
    rw [List.forall_mem_cons] at h
    obtain ⟨⟨text, v, ht⟩, hts⟩ := h
    obtain ⟨texts, values, hrest⟩ := ih hts
    exact ⟨text :: texts, v :: values, ht.cons hrest⟩

/-- The text of an array type is a list. -/
lemma AllReadBack.display_ofItems (h : AllReadBack w ts texts values) :
    (ofItems ts).display w = .ok ("\x7b" ++ ", ".intercalate texts ++ "\x7d") := by
  have hshown := h.shown
  match ts with
  | [item] =>
    cases hitem : Value.displayTypeWith w.shown w.told item with
    | error e =>
      rw [Value.displayTypes, hitem] at hshown
      cases hshown
    | ok text =>
      rw [Value.displayTypes, hitem] at hshown
      cases hshown
      rw [ofItems, display, Value.displayTypeWith, hitem]
      simp
  | [] | _ :: _ :: _ =>
    rw [ofItems_of_length (by simp), display, Value.displayTypeWith, hshown]
    rfl

/-- The list of its values declares the array type. -/
lemma AllReadBack.converts (h : AllReadBack w ts texts values) {σ : Type}
    (resolve : String → Run σ TypeId) (s : σ) :
    Converts resolve (.tags (values.map fun v => (none, v))) s (ofItems ts) s := by
  have hvalues : parts? (.tags (values.map fun v => (none, v))) = some values := by
    simp [parts?, Function.comp_def]
  have hall := h.declares resolve s
  by_cases hlength : ts.length = 1
  · obtain ⟨t, rfl⟩ := List.length_eq_one_iff.1 hlength
    rcases hall with _ | ⟨hitem, ⟨⟩⟩
    exact .single hvalues hitem
  · rw [ofItems_of_length hlength]
    exact .several hvalues (hall.length_eq ▸ hlength) hall

lemma ofEntries_unnamed (values : List Value) :
    TagList.ofEntries (values.map fun v => (none, v)) = values.map fun v => (none, v) := by
  refine TagList.ofEntries_of_nodup ?_
  have hkeys : TagList.keys (values.map fun v => (none, v)) = [] := by
    simp [TagList.keys]
  rw [hkeys]
  exact List.nodup_nil

lemma AllReadBack.readsBack (h : AllReadBack w ts texts values) :
    ReadsBack w (ofItems ts) ("\x7b" ++ ", ".intercalate texts ++ "\x7d")
      (.tags (values.map fun v => (none, v))) := by
  have htext : ("\x7b" ++ ", ".intercalate texts ++ "\x7d").toList =
      '{' :: ((", ".intercalate texts).toList ++ ['}']) := by
    simp
  refine ⟨h.display_ofItems, ?_, ⟨'{', _, htext, by decide⟩, ?_, h.converts⟩
  · rw [htext, ← ofEntries_unnamed]
    exact h.spells.braces
  · rw [htext]
    simp only [List.forall_mem_append, List.forall_mem_cons]
    exact ⟨by decide, h.flat, by decide, List.forall_mem_nil _⟩

lemma IsPrintable.exists_readsBack (w : World) (h : IsPrintable t) :
    ∃ text v, ReadsBack w t text v := by
  induction h with
  | kind h => exact ⟨_, _, h.readsBack w⟩
  | @list item _ ih =>
    obtain ⟨texts, values, hall⟩ := exists_allReadBack w (List.forall_mem_singleton.2 ih)
    exact ⟨_, _, hall.readsBack⟩
  | @tuple items hlength _ ih =>
    obtain ⟨texts, values, hall⟩ := exists_allReadBack w ih
    have hitems := hall.readsBack
    rw [ofItems_of_length hlength] at hitems
    exact ⟨_, _, hitems⟩

lemma IsPrintable.exists_items (h : IsPrintable t)
    (htop : (∃ item, t = .list item) ∨ ∃ items, t = .tuple items) :
    ∃ items, t = ofItems items ∧ ∀ item ∈ items, IsPrintable item := by
  cases h with
  | kind h =>
    rcases htop with ⟨_, rfl⟩ | ⟨_, rfl⟩ <;> cases h
  | @list item h => exact ⟨[item], rfl, List.forall_mem_singleton.2 h⟩
  | @tuple items hlength h => exact ⟨items, (ofItems_of_length hlength).symm, h⟩

end Arrays

end TypeExpr

/-! ## Texts of tags -/

namespace Text

/-- A line that begins with no blank is a block of its own. -/
lemma bare_line {line : List Char} (hflat : ∀ c ∈ line, c ≠ '\n' ∧ c ≠ '\t')
    (hbegins : trimStart line = line) (hne : line ≠ []) (hfence : opensFence line = false) :
    bare line = line := by
  have hlines : splitAt '\n' (expandTabs 0 line) = [line] := by
    rw [expandTabs_of_not_mem fun h => (hflat _ h).2 rfl,
      splitAt_of_not_mem fun h => (hflat _ h).1 rfl]
  rw [bare_of_opensFence hfence, dedent_eq hlines, cutLines, hbegins]
  simp [dropOuterEmpty, hne, joinWith]

end Text

namespace Setting

open PlainList (Spells)
open Token (tokensFrom)

variable (x : Setting) {entries : TagList} {body : List Char}

/-- The tokens of a tag with a list. -/
lemma reads_listTag (hbody : Spells (.list entries) body) (eof : Token) :
    ∃ es : Entries, es.Means entries ∧
      Tag.Reads eof (Token.pieces ("@t \x7b".toList ++ (body ++ ['}']))) [.list "t" es none] := by
  have hopen : TokenKind.ofSymbol? '{' = some .leftBrace := rfl
  have hclose : TokenKind.ofSymbol? '}' = some .rightBrace := rfl
  have hat : TokenKind.ofSymbol? '@' = some .atSign := rfl
  obtain ⟨ts, htokens, hlist, hlegible⟩ :=
    hbody 4 ['}'] (PlainList.delimited_symbol hclose [])
  obtain ⟨es, hes, hout⟩ := hlist.isRead eof (fun t ht => hlegible t (List.mem_filter.1 ht).1) rfl
    false ⟨.rightBrace, "\x7d", 4 + body.length⟩ [] rfl
  have hpieces : Token.pieces ("@t \x7b".toList ++ (body ++ ['}'])) =
      ⟨.atSign, "@", 0⟩ :: ⟨.word, "t", 1⟩ :: ([⟨.whitespace, " ", 2⟩] ++
        ⟨.leftBrace, "\x7b", 3⟩ :: (ts ++ [⟨.rightBrace, "\x7d", 4 + body.length⟩])) := by
    have hword : tokensFrom 1 (['t'] ++ ' ' :: '{' :: (body ++ ['}'])) =
        ⟨.word, "t", 1⟩ :: tokensFrom 2 (' ' :: '{' :: (body ++ ['}'])) :=
      Token.tokensFrom_word (by simp) (List.forall_mem_singleton.2 rfl)
        (.inr (by rw [Token.match?_blank (by rfl)]; rfl)) 1
    have hblank : tokensFrom 2 (' ' :: '{' :: (body ++ ['}'])) =
        ⟨.whitespace, " ", 2⟩ :: tokensFrom 3 ('{' :: (body ++ ['}'])) :=
      Token.tokensFrom_of_match (Token.match?_blank (by rfl) _) 2
    calc Token.pieces ("@t \x7b".toList ++ (body ++ ['}']))
        = tokensFrom 0 ('@' :: (['t'] ++ ' ' :: '{' :: (body ++ ['}']))) := rfl
      _ = _ := by
        rw [Token.tokensFrom_symbol hat, hword, hblank, Token.tokensFrom_symbol hopen, htokens,
          Token.tokensFrom_symbol hclose, Token.tokensFrom_nil]
        rfl
  refine ⟨es, hes, ?_⟩
  rw [hpieces]
  exact .list rfl rfl (by simp) (by decide +kernel) rfl (Entries.reads_iff.2 hout) .nil

/-- A block that is a tag with a list amounts to that tag. -/
lemma read_listTag (hbody : Spells (.list entries) body)
    (hflat : ∀ c ∈ body, c ≠ '\n' ∧ c ≠ '\t') (r : Reader) :
    x.read ("@t \x7b".toList ++ (body ++ ['}'])) r =
      (.ok { tags := [("t", .tags (TagList.ofEntries entries))] }, r) := by
  have hline : ∀ c ∈ "@t \x7b".toList ++ (body ++ ['}']), c ≠ '\n' ∧ c ≠ '\t' := by
    simp only [List.forall_mem_append]
    exact ⟨flat_of_all rfl, hflat, flat_of_all rfl⟩
  have hsection : Text.splitSection ("@t \x7b".toList ++ (body ++ ['}'])) =
      ([], some ("@t \x7b".toList ++ (body ++ ['}']))) := by
    have hlines : Text.splitAt '\n' ("@t \x7b".toList ++ (body ++ ['}'])) =
        [] ++ ["@t \x7b".toList ++ (body ++ ['}'])] :=
      Text.splitAt_of_not_mem fun h => (hline _ h).1 rfl
    refine Text.splitSection_of_lines hlines (by simp) (List.forall_mem_nil _) ?_
    rintro _ ⟨⟩
    rfl
  obtain ⟨es, hes, hreads⟩ := reads_listTag hbody
    (Token.ending ("@t \x7b".toList ++ (body ++ ['}'])))
  rw [read, Text.bare_line hline rfl (by simp) rfl, hsection]
  dsimp only
  rw [scan, Tag.ofSection, hreads.parse_eq, tags, tag, Run.bind_ok (Run.bind_ok (hes x r []) _)]
  rfl

end Setting

namespace TypeExpr

/-- The text of an array type without arrays of length one in it, as the list of a plain tag, reads
back as a tag list, and the type that this tag list declares is the type that was shown.  It is so
in every world and scope, for every reader, and whatever class names stand for. -/
theorem printed_reads_back {t : TypeExpr} (h : IsPrintable t)
    (htop : (∃ item, t = .list item) ∨ ∃ items, t = .tuple items) (w : World) :
    ∃ text entries, t.display w = .ok text ∧
      (∀ placement scope r, Reader.parse w ("@t " ++ text) placement scope r =
        (.ok { tags := [("t", .tags entries)] }, r)) ∧
      ∀ {σ : Type} (resolve : String → Run σ TypeId) (s : σ),
        ofDeclaration w resolve (.tags entries) s = (.ok t, s) := by
  obtain ⟨items, rfl, hitems⟩ := h.exists_items htop
  obtain ⟨texts, values, hall⟩ := exists_allReadBack w fun item hitem =>
    (hitems item hitem).exists_readsBack w
  refine ⟨_, _, hall.display_ofItems, fun placement scope r => ?_,
    fun resolve s => (hall.converts resolve s).run_eq⟩
  have hblock : ("@t " ++ ("\x7b" ++ ", ".intercalate texts ++ "\x7d")).toList =
      "@t \x7b".toList ++ ((", ".intercalate texts).toList ++ ['}']) := by
    simp
  rw [Reader.parse, Reader.readBlock, Run.bind_ok (Run.get_apply r), hblock,
    Setting.read_listTag _ hall.spells hall.flat, ofEntries_unnamed]

/-- An array of any length, of pairs whose second part is an array that may hold anything. -/
theorem printed_reads_back_nested :
    ∃ entries, (∀ placement scope r,
      Reader.parse World.base "@t \x7b\x7binteger, \x7b\x7d\x7d\x7d" placement scope r =
        (.ok { tags := [("t", .tags entries)] }, r)) ∧
      ofDeclaration World.base (fun name => (pure name : Run Unit TypeId)) (.tags entries) () =
        (.ok (.list (.tuple [.integer, .tuple []])), ()) := by
  have hany : IsPrintable (.tuple []) := .tuple (by decide) (List.forall_mem_nil _)
  have hpair : IsPrintable (.tuple [.integer, .tuple []]) :=
    .tuple (by decide) (List.forall_mem_cons.2
      ⟨.kind .integer, List.forall_mem_singleton.2 hany⟩)
  obtain ⟨text, entries, hshown, hparse, hdeclared⟩ :=
    printed_reads_back (.list hpair) (.inl ⟨_, rfl⟩) World.base
  have htext : (TypeExpr.list (.tuple [.integer, .tuple []])).display World.base =
      .ok "\x7b\x7binteger, \x7b\x7d\x7d\x7d" := rfl
  obtain rfl := Except.ok.inj (htext.symm.trans hshown)
  exact ⟨entries, hparse, hdeclared _ ()⟩

end TypeExpr
end DocTags
