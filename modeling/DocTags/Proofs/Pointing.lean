import DocTags.Proofs.Causes.Reading
import DocTags.Proofs.Walking
import DocTags.Reader.Operations

/-!
# Syntax errors point into the text

A syntax error that ends the reading of a text is about the text itself, or about the documentation
of another class whose schema was resolved on the way.  To tell them apart the text is read once
more with syntax errors of the second sort set aside (`Setting.aside`): the class counts as
unreadable then.  The two readings are parallel (`Setting.parallel_aside`), so an error of the first
sort ends both of them.  It is one of those that are found in the tokens of the section, and names a
token of it (`Malformation.PointsInto`).

The other part of the main result, `Reader.syntax_errors_point_into_section`, is about the cursor:
it is at a token of the section all the time, and never behind the end token.
-/

namespace DocTags

/-- The errors about the syntax of a text. -/
def Error.isMalformed : Error → Bool
  | .malformed .. => true
  | _ => false

/-- A syntax error about a section names one of its tokens, by the place and the text that this has
there.  That the section has ended is blamed on the end token only. -/
def Malformation.PointsInto (fault : Malformation) (token : Option Token) (text : List Char) :
    Prop :=
  ∃ t ∈ Token.pieces text ++ [Token.ending text], token = some t ∧
    (text.drop t.position).take t.text.length = t.text.toList ∧
    (fault = .endOfText → t.kind = .eof ∧ t.position = text.length)

section Pointing

variable {text : List Char} {fault : Malformation} {token : Option Token}

lemma Token.take_drop_position {t : Token} (h : t ∈ pieces text ++ [ending text]) :
    (text.drop t.position).take t.text.length = t.text.toList := by
  obtain ⟨before, after, hsplit⟩ := List.append_of_mem h
  have hlist : (String.ofList text).toList = text := String.toList_ofList
  have htokens : tokenize (String.ofList text) = before ++ t :: after := by
    rw [tokenize, hlist, hsplit]
  have hspelling := spelling_tokenize (String.ofList text)
  rw [htokens, spelling_append, spelling_cons, hlist] at hspelling
  rw [position_of_tokenize_eq htokens, ← hspelling, List.drop_left, ← String.length_toList,
    List.take_left]

/-- The syntax errors that are found in the tokens of a section point into it. -/
lemma FoundIn.pointsInto
    (h : FoundIn (Token.ending text) (Token.pieces text) (.malformed fault token)) :
    fault.PointsInto token text := by
  have hlast : Token.ending text ∈ Token.pieces text ++ [Token.ending text] :=
    List.mem_append_right _ (List.mem_singleton_self _)
  cases h with
  | token hfault ht =>
    have hmem := List.mem_append_left [Token.ending text] ht
    exact ⟨_, hmem, rfl, Token.take_drop_position hmem, fun hend => absurd hend hfault⟩
  | endOfText | nameExpected =>
    exact ⟨_, hlast, rfl, Token.take_drop_position hlast, fun _ => ⟨rfl, rfl⟩⟩

end Pointing

/-! ## Errors of other classes -/

namespace Setting

open Run (Parallel)

/-- The same setting, in which a class counts as unreadable if there is a syntax error in what is
read for its schema. -/
def aside (x : Setting) : Setting :=
  { x with
    schemaOf := fun type =>
      tryCatch (x.schemaOf type) fun e =>
        if e.isMalformed then throw (.unreadable type) else throw e }

/-- What the errors of the two readings have to do with each other: they are the same, and a syntax
error is one of the section, or resolving a schema ended in a syntax error. -/
inductive Aside (x : Setting) (block : List Char) : Error → Error → Reader → Prop
  | own {e : Error} {r : Reader}
      (h : e.isMalformed = true → ∃ text ∈ (Text.splitSection (Text.bare block)).2,
        FoundIn (Token.ending text) (Token.pieces text) e) :
      Aside x block e e r
  | other {e : Error} {type : TypeId} {r₁ r : Reader} (he : e.isMalformed = true)
      (h : x.schemaOf type r₁ = (.error e, r)) : Aside x block e (.unreadable type) r

variable {x : Setting} {block : List Char}

lemma tolerates_aside : Tolerates (Aside x block) where
  ordinary {e} he r := .own fun hmalformed => by
    cases e <;> cases hmalformed
    cases he
  noAccessor r := .own nofun

lemma parallel_schemaOf (type : TypeId) :
    Parallel (Aside x block) (x.schemaOf type) (x.aside.schemaOf type) := by
  intro r
  simp only [aside, Run.tryCatch_apply]
  rcases hrun : x.schemaOf type r with ⟨e | s, r'⟩
  · refine .inr ⟨e, if e.isMalformed then .unreadable type else e, r', rfl, ?_, ?_⟩
    · dsimp only
      split <;> rfl
    · split
      · next he => exact .other he hrun
      · next he => exact .own fun hmalformed => absurd hmalformed he
  · exact .inl ⟨s, r', rfl, rfl⟩

/-- Reading with the syntax errors of other classes set aside goes as before, up to such an
error. -/
lemma parallel_aside (x : Setting) (block : List Char) :
    Parallel (Aside x block) (x.read block) (x.aside.read block) :=
  parallel_read tolerates_aside parallel_schemaOf block fun text htext _ he _ =>
    .own fun _ => ⟨text, htext, he⟩

end Setting

/-! ## Syntax errors of texts -/

namespace Reader

variable (w : World)

/-- The setting that a text is read in. -/
def settingOf (placement : Placement) (scope : Scope) (r : Reader) : Setting where
  world := w
  scope := scope
  placement := placement
  owner := none
  schemaOf := resolveWithin w (depth w r) false

lemma parse_eq (text : String) (placement : Placement) (scope : Scope) (r : Reader) :
    parse w text placement scope r = (settingOf w placement scope r).read text.toList r :=
  Run.bind_ok (Run.get_apply r) _

/-- A syntax error that ends the reading of a text comes from resolving the schema of a class, or
else points into the section of the text; the text is read with the errors of the first sort set
aside to tell them apart.  While the section is read the cursor is at one of its tokens: there is a
walk over the tokens, and whatever walk there is, it finds what the section amounts to without going
behind the end token. -/
theorem syntax_errors_point_into_section (text : String) (placement : Placement) (scope : Scope)
    (r : Reader) :
    let x := settingOf w placement scope r
    let parts := Text.splitSection (Text.bare text.toList)
    (∀ fault token r', parse w text placement scope r = (.error (.malformed fault token), r') →
      (∃ type r₁, x.schemaOf type r₁ = (.error (.malformed fault token), r') ∧
        x.aside.read text.toList r = (.error (.unreadable type), r')) ∨
      (x.aside.read text.toList r = (.error (.malformed fault token), r') ∧
        ∃ block ∈ parts.2, fault.PointsInto token block)) ∧
    ∀ block ∈ parts.2,
      let tokens := Token.pieces block ++ [Token.ending block]
      (∃ tags path, Tag.Walks (.start tokens) tags path) ∧
      ∀ tags path, Tag.Walks (.start tokens) tags path →
        (∀ comment, x.tags comment tags = x.scan comment block) ∧
        ∀ c ∈ path, c.tokens = tokens ∧ c.position < tokens.length := by
  intro x parts
  refine ⟨fun fault token r' h => ?_, fun block hblock => ?_⟩
  · rw [parse_eq] at h
    rcases Setting.parallel_aside x text.toList r with
      ⟨c, t, hrun, -⟩ | ⟨e, e', t, hrun, haside, he⟩
    · rw [h] at hrun
      cases hrun
    · rw [h] at hrun
      cases hrun
      cases he with
      | own hown =>
        obtain ⟨block, hblock, hfound⟩ := hown rfl
        exact .inr ⟨haside, block, hblock, hfound.pointsInto⟩
      | other _ hschema => exact .inl ⟨_, _, hschema, haside⟩
  · obtain ⟨hexists, hwalks⟩ := Tag.walks_section block
    refine ⟨hexists, fun tags path hwalk => ?_⟩
    obtain ⟨htags, hpath⟩ := hwalks tags path hwalk
    exact ⟨htags x, hpath⟩

/-- The number behind a word is blamed, by its place in the section and not in the text. -/
theorem syntax_errors_point_into_section_second_line :
    let w : World := { modules := [], classes := [] }
    let text := "Adds.\n@list \x7ba: 1, b 2\x7d"
    let block := "@list \x7ba: 1, b 2\x7d".toList
    let token : Token := ⟨.word, "2", 15⟩
    let tokens := Token.pieces block ++ [Token.ending block]
    (parse w text .onClass [] (start [] true)).1 =
        .error (.malformed .unexpectedData (some token)) ∧
      Malformation.unexpectedData.PointsInto (some token) block ∧
      ∃ tags path, Tag.Walks (.start tokens) tags path ∧
        ∀ c ∈ path, c.position < tokens.length := by
  intro w text block token tokens
  let r := start [] true
  let x := settingOf w .onClass [] r
  have hparts : (Text.splitSection (Text.bare text.toList)).2 = some block := by decide +kernel
  have hfails : (match (parse w text .onClass [] r).1 with
      | .ok _ => none
      | .error e => some e) = some (.malformed .unexpectedData (some token)) := by decide +kernel
  have haside : (match (x.aside.read text.toList r).1 with
      | .error (.unreadable _) => true
      | _ => false) = false := by decide +kernel
  rcases hrun : parse w text .onClass [] r with ⟨e | c, r'⟩
  · rw [hrun] at hfails
    obtain rfl := Option.some.inj hfails
    obtain ⟨herrors, hcursor⟩ := syntax_errors_point_into_section w text .onClass [] r
    obtain ⟨type, r₁, -, hother⟩ | ⟨-, block', hblock', hpoints⟩ := herrors _ _ r' hrun
    · rw [hother] at haside
      cases haside
    · rw [hparts] at hblock' hcursor
      cases hblock'
      obtain ⟨⟨tags, path, hwalk⟩, hwalks⟩ := hcursor block rfl
      exact ⟨rfl, hpoints, tags, path, hwalk, fun c hc => ((hwalks tags path hwalk).2 c hc).2⟩
  · rw [hrun] at hfails
    cases hfails

end Reader
end DocTags
