import DocTags.Proofs.Dedent
import DocTags.Proofs.Run
import DocTags.Reader.Operations

/-!
# Reading an element and reading its text

The documentation of an element is dedented when it is taken from the element, and what is read is
dedented once more.  A text that is read directly is dedented once.  So the two need not agree, and
this file says when they do.

`Reads` lists the ways to read an element, and `read_agrees_with_parse` is the main result.  Reading
an element is reading its text, from every state and with every result, whenever both are normalised
to the same bare lines.  For texts without a fence this means that the bare lines are settled, which
all texts are that begin on their first line.  For such texts without tags, where the result is the
description alone, the two agree exactly when the bare lines are flush.
-/

namespace DocTags

namespace Setting

variable {x : Setting}

lemma description_tag {c c' : Comment} {t : Tag} {r r' : Reader}
    (h : x.tag c t r = (.ok c', r')) : c'.description = c.description := by
  cases t with
  | plain name text =>
    cases h
    rfl
  | list name es after =>
    rw [tag] at h
    obtain ⟨v, r₁, -, h⟩ := Run.bind_eq_ok h
    cases after with
    | some t => cases h
    | none =>
      cases h
      rfl
  | typed name args =>
    rw [tag] at h
    obtain ⟨args, r₁, -, h⟩ := Run.bind_eq_ok h
    obtain ⟨⟨type, v⟩, r₂, -, h⟩ := Run.bind_eq_ok h
    cases h
    rfl

/-- Tags are added to a comment without touching its description. -/
lemma description_tags {c c' : Comment} {ts : List Tag} {r r' : Reader}
    (h : x.tags c ts r = (.ok c', r')) : c'.description = c.description := by
  induction ts generalizing c r with
  | nil =>
    cases h
    rfl
  | cons t ts ih =>
    rw [tags] at h
    obtain ⟨c₁, r₁, htag, h⟩ := Run.bind_eq_ok h
    rw [ih h, description_tag htag]

end Setting

namespace Reader

/-- The ways to read an element, each with the element and the placement it is read for. -/
inductive Reads (w : World) : Run Reader Comment → Value → Placement → Prop
  | ofClass (type : TypeId) : Reads w (readClass w (.cls type)) (.cls type) .onClass
  | ofFunction (v : Value) : Reads w (readFunction w v) v .onFunction
  | ofMethod {type : TypeId} {name : String} {r : Routine}
      (h : w.classAttribute? type name = some (.routine r)) :
      Reads w (readMethod w (.cls type) name) (.routine r) .onMethod
  | ofProperty {type : TypeId} {name : String} {p : Property}
      (h : w.member? type name = some (.property p)) :
      Reads w (readProperty w (.cls type) name) (.property p) .onProperty

variable {w : World} {placement : Placement} {scope : Scope}

/-- All of them read the documentation of the element, with the names of its module. -/
lemma Reads.eq_readBlock {act : Run Reader Comment} {v : Value} (h : Reads w act v placement)
    {d : String} (hd : w.docOf? v = some d) :
    act = readBlock w (Text.documentation d.toList) placement (w.documented v).2 := by
  have helement : ∀ p, readElement w v p =
      readBlock w (Text.documentation d.toList) p (w.documented v).2 := by
    intro p
    rw [readElement, World.documented, hd]
    rfl
  have hclass : ∀ type r, classOf w (.cls type) r = (.ok type, r) := fun _ _ => rfl
  cases h with
  | ofClass type =>
    rw [← helement]
    funext r
    rw [readClass, Run.bind_ok (hclass _ r)]
  | ofFunction v => exact helement _
  | ofMethod h =>
    rw [← helement]
    funext r
    rw [readMethod, Run.bind_ok (hclass _ r), h]
  | ofProperty h =>
    rw [← helement]
    funext r
    rw [readProperty, Run.bind_ok (hclass _ r), h]

/-- The tags of a block, if it has a tag section. -/
def tagsOf (text : List Char) : Option (List Tag) :=
  (Text.splitSection text).2.map Tag.ofSection

/-- A block is read by its description, which is trimmed, and its tags. -/
lemma readBlock_congr {a b : List Char}
    (hbefore : Text.trim (Text.splitSection (Text.bare a)).1 =
      Text.trim (Text.splitSection (Text.bare b)).1)
    (htags : tagsOf (Text.bare a) = tagsOf (Text.bare b)) :
    readBlock w a placement scope = readBlock w b placement scope := by
  unfold readBlock Setting.read Setting.scan
  unfold tagsOf at htags
  rcases ha : Text.splitSection (Text.bare a) with ⟨before, _ | text⟩
  · rcases hb : Text.splitSection (Text.bare b) with ⟨before', _ | text'⟩
    · rw [ha, hb] at hbefore
      simp only [hbefore]
    · rw [ha, hb] at htags
      cases htags
  · rcases hb : Text.splitSection (Text.bare b) with ⟨before', _ | text'⟩
    · rw [ha, hb] at htags
      cases htags
    · rw [ha, hb] at hbefore htags
      simp only [hbefore, Option.some.inj htags]

lemma splitSection_of_none {text : List Char} (h : (Text.splitSection text).2 = none) :
    Text.splitSection text = (text, none) := by
  unfold Text.splitSection at h ⊢
  dsimp only at h ⊢
  split at h
  · rfl
  · exact absurd h (by simp)

/-- A block without tags is a description. -/
lemma readBlock_of_no_tags {block : List Char}
    (h : (Text.splitSection (Text.bare block)).2 = none) :
    readBlock w block placement scope =
      pure { description := String.ofList (Text.trim (Text.bare block)) } := by
  funext r
  unfold readBlock Setting.read
  rw [Run.bind_ok (Run.get_apply r), splitSection_of_none h]

/-- A comment that was read has the text before its tags for a description. -/
lemma description_of_readBlock {block : List Char} {r r' : Reader} {c : Comment}
    (h : readBlock w block placement scope r = (.ok c, r')) :
    c.description = String.ofList (Text.trim (Text.splitSection (Text.bare block)).1) := by
  unfold readBlock at h
  rw [Run.bind_ok (Run.get_apply r)] at h
  unfold Setting.read at h
  rcases hsplit : Text.splitSection (Text.bare block) with ⟨before, _ | text⟩
  · rw [hsplit] at h
    cases h
    rfl
  · rw [hsplit] at h
    exact Setting.description_tags h

/-- Reading an element agrees with reading its text if both have the same tags and, up to blanks at
both ends, the same text before them; whenever both succeed and agree, they have the same text
before their tags.  Without a fence, both have the same bare lines exactly when those of the text
are settled; the two ways of reading agree on every text that begins on its first line, and on texts
without tags exactly when their bare lines are flush. -/
theorem read_agrees_with_parse {act : Run Reader Comment} {v : Value}
    (hact : Reads w act v placement) {d : String} (hd : w.docOf? v = some d) :
    let text := Text.bare d.toList
    let again := Text.bare (Text.documentation d.toList)
    let parsed := parse w d placement (w.documented v).2
    (Text.trim (Text.splitSection again).1 = Text.trim (Text.splitSection text).1 →
      tagsOf again = tagsOf text → act = parsed) ∧
    (∀ r c, (act r).1 = .ok c → (parsed r).1 = .ok c →
      Text.trim (Text.splitSection again).1 = Text.trim (Text.splitSection text).1) ∧
    (Text.opensFence d.toList = false →
      (again = text ↔ Text.isSettled text = true) ∧
      (∀ first rest, Text.splitAt '\n' (Text.expandTabs 0 d.toList) = first :: rest →
        Text.trimStart first ≠ [] → act = parsed) ∧
      ((Text.splitSection text).2 = none → (Text.splitSection again).2 = none →
        (act = parsed ↔ Text.isFlush text = true))) := by
  intro text again parsed
  rw [hact.eq_readBlock hd]
  refine ⟨fun hbefore htags => readBlock_congr hbefore htags, fun r c hread hparse => ?_,
    fun hfence => ⟨Text.bare_documentation_iff hfence, fun first rest hlines hfirst => ?_,
      fun htext hagain => ?_⟩⟩
  · have hagain := description_of_readBlock (Prod.ext hread rfl)
    have htext := description_of_readBlock (Prod.ext hparse rfl)
    exact String.ofList_inj.1 (hagain.symm.trans htext)
  · have hsettled : Text.isSettled (Text.bare d.toList) = true := by
      rw [Text.bare_of_opensFence hfence]
      exact Text.isSettled_dedent_of_first hlines hfirst
    have hbare := (Text.bare_documentation_iff hfence).2 hsettled
    exact readBlock_congr (by rw [hbare]) (by rw [hbare])
  · have hparsed : parsed = pure { description := String.ofList (Text.trim text) } :=
      readBlock_of_no_tags htext
    rw [hparsed, readBlock_of_no_tags hagain, ← Text.trim_bare_documentation_iff hfence]
    refine ⟨fun h => ?_, fun h => by rw [h]⟩
    have hrun := congrFun h ({} : Reader)
    rw [Run.pure_apply, Run.pure_apply, Prod.mk.injEq, Except.ok.injEq, Comment.mk.injEq,
      String.ofList_inj] at hrun
    exact hrun.1.1

/-- A class whose documentation begins on its second line, with the next line indented. -/
def indentedDoc : World where
  modules := [("app", [("A", .cls "app.A")])]
  classes := [("app.A", { id := "app.A", home := "app", doc := some "\n    foo\n      bar" })]

/-- Reading the class gives another description than reading its text: the indentation of the second
line is gone. -/
theorem read_agrees_with_parse_indented :
    readClass indentedDoc (.cls "app.A") ≠
      parse indentedDoc "\n    foo\n      bar" .onClass
        (indentedDoc.documented (.cls "app.A")).2 := by
  have h := read_agrees_with_parse (.ofClass "app.A" : Reads indentedDoc _ _ _)
    (d := "\n    foo\n      bar") (by decide +kernel)
  rw [Ne, (h.2.2 (by decide)).2.2 (by decide +kernel) (by decide +kernel)]
  decide +kernel

end Reader
end DocTags
