import DocTags.Proofs.Lines
import DocTags.Proofs.OneLine.Reading

/-!
# Listings cannot be forged

A listing has a line for the description, a line above the tags and one for each tag, a line above
the annotations and one for each type and each annotation.  Values are shown in these lines, and a
value that was read from a text may hold line feeds and whatever else looks like a listing.

Two facts keep the lines apart.  The text of a value that is on one line holds no line feed
(`World.isLine_render`), so no item of a listing goes on in a second line
(`Comment.isLine_of_mem_listingLines`).  And the name of a tag holds no blank, so it ends where the
first colon with a blank stands (`Comment.nameIn_tagLine`).  `Reader.isOneLine_of_parse` says when a
comment that was read is such.

The main result is `listing_line_per_item`.  The keys of tag lists are shown without quotes, and
classes may show their objects as they like, so it asks for both to be without line feeds;
`listing_line_per_item_needs_keys` has listings with one line too many.
-/

namespace DocTags

open Text

/-! ## Lines with their ends -/

namespace Text

lemma splitAt_join {lines : List String} (h : ∀ line ∈ lines, isLine line = true) :
    splitAt '\n' (String.join (lines.map fun line => line ++ "\n")).toList =
      lines.map String.toList ++ [[]] := by
  rw [String.toList_join]
  induction lines with
  | nil => rfl
  | cons line lines ih =>
    obtain ⟨hline, hlines⟩ := List.forall_mem_cons.1 h
    rw [List.map_cons, List.flatMap_cons, String.toList_append, List.append_assoc]
    exact (splitAt_append (isLine_iff.1 hline) _).trans (congrArg _ (ih hlines))

/-- What stands before the first colon that a blank follows. -/
def upToColon : List Char → List Char
  | [] => []
  | c :: cs => if c = ':' ∧ cs.head? = some ' ' then [] else c :: upToColon cs

lemma upToColon_append {name : List Char} (h : ' ' ∉ name) (rest : List Char) :
    upToColon (name ++ ':' :: ' ' :: rest) = name := by
  induction name with
  | nil => rfl
  | cons c name ih =>
    obtain ⟨-, hname⟩ := List.ne_and_not_mem_of_not_mem_cons h
    have hnext : (name ++ ':' :: ' ' :: rest).head? ≠ some ' ' := by
      cases name with
      | nil => simp
      | cons d name => simpa using (List.ne_and_not_mem_of_not_mem_cons hname).1.symm
    rw [List.cons_append, upToColon, if_neg fun hcolon => hnext hcolon.2, ih hname]

lemma isLine_lastPart {name : String} (h : isLine name = true) : isLine (lastPart name) = true := by
  rw [lastPart, isLine_ofList, List.mem_reverse]
  intro hmem
  exact isLine_iff.1 h (List.mem_reverse.1 ((List.takeWhile_sublist _).subset hmem))

end Text

namespace Comment

/-! ## The lines of a listing -/

variable {w : World} {c : Comment}

/-- The line of a tag shows its name and the text of its value. -/
def TagLine (w : World) (tag : String × Value) (line : String) : Prop :=
  ∃ shown, tag.2.render w = .ok shown ∧ line = "  @" ++ tag.1 ++ ": " ++ shown

/-- The lines of the annotations of one type: one for the type, and one for each of them. -/
def Block (w : World) (group : TypeId × List Value) (lines : List String) : Prop :=
  ∃ shown, List.Forall₂ (fun v text => renderAnnotated w v = .ok text) group.2 shown ∧
    lines = ("  " ++ group.1 ++ ":") :: shown.map fun text => "    " ++ text

/-- The text between the first `@` of a line and the first colon behind it that a blank follows. -/
def nameIn (line : String) : String :=
  String.ofList (upToColon ((line.toList.dropWhile (· != '@')).drop 1))

/-- The name of a tag without blanks can be read off its line. -/
lemma nameIn_tagLine {tag : String × Value} (hname : isUnbroken tag.1 = true) {line : String}
    (h : TagLine w tag line) : nameIn line = tag.1 := by
  obtain ⟨shown, -, rfl⟩ := h
  have hblank : ' ' ∉ tag.1.toList := fun hmem => absurd (isUnbroken_iff.1 hname _ hmem) (by decide)
  have hbehind : (("  @" ++ tag.1 ++ ": " ++ shown).toList.dropWhile (· != '@')).drop 1 =
      tag.1.toList ++ ':' :: ' ' :: shown.toList := by
    simp
  rw [nameIn, hbehind, upToColon_append hblank, String.ofList_toList]

lemma annotationLines_eq_ok_iff {group : TypeId × List Value} {lines : List String} :
    annotationLines w group.1 group.2 = .ok lines ↔ Block w group lines := by
  constructor
  · intro h
    obtain ⟨shown, hshown, h⟩ := ok_of_bind h
    exact ⟨shown, mapM_eq_ok_iff.1 hshown, (Except.ok.inj h).symm⟩
  · rintro ⟨shown, hshown, rfl⟩
    rw [annotationLines, mapM_eq_ok_iff.2 hshown]
    rfl

/-- The lines of a listing are those of its items, in their order. -/
lemma listingLines_eq_ok_iff {lines : List String} : c.listingLines w = .ok lines ↔
    ∃ tags blocks, List.Forall₂ (TagLine w) c.tags tags ∧
      List.Forall₂ (Block w) c.annotations blocks ∧
      lines = ("description: " ++ quoted c.description) ::
        (if tags.isEmpty then "tags: none" else "tags:") :: tags ++
        (if blocks.isEmpty then "annotations: none" else "annotations:") :: blocks.flatten := by
  constructor
  · intro h
    obtain ⟨tags, htags, h⟩ := ok_of_bind h
    obtain ⟨blocks, hblocks, h⟩ := ok_of_bind h
    refine ⟨tags, blocks, (mapM_eq_ok_iff.1 htags).imp fun tag line hline => ?_,
      (mapM_eq_ok_iff.1 hblocks).imp fun _ _ => annotationLines_eq_ok_iff.1,
      (Except.ok.inj h).symm⟩
    obtain ⟨shown, hshown, hline⟩ := ok_of_bind hline
    exact ⟨shown, hshown, (Except.ok.inj hline).symm⟩
  · rintro ⟨tags, blocks, htags, hblocks, rfl⟩
    have htags' : (c.tags.mapM fun tag => do
        return "  @" ++ tag.1 ++ ": " ++ (← tag.2.render w)) = .ok tags := by
      refine mapM_eq_ok_iff.2 (htags.imp fun tag line hline => ?_)
      obtain ⟨shown, hshown, rfl⟩ := hline
      rw [hshown]
      rfl
    have hblocks' : (c.annotations.mapM fun group => annotationLines w group.1 group.2) =
        .ok blocks :=
      mapM_eq_ok_iff.2 (hblocks.imp fun _ _ => annotationLines_eq_ok_iff.2)
    rw [listingLines, htags', hblocks']
    rfl

lemma exists_renderAnnotated_iff {v : Value} : (∃ text, renderAnnotated w v = .ok text) ↔
    ∃ fields, w.fieldsOf? v = some fields ∧
      ∀ field ∈ fields, ∃ text, field.2.render w = .ok text := by
  have hfield : ∀ field : String × Value, (∃ part : String,
      (do return field.1 ++ "=" ++ (← field.2.render w) : Except Error String) = .ok part) ↔
        ∃ text, field.2.render w = .ok text := by
    intro field
    cases field.2.render w with
    | error e => exact ⟨nofun, nofun⟩
    | ok text => exact ⟨fun _ => ⟨text, rfl⟩, fun _ => ⟨_, rfl⟩⟩
  unfold renderAnnotated
  cases w.fieldsOf? v with
  | none => simp
  | some fields =>
    have hparts : (∃ parts, (fields.mapM fun field => do
        return field.1 ++ "=" ++ (← field.2.render w) : Except Error (List String)) = .ok parts) ↔
        ∀ field ∈ fields, ∃ text, field.2.render w = .ok text := by
      simp only [mapM_eq_ok_iff, exists_forall₂_iff, hfield]
    simp only [Option.some.injEq, exists_eq_left', ← hparts]
    constructor
    · rintro ⟨text, h⟩
      obtain ⟨parts, hparts, -⟩ := ok_of_bind h
      exact ⟨parts, hparts⟩
    · rintro ⟨parts, hparts⟩
      rw [hparts]
      exact ⟨_, rfl⟩

section Lines

variable (hw : w.isOneLine = true) (htells : w.TellsOnLines)

include hw htells

lemma isLine_renderAnnotated {v : Value} (hv : v.isOneLine = true) {text : String}
    (h : renderAnnotated w v = .ok text) : isLine text = true := by
  unfold renderAnnotated at h
  split at h
  · cases h
  · next fields hfields =>
    obtain ⟨parts, hparts, h⟩ := ok_of_bind h
    obtain rfl := Except.ok.inj h
    refine isLine_enclosed ?_ rfl fun part hpart => ?_
    · rw [isLine_append, Value.sortName, isLine_lastPart (Value.isLine_typeOf hv)]
      rfl
    · obtain ⟨field, hfield, hpart⟩ := exists_of_mem_mapM hparts hpart
      obtain ⟨shown, hshown, hpart⟩ := ok_of_bind hpart
      obtain rfl := Except.ok.inj hpart
      obtain ⟨hname, hvalue⟩ :=
        areFieldsOneLine_iff.1 (World.isOneLine_fieldsOf? hv hfields) field hfield
      rw [isLine_append, isLine_append, hname, World.isLine_render hw htells hvalue hshown]
      rfl

lemma isLine_tagLine {tag : String × Value} (hname : isUnbroken tag.1 = true)
    (hvalue : tag.2.isOneLine = true) {line : String} (h : TagLine w tag line) :
    isLine line = true := by
  obtain ⟨shown, hshown, rfl⟩ := h
  rw [isLine_append, isLine_append, isLine_append, isLine_of_isUnbroken hname,
    World.isLine_render hw htells hvalue hshown]
  rfl

lemma isLine_block {group : TypeId × List Value} (htype : isLine group.1 = true)
    (hvalues : ∀ v ∈ group.2, v.isOneLine = true) {lines : List String} (h : Block w group lines) :
    ∀ line ∈ lines, isLine line = true := by
  obtain ⟨shown, hshown, rfl⟩ := h
  refine List.forall_mem_cons.2 ⟨?_, List.forall_mem_map.2 fun text htext => ?_⟩
  · rw [isLine_append, isLine_append, htype]
    rfl
  · obtain ⟨v, hv, hrender⟩ := exists_of_mem_forall₂ hshown htext
    rw [isLine_append, isLine_renderAnnotated hw htells (hvalues v hv) hrender]
    rfl

/-- A listing has nothing but lines. -/
lemma isLine_of_mem_listingLines (hc : c.IsOneLine) {lines : List String}
    (h : c.listingLines w = .ok lines) : ∀ line ∈ lines, isLine line = true := by
  obtain ⟨tags, blocks, htags, hblocks, rfl⟩ := listingLines_eq_ok_iff.1 h
  have hdescription : isLine ("description: " ++ quoted c.description) = true := by
    rw [isLine_append, isLine_quoted]
    rfl
  have hheading : ∀ (empty : Bool) (none some : String), isLine none = true → isLine some = true →
      isLine (if empty then none else some) = true := by
    intro empty none some hnone hsome
    cases empty
    · exact hsome
    · exact hnone
  refine List.forall_mem_cons.2 ⟨hdescription, List.forall_mem_cons.2 ⟨hheading _ _ _ rfl rfl,
    List.forall_mem_append.2 ⟨fun line hline => ?_, List.forall_mem_cons.2
      ⟨hheading _ _ _ rfl rfl, fun line hline => ?_⟩⟩⟩⟩
  · obtain ⟨tag, htag, hshows⟩ := exists_of_mem_forall₂ htags hline
    exact isLine_tagLine hw htells (hc.tags tag htag).1 (hc.tags tag htag).2 hshows
  · obtain ⟨block, hblock, hline⟩ := List.mem_flatten.1 hline
    obtain ⟨group, hgroup, hshows⟩ := exists_of_mem_forall₂ hblocks hblock
    obtain ⟨htype, hvalues⟩ := hc.annotations group hgroup
    exact isLine_block hw htells htype hvalues hshows line hline

end Lines

lemma length_block {group : TypeId × List Value} {lines : List String} (h : Block w group lines) :
    lines.length = 1 + group.2.length := by
  obtain ⟨shown, hshown, rfl⟩ := h
  rw [List.length_cons, List.length_map, ← hshown.length_eq, Nat.add_comm]

lemma isEmpty_of_forall₂ {α β : Type} {R : α → β → Prop} {xs : List α} {ys : List β}
    (h : List.Forall₂ R xs ys) : xs.isEmpty = ys.isEmpty := by
  cases h <;> rfl

lemma length_blocks {groups : Keyed (List Value)} {blocks : List (List String)}
    (h : List.Forall₂ (Block w) groups blocks) :
    blocks.flatten.length = (groups.map fun group => 1 + group.2.length).sum := by
  induction h with
  | nil => rfl
  | cons hblock _ ih =>
    rw [List.flatten_cons, List.length_append, length_block hblock, ih, List.map_cons,
      List.sum_cons]

/-- There is a listing if there is a text for each value in it. -/
lemma exists_listing_iff : (∃ listed, c.listing w = .ok listed) ↔
    (∀ tag ∈ c.tags, ∃ shown, tag.2.render w = .ok shown) ∧
      ∀ group ∈ c.annotations, ∀ v ∈ group.2, ∃ fields, w.fieldsOf? v = some fields ∧
        ∀ field ∈ fields, ∃ shown, field.2.render w = .ok shown := by
  have htags : (∃ tags, List.Forall₂ (TagLine w) c.tags tags) ↔
      ∀ tag ∈ c.tags, ∃ shown, tag.2.render w = .ok shown := by
    rw [exists_forall₂_iff]
    refine forall₂_congr fun tag _ => ?_
    exact ⟨fun ⟨_, shown, hshown, _⟩ => ⟨shown, hshown⟩,
      fun ⟨shown, hshown⟩ => ⟨_, shown, hshown, rfl⟩⟩
  have hblocks : (∃ blocks, List.Forall₂ (Block w) c.annotations blocks) ↔
      ∀ group ∈ c.annotations, ∀ v ∈ group.2, ∃ text, renderAnnotated w v = .ok text := by
    rw [exists_forall₂_iff]
    refine forall₂_congr fun group _ => ?_
    rw [← exists_forall₂_iff]
    exact ⟨fun ⟨_, shown, hshown, _⟩ => ⟨shown, hshown⟩,
      fun ⟨shown, hshown⟩ => ⟨_, shown, hshown, rfl⟩⟩
  simp only [← exists_renderAnnotated_iff, ← htags, ← hblocks]
  constructor
  · rintro ⟨listed, h⟩
    obtain ⟨lines, hlines, -⟩ := ok_of_bind h
    obtain ⟨tags, blocks, htags, hblocks, -⟩ := listingLines_eq_ok_iff.1 hlines
    exact ⟨⟨tags, htags⟩, blocks, hblocks⟩
  · rintro ⟨⟨tags, htags⟩, blocks, hblocks⟩
    rw [listing, listingLines_eq_ok_iff.2 ⟨tags, blocks, htags, hblocks, rfl⟩]
    exact ⟨_, rfl⟩

end Comment

namespace Reader

open Comment

/-- The listing of a comment that was read has a line for each item and no other lines: three, one
for each tag, and one for each type of annotations and for each annotation, in the order of the
comment.  The line of a tag shows its name and the text of its value, and the name can be read off
it.  There is a listing unless one of the values has no text. -/
theorem listing_line_per_item (w : World) (text : String) (placement : Placement) (scope : Scope)
    (r r' : Reader) (c : Comment) (h : parse w text placement scope r = (.ok c, r'))
    (hw : w.isOneLine = true) (htells : w.TellsOnLines) (hscope : scope.isOneLine = true)
    (hr : r.names.isOneLine = true)
    (hr' : ∀ type s, r'.resolved.get? type = some s → s.isOneLine = true) :
    ((∃ listed, c.listing w = .ok listed) ↔
      (∀ tag ∈ c.tags, ∃ shown, tag.2.render w = .ok shown) ∧
        ∀ group ∈ c.annotations, ∀ v ∈ group.2, ∃ fields, w.fieldsOf? v = some fields ∧
          ∀ field ∈ fields, ∃ shown, field.2.render w = .ok shown) ∧
    ∀ listed, c.listing w = .ok listed → ∃ lines tags blocks,
      splitAt '\n' listed.toList = lines.map String.toList ++ [[]] ∧
      lines.length =
        3 + c.tags.length + (c.annotations.map fun group => 1 + group.2.length).sum ∧
      lines = ("description: " ++ quoted c.description) ::
        (if c.tags.isEmpty then "tags: none" else "tags:") :: tags ++
        (if c.annotations.isEmpty then "annotations: none" else "annotations:") ::
          blocks.flatten ∧
      List.Forall₂ (fun tag line => TagLine w tag line ∧ nameIn line = tag.1) c.tags tags ∧
      List.Forall₂ (Block w) c.annotations blocks := by
  have hc := isOneLine_of_parse hw hscope hr hr' h
  refine ⟨exists_listing_iff, fun listed hlisted => ?_⟩
  obtain ⟨lines, hlines, hlisted⟩ := ok_of_bind hlisted
  obtain rfl := Except.ok.inj hlisted
  have hsplit := splitAt_join (isLine_of_mem_listingLines hw htells hc hlines)
  obtain ⟨tags, blocks, htags, hblocks, rfl⟩ := listingLines_eq_ok_iff.1 hlines
  have hnames : List.Forall₂ (fun tag line => TagLine w tag line ∧ nameIn line = tag.1) c.tags
      tags :=
    ((List.forall₂_and_left _ _).2 ⟨fun tag htag => (hc.tags tag htag).1, htags⟩).imp
      fun tag line hline => ⟨hline.2, nameIn_tagLine hline.1 hline.2⟩
  refine ⟨_, tags, blocks, hsplit, ?_, ?_, hnames, hblocks⟩
  · simp only [List.length_append, List.length_cons, length_blocks hblocks, ← htags.length_eq]
    omega
  · rw [isEmpty_of_forall₂ htags, isEmpty_of_forall₂ hblocks]

/-- Two classes and a constant.  The second class has a method that shows its objects, with the same
text for all of them, or without any. -/
def constantWorld (x : Value) (told : Option String) : World where
  modules := [("app", [("A", .cls "app.A"), ("T", .cls "app.T"), ("X", x)])]
  classes :=
    [("app.A", { id := "app.A", home := "app" }),
      ("app.T",
        { id := "app.T", home := "app", rendered := fun _ => told
          members := [("__repr__", .routine { name := "__repr__", home := "app" })] })]

lemma tellsOnLines_constantWorld {x : Value} {told : Option String}
    (h : ∀ text ∈ told, isLine text = true) : (constantWorld x told).TellsOnLines := by
  refine List.forall_mem_cons.2 ⟨fun own hown => ?_, List.forall_mem_singleton.2 fun own hown => ?_⟩
  · cases hown
  · have hlook : World.ownLook? ((constantWorld x told).classOf "app.T") =
        some (.own fun _ => told) := rfl
    cases hlook.symm.trans hown
    exact fun _ text _ => h text

/-- A new reader for which the first class is registered with one attribute. -/
def constantReader : Reader :=
  (start [] true).register "app.A"
    { defaultAttribute := some "x", attributes := [("x", { name := "x" })] }

lemma eq_ok_of_toOption {ε α : Type} {x : Except ε α} {a : α} (h : x.toOption = some a) :
    x = .ok a := by
  cases x with
  | error e => cases h
  | ok b => exact congrArg _ (Option.some.inj h)

/-- The value of the tag and that of the second annotation hold line feeds, and the constant holds
an object that shows itself. -/
theorem listing_line_per_item_quoted :
    let w := constantWorld (.tags [(none, .int 1), (some "b", .object (.built none) "app.T" [])])
      (some "one T")
    let scope := w.scopeOf "app"
    let text := "@author 'Bob\n@since 2' @app.A(X) @app.A('a\nb')"
    let listed := "description: ''\ntags:\n  @author: \"'Bob\\n@since 2'\"\n" ++
      "annotations:\n  app.A:\n    A(x=\x7b1, b: one T\x7d)\n    A(x='a\\nb')\n"
    w.isOneLine = true ∧ w.TellsOnLines ∧ scope.isOneLine = true ∧
    constantReader.names.isOneLine = true ∧
    ∃ c r', parse w text .onClass scope constantReader = (.ok c, r') ∧
      (∀ type s, r'.resolved.get? type = some s → s.isOneLine = true) ∧
      (∀ tag ∈ c.tags, ∃ shown, tag.2.render w = .ok shown) ∧
      c.listing w = .ok listed ∧
      ∃ lines tags : List String, splitAt '\n' listed.toList = lines.map String.toList ++ [[]] ∧
        lines.length = 7 ∧
        List.Forall₂ (fun tag line => TagLine w tag line ∧ nameIn line = tag.1) c.tags tags := by
  intro w scope text listed
  have hw : w.isOneLine = true := by decide +kernel
  have htells : w.TellsOnLines := tellsOnLines_constantWorld (by decide)
  have hscope : scope.isOneLine = true := by decide +kernel
  have hnames : constantReader.names.isOneLine = true := by decide +kernel
  have hcount : (parse w text .onClass scope constantReader).1.toOption.map (fun c =>
      3 + c.tags.length + (c.annotations.map fun group => 1 + group.2.length).sum) = some 7 := by
    decide +kernel
  have hlisted : ((parse w text .onClass scope constantReader).1.toOption.bind fun c =>
      (c.listing w).toOption) = some listed := by
    decide +kernel
  have hresolved : (parse w text .onClass scope constantReader).2.resolved.all
      (fun entry => entry.2.isOneLine) = true := by
    decide +kernel
  rcases hrun : parse w text .onClass scope constantReader with ⟨e | c, r'⟩ <;>
    rw [hrun] at hcount hlisted hresolved
  · cases hcount
  · have hlists : c.listing w = .ok listed := eq_ok_of_toOption hlisted
    have hr' : ∀ type s, r'.resolved.get? type = some s → s.isOneLine = true := fun type s hs =>
      List.all_eq_true.1 hresolved _ (Keyed.mem_of_get? hs)
    obtain ⟨hiff, hform⟩ := listing_line_per_item w text .onClass scope constantReader r' c hrun hw
      htells hscope hnames hr'
    obtain ⟨lines, tags, blocks, hsplit, hlength, -, htags, -⟩ := hform listed hlists
    exact ⟨hw, htells, hscope, hnames, c, r', rfl, hr', (hiff.1 ⟨listed, hlists⟩).1, hlists, lines,
      tags, hsplit, hlength.trans (Option.some.inj hcount), htags⟩

/-- Reads an annotation with the constant as its argument. -/
def readConstant (x : Value) (told : Option String) : Except Error Comment × Reader :=
  parse (constantWorld x told) "@app.A(X)" .onClass ((constantWorld x told).scopeOf "app")
    constantReader

/-- Classes and attributes have names without line feeds.  If the key of a constant has one, or the
text that an object gives of itself, then the one annotation in the text takes two lines of the
listing.  If the object gives no text, there is no listing. -/
theorem listing_line_per_item_needs_keys :
    let keyed : Value := .tags [(none, .int 1), (some "a\nb", .int 2)]
    let object : Value := .object (.built none) "app.T" []
    let listed (shown : String) :=
      "description: ''\ntags: none\nannotations:\n  app.A:\n    A(x=" ++ shown ++ ")\n"
    (∀ x ∈ [keyed, object], ∀ told ∈ [none, some "a\nb"],
      (∀ entry ∈ (constantWorld x told).classes, isLine entry.1 = true) ∧
      ∀ entry ∈ (readConstant x told).2.declared ++ (readConstant x told).2.resolved,
        isLine entry.1 = true ∧ ∀ spec ∈ entry.2.attributes, isLine spec.1 = true) ∧
    (∀ forged ∈ [(keyed, none, "\x7b1, a\nb: 2\x7d"), (object, some "a\nb", "a\nb")],
      ∃ c, (readConstant forged.1 forged.2.1).1 = .ok c ∧
        c.listing (constantWorld forged.1 forged.2.1) = .ok (listed forged.2.2) ∧
        (listed forged.2.2).toList.count '\n' ≠
          3 + c.tags.length + (c.annotations.map fun group => 1 + group.2.length).sum) ∧
    ∃ c, (readConstant object none).1 = .ok c ∧
      ∀ listed, c.listing (constantWorld object none) ≠ .ok listed := by
  intro keyed object listed
  have hnames : ∀ x ∈ [keyed, object], ∀ told ∈ [none, some "a\nb"],
      (∀ entry ∈ (constantWorld x told).classes, isLine entry.1 = true) ∧
      ∀ entry ∈ (readConstant x told).2.declared ++ (readConstant x told).2.resolved,
        isLine entry.1 = true ∧ ∀ spec ∈ entry.2.attributes, isLine spec.1 = true := by
    decide +kernel
  have hforged : ∀ forged ∈ [(keyed, none, "\x7b1, a\nb: 2\x7d"), (object, some "a\nb", "a\nb")],
      (readConstant forged.1 forged.2.1).1.toOption.map (fun c =>
        (3 + c.tags.length + (c.annotations.map fun group => 1 + group.2.length).sum,
          (c.listing (constantWorld forged.1 forged.2.1)).toOption)) =
        some (5, some (listed forged.2.2)) ∧
      (listed forged.2.2).toList.count '\n' = 6 := by
    decide +kernel
  have hunlisted : ((readConstant object none).1.toOption.map fun c =>
      (c.listing (constantWorld object none)).toOption) = some none := by
    decide +kernel
  obtain ⟨c', hc', hunlisted⟩ := Option.map_eq_some_iff.1 hunlisted
  refine ⟨hnames, fun forged hmem => ?_, c', eq_ok_of_toOption hc', fun listed h => ?_⟩
  · obtain ⟨hread, hlines⟩ := hforged forged hmem
    obtain ⟨c, hc, hread⟩ := Option.map_eq_some_iff.1 hread
    obtain ⟨hcount, hlisted⟩ := Prod.mk.inj hread
    refine ⟨c, eq_ok_of_toOption hc, eq_ok_of_toOption hlisted, ?_⟩
    rw [hlines, hcount]
    decide
  · rw [h] at hunlisted
    cases hunlisted

end Reader
end DocTags
