import DocTags.Proofs.Causes.Reading
import DocTags.Proofs.Resolution
import DocTags.Reader.Operations

/-!
# One unnamed argument

Whether an argument may go without a name is decided when the separator behind it is read, by
whether the list has an entry already.

The parts of a list are what stands between its own commas (`Token.parts`); the lists inside it are
passed over by counting brackets.  A list that is closed takes up as many brackets as it opens, so
the reader of the list and the count agree on where a part ends (`Entries.Reads.ownTokens_eq`).  An
unnamed argument is refused only if there is a part behind the first with neither a colon in it nor
blanks alone (`Entries.Reads.lacks`).  That lists of arguments have keys behind the first value is
shown in `DocTags.Proofs.Causes.Unnamed`.

So no annotation is built of several unnamed values, be it in the text or in documentation that is
read for a schema (`Reader.single_resolveWithin`).
-/

namespace DocTags

/-! ## The parts of a list -/

namespace Token

def opens (t : Token) : Bool :=
  t.kind == .leftBrace || t.kind == .leftParen

def closes (t : Token) : Bool :=
  t.kind == .rightBrace || t.kind == .rightParen

/-- The tokens up to the end of a list that are in none of the lists inside it, at some depth of
such lists.  What opens a list inside is one of them, and stands for that list. -/
def ownTokens : Nat → List Token → List Token
  | _, [] => []
  | 0, t :: ts =>
    if t.closes then [] else if t.opens then t :: ownTokens 1 ts else t :: ownTokens 0 ts
  | depth + 1, t :: ts =>
    if t.closes then ownTokens depth ts
    else if t.opens then ownTokens (depth + 2) ts else ownTokens (depth + 1) ts

/-- What stands between the commas of a list. -/
def parts (ts : List Token) : List (List Token) :=
  (ownTokens 0 ts).splitOnP fun t => t.kind == .comma

/-- A part of a list with a value that has no key. -/
def IsUnnamed (part : List Token) : Prop :=
  (∀ t ∈ part, t.kind ≠ .colon) ∧ ∃ t ∈ part, t.kind ≠ .whitespace

section Parts

variable {t : Token} {ts us : List Token}

lemma plain_of_kind {kind : TokenKind} (h : t.kind = kind)
    (hkind : kind ∉ [.leftBrace, .leftParen, .rightBrace, .rightParen]) :
    t.closes = false ∧ t.opens = false := by
  subst h
  simp only [List.mem_cons, List.not_mem_nil, or_false, not_or] at hkind
  obtain ⟨hbrace, hparen, hbrace', hparen'⟩ := hkind
  exact ⟨by simp [closes, hbrace', hparen'], by simp [opens, hbrace, hparen]⟩

lemma closes_of_opens (h : t.opens = true) : t.closes = false := by
  rcases Bool.or_eq_true_iff.1 h with h | h <;> simp [closes, beq_iff_eq.1 h]

lemma ownTokens_of_kind {kind : TokenKind} (h : t.kind = kind)
    (hkind : kind ∉ [.leftBrace, .leftParen, .rightBrace, .rightParen]) :
    ownTokens 0 (t :: ts) = t :: ownTokens 0 ts := by
  obtain ⟨hcloses, hopens⟩ := plain_of_kind h hkind
  rw [ownTokens, hcloses, hopens]
  rfl

lemma ownTokens_inside_of_kind {kind : TokenKind} (h : t.kind = kind)
    (hkind : kind ∉ [.leftBrace, .leftParen, .rightBrace, .rightParen]) (depth : Nat) :
    ownTokens (depth + 1) (t :: ts) = ownTokens (depth + 1) ts := by
  obtain ⟨hcloses, hopens⟩ := plain_of_kind h hkind
  rw [ownTokens, hcloses, hopens]
  rfl

lemma ownTokens_opens (h : t.opens = true) : ownTokens 0 (t :: ts) = t :: ownTokens 1 ts := by
  rw [ownTokens, closes_of_opens h, h]
  rfl

lemma ownTokens_opens_inside (h : t.opens = true) (depth : Nat) :
    ownTokens (depth + 1) (t :: ts) = ownTokens (depth + 2) ts := by
  rw [ownTokens, closes_of_opens h, h]
  rfl

lemma ownTokens_closes_inside (h : t.closes = true) (depth : Nat) :
    ownTokens (depth + 1) (t :: ts) = ownTokens depth ts := by
  rw [ownTokens, h]
  rfl

lemma parts_ne_nil (ts : List Token) : parts ts ≠ [] :=
  List.splitOnP_ne_nil _ _

/-- A token that is no comma belongs to the first part. -/
lemma parts_of_own (h : ownTokens 0 (t :: ts) = t :: ownTokens 0 us) (hcomma : t.kind ≠ .comma) :
    parts (t :: ts) = (parts us).modifyHead (t :: ·) := by
  rw [parts, h, List.splitOnP_cons_eq_if_modifyHead, if_neg (by simp [hcomma])]
  rfl

lemma parts_comma (hcomma : t.kind = .comma) : parts (t :: ts) = [] :: parts ts := by
  rw [parts, ownTokens_of_kind hcomma (by simp), List.splitOnP_cons_eq_if_modifyHead,
    if_pos (by simp [hcomma])]
  rfl

lemma parts_closes (hcloses : t.closes = true) : parts (t :: ts) = [[]] := by
  rw [parts, ownTokens, hcloses]
  exact List.splitOnP_nil

end Parts

end Token

namespace Entries

open Token (ownTokens parts IsUnnamed)

/-- The error at which a list breaks off. -/
def fault? : Entries → Option Error
  | .closed => none
  | .entry _ _ rest => rest.fault?
  | .broken _ e => some e

section Reading

variable {eof : Token} {g : Grammar} {closing : TokenKind} {started : Bool} {key : Option String}
  {pending : Option Pending} {t : Token} {ts rest : List Token} {es : Entries}

lemma closes_of_kind (hclosing : closing = .rightBrace ∨ closing = .rightParen)
    (ht : t.kind = closing) : t.closes = true := by
  rcases hclosing with rfl | rfl <;> simp [Token.closes, ht]

lemma kind_of_list (h : action g closing started key pending t = .list) :
    t.kind = .leftBrace := by
  cases acts_of_action h with
  | list ht _ => exact ht

lemma kind_of_annotated (h : action g closing started key pending t = .annotated) :
    t.kind = .atSign := by
  cases acts_of_action h with
  | annotated ht _ => exact ht

/-- A list that is closed is passed over by counting brackets. -/
lemma Reads.ownTokens_eq (h : Reads eof g closing started key pending ts es rest)
    (hes : IsClosed es) (hclosing : closing = .rightBrace ∨ closing = .rightParen) (depth : Nat) :
    ownTokens (depth + 1) ts = ownTokens depth rest := by
  induction h generalizing depth with
  | ended => cases hes
  | go h _ ih =>
    refine Eq.trans ?_ (ih hes hclosing depth)
    cases acts_of_action h with
    | blank ht | key ht _ _ => exact Token.ownTokens_inside_of_kind ht (by simp) depth
    | word ht _ =>
      rcases ht with ht | ht <;> exact Token.ownTokens_inside_of_kind ht (by simp) depth
  | list h hinner hrest ihinner ih =>
    rw [Token.ownTokens_opens_inside (by simp [Token.opens, kind_of_list h]),
      ihinner (hinner.isClosed_of_behind hrest hes) (.inl rfl), ih hes hclosing]
  | annotated h hname hinner hrest ihinner ih =>
    obtain ⟨word, opening, rfl, hword, -, hopening⟩ := exists_of_annotated? hname
    rw [Token.ownTokens_inside_of_kind (kind_of_annotated h) (by simp),
      Token.ownTokens_inside_of_kind hword (by simp),
      Token.ownTokens_opens_inside (by simp [Token.opens, hopening]),
      ihinner (hinner.isClosed_of_behind hrest hes) (.inr rfl), ih hes hclosing]
  | @unannotated _ _ _ _ _ _ ts _ _ => cases ts <;> cases hes
  | file h _ ih =>
    cases hes with
    | entry hes =>
      cases acts_of_action h with
      | file ht _ _ =>
        rw [Token.ownTokens_inside_of_kind ht (by simp), ih hes hclosing]
  | close h =>
    cases acts_of_action h with
    | last ht _ _ | close ht =>
      exact Token.ownTokens_closes_inside (closes_of_kind hclosing ht) depth
  | fail _ => cases hes

/-! ## Refused arguments -/

/-- The value before the next separator is behind the first and has no key, or a later part has
none.  Of what stands before that separator a part is ahead; the key and the value that were read
already are given. -/
def Lacks (started : Bool) (key : Option String) (pending : Option Pending) :
    List (List Token) → Prop
  | [] => False
  | part :: others =>
    (∃ other ∈ others, IsUnnamed other) ∨
      started = true ∧ key = none ∧ (∀ t ∈ part, t.kind ≠ .colon) ∧
        (pending.isSome = true ∨ ∃ t ∈ part, t.kind ≠ .whitespace)

section Lacks

variable {pending' : Option Pending} {ps : List (List Token)}

/-- One more token ahead changes nothing, if it is no colon and no value was read but from it. -/
lemma Lacks.push (h : Lacks started key pending' ps) (hcolon : t.kind ≠ .colon)
    (hpending : pending'.isSome = true → pending.isSome = true ∨ t.kind ≠ .whitespace) :
    Lacks started key pending (ps.modifyHead (t :: ·)) := by
  cases ps with
  | nil => exact h
  | cons part others =>
    refine h.imp_right fun ⟨hstarted, hkey, hpart, hvalue⟩ =>
      ⟨hstarted, hkey, List.forall_mem_cons.2 ⟨hcolon, hpart⟩, ?_⟩
    rcases hvalue with hvalue | ⟨u, hu, hblank⟩
    · exact (hpending hvalue).imp_right fun hblank => ⟨t, List.mem_cons_self, hblank⟩
    · exact .inr ⟨u, List.mem_cons_of_mem t hu, hblank⟩

/-- A token ahead that begins or continues a value changes nothing. -/
lemma Lacks.ahead {us : List Token} (h : Lacks started key pending' (parts us))
    (hown : ownTokens 0 (t :: ts) = t :: ownTokens 0 us)
    (hkind : t.kind ∉ [.comma, .colon, .whitespace]) :
    Lacks started key pending (parts (t :: ts)) := by
  simp only [List.mem_cons, List.not_mem_nil, or_false, not_or] at hkind
  rw [Token.parts_of_own hown hkind.1]
  exact h.push hkind.2.1 fun _ => .inr hkind.2.2

/-- Behind a key only later parts matter. -/
lemma Lacks.of_key {name : String} (h : Lacks started (some name) pending' ps) (t : Token) :
    Lacks started key pending (ps.modifyHead (t :: ·)) := by
  cases ps with
  | nil => exact h
  | cons part others => exact .inl (h.resolve_right fun hfirst => nomatch hfirst.2.1)

/-- Behind a comma a value without a key is a part of its own. -/
lemma Lacks.exists_isUnnamed (h : Lacks started key none ps) : ∃ part ∈ ps, IsUnnamed part := by
  cases ps with
  | nil => cases h
  | cons part others =>
    rcases h with ⟨other, hother, hunnamed⟩ | ⟨-, -, hcolon, hvalue⟩
    · exact ⟨other, List.mem_cons_of_mem part hother, hunnamed⟩
    · exact ⟨part, List.mem_cons_self, hcolon, hvalue.resolve_left Bool.false_ne_true⟩

end Lacks

/-- A value without a key is refused behind the first only. -/
lemma lacks_of_refused {p : Pending} {token : Option Token} (hpending : pending = some p)
    (h : p.item g closing started key = .error (.malformed .unnamedNotFirst token))
    (others : List (List Token)) : Lacks started key pending ([] :: others) := by
  subst hpending
  unfold Pending.item at h
  split at h
  · next hcond =>
    simp only [Bool.and_eq_true, Option.isNone_iff_eq_none] at hcond
    exact .inr ⟨hcond.2, hcond.1.1, List.forall_mem_nil _, .inl rfl⟩
  · cases p with
    | token t =>
      obtain ⟨fault, hfault, -, hother⟩ | ⟨n, hmany⟩ := error_of_itemOf h
      · cases hfault
        exact absurd rfl hother
      · cases hmany
    | nested item t => cases h

/-- A list that breaks off because of an unnamed value has one behind the first part. -/
lemma Reads.lacks {token : Option Token}
    (h : Reads eof g closing started key pending ts es rest)
    (hclosing : closing = .rightBrace ∨ closing = .rightParen)
    (hfault : es.fault? = some (.malformed .unnamedNotFirst token)) :
    Lacks started key pending (parts ts) := by
  induction h with
  | ended => cases hfault
  | go h _ ih =>
    have hrest := ih hclosing hfault
    cases acts_of_action h with
    | blank ht =>
      rw [Token.parts_of_own (Token.ownTokens_of_kind ht (by simp)) (by simp [ht])]
      exact hrest.push (by simp [ht]) .inl
    | key ht _ _ =>
      rw [Token.parts_of_own (Token.ownTokens_of_kind ht (by simp)) (by simp [ht])]
      exact hrest.of_key _
    | word ht _ =>
      rcases ht with ht | ht
      · exact hrest.ahead (Token.ownTokens_of_kind ht (by simp)) (by simp [ht])
      · exact hrest.ahead (Token.ownTokens_of_kind ht (by simp)) (by simp [ht])
  | @list g closing started key pending t ts behind rest inner es h hinner hrest _ ih =>
    rcases hinner.isClosed_or_nil with hclosed | rfl
    · have ht := kind_of_list h
      have hown : ownTokens 0 (t :: ts) = t :: ownTokens 1 ts :=
        Token.ownTokens_opens (by simp [Token.opens, ht])
      rw [hinner.ownTokens_eq hclosed (.inl rfl)] at hown
      exact (ih hclosing hfault).ahead hown (by simp [ht])
    · -- The text ends inside the list, and that is the fault.
      cases hrest
      cases hfault
  | @annotated g closing started key pending t _ ts us behind rest inner es h hname hinner hrest _
      ih =>
    rcases hinner.isClosed_or_nil with hclosed | rfl
    · obtain ⟨word, opening, rfl, hword, -, hopening⟩ := exists_of_annotated? hname
      have ht := kind_of_annotated h
      have hown : ownTokens 0 (opening :: us) = opening :: ownTokens 1 us :=
        Token.ownTokens_opens (by simp [Token.opens, hopening])
      rw [hinner.ownTokens_eq hclosed (.inr rfl)] at hown
      have hopened : Lacks started key pending (parts (opening :: us)) :=
        (ih hclosing hfault).ahead hown (by simp [hopening])
      have hnamed : Lacks started key pending (parts (word :: opening :: us)) :=
        hopened.ahead (Token.ownTokens_of_kind hword (by simp)) (by simp [hword])
      exact hnamed.ahead (Token.ownTokens_of_kind ht (by simp)) (by simp [ht])
    · cases hrest
      cases hfault
  | @unannotated _ _ _ _ _ _ ts _ _ =>
    cases ts with
    | nil => cases hfault
    | cons name ts =>
      rw [Entries.unannotated, brokenAt, fault?] at hfault
      split at hfault <;> cases hfault
  | file h _ ih =>
    cases acts_of_action h with
    | file ht _ _ =>
      rw [Token.parts_comma ht]
      exact .inl (ih hclosing hfault).exists_isUnnamed
  | @close _ _ _ _ _ last _ _ _ => cases last <;> cases hfault
  | fail h =>
    cases hfault
    cases acts_of_action h with
    | refused ht hpending hitem =>
      rcases ht with ht | ht
      · rw [Token.parts_comma ht]
        exact lacks_of_refused hpending hitem _
      · rw [Token.parts_closes (closes_of_kind hclosing ht)]
        exact lacks_of_refused hpending hitem _
    | fail _ hother _ => exact absurd rfl hother

end Reading

end Entries

/-! ## Annotations of several unnamed values -/

namespace Reader

open Run (IsOrdinary Parallel)

/-- The same error, and not that several values have no name. -/
def Single (e e' : Error) (_ : Reader) : Prop :=
  e = e' ∧ ∀ type, e ≠ .severalUnnamed type

lemma tolerates_single : Tolerates Single where
  ordinary {e} he r := by
    refine ⟨rfl, fun type htype => ?_⟩
    subst htype
    cases he
  noAccessor r := ⟨rfl, fun type htype => nomatch htype⟩

lemma single_of_found {text : List Char} {e : Error}
    (h : FoundIn (Token.ending text) (Token.pieces text) e) (r : Reader) : Single e e r := by
  cases h <;> exact ⟨rfl, fun type htype => nomatch htype⟩

/-- A run that never fails because several values have no name. -/
abbrev IsSingle {α : Type} (x : Run Reader α) : Prop :=
  Parallel Single x x

section Single

variable {w : World} {so ancestorOf : TypeId → Run Reader Schema}

lemma single_finish (type : TypeId) (s : Schema) : IsSingle (finish w type s) :=
  (ordinary_finish w type s).parallel tolerates_single

lemma single_read {x : Setting} (hso : ∀ type, IsSingle (x.schemaOf type)) (block : List Char) :
    IsSingle (x.read block) :=
  Setting.parallel_read tolerates_single hso block fun _ _ _ he => single_of_found he

lemma single_resolveDeclared (hancestor : ∀ type, IsSingle (ancestorOf type)) (type : TypeId)
    (s : Schema) : IsSingle (resolveDeclared w ancestorOf type s) := by
  unfold resolveDeclared
  dsimp only
  split
  · exact single_finish type s
  · exact ((IsOrdinary.onNames (Names.ordinary_resolve w [] _)).parallel
      tolerates_single).andThen fun parent => (hancestor parent).andThen fun _ =>
        single_finish type _

lemma single_inherited (hancestor : ∀ type, IsSingle (ancestorOf type)) (found : TypeId) :
    IsSingle (inherited w ancestorOf found) := by
  unfold inherited
  split
  · next parent _ =>
    have hremember : (remember parent).IsOrdinary := fun _ => .ok _
    exact (hremember.parallel tolerates_single).andThen fun _ => (hancestor parent).andThen fun _ =>
      .pure _
  · exact .pure _

lemma single_readClassWith (hso : ∀ type, IsSingle (so type)) (type found : TypeId) :
    IsSingle (readClassWith w so type found) := by
  unfold readClassWith
  refine Parallel.andThen (.same fun _ _ _ h => nomatch h) fun r => ?_
  split
  · exact single_read hso _
  · exact .throw fun _ => tolerates_single.ordinary rfl _

lemma single_introspect (hso : ∀ type, IsSingle (so type))
    (hancestor : ∀ type, IsSingle (ancestorOf type)) (type : TypeId) :
    IsSingle (introspect w so ancestorOf type) := by
  unfold introspect
  refine ((IsOrdinary.onNames (Names.ordinary_load w type)).parallel
    tolerates_single).andThen fun found => ?_
  refine (single_inherited hancestor found).andThen fun s => ?_
  refine (single_readClassWith hso type found).andThen fun c => ?_
  split
  · exact ((ordinary_declarations w found c).parallel tolerates_single).andThen fun d =>
      (single_finish type _).andThen fun _ => .pure _
  · exact .pure _

lemma single_resolveFresh (hso : ∀ type, IsSingle (so type))
    (hancestor : ∀ type, IsSingle (ancestorOf type)) (type : TypeId) (declared : Option Schema) :
    IsSingle (resolveFresh w so ancestorOf type declared) := by
  cases declared with
  | some s => exact (single_resolveDeclared hancestor type s).andThen fun _ => .pure _
  | none => exact single_introspect hso hancestor type

end Single

variable (w : World)

/-- Resolving a schema never fails because several values in some documentation have no name. -/
lemma single_resolveWithin (n : Nat) (asAncestor : Bool) (type : TypeId) :
    IsSingle (resolveWithin w n asAncestor type) := by
  induction n using Nat.strongRecOn generalizing asAncestor type with
  | _ n ih =>
  refine .same fun r e r' hrun => ?_
  cases hc : r.resolved.get? type with
  | some s =>
    rw [resolveWithin_cached hc] at hrun
    cases hrun
  | none =>
    by_cases hs : type ∈ r.stack
    · rw [resolveWithin_cycle hc hs] at hrun
      cases hrun
      exact ⟨rfl, fun other hother => nomatch hother⟩
    cases n with
    | zero =>
      rw [resolveWithin_zero hc hs] at hrun
      cases hrun
      exact ⟨rfl, fun other hother => nomatch hother⟩
    | succ n =>
      have hfresh : IsSingle (resolveBy w r.declared type (resolveWithin w n)) :=
        single_resolveFresh (ih n (Nat.lt_succ_self n) false) (ih n (Nat.lt_succ_self n) true) type
          _
      rw [resolveWithin_fresh hc hs] at hrun
      rcases hby : resolveBy w r.declared type (resolveWithin w n) (opened type r) with
        ⟨e' | ⟨s, isType⟩, r₁⟩
      · rw [hby] at hrun
        cases hrun
        have hsingle : Single e e r₁ := hfresh.of_error hby
        exact hsingle
      · rw [hby] at hrun
        cases isType with
        | true => cases hrun
        | false =>
          cases asAncestor with
          | true => cases hrun
          | false =>
            cases hrun
            exact tolerates_single.ordinary rfl _

lemma single_parse (text : String) (placement : Placement) (scope : Scope) :
    IsSingle (parse w text placement scope) := by
  unfold parse readBlock
  exact Parallel.andThen (.same fun _ _ _ h => nomatch h) fun r =>
    single_read (single_resolveWithin w (depth w r) false) text.toList

end Reader

/-! ## The main result -/

open TagList (OthersNamed)
open Token (parts IsUnnamed)

/-- Lists of arguments have values without a key as their first ones only, whether they are read by
themselves or inside another list, and from whatever tokens.  In the other direction a list is not
refused for such a value if no part of it behind the first is one.  No text makes an annotation out
of several unnamed values. -/
theorem unnamed_argument_comes_first :
    (∀ (x : Setting) (eof : Token) (g : Grammar) (ts : List Token),
      (∀ r tags r', x.entries (Entries.read eof g .rightParen ts).1 [] r = (.ok tags, r') →
        OthersNamed tags ∧ (TagList.positional tags).length ≤ 1) ∧
      ∀ closing, ∀ args ∈ (Entries.read eof g closing ts).1.argumentLists,
        (∃ us, us <:+ ts ∧ (Entries.read eof .argument .rightParen us).1 = args) ∧
        ∀ r tags r', x.entries args [] r = (.ok tags, r') →
          OthersNamed tags ∧ (TagList.positional tags).length ≤ 1) ∧
    (∀ (eof : Token) (g : Grammar) (ts : List Token),
      (∀ part ∈ (parts ts).tail, ¬ IsUnnamed part) →
        ∀ token, (Entries.read eof g .rightParen ts).1.fault? ≠
          some (.malformed .unnamedNotFirst token)) ∧
    ∀ (w : World) (text : String) (placement : Placement) (scope : Scope) (r : Reader)
      (type : TypeId),
      (Reader.parse w text placement scope r).1 ≠ .error (.severalUnnamed type) := by
  have hvalue : ∀ (x : Setting) (args : Entries), args.OthersNamed → ∀ r tags r',
      x.entries args [] r = (.ok tags, r') →
        OthersNamed tags ∧ (TagList.positional tags).length ≤ 1 := by
    intro x args hargs r tags r' hrun
    have hothers := Setting.othersNamed_of_entries hargs hrun
    exact ⟨hothers, hothers.oneUnnamed tags rfl⟩
  refine ⟨fun x eof g ts => ⟨hvalue x _ ?_, fun closing args hargs => ?_⟩,
    fun eof g ts hparts token hfault => ?_, fun w text placement scope r type hfails => ?_⟩
  · exact ((Entries.reads_outcome eof g .rightParen false none none ts).allNamed rfl).1
  · have hread : Entries.IsRead eof ts args :=
      (Entries.reads_outcome eof g closing false none none ts).exists_read (List.suffix_refl ts)
        nofun args hargs
    exact ⟨hread, hvalue x args hread.othersNamed⟩
  · have hlacks :=
      (Entries.reads_outcome eof g .rightParen false none none ts).lacks (.inr rfl) hfault
    obtain ⟨part, others, hsplit⟩ := List.exists_cons_of_ne_nil (Token.parts_ne_nil ts)
    rw [hsplit] at hlacks hparts
    rcases hlacks with ⟨other, hother, hunnamed⟩ | ⟨hstarted, -⟩
    · exact hparts other hother hunnamed
    · cases hstarted
  · rcases hrun : Reader.parse w text placement scope r with ⟨e | c, r'⟩
    · rw [hrun] at hfails
      cases hfails
      exact ((Reader.single_parse w text placement scope).of_error hrun).2 type rfl
    · rw [hrun] at hfails
      cases hfails

/-- The arguments of an annotation inside a list, the first of which has no key. -/
theorem unnamed_argument_comes_first_nested :
    let w : World := { modules := [], classes := [] }
    let x : Setting :=
      { world := w, scope := [], placement := .onClass, owner := none
        schemaOf := Reader.resolveSchema w }
    let ts := Token.pieces "5, a: @B(1, b: 2))".toList
    let list := (Entries.read (Token.ending []) .argument .rightParen ts).1
    (∃ args ∈ list.argumentLists, ∃ tags : TagList, (x.entries args [] {}).1 = .ok tags ∧
      tags.length = 2 ∧ OthersNamed tags ∧ (TagList.positional tags).length ≤ 1) ∧
    (∀ token, list.fault? ≠ some (.malformed .unnamedNotFirst token)) ∧
    (Reader.parse w "@A(1, 2)" .onClass [] {}).1 ≠ .error (.severalUnnamed "A") := by
  intro w x ts list
  obtain ⟨hlists, hparts, hparse⟩ := unnamed_argument_comes_first
  refine ⟨?_, hparts _ _ ts ?_, hparse w _ _ _ _ _⟩
  · have hlengths : (list.argumentLists.map fun args =>
        (x.entries args [] {}).1.toOption.map List.length) = [some 2] := by decide +kernel
    obtain ⟨args, hargs, hlength⟩ := List.mem_map.1 (hlengths ▸ List.mem_singleton_self (some 2))
    rcases hrun : x.entries args [] {} with ⟨e | tags, r'⟩
    · rw [hrun] at hlength
      cases hlength
    · rw [hrun] at hlength
      refine ⟨args, hargs, tags, congrArg Prod.fst hrun, Option.some.inj hlength, ?_⟩
      exact ((hlists x _ .argument ts).2 .rightParen args hargs).2 {} tags r' hrun
  · have hcolons : ∀ part ∈ (parts ts).tail, part.any (fun t => t.kind == .colon) = true := by
      decide +kernel
    intro part hpart hunnamed
    obtain ⟨t, ht, hcolon⟩ := List.any_eq_true.1 (hcolons part hpart)
    exact hunnamed.1 t ht (beq_iff_eq.1 hcolon)

end DocTags
