import DocTags.Proofs.Run
import DocTags.Proofs.Steps
import DocTags.Reader.Read

/-!
# Tags further down a text

Tokens know where they stand, and so do the errors that blame one of them.  This file says what
changes when a section stands further down.  The same tags are read, with every error moved along
(`Tag.parse_moved`), and when the tags take effect nothing else can be told apart: either a scan has
the same outcome wherever the section stands, or it fails at a token of the section, and then it
fails at the same token everywhere (`Setting.moves_tags`).

Errors are looked at twice because not all of them belong to the section.  The documentation of an
annotation class is read in the course of a scan, and an error at one of its tokens stays where it
is.
-/

namespace DocTags

/-! ## Moving -/

/-- The token further down the text. -/
def Token.moved (n : Nat) (t : Token) : Token :=
  { t with position := n + t.position }

@[simp] lemma Token.kind_moved (n : Nat) (t : Token) : (t.moved n).kind = t.kind := rfl

@[simp] lemma Token.text_moved (n : Nat) (t : Token) : (t.moved n).text = t.text := rfl

/-- The error with its token further down the text. -/
def Error.moved (n : Nat) : Error → Error
  | .malformed fault (some t) => .malformed fault (some (t.moved n))
  | e => e

mutual

/-- The item with its errors further down the text. -/
def Item.moved (n : Nat) : Item → Item
  | .value v => .value v
  | .word name => .word name
  | .list entries => .list (entries.moved n)
  | .nested name arguments => .nested name (arguments.moved n)

/-- The entries with their errors further down the text. -/
def Entries.moved (n : Nat) : Entries → Entries
  | .closed => .closed
  | .entry key item rest => .entry key (item.moved n) (rest.moved n)
  | .broken none e => .broken none (e.moved n)
  | .broken (some item) e => .broken (some (item.moved n)) (e.moved n)

end

/-- The tag with its errors further down the text. -/
def Tag.moved (n : Nat) : Tag → Tag
  | .plain name text => .plain name text
  | .list name entries after => .list name (entries.moved n) (after.map (Token.moved n))
  | .typed name arguments => .typed name (arguments.moved n)

/-- The pending item with its token further down the text. -/
def Pending.moved (n : Nat) : Pending → Pending
  | .token t => .token (t.moved n)
  | .nested item t => .nested (item.moved n) (t.moved n)

/-! ## Items -/

/-- The outcome of reading an item further down the text. -/
def Item.movedOutcome (n : Nat) : Except Error Item → Except Error Item
  | .error e => .error (e.moved n)
  | .ok item => .ok (item.moved n)

section Items

variable (n : Nat)

lemma literal?_moved (t : Token) :
    literal? (t.moved n) = (literal? t).mapError (Error.moved n) := by
  unfold literal?
  simp only [Token.kind_moved, Token.text_moved, apply_ite (Except.mapError (Error.moved n))]
  cases Numeral.read? t.text.toList <;> rfl

lemma itemOf_moved (g : Grammar) (t : Token) :
    itemOf g (t.moved n) = Item.movedOutcome n (itemOf g t) := by
  unfold itemOf
  rw [literal?_moved]
  rcases literal? t with e | _ | v
  · rfl
  · cases g with
    | argument => rfl
    | plain =>
      simp only [Token.text_moved]
      by_cases hbare : (!t.text.toList.isEmpty && t.text.toList.all isBareChar) = true
      · simp only [hbare]
        rfl
      · simp only [hbare]
        rfl
  · rfl

lemma Pending.item_moved (g : Grammar) (closing : TokenKind) (started : Bool) (key : Option String)
    (p : Pending) : (p.moved n).item g closing started key =
      Item.movedOutcome n (p.item g closing started key) := by
  unfold Pending.item
  by_cases hunnamed : (key.isNone && closing == .rightParen && started) = true
  · cases p <;> simp [hunnamed, Item.movedOutcome, Error.moved, Pending.start, Pending.moved]
  · cases p with
    | token t => simp [hunnamed, Pending.moved, itemOf_moved]
    | nested item t => simp [hunnamed, Pending.moved, Item.movedOutcome]

lemma Pending.effect?_moved (pending : Option Pending) :
    Pending.effect? (pending.map (Pending.moved n)) =
      (Pending.effect? pending).map (Item.moved n) := by
  match pending with
  | none | some (.token _) | some (.nested _ _) => rfl

end Items

/-! ## Lists -/

namespace Entries

/-- The action further down the text. -/
def Action.moved (n : Nat) : Action → Action
  | .go key pending => .go key (pending.map (Pending.moved n))
  | .list => .list
  | .annotated => .annotated
  | .file item => .file (item.moved n)
  | .close last => .close (last.map (Item.moved n))
  | .fail before e => .fail (before.map (Item.moved n)) (e.moved n)

section Lists

variable (n : Nat)

lemma broken_moved (before : Option Item) (e : Error) :
    (Entries.broken before e).moved n = .broken (before.map (Item.moved n)) (e.moved n) := by
  cases before <;> simp [Entries.moved]

lemma brokenAt_moved (pending : Option Pending) (fault : Malformation) (t : Token) :
    (brokenAt pending fault t).moved n =
      brokenAt (pending.map (Pending.moved n)) fault (t.moved n) := by
  rw [brokenAt, broken_moved, ← Pending.effect?_moved]
  rfl

lemma lastEntry_moved (key : Option String) (last : Option Item) :
    (lastEntry key last).moved n = lastEntry key (last.map (Item.moved n)) := by
  cases last <;> simp [lastEntry, Entries.moved]

lemma failAt_moved (pending : Option Pending) (fault : Malformation) (t : Token) :
    (Action.failAt pending fault t).moved n =
      .failAt (pending.map (Pending.moved n)) fault (t.moved n) := by
  rw [Action.failAt, Action.moved, ← Pending.effect?_moved]
  rfl

lemma ofItem_moved (p : Pending) {act : Item → Action}
    (hact : ∀ item, (act item).moved n = act (item.moved n)) (found : Except Error Item) :
    (Action.ofItem p act found).moved n =
      .ofItem (p.moved n) act (Item.movedOutcome n found) := by
  cases found with
  | error e =>
    have heffect := Pending.effect?_moved n (some p)
    simp only [Action.ofItem, Item.movedOutcome, Action.moved, ← heffect, Option.map_some]
  | ok item => exact hact item

/-- What the reader does with a token does not depend on where the token stands. -/
lemma action_moved (g : Grammar) (closing : TokenKind) (started : Bool) (key : Option String)
    (pending : Option Pending) (t : Token) :
    action g closing started key (pending.map (Pending.moved n)) (t.moved n) =
      (action g closing started key pending t).moved n := by
  unfold action
  simp only [Token.kind_moved, Token.text_moved, Option.isSome_map, ← failAt_moved]
  cases t.kind with
  | whitespace => rfl
  | leftBrace => cases pending <;> rfl
  | atSign => cases pending <;> rfl
  | comma =>
    cases pending with
    | none => rfl
    | some p =>
      simp only [Option.map_some, Pending.item_moved]
      exact (ofItem_moved n p (fun _ => rfl) _).symm
  | colon =>
    cases key with
    | some key => rfl
    | none =>
      rcases pending with _ | ⟨p⟩ | ⟨item, p⟩
      · rfl
      · simp only [Option.map_some, Pending.moved, Token.text_moved, apply_ite (Action.moved n),
          failAt_moved]
        rfl
      · rfl
  | leftParen | rightParen | rightBrace | equals | word | string | eof =>
    dsimp only
    split
    · cases pending with
      | some p =>
        simp only [Option.map_some, Pending.item_moved]
        exact (ofItem_moved n p (fun _ => rfl) _).symm
      | none => cases key <;> rfl
    · cases pending <;> rfl

lemma annotated?_moved (ts : List Token) :
    annotated? (ts.map (Token.moved n)) =
      (annotated? ts).map fun (name, us) => (name, us.map (Token.moved n)) := by
  match ts with
  | [] | [_] => rfl
  | name :: opening :: ts =>
    by_cases hkinds : name.kind = .word ∧ opening.kind = .leftParen
    · simp [annotated?, hkinds]
    · simp [annotated?, hkinds]

lemma unannotated_moved (eof : Token) (ts : List Token) :
    unannotated (eof.moved n) (ts.map (Token.moved n)) = (unannotated eof ts).moved n := by
  cases ts with
  | nil => exact (brokenAt_moved n none _ eof).symm
  | cons t ts => exact (brokenAt_moved n none _ t).symm

variable {n} {eof : Token} {g : Grammar} {closing : TokenKind} {started : Bool}
  {key : Option String} {pending : Option Pending} {ts rest : List Token} {es : Entries}

lemma Reads.moved (h : Reads eof g closing started key pending ts es rest) :
    Reads (eof.moved n) g closing started key (pending.map (Pending.moved n))
      (ts.map (Token.moved n)) (es.moved n) (rest.map (Token.moved n)) := by
  -- One rule for each rule: the token has the moved action.
  have hmoved : ∀ {g closing started key pending t act},
      action g closing started key pending t = act →
        action g closing started key (pending.map (Pending.moved n)) (t.moved n) =
          act.moved n := by
    intro g closing started key pending t act hact
    rw [action_moved, hact]
  induction h with
  | ended =>
    rw [brokenAt_moved]
    exact .ended
  | go h _ ih => exact .go (hmoved h) ih
  | list h _ _ ihinner ih => exact .list (hmoved h) ihinner ih
  | annotated h hname _ _ ihinner ih =>
    refine .annotated (hmoved h) ?_ ihinner ih
    rw [annotated?_moved, hname]
    rfl
  | unannotated h hname =>
    rw [← unannotated_moved]
    refine .unannotated (hmoved h) ?_
    rw [annotated?_moved, hname]
    rfl
  | file h _ ih =>
    rw [Entries.moved]
    exact .file (hmoved h) ih
  | close h =>
    rw [lastEntry_moved]
    exact .close (hmoved h)
  | fail h =>
    rw [broken_moved]
    exact .fail (hmoved h)

end Lists

end Entries

/-! ## Sections -/

namespace Tag

section Sections

variable (n : Nat)

lemma textOf_moved (ts : List Token) : textOf (ts.map (Token.moved n)) = textOf ts := by
  rw [textOf, List.flatMap_map]
  rfl

lemma strayAfter?_moved (ts : List Token) :
    strayAfter? (ts.map (Token.moved n)) = (strayAfter? ts).map (Token.moved n) := by
  unfold strayAfter?
  rw [List.dropWhile_map]
  have hblank : (fun t : Token => t.kind == .whitespace && !t.hasNewline) ∘ Token.moved n =
      fun t => t.kind == .whitespace && !t.hasNewline := rfl
  rw [hblank]
  cases ts.dropWhile fun t => t.kind == .whitespace && !t.hasNewline with
  | nil => rfl
  | cons t ts =>
    have hends : endsValue (t.moved n) = endsValue t := rfl
    simp only [List.map_cons, hends, apply_ite (Option.map (Token.moved n)), Option.map_none,
      Option.map_some]

lemma forall_head?_moved {ts : List Token} {p : Token → Prop} (hp : ∀ t, p t → p (t.moved n))
    (h : ∀ t ∈ ts.head?, p t) : ∀ t ∈ (ts.map (Token.moved n)).head?, p t := by
  intro t ht
  rw [List.head?_map, Option.mem_def] at ht
  obtain ⟨u, hu, rfl⟩ := Option.map_eq_some_iff.1 ht
  exact hp u (h u hu)

lemma forall_mem_moved {ts : List Token} {p : Token → Prop} (hp : ∀ t, p t → p (t.moved n))
    (h : ∀ t ∈ ts, p t) : ∀ t ∈ ts.map (Token.moved n), p t := by
  intro t ht
  obtain ⟨u, hu, rfl⟩ := List.mem_map.1 ht
  exact hp u (h u hu)

variable {n} {eof : Token} {ts : List Token} {tags : List Tag}

lemma Reads.moved (h : Reads eof ts tags) :
    Reads (eof.moved n) (ts.map (Token.moved n)) (tags.map (Tag.moved n)) := by
  induction h with
  | nil => exact .nil
  | lone => exact .lone
  | skip h _ ih => exact .skip h ih
  | typed ht hname hopening hargs _ ih => exact .typed ht hname hopening hargs.moved ih
  | plain ht hname hopening hvalue hafter _ ih =>
    have hopening' := forall_head?_moved n (fun _ h => h) hopening
    rw [List.map_append] at hopening'
    rw [List.map_cons, List.map_cons, List.map_append, List.map_cons, Tag.moved, ← textOf_moved n]
    exact .plain ht hname hopening' (forall_mem_moved n (fun _ h => h) hvalue)
      (forall_head?_moved n (fun _ h => h) hafter) ih
  | list ht hname hopening hvalue hbrace hlist _ ih =>
    have hopening' := forall_head?_moved n (fun _ h => h) hopening
    rw [List.map_append] at hopening'
    rw [List.map_cons, List.map_cons, List.map_append, List.map_cons, List.map_cons, Tag.moved,
      ← strayAfter?_moved]
    exact .list ht hname hopening' (forall_mem_moved n (fun _ h => h) hvalue) hbrace hlist.moved ih

/-- Further down a text the same tags are read. -/
lemma parse_moved (n : Nat) (eof : Token) (ts : List Token) :
    parse (eof.moved n) (ts.map (Token.moved n)) = (parse eof ts).map (Tag.moved n) :=
  (reads_parse eof ts).moved.parse_eq

end Sections

end Tag

/-! ## Scans -/

namespace Run

variable {σ α β : Type}

/-- The runs have the outcome of one run, or they all fail as it does, each at its own copy of the
token. -/
def Moves (x : Run σ α) (moved : Nat → Run σ α) : Prop :=
  ∀ s, (∀ n, moved n s = x s) ∨
    ∃ fault t s', x s = (.error (.malformed fault (some t)), s') ∧
      ∀ n, moved n s = (.error (.malformed fault (some (t.moved n))), s')

namespace Moves

lemma same (x : Run σ α) : Moves x fun _ => x :=
  fun _ => .inl fun _ => rfl

lemma throw (e : Error) :
    Moves (throw e : Run σ α) fun n => (throw (e.moved n) : Run σ α) := by
  intro s
  unfold Error.moved
  split
  · next fault t => exact .inr ⟨fault, t, s, rfl, fun _ => rfl⟩
  · exact .inl fun _ => rfl

lemma bind {x : Run σ α} {moved : Nat → Run σ α} {f : α → Run σ β} {fs : Nat → α → Run σ β}
    (hx : Moves x moved) (hf : ∀ a, Moves (f a) fun n => fs n a) :
    Moves (x >>= f) fun n => moved n >>= fs n := by
  intro s
  rcases hx s with hsame | ⟨fault, t, s', hfails, hmoved⟩
  · rcases hs : x s with ⟨e | a, s'⟩
    · refine .inl fun n => ?_
      rw [bind_error hs]
      exact bind_error ((hsame n).trans hs) _
    · have hstep : ∀ n, (moved n >>= fs n) s = fs n a s' :=
        fun n => bind_ok ((hsame n).trans hs) _
      simp only [hstep, bind_ok hs]
      exact hf a s'
  · refine .inr ⟨fault, t, s', bind_error hfails f, fun n => bind_error (hmoved n) _⟩

end Moves

end Run

namespace Setting

open Run (Moves)

variable (x : Setting)

mutual

lemma moves_item (i : Item) : Moves (x.item i) fun n => x.item (i.moved n) := by
  match i with
  | .value v =>
    simp only [Item.moved]
    exact .same _
  | .word name =>
    simp only [Item.moved]
    exact .same _
  | .list es =>
    simp only [Item.moved, item]
    exact (moves_entries es []).bind fun _ => .same _
  | .nested name args =>
    simp only [Item.moved, item]
    exact (moves_entries args []).bind fun _ => .same _

lemma moves_entries (es : Entries) (acc : TagList) :
    Moves (x.entries es acc) fun n => x.entries (es.moved n) acc := by
  match es with
  | .closed =>
    simp only [Entries.moved]
    exact .same _
  | .entry key i rest =>
    simp only [Entries.moved, entries]
    exact (moves_item i).bind fun v => moves_entries rest _
  | .broken none e =>
    simp only [Entries.moved, entries]
    exact .throw e
  | .broken (some i) e =>
    simp only [Entries.moved, entries]
    exact (moves_item i).bind fun _ => .throw e

end

lemma moves_tag (c : Comment) (t : Tag) : Moves (x.tag c t) fun n => x.tag c (t.moved n) := by
  cases t with
  | plain name text => exact .same _
  | list name es after =>
    refine (moves_entries x es []).bind fun v => ?_
    cases after with
    | some t => exact .throw (.malformed .dataAfterList (some t))
    | none => exact .same _
  | typed name args => exact (moves_entries x args []).bind fun args => .same _

/-- Wherever tags stand they have the same effect, or they fail at the same one of their tokens. -/
lemma moves_tags (c : Comment) (ts : List Tag) :
    Moves (x.tags c ts) fun n => x.tags c (ts.map (Tag.moved n)) := by
  induction ts generalizing c with
  | nil => exact .same _
  | cons t ts ih => exact (moves_tag x c t).bind fun c' => ih c'

end Setting
end DocTags
