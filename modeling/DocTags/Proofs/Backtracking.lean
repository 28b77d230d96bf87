import DocTags.Cursor
import Mathlib.Data.List.TakeWhile

/-!
# Saving and restoring positions

A cursor is used by calling its operations in any order, and two sorts of them can fail: `consume`
at a token of another kind, and `restore` and `discard` when no position is saved.  `Op.run` gives
the answer of an operation with the cursor behind it, and `runAll` the cursor behind a sequence.

Positions stay within the tokens (`Bounded`), because an operation either moves on by tokens that
are there or returns to a position that was saved.  The stack is read off the sequence alone:
`depthAfter` counts what was saved on top of what was there before, and a sequence that is balanced
by this count leaves the stack as it was, whatever it does to the position and whichever of its
operations fail.  So `restore` behind it finds what `save` put there before it.

The main result is `operations_keep_discipline`.
-/

namespace DocTags
namespace Cursor

/-! ## Operations -/

/-- The operations on a cursor. -/
inductive Op where
  | current
  | peek (offset : Nat)
  | advance
  | isAt (kinds : List TokenKind)
  | isAtEnd
  | consume (expected : TokenKind) (message : String)
  | skipWhitespace
  | save
  | restore
  | discard
  deriving DecidableEq, Repr

/-- What an operation gives back. -/
inductive Answer where
  | token (t : Token)
  | flag (b : Bool)
  | nothing
  deriving DecidableEq, Repr

/-- The answer of an operation that can fail, and the cursor behind it. -/
def attempt (c : Cursor) : Except Error (Answer × Cursor) → Except Error Answer × Cursor
  | .ok (a, d) => (.ok a, d)
  | .error e => (.error e, c)

/-- The answer of an operation, and the cursor behind it. -/
def Op.run (op : Op) (c : Cursor) : Except Error Answer × Cursor :=
  match op with
  | .current => (.ok (.token c.current), c)
  | .peek offset => ((c.peek offset).map .token, c)
  | .advance => (.ok (.token c.current), c.advance)
  | .isAt kinds => (.ok (.flag (c.isAt kinds)), c)
  | .isAtEnd => (.ok (.flag c.isAtEnd), c)
  | .consume expected message =>
    c.attempt ((c.consume expected message).map fun (t, d) => (.token t, d))
  | .skipWhitespace => (.ok .nothing, c.skipWhitespace)
  | .save => (.ok .nothing, c.save)
  | .restore => c.attempt (c.restore.map fun d => (.nothing, d))
  | .discard => c.attempt (c.discard.map fun d => (.nothing, d))

/-- The cursor behind a sequence of operations, whichever of them fail. -/
def runAll (ops : List Op) (c : Cursor) : Cursor :=
  ops.foldl (fun c op => (op.run c).2) c

/-- An operation is refused where it asks for a token or a saved position that is not there. -/
def Refuses (c : Cursor) : Op → Prop
  | .consume expected _ => c.current.kind ≠ expected
  | .restore | .discard => c.saved = []
  | _ => False

/-- How many positions are saved behind some operations, on top of those that were there before.
There is no answer if one of those is taken. -/
def depthAfter : Nat → List Op → Option Nat
  | n, [] => some n
  | n, .save :: ops => depthAfter (n + 1) ops
  | 0, .restore :: _ | 0, .discard :: _ => none
  | n + 1, .restore :: ops | n + 1, .discard :: ops => depthAfter n ops
  | n, _ :: ops => depthAfter n ops

/-- In a balanced sequence each `save` has a `restore` or a `discard` behind it, and the other way
round. -/
def Balanced (ops : List Op) : Prop :=
  depthAfter 0 ops = some 0

instance (ops : List Op) : Decidable (Balanced ops) :=
  inferInstanceAs (Decidable (_ = _))

variable {c d : Cursor} {op : Op} {ops : List Op} {text : String}

lemma runAll_cons (op : Op) (ops : List Op) (c : Cursor) :
    runAll (op :: ops) c = runAll ops (op.run c).2 :=
  rfl

lemma runAll_append (ops ops' : List Op) (c : Cursor) :
    runAll (ops ++ ops') c = runAll ops' (runAll ops c) :=
  List.foldl_append

/-! ## Reading -/

/-- Looking ahead gives the token there, or the end token. -/
lemma peek_natCast (c : Cursor) (offset : Nat) :
    c.peek offset = .ok (c.tokens[c.position + offset]?.getD c.ending) := by
  have hcast : (c.position : Int) + (offset : Int) = ((c.position + offset : Nat) : Int) := by
    omega
  simp only [peek, hcast]
  split
  · next hle => rw [List.getElem?_eq_none (Int.ofNat_le.1 hle), Option.getD_none]
  · rw [if_neg (by omega), if_neg (by omega), Int.toNat_natCast]

lemma ending_of_tokenize (h : c.tokens = Token.tokenize text) :
    c.ending = ⟨.eof, "", text.length⟩ := by
  rw [ending, h, Token.tokenize, List.getLast?_concat]
  rfl

/-- At the last token of a text and behind it stands the end of the text. -/
lemma getElem?_getD_ending (h : c.tokens = Token.tokenize text) {place : Nat}
    (hplace : c.tokens.length ≤ place + 1) :
    c.tokens[place]?.getD c.ending = ⟨.eof, "", text.length⟩ := by
  rw [ending_of_tokenize h]
  rw [h, Token.tokenize, List.length_append, List.length_singleton] at hplace
  rw [h, Token.tokenize, List.getElem?_append_right (by omega)]
  rcases place - (Token.pieces text.toList).length with _ | n
  · rfl
  · rfl

/-- What is ahead behind the blanks that are passed over. -/
lemma drop_skipWhitespace (c : Cursor) :
    c.tokens.drop c.skipWhitespace.position =
      (c.tokens.drop c.position).dropWhile fun t => t.kind == .whitespace := by
  have hsplit := List.takeWhile_append_dropWhile (p := fun t : Token => t.kind == .whitespace)
    (l := c.tokens.drop c.position)
  rw [skipWhitespace, ← List.drop_drop]
  exact (congrArg (List.drop _) hsplit.symm).trans List.drop_left

lemma current_skipWhitespace_kind (c : Cursor) : c.skipWhitespace.current.kind ≠ .whitespace := by
  have htoken : c.skipWhitespace.tokens[c.skipWhitespace.position]? =
      ((c.tokens.drop c.position).dropWhile fun t => t.kind == .whitespace).head? := by
    rw [← drop_skipWhitespace, List.head?_drop]
    rfl
  rw [current, htoken]
  have hfirst := List.head?_dropWhile_not (fun t : Token => t.kind == .whitespace)
    (c.tokens.drop c.position)
  cases hrest : ((c.tokens.drop c.position).dropWhile fun t => t.kind == .whitespace).head? with
  | none => exact TokenKind.noConfusion
  | some t =>
    rw [hrest] at hfirst
    simpa using hfirst

/-! ## Failing -/

lemma refuses_or_ok (op : Op) (c : Cursor) :
    (c.Refuses op ∧ ∃ e, op.run c = (.error e, c)) ∨
      ¬ c.Refuses op ∧ ∃ a d, op.run c = (.ok a, d) := by
  cases op with
  | current | advance | isAt | isAtEnd | skipWhitespace | save => exact .inr ⟨id, _, _, rfl⟩
  | peek offset =>
    rw [Op.run, peek_natCast]
    exact .inr ⟨id, _, _, rfl⟩
  | consume expected message =>
    rw [Op.run, consume]
    split
    · next hkind => exact .inr ⟨fun h => h (eq_of_beq hkind), _, _, rfl⟩
    · next hkind => exact .inl ⟨fun h => hkind (beq_iff_eq.2 h), _, rfl⟩
  | restore | discard =>
    obtain ⟨tokens, position, saved⟩ := c
    cases saved with
    | nil => exact .inl ⟨rfl, _, rfl⟩
    | cons => exact .inr ⟨List.cons_ne_nil _ _, _, _, rfl⟩

/-! ## Positions -/

/-- The position and the saved ones are no further than behind the last token. -/
structure Bounded (c : Cursor) : Prop where
  position : c.position ≤ c.tokens.length
  saved : ∀ p ∈ c.saved, p ≤ c.tokens.length

lemma bounded_start (tokens : List Token) : (start tokens).Bounded :=
  ⟨Nat.zero_le _, List.forall_mem_nil _⟩

lemma Bounded.advance (h : c.Bounded) : c.advance.Bounded := by
  rw [Cursor.advance]
  split
  · next hlt => exact ⟨hlt, h.saved⟩
  · exact h

lemma Bounded.skipWhitespace (h : c.Bounded) : c.skipWhitespace.Bounded := by
  refine ⟨?_, h.saved⟩
  have hskipped := (List.takeWhile_sublist (l := c.tokens.drop c.position)
    fun t => t.kind == .whitespace).length_le
  have hposition := h.position
  rw [List.length_drop] at hskipped
  rw [Cursor.skipWhitespace]
  dsimp only
  omega

/-- One operation keeps the positions within the tokens. -/
lemma Bounded.run (h : c.Bounded) (op : Op) : (op.run c).2.Bounded := by
  cases op with
  | current | peek | isAt | isAtEnd => exact h
  | advance => exact h.advance
  | skipWhitespace => exact h.skipWhitespace
  | save => exact ⟨h.position, List.forall_mem_cons.2 ⟨h.position, h.saved⟩⟩
  | consume expected message =>
    rw [Op.run, consume]
    split
    · exact h.advance
    · exact h
  | restore =>
    obtain ⟨tokens, position, saved⟩ := c
    cases saved with
    | nil => exact h
    | cons p saved => exact ⟨(List.forall_mem_cons.1 h.saved).1, (List.forall_mem_cons.1 h.saved).2⟩
  | discard =>
    obtain ⟨tokens, position, saved⟩ := c
    cases saved with
    | nil => exact h
    | cons p saved => exact ⟨h.position, (List.forall_mem_cons.1 h.saved).2⟩

/-- What one operation does to the stack. -/
def savedAfter (position : Nat) (saved : List Nat) : Op → List Nat
  | .save => position :: saved
  | .restore | .discard => saved.tail
  | _ => saved

lemma tokens_and_saved_run (op : Op) (c : Cursor) :
    (op.run c).2.tokens = c.tokens ∧
      (op.run c).2.saved = savedAfter c.position c.saved op := by
  cases op with
  | current | peek | isAt | isAtEnd | skipWhitespace | save => exact ⟨rfl, rfl⟩
  | advance =>
    rw [Op.run, advance]
    split <;> exact ⟨rfl, rfl⟩
  | consume expected message =>
    rw [Op.run, consume]
    split
    · rw [advance]
      split <;> exact ⟨rfl, rfl⟩
    · exact ⟨rfl, rfl⟩
  | restore | discard =>
    obtain ⟨tokens, position, saved⟩ := c
    cases saved <;> exact ⟨rfl, rfl⟩

lemma Bounded.runAll (h : c.Bounded) (ops : List Op) : (runAll ops c).Bounded := by
  induction ops generalizing c with
  | nil => exact h
  | cons op ops ih => exact ih (h.run op)

lemma tokens_runAll (ops : List Op) (c : Cursor) : (runAll ops c).tokens = c.tokens := by
  induction ops generalizing c with
  | nil => rfl
  | cons op ops ih => exact (ih _).trans (tokens_and_saved_run op c).1

/-! ## The stack -/

/-- An operation that the count admits takes none of the positions below. -/
lemma exists_savedAfter {m : Nat} {top : List Nat} (h : depthAfter top.length (op :: ops) = some m)
    (position : Nat) (below : List Nat) :
    ∃ top', depthAfter top'.length ops = some m ∧
      savedAfter position (top ++ below) op = top' ++ below := by
  cases op with
  | current | peek | advance | isAt | isAtEnd | consume | skipWhitespace => exact ⟨top, h, rfl⟩
  | save => exact ⟨position :: top, h, rfl⟩
  | restore | discard =>
    cases top with
    | nil => cases h
    | cons p top => exact ⟨top, h, rfl⟩

/-- Behind operations that the count admits, as many positions as it says are saved on top of those
below. -/
lemma exists_saved_runAll {m : Nat} {top below : List Nat} (hc : c.saved = top ++ below)
    (h : depthAfter top.length ops = some m) :
    ∃ top', top'.length = m ∧ (runAll ops c).saved = top' ++ below := by
  induction ops generalizing c top with
  | nil => exact ⟨top, Option.some.inj h, hc⟩
  | cons op ops ih =>
    obtain ⟨top', hops, hsaved⟩ := exists_savedAfter h c.position below
    refine ih ?_ hops
    rw [(tokens_and_saved_run op c).2, hc, hsaved]

lemma Balanced.saved_runAll (h : Balanced ops) (c : Cursor) : (runAll ops c).saved = c.saved := by
  have hsaved : c.saved = [] ++ c.saved := rfl
  obtain ⟨top, htop, hall⟩ := exists_saved_runAll hsaved h
  rw [hall, List.eq_nil_of_length_eq_zero htop, List.nil_append]

/-- Whatever a balanced sequence does, a position that was saved before it can be returned to
behind it. -/
lemma Balanced.restore (h : Balanced ops) (c : Cursor) :
    runAll (.save :: (ops ++ [.restore])) c = c := by
  have hsaved : (runAll ops c.save).saved = c.position :: c.saved := h.saved_runAll c.save
  have htokens : (runAll ops c.save).tokens = c.tokens := tokens_runAll ops c.save
  rw [runAll_cons, runAll_append]
  change ((runAll ops c.save).attempt
    ((runAll ops c.save).restore.map fun d => (.nothing, d))).2 = c
  rw [Cursor.restore, hsaved]
  exact congrArg (fun tokens => (⟨tokens, c.position, c.saved⟩ : Cursor)) htokens

/-- Behind any operations on a cursor over the tokens of a text:
* the position and the saved ones are among the tokens or just behind them, and the tokens are the
  same;
* an operation fails exactly where the cursor refuses it, and it leaves the cursor as it is then;
* at the last token and behind it, reading and looking ahead give the end of the text;
* where blanks are passed over, the cursor does not end on one;
* a balanced sequence between a `save` and its `restore` leaves no trace. -/
theorem operations_keep_discipline (text : String) (ops : List Op) :
    let c := runAll ops (start (Token.tokenize text))
    c.tokens = Token.tokenize text ∧ c.position ≤ c.tokens.length ∧
    (∀ p ∈ c.saved, p ≤ c.tokens.length) ∧
    (∀ op, ((∃ e, (op.run c).1 = .error e) ↔ c.Refuses op) ∧ (c.Refuses op → (op.run c).2 = c)) ∧
    (c.tokens.length ≤ c.position + 1 → c.current = ⟨.eof, "", text.length⟩) ∧
    (∀ offset : Nat, c.tokens.length ≤ c.position + offset + 1 →
      c.peek offset = .ok ⟨.eof, "", text.length⟩) ∧
    (Op.skipWhitespace.run c).2.current.kind ≠ .whitespace ∧
    ∀ inner, Balanced inner → runAll (.save :: (inner ++ [.restore])) c = c := by
  intro c
  have htokens : c.tokens = Token.tokenize text := tokens_runAll ops _
  have hbounded : c.Bounded := (bounded_start _).runAll ops
  refine ⟨htokens, hbounded.position, hbounded.saved, fun op => ?_, fun hlast => ?_,
    fun offset hlast => ?_, current_skipWhitespace_kind c, fun inner h => h.restore c⟩
  · rcases refuses_or_ok op c with ⟨hrefused, e, hrun⟩ | ⟨haccepted, a, d, hrun⟩
    · rw [hrun]
      exact ⟨⟨fun _ => hrefused, fun _ => ⟨e, rfl⟩⟩, fun _ => rfl⟩
    · have hok : ¬ ∃ e, (op.run c).1 = .error e := by
        rw [hrun]
        rintro ⟨e, herror⟩
        cases herror
      exact ⟨iff_of_false hok haccepted, fun hrefused => absurd hrefused haccepted⟩
  · exact getElem?_getD_ending htokens hlast
  · rw [peek_natCast, getElem?_getD_ending htokens hlast]

end Cursor
end DocTags
