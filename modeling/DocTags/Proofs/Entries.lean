import DocTags.Tag.Parse
import Mathlib.Tactic.Common

/-!
# Reading the entries of a list, token by token

`Entries.outcome` is the result of reading a list with the tokens left behind as a plain list.  The
lemmas say how each sort of token moves the reader on: blanks are passed over, a word or a string
becomes the pending item, a colon turns the pending word into a key, a brace is read as an item of
its own, and a separator files the pending item under the key read before it.
-/

namespace DocTags
namespace Entries

variable {eof : Token} {g : Grammar} {closing : TokenKind} {started : Bool} {key : Option String}
  {pending : Option Pending} {t : Token} {ts : List Token}

/-- The entries that reading gives, and the tokens behind the closing one. -/
def outcome (eof : Token) (g : Grammar) (closing : TokenKind) (started : Bool)
    (key : Option String) (pending : Option Pending) (ts : List Token) : Entries × List Token :=
  ((parse eof g closing started key pending ts).1,
    (parse eof g closing started key pending ts).2.1)

lemma outcome_whitespace (h : t.kind = .whitespace) :
    outcome eof g closing started key pending (t :: ts) =
      outcome eof g closing started key pending ts := by
  obtain ⟨kind, text, position⟩ := t
  cases h
  unfold outcome
  rw [parse.eq_def]
  rfl

/-- A word or a string waits for the token behind it. -/
lemma outcome_token (h : t.kind = .word ∨ t.kind = .string) (hc : closing = .rightBrace) :
    outcome eof g closing started key none (t :: ts) =
      outcome eof g closing started key (some (.token t)) ts := by
  obtain ⟨kind, text, position⟩ := t
  subst hc
  unfold outcome
  rcases h with h | h <;> cases h <;> rw [parse.eq_def] <;> rfl

/-- A list inside a list is read up to its own end first. -/
lemma outcome_leftBrace (h : t.kind = .leftBrace) {inner : Entries} {behind : List Token}
    (hin : outcome eof g .rightBrace false none none ts = (inner, behind)) :
    outcome eof g closing started key none (t :: ts) =
      outcome eof g closing started key (some (.nested (.list inner) t)) behind := by
  obtain ⟨kind, text, position⟩ := t
  cases h
  unfold outcome at hin ⊢
  obtain ⟨rfl, rfl⟩ := Prod.mk.inj hin
  rw [parse.eq_def]
  rfl

lemma outcome_colon (h : t.kind = .colon) {p : Token}
    (hp : Text.isAlphabetic p.text.toList = true) :
    outcome eof g closing started none (some (.token p)) (t :: ts) =
      outcome eof g closing started (some p.text) none ts := by
  obtain ⟨kind, text, position⟩ := t
  cases h
  unfold outcome
  rw [parse.eq_def]
  simp only [hp]
  rfl

lemma outcome_comma (h : t.kind = .comma) {p : Pending} {item : Item}
    (hp : p.item g closing started key = .ok item) {entries : Entries} {behind : List Token}
    (hrest : outcome eof g closing true none none ts = (entries, behind)) :
    outcome eof g closing started key (some p) (t :: ts) = (.entry key item entries, behind) := by
  obtain ⟨kind, text, position⟩ := t
  cases h
  unfold outcome at hrest ⊢
  obtain ⟨rfl, rfl⟩ := Prod.mk.inj hrest
  rw [parse.eq_def]
  simp only [hp]
  rfl

lemma outcome_rightBrace (h : t.kind = .rightBrace) {p : Pending} {item : Item}
    (hp : p.item g .rightBrace started key = .ok item) :
    outcome eof g .rightBrace started key (some p) (t :: ts) = (.entry key item .closed, ts) := by
  obtain ⟨kind, text, position⟩ := t
  cases h
  unfold outcome
  rw [parse.eq_def]
  simp only [hp]
  rfl

lemma outcome_rightBrace_closed (h : t.kind = .rightBrace) :
    outcome eof g .rightBrace started none none (t :: ts) = (.closed, ts) := by
  obtain ⟨kind, text, position⟩ := t
  cases h
  unfold outcome
  rw [parse.eq_def]
  rfl

end Entries
end DocTags
