import Postmortem.Proofs.Json.Layout
import Postmortem.Proofs.Number.Digits

/-!
# Compact texts

The compact text of a value stands on one line: control characters are written as escapes, and
nothing else brings a line feed in. The text of an object ends with its brace.
-/

namespace Postmortem.Json

open Postmortem.Number

/-- A digit to the base sixteen is no line feed. -/
private theorem hexDigit_ne_feed : ∀ n < 16, hexDigit n ≠ '\n' := by
  decide

/-- An escape has no line feed. -/
theorem feed_not_mem_escapeChar (c : Char) : '\n' ∉ escapeChar c := by
  rw [escapeChar]
  by_cases hfeed : c = '\n'
  · subst hfeed
    decide
  repeat' split
  all_goals try decide
  · rename_i hcontrol
    have hhigh := hexDigit_ne_feed (c.toNat / 16) (by omega)
    have hlow := hexDigit_ne_feed (c.toNat % 16) (by omega)
    simp [Ne.symm hhigh, Ne.symm hlow]
  · rw [List.mem_singleton]
    exact Ne.symm hfeed

/-- A text between quotes has no line feed. -/
theorem feed_not_mem_literal (s : String) : '\n' ∉ literal s := by
  rw [literal, literalTail, List.mem_cons, List.mem_append, List.mem_flatMap]
  rintro (h | ⟨c, -, h⟩ | h)
  · exact absurd h (by decide)
  · exact feed_not_mem_escapeChar c h
  · exact absurd h (by decide)

/-- Nor has a number. -/
theorem feed_not_mem_numeral (n : Numeral) : '\n' ∉ n.chars := by
  intro h
  rcases isDigit_or_mem_of_mem_numeral h with hdigit | hmark
  · exact absurd hdigit (by decide)
  · exact absurd hmark (by decide)

mutual

/-- **A compact text stands on one line.** -/
theorem feed_not_mem_chars (j : Json) : '\n' ∉ j.chars := by
  cases j with
  | null => decide
  | flag b => cases b <;> decide
  | number n => exact feed_not_mem_numeral n
  | text s => exact feed_not_mem_literal s
  | list items =>
    rw [chars, List.mem_cons, not_or]
    exact ⟨by decide, feed_not_mem_itemChars items⟩
  | object members =>
    rw [chars, List.mem_cons, not_or]
    exact ⟨by decide, feed_not_mem_memberChars members⟩

/-- So do the texts of items. -/
theorem feed_not_mem_itemChars (js : List Json) : '\n' ∉ itemChars js := by
  cases js with
  | nil => decide
  | cons j js =>
    have hvalue := feed_not_mem_chars j
    cases js with
    | nil =>
      rw [itemChars, List.mem_append, not_or]
      exact ⟨hvalue, by decide⟩
    | cons j' js =>
      rw [itemChars, List.mem_append, List.mem_cons, not_or, not_or]
      · exact ⟨hvalue, by decide, feed_not_mem_itemChars (j' :: js)⟩
      · exact List.cons_ne_nil _ _

/-- So do the texts of members. -/
theorem feed_not_mem_memberChars (ms : List (String × Json)) : '\n' ∉ memberChars ms := by
  cases ms with
  | nil => decide
  | cons m ms =>
    obtain ⟨k, j⟩ := m
    have hname := feed_not_mem_literal k
    have hvalue := feed_not_mem_chars j
    cases ms with
    | nil =>
      rw [memberChars, List.mem_append, List.mem_cons, List.mem_append, not_or, not_or, not_or]
      exact ⟨hname, by decide, hvalue, by decide⟩
    | cons m' ms =>
      rw [memberChars, List.mem_append, List.mem_cons, List.mem_append, List.mem_cons, not_or,
        not_or, not_or, not_or]
      · exact ⟨hname, by decide, hvalue, by decide, feed_not_mem_memberChars (m' :: ms)⟩
      · exact List.cons_ne_nil _ _

end

/-- The text of an object ends with its brace. -/
theorem memberChars_concat (ms : List (String × Json)) :
    ∃ cs, memberChars ms = cs ++ ['\x7d'] := by
  induction ms with
  | nil => exact ⟨[], rfl⟩
  | cons m ms ih =>
    obtain ⟨k, j⟩ := m
    cases ms with
    | nil => exact ⟨literal k ++ ':' :: j.chars, by simp [memberChars]⟩
    | cons m' ms =>
      obtain ⟨cs, hcs⟩ := ih
      refine ⟨literal k ++ ':' :: (j.chars ++ ',' :: cs), ?_⟩
      rw [memberChars, hcs]
      · simp
      · exact List.cons_ne_nil _ _

end Postmortem.Json
