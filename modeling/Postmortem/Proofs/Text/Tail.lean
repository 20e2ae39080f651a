import Postmortem.Proofs.Text.Utf8
import Postmortem.Text.Tail

/-!
# The end of a text is one of its ends

The last characters of a text are the suffix of it that has as many characters as are asked for, or
the whole text if it has no more. There is only one such suffix (`eq_tail_iff`), so everything else
that is said of ends follows from their place and their length. Main statement: `tail_exact`.
-/

namespace Postmortem.Text

/-- The last characters of a text stand at its end. -/
theorem tail_suffix (s : String) (n : Nat) : (tail s n).toList <:+ s.toList := by
  rw [tail, String.toList_ofList, lastChars]
  exact List.drop_suffix _ _

/-- There are as many of them as are asked for, as far as there are. -/
theorem length_tail (s : String) (n : Nat) :
    (tail s n).toList.length = min n s.toList.length := by
  rw [tail, String.toList_ofList, lastChars, List.length_drop]
  omega

/-- There are none only if the text is empty or none are asked for. -/
theorem tail_eq_empty_iff (s : String) (n : Nat) : tail s n = "" ↔ s = "" ∨ n = 0 := by
  have hlength (t : String) : t = "" ↔ t.toList.length = 0 := by
    rw [← String.toList_inj, String.toList_empty, List.length_eq_zero_iff]
  rw [hlength, hlength, length_tail]
  omega

/-! ## One end of each length -/

/-- The last characters are the only end of the text with their number. -/
theorem eq_tail_iff {s t : String} {n : Nat} :
    t = tail s n ↔ t.toList <:+ s.toList ∧ t.toList.length = min n s.toList.length := by
  constructor
  · rintro rfl
    exact ⟨tail_suffix s n, length_tail s n⟩
  · rintro ⟨hsuffix, hlength⟩
    have hsame : t.toList.length = (tail s n).toList.length := by rw [hlength, length_tail]
    have hinner : t.toList <:+ (tail s n).toList :=
      List.suffix_of_suffix_length_le hsuffix (tail_suffix s n) (Nat.le_of_eq hsame)
    exact String.toList_inj.mp (hinner.eq_of_length hsame)

/-- An end of an end is the shorter one of the two. -/
theorem tail_tail (s : String) (m n : Nat) : tail (tail s m) n = tail s (min m n) := by
  rw [eq_tail_iff]
  refine ⟨(tail_suffix _ n).trans (tail_suffix s m), ?_⟩
  rw [length_tail, length_tail]
  omega

/-- A text is what comes before its end, and its end. -/
theorem exists_append_tail (s : String) (n : Nat) : ∃ before : String, s = before ++ tail s n := by
  obtain ⟨before, hbefore⟩ := tail_suffix s n
  refine ⟨.ofList before, ?_⟩
  rw [← String.toList_inj, String.toList_append, String.toList_ofList, hbefore]

/-! ## Counting -/

/-- What is left of a count, if no more is taken off than there is. -/
def takenOff? (count n : Nat) : Option Nat := if n ≤ count then some (count - n) else none

/-- The last `n` characters of a text, by counting. There are none if none are asked for, and all
of them if there are no more; otherwise those before them are counted off. `none` if more should be
taken off than there are. -/
def countedTail? (s : String) (n : Nat) : Option String :=
  if n = 0 then some ""
  else if s.length ≤ n then some s
  else (takenOff? s.length n).map fun before => .ofList (s.toList.drop before)

/-- **Counting finds the last characters**, and never takes off more than there are. -/
theorem countedTail?_eq (s : String) (n : Nat) : countedTail? s n = some (tail s n) := by
  rw [countedTail?]
  by_cases hnone : n = 0
  · rw [if_pos hnone, (tail_eq_empty_iff s n).mpr (.inr hnone)]
  · rw [if_neg hnone]
    by_cases hall : s.length ≤ n
    · have hwhole : s = tail s n := by
        rw [eq_tail_iff, String.length_toList]
        exact ⟨List.suffix_refl _, by omega⟩
      rw [if_pos hall, ← hwhole]
    · rw [if_neg hall, takenOff?, if_pos (by omega), tail, lastChars, String.length_toList]
      rfl

/-! ## Main statement -/

/-- **The last characters of a text are an end of it, exactly.** They are the one end of the text
that has as many characters as are asked for, as far as there are, and the end of an end is an end
of the text. Counting them never takes off more characters than there are. In bytes too the text is
whole characters before its end, and whole characters in it. -/
theorem tail_exact (s : String) (n : Nat) :
    (∀ t : String, t = tail s n ↔ t.toList <:+ s.toList ∧ t.length = min n s.length) ∧
      (∀ m, tail (tail s m) n = tail s (min m n)) ∧
      countedTail? s n = some (tail s n) ∧
      ∃ before : String, s = before ++ tail s n ∧
        Utf8.ofString s = Utf8.ofString before ++ Utf8.ofString (tail s n) := by
  refine ⟨fun t => ?_, fun m => tail_tail s m n, countedTail?_eq s n, ?_⟩
  · rw [eq_tail_iff, String.length_toList, String.length_toList]
  · obtain ⟨before, hbefore⟩ := exists_append_tail s n
    refine ⟨before, hbefore, ?_⟩
    rw [Utf8.ofString, Utf8.ofString, Utf8.ofString, ← Utf8.encode_append, ← String.toList_append,
      ← hbefore]

example : tail "aéé" 2 = "éé" ∧ tail (tail "aéé" 2) 1 = "é" ∧ tail "abc" 10 = "abc" := by decide

end Postmortem.Text
