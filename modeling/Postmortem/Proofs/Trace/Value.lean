import Postmortem.Proofs.Text.Blank
import Postmortem.Trace.Value

/-!
# Showing a value twice

A shown value is shown as it is: it has no blanks at its ends and no line feeds, and although an
elided value is longer than the limit, eliding it again puts the same dots between the same ends.
So it makes no difference whether a value was shortened before it was sent. The form of shown values
can also be told without showing anything (`OneLine` and `Fits`).
-/

namespace Postmortem.Trace

open Postmortem.Text

/-- A text in the form in which values are shown, but for its length. -/
structure OneLine (cs : List Char) : Prop extends NoBlankEnds cs where
  noFeed : '\n' ∉ cs

/-- What stands in place of a character is blank exactly when the character is. -/
private theorem isBlank_replaced (c : Char) :
    isBlank (if c == '\n' then ' ' else c) = isBlank c := by
  by_cases h : c = '\n'
  · rw [h]
    decide
  · rw [if_neg (by simpa using h)]

/-- Putting a text on one line gives a text on one line. -/
theorem oneLine_onOneLine (cs : List Char) : OneLine (onOneLine cs) := by
  have hends := noBlankEnds_trim cs
  refine ⟨⟨?_, ?_⟩, ?_⟩
  · intro c hc
    rw [onOneLine, List.head?_map, Option.mem_def, Option.map_eq_some_iff] at hc
    obtain ⟨d, hd, rfl⟩ := hc
    rw [isBlank_replaced]
    exact hends.head d hd
  · intro c hc
    rw [onOneLine, List.getLast?_map, Option.mem_def, Option.map_eq_some_iff] at hc
    obtain ⟨d, hd, rfl⟩ := hc
    rw [isBlank_replaced]
    exact hends.last d hd
  · intro hfeed
    obtain ⟨d, -, hd⟩ := List.mem_map.mp hfeed
    by_cases h : d = '\n'
    · rw [if_pos (by simpa using h)] at hd
      exact absurd hd (by decide)
    · rw [if_neg (by simpa using h)] at hd
      exact h hd

/-- A text on one line stays as it is. -/
theorem onOneLine_eq_self {cs : List Char} (h : OneLine cs) : onOneLine cs = cs := by
  rw [onOneLine, trim_eq_self h.toNoBlankEnds]
  have hsame : ∀ c ∈ cs, (if c == '\n' then ' ' else c) = c := by
    intro c hc
    rw [if_neg]
    rw [beq_iff_eq]
    rintro rfl
    exact h.noFeed hc
  rw [List.map_congr_left hsame, List.map_id']

/-- Eliding the middle of a text on one line leaves it on one line. -/
theorem oneLine_elide {cs : List Char} (h : OneLine cs) : OneLine (elide cs) := by
  rw [elide]
  split
  · exact h
  · rename_i hlong
    rw [maxShown] at hlong
    refine ⟨⟨?_, ?_⟩, ?_⟩
    · intro c hc
      apply h.head c
      rw [List.append_assoc, List.head?_append, List.head?_take, if_neg (by decide)] at hc
      cases cs with
      | nil => exact absurd (Nat.zero_le 50) hlong
      | cons d ds => exact hc
    · -- the last characters are those of the text itself
      intro c hc
      apply h.last c
      rw [List.getLast?_append, List.getLast?_drop, endShown, if_neg (by omega)] at hc
      cases hlast : cs.getLast? with
      | none =>
        rw [List.getLast?_eq_none_iff] at hlast
        rw [hlast] at hlong
        exact absurd (Nat.zero_le 50) hlong
      | some d =>
        rw [hlast] at hc
        exact hc
    · rw [List.mem_append, List.mem_append]
      rintro ((hc | hc) | hc)
      · exact h.noFeed (List.mem_of_mem_take hc)
      · exact absurd hc (by decide)
      · exact h.noFeed (List.mem_of_mem_drop hc)

/-- A text that is shown in full: a short one, or one with an ellipsis between two ends that are as
long as those of an elided text. -/
def Fits (cs : List Char) : Prop :=
  cs.length ≤ maxShown ∨
    cs.length = 2 * endShown + ellipsis.length ∧ (cs.drop endShown).take ellipsis.length = ellipsis

/-- What is left of a long text is as long as two ends and an ellipsis. -/
theorem length_elide {cs : List Char} (hlong : ¬ cs.length ≤ maxShown) :
    (elide cs).length = 2 * endShown + ellipsis.length := by
  rw [elide, if_neg hlong, List.length_append, List.length_append, List.length_take,
    List.length_drop]
  rw [maxShown] at hlong
  rw [endShown]
  omega

/-- Eliding the middle of a text makes it fit. -/
theorem fits_elide (cs : List Char) : Fits (elide cs) := by
  by_cases hlong : cs.length ≤ maxShown
  · left
    rw [elide, if_pos hlong]
    exact hlong
  · refine .inr ⟨length_elide hlong, ?_⟩
    have hhead : (cs.take endShown).length = endShown := by
      rw [maxShown] at hlong
      rw [List.length_take, endShown]
      omega
    rw [elide, if_neg hlong, List.append_assoc, List.drop_left' hhead, List.take_left]

/-- A text that fits stays as it is. -/
theorem elide_eq_self {cs : List Char} (h : Fits cs) : elide cs = cs := by
  rcases h with hshort | ⟨hlength, hmiddle⟩
  · exact if_pos hshort
  · have hlong : ¬ cs.length ≤ maxShown := by
      rw [hlength]
      decide
    have hend : cs.drop (cs.length - endShown) = (cs.drop endShown).drop ellipsis.length := by
      rw [hlength, List.drop_drop]
      rfl
    -- it is longer than the limit, but the ellipsis is put where one is already
    rw [elide, if_neg hlong, hend, List.append_assoc]
    calc cs.take endShown ++ (ellipsis ++ (cs.drop endShown).drop ellipsis.length)
        = cs.take endShown ++ ((cs.drop endShown).take ellipsis.length ++
            (cs.drop endShown).drop ellipsis.length) := by rw [hmiddle]
      _ = cs := by rw [List.take_append_drop, List.take_append_drop]

/-- Eliding twice is eliding once. -/
theorem elide_elide (cs : List Char) : elide (elide cs) = elide cs :=
  elide_eq_self (fits_elide cs)

/-- **Showing is idempotent.** -/
theorem shown_shown (s : String) : shown (shown s) = shown s := by
  have hchars : shownChars (shownChars s.toList) = shownChars s.toList := by
    rw [shownChars, shownChars, onOneLine_eq_self (oneLine_elide (oneLine_onOneLine s.toList)),
      elide_elide]
  rw [shown, shown, String.toList_ofList, hchars]

/-- A text is shown as it is exactly if it is on one line and fits. -/
theorem shownChars_eq_self_iff {cs : List Char} : shownChars cs = cs ↔ OneLine cs ∧ Fits cs := by
  constructor
  · intro h
    rw [← h]
    exact ⟨oneLine_elide (oneLine_onOneLine cs), fits_elide (onOneLine cs)⟩
  · rintro ⟨hline, hfits⟩
    rw [shownChars, onOneLine_eq_self hline, elide_eq_self hfits]

/-- A text that fits has at most 53 characters. -/
theorem Fits.length_le {cs : List Char} (h : Fits cs) : cs.length ≤ 53 := by
  rcases h with hshort | ⟨hlength, -⟩
  · rw [maxShown] at hshort
    omega
  · exact Nat.le_of_eq hlength

/-- **Showing projects texts onto those that are shown as they are.** These are the texts without
line feeds and without blanks at their ends that have at most 50 characters, or 53 of which the 26th
to the 28th are points. So what is shown has at most 53 characters, and an elided text is shown as
it is although it is longer than the limit. -/
theorem shown_projection (s : String) :
    shown (shown s) = shown s ∧
      (shown s = s ↔
        '\n' ∉ s.toList ∧ (∀ c ∈ s.toList.head?, isBlank c = false) ∧
          (∀ c ∈ s.toList.getLast?, isBlank c = false) ∧
          (s.toList.length ≤ 50 ∨
            s.toList.length = 53 ∧ (s.toList.drop 25).take 3 = ['.', '.', '.'])) ∧
      (shown s).toList.length ≤ 53 := by
  refine ⟨shown_shown s, ?_, ?_⟩
  · have hchars : shown s = s ↔ shownChars s.toList = s.toList := by
      rw [shown, ← String.toList_inj, String.toList_ofList]
    rw [hchars, shownChars_eq_self_iff]
    constructor
    · rintro ⟨⟨⟨hhead, hlast⟩, hfeed⟩, hfits⟩
      exact ⟨hfeed, hhead, hlast, hfits⟩
    · rintro ⟨hfeed, hhead, hlast, hfits⟩
      exact ⟨⟨⟨hhead, hlast⟩, hfeed⟩, hfits⟩
  · rw [shown, String.toList_ofList]
    exact (fits_elide (onOneLine s.toList)).length_le

/-- An elided text of 53 characters is shown as it is. -/
example : shown (.ofList (List.replicate 25 'x' ++ ellipsis ++ List.replicate 25 'y')) =
    .ofList (List.replicate 25 'x' ++ ellipsis ++ List.replicate 25 'y') := by decide

end Postmortem.Trace
