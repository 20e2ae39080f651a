import Postmortem.Proofs.Line.Plan
import Postmortem.Proofs.Text.Blank
import Postmortem.Proofs.Text.Lines

/-!
# Plans are local

Whether a line is planned, and what for, is decided by the line alone, without the blanks at its
ends. So the plan of two programs one after the other is that of the first and, further down, that
of the second; and programs whose lines differ by blanks at their ends have the same plan.

## Shape of the argument

A return at the end of a line is a blank, and an empty line is never planned. So a plan can be made
from what stands between the line feeds (`LinePlan.entries_ofSource`), and joining two texts by a
line feed joins these parts (`Text.splitAt_append_cons`).
-/

namespace Postmortem

namespace Text

/-- A return at the end of a line is trimmed. -/
theorem trim_dropReturn (line : List Char) : trim (dropReturn '\r' line) = trim line := by
  rw [dropReturn]
  split
  · rename_i hlast
    obtain ⟨bare, rfl⟩ := List.getLast?_eq_some_iff.mp (beq_iff_eq.mp hlast)
    rw [List.dropLast_concat, trim_concat_of_isBlank rfl]
  · rfl

end Text

namespace LinePlan

open Line Postmortem.Text

variable {parse : Parser}

/-! ## The plan of lines -/

/-- Only what is left of a line without the blanks at its ends counts. -/
theorem planLine?_congr {line line' : List Char} (h : trim line = trim line') :
    planLine? parse line = planLine? parse line' := by
  rw [planLine?, planLine?, h]

/-- Lines that differ by blanks at their ends are planned alike. -/
theorem planFrom_congr {ls ls' : List (List Char)} (h : ls.map trim = ls'.map trim) (n : Nat) :
    planFrom parse n ls = planFrom parse n ls' := by
  induction ls generalizing ls' n with
  | nil =>
    rw [List.map_nil, eq_comm, List.map_eq_nil_iff] at h
    rw [h]
  | cons l ls ih =>
    obtain ⟨l', ls', rfl⟩ : ∃ l' tail, ls' = l' :: tail := by
      cases ls' with
      | nil => exact absurd h (by simp)
      | cons l' tail => exact ⟨l', tail, rfl⟩
    rw [List.map_cons, List.map_cons, List.cons.injEq] at h
    rw [planFrom, planFrom, planLine?_congr h.1, ih h.2]

/-- The lines behind others are numbered from where those end. -/
theorem planFrom_append (n : Nat) (ls ls' : List (List Char)) :
    planFrom parse n (ls ++ ls') =
      planFrom parse n ls ++ planFrom parse (n + ls.length) ls' := by
  induction ls generalizing n with
  | nil => rfl
  | cons l ls ih =>
    have hlength : n + (l :: ls).length = n + 1 + ls.length := by
      rw [List.length_cons]
      omega
    rw [List.cons_append, planFrom, planFrom, ih, hlength]
    split <;> rfl

/-- Further down, the same lines are planned. -/
theorem planFrom_add (n shift : Nat) (ls : List (List Char)) :
    planFrom parse (n + shift) ls = (planFrom parse n ls).map fun e => (e.1 + shift, e.2) := by
  induction ls generalizing n with
  | nil => rfl
  | cons l ls ih =>
    rw [planFrom, planFrom, Nat.add_right_comm, ih]
    split <;> rfl

/-- An empty line is not planned. -/
theorem planLine?_nil : planLine? parse [] = none := rfl

/-- The lines that feeds end are planned as what stands between the feeds. -/
theorem planFrom_closedLines (n : Nat) (parts : List (List Char)) :
    planFrom parse n (closedLines '\r' parts) = planFrom parse n parts := by
  induction parts generalizing n with
  | nil => rfl
  | cons part parts ih =>
    cases parts with
    | nil =>
      -- what no feed ends is no line if it is empty
      rw [closedLines]
      split
      · rename_i hempty
        rw [List.isEmpty_iff.mp hempty, planFrom, planFrom, planLine?_nil]
        rfl
      · rfl
    | cons next parts =>
      rw [closedLines.eq_def]
      dsimp only
      rw [planFrom, planFrom, planLine?_congr (trim_dropReturn part), ih]

/-! ## The plan of a program -/

/-- A plan is made from what stands between the line feeds. -/
theorem entries_ofSource (source : String) :
    (ofSource parse source).entries = planFrom parse 1 (splitAt '\n' source.toList) :=
  planFrom_closedLines 1 _

/-- All planned lines of a program are among its lines. -/
theorem le_of_mem_entries_ofSource {source : String} {e : Nat × PlannedLine}
    (h : e ∈ (ofSource parse source).entries) : 1 ≤ e.1 ∧ e.1 ≤ source.toList.count '\n' + 1 := by
  rw [entries_ofSource, mem_planFrom_iff] at h
  obtain ⟨i, line, hline, hnumber, -⟩ := h
  obtain ⟨hi, -⟩ := List.getElem?_eq_some_iff.mp hline
  rw [length_splitAt] at hi
  omega

/-- **Plans are local.** The plan of two programs with a line feed between them is that of the first,
and behind it that of the second, further down by the number of lines that the first then takes up;
no line number is in both. And programs whose lines are the same but for blanks at their ends have
the same plan. -/
theorem ofSource_append_feed (parse : Parser) :
    (∀ first second : String,
      let shift := first.toList.count '\n' + 1
      let plan := ofSource parse first
      let moved := (ofSource parse second).entries.map fun e => (e.1 + shift, e.2)
      (ofSource parse (first ++ "\n" ++ second)).entries = plan.entries ++ moved ∧
        ∀ e ∈ plan.entries, ∀ e' ∈ moved, e.1 < e'.1) ∧
      ∀ source source' : String,
        (lines source.toList).map trim = (lines source'.toList).map trim →
          ofSource parse source = ofSource parse source' := by
  constructor
  · intro first second shift plan moved
    constructor
    · have hfeed : (first ++ "\n" ++ second).toList = first.toList ++ '\n' :: second.toList := by
        rw [String.toList_append, String.toList_append, List.append_assoc]
        rfl
      rw [entries_ofSource, hfeed, splitAt_append_cons, planFrom_append, length_splitAt,
        planFrom_add, ← entries_ofSource, ← entries_ofSource]
    · intro e he e' he'
      obtain ⟨planned, hplanned, rfl⟩ := List.mem_map.mp he'
      have hfirst := le_of_mem_entries_ofSource he
      have hsecond := le_of_mem_entries_ofSource hplanned
      show e.1 < planned.1 + shift
      omega
  · intro source source' hlines
    apply Table.ext
    exact planFrom_congr hlines 1

/-- A program with indentation, blanks behind it, a return, and without a feed at its end is planned
as the bare one, which asks for `x` before its only line. -/
theorem ofSource_append_feed_blank :
    (lines "  y = x \t\r\n".toList).map trim = (lines "y = x".toList).map trim ∧
      ofSource assignmentParser "  y = x \t\r\n" = Table.empty.insert 1 ⟨"y = x", ["x"]⟩ := by
  have hlines : (lines "  y = x \t\r\n".toList).map trim = (lines "y = x".toList).map trim := by
    decide
  refine ⟨hlines, ?_⟩
  rw [(ofSource_append_feed assignmentParser).2 _ _ hlines, ofSource_assignmentParser]

end LinePlan

end Postmortem
