import Postmortem.Proofs.Json.Layout

/-!
# Texts on lines

The text of a value on lines is one of its layouts: the line feeds, the blanks further in and the
blank behind a colon all stand where a gap may stand. So it is read like the compact one.
-/

namespace Postmortem.Json

/-- The start of a line is a gap. -/
theorem gap_lineStart (depth : Nat) : Gap (lineStart depth) := by
  intro c hc
  rcases List.mem_cons.mp hc with rfl | hc
  · rfl
  · rw [List.eq_of_mem_replicate hc]
    rfl

/-- A value may have any gap before it. -/
theorem Written.gaps {j : Json} {g cs : List Char} (hg : Gap g) (h : Written (.value j) cs) :
    Written (.value j) (g ++ cs) := by
  induction g with
  | nil => exact h
  | cons c g ih =>
    have hc : isGap c = true := hg c List.mem_cons_self
    have hrest : Gap g := fun d hd => hg d (List.mem_cons_of_mem _ hd)
    exact .gap hc (ih hrest)

mutual

/-- **The layout on lines is a layout**, at all depths. -/
theorem written_lineChars (depth : Nat) (j : Json) : Written (.value j) (j.lineChars depth) := by
  cases j with
  | null => exact .null
  | flag b => exact .flag b
  | number n => exact .number n
  | text s => exact .text s
  | list items =>
    cases items with
    | nil => exact .list (.noItem gap_nil)
    | cons j js =>
      have hitems := written_itemLines (depth + 1) (j :: js) (List.cons_ne_nil j js)
      rw [lineChars]
      · exact .list hitems
      · exact List.cons_ne_nil j js
  | object members =>
    cases members with
    | nil => exact .object (.noMember gap_nil)
    | cons m ms =>
      have hmembers := written_memberLines (depth + 1) (m :: ms) (List.cons_ne_nil m ms)
      rw [lineChars]
      · exact .object hmembers
      · exact List.cons_ne_nil m ms

/-- So is that of items. -/
theorem written_itemLines (depth : Nat) (js : List Json) (hne : js ≠ []) :
    Written (.items js) (itemLines depth js) := by
  cases js with
  | nil => exact absurd rfl hne
  | cons j js =>
    have hvalue := (written_lineChars depth j).gaps (gap_lineStart depth)
    cases js with
    | nil =>
      have hlast := Written.lastItem hvalue (gap_lineStart (depth - 1))
      rw [itemLines]
      simpa only [List.append_assoc] using hlast
    | cons j' js =>
      have hmore := written_itemLines depth (j' :: js) (List.cons_ne_nil j' js)
      have hitem := Written.item hvalue gap_nil hmore (List.cons_ne_nil j' js)
      rw [itemLines]
      · exact hitem
      · exact List.cons_ne_nil j' js

/-- So is that of members. -/
theorem written_memberLines (depth : Nat) (ms : List (String × Json)) (hne : ms ≠ []) :
    Written (.members ms) (memberLines depth ms) := by
  cases ms with
  | nil => exact absurd rfl hne
  | cons m ms =>
    obtain ⟨k, j⟩ := m
    have hstart := gap_lineStart depth
    have hvalue : Written (.value j) (' ' :: j.lineChars depth) :=
      .gap rfl (written_lineChars depth j)
    cases ms with
    | nil =>
      have hlast := Written.lastMember (k := k) hstart gap_nil hvalue (gap_lineStart (depth - 1))
      rw [memberLines]
      simpa only [List.append_assoc, List.cons_append, List.nil_append] using hlast
    | cons m' ms =>
      have hmore := written_memberLines depth (m' :: ms) (List.cons_ne_nil m' ms)
      have hmember := Written.member (k := k) hstart gap_nil hvalue gap_nil hmore
        (List.cons_ne_nil m' ms)
      rw [memberLines]
      · simpa only [List.append_assoc, List.cons_append, List.nil_append] using hmember
      · exact List.cons_ne_nil m' ms

end

end Postmortem.Json
