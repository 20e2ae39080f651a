import Postmortem.Collections.Table
import Postmortem.Line.Interest
import Postmortem.Text.Lines

/-!
# Line plans

Which lines of a program are worth recording, and the names to look up before each of them runs.
Lines are numbered from one, blank lines included.
-/

namespace Postmortem

open Postmortem.Text

/-- A line worth recording. -/
structure PlannedLine where
  /-- The line without blanks at its ends, as it is shown. -/
  text : String
  /-- The names and paths that it reads, in ascending order. -/
  names : List String
deriving BEq, DecidableEq, Repr, Inhabited

/-- The lines of a program that are worth recording, by number. -/
abbrev LinePlan := Table Nat PlannedLine

namespace LinePlan

open Line

/-- The plan of a single line, if it is worth recording. -/
def planLine? (parse : Parser) (line : List Char) : Option PlannedLine :=
  let text := trim line
  if text.isEmpty then none else
    let form := completed (.ofList text)
    if !isOfInterest parse form then none else
      let names := reads parse form
      if names.isEmpty then none else some ⟨.ofList text, names⟩

/-- The planned ones among lines that are numbered from `n` on. -/
def planFrom (parse : Parser) (n : Nat) : List (List Char) → List (Nat × PlannedLine)
  | [] => []
  | l :: ls =>
    match planLine? parse l with
    | some p => (n, p) :: planFrom parse (n + 1) ls
    | none => planFrom parse (n + 1) ls

theorem le_of_mem_planFrom {parse : Parser} {n : Nat} {ls : List (List Char)}
    {e : Nat × PlannedLine} (h : e ∈ planFrom parse n ls) : n ≤ e.1 := by
  induction ls generalizing n with
  | nil => simp [planFrom] at h
  | cons l ls ih =>
    rw [planFrom] at h
    split at h
    · rcases List.mem_cons.mp h with rfl | h
      · exact Nat.le_refl _
      · exact Nat.le_of_succ_le (ih h)
    · exact Nat.le_of_succ_le (ih h)

theorem planFrom_ascending (parse : Parser) (n : Nat) (ls : List (List Char)) :
    (planFrom parse n ls).Pairwise fun a b => Key.before a.1 b.1 = true := by
  induction ls generalizing n with
  | nil => exact List.Pairwise.nil
  | cons l ls ih =>
    rw [planFrom]
    split
    · refine List.pairwise_cons.mpr ⟨fun e h => ?_, ih _⟩
      exact decide_eq_true (le_of_mem_planFrom h)
    · exact ih _

/-- The plan of a program. -/
def ofSource (parse : Parser) (source : String) : LinePlan :=
  ⟨planFrom parse 1 (lines source.toList), planFrom_ascending parse 1 _⟩

/-- The names to look up on each planned line, by line number. -/
def nameTable (plan : LinePlan) : Table UInt64 (List String) :=
  .ofList (plan.entries.map fun e => (UInt64.ofNat e.1, e.2.names))

end LinePlan

end Postmortem
