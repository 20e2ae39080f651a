import Mathlib.Algebra.Order.Ring.Int
import Postmortem.Proofs.Collections.Table
import Postmortem.Trace.Log

/-!
# The countdown of a closing

A closing counts a budget down in a signed word. As long as the word is not below zero it counts as
numbers do: an entry fits exactly if what is left covers its characters and one more
(`sub_charge_neg_iff`). The upper half of the budgets begins below zero, where an entry overdraws
unless it carries the countdown past the least word (`sub_charge_neg_iff_of_neg`). Only the first
entry can do that, since a closing that goes on has a word that is not below zero.

## From any start

Whatever the word is at the beginning, a closing keeps the entries of the first lines that it takes
off (`kept_run_eq_append`), and which ones depends only on the entries (`kept_run_congr`).
-/

namespace Postmortem.TraceLog

/-! ## Words and numbers -/

/-- A budget in the lower half of its range is what it is taken for. -/
theorem toInt_budget {budget : UInt64} (h : budget.toNat < 2 ^ 63) :
    budget.toInt64.toInt = budget.toNat := by
  show budget.toBitVec.toInt = (budget.toBitVec.toNat : Int)
  apply BitVec.toInt_eq_toNat_of_lt
  rw [UInt64.toNat_toBitVec]
  omega

/-- A budget in the upper half is taken for a number below zero. -/
theorem toInt_budget_of_large {budget : UInt64} (h : 2 ^ 63 ≤ budget.toNat) :
    budget.toInt64.toInt = budget.toNat - 2 ^ 64 := by
  show budget.toBitVec.toInt = (budget.toBitVec.toNat : Int) - 2 ^ 64
  rw [BitVec.toInt_eq_toNat_cond, if_neg (by rw [UInt64.toNat_toBitVec]; omega)]
  rfl

/-- What is left after an entry. -/
theorem toInt_sub_charge (remaining : Int64) (entry : String) :
    (remaining - charge entry).toInt =
      (remaining.toInt - min (entry.length + 1 : Int) (2 ^ 63)).bmod (2 ^ 64) := by
  have hbound : Nat.pow 2 63 = 2 ^ 63 := rfl
  have hmin : ((min (entry.length + 1) (2 ^ 63) : Nat) : Int) =
      min (entry.length + 1 : Int) (2 ^ 63) := by omega
  rw [Int64.toInt_sub, charge, Int64.toInt_ofNat', hbound, hmin]
  exact Int.sub_bmod_bmod

/-- From zero on, the countdown stays in the range of the signed words. -/
theorem toInt_sub_charge_of_nonneg {remaining : Int64} (entry : String)
    (h : 0 ≤ remaining.toInt) :
    (remaining - charge entry).toInt =
      remaining.toInt - min (entry.length + 1 : Int) (2 ^ 63) := by
  have hlt := remaining.toInt_lt
  rw [toInt_sub_charge]
  apply Int.bmod_eq_of_le <;> omega

/-- From zero on, an entry overdraws if what is left does not cover it. -/
theorem sub_charge_neg_iff {remaining : Int64} (entry : String) (h : 0 ≤ remaining.toInt) :
    remaining - charge entry < 0 ↔ remaining.toInt < entry.length + 1 := by
  have hlt := remaining.toInt_lt
  rw [Int64.lt_iff_toInt_lt, toInt_sub_charge_of_nonneg entry h, Int64.toInt_zero]
  omega

/-- From below zero, an entry overdraws unless the countdown leaves the range. -/
theorem sub_charge_neg_iff_of_neg {remaining : Int64} (entry : String)
    (h : remaining.toInt < 0) :
    remaining - charge entry < 0 ↔ -2 ^ 63 ≤ remaining.toInt - (entry.length + 1) := by
  have hle := remaining.le_toInt
  rw [Int64.lt_iff_toInt_lt, toInt_sub_charge, Int64.toInt_zero, Int.bmod_def]
  omega

/-! ## One line -/

namespace Closing

variable {c d : Closing} {line : Nat} {lines : List Nat} {entry : String}

/-- All that taking off a line can come to. -/
inductive ComesTo (c : Closing) (line : Nat) : Outcome → Prop where
  | skipped (hentry : c.entries.get? line = none) : c.ComesTo line .skipped
  | kept {entry : String} (hentry : c.entries.get? line = some entry)
    (hfits : ¬ c.remaining - charge entry < 0) :
    c.ComesTo line
      (.kept ⟨c.remaining - charge entry, c.entries.erase line, entry :: c.kept⟩)
  | overdrawn {entry : String} (hentry : c.entries.get? line = some entry)
    (hlarge : c.remaining - charge entry < 0) :
    c.ComesTo line (.overdrawn ⟨c.remaining - charge entry, c.entries.erase line, c.kept⟩)

theorem comesTo_of_takeOff {o : Outcome} (h : c.takeOff line = o) : c.ComesTo line o := by
  subst h
  rw [takeOff]
  split
  · exact .skipped ‹_›
  · dsimp only
    split
    · exact .overdrawn ‹_› ‹_›
    · exact .kept ‹_› ‹_›

/-- An entry that fits is kept. -/
theorem takeOff_of_fits (hentry : c.entries.get? line = some entry)
    (hfits : ¬ c.remaining - charge entry < 0) :
    c.takeOff line =
      .kept ⟨c.remaining - charge entry, c.entries.erase line, entry :: c.kept⟩ := by
  simp only [takeOff, hentry, if_neg hfits]

/-- One that does not fit overdraws. -/
theorem takeOff_of_large (hentry : c.entries.get? line = some entry)
    (hlarge : c.remaining - charge entry < 0) :
    c.takeOff line =
      .overdrawn ⟨c.remaining - charge entry, c.entries.erase line, c.kept⟩ := by
  simp only [takeOff, hentry, if_pos hlarge]

theorem run_of_skipped (h : c.takeOff line = .skipped) : c.run (line :: lines) = c.run lines := by
  simp only [run, h]

theorem run_of_kept (h : c.takeOff line = .kept d) : c.run (line :: lines) = d.run lines := by
  simp only [run, h]

theorem run_of_overdrawn (h : c.takeOff line = .overdrawn d) :
    c.run (line :: lines) = (d, lines) := by
  simp only [run, h]

end Closing

/-! ## All lines, from any start -/

/-- Records of which entries are made: no two are of one line. -/
structure Lists (entries : Table Nat String) (records : List (Nat × String)) : Prop where
  nodup : (records.map (·.1)).Nodup
  get? : ∀ r ∈ records, entries.get? r.1 = some r.2

namespace Lists

variable {entries : Table Nat String} {r : Nat × String} {records : List (Nat × String)}

theorem head (h : Lists entries (r :: records)) : entries.get? r.1 = some r.2 :=
  h.get? r List.mem_cons_self

/-- Taking off a line leaves the other entries as they are. -/
theorem tail (h : Lists entries (r :: records)) : Lists (entries.erase r.1) records := by
  obtain ⟨hline, hnodup⟩ := List.nodup_cons.mp h.nodup
  refine ⟨hnodup, fun s hs => ?_⟩
  have hne : s.1 ≠ r.1 := fun heq => hline (List.mem_map.mpr ⟨s, hs, heq⟩)
  rw [Table.get?_erase_of_ne hne]
  exact h.get? s (List.mem_cons_of_mem r hs)

end Lists

namespace Closing

/-- A closing puts the entries of the first records before those that it has kept already. -/
theorem kept_run_eq_append {c : Closing} {records : List (Nat × String)}
    (h : Lists c.entries records) :
    ∃ first, first <+: records ∧
      (c.run (records.map (·.1))).1.kept = (first.map (·.2)).reverse ++ c.kept := by
  induction records generalizing c with
  | nil => exact ⟨[], List.prefix_rfl, rfl⟩
  | cons r records ih =>
    by_cases hlarge : c.remaining - charge r.2 < 0
    · refine ⟨[], List.nil_prefix, ?_⟩
      rw [List.map_cons, run_of_overdrawn (takeOff_of_large h.head hlarge)]
      rfl
    · obtain ⟨first, hfirst, hkept⟩ :=
        ih (c := ⟨c.remaining - charge r.2, c.entries.erase r.1, r.2 :: c.kept⟩) h.tail
      refine ⟨r :: first, List.cons_prefix_cons.mpr ⟨rfl, hfirst⟩, ?_⟩
      rw [List.map_cons, run_of_kept (takeOff_of_fits h.head hlarge), hkept, List.map_cons,
        List.reverse_cons, List.append_assoc, List.singleton_append]

/-- What a closing keeps depends on nothing but the word that it starts from and the entries. -/
theorem kept_run_congr {c d : Closing} {records : List (Nat × String)}
    (hc : Lists c.entries records) (hd : Lists d.entries records)
    (hremaining : c.remaining = d.remaining) (hkept : c.kept = d.kept) :
    (c.run (records.map (·.1))).1.kept = (d.run (records.map (·.1))).1.kept := by
  induction records generalizing c d with
  | nil => exact hkept
  | cons r records ih =>
    rw [List.map_cons]
    by_cases hlarge : c.remaining - charge r.2 < 0
    · rw [run_of_overdrawn (takeOff_of_large hc.head hlarge),
        run_of_overdrawn (takeOff_of_large hd.head (hremaining ▸ hlarge))]
      exact hkept
    · rw [run_of_kept (takeOff_of_fits hc.head hlarge),
        run_of_kept (takeOff_of_fits hd.head (hremaining ▸ hlarge))]
      exact ih hc.tail hd.tail (by rw [hremaining]) (by rw [hkept])

end Closing

end Postmortem.TraceLog
