import Mathlib.Algebra.Ring.Nat
import Mathlib.Data.List.Nodup
import Postmortem.Proofs.Trace.Countdown

/-!
# The trace of a log is the newest part of its history

A log keeps its entries apart from the order of its lines, and both change with every record. What
a closing gives can be told from the history alone: of the records since the closing before, the
last one of each line counts, and of these the longest newest part that fits into the budget makes
up the trace.

## Shape of the proof

`Holds` ties both parts of a log to the records since the last closing. One operation keeps it
(`Holds.step`), so it holds after every history (`holds_run`). The walk over the lines then meets
the entries in the order of their records (`Closing.kept_run_of_nonneg`), and where it stops is
where the longest fitting part begins (`longestWithin_concat`).
-/

namespace Postmortem.TraceLog

/-! ## Histories -/

/-- What can be done with a log. -/
inductive Operation where
  | record (line : Nat) (entry : String)
  | finalize
deriving DecidableEq, Repr

/-- The log after an operation. -/
def step (l : TraceLog) : Operation → TraceLog
  | .record line entry => l.record line entry
  | .finalize => l.finalize.2

/-- The log after a history. -/
def run (l : TraceLog) (history : List Operation) : TraceLog := history.foldl step l

/-- The records so far after an operation: closing forgets them. -/
def note (records : List (Nat × String)) : Operation → List (Nat × String)
  | .record line entry => records ++ [(line, entry)]
  | .finalize => []

/-- The records of a history since its last closing, or since it began. -/
def pending (history : List Operation) : List (Nat × String) := history.foldl note []

/-- The records that no later one of the same line replaces. -/
def lastRecords : List (Nat × String) → List (Nat × String)
  | [] => []
  | r :: rs => if rs.any (·.1 == r.1) then lastRecords rs else r :: lastRecords rs

/-- The characters that entries take up, each counting one more. -/
def cost (entries : List String) : Nat := (entries.map fun e => e.length + 1).sum

/-- The longest part at the end of a list of entries that costs no more than a budget. -/
def longestWithin (budget : Nat) : List String → List String
  | [] => []
  | e :: es => if cost (e :: es) ≤ budget then e :: es else longestWithin budget es

/-- What closing a log gives after a history, told from the history alone. -/
def expected (budget : Nat) (history : List Operation) : String :=
  textOf (longestWithin budget ((lastRecords (pending history)).map (·.2)))

/-! ## The longest fitting part -/

@[simp] theorem cost_nil : cost [] = 0 := rfl

@[simp] theorem cost_cons (e : String) (es : List String) :
    cost (e :: es) = e.length + 1 + cost es := by
  simp [cost]

theorem cost_append (es fs : List String) : cost (es ++ fs) = cost es + cost fs := by
  simp [cost]

/-- The longest fitting part stands at the end of the list. -/
theorem longestWithin_suffix (budget : Nat) (es : List String) :
    longestWithin budget es <:+ es := by
  induction es with
  | nil => exact List.suffix_refl []
  | cons e es ih =>
    rw [longestWithin]
    split
    · exact List.suffix_refl _
    · exact ih.trans (List.suffix_cons e es)

/-- The longest fitting part fits. -/
theorem cost_longestWithin (budget : Nat) (es : List String) :
    cost (longestWithin budget es) ≤ budget := by
  induction es with
  | nil => exact Nat.zero_le _
  | cons e es ih =>
    rw [longestWithin]
    split
    · assumption
    · exact ih

/-- Every part at the end of the list that fits is part of the longest one. -/
theorem suffix_longestWithin {budget : Nat} {es part : List String} (hpart : part <:+ es)
    (hcost : cost part ≤ budget) : part <:+ longestWithin budget es := by
  induction es with
  | nil => exact hpart
  | cons e es ih =>
    rw [longestWithin]
    split
    · exact hpart
    · rename_i hlarge
      rcases List.suffix_cons_iff.mp hpart with rfl | hpart
      · exact absurd hcost hlarge
      · exact ih hpart

/-- The longest fitting part of a list is found from its end: the last entry belongs to it if it
fits, and what is left of the budget goes to those before. -/
theorem longestWithin_concat (budget : Nat) (es : List String) (e : String) :
    longestWithin budget (es ++ [e]) =
      if e.length + 1 ≤ budget then longestWithin (budget - (e.length + 1)) es ++ [e] else [] := by
  induction es with
  | nil =>
    by_cases h : e.length + 1 ≤ budget
    · simp [longestWithin, h]
    · simp [longestWithin, h]
  | cons f es ih =>
    rw [List.cons_append, longestWithin, ih, longestWithin]
    simp only [cost_cons, cost_append, cost_nil]
    by_cases h : e.length + 1 ≤ budget
    · rw [if_pos h, if_pos h]
      by_cases hall : f.length + 1 + cost es ≤ budget - (e.length + 1)
      · rw [if_pos (by omega), if_pos hall]
        rfl
      · rw [if_neg (by omega), if_neg hall]
    · rw [if_neg h, if_neg h, if_neg (by omega)]

/-! ## The last records -/

/-- One record more replaces those of its line and is the last. -/
theorem lastRecords_concat (rs : List (Nat × String)) (r : Nat × String) :
    lastRecords (rs ++ [r]) = (lastRecords rs).filter (fun s => s.1 != r.1) ++ [r] := by
  induction rs with
  | nil => simp [lastRecords]
  | cons s rs ih =>
    rw [List.cons_append, lastRecords, ih, lastRecords]
    by_cases hlater : rs.any (·.1 == s.1) = true
    · rw [if_pos hlater, if_pos (by simp [hlater])]
    · rw [if_neg hlater]
      by_cases hline : s.1 = r.1
      · rw [if_pos (by simp [hline]), List.filter_cons_of_neg (by simp [hline])]
      · rw [if_neg (by simpa [hlater] using fun h => hline h.symm),
          List.filter_cons_of_pos (by simpa using hline), List.cons_append]

/-- The last records are those that no later one of their line follows. -/
theorem mem_lastRecords_iff {rs : List (Nat × String)} {r : Nat × String} :
    r ∈ lastRecords rs ↔
      ∃ before after, rs = before ++ r :: after ∧ ∀ s ∈ after, s.1 ≠ r.1 := by
  induction rs with
  | nil => simp [lastRecords]
  | cons s rs ih =>
    have hlater : rs.any (·.1 == s.1) = true ↔ ∃ t ∈ rs, t.1 = s.1 := by
      simp only [List.any_eq_true, beq_iff_eq]
    have hsplit : (∃ before after, s :: rs = before ++ r :: after ∧ ∀ t ∈ after, t.1 ≠ r.1) ↔
        (s = r ∧ ∀ t ∈ rs, t.1 ≠ r.1) ∨ r ∈ lastRecords rs := by
      rw [ih]
      constructor
      · rintro ⟨before, after, heq, hafter⟩
        rcases List.cons_eq_append_iff.mp heq with ⟨-, hhead⟩ | ⟨before, rfl, hrest⟩
        · obtain ⟨rfl, rfl⟩ := List.cons.inj hhead
          exact .inl ⟨rfl, hafter⟩
        · exact .inr ⟨before, after, hrest, hafter⟩
      · rintro (⟨rfl, hafter⟩ | ⟨before, after, rfl, hafter⟩)
        · exact ⟨[], rs, rfl, hafter⟩
        · exact ⟨s :: before, after, rfl, hafter⟩
    rw [hsplit, lastRecords]
    by_cases hany : rs.any (·.1 == s.1) = true
    · rw [if_pos hany]
      refine ⟨.inr, ?_⟩
      rintro (⟨rfl, hnone⟩ | hmem)
      · obtain ⟨t, ht, hline⟩ := hlater.mp hany
        exact absurd hline (hnone t ht)
      · exact hmem
    · rw [if_neg hany, List.mem_cons]
      refine or_congr_left ⟨?_, fun h => h.1.symm⟩
      rintro rfl
      exact ⟨rfl, fun t ht hline => hany (hlater.mpr ⟨t, ht, hline⟩)⟩

/-- The last records are records. -/
theorem mem_of_mem_lastRecords {rs : List (Nat × String)} {r : Nat × String}
    (h : r ∈ lastRecords rs) : r ∈ rs := by
  obtain ⟨before, after, rfl, -⟩ := mem_lastRecords_iff.mp h
  exact List.mem_append_right before List.mem_cons_self

/-- No line has two last records. -/
theorem nodup_lastRecords (rs : List (Nat × String)) : ((lastRecords rs).map (·.1)).Nodup := by
  induction rs with
  | nil => exact List.nodup_nil
  | cons s rs ih =>
    rw [lastRecords]
    split
    · exact ih
    · rename_i hlater
      rw [List.map_cons, List.nodup_cons]
      refine ⟨fun hmem => hlater ?_, ih⟩
      obtain ⟨r, hr, hline⟩ := List.mem_map.mp hmem
      rw [List.any_eq_true]
      exact ⟨r, mem_of_mem_lastRecords hr, by simp [hline]⟩

/-- A record that a later one of its line follows is not among the last ones, and hides none. -/
theorem lastRecords_leaveOut (before : List (Nat × String)) {r : Nat × String}
    {after : List (Nat × String)} (hlater : ∃ s ∈ after, s.1 = r.1) :
    lastRecords (before ++ r :: after) = lastRecords (before ++ after) := by
  have hany : after.any (·.1 == r.1) = true := by
    rw [List.any_eq_true]
    obtain ⟨s, hs, hline⟩ := hlater
    exact ⟨s, hs, by simp [hline]⟩
  induction before with
  | nil => rw [List.nil_append, lastRecords, if_pos hany, List.nil_append]
  | cons t before ih =>
    -- the line of the record occurs after it anyway
    have hsame : (before ++ r :: after).any (·.1 == t.1) = (before ++ after).any (·.1 == t.1) := by
      by_cases hline : r.1 = t.1
      · rw [hline] at hany
        simp [hany]
      · have hother : (r.1 == t.1) = false := by simpa using hline
        simp [hother]
    rw [List.cons_append, List.cons_append, lastRecords, lastRecords, ih, hsame]

/-! ## The invariant -/

/-- A log holds the records since its last closing: its lines are those of the last records, the
newest first, and its entries are theirs. -/
structure Holds (l : TraceLog) (records : List (Nat × String)) : Prop where
  recency : l.recency = ((lastRecords records).map (·.1)).reverse
  entries : ∀ r ∈ lastRecords records, l.entries.get? r.1 = some r.2

theorem holds_empty (budget : UInt64) : Holds (empty budget) [] :=
  ⟨rfl, fun r hr => absurd hr (by simp [lastRecords])⟩

/-- Recording keeps both parts of the log in step with the records. -/
theorem Holds.record {l : TraceLog} {records : List (Nat × String)} (h : Holds l records)
    (line : Nat) (entry : String) :
    Holds (l.record line entry) (records ++ [(line, entry)]) := by
  have hnodup : l.recency.Nodup := by
    rw [h.recency, List.nodup_reverse]
    exact nodup_lastRecords records
  constructor
  · -- the line moves to the front, as its record moves to the end
    rw [lastRecords_concat, List.map_append, List.reverse_append]
    show line :: l.recency.erase line = _
    rw [hnodup.erase_eq_filter, h.recency, List.filter_reverse, List.filter_map]
    rfl
  · intro r hr
    show (l.entries.insert line entry).get? r.1 = some r.2
    rw [lastRecords_concat] at hr
    rcases List.mem_append.mp hr with hr | hr
    · obtain ⟨hr, hne⟩ := List.mem_filter.mp hr
      rw [Table.get?_insert_of_ne (by simpa using hne)]
      exact h.entries r hr
    · rw [List.mem_singleton.mp hr]
      exact Table.get?_insert_self _ _ _

/-- Every operation keeps the log in step with the records. -/
theorem Holds.step {l : TraceLog} {records : List (Nat × String)} (h : Holds l records)
    (op : Operation) : Holds (l.step op) (note records op) := by
  cases op with
  | record line entry => exact h.record line entry
  | finalize => exact holds_empty l.budget

/-- After every history the log holds the records since its last closing. -/
theorem holds_run (budget : UInt64) (history : List Operation) :
    Holds ((empty budget).run history) (pending history) := by
  -- the log and the records both vary
  have go : ∀ (ops : List Operation) (l : TraceLog) (records : List (Nat × String)),
      Holds l records → Holds (ops.foldl TraceLog.step l) (ops.foldl note records) := by
    intro ops
    induction ops with
    | nil => exact fun _ _ h => h
    | cons op ops ih => exact fun l records h => ih _ _ (h.step op)
  exact go history _ _ (holds_empty budget)

/-- No operation changes the budget. -/
theorem budget_run (l : TraceLog) (history : List Operation) :
    (l.run history).budget = l.budget := by
  induction history generalizing l with
  | nil => rfl
  | cons op ops ih =>
    have hstep : (l.step op).budget = l.budget := by cases op <;> rfl
    exact (ih (l.step op)).trans hstep

/-! ## The walk over the lines -/

/-- From a word that is not below zero, the walk from the newest line on finds the longest fitting
part of the entries. -/
theorem Closing.kept_run_of_nonneg {c : Closing} {newest : List (Nat × String)}
    (h : Lists c.entries newest) {remaining : Nat} (hremaining : c.remaining.toInt = remaining) :
    (c.run (newest.map (·.1))).1.kept =
      longestWithin remaining (newest.map (·.2)).reverse ++ c.kept := by
  induction newest generalizing c remaining with
  | nil => rfl
  | cons r rs ih =>
    have hnonneg : 0 ≤ c.remaining.toInt := by omega
    have hover := sub_charge_neg_iff r.2 hnonneg
    simp only [List.map_cons, List.reverse_cons, longestWithin_concat]
    by_cases hfits : r.2.length + 1 ≤ remaining
    · -- what is left is again a number that is not below zero
      have hleft : (c.remaining - charge r.2).toInt = (remaining - (r.2.length + 1) : Nat) := by
        have hlt := c.remaining.toInt_lt
        rw [toInt_sub_charge_of_nonneg r.2 hnonneg]
        omega
      rw [run_of_kept (takeOff_of_fits h.head (by rw [hover]; omega)), ih h.tail hleft,
        if_pos hfits, List.append_assoc, List.singleton_append]
    · -- the walk stops at the first entry that does not fit, and so does the longest part
      rw [run_of_overdrawn (takeOff_of_large h.head (by rw [hover]; omega)), if_neg hfits]
      rfl

/-- The entries of a log that holds some records are those of the last ones. -/
theorem Holds.lists {l : TraceLog} {records : List (Nat × String)} (h : Holds l records) :
    Lists l.closing.entries (lastRecords records).reverse where
  nodup := by
    rw [List.map_reverse, List.nodup_reverse]
    exact nodup_lastRecords records
  get? r hr := h.entries r (List.mem_reverse.mp hr)

theorem Holds.trace_eq_kept {l : TraceLog} {records : List (Nat × String)} (h : Holds l records) :
    l.trace = (l.closing.run ((lastRecords records).reverse.map (·.1))).1.kept := by
  rw [trace, h.recency, List.map_reverse]

/-- The retained entries of a log that holds some records. -/
theorem Holds.trace_eq {l : TraceLog} {records : List (Nat × String)} (h : Holds l records)
    (hbudget : l.budget.toNat < 2 ^ 63) :
    l.trace = longestWithin l.budget.toNat ((lastRecords records).map (·.2)) := by
  rw [h.trace_eq_kept, Closing.kept_run_of_nonneg h.lists (toInt_budget hbudget), List.map_reverse,
    List.reverse_reverse]
  exact List.append_nil _

/-- Whatever the budget, the trace of a log consists of the entries of some of the last records. -/
theorem Holds.trace_suffix {l : TraceLog} {records : List (Nat × String)} (h : Holds l records) :
    ∃ kept, kept <:+ lastRecords records ∧ l.trace = kept.map (·.2) := by
  obtain ⟨first, hfirst, hkept⟩ := Closing.kept_run_eq_append h.lists
  refine ⟨first.reverse, ?_, ?_⟩
  · rw [← List.reverse_prefix, List.reverse_reverse]
    exact hfirst
  · rw [h.trace_eq_kept, hkept, List.map_reverse]
    exact List.append_nil _

/-- Logs of one budget with the same last records have the same trace. -/
theorem Holds.trace_congr {l l' : TraceLog} {records records' : List (Nat × String)}
    (h : Holds l records) (h' : Holds l' records') (hbudget : l.budget = l'.budget)
    (hlast : lastRecords records = lastRecords records') : l.trace = l'.trace := by
  have hlists := h'.lists
  rw [h.trace_eq_kept, h'.trace_eq_kept, ← hlast]
  rw [← hlast] at hlists
  exact Closing.kept_run_congr h.lists hlists (congrArg UInt64.toInt64 hbudget) rfl

/-! ## The text -/

/-- Entries joined by line feeds are no longer than they cost. -/
theorem length_textOf_le (entries : List String) : (textOf entries).length ≤ cost entries := by
  have go : ∀ es : List String, (['\n'].intercalate (es.map String.toList)).length ≤ cost es := by
    intro es
    induction es with
    | nil => exact Nat.le_refl 0
    | cons e es ih =>
      cases es with
      | nil =>
        rw [List.map_singleton, List.intercalate_singleton, String.length_toList, cost_cons]
        omega
      | cons f es =>
        rw [List.map_cons, List.map_cons, List.intercalate_cons_cons, ← List.map_cons, cost_cons]
        simp only [List.length_append, List.length_singleton, String.length_toList]
        omega
  rw [textOf, String.length_ofList]
  exact go entries

/-- **Closing a log gives the newest part of its history.** After every sequence of records and
closings, the next closing joins the longest part that fits into the budget at the end of the last
records since the closing before. No older entry is kept once a newer one is dropped, a closing
without a record before it gives nothing, and the budget bounds the characters of the text. -/
theorem finalize_eq_expected {budget : UInt64} (hbudget : budget.toNat < 2 ^ 63)
    (history : List Operation) :
    let log := (empty budget).run history
    let entries := (lastRecords (pending history)).map (·.2)
    log.finalize.1 = expected budget.toNat history ∧
      log.trace <:+ entries ∧ cost log.trace ≤ budget.toNat ∧
      (∀ part, part <:+ entries → cost part ≤ budget.toNat → part <:+ log.trace) ∧
      (pending history = [] → log.finalize.1 = "") ∧
      log.finalize.1.length ≤ budget.toNat := by
  intro log entries
  have hlog : log.budget = budget := budget_run (empty budget) history
  have htrace : log.trace = longestWithin budget.toNat entries := by
    have h := (holds_run budget history).trace_eq (by rw [hlog]; exact hbudget)
    rwa [hlog] at h
  have htext : log.finalize.1 = textOf log.trace := rfl
  have hfits : cost log.trace ≤ budget.toNat := by
    rw [htrace]
    exact cost_longestWithin _ _
  refine ⟨?_, ?_, hfits, ?_, ?_, ?_⟩
  · rw [htext, htrace]
    rfl
  · rw [htrace]
    exact longestWithin_suffix _ _
  · intro part hpart hcost
    rw [htrace]
    exact suffix_longestWithin hpart hcost
  · intro hnone
    rw [htext, htrace]
    simp only [entries, hnone]
    rfl
  · rw [htext]
    exact Nat.le_trans (length_textOf_le log.trace) hfits

/-- Ten characters hold two entries of four. The line recorded anew counts as the newest, the oldest
line is dropped, and what an earlier closing gave is gone. -/
theorem finalize_eq_expected_ten :
    (10 : UInt64).toNat < 2 ^ 63 ∧
      ((empty 10).run [.record 1 "a", .finalize, .record 2 "bbbb", .record 1 "x",
        .record 3 "cccc", .record 1 "dddd"]).finalize.1 = "cccc\ndddd" := by
  have hbudget : (10 : UInt64).toNat < 2 ^ 63 := by decide
  refine ⟨hbudget, ?_⟩
  have h := (finalize_eq_expected hbudget [.record 1 "a", .finalize, .record 2 "bbbb",
    .record 1 "x", .record 3 "cccc", .record 1 "dddd"]).1
  rw [h]
  rfl

/-! ## Greater budgets

A budget is a number of 64 bits, but the walk counts it down as a signed one. Below half of that
range a greater budget keeps no less; from there on it is overdrawn before the walk begins. Just
above the half, the newest entry carries the countdown past the least of the signed numbers to the
greatest ones, and what was overdrawn covers entries again (`Holds.trace_eq_of_wrap`). What is said
of the upper half is therefore said of budgets that are further from its beginning than the entries
are long.
-/

/-- The longest part that fits into a budget is part of the one that fits into a greater budget. -/
theorem longestWithin_suffix_of_le {budget budget' : Nat} (hle : budget ≤ budget')
    (es : List String) : longestWithin budget es <:+ longestWithin budget' es :=
  suffix_longestWithin (longestWithin_suffix budget es)
    (Nat.le_trans (cost_longestWithin budget es) hle)

/-- From below zero nothing is kept, if the budget is far enough from the least word. -/
theorem Holds.trace_eq_nil {l : TraceLog} {records : List (Nat × String)} (h : Holds l records)
    (hlarge : 2 ^ 63 ≤ l.budget.toNat)
    (hfar : ∀ r ∈ lastRecords records, 2 ^ 63 + r.2.length < l.budget.toNat) : l.trace = [] := by
  have hlists := h.lists
  rw [h.trace_eq_kept]
  cases hnewest : (lastRecords records).reverse with
  | nil => rfl
  | cons r older =>
    -- the newest entry ends the walk
    have hr : r ∈ lastRecords records := List.mem_reverse.mp (hnewest ▸ List.mem_cons_self)
    have hbudget : l.closing.remaining.toInt = l.budget.toNat - 2 ^ 64 :=
      toInt_budget_of_large hlarge
    have hbelow := l.budget.toNat_lt
    have hover : l.closing.remaining - charge r.2 < 0 := by
      rw [sub_charge_neg_iff_of_neg r.2 (by omega), hbudget]
      have := hfar r hr
      omega
    rw [hnewest] at hlists
    rw [List.map_cons, Closing.run_of_overdrawn (Closing.takeOff_of_large hlists.head hover)]
    rfl

/-- Closer to it, the newest entry carries the countdown around, and all is as if the budget had
been counted as the unsigned number that it is. -/
theorem Holds.trace_eq_of_wrap {l : TraceLog} {records older : List (Nat × String)}
    {r : Nat × String} (h : Holds l records) (hnewest : lastRecords records = older ++ [r])
    (hlength : r.2.length < 2 ^ 63) (hlarge : 2 ^ 63 ≤ l.budget.toNat)
    (hnear : l.budget.toNat ≤ 2 ^ 63 + r.2.length) :
    l.trace = longestWithin l.budget.toNat ((lastRecords records).map (·.2)) := by
  have hlists := h.lists
  have hbudget : l.closing.remaining.toInt = l.budget.toNat - 2 ^ 64 :=
    toInt_budget_of_large hlarge
  have hfits : ¬ l.closing.remaining - charge r.2 < 0 := by
    rw [sub_charge_neg_iff_of_neg r.2 (by omega), hbudget]
    omega
  have hleft : (l.closing.remaining - charge r.2).toInt =
      (l.budget.toNat - (r.2.length + 1) : Nat) := by
    rw [toInt_sub_charge, hbudget, Int.bmod_def]
    omega
  rw [hnewest, List.reverse_concat] at hlists
  rw [h.trace_eq_kept, hnewest, List.reverse_concat, List.map_cons,
    Closing.run_of_kept (Closing.takeOff_of_fits hlists.head hfits),
    Closing.kept_run_of_nonneg hlists.tail hleft, List.map_reverse, List.reverse_reverse,
    List.map_append, List.map_singleton, longestWithin_concat, if_pos (by omega)]
  rfl

example : ((empty 9223372036854775808).run [.record 1 "a"]).trace = ["a"] := rfl

/-- **A greater budget loses no entry as long as it is below half of its range**, and from there on
it keeps none: whatever a smaller one retains is lost then. -/
theorem trace_suffix_trace {budget budget' : UInt64} (hle : budget ≤ budget')
    (history : List Operation) :
    let trace := ((empty budget).run history).trace
    let trace' := ((empty budget').run history).trace
    let entries := (lastRecords (pending history)).map (·.2)
    (budget'.toNat < 2 ^ 63 → trace <:+ trace') ∧
      (2 ^ 63 ≤ budget'.toNat → (∀ e ∈ entries, 2 ^ 63 + e.length < budget'.toNat) →
        trace' = [] ∧ (trace <:+ trace' ↔ trace = [])) := by
  intro trace trace' entries
  have hbudget (b : UInt64) : ((empty b).run history).budget = b := budget_run (empty b) history
  refine ⟨?_, ?_⟩
  · intro hsigned
    have hnat : budget.toNat ≤ budget'.toNat := UInt64.le_iff_toNat_le.mp hle
    have htrace := (holds_run budget history).trace_eq (by rw [hbudget]; omega)
    have htrace' := (holds_run budget' history).trace_eq (by rw [hbudget]; exact hsigned)
    rw [hbudget] at htrace htrace'
    simp only [trace, trace', htrace, htrace']
    exact longestWithin_suffix_of_le hnat _
  · intro hunsigned hfar
    have hnone : trace' = [] := by
      apply (holds_run budget' history).trace_eq_nil
      · rw [hbudget]
        exact hunsigned
      · intro r hr
        rw [hbudget]
        exact hfar r.2 (List.mem_map_of_mem hr)
    refine ⟨hnone, ?_⟩
    rw [hnone, List.suffix_nil]

/-- Ten characters keep two entries of three, and the greatest budget below half of the range keeps
all of them. -/
theorem trace_suffix_trace_ten :
    (10 : UInt64) ≤ 9223372036854775807 ∧ (9223372036854775807 : UInt64).toNat < 2 ^ 63 ∧
      ((empty 10).run [.record 1 "aaaa", .record 2 "bbbb", .record 3 "cccc"]).trace <:+
        ((empty 9223372036854775807).run
          [.record 1 "aaaa", .record 2 "bbbb", .record 3 "cccc"]).trace := by
  have hle : (10 : UInt64) ≤ 9223372036854775807 := by decide
  have hsigned : (9223372036854775807 : UInt64).toNat < 2 ^ 63 := by decide
  exact ⟨hle, hsigned, (trace_suffix_trace hle _).1 hsigned⟩

/-- The greatest budget of all loses an entry that two thousand characters keep. -/
theorem not_trace_suffix_trace_greatest :
    (2000 : UInt64) ≤ 18446744073709551615 ∧
      ¬ ((empty 2000).run [.record 1 "a"]).trace <:+
        ((empty 18446744073709551615).run [.record 1 "a"]).trace := by
  refine ⟨by decide, ?_⟩
  have hkept : ((empty 2000).run [.record 1 "a"]).trace = ["a"] := rfl
  have hlost : ((empty 18446744073709551615).run [.record 1 "a"]).trace = [] := rfl
  rw [hkept, hlost]
  decide

end Postmortem.TraceLog
