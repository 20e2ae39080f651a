import Mathlib.Data.Finset.Card
import Mathlib.Logic.Relation
import Postmortem.Proofs.Trace.Recency

/-!
# Both parts of a log are of the same lines

A log keeps its entries apart from the order of its lines, and nothing but the way in which both
change keeps them in step. They are of the same lines after every history, and at every step of a
closing too: a closing never meets a line that has no entry, and where it does not stop for want of
budget it leaves nothing behind. Main statement: `consistent_run`.

## Shape of the proof

`Consistent` is the invariant. A record keeps it, and so does taking off the newest line with its
entry, which is all that a step of a closing does as long as the invariant holds. How the budget is
counted down has no part in it. `Closing.Reaches` tells which closings and lines are met on the way;
`Closing.exists_last` that the way ends where the run does.
-/

namespace Postmortem.TraceLog

/-! ## The invariant -/

/-- Entries and an order of lines that belong together: the order has no line twice, and its lines
are those that have an entry. -/
structure Consistent (entries : Table Nat String) (recency : List Nat) : Prop where
  nodup : recency.Nodup
  mem_iff : ∀ line, line ∈ recency ↔ line ∈ entries.keys

theorem consistent_empty : Consistent .empty [] := ⟨List.nodup_nil, fun _ => Iff.rfl⟩

/-- A record keeps the parts of a log together. -/
theorem Consistent.record {entries : Table Nat String} {recency : List Nat}
    (h : Consistent entries recency) (line : Nat) (entry : String) :
    Consistent (entries.insert line entry) (line :: recency.erase line) where
  nodup := List.nodup_cons.mpr ⟨h.nodup.not_mem_erase, h.nodup.erase line⟩
  mem_iff := by
    intro other
    rw [List.mem_cons, h.nodup.mem_erase_iff, Table.mem_keys_insert_iff, h.mem_iff]
    by_cases hother : other = line
    · exact iff_of_true (.inl hother) (.inl hother)
    · rw [and_iff_right hother]

/-- So does taking off the newest line, with its entry. -/
theorem Consistent.takeOff {entries : Table Nat String} {line : Nat} {recency : List Nat}
    (h : Consistent entries (line :: recency)) : Consistent (entries.erase line) recency where
  nodup := (List.nodup_cons.mp h.nodup).2
  mem_iff := by
    intro other
    have hline : line ∉ recency := (List.nodup_cons.mp h.nodup).1
    rw [Table.mem_keys_erase_iff, ← h.mem_iff, List.mem_cons]
    constructor
    · intro hmem
      exact ⟨fun heq => hline (heq ▸ hmem), .inr hmem⟩
    · rintro ⟨hne, heq | hmem⟩
      · exact absurd heq hne
      · exact hmem

/-- Every line of the order has an entry. -/
theorem Consistent.exists_entry {entries : Table Nat String} {recency : List Nat}
    (h : Consistent entries recency) {line : Nat} (hmem : line ∈ recency) :
    ∃ entry, entries.get? line = some entry :=
  Table.mem_keys_iff.mp ((h.mem_iff line).mp hmem)

/-- Without lines there are no entries. -/
theorem Consistent.eq_empty {entries : Table Nat String} (h : Consistent entries []) :
    entries = .empty :=
  Table.eq_empty_of_keys fun line hmem => absurd ((h.mem_iff line).mpr hmem) List.not_mem_nil

/-- Every operation keeps the parts of a log together. -/
theorem Consistent.step {l : TraceLog} (h : Consistent l.entries l.recency) (op : Operation) :
    Consistent (l.step op).entries (l.step op).recency := by
  cases op with
  | record line entry => exact h.record line entry
  | finalize => exact consistent_empty

/-- So they are together after every history. -/
theorem Consistent.run {l : TraceLog} (h : Consistent l.entries l.recency)
    (history : List Operation) :
    Consistent (l.run history).entries (l.run history).recency := by
  induction history generalizing l with
  | nil => exact h
  | cons op ops ih => exact ih (h.step op)

/-! ## The number of lines -/

/-- The lines of the last records are those of all records. -/
theorem mem_lines_lastRecords_iff {records : List (Nat × String)} {line : Nat} :
    line ∈ (lastRecords records).map (·.1) ↔ line ∈ records.map (·.1) := by
  induction records with
  | nil => exact Iff.rfl
  | cons r records ih =>
    rw [lastRecords, List.map_cons, List.mem_cons]
    by_cases hlater : records.any (·.1 == r.1) = true
    · rw [if_pos hlater, ih, or_iff_right_of_imp]
      -- a later record stands for the line
      rintro rfl
      obtain ⟨s, hs, hline⟩ := List.any_eq_true.mp hlater
      exact List.mem_map.mpr ⟨s, hs, by simpa using hline⟩
    · rw [if_neg hlater, List.map_cons, List.mem_cons, ih]

/-- A log has as many lines as there are different ones in the records that it holds. -/
theorem Holds.size_eq {l : TraceLog} {records : List (Nat × String)} (h : Holds l records) :
    l.size = (records.map (·.1)).toFinset.card := by
  have hlines : (records.map (·.1)).toFinset = ((lastRecords records).map (·.1)).toFinset := by
    ext line
    rw [List.mem_toFinset, List.mem_toFinset, mem_lines_lastRecords_iff]
  rw [hlines, List.toFinset_card_of_nodup (nodup_lastRecords records), size, h.recency,
    List.length_reverse]

/-! ## Closing in steps -/

namespace Closing

/-- Whether a closing with some lines left goes on as another one with the others. -/
def Next (s t : Closing × List Nat) : Prop :=
  ∃ line, s.2 = line :: t.2 ∧
    (s.1.takeOff line = .skipped ∧ t.1 = s.1 ∨ s.1.takeOff line = .kept t.1)

/-- Whether a closing with some lines left comes to another one with some of them. -/
def Reaches (s t : Closing × List Nat) : Prop := Relation.ReflTransGen Next s t

/-- Every run goes on to a closing at which it ends: no line is left, or the next one overdraws. -/
theorem exists_last (c : Closing) (lines : List Nat) :
    ∃ d left, Reaches (c, lines) (d, left) ∧
      (left = [] ∧ c.run lines = (d, []) ∨
        ∃ line rest e, left = line :: rest ∧ d.takeOff line = .overdrawn e ∧
          c.run lines = (e, rest)) := by
  induction lines generalizing c with
  | nil => exact ⟨c, [], .refl, .inl ⟨rfl, rfl⟩⟩
  | cons line lines ih =>
    cases htake : c.takeOff line with
    | skipped =>
      obtain ⟨d, left, hreaches, hlast⟩ := ih c
      have hnext : Next (c, line :: lines) (c, lines) := ⟨line, rfl, .inl ⟨htake, rfl⟩⟩
      rw [run_of_skipped htake]
      exact ⟨d, left, .head hnext hreaches, hlast⟩
    | kept next =>
      obtain ⟨d, left, hreaches, hlast⟩ := ih next
      have hnext : Next (c, line :: lines) (next, lines) := ⟨line, rfl, .inr htake⟩
      rw [run_of_kept htake]
      exact ⟨d, left, .head hnext hreaches, hlast⟩
    | overdrawn e =>
      exact ⟨c, line :: lines, .refl, .inr ⟨line, lines, e, rfl, htake, run_of_overdrawn htake⟩⟩

end Closing

/-! ## The invariant while closing -/

/-- A line that has an entry is never passed over. -/
theorem Consistent.takeOff_ne_skipped {c : Closing} {line : Nat} {lines : List Nat}
    (h : Consistent c.entries (line :: lines)) : c.takeOff line ≠ .skipped := by
  intro hskipped
  cases Closing.comesTo_of_takeOff hskipped with
  | skipped hnone =>
    obtain ⟨entry, hentry⟩ := h.exists_entry List.mem_cons_self
    rw [hnone] at hentry
    cases hentry

/-- A step keeps what has not been taken off together. -/
theorem Consistent.next {s t : Closing × List Nat} (h : Consistent s.1.entries s.2)
    (hnext : Closing.Next s t) : Consistent t.1.entries t.2 := by
  obtain ⟨line, hlines, hstep⟩ := hnext
  rw [hlines] at h
  rcases hstep with ⟨hskipped, -⟩ | hkept
  · exact absurd hskipped h.takeOff_ne_skipped
  · obtain ⟨d, lines⟩ := t
    cases Closing.comesTo_of_takeOff hkept with
    | kept => exact h.takeOff

theorem Consistent.reaches {s t : Closing × List Nat} (h : Consistent s.1.entries s.2)
    (hreaches : Closing.Reaches s t) : Consistent t.1.entries t.2 := by
  induction hreaches with
  | refl => exact h
  | tail _ hnext ih => exact ih.next hnext

/-- What is left where the budget is overdrawn is still together. -/
theorem Consistent.overdrawn {c d : Closing} {line : Nat} {lines : List Nat}
    (h : Consistent c.entries (line :: lines)) (hoverdrawn : c.takeOff line = .overdrawn d) :
    Consistent d.entries lines := by
  cases Closing.comesTo_of_takeOff hoverdrawn with
  | overdrawn => exact h.takeOff

/-! ## Main statement -/

/-- **Both parts of a log are of the same lines, always.** After every history the order of lines
has each line once that has an entry, and these are the lines recorded since the last closing. At
every step of a closing the same is true of what has not been taken off, so that no line is ever
passed over for want of an entry; a line and its entry leave both parts together, whatever the
countdown comes to. The closing stops at the end, where nothing is left, or where the budget is
overdrawn and something may be; it gives what it kept until then, and in both cases a log without
lines and without entries. -/
theorem consistent_run (budget : UInt64) (history : List Operation) :
    let log := (empty budget).run history
    let start := (log.closing, log.recency)
    Consistent log.entries log.recency ∧
      log.size = ((pending history).map (·.1)).toFinset.card ∧
      (∀ c lines, Closing.Reaches start (c, lines) →
        Consistent c.entries lines ∧
          ∀ line rest, lines = line :: rest →
            c.takeOff line ≠ .skipped ∧ Consistent (c.entries.erase line) rest) ∧
      (∃ c lines, Closing.Reaches start (c, lines) ∧
        ((lines = [] ∧ c.entries = .empty ∧ log.finalize.1 = textOf c.kept) ∨
          ∃ line rest last, lines = line :: rest ∧ c.takeOff line = .overdrawn last ∧
            Consistent last.entries rest ∧ log.finalize.1 = textOf last.kept)) ∧
      log.finalize.2.recency = [] ∧ log.finalize.2.entries = .empty := by
  intro log start
  have hlog : Consistent log.entries log.recency := consistent_empty.run history
  refine ⟨hlog, (holds_run budget history).size_eq, ?_, ?_, rfl, rfl⟩
  · intro c lines hreaches
    have hc : Consistent c.entries lines := Consistent.reaches hlog hreaches
    refine ⟨hc, ?_⟩
    rintro line rest rfl
    exact ⟨hc.takeOff_ne_skipped, hc.takeOff⟩
  · have htext : log.finalize.1 = textOf (log.closing.run log.recency).1.kept := rfl
    obtain ⟨c, lines, hreaches, hlast⟩ := log.closing.exists_last log.recency
    have hc : Consistent c.entries lines := Consistent.reaches hlog hreaches
    refine ⟨c, lines, hreaches, ?_⟩
    rcases hlast with ⟨rfl, hrun⟩ | ⟨line, rest, last, rfl, hoverdrawn, hrun⟩
    · exact .inl ⟨rfl, hc.eq_empty, by rw [htext, hrun]⟩
    · exact .inr ⟨line, rest, last, rfl, hoverdrawn, hc.overdrawn hoverdrawn, by rw [htext, hrun]⟩

/-- Three lines, of which six characters hold one. The closing keeps the line recorded anew, stops
at the next and leaves the oldest, which the log then has no more. -/
theorem consistent_run_overdrawn :
    let log := (empty 6).run
      [.record 1 "aaaa", .record 2 "bbbb", .record 3 "cccc", .record 2 "dddd"]
    log.size = 3 ∧ ∃ c last : Closing, Closing.Reaches (log.closing, log.recency) (c, [3, 1]) ∧
      Consistent c.entries [3, 1] ∧ c.takeOff 3 ≠ .skipped ∧ c.takeOff 3 = .overdrawn last ∧
      last.kept = ["dddd"] ∧ Consistent last.entries [1] ∧
      log.finalize.1 = "dddd" ∧ log.finalize.2.recency = [] ∧ log.finalize.2.entries = .empty := by
  -- six characters, less the five of the newest entry, less the five of the next
  have hkept : ((empty 6).run [.record 1 "aaaa", .record 2 "bbbb", .record 3 "cccc",
      .record 2 "dddd"]).closing.takeOff 2 =
        .kept ⟨1, .ofList [(1, "aaaa"), (3, "cccc")], ["dddd"]⟩ := rfl
  have hoverdrawn : Closing.takeOff ⟨1, .ofList [(1, "aaaa"), (3, "cccc")], ["dddd"]⟩ 3 =
      .overdrawn ⟨-4, .ofList [(1, "aaaa")], ["dddd"]⟩ := rfl
  have htext : ((empty 6).run [.record 1 "aaaa", .record 2 "bbbb", .record 3 "cccc",
      .record 2 "dddd"]).finalize.1 = "dddd" := rfl
  intro log
  obtain ⟨-, hsize, hall, -, hrecency, hentries⟩ := consistent_run 6
    [.record 1 "aaaa", .record 2 "bbbb", .record 3 "cccc", .record 2 "dddd"]
  have hreaches : Closing.Reaches (log.closing, log.recency)
      (⟨1, .ofList [(1, "aaaa"), (3, "cccc")], ["dddd"]⟩, [3, 1]) :=
    .single ⟨2, rfl, .inr hkept⟩
  obtain ⟨hc, hnext⟩ := hall _ _ hreaches
  obtain ⟨hskipped, hrest⟩ := hnext 3 [1] rfl
  exact ⟨hsize, _, _, hreaches, hc, hskipped, hoverdrawn, rfl, hrest, htext, hrecency, hentries⟩

end Postmortem.TraceLog
