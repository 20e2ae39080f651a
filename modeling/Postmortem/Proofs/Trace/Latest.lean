import Postmortem.Proofs.Line.Plan
import Postmortem.Proofs.Trace.Recency
import Postmortem.Proofs.Trace.Visibility

/-!
# The trace shows the latest values of a line

A line that runs again is recorded anew, and what was recorded for it before is gone. A message in
which nothing can be shown makes no record, though: after it, the trace still shows the values of the
last message for its line that had something to show.

## Shape of the argument

A message makes at most one record, and the log of a recorder holds the records of the messages that
it took note of: one message keeps it so (`Recorder.holds_observe`), hence any number of them do
(`Recorder.holds_observeAll`). All that a log shows are last records, and the last record of a line
comes from the last message for this line that makes one.
-/

namespace Postmortem

open TraceLog

/-! ## What can be shown of values -/

/-- The text of a value that is data. -/
def ProbedValue.stateText? (v : ProbedValue) : Option String :=
  if v.kind.isState then v.text else none

/-- Only data with a text has one. -/
theorem ProbedValue.stateText?_eq_some_iff {v : ProbedValue} {text : String} :
    v.stateText? = some text ↔ v = ⟨.data, some text⟩ := by
  obtain ⟨kind, found⟩ := v
  rw [stateText?, ValueKind.isState]
  by_cases hkind : kind = .data
  · simp [hkind]
  · simp [hkind]

namespace ProbedValues

/-- The names of data values that have a text, with these texts. -/
def stateTexts (values : ProbedValues) : Table String String :=
  values.filterMap ProbedValue.stateText?

/-- Some value is data that has a text. -/
def HasState (values : ProbedValues) : Prop :=
  ∃ name text, values.get? name = some ⟨.data, some text⟩

/-- The texts are those of the data values. -/
theorem mem_stateTexts_iff {values : ProbedValues} {name text : String} :
    (name, text) ∈ values.stateTexts.entries ↔ values.get? name = some ⟨.data, some text⟩ := by
  rw [Table.mem_entries_iff, stateTexts, Table.get?_filterMap, Option.bind_eq_some_iff]
  simp only [ProbedValue.stateText?_eq_some_iff, exists_eq_right]

/-- The items of an entry are the texts as they are shown. -/
theorem items_eq_stateTexts (values : ProbedValues) :
    Trace.items values =
      values.stateTexts.entries.map fun e => e.1.toList ++ '=' :: (Trace.shown e.2).toList := by
  have hshown : values.shown = values.stateTexts.filterMap fun t => some (Trace.shown t) := by
    rw [shown, stateTexts, Table.filterMap_filterMap]
    congr 1
    funext v
    rw [ProbedValue.shown?, ProbedValue.stateText?]
    split
    · cases v.text <;> rfl
    · rfl
  rw [items_eq, hshown, Table.filterMap, List.map_filterMap, ← List.filterMap_eq_map]
  rfl

/-- There is an item if and only if some value is data that has a text. -/
theorem items_ne_nil_iff {values : ProbedValues} : Trace.items values ≠ [] ↔ values.HasState := by
  rw [items_eq_stateTexts, Ne, List.map_eq_nil_iff, HasState]
  constructor
  · intro hne
    obtain ⟨⟨name, text⟩, hmem⟩ := List.exists_mem_of_ne_nil _ hne
    exact ⟨name, text, mem_stateTexts_iff.mp hmem⟩
  · rintro ⟨name, text, hget⟩
    exact List.ne_nil_of_mem (mem_stateTexts_iff.mpr hget)

end ProbedValues

/-- An entry shows the items of its values, of which there must be some. -/
theorem Trace.entry?_eq_some_iff {line : Nat} {text entry : String} {values : ProbedValues} :
    Trace.entry? line text values = some entry ↔
      values.HasState ∧ entry = .ofList (Trace.entryChars line text.toList (Trace.items values)) := by
  rw [Trace.entry?, ← ProbedValues.items_ne_nil_iff]
  by_cases hnone : Trace.items values = []
  · simp [hnone]
  · rw [if_neg (by simpa using hnone), Option.some_inj, and_iff_right hnone]
    exact eq_comm

/-! ## The record of a message -/

namespace ProbeEvent

/-- A message for a line that has something to show. -/
def Shows (number : UInt64) : ProbeEvent → Prop
  | line n values => n = number ∧ values.HasState
  | exit _ => False

/-- The record that a message makes under a plan, if it makes one. -/
def record? (plan : LinePlan) : ProbeEvent → Option (Nat × String)
  | line number values =>
    (plan.get? number.toNat).bind fun planned =>
      (Trace.entry? number.toNat planned.text values).map (number.toNat, ·)
  | exit _ => none

/-- A record is that of a line message for a planned line. -/
theorem record?_eq_some_iff {plan : LinePlan} {e : ProbeEvent} {r : Nat × String} :
    e.record? plan = some r ↔
      ∃ number values planned, e = line number values ∧ number.toNat = r.1 ∧
        plan.get? r.1 = some planned ∧ Trace.entry? r.1 planned.text values = some r.2 := by
  cases e with
  | exit report => simp [record?]
  | line number values =>
    obtain ⟨n, entry⟩ := r
    rw [record?, Option.bind_eq_some_iff]
    simp only [Option.map_eq_some_iff, Prod.mk.injEq]
    constructor
    · rintro ⟨planned, hplanned, _, hentry, rfl, rfl⟩
      exact ⟨number, values, planned, rfl, rfl, hplanned, hentry⟩
    · rintro ⟨number, values, planned, ⟨rfl, rfl⟩, rfl, hplanned, hentry⟩
      exact ⟨planned, hplanned, entry, hentry, rfl, rfl⟩

/-- A message without anything to show makes no record. -/
theorem record?_of_not_hasState (plan : LinePlan) (number : UInt64) {values : ProbedValues}
    (h : ¬ values.HasState) : (line number values).record? plan = none := by
  rw [record?]
  cases plan.get? number.toNat with
  | none => rfl
  | some planned =>
    rw [Option.bind_some, Option.map_eq_none_iff, Option.eq_none_iff_forall_ne_some]
    exact fun entry hentry => h (Trace.entry?_eq_some_iff.mp hentry).1

/-- A message that shows something of a planned line makes a record for it. -/
theorem Shows.exists_record {plan : LinePlan} {number : UInt64} {e : ProbeEvent}
    (h : e.Shows number) {planned : PlannedLine} (hplanned : plan.get? number.toNat = some planned) :
    ∃ entry, e.record? plan = some (number.toNat, entry) := by
  cases e with
  | exit report => exact False.elim h
  | line n values =>
    obtain ⟨rfl, hstate⟩ := h
    obtain ⟨entry, hentry⟩ : ∃ entry, Trace.entry? n.toNat planned.text values = some entry :=
      ⟨_, Trace.entry?_eq_some_iff.mpr ⟨hstate, rfl⟩⟩
    refine ⟨entry, ?_⟩
    rw [record?, hplanned, Option.bind_some, hentry]
    rfl

end ProbeEvent

/-- The records of a sequence of messages. -/
def recordsOf (plan : LinePlan) (events : List ProbeEvent) : List (Nat × String) :=
  events.filterMap (ProbeEvent.record? plan)

/-- The last record of a line comes from the last message that shows something of this line. -/
theorem exists_of_mem_lastRecords {plan : LinePlan} {events : List ProbeEvent} {r : Nat × String}
    (h : r ∈ lastRecords (recordsOf plan events)) :
    ∃ before number values after planned,
      events = before ++ .line number values :: after ∧ number.toNat = r.1 ∧
        plan.get? r.1 = some planned ∧ Trace.entry? r.1 planned.text values = some r.2 ∧
        ∀ e ∈ after, ¬ e.Shows number := by
  obtain ⟨earlier, later, hsplit, hlater⟩ := mem_lastRecords_iff.mp h
  obtain ⟨front, rest, hevents, -, hrest⟩ := List.filterMap_eq_append_iff.mp hsplit
  obtain ⟨idle, e, after, rfl, -, he, hafter⟩ := List.filterMap_eq_cons_iff.mp hrest
  obtain ⟨number, values, planned, rfl, hnumber, hplanned, hentry⟩ :=
    ProbeEvent.record?_eq_some_iff.mp he
  refine ⟨front ++ idle, number, values, after, planned, ?_, hnumber, hplanned, hentry, ?_⟩
  · rw [hevents, List.append_assoc]
  · -- it would have made a later record of the same line
    intro e' hmem hshows
    obtain ⟨entry, hrecord⟩ := hshows.exists_record (hnumber ▸ hplanned)
    have hentry' : (number.toNat, entry) ∈ later := by
      rw [← hafter]
      exact List.mem_filterMap.mpr ⟨e', hmem, hrecord⟩
    exact hlater _ hentry' hnumber

/-- Before a message that shows something of its line, no message leaves a last record. -/
theorem lastRecords_recordsOf_leaveOut (plan : LinePlan) (before : List ProbeEvent)
    {number : UInt64} (values : ProbedValues) {after : List ProbeEvent}
    (hlater : ∃ e ∈ after, e.Shows number) :
    lastRecords (recordsOf plan (before ++ .line number values :: after)) =
      lastRecords (recordsOf plan (before ++ after)) := by
  simp only [recordsOf, List.filterMap_append, List.filterMap_cons]
  cases hrecord : (ProbeEvent.line number values).record? plan with
  | none => rfl
  | some r =>
    obtain ⟨_, _, planned, hline, hnumber, hplanned, -⟩ :=
      ProbeEvent.record?_eq_some_iff.mp hrecord
    obtain ⟨rfl, rfl⟩ := (ProbeEvent.line.injEq ..).mp hline
    obtain ⟨e, he, hshows⟩ := hlater
    obtain ⟨entry, hentry⟩ := hshows.exists_record (hnumber ▸ hplanned)
    apply lastRecords_leaveOut
    exact ⟨_, List.mem_filterMap.mpr ⟨e, he, hentry⟩, hnumber⟩

/-! ## The log holds the records -/

namespace Recorder

/-- A message changes the log by its record. -/
theorem log_observe_record (r : Recorder) (e : ProbeEvent) :
    (r.observe e).log = match e.record? r.plan with
      | none => r.log
      | some (line, entry) => r.log.record line entry := by
  cases e with
  | exit report => rfl
  | line number values =>
    rw [observe, recordLine, ProbeEvent.record?]
    cases r.plan.get? number.toNat with
    | none => rfl
    | some planned =>
      dsimp only [Option.bind_some]
      cases Trace.entry? number.toNat planned.text values <;> rfl

/-- A message keeps the log in step with the records. -/
theorem holds_observe {r : Recorder} {records : List (Nat × String)} (h : r.log.Holds records)
    (e : ProbeEvent) : (r.observe e).log.Holds (records ++ (e.record? r.plan).toList) := by
  rw [log_observe_record]
  cases e.record? r.plan with
  | none => simpa using h
  | some s => exact h.record s.1 s.2

/-- No message changes the budget of the log. -/
theorem budget_observe (r : Recorder) (e : ProbeEvent) :
    (r.observe e).log.budget = r.log.budget := by
  rw [log_observe_record]
  cases e.record? r.plan <;> rfl

/-- After any number of messages, the log of a recorder holds their records. -/
theorem holds_observeAll {r : Recorder} {records : List (Nat × String)} (h : r.log.Holds records)
    (events : List ProbeEvent) :
    (r.observeAll events).log.Holds (records ++ recordsOf r.plan events) ∧
      (r.observeAll events).log.budget = r.log.budget := by
  induction events generalizing r records with
  | nil =>
    refine ⟨?_, rfl⟩
    rw [recordsOf, List.filterMap_nil, List.append_nil]
    exact h
  | cons e es ih =>
    obtain ⟨hholds, hbudget⟩ := ih (holds_observe h e)
    rw [plan_observe, List.append_assoc] at hholds
    refine ⟨?_, hbudget.trans (budget_observe r e)⟩
    have hrecords : recordsOf r.plan (e :: es) =
        (e.record? r.plan).toList ++ recordsOf r.plan es := by
      rw [recordsOf, List.filterMap_cons]
      cases e.record? r.plan <;> rfl
    rw [hrecords]
    exact hholds

/-- The log of a fresh recorder after a sequence of messages. -/
def logOf (plan : LinePlan) (budget : UInt64) (events : List ProbeEvent) : TraceLog :=
  ((start plan budget).observeAll events).log

/-- It holds the records of the messages. -/
theorem holds_logOf (plan : LinePlan) (budget : UInt64) (events : List ProbeEvent) :
    (logOf plan budget events).Holds (recordsOf plan events) ∧
      (logOf plan budget events).budget = budget :=
  @holds_observeAll (start plan budget) [] (holds_empty budget) events

/-- Sequences with the same last records and the same reports have the same outcome. -/
theorem outcome_congr_last {plan : LinePlan} (budget : UInt64) {es es' : List ProbeEvent}
    (hlast : lastRecords (recordsOf plan es) = lastRecords (recordsOf plan es'))
    (hexits : exitReports es = exitReports es') :
    outcome plan budget es = outcome plan budget es' := by
  obtain ⟨hes, hbudget⟩ := holds_logOf plan budget es
  obtain ⟨hes', hbudget'⟩ := holds_logOf plan budget es'
  have hlog : (logOf plan budget es).trace = (logOf plan budget es').trace :=
    hes.trace_congr hes' (hbudget.trans hbudget'.symm) hlast
  have htrace : (outcome plan budget es).trace = (outcome plan budget es').trace :=
    congrArg textOf hlog
  have hexit : (outcome plan budget es).exit = (outcome plan budget es').exit := by
    rw [exit_outcome, exit_outcome, hexits]
  exact (TraceOutcome.mk.injEq ..).mpr ⟨hexit, htrace⟩

end Recorder

/-! ## What the trace shows -/

/-- **The trace shows the latest values of a line.** Each of its entries is composed from the last
message for its line that has something to show, and no line has two of them. Every message for a
line can be left out, whatever its values are, if a later one shows something of the line, or if
nothing can be shown of it. -/
theorem outcome_shows_latest (plan : LinePlan) (budget : UInt64) (events : List ProbeEvent) :
    (∃ kept : List (Nat × String),
      (Recorder.logOf plan budget events).trace = kept.map (·.2) ∧
        (Recorder.outcome plan budget events).trace = textOf (kept.map (·.2)) ∧
        (kept.map (·.1)).Nodup ∧
        ∀ r ∈ kept, ∃ before number values after planned,
          events = before ++ .line number values :: after ∧ number.toNat = r.1 ∧
            plan.get? r.1 = some planned ∧ Trace.entry? r.1 planned.text values = some r.2 ∧
            ∀ e ∈ after, ¬ e.Shows number) ∧
      ∀ before number values after, events = before ++ .line number values :: after →
        (∃ e ∈ after, e.Shows number) ∨ ¬ values.HasState →
        Recorder.outcome plan budget events = Recorder.outcome plan budget (before ++ after) := by
  constructor
  · obtain ⟨hholds, -⟩ := Recorder.holds_logOf plan budget events
    obtain ⟨kept, hkept, htrace⟩ := hholds.trace_suffix
    refine ⟨kept, htrace, congrArg textOf htrace, ?_, ?_⟩
    · exact (nodup_lastRecords _).sublist (hkept.sublist.map _)
    · intro r hr
      exact exists_of_mem_lastRecords (hkept.subset hr)
  · rintro before number values after rfl hlater
    apply Recorder.outcome_congr_last
    · rcases hlater with hlater | hstate
      · exact lastRecords_recordsOf_leaveOut plan before values hlater
      · rw [recordsOf, recordsOf, List.filterMap_append, List.filterMap_append,
          List.filterMap_cons_none (ProbeEvent.record?_of_not_hasState plan number hstate)]
    · simp only [exitReports, List.filterMap_append]
      rw [List.filterMap_cons_none rfl]

/-- After a line has run twice, what its first execution found can be left out. -/
theorem outcome_shows_latest_repeated :
    let plan := LinePlan.ofSource Line.assignmentParser "y = x"
    let found (text : String) : ProbedValues := Table.empty.insert "x" ⟨.data, some text⟩
    (∃ e ∈ [ProbeEvent.line 1 (found "2")], e.Shows 1) ∧
      Recorder.outcome plan 2000 [.line 1 (found "1"), .line 1 (found "2")] =
        Recorder.outcome plan 2000 [.line 1 (found "2")] ∧
      (Recorder.outcome plan 2000 [.line 1 (found "2")]).trace =
        "line   1: 'y = x', variables before line executes: x=2" := by
  intro plan found
  have hlater : ∃ e ∈ [ProbeEvent.line 1 (found "2")], e.Shows 1 :=
    ⟨_, List.mem_singleton_self _, rfl, "x", "2", rfl⟩
  have hlatest := (outcome_shows_latest plan 2000 [.line 1 (found "1"), .line 1 (found "2")]).2
  refine ⟨hlater, hlatest [] 1 (found "1") [.line 1 (found "2")] rfl (.inl hlater), ?_⟩
  have hplan : plan = Table.empty.insert 1 ⟨"y = x", ["x"]⟩ := Line.ofSource_assignmentParser
  rw [hplan]
  decide +kernel

/-- A value from before the first execution of a line is still shown after a second one that had
nothing to show: the last message for the line makes no entry, the only one is composed from the
message before, and another value there makes another trace. -/
theorem outcome_shows_earlier_value :
    let plan := LinePlan.ofSource Line.assignmentParser "y = x"
    let first (text : String) : ProbeEvent := .line 1 (Table.empty.insert "x" ⟨.data, some text⟩)
    let second : ProbeEvent := .line 1 (Table.empty.insert "x" ⟨.callable, none⟩)
    (Recorder.outcome plan 2000 [first "1", second]).trace =
        "line   1: 'y = x', variables before line executes: x=1" ∧
      second.record? plan = none ∧
      (Recorder.outcome plan 2000 [first "1", second]).trace ≠
        (Recorder.outcome plan 2000 [first "2", second]).trace := by
  rw [Line.ofSource_assignmentParser]
  decide +kernel

end Postmortem
