import Mathlib.Data.List.Basic
import Mathlib.Logic.Relation
import Postmortem.Proofs.Collections.Table
import Postmortem.Proofs.Trace.Value
import Postmortem.Trace.Recorder

/-!
# What can be seen of the messages of a probe

The outcome of a recorder shows little of the messages that it took note of. The exit report is
that of the last exit message. The trace shows of a line message only how the data values with a
text are shown, and of a message without any of these, or for a line that is not planned, nothing:
not even the place of its line in the trace.

## Shape of the statement

`effectiveLines` is all that the trace depends on. `Edit` lists single changes to a sequence of
messages that leave it and the order of the exit messages as they are; any number of them, made in
either direction, cannot be told from the outcome.
-/

namespace Postmortem

open Trace

/-! ## The visible part of a message -/

namespace ProbedValue

/-- How a value is shown, if it is. -/
def shown? (v : ProbedValue) : Option String :=
  if v.kind.isState then v.text.map Trace.shown else none

/-- A value that no entry shows: it is no data, or it has no text. -/
def IsHidden (v : ProbedValue) : Prop := v.kind ≠ .data ∨ v.text = none

/-- The value with a text that has been shortened beforehand. -/
def shorten (v : ProbedValue) : ProbedValue := { v with text := v.text.map Trace.shown }

/-- Hidden values are those that are not shown. -/
theorem isHidden_iff {v : ProbedValue} : v.IsHidden ↔ v.shown? = none := by
  rw [IsHidden, shown?, ValueKind.isState]
  by_cases hkind : v.kind = .data
  · rw [hkind]
    simp
  · simp [hkind]

/-- A shortened value is shown as before. -/
theorem shown?_shorten (v : ProbedValue) : v.shorten.shown? = v.shown? := by
  rw [shown?, shown?]
  by_cases hkind : v.kind.isState = true
  · rw [if_pos hkind, if_pos (show v.shorten.kind.isState = true from hkind)]
    cases htext : v.text with
    | none => simp [shorten, htext]
    | some t => simp [shorten, htext, Trace.shown_shown]
  · rw [if_neg hkind, if_neg (show ¬ v.shorten.kind.isState = true from hkind)]

end ProbedValue

namespace ProbedValues

/-- The names of the values that are shown, with how they are shown. -/
def shown (values : ProbedValues) : Table String String := values.filterMap ProbedValue.shown?

/-- The values with texts that have been shortened beforehand. -/
def shorten (values : ProbedValues) : ProbedValues := values.filterMap fun v => some v.shorten

/-- Shortened values are shown as before. -/
theorem shown_shorten (values : ProbedValues) : values.shorten.shown = values.shown := by
  rw [shown, shorten, Table.filterMap_filterMap, shown]
  congr 1
  funext v
  exact ProbedValue.shown?_shorten v

/-- The items of an entry are made from what is shown alone. -/
theorem items_eq (values : ProbedValues) :
    items values = values.shown.entries.map fun e => e.1.toList ++ '=' :: e.2.toList := by
  rw [items, shown, Table.filterMap, List.map_filterMap]
  apply List.filterMap_congr
  rintro ⟨name, v⟩ -
  show Trace.item? name v = _
  rw [Trace.item?, ProbedValue.shown?]
  by_cases hkind : v.kind.isState = true
  · rw [if_pos hkind, if_pos hkind]
    cases v.text with
    | none => rfl
    | some t => simp [Trace.shown]
  · rw [if_neg hkind, if_neg hkind]
    rfl

end ProbedValues

namespace ProbeEvent

/-- The report of an exit message. -/
def report? : ProbeEvent → Option ExitReport
  | line .. => none
  | exit r => some r

/-- What a trace can show of a message: the number of its line, if that is planned, and the shown
values, if there are any. -/
def effect? (plan : LinePlan) : ProbeEvent → Option (Nat × Table String String)
  | line number values =>
    if (plan.get? number.toNat).isSome && !values.shown.entries.isEmpty then
      some (number.toNat, values.shown)
    else none
  | exit _ => none

/-- The message with texts that have been shortened beforehand. -/
def shorten : ProbeEvent → ProbeEvent
  | line number values => line number values.shorten
  | exit r => exit r

/-- Shortening does not change what a trace can show. -/
theorem effect?_shorten (plan : LinePlan) (e : ProbeEvent) :
    e.shorten.effect? plan = e.effect? plan := by
  cases e with
  | line number values => simp only [shorten, effect?, ProbedValues.shown_shorten]
  | exit r => rfl

/-- Shortening does not change a report. -/
theorem report?_shorten (e : ProbeEvent) : e.shorten.report? = e.report? := by
  cases e <;> rfl

end ProbeEvent

/-- What a trace can show of a sequence of messages. -/
def effectiveLines (plan : LinePlan) (events : List ProbeEvent) :
    List (Nat × Table String String) :=
  events.filterMap (ProbeEvent.effect? plan)

/-- The reports of a sequence of messages. -/
def exitReports (events : List ProbeEvent) : List ExitReport :=
  events.filterMap ProbeEvent.report?

/-! ## The trace and the exit report -/

namespace Recorder

/-- The log with an entry that shows some values of a planned line. -/
def recordShown (plan : LinePlan) (log : TraceLog) (effect : Nat × Table String String) :
    TraceLog :=
  match plan.get? effect.1 with
  | none => log
  | some planned =>
    log.record effect.1 (.ofList (Trace.entryChars effect.1 planned.text.toList
      (effect.2.entries.map fun e => e.1.toList ++ '=' :: e.2.toList)))

/-- A message changes the log as its visible part says, and nothing else does. -/
theorem log_observe (r : Recorder) (e : ProbeEvent) :
    (r.observe e).log = match e.effect? r.plan with
      | none => r.log
      | some effect => recordShown r.plan r.log effect := by
  cases e with
  | exit report => rfl
  | line number values =>
    rw [observe, recordLine, ProbeEvent.effect?]
    cases hplan : r.plan.get? number.toNat with
    | none => simp
    | some planned =>
      simp only [ProbedValues.items_eq, Trace.entry?, List.isEmpty_map]
      cases hempty : values.shown.entries.isEmpty with
      | true => simp
      | false => simp [recordShown, hplan]

/-- A line message changes nothing but the log. -/
theorem observe_line (r : Recorder) (number : UInt64) (values : ProbedValues) :
    ∃ log, r.observe (.line number values) = { r with log } := by
  rw [observe, recordLine]
  split
  · exact ⟨r.log, rfl⟩
  · split
    · exact ⟨r.log, rfl⟩
    · exact ⟨_, rfl⟩

/-- No message changes the plan. -/
theorem plan_observe (r : Recorder) (e : ProbeEvent) : (r.observe e).plan = r.plan := by
  cases e with
  | exit report => rfl
  | line number values =>
    obtain ⟨log, hline⟩ := r.observe_line number values
    rw [hline]

/-- An exit message sets the report, and a line message leaves it. -/
theorem exit_observe (r : Recorder) (e : ProbeEvent) :
    (r.observe e).exit = e.report?.or r.exit := by
  cases e with
  | exit report => rfl
  | line number values =>
    obtain ⟨log, hline⟩ := r.observe_line number values
    rw [hline]
    rfl

/-- The log after a sequence of messages depends on its effective lines alone. -/
theorem log_observeAll (r : Recorder) (events : List ProbeEvent) :
    (r.observeAll events).log =
      (effectiveLines r.plan events).foldl (recordShown r.plan) r.log := by
  induction events generalizing r with
  | nil => rfl
  | cons e es ih =>
    have hrest := ih (r.observe e)
    rw [plan_observe, log_observe] at hrest
    show ((r.observe e).observeAll es).log = _
    rw [hrest, effectiveLines, effectiveLines, List.filterMap_cons]
    cases e.effect? r.plan <;> rfl

/-- The report after a sequence of messages is its last one. -/
theorem exit_observeAll (r : Recorder) (events : List ProbeEvent) :
    (r.observeAll events).exit = (exitReports events).getLast?.or r.exit := by
  induction events generalizing r with
  | nil => rfl
  | cons e es ih =>
    have hrest := ih (r.observe e)
    rw [exit_observe] at hrest
    show ((r.observe e).observeAll es).exit = _
    rw [hrest, exitReports, exitReports, List.filterMap_cons]
    cases e.report? with
    | none => rfl
    | some report =>
      rw [Option.some_or, List.getLast?_cons]
      cases (es.filterMap ProbeEvent.report?).getLast? <;> rfl

/-- The outcome of a fresh recorder after a sequence of messages. -/
def outcome (plan : LinePlan) (budget : UInt64) (events : List ProbeEvent) : TraceOutcome :=
  ((start plan budget).observeAll events).finish

/-- Sequences with the same effective lines have the same trace. -/
theorem trace_outcome_congr {plan : LinePlan} (budget : UInt64) {es es' : List ProbeEvent}
    (h : effectiveLines plan es = effectiveLines plan es') :
    (outcome plan budget es).trace = (outcome plan budget es').trace := by
  have hlog : ((start plan budget).observeAll es).log =
      ((start plan budget).observeAll es').log := by
    rw [log_observeAll, log_observeAll]
    exact congrArg (List.foldl _ _) h
  simp only [outcome, finish, hlog]

/-- The report of the outcome is the last one of the sequence. -/
theorem exit_outcome (plan : LinePlan) (budget : UInt64) (events : List ProbeEvent) :
    (outcome plan budget events).exit = (exitReports events).getLast? := by
  show ((start plan budget).observeAll events).exit = _
  rw [exit_observeAll]
  exact Option.or_none

/-- Sequences that agree in what can be seen of them have the same outcome. -/
theorem outcome_congr {plan : LinePlan} (budget : UInt64) {es es' : List ProbeEvent}
    (hlines : effectiveLines plan es = effectiveLines plan es')
    (hexits : exitReports es = exitReports es') :
    outcome plan budget es = outcome plan budget es' := by
  have htrace := trace_outcome_congr budget hlines
  have hexit : (outcome plan budget es).exit = (outcome plan budget es').exit := by
    rw [exit_outcome, exit_outcome, hexits]
  exact (TraceOutcome.mk.injEq ..).mpr ⟨hexit, htrace⟩

end Recorder

/-! ## Changes that cannot be seen -/

/-- A change to the values of a line that no entry shows. -/
inductive ProbedValues.Edit : ProbedValues → ProbedValues → Prop
  /-- A hidden value is left out. -/
  | leaveOut {values : ProbedValues} {name : String} {v : ProbedValue}
      (hfound : values.get? name = some v) (hhidden : v.IsHidden) :
      Edit values (values.erase name)
  /-- A hidden value is replaced by a hidden value. -/
  | replace {values : ProbedValues} {name : String} {v w : ProbedValue}
      (hfound : values.get? name = some v) (hhidden : v.IsHidden) (hhidden' : w.IsHidden) :
      Edit values (values.insert name w)
  /-- The text of a data value is replaced by one that is shown alike. -/
  | retell {values : ProbedValues} {name : String} {t t' : String}
      (hfound : values.get? name = some ⟨.data, some t⟩)
      (hshown : Trace.shown t = Trace.shown t') :
      Edit values (values.insert name ⟨.data, some t'⟩)

/-- A change to a sequence of messages that its outcome does not show. -/
inductive Edit (plan : LinePlan) : List ProbeEvent → List ProbeEvent → Prop
  /-- A message for a line that is not planned is left out. -/
  | dropUnplanned {before after : List ProbeEvent} {number : UInt64} {values : ProbedValues}
      (hplan : plan.get? number.toNat = none) :
      Edit plan (before ++ .line number values :: after) (before ++ after)
  /-- A line message without data values is left out. -/
  | dropBare {before after : List ProbeEvent} {number : UInt64} {values : ProbedValues}
      (hdata : ∀ name v, values.get? name = some v → v.kind ≠ .data) :
      Edit plan (before ++ .line number values :: after) (before ++ after)
  /-- The values of a line message are changed. -/
  | values {before after : List ProbeEvent} {number : UInt64} {values values' : ProbedValues}
      (hedit : values.Edit values') :
      Edit plan (before ++ .line number values :: after) (before ++ .line number values' :: after)
  /-- An exit message is moved past a line message. -/
  | moveExit {before after : List ProbeEvent} {number : UInt64} {values : ProbedValues}
      {report : ExitReport} :
      Edit plan (before ++ .exit report :: .line number values :: after)
        (before ++ .line number values :: .exit report :: after)

/-- An edit of values does not change what is shown of them. -/
theorem ProbedValues.Edit.shown_eq {values values' : ProbedValues} (h : values.Edit values') :
    values.shown = values'.shown := by
  apply Table.eq_of_get?_eq
  intro k
  rw [ProbedValues.shown, ProbedValues.shown, Table.get?_filterMap, Table.get?_filterMap]
  cases h with
  | @leaveOut name v hfound hhidden =>
    -- other names are untouched, and this one was not shown before
    by_cases hk : k = name
    · rw [hk, hfound, Table.get?_erase_self]
      exact ProbedValue.isHidden_iff.mp hhidden
    · rw [Table.get?_erase_of_ne hk]
  | @replace name v w hfound hhidden hhidden' =>
    by_cases hk : k = name
    · rw [hk, hfound, Table.get?_insert_self]
      show v.shown? = w.shown?
      rw [ProbedValue.isHidden_iff.mp hhidden, ProbedValue.isHidden_iff.mp hhidden']
    · rw [Table.get?_insert_of_ne hk]
  | @retell name t t' hfound hshown =>
    by_cases hk : k = name
    · rw [hk, hfound, Table.get?_insert_self]
      exact congrArg some hshown
    · rw [Table.get?_insert_of_ne hk]

/-- Values without data show nothing. -/
theorem ProbedValues.shown_eq_empty {values : ProbedValues}
    (h : ∀ name v, values.get? name = some v → v.kind ≠ .data) :
    values.shown.entries = [] := by
  rw [List.eq_nil_iff_forall_not_mem]
  rintro ⟨name, s⟩ hmem
  have hget := Table.get?_of_mem hmem
  rw [ProbedValues.shown, Table.get?_filterMap, Option.bind_eq_some_iff] at hget
  obtain ⟨v, hv, hs⟩ := hget
  rw [ProbedValue.isHidden_iff.mp (Or.inl (h name v hv))] at hs
  exact absurd hs (by simp)

/-- A message of which nothing is kept can be left out. -/
private theorem filterMap_leaveOut {β : Type} {f : ProbeEvent → Option β} {e : ProbeEvent}
    (h : f e = none) (before after : List ProbeEvent) :
    (before ++ e :: after).filterMap f = (before ++ after).filterMap f := by
  rw [List.filterMap_append, List.filterMap_append, List.filterMap_cons_none h]

/-- A message can be exchanged for one of which the same is kept. -/
private theorem filterMap_exchange {β : Type} {f : ProbeEvent → Option β} {e e' : ProbeEvent}
    (h : f e = f e') (before after : List ProbeEvent) :
    (before ++ e :: after).filterMap f = (before ++ e' :: after).filterMap f := by
  rw [List.filterMap_append, List.filterMap_append, List.filterMap_cons, List.filterMap_cons, h]

/-- An edit changes neither the effective lines nor the reports. -/
theorem Edit.visible_eq {plan : LinePlan} {es es' : List ProbeEvent} (h : Edit plan es es') :
    effectiveLines plan es = effectiveLines plan es' ∧ exitReports es = exitReports es' := by
  simp only [effectiveLines, exitReports]
  cases h with
  | @dropUnplanned before after number values hplan =>
    have heffect : (ProbeEvent.line number values).effect? plan = none := by
      rw [ProbeEvent.effect?, hplan]
      rfl
    exact ⟨filterMap_leaveOut heffect before after, filterMap_leaveOut rfl before after⟩
  | @dropBare before after number values hdata =>
    have heffect : (ProbeEvent.line number values).effect? plan = none := by
      rw [ProbeEvent.effect?, ProbedValues.shown_eq_empty hdata]
      simp
    exact ⟨filterMap_leaveOut heffect before after, filterMap_leaveOut rfl before after⟩
  | @values before after number values values' hedit =>
    have heffect : (ProbeEvent.line number values).effect? plan =
        (ProbeEvent.line number values').effect? plan := by
      rw [ProbeEvent.effect?, ProbeEvent.effect?, hedit.shown_eq]
    have hreport : (ProbeEvent.line number values).report? =
        (ProbeEvent.line number values').report? := rfl
    exact ⟨filterMap_exchange heffect before after, filterMap_exchange hreport before after⟩
  | @moveExit before after number values report =>
    -- the effective lines do not see the exit message, and the reports not the line message
    constructor
    · rw [List.filterMap_append, List.filterMap_append, List.filterMap_cons_none rfl,
        List.filterMap_cons, List.filterMap_cons, List.filterMap_cons_none rfl]
    · rw [List.filterMap_append, List.filterMap_append]
      rfl

/-- Nor does any number of edits, in either direction. -/
theorem visible_eq_of_edits {plan : LinePlan} {es es' : List ProbeEvent}
    (h : Relation.EqvGen (Edit plan) es es') :
    effectiveLines plan es = effectiveLines plan es' ∧ exitReports es = exitReports es' := by
  induction h with
  | rel es es' hedit => exact hedit.visible_eq
  | refl es => exact ⟨rfl, rfl⟩
  | symm es es' _ ih => exact ⟨ih.1.symm, ih.2.symm⟩
  | trans es es' es'' _ _ ih ih' => exact ⟨ih.1.trans ih'.1, ih.2.trans ih'.2⟩

/-- **The outcome shows no more than the effective lines and the last report.** Sequences of
messages with the same effective lines have the same trace, whatever else is in them; the report is
the last one, if there is any; and neither edits nor shortening beforehand can be told from the
outcome. -/
theorem outcome_shows_only_visible (plan : LinePlan) (budget : UInt64)
    (es es' : List ProbeEvent) :
    (effectiveLines plan es = effectiveLines plan es' →
        (Recorder.outcome plan budget es).trace = (Recorder.outcome plan budget es').trace) ∧
      (Recorder.outcome plan budget es).exit = (exitReports es).getLast? ∧
      (Relation.EqvGen (Edit plan) es es' →
        Recorder.outcome plan budget es = Recorder.outcome plan budget es') ∧
      Recorder.outcome plan budget (es.map ProbeEvent.shorten) =
        Recorder.outcome plan budget es := by
  refine ⟨Recorder.trace_outcome_congr budget, Recorder.exit_outcome plan budget es, ?_, ?_⟩
  · intro h
    obtain ⟨hlines, hexits⟩ := visible_eq_of_edits h
    exact Recorder.outcome_congr budget hlines hexits
  · apply Recorder.outcome_congr
    · rw [effectiveLines, List.filterMap_map]
      exact List.filterMap_congr fun e _ => ProbeEvent.effect?_shorten plan e
    · rw [exitReports, List.filterMap_map]
      exact List.filterMap_congr fun e _ => ProbeEvent.report?_shorten e

/-- A module beside the value, a message for another line, an exit message that comes early and a
line feed in the text all stay unseen. -/
theorem outcome_shows_only_visible_edited :
    let plan : LinePlan := Table.empty.insert 2 ⟨"y = x", ["x"]⟩
    let found : ProbedValues := Table.empty.insert "x" ⟨.data, some "1\n2"⟩
    let told : ProbedValues := Table.empty.insert "x" ⟨.data, some "1 2"⟩
    let es : List ProbeEvent :=
      [.exit ⟨true, ""⟩, .line 2 (found.insert "os" ⟨.scope, none⟩), .line 7 found]
    let es' : List ProbeEvent := [.line 2 told, .exit ⟨true, ""⟩]
    Relation.EqvGen (Edit plan) es es' ∧
      Recorder.outcome plan 2000 es = Recorder.outcome plan 2000 es' ∧
      effectiveLines plan es = effectiveLines plan es' ∧
      (Recorder.outcome plan 2000 es).trace = (Recorder.outcome plan 2000 es').trace := by
  intro plan found told es es'
  have hedits : Relation.EqvGen (Edit plan) es es' := by
    have hdrop : Edit plan es [.exit ⟨true, ""⟩, .line 2 (found.insert "os" ⟨.scope, none⟩)] :=
      @Edit.dropUnplanned plan (es.take 2) [] 7 found rfl
    have hleave : Edit plan [.exit ⟨true, ""⟩, .line 2 (found.insert "os" ⟨.scope, none⟩)]
        [.exit ⟨true, ""⟩, .line 2 found] :=
      @Edit.values plan [.exit ⟨true, ""⟩] [] 2 _ _
        (@ProbedValues.Edit.leaveOut _ "os" ⟨.scope, none⟩ rfl (Or.inr rfl))
    have hretell : Edit plan [.exit ⟨true, ""⟩, .line 2 found]
        [.exit ⟨true, ""⟩, .line 2 told] :=
      @Edit.values plan [.exit ⟨true, ""⟩] [] 2 _ _
        (@ProbedValues.Edit.retell _ "x" "1\n2" "1 2" rfl (by decide +kernel))
    have hmove : Edit plan [.exit ⟨true, ""⟩, .line 2 told] es' :=
      @Edit.moveExit plan [] [] 2 told ⟨true, ""⟩
    exact .trans _ _ _ (.rel _ _ hdrop)
      (.trans _ _ _ (.rel _ _ hleave) (.trans _ _ _ (.rel _ _ hretell) (.rel _ _ hmove)))
  have h := outcome_shows_only_visible plan 2000 es es'
  have hlines := (visible_eq_of_edits hedits).1
  exact ⟨hedits, h.2.2.1 hedits, hlines, h.1 hlines⟩

end Postmortem
