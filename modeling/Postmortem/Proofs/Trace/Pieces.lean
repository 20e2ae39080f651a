import Postmortem.Proofs.Line.Plan
import Postmortem.Proofs.Number.Digits
import Postmortem.Proofs.Text.ByteOrder
import Postmortem.Proofs.Trace.Latest

/-!
# Reading a trace line by line

The text of a trace can be taken apart again. Split at its line feeds, it gives the retained entries
one by one, and each of them tells the line of the program that it stands for and the values that
the last message for this line had to show.

## Shape of the argument

What joins the entries is in none of them (`Trace.feed_not_mem_piece`). Values are shown on one line,
and so are the lines of the program; names are the ones that the plan asks for, which were read from
such a line.
-/

namespace Postmortem

open TraceLog

/-! ## Entries -/

namespace Trace

/-- What stands in a trace for a line of the program: its number, right-aligned to three characters,
its text, and names with the texts of their values. -/
def piece (number : Nat) (line : List Char) (found : List (String × String)) : List Char :=
  "line ".toList ++ (toString number).toList.leftpad 3 ' ' ++ ": '".toList ++ line ++
    "', variables before line executes: ".toList ++
    ", ".toList.intercalate (found.map fun e => e.1.toList ++ '=' :: (shown e.2).toList)

/-- The entry for some values is the piece for their texts. -/
theorem entryChars_items (number : Nat) (line : List Char) (values : ProbedValues) :
    entryChars number line (items values) = piece number line values.stateTexts.entries := by
  have hnumber : numberChars number = (toString number).toList.leftpad 3 ' ' := by
    rw [numberChars, Number.digits_eq_toString, List.leftpad, numberWidth]
  have hseparator : ", ".toList = [',', ' '] := rfl
  unfold entryChars piece
  rw [hnumber, ProbedValues.items_eq_stateTexts, hseparator]

/-- A shown value has no line feed. -/
theorem feed_not_mem_shown (s : String) : '\n' ∉ (shown s).toList := by
  rw [shown, String.toList_ofList, shownChars]
  exact (oneLine_elide (oneLine_onOneLine s.toList)).noFeed

/-- **No piece has a line feed**, unless the line of the program or a name has one. -/
theorem feed_not_mem_piece {number : Nat} {line : List Char} {found : List (String × String)}
    (hline : '\n' ∉ line) (hnames : ∀ e ∈ found, '\n' ∉ e.1.toList) :
    '\n' ∉ piece number line found := by
  have hnumber : '\n' ∉ (toString number).toList.leftpad 3 ' ' := by
    rw [List.leftpad, List.mem_append, List.mem_replicate, not_or, ← Number.digits_eq_toString]
    exact ⟨fun h => absurd h.2 (by decide), Number.feed_not_mem_digits number⟩
  have hfound : '\n' ∉ ", ".toList.intercalate
      (found.map fun e => e.1.toList ++ '=' :: (shown e.2).toList) := by
    intro hfeed
    rcases Text.mem_of_mem_intercalate hfeed with hseparator | ⟨item, hitem, hfeed⟩
    · exact absurd hseparator (by decide)
    · obtain ⟨e, he, rfl⟩ := List.mem_map.mp hitem
      rw [List.mem_append, List.mem_cons] at hfeed
      rcases hfeed with hname | hsign | hvalue
      · exact hnames e he hname
      · exact absurd hsign (by decide)
      · exact feed_not_mem_shown e.2 hvalue
  have hstart : '\n' ∉ "line ".toList := by decide
  have hquote : '\n' ∉ ": '".toList := by decide
  have hmiddle : '\n' ∉ "', variables before line executes: ".toList := by decide
  unfold piece
  simp only [List.mem_append, not_or]
  exact ⟨⟨⟨⟨⟨hstart, hnumber⟩, hquote⟩, hline⟩, hmiddle⟩, hfound⟩

end Trace

/-- Entries without line feeds are what splitting their text gives. -/
theorem TraceLog.splitOn_textOf {entries : List String} (hne : textOf entries ≠ "")
    (hfeed : ∀ e ∈ entries, '\n' ∉ e.toList) :
    (textOf entries).toList.splitOn '\n' = entries.map String.toList := by
  have hentries : entries.map String.toList ≠ [] := by
    intro hnil
    rw [textOf, hnil] at hne
    exact hne rfl
  rw [textOf, String.toList_ofList]
  apply List.splitOn_intercalate '\n' _ hentries
  intro cs hcs
  obtain ⟨e, he, rfl⟩ := List.mem_map.mp hcs
  exact hfeed e he

/-! ## The trace of a program -/

/-- A message tells nothing but what the plan asks for on its line. -/
def ProbeEvent.Asked (plan : LinePlan) : ProbeEvent → Prop
  | line number values => ∀ planned, plan.get? number.toNat = some planned →
      ∀ name v, values.get? name = some v → name ∈ planned.names
  | exit _ => True

open Text in
/-- A last record is the piece for the last message that shows something of its line, under the plan
that the program has. -/
theorem exists_piece_of_mem_lastRecords {parse : Line.Parser} {source : String}
    {events : List ProbeEvent} {r : Nat × String}
    (h : r ∈ lastRecords (recordsOf (LinePlan.ofSource parse source) events)) :
    ∃ line before number values after planned,
      1 ≤ r.1 ∧ (lines source.toList)[r.1 - 1]? = some line ∧
        events = before ++ .line number values :: after ∧ number.toNat = r.1 ∧
        (∀ e ∈ after, ¬ e.Shows number) ∧
        (LinePlan.ofSource parse source).get? r.1 = some planned ∧
        planned.text = .ofList (trim line) ∧
        r.2.toList = Trace.piece r.1 (trim line) values.stateTexts.entries := by
  obtain ⟨before, number, values, after, planned, hevents, hnumber, hplanned, hentry, hafter⟩ :=
    exists_of_mem_lastRecords h
  obtain ⟨line, hpos, hline, hplan⟩ := LinePlan.get?_ofSource_iff.mp hplanned
  obtain ⟨htext, -⟩ := LinePlan.planLine?_eq_some hplan
  refine ⟨line, before, number, values, after, planned, hpos, hline, hevents, hnumber, hafter,
    hplanned, htext, ?_⟩
  rw [(Trace.entry?_eq_some_iff.mp hentry).2, String.toList_ofList, Trace.entryChars_items, htext,
    String.toList_ofList]

/-- No last record has a line feed, if the messages tell what was asked for. -/
theorem feed_not_mem_of_mem_lastRecords {parse : Line.Parser} (hparse : parse.Slices)
    {source : String} {events : List ProbeEvent}
    (hasked : ∀ e ∈ events, e.Asked (LinePlan.ofSource parse source)) {r : Nat × String}
    (h : r ∈ lastRecords (recordsOf (LinePlan.ofSource parse source) events)) :
    '\n' ∉ r.2.toList := by
  obtain ⟨line, before, number, values, after, planned, -, -, hevents, hnumber, -, hplanned, htext,
    hchars⟩ := exists_piece_of_mem_lastRecords h
  obtain ⟨hline, hnames⟩ := LinePlan.feed_not_mem_of_get?_ofSource hparse hplanned
  rw [htext, String.toList_ofList] at hline
  have hmessage := hasked (.line number values) (by rw [hevents]; simp)
  rw [hchars]
  apply Trace.feed_not_mem_piece hline
  rintro ⟨name, text⟩ hmem
  have hget := ProbedValues.mem_stateTexts_iff.mp hmem
  exact hnames name (hmessage planned (hnumber ▸ hplanned) name _ hget)

open Text in
/-- **A trace can be read line by line.** Split at its line feeds, a trace that is not empty gives the
retained entries, no two of them for one line of the program. Each is made of the number and the
trimmed text of its line, and of the data values with a text in the last message for the line that
has any: all of them, each once, in the order of the bytes of their names. -/
theorem splitOn_trace {parse : Line.Parser} (hparse : parse.Slices) (source : String)
    (budget : UInt64) (events : List ProbeEvent) :
    let plan := LinePlan.ofSource parse source
    (∀ e ∈ events, e.Asked plan) → (Recorder.outcome plan budget events).trace ≠ "" →
    ∃ kept : List (Nat × String),
      (Recorder.logOf plan budget events).trace = kept.map (·.2) ∧
        (Recorder.outcome plan budget events).trace.toList.splitOn '\n' = kept.map (·.2.toList) ∧
        (kept.map (·.1)).Nodup ∧
        ∀ r ∈ kept, ∃ line before number values after found,
          1 ≤ r.1 ∧ (lines source.toList)[r.1 - 1]? = some line ∧
            events = before ++ .line number values :: after ∧ number.toNat = r.1 ∧
            (∀ e ∈ after, ¬ e.Shows number) ∧
            (∀ name text, (name, text) ∈ found ↔ values.get? name = some ⟨.data, some text⟩) ∧
            found.Pairwise (fun a b => Utf8.ofString a.1 < Utf8.ofString b.1) ∧
            r.2.toList = Trace.piece r.1 (trim line) found := by
  intro plan hasked hne
  obtain ⟨hholds, -⟩ := Recorder.holds_logOf plan budget events
  obtain ⟨kept, hkept, htrace⟩ := hholds.trace_suffix
  have htext : (Recorder.outcome plan budget events).trace = textOf (kept.map (·.2)) :=
    congrArg textOf htrace
  refine ⟨kept, htrace, ?_, ?_, ?_⟩
  · rw [htext] at hne ⊢
    rw [splitOn_textOf hne, List.map_map]
    · rfl
    · intro e he
      obtain ⟨r, hr, rfl⟩ := List.mem_map.mp he
      exact feed_not_mem_of_mem_lastRecords hparse hasked (hkept.subset hr)
  · exact (nodup_lastRecords _).sublist (hkept.sublist.map _)
  · intro r hr
    obtain ⟨line, before, number, values, after, planned, hpos, hline, hevents, hnumber, hafter, -,
      -, hchars⟩ := exists_piece_of_mem_lastRecords (hkept.subset hr)
    refine ⟨line, before, number, values, after, values.stateTexts.entries, hpos, hline, hevents,
      hnumber, hafter, fun name text => ProbedValues.mem_stateTexts_iff, ?_, hchars⟩
    exact values.stateTexts.ascending.imp Utf8.ofString_lt_ofString_iff.mpr

/-- The trace of the program `y = x` has a single piece, even if the value has two lines. -/
theorem splitOn_trace_assignment :
    let plan := LinePlan.ofSource Line.assignmentParser "y = x"
    let events : List ProbeEvent := [.line 1 (Table.empty.insert "x" ⟨.data, some "1\n2"⟩)]
    Line.assignmentParser.Slices ∧ (∀ e ∈ events, e.Asked plan) ∧
      (Recorder.outcome plan 2000 events).trace =
        "line   1: 'y = x', variables before line executes: x=1 2" ∧
      ∃ kept : List (Nat × String),
        (Recorder.outcome plan 2000 events).trace.toList.splitOn '\n' = kept.map (·.2.toList) ∧
          (kept.map (·.1)).Nodup := by
  intro plan events
  have hplan : plan = Table.empty.insert 1 ⟨"y = x", ["x"]⟩ := Line.ofSource_assignmentParser
  have hasked : ∀ e ∈ events, e.Asked plan := by
    intro e he
    rw [List.mem_singleton.mp he, hplan]
    intro planned hplanned name v hget
    obtain rfl : ⟨"y = x", ["x"]⟩ = planned := Option.some.inj hplanned
    by_cases hname : name = "x"
    · exact List.mem_singleton.mpr hname
    · have hnone : (Table.empty : ProbedValues).get? name = none := rfl
      rw [Table.get?_insert_of_ne hname, hnone] at hget
      exact absurd hget (by simp)
  have htrace : (Recorder.outcome plan 2000 events).trace =
      "line   1: 'y = x', variables before line executes: x=1 2" := by
    rw [hplan]
    decide +kernel
  have hne : (Recorder.outcome plan 2000 events).trace ≠ "" := by
    rw [htrace]
    decide
  obtain ⟨kept, -, hsplit, hnodup, -⟩ :=
    splitOn_trace Line.slices_assignmentParser "y = x" 2000 events hasked hne
  exact ⟨Line.slices_assignmentParser, hasked, htrace, kept, hsplit, hnodup⟩

end Postmortem
