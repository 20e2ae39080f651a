import Postmortem.Proofs.Trace.Channel

/-!
# Channels with lines that are no messages

What a line costs that should not be in a channel. If it is a text, but not that of a message, it is
passed over and costs only itself. If its bytes are no text, it ends the channel: whatever comes
after it is lost, the report of how the program ended included.

## Shape of the argument

The lines before it are read one by one (`Channel.events_line_cons`), so that by induction they come
to the same whatever stands after them. What is left is one step at the line itself.
-/

namespace Postmortem

namespace Channel

/-- The bytes of some lines, a line feed at the end of each. -/
def ofLines (ls : List (List UInt8)) : List UInt8 := ls.flatMap (· ++ [10])

/-- A line is a text. The return right before its line feed is not part of it. -/
def IsText (line : List UInt8) : Prop := (Text.Utf8.chars? (Text.dropReturn 13 line)).isSome = true

/-- The message that a line is, if it is one. -/
def lineMessage? (line : List UInt8) : Option ProbeEvent := decode? (Text.dropReturn 13 line)

/-- One line more at the beginning. -/
theorem ofLines_cons (l : List UInt8) (ls : List (List UInt8)) :
    ofLines (l :: ls) = l ++ 10 :: ofLines ls := by
  rw [ofLines, List.flatMap_cons, ← ofLines, List.append_assoc]
  rfl

/-- A line that is a text but no message is passed over. -/
theorem events_line_of_isText {bad : List UInt8} (hfeed : 10 ∉ bad) (htext : IsText bad)
    (hbad : lineMessage? bad = none) (rest : List UInt8) :
    events (bad ++ 10 :: rest) = events rest := by
  rw [IsText] at htext
  rw [lineMessage?] at hbad
  rw [events_line_cons hfeed, if_pos htext, hbad]
  rfl

/-- A line that is no text ends the channel. -/
theorem events_line_of_not_isText {bad : List UInt8} (hfeed : 10 ∉ bad) (htext : ¬ IsText bad)
    (rest : List UInt8) : events (bad ++ 10 :: rest) = [] := by
  rw [IsText] at htext
  rw [events_line_cons hfeed, if_neg htext]

/-- What comes after some lines matters by its own messages alone. -/
theorem events_ofLines_congr {before : List (List UInt8)} (hbefore : ∀ l ∈ before, 10 ∉ l)
    {rest rest' : List UInt8} (hrest : events rest = events rest') :
    events (ofLines before ++ rest) = events (ofLines before ++ rest') := by
  induction before with
  | nil => exact hrest
  | cons l ls ih =>
    have hfeed : 10 ∉ l := hbefore l List.mem_cons_self
    have hlater := ih fun m hm => hbefore m (List.mem_cons_of_mem l hm)
    rw [ofLines_cons, List.append_assoc, List.append_assoc, List.cons_append, List.cons_append,
      events_line_cons hfeed, events_line_cons hfeed, hlater]

end Channel

/-- A child is recorded by the messages of its channel, whatever else its output is. -/
theorem Child.record_congr (c : Child) {bytes bytes' : List UInt8}
    (h : Channel.events bytes = Channel.events bytes') (captureStderr : Bool) (r : Recorder) :
    { c with stdout := bytes }.record captureStderr r =
      { c with stdout := bytes' }.record captureStderr r := by
  rw [Child.record, Child.record, h]

open Channel in
/-- **What a line costs that is no message.** Put anywhere between the lines of a channel, it leaves
the outcome of the run as it is, if it is a text: the status, the error output, the trace and the
report. If it is no text, the outcome is that of the lines before it, whatever comes after. -/
theorem record_bad_line (c : Child) (captureStderr : Bool) (r : Recorder)
    {before : List (List UInt8)} (hbefore : ∀ l ∈ before, 10 ∉ l) {bad : List UInt8}
    (hfeed : 10 ∉ bad) (hbad : lineMessage? bad = none) (rest : List UInt8) :
    (IsText bad →
      { c with stdout := ofLines before ++ bad ++ 10 :: rest }.record captureStderr r =
        { c with stdout := ofLines before ++ rest }.record captureStderr r) ∧
    (¬ IsText bad →
      { c with stdout := ofLines before ++ bad ++ 10 :: rest }.record captureStderr r =
        { c with stdout := ofLines before }.record captureStderr r) := by
  rw [List.append_assoc]
  constructor
  · intro htext
    have hline := events_line_of_isText hfeed htext hbad rest
    exact c.record_congr (events_ofLines_congr hbefore hline) captureStderr r
  · intro htext
    have hline : events (bad ++ 10 :: rest) = events [] :=
      events_line_of_not_isText hfeed htext rest
    have hall := events_ofLines_congr hbefore hline
    rw [List.append_nil] at hall
    exact c.record_congr hall captureStderr r

open Channel in
/-- Words before the report of a program are passed over. -/
theorem record_bad_line_words :
    let words : List UInt8 := Text.Utf8.ofString "not json"
    let report : List UInt8 := (ProbeEvent.exit ⟨false, ""⟩).message ++ [10]
    (∀ l ∈ [words], 10 ∉ l) ∧ 10 ∉ words ∧ lineMessage? words = none ∧ IsText words ∧
      ({ stdout := ofLines [words] ++ words ++ 10 :: report } : Child).record true default =
        ({ stdout := ofLines [words] ++ report } : Child).record true default := by
  intro words report
  have hfeed : 10 ∉ words := by decide +kernel
  have hbefore : ∀ l ∈ [words], 10 ∉ l := by
    intro l hl
    rw [List.mem_singleton.mp hl]
    exact hfeed
  have hnone : lineMessage? words = none := by decide +kernel
  have htext : IsText words := by
    rw [IsText]
    decide +kernel
  exact ⟨hbefore, hfeed, hnone, htext,
    (record_bad_line {} true default hbefore hfeed hnone report).1 htext⟩

open Channel in
/-- A single byte that is no text, on a line of its own, takes the report of a program away. -/
theorem record_bad_line_byte :
    let report : ProbeEvent := .exit ⟨false, ""⟩
    let r := Recorder.start Table.empty 2000
    10 ∉ ([0xff] : List UInt8) ∧ lineMessage? [0xff] = none ∧
      ({ stdout := ofLines [report.message] } : Child).record true r =
        .completed (.code 0) { r with exit := some ⟨false, ""⟩ } "" ∧
      ({ stdout := ofLines [[0xff], report.message] } : Child).record true r =
        .completed (.code 0) r "" := by
  intro report r
  have hfeed : 10 ∉ ([0xff] : List UInt8) := by decide
  have hnone : lineMessage? [0xff] = none := by decide +kernel
  have htext : ¬ IsText [0xff] := by
    rw [IsText]
    decide +kernel
  have hgood : events (ofLines [report.message]) = [report] := by
    rw [ofLines_cons, events_message_cons]
    rfl
  have hbad : events (ofLines [[0xff], report.message]) = [] := by
    rw [ofLines_cons, events_line_of_not_isText hfeed htext]
  refine ⟨hfeed, hnone, ?_, ?_⟩
  · rw [Child.record, hgood]
    rfl
  · rw [Child.record, hbad]
    rfl

end Postmortem
