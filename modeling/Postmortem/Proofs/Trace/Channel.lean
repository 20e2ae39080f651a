import Postmortem.Proofs.Json.Compact
import Postmortem.Proofs.Text.Lines
import Postmortem.Proofs.Text.Utf8
import Postmortem.Proofs.Trace.Event
import Postmortem.Run.Trace

/-!
# Channels that were cut off

A probe writes each of its messages as a line of its channel. Wherever the channel is cut off, the
messages whose whole text came through are read, and no others.

## Shape of the argument

A message followed by a line feed is read as that message, and the rest is read as a channel of its
own. So only the last line can be torn. Its bytes are no text if the cut is within a character;
otherwise they are the beginning of the text of an object, which no object is.
-/

namespace Postmortem

open Json (Codec)

/-- The bytes of a message. -/
def ProbeEvent.message (e : ProbeEvent) : List UInt8 :=
  Text.Utf8.ofString (ProbeEvent.codec.toText e)

namespace Channel

/-- The channel of some messages: each of them on a line of its own. -/
def ofEvents (es : List ProbeEvent) : List UInt8 := es.flatMap fun e => e.message ++ [10]

/-- Where the text of a message ends in the channel of all of them. -/
def textEnd (es : List ProbeEvent) (i : Fin es.length) : Nat :=
  (ofEvents (es.take i)).length + es[i].message.length

/-- How many messages have their whole text among the first bytes of the channel. -/
def wholeTexts (es : List ProbeEvent) (bytes : Nat) : Nat :=
  (List.finRange es.length).countP fun i => decide (textEnd es i ≤ bytes)

/-- The message that a line of a channel is, if it is one. -/
def decode? (line : List UInt8) : Option ProbeEvent :=
  (Text.Utf8.chars? line).bind fun cs => (ProbeEvent.codec.ofChars cs).toOption

/-- The lines of a channel before the first that is no text. -/
def readableLines (bytes : List UInt8) : List (List UInt8) :=
  (Text.byteLines bytes).takeWhile fun line => (Text.Utf8.chars? line).isSome

/-- The messages of a channel are what its readable lines are, line by line. -/
theorem events_eq (bytes : List UInt8) :
    events bytes = (readableLines bytes).filterMap decode? := by
  rw [events, readableLines]
  induction Text.byteLines bytes with
  | nil => rfl
  | cons line lines ih =>
    rw [textLines, List.takeWhile_cons]
    cases hline : Text.Utf8.chars? line with
    | none => rfl
    | some cs =>
      have hdecode : decode? line = (ProbeEvent.codec.ofChars cs).toOption := by
        rw [decode?, hline]
        rfl
      simp only [Option.isSome_some, if_true, List.filterMap_cons, hdecode, ih]

/-- A line that is a text and ends with a line feed is read by itself, and then the rest is. A line
that is no text ends the channel. -/
theorem events_line_cons {line : List UInt8} (hfeed : 10 ∉ line) (rest : List UInt8) :
    events (line ++ 10 :: rest) =
      if (Text.Utf8.chars? (Text.dropReturn 13 line)).isSome then
        (decode? (Text.dropReturn 13 line)).toList ++ events rest
      else [] := by
  rw [events_eq, events_eq, readableLines, readableLines, Text.byteLines_append_cons hfeed,
    List.takeWhile_cons]
  split
  · rw [List.filterMap_cons]
    cases decode? (Text.dropReturn 13 line) <;> rfl
  · rfl

end Channel

/-! ## One message -/

namespace ProbeEvent

variable (e : ProbeEvent)

/-- The bytes of a message are those of the text of an object. -/
theorem message_eq : e.message = Text.Utf8.encode (codec.encode e).chars := by
  rw [message, Codec.toText, Json.compact, Text.Utf8.ofString, String.toList_ofList]

/-- A message stands on one line. -/
theorem feed_not_mem_message : 10 ∉ e.message := by
  rw [message_eq]
  exact Text.Utf8.feed_not_mem_encode (Json.feed_not_mem_chars _)

/-- A message ends with the brace of an object. -/
theorem getLast?_message : e.message.getLast? = some 125 := by
  obtain ⟨cs, hcs⟩ := Json.memberChars_concat (("event", .text e.tag) :: e.members)
  have hchars : (codec.encode e).chars = '\x7b' :: (cs ++ ['\x7d']) := by
    rw [← hcs]
    rfl
  rw [message_eq, hchars, ← List.cons_append, Text.Utf8.encode_append, List.getLast?_append]
  rfl

/-- There is no empty message. -/
theorem message_ne_nil : e.message ≠ [] := by
  intro hnil
  have hlast := e.getLast?_message
  rw [hnil] at hlast
  cases hlast

/-- **A message is read back.** -/
theorem decode?_message : Channel.decode? e.message = some e := by
  have hread : codec.ofChars (codec.encode e).chars = .ok e :=
    Codec.ofChars_written lawful_codec (by decide) (Json.written_chars _)
  rw [Channel.decode?, message_eq, Text.Utf8.chars?_encode, Option.bind_some, hread]
  rfl

/-- **A torn message is none.** -/
theorem decode?_torn {p : List UInt8} (hp : p <+: e.message) (hne : p ≠ e.message) :
    Channel.decode? p = none := by
  rw [message_eq] at hp hne
  rw [Channel.decode?]
  obtain hgap | ⟨ds, ⟨rest, hsplit⟩, rfl⟩ := Text.Utf8.chars?_of_prefix hp
  · rw [hgap, Option.bind_none]
  · have hrest : rest ≠ [] := by
      intro hnil
      rw [hnil, List.append_nil] at hsplit
      exact hne (congrArg Text.Utf8.encode hsplit)
    rw [Text.Utf8.chars?_encode, Option.bind_some]
    cases hread : codec.ofChars ds with
    | error f => rfl
    | ok w => exact absurd hread (Codec.ofChars_torn hsplit hrest)

end ProbeEvent

/-! ## A channel of messages -/

namespace Channel

/-- A message with its line feed is read, and then the rest is. -/
theorem events_message_cons (e : ProbeEvent) (rest : List UInt8) :
    events (e.message ++ 10 :: rest) = e :: events rest := by
  have hreturn : e.message.getLast? ≠ some 13 := by
    rw [e.getLast?_message]
    decide
  have htext : (Text.Utf8.chars? e.message).isSome = true := by
    rw [e.message_eq, Text.Utf8.chars?_encode, Option.isSome_some]
  rw [events_line_cons e.feed_not_mem_message, Text.dropReturn_eq_self hreturn, if_pos htext,
    e.decode?_message]
  rfl

/-- The beginning of a message is read as that message if it is whole, and as nothing else. -/
theorem events_of_prefix_message {e : ProbeEvent} {p : List UInt8} (hp : p <+: e.message) :
    events p = if p = e.message then [e] else [] := by
  have hfeed : 10 ∉ p := fun hmem => e.feed_not_mem_message (hp.subset hmem)
  rw [events_eq, readableLines, Text.byteLines_of_not_mem hfeed]
  by_cases hwhole : p = e.message
  · rw [if_pos hwhole, hwhole, if_neg (by simpa using e.message_ne_nil), List.takeWhile_cons_of_pos,
      List.takeWhile_nil, List.filterMap_cons_some e.decode?_message, List.filterMap_nil]
    rw [e.message_eq, Text.Utf8.chars?_encode, Option.isSome_some]
  · rw [if_neg hwhole]
    apply List.filterMap_eq_nil_iff.mpr
    intro line hline
    have hmem := (List.takeWhile_sublist _).mem hline
    split at hmem
    · cases hmem
    · rw [List.mem_singleton.mp hmem]
      exact e.decode?_torn hp hwhole

/-- The text of the first message ends first. -/
theorem textEnd_zero (e : ProbeEvent) (es : List ProbeEvent) :
    textEnd (e :: es) ⟨0, Nat.zero_lt_succ _⟩ = e.message.length := by
  rw [textEnd]
  exact Nat.zero_add _

/-- A message takes up its bytes and a line feed. -/
theorem length_ofEvents_cons (e : ProbeEvent) (es : List ProbeEvent) :
    (ofEvents (e :: es)).length = e.message.length + 1 + (ofEvents es).length := by
  rw [ofEvents, List.flatMap_cons, List.length_append, List.length_append, ← ofEvents]
  rfl

/-- The others end later by that text and its line feed. -/
theorem textEnd_succ (e : ProbeEvent) (es : List ProbeEvent) (i : Fin es.length) :
    textEnd (e :: es) i.succ = e.message.length + 1 + textEnd es i := by
  rw [textEnd, textEnd, Fin.val_succ, List.take_succ_cons, length_ofEvents_cons]
  exact Nat.add_assoc _ _ _

/-- Every text has an end after the beginning. -/
theorem textEnd_pos (es : List ProbeEvent) (i : Fin es.length) : 0 < textEnd es i := by
  rw [textEnd]
  exact Nat.add_pos_right _ (List.length_pos_iff.mpr (es[i]).message_ne_nil)

/-- The first text counts if it is among the bytes, and then the others count as they do among the
bytes after it. -/
theorem wholeTexts_cons (e : ProbeEvent) (es : List ProbeEvent) (n : Nat) :
    wholeTexts (e :: es) n =
      if n < e.message.length then 0
      else wholeTexts es (n - (e.message.length + 1)) + 1 := by
  -- the first text by itself, and the ends of the others moved by it
  have hsplit : wholeTexts (e :: es) n =
      (List.finRange es.length).countP (fun i => decide (e.message.length + 1 + textEnd es i ≤ n)) +
        if e.message.length ≤ n then 1 else 0 := by
    rw [wholeTexts]
    show List.countP _ (List.finRange (es.length + 1)) = _
    rw [List.finRange_succ, List.countP_cons, List.countP_map]
    simp only [Function.comp_def, textEnd_succ, decide_eq_true_eq]
    exact congrArg _ (by rw [← textEnd_zero e es]; rfl)
  rw [hsplit]
  by_cases hcut : n < e.message.length
  · rw [if_pos hcut, if_neg (by omega), Nat.add_zero, List.countP_eq_zero]
    intro i _
    rw [decide_eq_true_eq]
    omega
  · rw [if_neg hcut, if_pos (by omega), wholeTexts]
    refine congrArg (· + 1) (List.countP_congr fun i _ => ?_)
    have hpos := textEnd_pos es i
    rw [decide_eq_true_eq, decide_eq_true_eq]
    omega

/-- Among no bytes there is no text. -/
theorem wholeTexts_zero (es : List ProbeEvent) : wholeTexts es 0 = 0 := by
  rw [wholeTexts, List.countP_eq_zero]
  intro i _
  have hpos := textEnd_pos es i
  rw [decide_eq_true_eq]
  omega

/-- A channel that is cut off after the line feed of its first message goes on with the channel of
the others, cut off. -/
theorem prefix_of_not_prefix_message {e : ProbeEvent} {es : List ProbeEvent} {p : List UInt8}
    (hp : p <+: ofEvents (e :: es)) (hfirst : ¬ p <+: e.message) :
    ∃ p', p = e.message ++ 10 :: p' ∧ p' <+: ofEvents es := by
  obtain ⟨lost, hlost⟩ := hp
  rw [ofEvents, List.flatMap_cons, ← ofEvents, List.append_assoc,
    List.append_eq_append_iff] at hlost
  obtain ⟨missing, hmessage, -⟩ | ⟨more, hmore, hlater⟩ := hlost
  · exact absurd ⟨missing, hmessage.symm⟩ hfirst
  · cases more with
    | nil =>
      rw [List.append_nil] at hmore
      exact absurd (hmore ▸ List.prefix_rfl) hfirst
    | cons feed p' =>
      obtain ⟨rfl, hrest⟩ := List.cons_eq_cons.mp hlater
      exact ⟨p', hmore, lost, hrest.symm⟩

/-- **What is read of a channel that was cut off** are the messages whose whole text came
through. -/
theorem events_of_prefix {es : List ProbeEvent} {p : List UInt8} (hp : p <+: ofEvents es) :
    events p = es.take (wholeTexts es p.length) := by
  induction es generalizing p with
  | nil =>
    rw [List.prefix_nil.mp hp]
    rfl
  | cons e es ih =>
    rw [wholeTexts_cons]
    by_cases hfirst : p <+: e.message
    · -- the cut is within the first message, or right after its text
      rw [events_of_prefix_message hfirst]
      by_cases hwhole : p = e.message
      · rw [if_pos hwhole, hwhole, if_neg (Nat.lt_irrefl _), Nat.sub_eq_zero_of_le (by omega),
          wholeTexts_zero]
        rfl
      · have hcut : p.length < e.message.length :=
          Nat.lt_of_le_of_ne hfirst.length_le fun hlength => hwhole (hfirst.eq_of_length hlength)
        rw [if_neg hwhole, if_pos hcut, List.take_zero]
    · obtain ⟨p', rfl, hrest⟩ := prefix_of_not_prefix_message hp hfirst
      have hlength : (e.message ++ 10 :: p').length = e.message.length + 1 + p'.length := by
        rw [List.length_append, List.length_cons]
        omega
      rw [events_message_cons, ih hrest, hlength, if_neg (by omega), Nat.add_sub_cancel_left,
        List.take_succ_cons]

/-- All texts are among the bytes of the whole channel. -/
theorem wholeTexts_ofEvents (es : List ProbeEvent) :
    wholeTexts es (ofEvents es).length = es.length := by
  induction es with
  | nil => rfl
  | cons e es ih =>
    rw [wholeTexts_cons, length_ofEvents_cons, if_neg (by omega), Nat.add_sub_cancel_left, ih,
      List.length_cons]

end Channel

/-- **Framing survives truncation.** Whatever is left of the channel of some messages when it is cut
off, the messages that are read of it are those whose whole text came through, and not the one that
was torn. A recorder takes note of these one by one, once each and in order. Of the whole channel,
these are all. A run that ends by itself leaves its recorder so. -/
theorem observeAll_events_truncated {es : List ProbeEvent} {p : List UInt8}
    (hp : p <+: Channel.ofEvents es) (r : Recorder) :
    let whole := es.take (Channel.wholeTexts es p.length)
    Channel.events p = whole ∧
    r.observeAll (Channel.events p) = whole.foldl Recorder.observe r ∧
    (p = Channel.ofEvents es → Channel.events p = es ∧
      r.observeAll (Channel.events p) = es.foldl Recorder.observe r) ∧
    (∀ (c : Child) (status : ExitStatus) (captureStderr : Bool), c.stdout = p →
      c.ending = some status → ∃ stderr, c.record captureStderr r =
        .completed status (whole.foldl Recorder.observe r) stderr) := by
  intro whole
  have hevents : Channel.events p = whole := Channel.events_of_prefix hp
  refine ⟨hevents, ?_, ?_, ?_⟩
  · rw [hevents, Recorder.observeAll]
  · intro hall
    have hwhole : whole = es := by
      simp only [whole, hall, Channel.wholeTexts_ofEvents, List.take_length]
    rw [hevents, hwhole, Recorder.observeAll]
    exact ⟨rfl, rfl⟩
  · intro c status captureStderr hout hend
    rw [Child.record, hend, hout, hevents, Recorder.observeAll]
    exact ⟨_, rfl⟩

/-- A channel that is cut off within a character loses the message that the character is in; one
that only lacks a line feed does not. -/
theorem observeAll_events_truncated_character :
    let values : ProbedValues := Table.empty.insert "x" ⟨.data, some "€"⟩
    let es : List ProbeEvent := [.exit ⟨true, ""⟩, .line 3 values]
    let r := Recorder.start (Table.empty.insert 3 ⟨"y = x", ["x"]⟩) 100
    let left (n : Nat) : List UInt8 := (Channel.ofEvents es).take n
    (∀ n, left n <+: Channel.ofEvents es) ∧
      Channel.events (left 113) = [.exit ⟨true, ""⟩] ∧
      r.observeAll (Channel.events (left 113)) = r.observe (.exit ⟨true, ""⟩) ∧
      Channel.events (left 118) = [.exit ⟨true, ""⟩, .line 3 values] ∧
      r.observeAll (Channel.events (left 118)) =
        (r.observe (.exit ⟨true, ""⟩)).observe (.line 3 values) := by
  intro values es r left
  have hfirst : (ProbeEvent.exit ⟨true, ""⟩).message.length = 48 := by decide +kernel
  have hsecond : (ProbeEvent.line 3 values).message.length = 69 := by decide +kernel
  have hwhole (n : Nat) : Channel.wholeTexts es n =
      if n < 48 then 0 else (if n - 49 < 69 then 0 else 1) + 1 := by
    rw [Channel.wholeTexts_cons, Channel.wholeTexts_cons, hfirst, hsecond]
    rfl
  have hlength (n : Nat) : (left n).length = min n 119 := by
    rw [List.length_take, Channel.length_ofEvents_cons, Channel.length_ofEvents_cons, hfirst,
      hsecond]
    rfl
  have hleft (n : Nat) : left n <+: Channel.ofEvents es := List.take_prefix n _
  obtain ⟨hcut, hcutAll, -⟩ := observeAll_events_truncated (hleft 113) r
  obtain ⟨hlacks, hlacksAll, -⟩ := observeAll_events_truncated (hleft 118) r
  rw [hlength, hwhole] at hcut hcutAll hlacks hlacksAll
  exact ⟨hleft, hcut, hcutAll, hlacks, hlacksAll⟩

end Postmortem
