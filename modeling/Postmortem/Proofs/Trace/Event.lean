import Postmortem.Proofs.Json.Record
import Postmortem.Trace.Event

/-!
# The codec of messages is lawful

Every message is read back from its text: the kinds of values and of messages have different names,
and so have the fields of each.
-/

namespace Postmortem

open Json (Codec Fields Kind KeyCodec)

/-- Kinds of values are told apart by their names. -/
theorem ValueKind.lawful_codec (levels : Nat) : ValueKind.codec.Lawful levels := by
  apply Codec.lawful_choice
  intro k
  cases k <;> rfl

/-- A text that may be missing. -/
theorem Json.Codec.lawful_optional_text (levels : Nat) : (Codec.optional .text).Lawful levels :=
  Codec.lawful_optional (Codec.lawful_text levels) fun _ _ => Json.error_ne_ok _ _

/-- The fields of a value have different names. -/
theorem ProbedValue.lawful_fields : ProbedValue.fields.Lawful 0 := by
  apply Fields.lawful_field (ValueKind.lawful_codec 0) (by decide)
  refine ⟨Codec.lawful_optional_text 0, ?_, List.not_mem_nil, trivial⟩
  intro v hwritten
  cases hwritten

/-- Values are read back. -/
theorem ProbedValue.lawful_codec : ProbedValue.codec.Lawful 1 :=
  Codec.lawful_record ProbedValue.lawful_fields fun _ => rfl

/-- The values of names are read back. -/
theorem ProbedValues.lawful_codec : ProbedValues.codec.Lawful 2 :=
  Codec.lawful_table KeyCodec.lawful_text ProbedValue.lawful_codec

namespace ProbeEvent

/-- The fields of a line message have different names. -/
theorem lawful_lineFields : lineFields.Lawful 2 :=
  Fields.lawful_field (Codec.lawful_word 2) (by decide)
    (Fields.lawful_field ProbedValues.lawful_codec List.not_mem_nil trivial)

/-- So have those of an exit message. -/
theorem lawful_exitFields : exitFields.Lawful 2 :=
  Fields.lawful_field (Codec.lawful_flag 2) (by decide)
    (Fields.lawful_field (Codec.lawful_text 2) List.not_mem_nil trivial)

/-- **Messages are read back.** -/
theorem lawful_codec : codec.Lawful 3 := by
  apply Codec.lawful_tagged
  · intro e
    cases e with
    | line number values =>
      exact ⟨_, rfl, Kind.ofMembers_record lawful_lineFields "line" _ (number, values, ())⟩
    | exit report =>
      exact ⟨_, rfl, Kind.ofMembers_record lawful_exitFields "exit" _
        (report.hasError, report.traceback, ())⟩
  · intro e m hm heq
    cases e with
    | line number values =>
      have hname := lineFields.name_mem_of_mem_encode (number, values, ()) hm
      rw [heq] at hname
      exact absurd hname (by decide)
    | exit report =>
      have hname := exitFields.name_mem_of_mem_encode (report.hasError, report.traceback, ()) hm
      rw [heq] at hname
      exact absurd hname (by decide)
  · intro e m hm
    cases e with
    | line number values =>
      exact Fields.holds_of_mem_encode lawful_lineFields (number, values, ()) hm
    | exit report =>
      exact Fields.holds_of_mem_encode lawful_exitFields (report.hasError, report.traceback, ()) hm

end ProbeEvent

end Postmortem
