import Mathlib.Logic.Function.Basic
import Postmortem.Judge.Report
import Postmortem.Proofs.Json.OnLines
import Postmortem.Proofs.Trace.Event

/-!
# The vocabulary

All that this library writes in the interchange format: how a program is launched, what a probe is
asked and what it reports, the result of a run, and what is known of programs that were judged.
Whatever is written of these is read back, from its compact text and from its text on lines, so that
different values never have the same text.

## Shape of the argument

The codec of each type is lawful because it is put together from lawful parts: fields have different
names, a field that is not written is the one that is missed, and the kinds of a tagged record have
different tags. A lawful codec reads a value back from every layout of it, and a text that is read
back as two values makes them equal.
-/

namespace Postmortem

open Json (Codec Fields Kind KeyCodec)

/-! ## Texts of lawful codecs -/

namespace Json.Codec

variable {α : Type} {c : Codec α} {levels : Nat}

/-- A value is read back from its compact text. -/
theorem ofText_compact (h : c.Lawful levels) (hlevels : levels < maxDepth) (v : α) :
    c.ofText (c.encode v).compact = .ok v := by
  rw [ofText, compact, String.toList_ofList]
  exact ofChars_written h hlevels (written_chars _)

/-- A value is read back from its text on lines. -/
theorem ofText_onLines (h : c.Lawful levels) (hlevels : levels < maxDepth) (v : α) :
    c.ofText (c.encode v).onLines = .ok v := by
  rw [ofText, onLines, String.toList_ofList]
  exact ofChars_written h hlevels (written_lineChars 0 _)

/-- The line feed behind a printed text makes no difference. -/
theorem ofText_printed (h : c.Lawful levels) (hlevels : levels < maxDepth) (v : α) :
    c.ofText ((c.encode v).onLines ++ "\n") = .ok v := by
  rw [ofText, String.toList_append, onLines, String.toList_ofList]
  exact ofChars_written_gap h hlevels (written_lineChars 0 _)
    (List.forall_mem_singleton.mpr rfl)

/-- Values that are read back have different texts. -/
theorem injective_of_ofText {write : α → String} (h : ∀ v, c.ofText (write v) = .ok v) :
    Function.Injective write := by
  intro v w heq
  have hv := h v
  rw [heq, h w] at hv
  exact (Except.ok.inj hv).symm

end Json.Codec

/-! ## Requests -/

namespace Launch

/-- There is a single field. -/
theorem lawful_entryFields : entryFields.Lawful 0 :=
  Fields.lawful_field (Codec.lawful_text 0) List.not_mem_nil trivial

/-- Launches are read back. -/
theorem lawful_codec : codec.Lawful 1 := by
  apply Codec.lawful_tagged
  · intro l
    cases l with
    | entryPoint name =>
      exact ⟨_, rfl, Kind.ofMembers_record lawful_entryFields "entry_point" _ (name, ())⟩
    | script => exact ⟨_, rfl, rfl⟩
  · intro l m hm heq
    cases l with
    | entryPoint name =>
      have hname := entryFields.name_mem_of_mem_encode (name, ()) hm
      rw [heq] at hname
      exact absurd hname (by decide)
    | script => exact absurd hm List.not_mem_nil
  · intro l m hm
    cases l with
    | entryPoint name => exact Fields.holds_of_mem_encode lawful_entryFields (name, ()) hm
    | script => exact absurd hm List.not_mem_nil

end Launch

namespace ProbeRequest

/-- The fields of a request have different names. -/
theorem lawful_fields : fields.Lawful 2 := by
  have htext := Codec.lawful_text 2
  have hlaunch := Launch.lawful_codec.mono (Nat.le_succ 1)
  have hargs := Codec.lawful_list (Codec.lawful_text 1)
  have hlines := Codec.lawful_table KeyCodec.lawful_word (Codec.lawful_list (Codec.lawful_text 0))
  apply Fields.lawful_field htext (by decide)
  apply Fields.lawful_field htext (by decide)
  apply Fields.lawful_field htext (by decide)
  apply Fields.lawful_field hlaunch (by decide)
  apply Fields.lawful_field hargs (by decide)
  apply Fields.lawful_field (Codec.lawful_flag 2) (by decide)
  exact Fields.lawful_field hlines List.not_mem_nil trivial

/-- Requests are read back. -/
theorem lawful_codec : codec.Lawful 3 := Codec.lawful_record lawful_fields fun _ => rfl

end ProbeRequest

/-! ## Results -/

namespace RunResult

/-- The fields of a result have different names. -/
theorem lawful_fields : fields.Lawful 0 := by
  apply Fields.lawful_field (Codec.lawful_flag 0) (by decide)
  apply Fields.lawful_field (Codec.lawful_text 0) (by decide)
  exact Fields.lawful_field (Codec.lawful_text 0) List.not_mem_nil trivial

/-- Results are read back. -/
theorem lawful_codec : codec.Lawful 1 := Codec.lawful_record lawful_fields fun _ => rfl

end RunResult

/-! ## Judgements -/

/-- Verdicts are told apart by their names. -/
theorem Verdict.lawful_codec (levels : Nat) : Verdict.codec.Lawful levels := by
  apply Codec.lawful_choice
  intro v
  cases v <;> rfl

namespace ErrorSignal

/-- The fields of a signal have different names. -/
theorem lawful_fields : fields.Lawful 0 := by
  have htext := Codec.lawful_optional_text 0
  apply Fields.lawful_field (Codec.lawful_word 0) (by decide)
  apply Fields.lawful_field (Verdict.lawful_codec 0) (by decide)
  apply Fields.lawful_field htext (by decide)
  apply Fields.lawful_field (Codec.lawful_text 0) (by decide)
  apply Fields.lawful_field (Codec.lawful_flag 0) (by decide)
  apply Fields.lawful_field htext (by decide)
  exact Fields.lawful_field htext List.not_mem_nil trivial

/-- Signals are read back. -/
theorem lawful_codec : codec.Lawful 1 := Codec.lawful_record lawful_fields fun _ => rfl

end ErrorSignal

namespace VerdictSummary

/-- The fields of a summary have different names. -/
theorem lawful_fields : fields.Lawful 0 := by
  have hword := Codec.lawful_word 0
  apply Fields.lawful_field hword (by decide)
  apply Fields.lawful_field hword (by decide)
  apply Fields.lawful_field hword (by decide)
  apply Fields.lawful_field hword (by decide)
  exact Fields.lawful_field hword List.not_mem_nil trivial

/-- Summaries are read back. -/
theorem lawful_codec : codec.Lawful 1 := Codec.lawful_record lawful_fields fun _ => rfl

end VerdictSummary

namespace CandidateReport

/-- The fields of a report have different names, and the error that is not written is none. -/
theorem lawful_fields : fields.Lawful 2 := by
  have hsummary := VerdictSummary.lawful_codec.mono (Nat.le_succ 1)
  have hsignals := Codec.lawful_list ErrorSignal.lawful_codec
  apply Fields.lawful_field (Codec.lawful_text 2) (by decide)
  apply Fields.lawful_field hsummary (by decide)
  apply Fields.lawful_field hsignals (by decide)
  refine ⟨Codec.lawful_optional_text 2, ?_, List.not_mem_nil, trivial⟩
  intro error hwritten
  cases error with
  | none => rfl
  | some said => cases hwritten

/-- Reports are read back. -/
theorem lawful_codec : codec.Lawful 3 := Codec.lawful_record lawful_fields fun _ => rfl

end CandidateReport

/-! ## All of it -/

/-- The types of what is written. -/
inductive Vocabulary where
  | launch
  | request
  | probedValue
  | event
  | result
  | signal
  | summary
  | report
deriving DecidableEq, Repr, Inhabited

namespace Vocabulary

/-- The values of a type. -/
def Value : Vocabulary → Type
  | launch => Launch
  | request => ProbeRequest
  | probedValue => ProbedValue
  | event => ProbeEvent
  | result => RunResult
  | signal => ErrorSignal
  | summary => VerdictSummary
  | report => CandidateReport

/-- How the values of a type are written. -/
def codec : (t : Vocabulary) → Codec t.Value
  | launch => Launch.codec
  | request => ProbeRequest.codec
  | probedValue => ProbedValue.codec
  | event => ProbeEvent.codec
  | result => RunResult.codec
  | signal => ErrorSignal.codec
  | summary => VerdictSummary.codec
  | report => CandidateReport.codec

/-- All values are read back, and none is nested deeper than three levels. -/
theorem lawful_codec (t : Vocabulary) : t.codec.Lawful 3 := by
  cases t with
  | launch => exact Launch.lawful_codec.mono (by decide)
  | request => exact ProbeRequest.lawful_codec
  | probedValue => exact ProbedValue.lawful_codec.mono (by decide)
  | event => exact ProbeEvent.lawful_codec
  | result => exact RunResult.lawful_codec.mono (by decide)
  | signal => exact ErrorSignal.lawful_codec.mono (by decide)
  | summary => exact VerdictSummary.lawful_codec.mono (by decide)
  | report => exact CandidateReport.lawful_codec

end Vocabulary

/-- How lists of reports are written. -/
def CandidateReport.listCodec : Codec (List CandidateReport) := .list CandidateReport.codec

/-- **Decoding undoes encoding.** Every value of every type is read back from its compact text;
results and lists of reports are also read back from their texts on lines. So different values of a
type never have the same text. -/
theorem ofText_toText :
    (∀ (t : Vocabulary) (v : t.Value), t.codec.ofText (t.codec.toText v) = .ok v) ∧
      (∀ r : RunResult, RunResult.codec.ofText (RunResult.codec.encode r).onLines = .ok r) ∧
      (∀ rs : List CandidateReport, CandidateReport.listCodec.ofText
        (CandidateReport.listCodec.encode rs).onLines = .ok rs) ∧
      (∀ t : Vocabulary, Function.Injective t.codec.toText) ∧
      (Function.Injective fun r => (RunResult.codec.encode r).onLines) ∧
      Function.Injective fun rs => (CandidateReport.listCodec.encode rs).onLines := by
  have hcompact (t : Vocabulary) (v : t.Value) : t.codec.ofText (t.codec.toText v) = .ok v :=
    Codec.ofText_compact t.lawful_codec (by decide) v
  have hresult (r : RunResult) :
      RunResult.codec.ofText (RunResult.codec.encode r).onLines = .ok r :=
    Codec.ofText_onLines RunResult.lawful_codec (by decide) r
  have hreports (rs : List CandidateReport) : CandidateReport.listCodec.ofText
      (CandidateReport.listCodec.encode rs).onLines = .ok rs :=
    Codec.ofText_onLines (Codec.lawful_list CandidateReport.lawful_codec) (by decide) rs
  refine ⟨hcompact, hresult, hreports, ?_, ?_, ?_⟩
  · intro t
    exact Codec.injective_of_ofText (hcompact t)
  · exact Codec.injective_of_ofText hresult
  · exact Codec.injective_of_ofText hreports

end Postmortem
