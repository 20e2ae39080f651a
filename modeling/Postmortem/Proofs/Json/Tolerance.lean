import Postmortem.Proofs.Json.Tagged
import Postmortem.Proofs.Json.Vocabulary

/-!
# Tolerant reading

What is read of the interchange format depends on the fields and tags of records alone, wherever
they stand: their order makes no difference, members of other names are skipped, and what holds
nothing may be left out. A field that is there twice is not tolerated.

## Ill-placed values

A value with a repeated field is rejected as one of another shape, unless something ill-placed comes
first: the reader of a choice, for one, expects nothing but a text or an object, so that a number
there is no value to it at all.
-/

namespace Postmortem

open Json (Codec Fields Kind KeyCodec Schema Within Written)

/-! ## Texts of codecs that follow a schema -/

namespace Json.Codec

variable {α : Type} {c : Codec α} {t : Schema} {levels : Nat} {j : Json} {cs : List Char}

/-- Reading a text of a value is decoding its draft. -/
theorem ofChars_of_written (c : Codec α) (hw : Written (.value j) cs) :
    c.ofChars cs = c.decode (.direct maxDepth) j.draft := by
  have hread := readDocument_written hw gap_nil
  rw [List.append_nil] at hread
  rw [ofChars, hread]
  cases c.decode (.direct maxDepth) j.draft <;> rfl

/-- A rearranged value is read as what it was. -/
theorem ofChars_rearranged (h : c.Follows t) (hlevels : levels < maxDepth)
    (hwithin : Within levels j) (hw : Written (.value j) cs) {v : α}
    (hj : t.Rearranged (c.encode v) j) : c.ofChars cs = .ok v := by
  have hs : Setting.Admits levels (.direct maxDepth) := hlevels
  rw [ofChars_of_written c hw]
  exact h.decode_rearranged hs hwithin hj

/-- Nothing is read where a field is repeated. -/
theorem ofChars_ne_ok (h : c.Follows t) (hlevels : levels < maxDepth) (hwithin : Within levels j)
    (hw : Written (.value j) cs) (hj : t.Repeats j) (v : α) : c.ofChars cs ≠ .ok v := by
  have hs : Setting.Admits levels (.direct maxDepth) := hlevels
  rw [ofChars_of_written c hw]
  exact fun hread => h.not_repeats hs hwithin hread hj

/-- Unless something is ill-placed, the value is a mismatch. -/
theorem ofChars_eq_mismatch (h : c.Follows t) (hlevels : levels < maxDepth)
    (hwithin : Within levels j) (hw : Written (.value j) cs) (hj : t.Repeats j)
    (hplaced : ¬ t.IllPlaced false j) : c.ofChars cs = .error .mismatch := by
  have hs : Setting.Admits levels (.direct maxDepth) := hlevels
  have hanswer : IsAnswer (c.ofChars cs) := by
    rw [ofChars_of_written c hw]
    exact h.isAnswer hs hwithin hplaced
  exact hanswer.eq_mismatch (ofChars_ne_ok h hlevels hwithin hw hj)

/-- A text that may be missing is a single value. -/
theorem follows_optional_text : (Codec.optional .text).Follows (.optional .plain) :=
  follows_optional lawful_optional_text follows_text fun _ h => by cases h

end Json.Codec

/-! ## Requests -/

/-- The structure of launches. -/
def Launch.schema : Schema :=
  .tagged "mode" [("entry_point", [("name", .plain)]), ("script", [])]

/-- Launches follow their schema. -/
theorem Launch.follows_schema : codec.Follows schema := by
  apply Codec.follows_tagged
  · refine .cons (Kind.follows_record ?_ ?_) (by decide) <|
      .cons (Kind.follows_unit ?_) List.not_mem_nil .nil
    · exact Fields.follow_field Codec.follows_text List.not_mem_nil .nil
    · intro l htag
      cases l with
      | entryPoint name => exact ⟨(name, ()), rfl, rfl⟩
      | script => exact absurd htag (show "script" ≠ "entry_point" by decide)
    · intro l htag
      cases l with
      | entryPoint name => exact absurd htag (show "entry_point" ≠ "script" by decide)
      | script => rfl
  · decide

/-- The structure of requests. -/
def ProbeRequest.schema : Schema :=
  .record [("module", .plain), ("script", .plain), ("basename", .plain),
    ("launch", Launch.schema), ("args", .list .plain), ("suppress_stdout", .plain),
    ("lines", .table true (.list .plain))]

/-- Requests follow their schema. -/
theorem ProbeRequest.follows_schema : codec.Follows schema := by
  have htexts := Codec.follows_list Codec.follows_text
  have hlines := Codec.follows_table KeyCodec.follows_word htexts
  refine Codec.follows_record ?_ fun _ => rfl
  apply Fields.follow_field Codec.follows_text (by decide)
  apply Fields.follow_field Codec.follows_text (by decide)
  apply Fields.follow_field Codec.follows_text (by decide)
  apply Fields.follow_field Launch.follows_schema (by decide)
  apply Fields.follow_field htexts (by decide)
  apply Fields.follow_field Codec.follows_flag (by decide)
  exact Fields.follow_field hlines List.not_mem_nil .nil

/-! ## Messages -/

/-- The structure of probed values. -/
def ProbedValue.schema : Schema := .record [("kind", .choice), ("text", .optional .plain)]

/-- Probed values follow their schema. -/
theorem ProbedValue.follows_schema : codec.Follows schema := by
  refine Codec.follows_record ?_ fun _ => rfl
  apply Fields.follow_field (Codec.follows_choice ValueKind.lawful_codec) (by decide)
  refine .cons Codec.follows_optional_text ?_ List.not_mem_nil .nil
  intro v hwritten
  cases hwritten

/-- The structure of messages. -/
def ProbeEvent.schema : Schema :=
  .tagged "event" [("line", [("line", .plain), ("values", .table false ProbedValue.schema)]),
    ("exit", [("has_error", .plain), ("traceback", .plain)])]

/-- Messages follow their schema. -/
theorem ProbeEvent.follows_schema : codec.Follows schema := by
  have hvalues := Codec.follows_table KeyCodec.follows_text ProbedValue.follows_schema
  apply Codec.follows_tagged
  · refine .cons (Kind.follows_record ?_ ?_) (by decide) <|
      .cons (Kind.follows_record ?_ ?_) List.not_mem_nil .nil
    · apply Fields.follow_field Codec.follows_word (by decide)
      exact Fields.follow_field hvalues List.not_mem_nil .nil
    · intro e htag
      cases e with
      | line number values => exact ⟨(number, values, ()), rfl, rfl⟩
      | exit report => exact absurd htag (show "exit" ≠ "line" by decide)
    · apply Fields.follow_field Codec.follows_flag (by decide)
      exact Fields.follow_field Codec.follows_text List.not_mem_nil .nil
    · intro e htag
      cases e with
      | line number values => exact absurd htag (show "line" ≠ "exit" by decide)
      | exit report => exact ⟨(report.hasError, report.traceback, ()), rfl, rfl⟩
  · decide

/-! ## Results -/

/-- The structure of results. -/
def RunResult.schema : Schema :=
  .record [("has_error", .plain), ("traceback", .plain), ("trace", .plain)]

/-- Results follow their schema. -/
theorem RunResult.follows_schema : codec.Follows schema := by
  refine Codec.follows_record ?_ fun _ => rfl
  apply Fields.follow_field Codec.follows_flag (by decide)
  apply Fields.follow_field Codec.follows_text (by decide)
  exact Fields.follow_field Codec.follows_text List.not_mem_nil .nil

/-! ## Judgements -/

/-- The structure of signals. -/
def ErrorSignal.schema : Schema :=
  .record [("case_index", .plain), ("verdict", .choice), ("compiler_error", .optional .plain),
    ("stderr", .plain), ("timeout_flag", .plain), ("traceback", .optional .plain),
    ("variable_trace", .optional .plain)]

/-- Signals follow their schema. -/
theorem ErrorSignal.follows_schema : codec.Follows schema := by
  have htext := Codec.follows_optional_text
  refine Codec.follows_record ?_ fun _ => rfl
  apply Fields.follow_field Codec.follows_word (by decide)
  apply Fields.follow_field (Codec.follows_choice Verdict.lawful_codec) (by decide)
  apply Fields.follow_field htext (by decide)
  apply Fields.follow_field Codec.follows_text (by decide)
  apply Fields.follow_field Codec.follows_flag (by decide)
  apply Fields.follow_field htext (by decide)
  exact Fields.follow_field htext List.not_mem_nil .nil

/-- The structure of summaries. -/
def VerdictSummary.schema : Schema :=
  .record [("test_cases", .plain), ("passed", .plain), ("failed", .plain), ("timeouts", .plain),
    ("errors", .plain)]

/-- Summaries follow their schema. -/
theorem VerdictSummary.follows_schema : codec.Follows schema := by
  have hword := Codec.follows_word
  refine Codec.follows_record ?_ fun _ => rfl
  apply Fields.follow_field hword (by decide)
  apply Fields.follow_field hword (by decide)
  apply Fields.follow_field hword (by decide)
  apply Fields.follow_field hword (by decide)
  exact Fields.follow_field hword List.not_mem_nil .nil

/-- The structure of reports. -/
def CandidateReport.schema : Schema :=
  .record [("code", .plain), ("summary", VerdictSummary.schema),
    ("signals", .list ErrorSignal.schema), ("error", .optional .plain)]

/-- Reports follow their schema. -/
theorem CandidateReport.follows_schema : codec.Follows schema := by
  have hsignals := Codec.follows_list ErrorSignal.follows_schema
  refine Codec.follows_record ?_ fun _ => rfl
  apply Fields.follow_field Codec.follows_text (by decide)
  apply Fields.follow_field VerdictSummary.follows_schema (by decide)
  apply Fields.follow_field hsignals (by decide)
  refine .cons Codec.follows_optional_text ?_ List.not_mem_nil .nil
  intro error hwritten
  cases error with
  | none => rfl
  | some said => cases hwritten

/-! ## All of it -/

namespace Vocabulary

/-- The structure of the values of a type. -/
def schema : Vocabulary → Schema
  | launch => Launch.schema
  | request => ProbeRequest.schema
  | probedValue => ProbedValue.schema
  | event => ProbeEvent.schema
  | result => RunResult.schema
  | signal => ErrorSignal.schema
  | summary => VerdictSummary.schema
  | report => CandidateReport.schema

/-- All types follow their schemas. -/
theorem follows_schema (t : Vocabulary) : t.codec.Follows t.schema := by
  cases t with
  | launch => exact Launch.follows_schema
  | request => exact ProbeRequest.follows_schema
  | probedValue => exact ProbedValue.follows_schema
  | event => exact ProbeEvent.follows_schema
  | result => exact RunResult.follows_schema
  | signal => exact ErrorSignal.follows_schema
  | summary => exact VerdictSummary.follows_schema
  | report => exact CandidateReport.follows_schema

/-- **Reading depends on structure alone.** However the records within a value are rearranged, and
whatever is added under other names, the value is read back. Where a field or a tag is repeated
nothing is read; the value is then a mismatch, unless something in it is ill-placed. -/
theorem ofChars_structure :
    (∀ (t : Vocabulary) (v : t.Value) (j : Json) (cs : List Char),
      t.schema.Rearranged (t.codec.encode v) j → Within (Codec.maxDepth - 1) j →
      Written (.value j) cs → t.codec.ofChars cs = .ok v) ∧
    ∀ (t : Vocabulary) (j : Json) (cs : List Char), t.schema.Repeats j →
      Within (Codec.maxDepth - 1) j → Written (.value j) cs →
      (∀ v, t.codec.ofChars cs ≠ .ok v) ∧
        (¬ t.schema.IllPlaced false j → t.codec.ofChars cs = .error .mismatch) := by
  have hlevels : Codec.maxDepth - 1 < Codec.maxDepth := by decide
  refine ⟨?_, ?_⟩
  · intro t v j cs hj hwithin hw
    exact Codec.ofChars_rearranged t.follows_schema hlevels hwithin hw hj
  · intro t j cs hj hwithin hw
    refine ⟨Codec.ofChars_ne_ok t.follows_schema hlevels hwithin hw hj, ?_⟩
    exact Codec.ofChars_eq_mismatch t.follows_schema hlevels hwithin hw hj

/-- A message is read with its members in the opposite order, the tag last, and another one before
them. A value with two kinds is a mismatch. -/
theorem ofChars_structure_exit :
    ProbeEvent.codec.ofChars (Json.object [("note", .list [.null]), ("traceback", .text ""),
        ("has_error", .flag true), ("event", .text "exit")]).chars = .ok (.exit ⟨true, ""⟩) ∧
      ProbedValue.codec.ofChars (Json.object [("kind", .text "data"), ("kind", .null)]).chars =
        .error .mismatch := by
  refine ⟨?_, ?_⟩
  · have hkept : Json.Schema.Kept [("has_error", .plain), ("traceback", .plain)]
        [("has_error", .flag true), ("traceback", .text "")]
        [("has_error", .flag true), ("traceback", .text "")] :=
      .keep (by simp) (.plain _) (.keep (by simp) (.plain _) .nil)
    have hothers : ∀ m ∈ [("note", Json.list [.null])],
        m.1 ≠ "event" ∧ m.1 ∉ ["has_error", "traceback"] := by simp
    have hmembers : List.Perm [("note", .list [.null]), ("traceback", .text ""),
        ("has_error", .flag true), ("event", .text "exit")] [("event", Json.text "exit"),
        ("has_error", .flag true), ("traceback", .text ""), ("note", .list [.null])] :=
      List.reverse_perm [_, _, _, _]
    refine ofChars_structure.1 .event (.exit ⟨true, ""⟩) _ _ (.tagged ?_ hkept hothers hmembers) ?_
      (Json.written_chars _)
    · exact List.mem_cons_of_mem _ List.mem_cons_self
    · refine .object ?_
      rintro m (_ | ⟨_, _ | ⟨_, _ | ⟨_, _ | ⟨_, ⟨⟩⟩⟩⟩⟩)
      · exact .list (by simp [Within.null])
      · exact .text ""
      · exact .flag true
      · exact .text "exit"
  · refine (ofChars_structure.2 .probedValue _ _ (.field List.mem_cons_self (by decide)) ?_
      (Json.written_chars _)).2 ?_
    · refine .object ?_
      rintro m (_ | ⟨_, _ | ⟨_, ⟨⟩⟩⟩)
      · exact .text "data"
      · exact .null
    · intro hill
      cases hill with
      | field hfield hfirst hvalue =>
        rcases hfield with _ | ⟨_, _ | ⟨_, ⟨⟩⟩⟩
        · cases hfirst
          cases hvalue with
          | choice htext => exact htext _ rfl
        · cases hfirst

/-- Not every repeated field is a mismatch: what stands in front of the kind of a value may be
nothing that the reader of a kind would look at. -/
theorem not_forall_repeated_eq_mismatch :
    ¬ ∀ (t : Vocabulary) (v : t.Value) (ms : List (String × Json)) (m : String × Json),
      t.codec.encode v = .object ms → m.1 ∈ ms.map (·.1) → Within (Codec.maxDepth - 2) m.2 →
      t.codec.ofChars (Json.object (m :: ms)).chars = .error .mismatch := by
  intro h
  have hmismatch := h .probedValue ⟨.data, none⟩ _ ("kind", .list [.text "data"]) rfl
    List.mem_cons_self (.list (by simp [Within.text]))
  have hmalformed : ProbedValue.codec.ofChars (Json.object [("kind", .list [.text "data"]),
      ("kind", .text "data"), ("text", .null)]).chars = .error .malformed := by
    rw [Codec.ofChars_of_written _ (Json.written_chars _)]
    rfl
  cases hmalformed.symm.trans hmismatch

end Vocabulary

end Postmortem
