import Postmortem.Judge.Cases
import Postmortem.Proofs.Collections.Table

/-!
# The cases of a split are its two lists, whole

The cases of a split are the pairs of its inputs and its expected outputs at equal places. Pairing
two lists ends with the shorter one, so there are cases only where both lists are there and have the
same length; then nothing of either is lost. No other list of a bundle has a say in the cases.
Main statement: `TestBundle.cases_whole`.

## Shape of the argument

`cases_eq_ok_iff` reads the two lists off the cases, and `cases_eq_error_iff` tells the reasons why
there are none. Both come from what pairing is when a list is missing and when both are there.
-/

namespace Postmortem

namespace TestSplit

/-- Splits have different names. -/
theorem name_inj {split split' : TestSplit} (h : split.name = split'.name) : split = split' := by
  revert h
  cases split <;> cases split' <;> decide

/-- No name of a split has an underscore. -/
theorem underscore_not_mem_name (split : TestSplit) : '_' ∉ split.name.toList := by
  cases split <;> decide

/-- The split and the side of a list can be read off its key. -/
theorem key_inj {split split' : TestSplit} {side side' : String}
    (h : split.name ++ "_" ++ side = split'.name ++ "_" ++ side') :
    split = split' ∧ side = side' := by
  -- the name is what stands before the first underscore
  have hname (s : TestSplit) (rest : String) :
      (s.name ++ "_" ++ rest).toList.takeWhile (· != '_') = s.name.toList := by
    rw [String.toList_append, String.toList_append, List.append_assoc,
      List.takeWhile_append_of_pos]
    · exact List.append_nil _
    · intro c hc
      have hne : c ≠ '_' := fun heq => s.underscore_not_mem_name (heq ▸ hc)
      simpa using hne
  have hsplit : split = split' := by
    apply name_inj
    rw [← String.toList_inj, ← hname split side, h, hname]
  refine ⟨hsplit, ?_⟩
  rw [hsplit, ← String.toList_inj, String.toList_append, String.toList_append (t := side')] at h
  exact String.toList_inj.mp (List.append_cancel_left h)

end TestSplit

namespace TestBundle

/-! ## Lists of a bundle -/

theorem group_eq_ok_iff {b : TestBundle} {key : String} {texts : List String} :
    b.group key = .ok texts ↔ b.get? key = some texts := by
  rw [group]
  cases b.get? key with
  | none => simp
  | some found => simp

theorem group_of_none {b : TestBundle} {key : String} (h : b.get? key = none) :
    b.group key = .error (.noEntry key) := by
  rw [group, h]

/-- A list of a bundle depends on its own key alone. -/
theorem group_congr {b b' : TestBundle} {key : String} (h : b.get? key = b'.get? key) :
    b.group key = b'.group key := by
  rw [group, group, h]

/-! ## Pairs -/

/-- The two sides of pairs, if neither list is longer than the other, are the lists themselves. -/
theorem sides_zipWith {inputs outputs : List String} (h : inputs.length = outputs.length) :
    (inputs.zipWith TestCase.mk outputs).map (·.input) = inputs ∧
      (inputs.zipWith TestCase.mk outputs).map (·.expected) = outputs := by
  rw [← List.map_uncurry_zip_eq_zipWith, List.map_map, List.map_map]
  exact ⟨List.map_fst_zip (Nat.le_of_eq h), List.map_snd_zip (Nat.le_of_eq h.symm)⟩

/-- Cases are the pairs of their two sides. -/
theorem zipWith_sides (cs : List TestCase) :
    (cs.map (·.input)).zipWith TestCase.mk (cs.map (·.expected)) = cs := by
  rw [List.zipWith_map, List.zipWith_self]
  exact List.map_id cs

/-! ## What pairing comes to -/

theorem cases_of_no_inputs {b : TestBundle} {split : TestSplit}
    (h : b.get? (split.name ++ "_input") = none) :
    b.cases split = .error (.noEntry (split.name ++ "_input")) := by
  rw [cases, group_of_none h]
  rfl

theorem cases_of_no_outputs {b : TestBundle} {split : TestSplit} {inputs : List String}
    (hinputs : b.get? (split.name ++ "_input") = some inputs)
    (h : b.get? (split.name ++ "_output") = none) :
    b.cases split = .error (.noEntry (split.name ++ "_output")) := by
  rw [cases, group_eq_ok_iff.mpr hinputs, group_of_none h]
  rfl

theorem cases_of_some {b : TestBundle} {split : TestSplit} {inputs outputs : List String}
    (hinputs : b.get? (split.name ++ "_input") = some inputs)
    (houtputs : b.get? (split.name ++ "_output") = some outputs) :
    b.cases split =
      if inputs.length = outputs.length then .ok (inputs.zipWith TestCase.mk outputs)
      else .error (.unequal split.name inputs.length outputs.length) := by
  rw [cases, group_eq_ok_iff.mpr hinputs, group_eq_ok_iff.mpr houtputs]
  show (if inputs.length != outputs.length then _ else _) = _
  by_cases hlength : inputs.length = outputs.length
  · rw [if_neg (by simpa using hlength), if_pos hlength]
  · rw [if_pos (by simpa using hlength), if_neg hlength]

/-- Why the lists of a split give no cases: the inputs are missing, or the expected outputs are, or
there are more of one than of the other. -/
inductive IsReason (b : TestBundle) (split : TestSplit) : CaseError → Prop where
  | noInputs (hinputs : b.get? (split.name ++ "_input") = none) :
    IsReason b split (.noEntry (split.name ++ "_input"))
  | noOutputs {inputs : List String} (hinputs : b.get? (split.name ++ "_input") = some inputs)
    (houtputs : b.get? (split.name ++ "_output") = none) :
    IsReason b split (.noEntry (split.name ++ "_output"))
  | unequal {inputs outputs : List String}
    (hinputs : b.get? (split.name ++ "_input") = some inputs)
    (houtputs : b.get? (split.name ++ "_output") = some outputs)
    (hlength : inputs.length ≠ outputs.length) :
    IsReason b split (.unequal split.name inputs.length outputs.length)

/-- All that pairing can come to: the pairs of two lists of one length, or a reason why there are
none. -/
theorem cases_outcome (b : TestBundle) (split : TestSplit) :
    (∃ inputs outputs, b.get? (split.name ++ "_input") = some inputs ∧
      b.get? (split.name ++ "_output") = some outputs ∧ inputs.length = outputs.length ∧
      b.cases split = .ok (inputs.zipWith TestCase.mk outputs)) ∨
    ∃ e, IsReason b split e ∧ b.cases split = .error e := by
  cases hinputs : b.get? (split.name ++ "_input") with
  | none => exact .inr ⟨_, .noInputs hinputs, cases_of_no_inputs hinputs⟩
  | some inputs =>
    cases houtputs : b.get? (split.name ++ "_output") with
    | none => exact .inr ⟨_, .noOutputs hinputs houtputs, cases_of_no_outputs hinputs houtputs⟩
    | some outputs =>
      have hpaired := cases_of_some hinputs houtputs
      by_cases hlength : inputs.length = outputs.length
      · rw [if_pos hlength] at hpaired
        exact .inl ⟨inputs, outputs, rfl, rfl, hlength, hpaired⟩
      · rw [if_neg hlength] at hpaired
        exact .inr ⟨_, .unequal hinputs houtputs hlength, hpaired⟩

/-- **The cases of a split are those whose two sides are its lists.** -/
theorem cases_eq_ok_iff {b : TestBundle} {split : TestSplit} {cs : List TestCase} :
    b.cases split = .ok cs ↔
      b.get? (split.name ++ "_input") = some (cs.map (·.input)) ∧
        b.get? (split.name ++ "_output") = some (cs.map (·.expected)) := by
  constructor
  · intro hok
    rcases cases_outcome b split with ⟨inputs, outputs, hinputs, houtputs, hlength, hpaired⟩ |
      ⟨e, -, herror⟩
    · rw [hpaired] at hok
      cases hok
      obtain ⟨hinput, hexpected⟩ := sides_zipWith hlength
      rw [hinput, hexpected]
      exact ⟨hinputs, houtputs⟩
    · rw [herror] at hok
      cases hok
  · rintro ⟨hinputs, houtputs⟩
    rw [cases_of_some hinputs houtputs, if_pos (by simp), zipWith_sides]

/-- There are no cases exactly for one of the reasons. -/
theorem cases_eq_error_iff {b : TestBundle} {split : TestSplit} {e : CaseError} :
    b.cases split = .error e ↔ IsReason b split e := by
  constructor
  · intro herror
    rcases cases_outcome b split with ⟨_, _, -, -, -, hpaired⟩ | ⟨e', hreason, herror'⟩
    · rw [hpaired] at herror
      cases herror
    · rw [herror'] at herror
      cases herror
      exact hreason
  · rintro (hinputs | ⟨hinputs, houtputs⟩ | ⟨hinputs, houtputs, hlength⟩)
    · exact cases_of_no_inputs hinputs
    · exact cases_of_no_outputs hinputs houtputs
    · rw [cases_of_some hinputs houtputs, if_neg hlength]

/-- There are cases exactly if both lists are there and have the same length. -/
theorem exists_cases_iff {b : TestBundle} {split : TestSplit} :
    (∃ cs, b.cases split = .ok cs) ↔
      ∃ inputs outputs, b.get? (split.name ++ "_input") = some inputs ∧
        b.get? (split.name ++ "_output") = some outputs ∧ inputs.length = outputs.length := by
  constructor
  · rintro ⟨cs, hok⟩
    obtain ⟨hinputs, houtputs⟩ := cases_eq_ok_iff.mp hok
    exact ⟨_, _, hinputs, houtputs, by rw [List.length_map, List.length_map]⟩
  · rintro ⟨inputs, outputs, hinputs, houtputs, hlength⟩
    exact ⟨_, by rw [cases_of_some hinputs houtputs, if_pos hlength]⟩

/-! ## Other lists -/

/-- What a split gives depends on its two lists alone. -/
theorem cases_congr {b b' : TestBundle} {split : TestSplit}
    (hinputs : b'.get? (split.name ++ "_input") = b.get? (split.name ++ "_input"))
    (houtputs : b'.get? (split.name ++ "_output") = b.get? (split.name ++ "_output")) :
    b'.cases split = b.cases split := by
  rw [cases, cases, group_congr hinputs, group_congr houtputs]

/-- A list of another split is no list of this one. -/
theorem get?_insert_other {split split' : TestSplit} (h : split' ≠ split) (b : TestBundle)
    (side' side : String) (texts : List String) :
    (b.insert (split'.name ++ "_" ++ side') texts).get? (split.name ++ "_" ++ side) =
      b.get? (split.name ++ "_" ++ side) :=
  Table.get?_insert_of_ne fun hkey => h (TestSplit.key_inj hkey).1.symm

/-- No list of another split changes what a split gives. -/
theorem cases_insert_other {split split' : TestSplit} (h : split' ≠ split) (b : TestBundle)
    (side : String) (texts : List String) :
    cases (b.insert (split'.name ++ "_" ++ side) texts) split = cases b split := by
  have hkey (side : String) : split.name ++ "_" ++ side = split.name ++ ("_" ++ side) :=
    String.append_assoc
  apply cases_congr
  · exact hkey "input" ▸ get?_insert_other h b side "input" texts
  · exact hkey "output" ▸ get?_insert_other h b side "output" texts

/-! ## Main statement -/

/-- **The cases of a split are its two lists, whole.** There are cases exactly if the inputs and the
expected outputs of the split are both in the bundle, as many of one as of the other. The inputs of
the cases are then the one list and their expected outputs the other, place by place and without
loss. Any bundle with the same two lists gives the same, in particular one with other lists for
other splits; and if there are no cases, the error tells which list is missing or how many texts
the two have. -/
theorem cases_whole (b : TestBundle) (split : TestSplit) :
    let inputKey := split.name ++ "_input"
    let outputKey := split.name ++ "_output"
    ((∃ cs, b.cases split = .ok cs) ↔
      ∃ inputs outputs, b.get? inputKey = some inputs ∧ b.get? outputKey = some outputs ∧
        inputs.length = outputs.length) ∧
    (∀ cs : List TestCase, b.cases split = .ok cs →
      ∃ inputs outputs, b.get? inputKey = some inputs ∧ b.get? outputKey = some outputs ∧
        (cs.map fun c => (c.input, c.expected)).unzip = (inputs, outputs) ∧
        ∀ i : Nat, cs[i]?.map (·.input) = inputs[i]? ∧
          cs[i]?.map (·.expected) = outputs[i]?) ∧
    (∀ b' : TestBundle, b'.get? inputKey = b.get? inputKey →
      b'.get? outputKey = b.get? outputKey → b'.cases split = b.cases split) ∧
    (∀ split' side texts, split' ≠ split →
      cases (b.insert (split'.name ++ "_" ++ side) texts) split = b.cases split) ∧
    ∀ e, b.cases split = .error e ↔ IsReason b split e := by
  intro inputKey outputKey
  refine ⟨exists_cases_iff, ?_, fun b' => cases_congr,
    fun split' side texts h => cases_insert_other h b side texts, fun e => cases_eq_error_iff⟩
  intro cs hok
  obtain ⟨hinputs, houtputs⟩ := cases_eq_ok_iff.mp hok
  refine ⟨_, _, hinputs, houtputs, ?_, fun i => ⟨?_, ?_⟩⟩
  · rw [List.unzip_eq_map, List.map_map, List.map_map]
    rfl
  · exact List.getElem?_map.symm
  · exact List.getElem?_map.symm

/-- Two public cases, of a bundle with a private input that has no expected output. They are the
same without the private input, and with private outputs, of which there is one too many. -/
theorem cases_whole_two :
    let b : TestBundle := .ofList [("public_input", ["1", "2"]), ("public_output", ["2", "4"]),
      ("private_input", ["3"])]
    b.cases .public = .ok [⟨"1", "2"⟩, ⟨"2", "4"⟩] ∧
      b.get? "public_input" = some ["1", "2"] ∧ b.get? "public_output" = some ["2", "4"] ∧
      cases (b.erase "private_input") .public = b.cases .public ∧
      cases (b.insert "private_output" ["6", "8"]) .public = b.cases .public ∧
      b.cases .private = .error (.noEntry "private_output") := by
  intro b
  obtain ⟨-, hwhole, hsame, hother, -⟩ := cases_whole b .public
  obtain ⟨-, -, -, -, hreason⟩ := cases_whole b .private
  have hok : b.cases .public = .ok [⟨"1", "2"⟩, ⟨"2", "4"⟩] := by rfl
  obtain ⟨inputs, outputs, hinputs, houtputs, hunzip, -⟩ := hwhole _ hok
  cases hunzip
  exact ⟨hok, hinputs, houtputs, hsame _ (by rfl) (by rfl),
    hother .private "output" _ (by decide),
    (hreason _).mpr (.noOutputs (show b.get? "private_input" = some ["3"] by rfl) (by rfl))⟩

end TestBundle

end Postmortem
