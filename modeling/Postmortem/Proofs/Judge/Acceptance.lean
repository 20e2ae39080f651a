import Postmortem.Proofs.Judge.Signal
import Postmortem.Proofs.Text.Blank
import Postmortem.Proofs.Text.Lossy

/-!
# What a program has to write to pass

A program that is judged outlives the limit, ends badly, or ends well; only then its output counts.
It is compared as a text, with U+FFFD in place of what cannot be read, and without blanks at its
ends. So bytes that are no text can pass for an expected output that has this character itself, and
for no other.
-/

namespace Postmortem

open Text.Utf8 (lossyString ofString)

namespace Verdict

variable {child : Child}

/-- A program that outlives the limit has a timeout. -/
theorem ofRun_of_outlived (h : child.ending = none) (expected : String) :
    ofRun child.run expected = timeout := by
  have hlate : child.run.timedOut = true := by rw [Child.run, h]; rfl
  rw [ofRun, if_pos hlate]

/-- One that ends is in time, and how it ends is its own doing. -/
theorem ofRun_of_ended {status : ExitStatus} (h : child.ending = some status) (expected : String) :
    ofRun child.run expected =
      if status = .code 0 then
        if Text.trimmed (lossyString child.stdout) = Text.trimmed expected then passed else failed
      else error := by
  have hearly : child.run.timedOut = false := by rw [Child.run, h]; rfl
  have hstatus : child.run.status = status := by rw [Child.run, h]; rfl
  have hsuccess : child.run.isSuccess = decide (status = .code 0) := by
    rw [CommandRun.isSuccess, hearly, hstatus, ExitStatus.isSuccess]
    rfl
  rw [ofRun, hearly, hsuccess]
  by_cases hwell : status = .code 0
  · rw [if_pos hwell, decide_eq_true hwell]
    simp [Child.run]
  · rw [if_neg hwell, decide_eq_false hwell]
    rfl

/-- When each verdict is given. -/
structure Given (child : Child) (expected : String) (v : Verdict) : Prop where
  timeout : v = timeout ↔ child.ending = none
  error : v = error ↔ ∃ status, child.ending = some status ∧ status ≠ .code 0
  passed : v = passed ↔ child.ending = some (.code 0) ∧
    Text.trimmed (lossyString child.stdout) = Text.trimmed expected
  failed : v = failed ↔ child.ending = some (.code 0) ∧
    Text.trimmed (lossyString child.stdout) ≠ Text.trimmed expected

/-- The verdict on a run is given exactly then. -/
theorem given_ofRun (child : Child) (expected : String) :
    Given child expected (ofRun child.run expected) := by
  cases hending : child.ending with
  | none =>
    rw [ofRun_of_outlived hending]
    constructor <;> simp [hending]
  | some status =>
    rw [ofRun_of_ended hending]
    by_cases hwell : status = .code 0
    · by_cases hsame : Text.trimmed (lossyString child.stdout) = Text.trimmed expected <;>
        constructor <;> simp [hending, hwell, hsame]
    · constructor <;> simp [hending, hwell]

end Verdict

/-- Bytes whose text is expected, blanks at the ends aside, are the text itself, unless U+FFFD is
expected. -/
theorem ofString_lossyString_of_trimmed {bytes : List UInt8} {expected : String}
    (hsame : Text.trimmed (lossyString bytes) = Text.trimmed expected)
    (hexpected : '\ufffd' ∉ expected.toList) : ofString (lossyString bytes) = bytes := by
  apply Text.Utf8.ofString_lossyString
  intro hmem
  have htrim : '\ufffd' ∈ Text.trim (lossyString bytes).toList := Text.mem_trim hmem (by decide)
  rw [String.ofList_injective hsame] at htrim
  exact hexpected ((Text.isInfix_trim _).subset htrim)

/-- What passes, told from the bytes that a program wrote: if they are a text, this text has to be
the expected one, blanks at the ends aside, and where no U+FFFD is expected they have to be one. -/
structure Verdict.Accepts (child : Child) (expected : String) (v : Verdict) : Prop where
  of_text : ∀ text, child.stdout = ofString text →
    (v = .passed ↔ child.ending = some (.code 0) ∧ Text.trimmed text = Text.trimmed expected)
  of_bytes : '\ufffd' ∉ expected.toList →
    (v = .passed ↔ child.ending = some (.code 0) ∧
      ∃ text, child.stdout = ofString text ∧ Text.trimmed text = Text.trimmed expected)

theorem Verdict.accepts_ofRun (child : Child) (expected : String) :
    Accepts child expected (ofRun child.run expected) where
  of_text text htext := by
    rw [(given_ofRun child expected).passed, htext, Text.Utf8.lossyString_ofString]
  of_bytes hexpected := by
    rw [(given_ofRun child expected).passed]
    constructor
    · rintro ⟨hending, hsame⟩
      have hbytes := ofString_lossyString_of_trimmed hsame hexpected
      exact ⟨hending, _, hbytes.symm, hsame⟩
    · rintro ⟨hending, text, htext, hsame⟩
      rw [htext, Text.Utf8.lossyString_ofString]
      exact ⟨hending, hsame⟩

/-- **Only the expected output passes.** Where the interpreter can be started in the directory of a
program, the program has a timeout if it outlives the limit, an error if it ends badly, and
otherwise it passes exactly if the text of its output, with U+FFFD in place of what cannot be read,
is the expected one, blanks at the ends aside. Output that is a text is thus judged by this text;
and where no U+FFFD is expected, output that is no text does not pass. Where the interpreter cannot
be started, there is no verdict. -/
theorem judgeCase_accepts (h : Host) (program : String) (c : TestCase) (o : SignalOptions) :
    let started := h.spawn o.python [program] (Path.parent? program) (judgeInvocation h program c)
    (∀ i child, started = .ok (i, child) →
      ∃ j, judgeCase h program c o = .ok (j, i) ∧
        i.role = .judge ∧ i.stdin = c.input ∧ child = h.behaviour i ∧
        h.start o.python (Path.parent? program) = .ok i.directory ∧
        j.verdict.Given child c.expected ∧ j.verdict.Accepts child c.expected) ∧
    ∀ e, started = .error e → judgeCase h program c o = .error e := by
  intro started
  refine ⟨fun i child hspawn => ?_, fun e => judgeCase_of_unstarted⟩
  obtain ⟨-, place, hstart, hi, -, hchild⟩ := Host.spawn_eq_ok_iff.mp hspawn
  refine ⟨_, judgeCase_of_spawn hspawn, ?_, ?_, hchild, ?_, Verdict.given_ofRun _ _,
    Verdict.accepts_ofRun _ _⟩
  · rw [hi]
    rfl
  · rw [hi]
    rfl
  · rw [hi]
    exact hstart

/-- Blanks at the ends of the output do not keep a program from passing. It is run in the directory
that its path names; one without a directory in its path is not run at all. -/
theorem judgeCase_accepts_blank_ends :
    let h : Host :=
      { files := FileStore.empty.addDirectory ["a"], directory := [], stdin := ""
        interpreter := "python3", behaviour := fun _ => { stdout := ofString "é\n" } }
    let c : TestCase := ⟨"1", " é"⟩
    let o : SignalOptions := {}
    '\ufffd' ∉ c.expected.toList ∧
      (∃ j i, judgeCase h "a/solution.py" c o = .ok (j, i) ∧ i.directory = "/a" ∧
        j.verdict = .passed) ∧
      judgeCase h "solution.py" c o = .error (.file .notFound) := by
  have hplace : Host.start ⟨FileStore.empty.addDirectory ["a"], [], "", "python3", fun _ => {},
      fun _ => none⟩ "python3" (Path.parent? "a/solution.py") = .ok "/a" := by rfl
  have hnowhere : Host.start ⟨FileStore.empty.addDirectory ["a"], [], "", "python3", fun _ => {},
      fun _ => none⟩ "python3" (Path.parent? "solution.py") = .error (.file .notFound) := by rfl
  intro h c o
  have hstart : h.start o.python (Path.parent? "a/solution.py") = .ok "/a" := by
    refine (Host.start_congr ?_ ?_ ?_ _ _).trans hplace <;> rfl
  have hunstarted : h.start o.python (Path.parent? "solution.py") = .error (.file .notFound) := by
    refine (Host.start_congr ?_ ?_ ?_ _ _).trans hnowhere <;> rfl
  have hexpected : '\ufffd' ∉ c.expected.toList := by decide
  refine ⟨hexpected, ?_, ?_⟩
  · let i := judgeInvocation h "a/solution.py" c "/a"
    have hspawn : h.spawn o.python ["a/solution.py"] (Path.parent? "a/solution.py")
        (judgeInvocation h "a/solution.py" c) = .ok (i, h.behaviour i) :=
      Host.spawn_eq_ok_iff.mpr ⟨by decide, "/a", hstart, rfl, rfl, rfl⟩
    obtain ⟨j, hjudge, -, -, -, -, -, haccepts⟩ :=
      (judgeCase_accepts h "a/solution.py" c o).1 _ _ hspawn
    exact ⟨j, i, hjudge, rfl, (haccepts.of_bytes hexpected).mpr ⟨rfl, "é\n", rfl, by decide⟩⟩
  · apply (judgeCase_accepts h "solution.py" c o).2
    rw [Host.spawn, hunstarted]
    rfl

/-- A byte that is no text passes where U+FFFD is expected. -/
theorem judgeCase_passes_undecodable :
    let h : Host :=
      { files := .empty, directory := [], stdin := "", interpreter := "python3"
        behaviour := fun _ => { stdout := [0xff] } }
    ∃ j i, judgeCase h "/solution.py" ⟨"", "\ufffd"⟩ {} = .ok (j, i) ∧ j.verdict = .passed ∧
      ∀ text, (h.behaviour i).stdout ≠ ofString text := by
  intro h
  refine ⟨⟨.passed, ""⟩, ⟨.judge, "", "/", ""⟩, by decide +kernel, rfl, fun text htext => ?_⟩
  have htext' : text = lossyString [0xff] := by
    rw [show ([0xff] : List UInt8) = ofString text from htext, Text.Utf8.lossyString_ofString]
  rw [htext'] at htext
  exact absurd htext (by decide)

end Postmortem
