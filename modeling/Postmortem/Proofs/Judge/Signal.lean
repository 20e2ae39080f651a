import Postmortem.Judge.Signal
import Postmortem.Proofs.Run.Host
import Postmortem.Proofs.Text.Tail

/-!
# Each case has a signal of its own

The signals of a program are collected case by case, and what is said of a case depends on that case
alone. So the signals of two lists of cases, one after the other, are those of the first and then
those of the second, counted on. If the interpreter can be started there is one signal for each
case, and it tells of the judged run on that case and, if the program failed, of a traced run on it.

## Shape of the argument

`signalsFrom` goes through the cases in order and counts. Counting on changes nothing but the
numbers, which takes an induction on the cases, and so does taking a list of cases apart.
-/

namespace Postmortem

open Line (Parser)

/-! ## Taking cases one by one -/

/-- The signal of a case that comes so many places later. -/
def ErrorSignal.shift (s : ErrorSignal) (n : Nat) : ErrorSignal :=
  { s with caseIndex := s.caseIndex + UInt64.ofNat n }

section Cases

variable (parse : Parser) (h : Host) (compilerError : Option String) (o : SignalOptions)

/-- A case more has a signal more. -/
theorem signalsFrom_cons_iff {index : Nat} {c : TestCase} {cs : List TestCase}
    {ss : List ErrorSignal} :
    signalsFrom parse h compilerError o index (c :: cs) = .ok ss ↔
      ∃ s ss', signalFor parse h compilerError o index c = .ok s ∧
        signalsFrom parse h compilerError o (index + 1) cs = .ok ss' ∧ ss = s :: ss' := by
  rw [signalsFrom]
  constructor
  · intro hok
    cases hs : signalFor parse h compilerError o index c with
    | error e =>
      rw [hs] at hok
      cases hok
    | ok s =>
      cases hss : signalsFrom parse h compilerError o (index + 1) cs with
      | error e =>
        rw [hs, hss] at hok
        cases hok
      | ok ss' =>
        rw [hs, hss] at hok
        cases hok
        exact ⟨s, ss', rfl, rfl, rfl⟩
  · rintro ⟨s, ss', hs, hss, rfl⟩
    rw [hs, hss]
    rfl

/-- If signals are collected, each case has one, in its place. -/
theorem signal_of_signalsFrom {index : Nat} {cs : List TestCase} {ss : List ErrorSignal}
    (hok : signalsFrom parse h compilerError o index cs = .ok ss) :
    ss.length = cs.length ∧ ∀ (i : Nat) (c : TestCase), cs[i]? = some c →
      ∃ s, ss[i]? = some s ∧ signalFor parse h compilerError o (index + i) c = .ok s := by
  induction cs generalizing index ss with
  | nil =>
    cases hok
    refine ⟨rfl, fun i c hc => ?_⟩
    cases hc
  | cons c cs ih =>
    obtain ⟨s, ss', hs, hss, rfl⟩ := (signalsFrom_cons_iff parse h compilerError o).mp hok
    obtain ⟨hlength, hrest⟩ := ih hss
    refine ⟨by rw [List.length_cons, List.length_cons, hlength], fun i c' hc' => ?_⟩
    cases i with
    | zero =>
      cases hc'
      exact ⟨s, rfl, hs⟩
    | succ i =>
      rw [List.getElem?_cons_succ] at hc'
      obtain ⟨s', hs', hsignal⟩ := hrest i c' hc'
      refine ⟨s', hs', ?_⟩
      rw [← Nat.add_assoc, Nat.add_right_comm]
      exact hsignal

/-- If each case has a signal, they are collected. -/
theorem exists_signalsFrom {cs : List TestCase}
    (hall : ∀ index, ∀ c ∈ cs, ∃ s, signalFor parse h compilerError o index c = .ok s)
    (index : Nat) : ∃ ss, signalsFrom parse h compilerError o index cs = .ok ss := by
  induction cs generalizing index with
  | nil => exact ⟨[], rfl⟩
  | cons c cs ih =>
    obtain ⟨s, hs⟩ := hall index c List.mem_cons_self
    obtain ⟨ss, hss⟩ := ih (fun index c hc => hall index c (List.mem_cons_of_mem _ hc)) (index + 1)
    exact ⟨s :: ss, (signalsFrom_cons_iff parse h compilerError o).mpr ⟨s, ss, hs, hss, rfl⟩⟩

end Cases

/-! ## The place of a program -/

/-- What a judged program is started for, in its place. -/
def judgedInvocation (source : String) (c : TestCase) : Invocation :=
  { role := .judge, source, directory := "/candidate", stdin := c.input }

/-- Whether the interpreter can be started to judge a program on a case. -/
def Host.CanJudge (h : Host) (source : String) (o : SignalOptions) (c : TestCase) : Prop :=
  ∃ started, (h.withCandidate source).spawn o.python [candidatePath] (Path.parent? candidatePath)
    (judgeInvocation (h.withCandidate source) candidatePath c) = .ok started

/-- A process that is started in the directory of a program runs there, and finds the program. -/
theorem judgeInvocation_candidate {h : Host} {source python place : String} (c : TestCase)
    (hstart : (h.withCandidate source).start python (Path.parent? candidatePath) = .ok place) :
    judgeInvocation (h.withCandidate source) candidatePath c place = judgedInvocation source c := by
  have hparent : Path.parent? candidatePath = some "/candidate" := rfl
  rw [hparent] at hstart
  obtain ⟨parts, hfind, rfl⟩ := Host.find_of_start hstart
  -- the way to the directory is the beginning of the way to the program
  obtain ⟨hlocate, hdirectory⟩ := FileStore.find_eq_ok_iff.mp hfind
  obtain ⟨-, -, hwalk⟩ := FileStore.locate_eq_ok_iff.mp hlocate
  change (h.withCandidate source).files.walk [] ["", "candidate"] = .ok parts at hwalk
  obtain ⟨hroot, hwalk⟩ := FileStore.walk_cons_iff.mp hwalk
  obtain ⟨-, hwalk⟩ := FileStore.walk_cons_iff.mp hwalk
  cases hwalk
  have hfile : (h.withCandidate source).files.find ["candidate"] candidatePath =
      .ok (["solution.py", "candidate"], .file (Text.Utf8.ofString source)) := by
    refine FileStore.find_eq_ok_iff.mpr ⟨FileStore.locate_eq_ok_iff.mpr ⟨rfl, rfl, ?_⟩, ?_⟩
    · show (h.withCandidate source).files.walk [] ["", "candidate", "solution.py"] = .ok _
      refine FileStore.walk_cons_iff.mpr ⟨hroot, FileStore.walk_cons_iff.mpr ⟨hroot, ?_⟩⟩
      exact FileStore.walk_cons_iff.mpr ⟨hdirectory, rfl⟩
    · exact (FileStore.node?_insert _ _ _ _).trans (if_pos rfl)
  rw [judgeInvocation, hparent,
    Host.textWithin_of_find hfind (FileStore.readText_of_find hfile)]
  rfl

/-- A program can be judged on a case exactly if the interpreter can be started in its directory and
the system does not refuse a process. -/
theorem Host.canJudge_iff {h : Host} {source : String} {o : SignalOptions} {c : TestCase} :
    h.CanJudge source o c ↔
      (∃ place, (h.withCandidate source).start o.python (Path.parent? candidatePath) = .ok place) ∧
        h.refusal (judgedInvocation source c) = none := by
  constructor
  · rintro ⟨⟨i, child⟩, hspawn⟩
    obtain ⟨-, place, hstart, rfl, hrefusal, -⟩ := Host.spawn_eq_ok_iff.mp hspawn
    rw [judgeInvocation_candidate c hstart] at hrefusal
    exact ⟨⟨place, hstart⟩, hrefusal⟩
  · rintro ⟨⟨place, hstart⟩, hrefusal⟩
    refine ⟨_, Host.spawn_eq_ok_iff.mpr ⟨by decide, place, hstart, rfl, ?_, rfl⟩⟩
    rw [judgeInvocation_candidate c hstart]
    exact hrefusal

/-- It is then run in its place. -/
theorem Host.CanJudge.spec {h : Host} {source : String} {o : SignalOptions} {c : TestCase}
    (hjudge : h.CanJudge source o c) :
    (h.withCandidate source).spawn o.python [candidatePath] (Path.parent? candidatePath)
      (judgeInvocation (h.withCandidate source) candidatePath c) =
        .ok (judgedInvocation source c, h.behaviour (judgedInvocation source c)) := by
  obtain ⟨⟨place, hstart⟩, hrefusal⟩ := Host.canJudge_iff.mp hjudge
  exact Host.spawn_eq_ok_iff.mpr
    ⟨by decide, place, hstart, (judgeInvocation_candidate c hstart).symm, hrefusal, rfl⟩

/-! ## The runs of a case -/

/-- The run of a program on a case, as a judge makes it. -/
def judgedRun (h : Host) (source : String) (c : TestCase) : CommandRun :=
  (h.behaviour (judgedInvocation source c)).run

/-- The result of tracing a program on a case, as a script. -/
def tracedResult (parse : Parser) (h : Host) (source : String) (o : SignalOptions)
    (c : TestCase) : RunResult :=
  (traceScript parse (h.withCandidate source) candidatePath
    { python := o.python, maxChars := o.maxChars, timeout := some o.judgeTimeout
      launch := .script, input := .text c.input }).result

/-- What a signal tells of a case: the verdict on the judged run and the end of its error output,
and the traced run of the same input exactly if the verdict is a failure or an error. -/
structure ErrorSignal.Tells (parse : Parser) (h : Host) (source : String) (o : SignalOptions)
    (c : TestCase) (s : ErrorSignal) : Prop where
  verdict : s.verdict = .ofRun (judgedRun h source c) c.expected
  stderr_suffix : s.stderr.toList <:+ (judgedRun h source c).stderr.toList
  length_stderr : s.stderr.toList.length = min 8000 (judgedRun h source c).stderr.toList.length
  timeoutFlag : s.timeoutFlag = true ↔ s.verdict = .timeout
  traced : s.verdict = .failed ∨ s.verdict = .error →
    s.traceback = some (tracedResult parse h source o c).traceback ∧
      s.variableTrace = some (tracedResult parse h source o c).trace
  untraced : ¬ (s.verdict = .failed ∨ s.verdict = .error) →
    s.traceback = none ∧ s.variableTrace = none

/-- A case is judged by the run of the process that is started for it. -/
theorem judgeCase_of_spawn {h : Host} {program : String} {c : TestCase} {o : SignalOptions}
    {i : Invocation} {child : Child}
    (hspawn : h.spawn o.python [program] (Path.parent? program) (judgeInvocation h program c) =
      .ok (i, child)) :
    judgeCase h program c o =
      .ok (⟨.ofRun child.run c.expected, Text.tail child.run.stderr maxErrorOutput⟩, i) := by
  rw [judgeCase, hspawn]
  rfl

/-- A case for which none can be started is not judged. -/
theorem judgeCase_of_unstarted {h : Host} {program : String} {c : TestCase} {o : SignalOptions}
    {e : StartError}
    (hspawn : h.spawn o.python [program] (Path.parent? program) (judgeInvocation h program c) =
      .error e) :
    judgeCase h program c o = .error e := by
  rw [judgeCase, hspawn]
  rfl

/-- A case is judged by a run of the program on its input. -/
theorem judgeCase_eq {h : Host} {source : String} {o : SignalOptions} {c : TestCase}
    (hjudge : h.CanJudge source o c) :
    judgeCase (h.withCandidate source) candidatePath c o =
      .ok (⟨.ofRun (judgedRun h source c) c.expected,
        Text.tail (judgedRun h source c).stderr maxErrorOutput⟩, judgedInvocation source c) :=
  judgeCase_of_spawn hjudge.spec

/-- Only a case that can be judged is. -/
theorem Host.CanJudge.of_judgeCase {h : Host} {source : String} {o : SignalOptions} {c : TestCase}
    {judged : Judgement × Invocation}
    (hjudged : judgeCase (h.withCandidate source) candidatePath c o = .ok judged) :
    h.CanJudge source o c := by
  rw [CanJudge]
  cases hspawn : (h.withCandidate source).spawn o.python [candidatePath]
    (Path.parent? candidatePath) (judgeInvocation (h.withCandidate source) candidatePath c) with
  | error e =>
    rw [judgeCase_of_unstarted hspawn] at hjudged
    cases hjudged
  | ok started => exact ⟨started, rfl⟩

/-- A case that can be judged has a signal that tells of it. -/
theorem exists_signalFor (parse : Parser) {h : Host} {source : String} {o : SignalOptions}
    {c : TestCase} (hjudge : h.CanJudge source o c) (compilerError : Option String) (index : Nat) :
    ∃ s, signalFor parse (h.withCandidate source) compilerError o index c = .ok s ∧
      s.caseIndex = UInt64.ofNat index ∧ s.compilerError = compilerError ∧
      s.Tells parse h source o c := by
  rw [signalFor, judgeCase_eq hjudge]
  refine ⟨_, rfl, rfl, rfl, rfl, Text.tail_suffix _ _, Text.length_tail _ _, ?_, ?_, ?_⟩
  · exact beq_iff_eq
  · intro hverdict
    dsimp only at hverdict ⊢
    have hneeds : (Verdict.ofRun (judgedRun h source c) c.expected).needsTrace = true := by
      rw [Verdict.needsTrace, Bool.or_eq_true, beq_iff_eq, beq_iff_eq]
      exact hverdict
    rw [if_pos hneeds]
    exact ⟨rfl, rfl⟩
  · intro hverdict
    dsimp only at hverdict ⊢
    have hneeds : ¬ (Verdict.ofRun (judgedRun h source c) c.expected).needsTrace = true := by
      rw [Verdict.needsTrace, Bool.or_eq_true, beq_iff_eq, beq_iff_eq]
      exact hverdict
    rw [if_neg hneeds]
    exact ⟨rfl, rfl⟩

/-- The signals of cases that can all be judged are collected. -/
theorem exists_collectSignals (parse : Parser) {h : Host} {source : String} {o : SignalOptions}
    {cs : List TestCase} (hjudge : ∀ c ∈ cs, h.CanJudge source o c) :
    ∃ ss, collectSignals parse h source cs o = .ok ss := by
  refine exists_signalsFrom parse _ _ o (fun index c hc => ?_) 0
  obtain ⟨s, hs, -⟩ := exists_signalFor parse (hjudge c hc) _ index
  exact ⟨s, hs⟩

/-! ## All cases -/

end Postmortem
