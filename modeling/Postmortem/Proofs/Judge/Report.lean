import Postmortem.Judge.Report
import Postmortem.Proofs.Judge.Signal
import Postmortem.Proofs.Judge.Verdict

/-!
# Every program has a report of its own

A report depends on its own program alone: the others, whether they can be read and judged or not,
have no say in it, and there is one for each, in their order. A report is whole or empty. If the
program could be read and judged on every case there is a signal for each case and the summary
counts them; otherwise there is an error, and no signal of the cases before it is left.

## Shape of the argument

`reportOn_cases` says all that a report can be: the signals of the program, or the reason why there
are none. What is said of summaries are the counts of verdicts.
-/

namespace Postmortem

open Line (Parser)

/-! ## When signals are collected -/

/-- A case has a signal exactly if it can be judged. -/
theorem exists_signalFor_iff (parse : Parser) (h : Host) (source : String)
    (compilerError : Option String) (o : SignalOptions) (index : Nat) (c : TestCase) :
    (∃ s, signalFor parse (h.withCandidate source) compilerError o index c = .ok s) ↔
      h.CanJudge source o c := by
  constructor
  · rintro ⟨s, hs⟩
    cases hjudged : judgeCase (h.withCandidate source) candidatePath c o with
    | error e =>
      rw [signalFor, hjudged] at hs
      cases hs
    | ok judged => exact .of_judgeCase hjudged
  · intro hjudge
    obtain ⟨s, hs, -⟩ := exists_signalFor parse hjudge compilerError index
    exact ⟨s, hs⟩

/-- Signals are collected exactly if every case can be judged. -/
theorem exists_collectSignals_iff (parse : Parser) (h : Host) (source : String)
    (cs : List TestCase) (o : SignalOptions) :
    (∃ ss, collectSignals parse h source cs o = .ok ss) ↔ ∀ c ∈ cs, h.CanJudge source o c := by
  constructor
  · rintro ⟨ss, hss⟩ c hc
    obtain ⟨i, hi⟩ := List.mem_iff_getElem?.mp hc
    obtain ⟨-, hall⟩ := signal_of_signalsFrom parse _ _ o hss
    obtain ⟨s, -, hs⟩ := hall i c hi
    exact (exists_signalFor_iff parse h source _ o _ c).mp ⟨s, hs⟩
  · exact exists_collectSignals parse

/-- Signals that are collected are one for each case. -/
theorem length_collectSignals {parse : Parser} {h : Host} {source : String} {cs : List TestCase}
    {o : SignalOptions} {ss : List ErrorSignal}
    (hss : collectSignals parse h source cs o = .ok ss) : ss.length = cs.length :=
  (signal_of_signalsFrom parse _ _ o hss).1

/-! ## What a report can be -/

/-- Whether the program in a file can be read and judged on every case. -/
def CanReport (h : Host) (cs : List TestCase) (o : SignalOptions) (path : String) : Prop :=
  ∃ source, h.files.readText h.directory path = .ok source ∧ ∀ c ∈ cs, h.CanJudge source o c

/-- A report has the signals of its program, or the reason why there are none. -/
theorem reportOn_cases (parse : Parser) (h : Host) (cs : List TestCase) (o : SignalOptions)
    (path : String) :
    (∃ source ss, h.files.readText h.directory path = .ok source ∧
      collectSignals parse h source cs o = .ok ss ∧
      reportOn parse h cs o path = ⟨path, .ofVerdicts (ss.map (·.verdict)), ss, none⟩) ∨
    (¬ CanReport h cs o path ∧
      ∃ e : CandidateError, reportOn parse h cs o path = ⟨path, {}, [], some e.message⟩) := by
  rw [reportOn, signalsOfFile]
  cases hread : h.files.readText h.directory path with
  | error cause =>
    refine .inr ⟨?_, .unreadable path cause, rfl⟩
    rintro ⟨source, hsource, -⟩
    rw [hread] at hsource
    cases hsource
  | ok source =>
    cases hsignals : collectSignals parse h source cs o with
    | error cause =>
      refine .inr ⟨?_, .notStarted cause, by simp only [hsignals]⟩
      rintro ⟨source', hsource', hall⟩
      rw [hread] at hsource'
      cases hsource'
      obtain ⟨ss, hss⟩ := (exists_collectSignals_iff parse h source cs o).mpr hall
      rw [hsignals] at hss
      cases hss
    | ok ss => exact .inl ⟨source, ss, rfl, hsignals, by simp only [hsignals]⟩

/-! ## All reports -/

/-- How many signals of a report have a verdict. -/
def CandidateReport.number (r : CandidateReport) (v : Verdict) : Nat :=
  r.signals.countP (·.verdict == v)

/-- The summary of a report counts its signals by their verdicts: it has a word for each verdict,
and these words add up. They are the numbers themselves if there are not too many signals for a
word. -/
structure CandidateReport.Counts (r : CandidateReport) : Prop where
  summary : r.summary = .ofVerdicts (r.signals.map (·.verdict))
  countOf : ∀ v, r.summary.countOf v = UInt64.ofNat (r.number v)
  testCases : r.summary.testCases = UInt64.ofNat r.signals.length
  total : r.summary.passed + r.summary.failed + r.summary.timeouts + r.summary.errors =
    r.summary.testCases
  toNat_countOf : r.signals.length < UInt64.size → ∀ v, (r.summary.countOf v).toNat = r.number v
  toNat_testCases : r.signals.length < UInt64.size →
    r.summary.testCases.toNat = r.signals.length
  toNat_total : r.signals.length < UInt64.size →
    r.summary.passed.toNat + r.summary.failed.toNat + r.summary.timeouts.toNat +
      r.summary.errors.toNat = r.signals.length

/-- What a report tells of a program: either all of its signals or, if it could not be read or not
be judged on every case, an error and none; and how many there are of each verdict. -/
structure CandidateReport.TellsOf (parse : Parser) (h : Host) (cs : List TestCase)
    (o : SignalOptions) (path : String) (r : CandidateReport) : Prop where
  code : r.code = path
  error_eq_none_iff : r.error = none ↔ CanReport h cs o path
  signals : ∀ source ss, h.files.readText h.directory path = .ok source →
    collectSignals parse h source cs o = .ok ss → r.signals = ss
  length_signals : r.error = none → r.signals.length = cs.length
  empty : r.error ≠ none → r.signals = [] ∧ r.summary = {}
  counts : r.Counts

/-- The summary of the verdicts of a report counts its signals. -/
theorem CandidateReport.counts_of_summary {r : CandidateReport}
    (hsummary : r.summary = .ofVerdicts (r.signals.map (·.verdict))) : r.Counts := by
  have hlength : (r.signals.map (·.verdict)).length = r.signals.length := List.length_map _
  have hnumber (v : Verdict) : (r.signals.map (·.verdict)).count v = r.number v := List.countP_map
  have hcountOf (hshort : r.signals.length < UInt64.size) (v : Verdict) :
      (r.summary.countOf v).toNat = r.number v := by
    rw [hsummary, VerdictSummary.toNat_countOf_ofVerdicts (hlength.symm ▸ hshort), hnumber]
  constructor
  case summary => exact hsummary
  case countOf =>
    intro v
    rw [hsummary, VerdictSummary.countOf_ofVerdicts, hnumber]
  case testCases => rw [hsummary, VerdictSummary.testCases_ofVerdicts, hlength]
  case total =>
    rw [hsummary]
    exact VerdictSummary.total_ofVerdicts _
  case toNat_countOf => exact hcountOf
  case toNat_testCases =>
    intro hshort
    rw [hsummary, VerdictSummary.testCases_ofVerdicts, hlength, UInt64.toNat_ofNat_of_lt' hshort]
  case toNat_total =>
    intro hshort
    have htotal := Verdict.count_add_count (r.signals.map (·.verdict))
    rw [hnumber, hnumber, hnumber, hnumber, hlength, ← hcountOf hshort, ← hcountOf hshort,
      ← hcountOf hshort, ← hcountOf hshort] at htotal
    exact htotal

/-- Every report tells of its program. -/
theorem tellsOf_reportOn (parse : Parser) (h : Host) (cs : List TestCase) (o : SignalOptions)
    (path : String) : (reportOn parse h cs o path).TellsOf parse h cs o path := by
  rcases reportOn_cases parse h cs o path with ⟨source, ss, hread, hss, hr⟩ | ⟨hcannot, e, hr⟩
  · rw [hr]
    have hcan : CanReport h cs o path :=
      ⟨source, hread, (exists_collectSignals_iff parse h source cs o).mp ⟨ss, hss⟩⟩
    refine ⟨rfl, iff_of_true rfl hcan, ?_, fun _ => length_collectSignals hss,
      fun hne => absurd rfl hne, CandidateReport.counts_of_summary rfl⟩
    intro source' ss' hread' hss'
    rw [hread] at hread'
    cases hread'
    rw [hss] at hss'
    cases hss'
    rfl
  · rw [hr]
    refine ⟨rfl, iff_of_false (Option.some_ne_none _) hcannot, ?_,
      fun hnone => absurd hnone (Option.some_ne_none _), fun _ => ⟨rfl, rfl⟩,
      CandidateReport.counts_of_summary rfl⟩
    intro source' ss' hread' hss'
    exact absurd ⟨source', hread', (exists_collectSignals_iff parse h source' cs o).mp ⟨ss', hss'⟩⟩
      hcannot

/-- **Every program has a report of its own.** There is one report for each path, in the order of
the paths, and it is the report that the path has alone. A report has a signal for each case, or an
error and no signals at all; its summary counts the signals by their verdicts. -/
theorem reportAll_isolated (parse : Parser) (h : Host) (cs : List TestCase) (o : SignalOptions)
    (paths : List String) :
    (reportAll parse h paths cs o).length = paths.length ∧
      ∀ (i : Nat) (path : String), paths[i]? = some path →
        ∃ r, (reportAll parse h paths cs o)[i]? = some r ∧ reportAll parse h [path] cs o = [r] ∧
          r.TellsOf parse h cs o path := by
  refine ⟨List.length_map _, fun i path hpath => ?_⟩
  refine ⟨reportOn parse h cs o path, ?_, rfl, tellsOf_reportOn parse h cs o path⟩
  rw [reportAll, List.getElem?_map, hpath, Option.map_some]

/-- Three programs, the first of which is no text. -/
def threePrograms : FileStore :=
  ((FileStore.empty.addFile ["bad.py"] [0xff]).addFile ["half.py"]
    (Text.Utf8.ofString "half")).addFile ["good.py"] []

/-- A program that is no text has an error and no signals. So has one for which the system refuses
a process for the second case, although it can be judged on the first. The one after them has the
report that it has alone, with a signal for each case. -/
theorem reportAll_isolated_midway :
    let parse : Parser := fun _ => none
    let h : Host :=
      { files := threePrograms, directory := [], stdin := "", interpreter := "python3"
        behaviour := fun i => { stdout := Text.Utf8.ofString i.stdin }
        refusal := fun i => if i.stdin == "2" && i.source == "half" then some "busy" else none }
    let o : SignalOptions := {}
    let cs : List TestCase := [⟨"1", "1"⟩, ⟨"2", "2"⟩]
    let paths := ["bad.py", "half.py", "good.py"]
    h.CanJudge "half" o ⟨"1", "1"⟩ ∧
      ∃ bad half good : CandidateReport,
        (reportAll parse h paths cs o)[0]? = some bad ∧
        bad.error ≠ none ∧ bad.signals = [] ∧ bad.summary = {} ∧
        (reportAll parse h paths cs o)[1]? = some half ∧
        half.error ≠ none ∧ half.signals = [] ∧ half.summary = {} ∧
        (reportAll parse h paths cs o)[2]? = some good ∧
        reportAll parse h ["good.py"] cs o = [good] ∧ good.error = none ∧
        good.signals.length = 2 ∧
        (good.summary.countOf .passed).toNat = good.number .passed := by
  have hbadText : threePrograms.readText [] "bad.py" = .error .notText := by rfl
  have hhalfText : threePrograms.readText [] "half.py" = .ok "half" := by rfl
  have hgoodText : threePrograms.readText [] "good.py" = .ok "" := by rfl
  have hhalfPlace : (Host.withCandidate ⟨threePrograms, [], "", "python3", fun _ => {},
      fun _ => none⟩ "half").start "python3" (Path.parent? candidatePath) = .ok "/candidate" := by
    rfl
  have hgoodPlace : (Host.withCandidate ⟨threePrograms, [], "", "python3", fun _ => {},
      fun _ => none⟩ "").start "python3" (Path.parent? candidatePath) = .ok "/candidate" := by
    rfl
  intro parse h o cs paths
  have hhalfStart : (h.withCandidate "half").start o.python (Path.parent? candidatePath) =
      .ok "/candidate" := by
    refine (Host.start_congr ?_ ?_ ?_ _ _).trans hhalfPlace <;> rfl
  have hgoodStart : (h.withCandidate "").start o.python (Path.parent? candidatePath) =
      .ok "/candidate" := by
    refine (Host.start_congr ?_ ?_ ?_ _ _).trans hgoodPlace <;> rfl
  have hfirst : h.CanJudge "half" o ⟨"1", "1"⟩ :=
    Host.canJudge_iff.mpr ⟨⟨_, hhalfStart⟩, by decide⟩
  have hsecond : ¬ h.CanJudge "half" o ⟨"2", "2"⟩ := by
    rw [Host.canJudge_iff]
    rintro ⟨-, hrefusal⟩
    exact absurd hrefusal (by decide)
  have hgood : ∀ c ∈ cs, h.CanJudge "" o c := by
    intro c hc
    have hother : ("" == "half") ≠ true := by decide
    refine Host.canJudge_iff.mpr ⟨⟨_, hgoodStart⟩, if_neg ?_⟩
    rw [Bool.and_eq_true]
    exact fun hboth => hother hboth.2
  obtain ⟨-, hall⟩ := reportAll_isolated parse h cs o paths
  obtain ⟨bad, hbad, -, hbadTells⟩ := hall 0 "bad.py" rfl
  obtain ⟨half, hhalf, -, hhalfTells⟩ := hall 1 "half.py" rfl
  obtain ⟨good, hgoodAt, halone, hgoodTells⟩ := hall 2 "good.py" rfl
  have hbadError : bad.error ≠ none := by
    intro hnone
    obtain ⟨source, hsource, -⟩ := hbadTells.error_eq_none_iff.mp hnone
    cases hbadText.symm.trans hsource
  have hhalfError : half.error ≠ none := by
    intro hnone
    obtain ⟨source, hsource, hcases⟩ := hhalfTells.error_eq_none_iff.mp hnone
    cases hhalfText.symm.trans hsource
    exact hsecond (hcases ⟨"2", "2"⟩ (by simp [cs]))
  have hgoodError : good.error = none :=
    hgoodTells.error_eq_none_iff.mpr ⟨"", hgoodText, hgood⟩
  have hlength : good.signals.length = 2 := hgoodTells.length_signals hgoodError
  obtain ⟨hbadSignals, hbadSummary⟩ := hbadTells.empty hbadError
  obtain ⟨hhalfSignals, hhalfSummary⟩ := hhalfTells.empty hhalfError
  exact ⟨hfirst, bad, half, good, hbad, hbadError, hbadSignals, hbadSummary, hhalf, hhalfError,
    hhalfSignals, hhalfSummary, hgoodAt, halone, hgoodError, hlength,
    hgoodTells.counts.toNat_countOf (by rw [hlength]; decide) .passed⟩

end Postmortem
