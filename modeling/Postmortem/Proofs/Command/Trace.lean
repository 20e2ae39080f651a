import Postmortem.Proofs.Command.Flag
import Postmortem.Proofs.Json.Vocabulary
import Postmortem.Proofs.Number.Duration
import Postmortem.Proofs.Run.Delivery

/-!
# The two forms of a trace report

The tracing command prints the trace of a run and its traceback, or the whole result in the
interchange format. Both forms tell of one result, whatever became of the run, and the exit code
says the same as it.

## Shape of the argument

The flag has no say in how the run is made, only in whether the trace is printed when the run ends.
So the two runs have one result, and what the command prints for each is read off it.
-/

namespace Postmortem.Command

open Line (Parser)

/-! ## The run that is asked for -/

/-- The settings that are in force. -/
def Environment.settings (e : Environment) : Settings :=
  Settings.load e.host.files e.host.directory e.configDirectory e.python

/-- A setting that is not too great gives a limit, or none. -/
theorem exists_traceLimit {s : Settings}
    (h : ∀ x, s.timeout = some x → ¬ x.AtLeast UInt64.size) :
    ∃ limit, s.traceLimit = .ok limit := by
  rw [Settings.traceLimit]
  cases htimeout : s.timeout with
  | none => exact ⟨none, rfl⟩
  | some x => exact Duration.exists_ofBinary64 (h x htimeout)

/-- Settings with a limit say how programs are traced. -/
theorem traceOptions_of_traceLimit {s : Settings} {limit : Option Duration}
    (h : s.traceLimit = .ok limit) :
    s.traceOptions = .ok { maxChars := s.maxChars, timeout := limit, python := s.python,
                           suppressStdout := s.suppressStdout } := by
  rw [Settings.traceOptions, h]
  rfl

/-- All that a run is made with. -/
structure Prepared (e : Environment) (a : TraceArguments) where
  base : TraceOptions
  limit : Option Duration
  input : InputSource
  base_eq : e.settings.traceOptions = .ok base
  limit_eq : limitFor a e.settings = .ok limit
  input_eq : inputFor e.host a = .ok input

namespace Prepared

variable {e : Environment} {a : TraceArguments}

/-- The options of the run. -/
def options (p : Prepared e a) : TraceOptions := traceOptionsFor a p.base p.limit p.input

/-- The run. -/
def run (parse : Parser) (p : Prepared e a) : TraceRun :=
  (Subject.module (a.module.getD "")).trace parse e.host p.options

/-- A child was started for the run, and ended before the limit. -/
def Ended (parse : Parser) (p : Prepared e a) : Prop :=
  ∃ (l : Launched parse e.host p.options (.module (a.module.getD ""))) (status : ExitStatus),
    l.child.ending = some status

/-- The command reports the run. -/
theorem runTraceWith_eq (parse : Parser) (p : Prepared e a) :
    runTraceWith parse e a = reportRun a (p.run parse) := by
  have hbase := p.base_eq
  have hlimit := p.limit_eq
  rw [Environment.settings] at hbase hlimit
  simp only [runTraceWith, hbase, hlimit, p.input_eq]
  rfl

/-- The flag has no say in how the run is made. -/
def withJson (p : Prepared e a) (json : Bool) : Prepared e (a.withJson json) where
  base := p.base
  limit := p.limit
  input := p.input
  base_eq := p.base_eq
  limit_eq := p.limit_eq
  input_eq := p.input_eq

/-- Nor in its result. -/
theorem result_withJson (parse : Parser) (p : Prepared e a) (json : Bool) :
    ((p.withJson json).run parse).result = (p.run parse).result :=
  result_redirected parse e.host p.options (.module (a.module.getD "")) a.output (!json)

/-- Nor in whether the child ends. -/
theorem ended_withJson (parse : Parser) (p : Prepared e a) (json : Bool) :
    (p.withJson json).Ended parse ↔ p.Ended parse := by
  constructor
  · rintro ⟨l, status, hend⟩
    exact ⟨l.redirected a.output (!a.json), status, hend⟩
  · rintro ⟨l, status, hend⟩
    exact ⟨l.redirected a.output (!json), status, hend⟩

end Prepared

/-- A run can be made if the input that is asked for can be read and the limit is not too great. -/
theorem exists_prepared {e : Environment} {a : TraceArguments}
    (hstdin : ∀ path, a.stdin = some path →
      ∃ text, e.host.files.readText e.host.directory path = .ok text)
    (hlimit : ∀ x, e.settings.timeout = some x → ¬ x.AtLeast UInt64.size) :
    Nonempty (Prepared e a) := by
  obtain ⟨configured, hconfigured⟩ := exists_traceLimit hlimit
  have hchosen : ∃ limit, limitFor a e.settings = .ok limit := by
    rw [limitFor]
    cases a.timeout with
    | some d => exact ⟨some d, rfl⟩
    | none =>
      simp only
      split
      · exact ⟨none, rfl⟩
      · exact ⟨configured, hconfigured⟩
  have hinput : ∃ input, inputFor e.host a = .ok input := by
    rw [inputFor]
    cases hpath : a.stdin with
    | none => exact ⟨_, rfl⟩
    | some path =>
      obtain ⟨text, htext⟩ := hstdin path hpath
      simp only [htext]
      exact ⟨.text text, rfl⟩
  obtain ⟨limit, hchosen⟩ := hchosen
  obtain ⟨input, hinput⟩ := hinput
  exact ⟨⟨_, limit, input, traceOptions_of_traceLimit hconfigured, hchosen, hinput⟩⟩

/-! ## Reports -/

section

variable {a : TraceArguments} {r : TraceRun}

/-- Without the flag, the trace that the run printed is all that is printed. -/
theorem reportRun_stdout_plain (hjson : a.json = false) :
    (reportRun a r).stdout = (r.printed.map (· ++ "\n")).getD "" := by
  rw [reportRun, hjson]
  cases r.printed with
  | none => rfl
  | some trace => exact String.append_empty

/-- Without the flag, the traceback is told of, if there is one. -/
theorem reportRun_stderr_plain (hjson : a.json = false) (hpassed : r.passedOn = []) :
    (reportRun a r).stderr =
      if r.result.traceback = "" then "" else r.result.traceback ++ "\n" := by
  rw [reportRun, hjson, hpassed]
  by_cases htraceback : r.result.traceback = ""
  · rw [if_pos htraceback, htraceback]
    rfl
  · have hempty : r.result.traceback.isEmpty = false := by simpa using htraceback
    rw [if_neg htraceback, hempty]
    exact String.empty_append

/-- With the flag, the result is printed. -/
theorem reportRun_stdout_json (hjson : a.json = true) (hprinted : r.printed = none) :
    (reportRun a r).stdout = (RunResult.codec.encode r.result).onLines ++ "\n" := by
  rw [reportRun, hjson, hprinted]
  exact String.empty_append

end

namespace Prepared

variable {e : Environment} {a : TraceArguments}

/-- The trace of a child that ended is printed, unless the interchange format is asked for. -/
theorem printed_of_ended {parse : Parser} {p : Prepared e a} (h : p.Ended parse) :
    (p.run parse).printed = if a.json then none else some (p.run parse).result.trace := by
  obtain ⟨l, status, hend⟩ := h
  rw [run, l.trace_of_ended hend]
  show (if !a.json then _ else _) = _
  cases a.json <;> rfl

/-- No trace is printed beside the interchange format. -/
theorem printed_of_json {parse : Parser} {p : Prepared e a} (hjson : a.json = true) :
    (p.run parse).printed = none := by
  by_cases hended : p.Ended parse
  · rw [printed_of_ended hended, hjson]
    rfl
  · exact (trace_of_not_ended hended).2

/-- The files after a run do not depend on the flag. -/
theorem files_withJson (parse : Parser) (p : Prepared e a) (json : Bool) :
    ((p.withJson json).run parse).files = (p.run parse).files := by
  by_cases hended : p.Ended parse
  · obtain ⟨l, status, hend⟩ := hended
    have hsame := p.result_withJson parse json
    obtain ⟨l', status', hend'⟩ := (p.ended_withJson parse json).mpr ⟨l, status, hend⟩
    rw [run, run] at hsame
    rw [run, run, l'.trace_of_ended hend', l.trace_of_ended hend]
    simp only [hsame]
    rfl
  · have hended' := (p.ended_withJson parse json).not.mpr hended
    exact (trace_of_not_ended hended').1.trans (trace_of_not_ended hended).1.symm

end Prepared

/-- Two outcomes of a command, without the flag and with it, that tell of one result. -/
structure SameReport (r : RunResult) (ended : Prop) (plain json : Outcome) : Prop where
  code_eq : plain.code = json.code
  code : json.code = if r.hasError then 1 else 0
  /-- With the flag, the result is printed. -/
  decoded : RunResult.codec.ofText json.stdout = .ok r
  /-- Without it, the traceback is told of if there is one, -/
  traceback : plain.stderr = if r.traceback = "" then "" else r.traceback ++ "\n"
  /-- and the trace is printed, also if it is empty, if the child ended before the limit, -/
  trace_of_ended : ended → plain.stdout = r.trace ++ "\n"
  /-- and otherwise nothing is. -/
  trace_of_not_ended : ¬ ended → plain.stdout = ""
  files : plain.files = json.files

/-- **A run is reported alike in both forms.** -/
theorem sameReport (parse : Parser) {e : Environment} {a : TraceArguments} (p : Prepared e a)
    (hquiet : a.showStdout = false) :
    SameReport (p.run parse).result (p.Ended parse) (runTraceWith parse e (a.withJson false))
      (runTraceWith parse e (a.withJson true)) := by
  have hresult (json : Bool) := p.result_withJson parse json
  have hpassedOn (json : Bool) : ((p.withJson json).run parse).passedOn = [] :=
    passedOn_of_suppressed (by show (!a.showStdout) = true; rw [hquiet]; rfl)
  rw [(p.withJson false).runTraceWith_eq, (p.withJson true).runTraceWith_eq]
  constructor
  case code_eq => simp only [reportRun, hresult]
  case code => simp only [reportRun, hresult]
  case decoded =>
    rw [reportRun_stdout_json rfl (Prepared.printed_of_json rfl), hresult]
    exact Json.Codec.ofText_printed RunResult.lawful_codec (by decide) _
  case traceback => rw [reportRun_stderr_plain rfl (hpassedOn false), hresult]
  case trace_of_ended =>
    intro hended
    rw [reportRun_stdout_plain rfl,
      Prepared.printed_of_ended ((p.ended_withJson parse false).mpr hended), hresult]
    rfl
  case trace_of_not_ended =>
    intro hended
    have hprinted : ((p.withJson false).run parse).printed = none :=
      (trace_of_not_ended ((p.ended_withJson parse false).not.mpr hended)).2
    rw [reportRun_stdout_plain rfl, hprinted]
    rfl
  case files =>
    show ((p.withJson false).run parse).files = ((p.withJson true).run parse).files
    rw [p.files_withJson, p.files_withJson]

/-- Accepted arguments are acted on. -/
theorem runTrace_of_accepted {parse : Parser} {e : Environment} {args : List String}
    {a : TraceArguments} (h : TraceArguments.ofArguments args = .ok a) :
    runTrace parse e args = runTraceWith parse e a := by
  rw [runTrace, h]

/-- **The two forms of a report agree.** Whatever arguments are accepted that do not show the output
of the program, and whatever the files, the settings and the child: if the input can be read and the
limit is not too great, the command reports the same result with the flag and without it. The
arguments themselves ask for one of the two. -/
theorem runTrace_reports (parse : Parser) (e : Environment) (args : List String)
    (a : TraceArguments) (haccepted : TraceArguments.ofArguments args = .ok a)
    (hquiet : a.showStdout = false)
    (hstdin : ∀ path, a.stdin = some path →
      ∃ text, e.host.files.readText e.host.directory path = .ok text)
    (hlimit : ∀ x, e.settings.timeout = some x → ¬ x.AtLeast UInt64.size) :
    ∃ p : Prepared e a,
      SameReport (p.run parse).result (p.Ended parse)
        (runTrace parse e (TraceArguments.withoutFlag args))
        (runTrace parse e ("--json" :: TraceArguments.withoutFlag args)) ∧
      runTrace parse e args =
        if a.json then runTrace parse e ("--json" :: TraceArguments.withoutFlag args)
        else runTrace parse e (TraceArguments.withoutFlag args) := by
  obtain ⟨p⟩ := exists_prepared hstdin hlimit
  obtain ⟨hplain, hjson⟩ := TraceArguments.ofArguments_withoutFlag haccepted
  rw [runTrace_of_accepted hplain, runTrace_of_accepted hjson, runTrace_of_accepted haccepted]
  refine ⟨p, sameReport parse p hquiet, ?_⟩
  obtain ⟨-, -, -, -, -, -, -, json, -⟩ := a
  cases json <;> rfl

/-- The flag behind two dashes is for the program, and a child that ends without a report prints an
empty trace. -/
theorem runTrace_reports_trailing :
    let parse : Parser := fun _ => none
    let e : Environment := {
      host := { files := .empty, directory := [], stdin := "", interpreter := "python3",
                behaviour := fun _ => { ending := some (.code 1) } }
      configDirectory := "/config", python := none }
    ∃ r, SameReport r True (runTrace parse e ["--module", "prog", "--", "--json"])
      (runTrace parse e ["--json", "--module", "prog", "--", "--json"]) := by
  have haccepted : TraceArguments.ofArguments ["--module", "prog", "--json", "--", "--json"] =
      .ok { module := some "prog", json := true, args := ["--json"] } := by rfl
  have hsettings : Settings.load .empty [] "/config" none = {} := by rfl
  have htarget : Target.ofModule "." "prog" = .ok ⟨"prog", "./prog.py", ".", "prog.py"⟩ := by rfl
  have hstart : Host.start ⟨.empty, [], "", "python3", fun _ => {}, fun _ => none⟩ "python3"
      (some ".") = .ok "/" := by rfl
  have hwithout : TraceArguments.withoutFlag ["--module", "prog", "--json", "--", "--json"] =
      ["--module", "prog", "--", "--json"] := by rfl
  intro parse e
  have hlimit : ∀ x, e.settings.timeout = some x → ¬ x.AtLeast UInt64.size := by
    intro x hx
    rw [Environment.settings, hsettings] at hx
    cases hx
  obtain ⟨p, hreports, -⟩ := runTrace_reports parse e _ _ haccepted rfl
    (by rintro path ⟨⟩) hlimit
  have hbase : p.base = { python := "python3" } := by
    have hoptions := p.base_eq
    rw [Environment.settings, hsettings] at hoptions
    exact (Except.ok.inj hoptions).symm
  have hstarted : e.host.start p.base.python (some ".") = .ok "/" := by
    rw [hbase]
    refine (Host.start_congr ?_ ?_ ?_ _ _).trans hstart <;> rfl
  have hended : p.Ended parse :=
    ⟨⟨_, _, _, htarget, Host.spawn_eq_ok_iff.mpr ⟨by simp, "/", hstarted, rfl, rfl, rfl⟩⟩,
      .code 1, rfl⟩
  rw [hwithout, eq_true hended] at hreports
  exact ⟨_, hreports⟩

end Postmortem.Command
