import Postmortem.Command.Outcome
import Postmortem.Settings.Basic
import Postmortem.Settings.Limit

/-!
# The tracing command

Traces a module and prints the trace, or the whole result in the interchange format.
-/

namespace Postmortem.Command

open Line (Parser)

/-- The options of the command. -/
structure TraceArguments where
  module : Option String := none
  showStdout : Bool := false
  timeout : Option Duration := none
  maxChars : Option UInt64 := none
  root : Option String := none
  stdin : Option String := none
  output : Option String := none
  json : Bool := false
  args : List String := []
deriving DecidableEq, Repr, Inhabited

/-- A natural number of 64 bits, before which a plus may stand. -/
def wordOf? (text : String) : Option UInt64 :=
  let ds := match text.toList with
    | '+' :: ds => ds
    | ds => ds
  if ds.isEmpty || !ds.all Number.isDigit || UInt64.size ≤ Number.ofDigits ds then none
  else some (UInt64.ofNat (Number.ofDigits ds))

namespace TraceArguments

/-- What the command accepts. -/
def grammar : Grammar where
  options := [("module", .one), ("show-stdout", .none), ("timeout", .one), ("max-chars", .one),
    ("root", .one), ("stdin", .one), ("output", .one), ("json", .none)]
  trailing := true
  version := true

/-- A setting that may be given once. -/
def once {α β : Type} (old : Option α) (set : β) : Except Refusal β :=
  if old.isSome then .error .invalid else .ok set

/-- Takes an option over. Paths are not empty, and no option is given twice. -/
def accept (a : TraceArguments) (g : Given) : Except Refusal TraceArguments :=
  match g.name, g.values with
  | "module", [v] => once a.module { a with module := some v }
  | "show-stdout", _ => if a.showStdout then .error .invalid else .ok { a with showStdout := true }
  | "json", _ => if a.json then .error .invalid else .ok { a with json := true }
  | "timeout", [v] =>
    match a.timeout, Duration.ofText v with
    | none, .ok d => .ok { a with timeout := some d }
    | none, .error .overflow => .error .overflow
    | _, _ => .error .invalid
  | "max-chars", [v] =>
    match wordOf? v with
    | some n => once a.maxChars { a with maxChars := some n }
    | none => .error .invalid
  | "root", [v] => if v.isEmpty then .error .invalid else once a.root { a with root := some v }
  | "stdin", [v] => if v.isEmpty then .error .invalid else once a.stdin { a with stdin := some v }
  | "output", [v] =>
    if v.isEmpty then .error .invalid else once a.output { a with output := some v }
  | _, _ => .error .invalid

/-- The options that arguments give. -/
def ofArguments (args : List String) : Except Refusal TraceArguments :=
  match readArguments grammar accept (fun a rest => { a with args := rest }) (args.length + 1) {}
      args with
  | .error r => .error r
  | .ok a => if a.module.isNone then .error .invalid else .ok a

end TraceArguments

/-- What is told of the command's version. -/
def traceVersion : String := "exectrace 0.3.0\n"

/-- What is told of how the command is used. -/
def traceUsage : String := "Usage: exectrace [OPTIONS] --module <MODULE> [-- <ARGS>...]\n"

/-- The limit of the run: the one that is given or, unless its output is shown, the one of the
settings. -/
def limitFor (a : TraceArguments) (s : Settings) : Except Duration.Overflow (Option Duration) :=
  match a.timeout with
  | some d => .ok (some d)
  | none => if a.showStdout then .ok none else s.traceLimit

/-- What the program can read. -/
def inputFor (h : Host) (a : TraceArguments) : Except (String × FileError) InputSource :=
  match a.stdin with
  | some path =>
    match h.files.readText h.directory path with
    | .ok text => .ok (.text text)
    | .error e => .error (path, e)
  | none => .ok (if a.showStdout then .shared else .nothing)

/-- How the program is run. -/
def traceOptionsFor (a : TraceArguments) (o : TraceOptions) (timeout : Option Duration)
    (input : InputSource) : TraceOptions :=
  { o with
    root := a.root.getD ".", timeout, suppressStdout := !a.showStdout, input, echo := !a.json
    args := a.args, maxChars := a.maxChars.getD o.maxChars
    destination := a.output }

/-- What the command prints and returns for a run. -/
def reportRun (a : TraceArguments) (r : TraceRun) : Outcome where
  code := if r.result.hasError then 1 else 0
  stdout :=
    (match r.printed with
      | some trace => trace ++ "\n"
      | none => "") ++
    if a.json then (RunResult.codec.encode r.result).onLines ++ "\n" else ""
  stderr :=
    Text.Utf8.lossyString r.passedOn ++
    if !a.json && !r.result.traceback.isEmpty then r.result.traceback ++ "\n" else ""
  files := r.files
  seen := r.seen

/-- Runs the command with its options. -/
def runTraceWith (parse : Parser) (e : Environment) (a : TraceArguments) : Outcome :=
  let h := e.host
  let settings := Settings.load h.files h.directory e.configDirectory e.python
  match limitFor a settings with
  | .error _ => .overflowed h.files
  | .ok timeout =>
    match inputFor h a with
    | .error (path, cause) =>
      .failedBy h.files ("Failed to read stdin file '" ++ path ++ "'") cause.message
    | .ok input =>
      match settings.traceOptions with
      | .error _ => .overflowed h.files
      | .ok o =>
        reportRun a (traceModule parse h (a.module.getD "") (traceOptionsFor a o timeout input))

/-- Runs the command. -/
def runTrace (parse : Parser) (e : Environment) (args : List String) : Outcome :=
  match TraceArguments.ofArguments args with
  | .ok a => runTraceWith parse e a
  | .error .overflow => .overflowed e.host.files
  | .error .help => { stdout := traceUsage, files := e.host.files }
  | .error .version => { stdout := traceVersion, files := e.host.files }
  | .error .invalid => { code := 2, stderr := traceUsage, files := e.host.files }

end Postmortem.Command
