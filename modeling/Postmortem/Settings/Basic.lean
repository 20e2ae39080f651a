import Postmortem.Files.Store
import Postmortem.Judge.Signal
import Postmortem.Toml.Reader

/-!
# Settings

How programs are run and judged unless a command says otherwise. Settings come from the first of two
files that can be read, and each that the file does not give has a default; the interpreter can also
be set in the environment.
-/

namespace Postmortem

open Number

/-- The settings. -/
structure Settings where
  python : String := "python3"
  maxChars : UInt64 := TraceLog.defaultBudget
  /-- The limit of traced runs, in seconds. -/
  timeout : Option Binary64 := none
  /-- The limit of judged runs, in seconds. -/
  judgeTimeout : Binary64 := .ofNat 2
  suppressStdout : Bool := true
deriving DecidableEq, Repr

/-- Why a file gives no settings. -/
inductive SettingsError where
  | unreadable (path : String) (cause : FileError)
  | invalid (path : String)
deriving DecidableEq, Repr, Inhabited

/-- How an error is told. -/
def SettingsError.message : SettingsError → String
  | unreadable path _ => "Failed to read config '" ++ path ++ "'"
  | invalid path => "Failed to parse config TOML '" ++ path ++ "'"

namespace Settings

open Toml (Entries Item Value)

instance : Inhabited Settings := ⟨{}⟩

/-! ## Single settings -/

/-- A text. -/
def textOf? : Item → Option String
  | .value (.text s) => some s
  | _ => none

/-- A natural number of 64 bits. -/
def wordOf? : Item → Option UInt64
  | .value (.integer n) => if n < 0 then none else some (UInt64.ofNat n.toNat)
  | _ => none

/-- A number of seconds. -/
def secondsOf? : Item → Option Binary64
  | .value (.float x) => some x
  | .value (.integer n) => some (.ofInt n)
  | _ => none

/-- A truth value. -/
def flagOf? : Item → Option Bool
  | .value (.flag b) => some b
  | _ => none

/-- The setting of a key: its default if the key is not there, and nothing if it has a value of
another kind. -/
def setting {α : Type} (es : Entries) (key : String) (read : Item → Option α) (default : α) :
    Option α :=
  match es.get? key with
  | none => some default
  | some i => read i

/-- The settings that entries give. -/
def ofEntries? (es : Entries) : Option Settings := do
  let default : Settings := {}
  return {
    python := ← setting es "python" textOf? default.python
    maxChars := ← setting es "max_chars" wordOf? default.maxChars
    timeout := ← setting es "timeout_secs" (fun i => (secondsOf? i).map some) default.timeout
    judgeTimeout := ← setting es "judge_timeout_secs" secondsOf? default.judgeTimeout
    suppressStdout := ← setting es "suppress_stdout" flagOf? default.suppressStdout }

/-! ## Files -/

/-- The settings that a file gives. -/
def ofFile (files : FileStore) (directory : List String) (path : String) :
    Except SettingsError Settings :=
  match files.readText directory path with
  | .error cause => .error (.unreadable path cause)
  | .ok text =>
    match (Toml.read? text.toList).bind ofEntries? with
    | none => .error (.invalid path)
    | some s => .ok s

/-- The name of the file in the current directory. -/
def localFile : String := "exectrace.toml"

/-- The file of the user, under the directory for such files. -/
def userFile (configDirectory : String) : String :=
  Path.join (Path.join configDirectory "exectrace") "config.toml"

/-- The settings with the interpreter that the environment sets, unless that is blank. -/
def withInterpreter (s : Settings) (named? : Option String) : Settings :=
  match named? with
  | some python => if (Text.trimmed python).isEmpty then s else { s with python }
  | none => s

/-- The settings that the first of some files gives that can be read, or the defaults. -/
def ofFirst (files : FileStore) (directory : List String) (paths : List String) : Settings :=
  (paths.findSome? fun path =>
    if files.isFile directory path then (ofFile files directory path).toOption else none).getD {}

/-- The settings in force. -/
def load (files : FileStore) (directory : List String) (configDirectory : String)
    (named? : Option String) : Settings :=
  (ofFirst files directory [localFile, userFile configDirectory]).withInterpreter named?

/-! ## Limits -/

/-- The limit of traced runs. -/
def traceLimit (s : Settings) : Except Duration.Overflow (Option Duration) :=
  match s.timeout with
  | none => .ok none
  | some x => Duration.ofBinary64 x

/-- The limit of judged runs. -/
def judgeLimit (s : Settings) : Except Duration.Overflow Duration := do
  return (← Duration.ofBinary64 s.judgeTimeout).getD (.ofSeconds 2)

/-- How programs are traced under the settings. -/
def traceOptions (s : Settings) : Except Duration.Overflow TraceOptions := do
  return { maxChars := s.maxChars, timeout := ← s.traceLimit, suppressStdout := s.suppressStdout
           python := s.python }

/-- How programs are judged under the settings. -/
def signalOptions (s : Settings) : Except Duration.Overflow SignalOptions := do
  return { python := s.python, judgeTimeout := ← s.judgeLimit, maxChars := s.maxChars }

end Settings

end Postmortem
