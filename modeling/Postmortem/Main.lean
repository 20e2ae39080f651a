import Postmortem.Command.Judge
import Postmortem.Command.Trace
import Postmortem.Python.Parser

/-!
# The program

The two commands on this machine. The files that a command needs are read beforehand, and those
that it leaves behind are written afterwards. No process is started: what a process would write to
its output is read from standard input, so that a run can be replayed from a record of it.
-/

namespace Postmortem.Command

/-- The parts of the place that a path names from a directory, the last one first. -/
def placeOf (directory : List String) (path : String) : List String :=
  (Path.parts path).foldl (fun place part =>
      if part == "" || part == "." then place
      else if part == ".." then place.tail
      else part :: place)
    (if Path.isAbsolute path then [] else directory)

/-- What a command does with files. -/
structure Access where
  reads : List String := []
  writes : List String := []
  directories : List String := []

/-- What the tracing command does with files. -/
def TraceArguments.access (a : TraceArguments) : Access :=
  let root := a.root.getD "."
  { reads := a.stdin.toList ++ (Target.modulePath root (a.module.getD "")).toOption.toList
    writes := a.output.toList
    directories := [root] }

/-- What the judging command does with files. -/
def JudgeArguments.access (a : JudgeArguments) : Access :=
  { reads := a.tests.toList ++ a.code, writes := a.output.toList }

/-- The store of the files and directories that a command needs. -/
def loadStore (directory : List String) (a : Access) : IO FileStore := do
  let mut store := FileStore.empty.addDirectory directory
  for path in a.directories do
    store := store.addDirectory (placeOf directory path)
  for path in a.writes do
    store := store.addDirectory (placeOf directory path).tail
  for path in a.reads ++ a.writes do
    if let .ok bytes ← (IO.FS.readBinFile path).toBaseIO then
      store := store.addFile (placeOf directory path) bytes.toList
  return store

/-- The directory of the user's settings. -/
def configDirectory : IO String := do
  match ← IO.getEnv "XDG_CONFIG_HOME" with
  | some path => return path
  | none => return Path.join ((← IO.getEnv "HOME").getD "/") ".config"

/-- The surroundings of a command that needs some files. -/
def loadEnvironment (a : Access) : IO Environment := do
  let directory := placeOf [] (← IO.currentDir).toString
  let configDirectory ← configDirectory
  let python ← IO.getEnv "EXECTRACE_PYTHON"
  let reads := a.reads ++ [Settings.localFile, Settings.userFile configDirectory]
  let files ← loadStore directory { a with reads }
  let recorded ← (← IO.getStdin).readBinToEnd
  let interpreter := (Settings.load files directory configDirectory python).python
  let host : Host :=
    { files, directory, stdin := "", interpreter
      behaviour := fun _ => { stdout := recorded.toList } }
  return { host, configDirectory, python }

/-- Prints what a command printed, and writes what it wrote. -/
def deliver (e : Environment) (a : Access) (o : Outcome) : IO UInt32 := do
  for path in a.writes do
    if let .ok (_, .file bytes) := o.files.find e.host.directory path then
      IO.FS.writeBinFile path ⟨bytes.toArray⟩
  IO.print o.stdout
  IO.eprint o.stderr
  return o.code.toUInt32

/-- Runs a command on this machine. -/
def perform (command : Environment → List String → Outcome) (a : Access) (args : List String) :
    IO UInt32 := do
  let e ← loadEnvironment a
  deliver e a (command e args)

end Postmortem.Command

open Postmortem Command in
/-- Runs the command that the first argument names. -/
def main (args : List String) : IO UInt32 := do
  let parse := Python.parse Python.automaton
  match args with
  | "trace" :: args =>
    perform (runTrace parse) (((TraceArguments.ofArguments args).map (·.access)).toOption.getD {}) args
  | "judge" :: args =>
    perform (runJudge parse) (((JudgeArguments.ofArguments args).map (·.access)).toOption.getD {}) args
  | _ =>
    IO.eprint (traceUsage ++ judgeUsage)
    return 2
