import Postmortem.Files.Store
import Postmortem.Run.Child
import Postmortem.Trace.Request

/-!
# Hosts

The surroundings in which programs are run, as a value: files, a current directory, and an
interpreter, of which only is known what the processes do that it starts. That it is there does not
mean that a process can always be had: the system may refuse one, and give another later.
-/

namespace Postmortem

/-- What an interpreter is started for. -/
inductive Role where
  /-- To run a program with the probe. -/
  | probe (request : ProbeRequest)
  /-- To run a program as it is. -/
  | judge
  /-- To check whether a program can be compiled. -/
  | check
deriving DecidableEq, Repr, Inhabited

/-- The start of an interpreter. -/
structure Invocation where
  role : Role
  /-- The text of the program, as far as there is one. -/
  source : String
  /-- The directory in which it runs. -/
  directory : String
  /-- What it can read. -/
  stdin : String
deriving DecidableEq, Repr, Inhabited

/-- What a process can read from its input. -/
inductive InputSource where
  | nothing
  /-- The input of the host itself. -/
  | shared
  | text (s : String)
deriving DecidableEq, Repr, Inhabited

/-- A host. -/
structure Host where
  files : FileStore
  /-- The parts of the current directory, the last one first. -/
  directory : List String
  /-- What the host itself can read. -/
  stdin : String
  /-- The path of the interpreter. -/
  interpreter : String
  /-- What the processes do that it starts. -/
  behaviour : Invocation → Child
  /-- Why the system refuses a process, where it does. -/
  refusal : Invocation → Option String := fun _ => none

/-- Why a process cannot be started. -/
inductive StartError where
  | file (e : FileError)
  /-- The path of the program or of its directory, or an argument, has a character that none may
  have. -/
  | badName
  /-- The system has no process to give. -/
  | refused (cause : String)
deriving DecidableEq, Repr, Inhabited

/-- How an error is told. -/
def StartError.message : StartError → String
  | file e => e.message
  | badName => "nul byte found in provided data"
  | refused cause => cause

namespace Host

/-- The text that a process reads from a source. -/
def inputText (h : Host) : InputSource → String
  | .nothing => ""
  | .shared => h.stdin
  | .text s => s

/-- Enters a directory. -/
def enter (h : Host) (directory : String) : Except StartError Host :=
  match h.files.find h.directory directory with
  | .ok (place, .directory) => .ok { h with directory := place }
  | .ok (_, .file _) => .error (.file .notDirectory)
  | .error .badName => .error .badName
  | .error e => .error (.file e)

/-- Whether a program can be started: only the interpreter can. -/
def canStart (h : Host) (program : String) : Except StartError Unit :=
  if program == h.interpreter then .ok ()
  else if program.toList.contains '\x00' then .error .badName
  else if !program.toList.contains '/' then .error (.file .notFound)
  else match h.files.find h.directory program with
    | .ok _ => .error (.file .denied)
    | .error e => .error (.file e)

/-- The host in the directory in which a program is started, if one is given. -/
def within (h : Host) : Option String → Except StartError Host
  | some directory => h.enter directory
  | none => .ok h

/-- Whether a program can be started in a directory: gives the directory in which it runs. -/
def start (h : Host) (program : String) (directory : Option String) : Except StartError String := do
  if program.toList.contains '\x00' then .error .badName else
    let h ← h.within directory
    h.canStart program
    return Path.ofParts h.directory.reverse

/-- Starts a program with arguments, in a directory if one is given: gives the process, and what it
was started for, which may depend on the directory in which it runs. -/
def spawn (h : Host) (program : String) (args : List String) (directory : Option String)
    (purpose : String → Invocation) : Except StartError (Invocation × Child) := do
  if args.any (·.toList.contains '\x00') then .error .badName else
    let invocation := purpose (← h.start program directory)
    match h.refusal invocation with
    | some cause => .error (.refused cause)
    | none => return (invocation, h.behaviour invocation)

/-- The text of a file, as a process finds it that runs in a directory. One that it cannot read has
none. -/
def textWithin (h : Host) (directory : Option String) (path : String) : String :=
  match h.within directory with
  | .error _ => ""
  | .ok h => (h.files.readText h.directory path).toOption.getD ""

end Host

end Postmortem
