import Postmortem.Number.Digits
import Postmortem.Text.Utf8

/-!
# Child processes

What a child process does, seen from outside: the bytes that it writes to its two outputs, and how
it ends. One that does not end by itself outlives every limit and is killed.
-/

namespace Postmortem

/-- A signal that ends a process. -/
structure Signal where
  number : Nat
  /-- Whether the memory of the process was saved. -/
  dumped : Bool := false
deriving DecidableEq, Repr, Inhabited

namespace Signal

/-- The signal that no process can refuse. -/
def kill : Signal := { number := 9 }

/-- The signal that asks a process to end. -/
def terminate : Signal := { number := 15 }

/-- The names of signals, from the first on. -/
def names : List String :=
  ["SIGHUP", "SIGINT", "SIGQUIT", "SIGILL", "SIGTRAP", "SIGABRT", "SIGBUS", "SIGFPE", "SIGKILL",
    "SIGUSR1", "SIGSEGV", "SIGUSR2", "SIGPIPE", "SIGALRM", "SIGTERM", "SIGSTKFLT", "SIGCHLD",
    "SIGCONT", "SIGSTOP", "SIGTSTP", "SIGTTIN", "SIGTTOU", "SIGURG", "SIGXCPU", "SIGXFSZ",
    "SIGVTALRM", "SIGPROF", "SIGWINCH", "SIGIO", "SIGPWR", "SIGSYS"]

/-- The name of a signal, if it has one. -/
def name? (s : Signal) : Option String := if s.number = 0 then none else names[s.number - 1]?

/-- How a signal is told. -/
def text (s : Signal) : String :=
  "signal: " ++ .ofList (Number.digits s.number) ++
    (match s.name? with
      | some name => " (" ++ name ++ ")"
      | none => "") ++
    if s.dumped then " (core dumped)" else ""

end Signal

/-- How a process ended. -/
inductive ExitStatus where
  | code (n : UInt8)
  | signal (s : Signal)
deriving DecidableEq, Repr, Inhabited

namespace ExitStatus

/-- Whether a process ended well. -/
def isSuccess (s : ExitStatus) : Bool := s == code 0

/-- How a status is told. -/
def text : ExitStatus → String
  | code n => "exit status: " ++ .ofList (Number.digits n.toNat)
  | signal s => s.text

end ExitStatus

/-- A child process. -/
structure Child where
  stdout : List UInt8 := []
  stderr : List UInt8 := []
  /-- How it ends; nothing if it does not end by itself. -/
  ending : Option ExitStatus := some (.code 0)
deriving DecidableEq, Repr, Inhabited

/-- A run to the end, or to the limit. -/
structure CommandRun where
  status : ExitStatus
  stdout : String
  stderr : String
  timedOut : Bool
deriving DecidableEq, Repr, Inhabited

namespace CommandRun

/-- Whether a run ended in time and well. -/
def isSuccess (r : CommandRun) : Bool := !r.timedOut && r.status.isSuccess

end CommandRun

/-- The run of a child under a limit. -/
def Child.run (c : Child) : CommandRun where
  status := c.ending.getD (.signal .kill)
  stdout := Text.Utf8.lossyString c.stdout
  stderr := Text.Utf8.lossyString c.stderr
  timedOut := c.ending.isNone

end Postmortem
