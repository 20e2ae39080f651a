import Postmortem.Command.Arguments
import Postmortem.Run.Trace

/-!
# Outcomes of commands

What a command leaves behind: its exit code, what it printed, and the files. The surroundings of a
command are a host and what the environment says of settings.
-/

namespace Postmortem.Command

/-- The surroundings of a command. -/
structure Environment where
  host : Host
  /-- The directory of the user's settings. -/
  configDirectory : String
  /-- The interpreter that the environment sets. -/
  python : Option String

/-- What a command leaves behind. -/
structure Outcome where
  code : UInt8 := 0
  stdout : String := ""
  stderr : String := ""
  files : FileStore
  /-- What the child of a traced run saw. -/
  seen : Option Invocation := none
deriving Inhabited

namespace Outcome

/-- A command that failed, and why. -/
def failed (files : FileStore) (message : String) : Outcome :=
  { code := 1, stderr := "Error: " ++ message ++ "\n", files }

/-- A command that failed because of something else. -/
def failedBy (files : FileStore) (message cause : String) : Outcome :=
  failed files (message ++ "\n\nCaused by:\n    " ++ cause)

/-- A command that met a limit that is too great. -/
def overflowed (files : FileStore) : Outcome :=
  { code := 101, stderr := Duration.Overflow.message .overflow ++ "\n", files }

end Outcome

end Postmortem.Command
