import Postmortem.Json.Record

/-!
# Requests to a probe

What the probe is told before the program runs: how to start it, and which names to look up on which
lines.
-/

namespace Postmortem

open Json (Codec Fields Field Kind KeyCodec)

/-- How the program is started. -/
inductive Launch where
  /-- The module is loaded and a function in it is called. -/
  | entryPoint (name : String)
  /-- The file is run as the main program. -/
  | script
deriving DecidableEq, Repr

namespace Launch

instance : Inhabited Launch := ⟨entryPoint "main"⟩

/-- The fields of a launch with an entry point. -/
def entryFields : Fields [String] := .field "name" .text .nil

/-- The tag of a launch. -/
def tag : Launch → String
  | entryPoint _ => "entry_point"
  | script => "script"

/-- The kinds of launches. -/
def kinds : List (Kind Launch) :=
  [.record "entry_point" entryFields fun (name, ()) => entryPoint name, .unit "script" script]

/-- The fields of a launch as members. -/
def members : Launch → List (String × Json)
  | entryPoint name => entryFields.encode (name, ())
  | script => []

/-- How launches are written. -/
def codec : Codec Launch := .tagged "mode" kinds tag members

end Launch

/-- A request. -/
structure ProbeRequest where
  module : String
  script : String
  basename : String
  launch : Launch
  args : List String
  suppressStdout : Bool
  /-- The names to look up, by line. -/
  lines : Table UInt64 (List String)
deriving DecidableEq, Repr, Inhabited

namespace ProbeRequest

/-- The fields of a request. -/
def fields : Fields [String, String, String, Launch, List String, Bool,
    Table UInt64 (List String)] :=
  .field "module" .text <| .field "script" .text <| .field "basename" .text <|
    .field "launch" Launch.codec <| .field "args" (.list .text) <|
    .field "suppress_stdout" .flag <| .field "lines" (.table .word (.list .text)) .nil

/-- How requests are written. -/
def codec : Codec ProbeRequest :=
  .record fields
    (fun r => (r.module, r.script, r.basename, r.launch, r.args, r.suppressStdout, r.lines, ()))
    fun (module, script, basename, launch, args, suppressStdout, lines, ()) =>
      ⟨module, script, basename, launch, args, suppressStdout, lines⟩

end ProbeRequest

end Postmortem
