import Postmortem.Json.Record

/-!
# Messages of a probe

What the probe within a running program reports: before a line runs, the values of the names that
the line reads, and at the end how the program ended. Messages are objects in which the member
`event` tells the two apart.
-/

namespace Postmortem

open Json (Codec Fields Field Kind KeyCodec)

/-- What a looked-up name stands for. -/
inductive ValueKind where
  /-- A value of the program. -/
  | data
  /-- A module. -/
  | scope
  | type
  | callable
deriving DecidableEq, Repr, Inhabited

namespace ValueKind

/-- Whether a value is part of the state of the program. Modules, types and functions are not. -/
def isState (k : ValueKind) : Bool := k == data

/-- The name of a kind. -/
def name : ValueKind → String
  | data => "data"
  | scope => "namespace"
  | type => "type"
  | callable => "callable"

/-- All kinds by name. -/
def choices : List (String × ValueKind) := [data, scope, type, callable].map fun k => (k.name, k)

/-- How kinds are written. -/
def codec : Codec ValueKind := .choice choices name

end ValueKind

/-- What the probe found for a name. -/
structure ProbedValue where
  kind : ValueKind
  /-- The text of the value, if it has one. -/
  text : Option String
deriving DecidableEq, Repr, Inhabited

namespace ProbedValue

/-- The fields of a value. -/
def fields : Fields [ValueKind, Option String] :=
  .field "kind" ValueKind.codec <|
    .cons { name := "text", codec := .optional .text, beyond := some none } .nil

/-- How values are written. -/
def codec : Codec ProbedValue :=
  .record fields (fun v => (v.kind, v.text, ())) fun (kind, text, ()) => ⟨kind, text⟩

end ProbedValue

/-- The values of names. -/
abbrev ProbedValues := Table String ProbedValue

/-- How the values of names are written. -/
def ProbedValues.codec : Codec ProbedValues := .table .text ProbedValue.codec

/-- How a program ended. -/
structure ExitReport where
  hasError : Bool
  traceback : String
deriving DecidableEq, Repr, Inhabited

/-- A message of the probe. -/
inductive ProbeEvent where
  /-- A line is about to run. -/
  | line (number : UInt64) (values : ProbedValues)
  | exit (report : ExitReport)
deriving DecidableEq, Repr, Inhabited

namespace ProbeEvent

/-- The fields of a line message. -/
def lineFields : Fields [UInt64, ProbedValues] :=
  .field "line" .word <| .field "values" ProbedValues.codec .nil

/-- The fields of an exit message. -/
def exitFields : Fields [Bool, String] :=
  .field "has_error" .flag <| .field "traceback" .text .nil

/-- The tag of a message. -/
def tag : ProbeEvent → String
  | line .. => "line"
  | exit .. => "exit"

/-- The kinds of messages. -/
def kinds : List (Kind ProbeEvent) :=
  [.record "line" lineFields fun (number, values, ()) => line number values,
    .record "exit" exitFields fun (hasError, traceback, ()) => exit ⟨hasError, traceback⟩]

/-- The fields of a message as members. -/
def members : ProbeEvent → List (String × Json)
  | line number values => lineFields.encode (number, values, ())
  | exit r => exitFields.encode (r.hasError, r.traceback, ())

/-- How messages are written. -/
def codec : Codec ProbeEvent := .tagged "event" kinds tag members

end ProbeEvent

end Postmortem
