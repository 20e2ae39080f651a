import Postmortem.Files.Store
import Postmortem.Text.Lines

/-!
# Targets

What is to be run: a module, named by segments with points between them, or a script, named by its
path. The segments of a module lead to its file from a root directory, and never out of it.
-/

namespace Postmortem

/-- What is to be run. -/
structure Target where
  module : String
  /-- The path of its source. -/
  source : String
  /-- The directory in which it runs. -/
  directory : String
  /-- The name of its source file. -/
  basename : String
deriving DecidableEq, Repr, Inhabited

/-- Why there is no target. -/
inductive TargetError where
  | invalidModule (module : String)
  | unresolved (script : String) (cause : FileError)
deriving DecidableEq, Repr, Inhabited

/-- How an error is told. -/
def TargetError.message : TargetError → String
  | invalidModule module => "Invalid module identifier '" ++ module ++ "'"
  | unresolved script cause => "Failed to resolve script '" ++ script ++ "': " ++ cause.message

namespace Target

/-- The extension of source files. -/
def sourceExtension : String := ".py"

/-- Whether a character may stand in a segment. -/
def isSegmentChar (c : Char) : Bool :=
  ('a'.toNat ≤ c.toNat && c.toNat ≤ 'z'.toNat) || ('A'.toNat ≤ c.toNat && c.toNat ≤ 'Z'.toNat) ||
    ('0'.toNat ≤ c.toNat && c.toNat ≤ '9'.toNat) || c == '_'

/-- Whether a text is a segment. -/
def isSegment (segment : List Char) : Bool := !segment.isEmpty && segment.all isSegmentChar

/-- The segments of a module: the parts between points. -/
def segments (module : List Char) : List (List Char) := Text.splitAt '.' module

/-- The path of the source of a module under a root. -/
def modulePath (root module : String) : Except TargetError String :=
  let parts := segments module.toList
  if parts.all isSegment then
    .ok (parts.foldl (fun path part => Path.join path (.ofList part)) root ++ sourceExtension)
  else .error (.invalidModule module)

/-- The target of a module under a root. -/
def ofModule (root module : String) : Except TargetError Target := do
  let source ← modulePath root module
  let basename := (segments module.toList).getLast?.getD []
  return ⟨module, source, root, .ofList basename ++ sourceExtension⟩

/-- The target of a script. -/
def ofScript (files : FileStore) (directory : List String) (script : String) :
    Except TargetError Target :=
  match files.find directory script with
  | .error cause => .error (.unresolved script cause)
  | .ok (place, _) =>
    let source := Path.ofParts place.reverse
    match place with
    | [] => .ok ⟨"", source, ".", ""⟩
    | name :: above => .ok ⟨Path.stem name, source, Path.ofParts above.reverse, name⟩

end Target

end Postmortem
