import Postmortem.Files.Store
import Postmortem.Json.Account
import Postmortem.Json.Codec
import Postmortem.Number.Digits

/-!
# Test cases

A bundle of tests is a map from names to lists of texts. The inputs and the expected outputs of a
split are two lists of it, and the cases of the split are the pairs at equal places.
-/

namespace Postmortem

open Json (Codec)

/-- A part of a bundle. -/
inductive TestSplit where
  | «public»
  | «private»
  | extra
deriving DecidableEq, Repr

/-- A bundle. -/
abbrev TestBundle := Table String (List String)

/-- A test case. -/
structure TestCase where
  input : String
  expected : String
deriving DecidableEq, Repr, Inhabited

/-- Why there are no test cases. -/
inductive CaseError where
  | unknownSplit (name : String)
  | noEntry (key : String)
  | unequal (split : String) (inputs outputs : Nat)
deriving DecidableEq, Repr

/-- A number as text. -/
def CaseError.count (n : Nat) : String := .ofList (Number.digits n)

/-- How an error is told. -/
def CaseError.message : CaseError → String
  | unknownSplit name =>
    "Unknown test split '" ++ name ++ "' (expected public, private, or extra)"
  | noEntry key => "Test cases have no '" ++ key ++ "' entry"
  | unequal split inputs outputs =>
    "Split '" ++ split ++ "' has " ++ count inputs ++ " inputs but " ++ count outputs ++ " outputs"

namespace TestSplit

instance : Inhabited TestSplit := ⟨«public»⟩

/-- The name of a split. -/
def name : TestSplit → String
  | «public» => "public"
  | «private» => "private"
  | extra => "extra"

/-- All splits by name. -/
def choices : List (String × TestSplit) := [«public», «private», extra].map fun s => (s.name, s)

/-- The split with a name. -/
def ofName (name : String) : Except CaseError TestSplit :=
  match choices.find? (·.1 == name) with
  | some e => .ok e.2
  | none => .error (.unknownSplit name)

/-- How splits are written. -/
def codec : Codec TestSplit := .choice choices name

end TestSplit

namespace TestBundle

/-- How bundles are written. -/
def codec : Codec TestBundle := .table .text (.list .text)

/-- The shape of bundles. -/
def shape : Json.Shape := .table (.list .text)

/-- Why a file gives no bundle. -/
inductive BundleError where
  | unreadable (path : String) (cause : FileError)
  /-- It is no bundle; gives an account of why. -/
  | invalid (path : String) (account : String)
deriving DecidableEq, Repr, Inhabited

/-- How an error is told. -/
def BundleError.message : BundleError → String
  | unreadable path _ => "Failed to read test cases '" ++ path ++ "'"
  | invalid path _ => "Failed to parse test cases '" ++ path ++ "'"

/-- The cause of an error. -/
def BundleError.cause : BundleError → String
  | unreadable _ cause => cause.message
  | invalid _ account => account

/-- The bundle in a file. -/
def ofFile (files : FileStore) (directory : List String) (path : String) :
    Except BundleError TestBundle :=
  match files.readText directory path with
  | .error cause => .error (.unreadable path cause)
  | .ok text =>
    match codec.ofText text with
    | .ok b => .ok b
    | .error _ => .error (.invalid path ((Json.Account.ofText shape text.toList).getD ""))

/-- A list of a bundle. -/
def group (b : TestBundle) (key : String) : Except CaseError (List String) :=
  match b.get? key with
  | some l => .ok l
  | none => .error (.noEntry key)

/-- The cases of a split. -/
def cases (b : TestBundle) (split : TestSplit) : Except CaseError (List TestCase) := do
  let inputs ← b.group (split.name ++ "_input")
  let outputs ← b.group (split.name ++ "_output")
  if inputs.length != outputs.length then
    .error (.unequal split.name inputs.length outputs.length)
  else .ok (inputs.zipWith TestCase.mk outputs)

end TestBundle

end Postmortem
