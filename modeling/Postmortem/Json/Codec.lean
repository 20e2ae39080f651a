import Postmortem.Collections.Table
import Postmortem.Json.Reader

/-!
# Codecs

A codec says how the values of a type are written, and reads them back from drafts. Reading looks at
the parts of a draft in the order of the text and stops at the first fault, which is either in the
text or a shape that the type does not have.

## Direct and held values

Most values are read while their text is. Where the type depends on a member that may come last, all
of the value is held first; then nothing but its shape can be wrong.
-/

namespace Postmortem.Json

/-- How a draft is read. -/
inductive Setting where
  /-- While its text is; lists and objects may be nested `depth - 1` deep. -/
  | direct (depth : Nat)
  /-- After it has been held. -/
  | held
deriving DecidableEq, Repr

/-- The setting within a list or an object. -/
def Setting.enter : Setting → Except Fault Setting
  | direct depth => if depth ≤ 1 then .error .malformed else .ok (direct (depth - 1))
  | held => .ok held

/-- The fault of a part that must not be there. Directly it is met where the end should be. -/
def Setting.surplus : Setting → Fault
  | direct _ => .malformed
  | held => .mismatch

/-- How the values of a type are written and read. -/
structure Codec (α : Type) where
  encode : α → Json
  decode : Setting → Draft → Except Fault α
  /-- The value of a member that is not there, if it need not be. -/
  absent : Option α := none

/-! ## Keys of tables -/

/-- How the keys of a table are written and read. -/
structure KeyCodec (α : Type) where
  encode : α → String
  decode : Setting → Name → Except Fault α

namespace KeyCodec

/-- Texts as keys. -/
def text : KeyCodec String where
  encode k := k
  decode _ name := match name with
    | .literal l => l.reading
    | .other f _ => .error f

/-- A number within quotes: it begins with a digit or a sign right after the opening quote, and the
closing quote comes right after it. -/
def wordWithin (written : List Char) : Except Fault UInt64 :=
  match written with
  | c :: _ =>
    if c == '-' || Number.isDigit c then
      match (readValue 1 written) with
      | (.number (.ok n) _, some rest) =>
        match n.word?, rest with
        | none, _ => .error .mismatch
        | some w, '"' :: _ => .ok w
        | some _, _ => .error .malformed
      | (d, _) => .error d.misfit
    else .error .malformed
  | [] => .error .malformed

/-- Natural numbers of 64 bits as keys. -/
def word : KeyCodec UInt64 where
  encode n := .ofList (Number.digits n.toNat)
  decode _ name := match name with
    | .literal l => wordWithin l.written
    | .other f _ => .error f

end KeyCodec

namespace Codec

/-- How deep lists and objects may be nested, and one more. -/
def maxDepth : Nat := 128

variable {α β : Type}

/-- Reads a value that makes up a whole text. -/
def ofChars (c : Codec α) (cs : List Char) : Except Fault α :=
  let doc := readDocument cs
  (c.decode (.direct maxDepth) doc.root).bind fun v =>
    if doc.trailing then .error .malformed else .ok v

/-- Reads a value that makes up a whole text. -/
def ofText (c : Codec α) (s : String) : Except Fault α := c.ofChars s.toList

/-- Writes a value without blanks. -/
def toText (c : Codec α) (v : α) : String := (c.encode v).compact

/-! ## Single values -/

/-- Texts. -/
def text : Codec String where
  encode := .text
  decode _ d := match d with
    | .text l => l.reading
    | d => .error d.misfit

/-- Truth values. -/
def flag : Codec Bool where
  encode := .flag
  decode _ d := match d with
    | .flag b => .ok b
    | d => .error d.misfit

/-- Natural numbers of 64 bits. -/
def word : Codec UInt64 where
  encode := .word
  decode _ d := match d with
    | .number (.ok n) _ =>
      match n.word? with
      | some w => .ok w
      | none => .error .mismatch
    | d => .error d.misfit

/-- Values that may be nothing. -/
def optional (c : Codec α) : Codec (Option α) where
  encode
    | none => .null
    | some v => c.encode v
  decode s d := match d with
    | .null => .ok none
    | d => (c.decode s d).map some
  absent := some none

/-- Values of a type that is another one under a new name. -/
def via (c : Codec α) (toOther : β → α) (ofOther : α → β) : Codec β where
  encode v := c.encode (toOther v)
  decode s d := (c.decode s d).map ofOther
  absent := c.absent.map ofOther

/-! ## Lists -/

/-- Reads items in order. -/
def decodeItems (c : Codec α) (s : Setting) : List Draft → Except Fault (List α)
  | [] => .ok []
  | d :: ds => do
    let v ← c.decode s d
    let vs ← decodeItems c s ds
    return v :: vs

/-- Lists. -/
def list (c : Codec α) : Codec (List α) where
  encode vs := .list (vs.map c.encode)
  decode s d := match d with
    | .list items ending => do
      let vs ← c.decodeItems (← s.enter) items
      ending
      return vs
    | d => .error d.misfit

/-! ## Tables -/

/-- Reads the entries of a table into it, in order. -/
def decodeEntries [Key α] (k : KeyCodec α) (c : Codec β) (s : Setting) (t : Table α β) :
    List (Name × Draft) → Except Fault (Table α β)
  | [] => .ok t
  | (name, d) :: ms => do
    let key ← k.decode s name
    let v ← c.decode s d
    decodeEntries k c s (t.insert key v) ms

/-- Tables. Of several entries with one key the last counts. -/
def table [Key α] (k : KeyCodec α) (c : Codec β) : Codec (Table α β) where
  encode t := .object (t.entries.map fun e => (k.encode e.1, c.encode e.2))
  decode s d := match d with
    | .object members ending => do
      let t ← decodeEntries k c (← s.enter) .empty members
      ending
      return t
    | d => .error d.misfit

/-! ## Choices -/

/-- The choice that has a name. -/
def choiceNamed (choices : List (String × α)) (name : String) : Except Fault α :=
  match choices.find? (·.1 == name) with
  | some e => .ok e.2
  | none => .error .mismatch

/-- Reads the name of a choice where an object names it. -/
def choiceName : Name → Except Fault String
  | .literal l => l.reading
  | .other _ unwanted => .error unwanted

/-- Reads the content of a choice, which has none. -/
def noContent (s : Setting) : Draft → Except Fault Unit
  | .null => .ok ()
  | .object [] (.ok ()) => if s == .held then .ok () else .error .mismatch
  | d => .error d.misfit

/-- One of several choices: its name, or an object with the name and nothing for it. -/
def choice (choices : List (String × α)) (nameOf : α → String) : Codec α where
  encode v := .text (nameOf v)
  decode s d := match d with
    | .text l => do choiceNamed choices (← l.reading)
    | .object members ending => do
      let s ← s.enter
      match members with
      | [] => do
        ending
        .error s.surplus
      | (name, content) :: others =>
        -- what is held is known to have a single member before it is looked at
        if s == .held && !others.isEmpty then .error .mismatch else do
          let v ← choiceNamed choices (← choiceName name)
          noContent s content
          if others.isEmpty then ending else .error s.surplus
          return v
    | .missing f => .error f
    | _ => .error s.surplus

end Codec

end Postmortem.Json
