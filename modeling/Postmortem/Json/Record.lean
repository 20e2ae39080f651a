import Postmortem.Json.Codec

/-!
# Records

Values with named fields. A record is written as an object with the fields in their order. It may be
read from an object with the fields in any order, among other members, or from a list of the fields
in their order.

## Tagged records

Several kinds of records can share a type; a member names the kind. Since that member may come last,
the record is held before its fields are read.
-/

namespace Postmortem.Json

/-- A field. -/
structure Field (α : Type) where
  name : String
  codec : Codec α
  /-- The value of a field beyond the end of a list, if it may be. -/
  beyond : Option α := none
  /-- Whether the field is written. -/
  isWritten : α → Bool := fun _ => true

/-- The fields of a record, in order. -/
inductive Fields : List Type → Type 1 where
  | nil : Fields []
  | cons {α : Type} {αs : List Type} (field : Field α) (rest : Fields αs) : Fields (α :: αs)

/-- The values of the fields of a record. -/
abbrev Values : List Type → Type
  | [] => Unit
  | α :: αs => α × Values αs

/-- The values of the fields that have been met so far. -/
abbrev Slots : List Type → Type
  | [] => Unit
  | α :: αs => Option α × Slots αs

/-- No field has been met. -/
def Slots.none : (αs : List Type) → Slots αs
  | [] => ()
  | _ :: αs => (Option.none, Slots.none αs)

namespace Fields

/-- One field more in front. -/
def field {α : Type} {αs : List Type} (name : String) (codec : Codec α) (rest : Fields αs) :
    Fields (α :: αs) :=
  cons { name, codec } rest

/-- The fields as members. -/
def encode : {αs : List Type} → Fields αs → Values αs → List (String × Json)
  | _, .nil, _ => []
  | _, .cons f rest, (v, vs) =>
    if f.isWritten v then (f.name, f.codec.encode v) :: rest.encode vs else rest.encode vs

/-- Reads a member into the field of its name, if there is one; a field must not be repeated. -/
def put (s : Setting) (name : String) (d : Draft) :
    {αs : List Type} → Fields αs → Slots αs → Except Fault (Option (Slots αs))
  | _, .nil, _ => .ok .none
  | _, .cons f rest, (slot, slots) =>
    if f.name == name then
      match slot with
      | some _ => .error .mismatch
      | .none => (f.codec.decode s d).map fun v => some (some v, slots)
    else (rest.put s name d slots).map fun slots => slots.map (slot, ·)

/-- Reads members in order, and skips those that are no fields. -/
def putAll (s : Setting) {αs : List Type} (fields : Fields αs) (slots : Slots αs) :
    List (Name × Draft) → Except Fault (Slots αs)
  | [] => .ok slots
  | (.other f _, _) :: _ => .error f
  | (.literal l, d) :: ms => do
    let name ← l.reading
    match ← fields.put s name d slots with
    | some slots => fields.putAll s slots ms
    | .none => do
      d.skip
      fields.putAll s slots ms

/-- The values of all fields, with those that are absent. -/
def complete : {αs : List Type} → Fields αs → Slots αs → Except Fault (Values αs)
  | _, .nil, _ => .ok ()
  | _, .cons f rest, (slot, slots) =>
    match slot.or f.codec.absent with
    | some v => (rest.complete slots).map (v, ·)
    | .none => .error .mismatch

/-- Reads the fields from members. -/
def ofMembers (s : Setting) {αs : List Type} (fields : Fields αs) (members : List (Name × Draft))
    (ending : Except Fault Unit) : Except Fault (Values αs) := do
  let slots ← fields.putAll s (.none αs) members
  ending
  fields.complete slots

/-- Reads the fields from items. -/
def ofItems (s : Setting) :
    {αs : List Type} → Fields αs → List Draft → Except Fault Unit → Except Fault (Values αs)
  | _, .nil, items, ending => do
    if items.isEmpty then ending else .error s.surplus
  | _, .cons f rest, d :: items, ending => do
    let v ← f.codec.decode s d
    let vs ← rest.ofItems s items ending
    return (v, vs)
  | _, .cons f rest, [], ending => do
    ending
    match f.beyond with
    | some v => (rest.ofItems s [] ending).map (v, ·)
    | .none => .error .mismatch

end Fields

namespace Codec

variable {α : Type}

/-- Records: their fields, the values of those, and the record that has such values. -/
def record {αs : List Type} (fields : Fields αs) (values : α → Values αs)
    (ofValues : Values αs → α) : Codec α where
  encode v := .object (fields.encode (values v))
  decode s d := match d with
    | .object members ending => do
      return ofValues (← fields.ofMembers (← s.enter) members ending)
    | .list items ending => do
      return ofValues (← fields.ofItems (← s.enter) items ending)
    | d => .error d.misfit

end Codec

/-! ## Tagged records -/

/-- A kind of record: how its members are read once they are held. -/
structure Kind (α : Type) where
  tag : String
  ofMembers : List (Name × Draft) → Except Fault α
  ofItems : List Draft → Except Fault α

namespace Kind

variable {α : Type}

/-- A kind with fields. -/
def record {αs : List Type} (tag : String) (fields : Fields αs) (ofValues : Values αs → α) :
    Kind α where
  tag := tag
  ofMembers ms := (fields.ofMembers .held ms (.ok ())).map ofValues
  ofItems ds := (fields.ofItems .held ds (.ok ())).map ofValues

/-- A kind without fields. -/
def unit (tag : String) (v : α) : Kind α where
  tag := tag
  ofMembers _ := .ok v
  ofItems ds := if ds.isEmpty then .ok v else .error .mismatch

/-- The kind with a tag. -/
def named (kinds : List (Kind α)) (tag : String) : Except Fault (Kind α) :=
  match kinds.find? (·.tag == tag) with
  | some k => .ok k
  | none => .error .mismatch

/-- Holds members in order, but for the tag, whose kind is looked up at once. -/
def holdMembers (tagName : String) (kinds : List (Kind α)) (s : Setting)
    (found : Option (Kind α)) (rest : List (Name × Draft)) :
    List (Name × Draft) → Except Fault (Option (Kind α) × List (Name × Draft))
  | [] => .ok (found, rest.reverse)
  | (.other f _, _) :: _ => .error f
  | (.literal l, d) :: ms => do
    let name ← l.reading
    if name == tagName then
      if found.isSome then .error .mismatch else
        let kind ← named kinds (← Codec.text.decode s d)
        holdMembers tagName kinds s (some kind) rest ms
    else do
      match s with
      | .direct depth => d.hold depth
      | .held => pure ()
      holdMembers tagName kinds s found ((.literal l, d) :: rest) ms

end Kind

namespace Codec

variable {α : Type}

/-- Records of several kinds, which the member `tagName` tells apart. -/
def tagged (tagName : String) (kinds : List (Kind α)) (tagOf : α → String)
    (members : α → List (String × Json)) : Codec α where
  encode v := .object ((tagName, .text (tagOf v)) :: members v)
  decode s d := match d with
    | .object ms ending => do
      let (found, rest) ← Kind.holdMembers tagName kinds (← s.enter) .none [] ms
      ending
      match found with
      | some kind => kind.ofMembers rest
      | .none => .error .mismatch
    | .list items ending => do
      let s ← s.enter
      match items with
      | [] => do
        ending
        .error .mismatch
      | first :: rest => do
        let kind ← Kind.named kinds (← text.decode s first)
        match s with
        | .direct depth => Draft.holdItems depth rest
        | .held => pure ()
        ending
        kind.ofItems rest
    | d => .error d.misfit

end Codec

end Postmortem.Json
