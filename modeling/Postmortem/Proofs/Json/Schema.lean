import Postmortem.Proofs.Json.Codec

/-!
# Schemas

What readers of the interchange format may rely on is not the text of a value but its structure: a
record has its fields under their names, wherever they stand and whatever stands among them. A
schema tells where in the values of a type such records are.

## Three relations

`Rearranged` says that a value is another one with the members of its records in a different order,
with members of other names among them, and without some that hold nothing. `Repeats` says that in
some record a field has several members. `IllPlaced` says that at some place stands what is not even
looked at as a value of the type: to its reader it is no value at all.
-/

namespace Postmortem.Json

/-- What the values of a type are made of. -/
inductive Schema where
  /-- A text, a number or a truth value. -/
  | plain
  /-- The name of a choice. -/
  | choice
  /-- A value that may be nothing. -/
  | optional (value : Schema)
  | list (items : Schema)
  /-- A table, whose keys are numbers or any texts. -/
  | table (numbered : Bool) (values : Schema)
  | record (fields : List (String × Schema))
  /-- Records of several kinds, which the member `tag` tells apart. -/
  | tagged (tag : String) (kinds : List (String × List (String × Schema)))

namespace Schema

/-! ## Rearranged values -/

mutual

/-- The same value with its records rearranged. -/
inductive Rearranged : Schema → Json → Json → Prop where
  | plain (j : Json) : Rearranged .plain j j
  | choice (j : Json) : Rearranged .choice j j
  | nothing {s : Schema} : Rearranged (.optional s) .null .null
  | something {s : Schema} {j j' : Json} (hvalue : Rearranged s j j') :
      Rearranged (.optional s) j j'
  | list {s : Schema} {js js' : List Json} (hitems : RearrangedItems s js js') :
      Rearranged (.list s) (.list js) (.list js')
  | table {numbered : Bool} {s : Schema} {ms ms' : List (String × Json)}
      (hentries : RearrangedEntries s ms ms') :
      Rearranged (.table numbered s) (.object ms) (.object ms')
  /-- Members that are no fields may be added, and the order is free. -/
  | record {fs : List (String × Schema)} {ms kept others ms' : List (String × Json)}
      (hkept : Kept fs ms kept) (hothers : ∀ m ∈ others, m.1 ∉ fs.map (·.1))
      (hperm : ms'.Perm (kept ++ others)) : Rearranged (.record fs) (.object ms) (.object ms')
  /-- So it is if there is a tag, which may stand anywhere. -/
  | tagged {tag name : String} {kinds : List (String × List (String × Schema))}
      {fs : List (String × Schema)} {ms kept others ms' : List (String × Json)}
      (hkind : (name, fs) ∈ kinds) (hkept : Kept fs ms kept)
      (hothers : ∀ m ∈ others, m.1 ≠ tag ∧ m.1 ∉ fs.map (·.1))
      (hperm : ms'.Perm ((tag, .text name) :: (kept ++ others))) :
      Rearranged (.tagged tag kinds) (.object ((tag, .text name) :: ms)) (.object ms')

/-- The same items, each rearranged. -/
inductive RearrangedItems : Schema → List Json → List Json → Prop where
  | nil {s : Schema} : RearrangedItems s [] []
  | cons {s : Schema} {j j' : Json} {js js' : List Json} (hitem : Rearranged s j j')
      (hitems : RearrangedItems s js js') : RearrangedItems s (j :: js) (j' :: js')

/-- The same entries with their values rearranged. -/
inductive RearrangedEntries : Schema → List (String × Json) → List (String × Json) → Prop where
  | nil {s : Schema} : RearrangedEntries s [] []
  | cons {s : Schema} {k : String} {j j' : Json} {ms ms' : List (String × Json)}
      (hvalue : Rearranged s j j') (hentries : RearrangedEntries s ms ms') :
      RearrangedEntries s ((k, j) :: ms) ((k, j') :: ms')

/-- Members of fields with their values rearranged, but for some that hold nothing where that need
not be said. -/
inductive Kept : List (String × Schema) → List (String × Json) → List (String × Json) → Prop where
  | nil {fs : List (String × Schema)} : Kept fs [] []
  | keep {fs : List (String × Schema)} {k : String} {s : Schema} {j j' : Json}
      {ms kept : List (String × Json)} (hfield : (k, s) ∈ fs) (hvalue : Rearranged s j j')
      (hkept : Kept fs ms kept) : Kept fs ((k, j) :: ms) ((k, j') :: kept)
  | drop {fs : List (String × Schema)} {k : String} {s : Schema} {ms kept : List (String × Json)}
      (hfield : (k, .optional s) ∈ fs) (hkept : Kept fs ms kept) :
      Kept fs ((k, .null) :: ms) kept

end

/-! ## Repeated fields -/

/-- In some record a field has several members. -/
inductive Repeats : Schema → Json → Prop where
  | optional {s : Schema} {j : Json} (h : Repeats s j) : Repeats (.optional s) j
  | item {s : Schema} {j : Json} {js : List Json} (hj : j ∈ js) (h : Repeats s j) :
      Repeats (.list s) (.list js)
  | entry {numbered : Bool} {s : Schema} {m : String × Json} {ms : List (String × Json)}
      (hm : m ∈ ms) (h : Repeats s m.2) : Repeats (.table numbered s) (.object ms)
  /-- It is a field of this record. -/
  | field {fs : List (String × Schema)} {k : String} {ms : List (String × Json)}
      (hfield : k ∈ fs.map (·.1)) (h : 2 ≤ (ms.map (·.1)).count k) :
      Repeats (.record fs) (.object ms)
  /-- It is a field within the value of a field. -/
  | within {fs : List (String × Schema)} {k : String} {s : Schema} {j : Json}
      {ms : List (String × Json)} (hfield : (k, s) ∈ fs) (hm : (k, j) ∈ ms) (h : Repeats s j) :
      Repeats (.record fs) (.object ms)
  /-- It is the tag. -/
  | tag {tag : String} {kinds : List (String × List (String × Schema))}
      {ms : List (String × Json)} (h : 2 ≤ (ms.map (·.1)).count tag) :
      Repeats (.tagged tag kinds) (.object ms)
  /-- It is a field of the kind that the tag names. -/
  | kind {tag name : String} {kinds : List (String × List (String × Schema))}
      {fs : List (String × Schema)} {ms : List (String × Json)} (hkind : (name, fs) ∈ kinds)
      (htag : (tag, .text name) ∈ ms) (h : Repeats (.record fs) (.object ms)) :
      Repeats (.tagged tag kinds) (.object ms)

/-! ## Ill-placed values -/

/-- At some place stands what is not looked at as a value of the type. In a value that is held
first, that can only be the key of a table. -/
inductive IllPlaced : Bool → Schema → Json → Prop where
  /-- A choice is told by its name, or by an object with a single member. -/
  | choice {j : Json} (htext : ∀ name, j ≠ .text name) (hobject : ∀ m, j ≠ .object [m]) :
      IllPlaced false .choice j
  /-- A key that should be a number is none. -/
  | key {held : Bool} {s : Schema} {m : String × Json} {ms : List (String × Json)} (hm : m ∈ ms)
      (hkey : ∀ n : Numeral, n.inRange = true → m.1.toList ≠ n.chars) :
      IllPlaced held (.table true s) (.object ms)
  /-- A record is given as a list, which goes on after its last field. -/
  | surplus {fs : List (String × Schema)} {js : List Json} (h : fs.length < js.length) :
      IllPlaced false (.record fs) (.list js)
  | optional {held : Bool} {s : Schema} {j : Json} (h : IllPlaced held s j) :
      IllPlaced held (.optional s) j
  | item {held : Bool} {s : Schema} {j : Json} {js : List Json} (hj : j ∈ js)
      (h : IllPlaced held s j) : IllPlaced held (.list s) (.list js)
  | entry {held numbered : Bool} {s : Schema} {m : String × Json} {ms : List (String × Json)}
      (hm : m ∈ ms) (h : IllPlaced held s m.2) : IllPlaced held (.table numbered s) (.object ms)
  /-- Only the first member of a field is looked at. -/
  | field {held : Bool} {fs : List (String × Schema)} {k : String} {s : Schema} {j : Json}
      {ms : List (String × Json)} (hfield : (k, s) ∈ fs) (hfirst : ms.lookup k = some j)
      (h : IllPlaced held s j) : IllPlaced held (.record fs) (.object ms)
  | place {held : Bool} {fs : List (String × Schema)} {k : String} {s : Schema} {j : Json}
      {js : List Json} {i : Nat} (hfield : fs[i]? = some (k, s)) (hj : js[i]? = some j)
      (h : IllPlaced held s j) : IllPlaced held (.record fs) (.list js)
  /-- A tagged record is held before it is read as one of its kind. -/
  | kind {held : Bool} {tag name : String} {kinds : List (String × List (String × Schema))}
      {fs : List (String × Schema)} {ms : List (String × Json)} (hkind : (name, fs) ∈ kinds)
      (htag : (tag, .text name) ∈ ms) (h : IllPlaced true (.record fs) (.object ms)) :
      IllPlaced held (.tagged tag kinds) (.object ms)
  /-- So it is if it is given as a list, which begins with the tag. -/
  | items {held : Bool} {tag name : String} {kinds : List (String × List (String × Schema))}
      {fs : List (String × Schema)} {js : List Json} (hkind : (name, fs) ∈ kinds)
      (h : IllPlaced true (.record fs) (.list js)) :
      IllPlaced held (.tagged tag kinds) (.list (.text name :: js))

end Schema

/-! ## Skipping -/

/-- Items can be skipped if all of them can. -/
theorem skipItems_draftItems {js : List Json} (h : ∀ j ∈ js, j.draft.skip = .ok ()) :
    Draft.skipItems (draftItems js) = .ok () := by
  induction js with
  | nil => rfl
  | cons j js ih =>
    obtain ⟨hhead, htail⟩ := List.forall_mem_cons.mp h
    rw [draftItems, Draft.skipItems, hhead]
    exact ih htail

/-- Members can be skipped if their values can. -/
theorem skipMembers_draftMembers {ms : List (String × Json)}
    (h : ∀ m ∈ ms, m.2.draft.skip = .ok ()) : Draft.skipMembers (draftMembers ms) = .ok () := by
  induction ms with
  | nil => rfl
  | cons m ms ih =>
    obtain ⟨hhead, htail⟩ := List.forall_mem_cons.mp h
    rw [draftMembers, Draft.skipMembers, hhead]
    exact ih htail

/-! ## Moderate values -/

/-- A value whose numbers are in range, and in which lists and objects are nested at most `levels`
deep. -/
inductive Within : Nat → Json → Prop where
  | null {levels : Nat} : Within levels .null
  | flag {levels : Nat} (b : Bool) : Within levels (.flag b)
  | number {levels : Nat} {n : Numeral} (hrange : n.inRange = true) : Within levels (.number n)
  | text {levels : Nat} (s : String) : Within levels (.text s)
  | list {levels : Nat} {js : List Json} (hitems : ∀ j ∈ js, Within levels j) :
      Within (levels + 1) (.list js)
  | object {levels : Nat} {ms : List (String × Json)} (hmembers : ∀ m ∈ ms, Within levels m.2) :
      Within (levels + 1) (.object ms)

namespace Within

variable {levels : Nat} {j : Json}

/-- A moderate value can be held. -/
theorem holds (h : Within levels j) : Holds levels j := by
  induction h with
  | number hrange =>
    intro depth _
    rw [draft, if_pos hrange]
    rfl
  | list _ ih => exact holds_list ih
  | object _ ih => exact holds_object ih
  | _ => exact fun _ _ => rfl

/-- A moderate value can be skipped. -/
theorem skip (h : Within levels j) : j.draft.skip = .ok () := by
  induction h with
  | list _ ih =>
    rw [draft, Draft.skip, skipItems_draftItems ih]
    rfl
  | object _ ih =>
    rw [draft, Draft.skip, skipMembers_draftMembers ih]
    rfl
  | _ => rfl

/-- A moderate value of another shape is a mismatch. -/
theorem misfit (h : Within levels j) : j.draft.misfit = .mismatch := by
  cases h with
  | number hrange =>
    rw [draft, if_pos hrange]
    rfl
  | _ => rfl

/-- The items of a moderate list are moderate. -/
theorem of_list {js : List Json} (h : Within levels (.list js)) :
    ∃ inner, levels = inner + 1 ∧ ∀ j ∈ js, Within inner j := by
  cases h with
  | list hitems => exact ⟨_, rfl, hitems⟩

/-- So are the members of a moderate object. -/
theorem of_object {ms : List (String × Json)} (h : Within levels (.object ms)) :
    ∃ inner, levels = inner + 1 ∧ ∀ m ∈ ms, Within inner m.2 := by
  cases h with
  | object hmembers => exact ⟨_, rfl, hmembers⟩

end Within

end Postmortem.Json
