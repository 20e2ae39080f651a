import Postmortem.Json.Record
import Postmortem.Proofs.Json.Codec
import Postmortem.Proofs.Json.Truncation

/-!
# Lawful records

A record is lawful if its fields are: they have different names, each has a lawful codec, and a
value that is not written is the one that a field has when it is absent. So is a tagged record if
its kinds are, and what is not a whole text of one is not taken for one.

## Shape of the argument

Members fill the slots of fields one after the other. A member that is not for the first field
leaves its slot as it is, so the members of the other fields can be followed without it.
-/

namespace Postmortem.Json

namespace Fields

/-! ## Names of fields -/

/-- The names of fields. -/
def names : {αs : List Type} → Fields αs → List String
  | _, .nil => []
  | _, .cons f rest => f.name :: rest.names

/-- Fields that read back what they write. -/
def Lawful (levels : Nat) : {αs : List Type} → Fields αs → Prop
  | _, .nil => True
  | _, .cons f rest => f.codec.Lawful levels ∧
      (∀ v, f.isWritten v = false → f.codec.absent = some v) ∧ f.name ∉ rest.names ∧
      rest.Lawful levels

/-- A field that is always written is lawful if its codec is and no other has its name. -/
theorem lawful_field {levels : Nat} {α : Type} {αs : List Type} {name : String} {c : Codec α}
    {rest : Fields αs} (hcodec : c.Lawful levels) (hname : name ∉ rest.names)
    (hrest : rest.Lawful levels) : (field name c rest).Lawful levels := by
  refine ⟨hcodec, ?_, hname, hrest⟩
  intro v hwritten
  cases hwritten

/-- Members are written for fields alone. -/
theorem name_mem_of_mem_encode {αs : List Type} (fields : Fields αs) (vs : Values αs)
    {m : String × Json} (h : m ∈ fields.encode vs) : m.1 ∈ fields.names := by
  induction fields with
  | nil => exact absurd h List.not_mem_nil
  | cons f rest ih =>
    obtain ⟨v, vs⟩ := vs
    rw [encode] at h
    split at h
    · rcases List.mem_cons.mp h with rfl | h
      · exact List.mem_cons_self
      · exact List.mem_cons_of_mem _ (ih vs h)
    · exact List.mem_cons_of_mem _ (ih vs h)

/-- The values of members can be held. -/
theorem holds_of_mem_encode {levels : Nat} {αs : List Type} {fields : Fields αs}
    (hfields : fields.Lawful levels) (vs : Values αs) {m : String × Json}
    (h : m ∈ fields.encode vs) : Holds levels m.2 := by
  induction fields with
  | nil => exact absurd h List.not_mem_nil
  | cons f rest ih =>
    obtain ⟨v, vs⟩ := vs
    obtain ⟨hcodec, -, -, hrest⟩ := hfields
    rw [encode] at h
    split at h
    · rcases List.mem_cons.mp h with rfl | h
      · exact hcodec.holds_encode v
      · exact ih hrest vs h
    · exact ih hrest vs h

/-! ## Slots -/

/-- The slots of fields once everything that is written has been met. -/
def slotsOf : {αs : List Type} → Fields αs → Values αs → Slots αs
  | _, .nil, _ => ()
  | _, .cons f rest, (v, vs) => (if f.isWritten v then some v else none, rest.slotsOf vs)

/-- A member with a name in full is put in its field, or skipped. -/
theorem putAll_named (s : Setting) {αs : List Type} (fields : Fields αs) (slots : Slots αs)
    (name : String) (d : Draft) (ms : List (Name × Draft)) :
    fields.putAll s slots ((.literal (.ofString name), d) :: ms) =
      (fields.put s name d slots).bind fun
        | some slots => fields.putAll s slots ms
        | none => d.skip.bind fun _ => fields.putAll s slots ms := by
  rfl

/-- A member of another name is not for the first field. -/
theorem put_cons_of_ne (s : Setting) {α : Type} {αs : List Type} {f : Field α} {rest : Fields αs}
    {name : String} (h : f.name ≠ name) (d : Draft) (slot : Option α) (slots : Slots αs) :
    (cons f rest).put s name d (slot, slots) =
      (rest.put s name d slots).map fun slots => slots.map (slot, ·) :=
  if_neg (by simpa using h)

/-- A member of its name is for the first field. -/
theorem put_cons_self (s : Setting) {α : Type} {αs : List Type} (f : Field α) (rest : Fields αs)
    (d : Draft) (slots : Slots αs) :
    (cons f rest).put s f.name d (none, slots) =
      (f.codec.decode s d).map fun v => some (some v, slots) :=
  if_pos (beq_self_eq_true f.name)

/-- Members of other names leave the slot of the first field as it is. -/
theorem putAll_cons_of_ne (s : Setting) {α : Type} {αs : List Type} (f : Field α)
    (rest : Fields αs) (slot : Option α) (slots : Slots αs) {ms : List (String × Json)}
    (h : ∀ m ∈ ms, m.1 ≠ f.name) :
    (cons f rest).putAll s (slot, slots) (draftMembers ms) =
      (rest.putAll s slots (draftMembers ms)).map (slot, ·) := by
  induction ms generalizing slots with
  | nil => rfl
  | cons m ms ih =>
    obtain ⟨name, j⟩ := m
    have hname : f.name ≠ name := fun heq => h (name, j) List.mem_cons_self heq.symm
    have htail (slots : Slots αs) := ih slots fun m' hm' => h m' (List.mem_cons_of_mem _ hm')
    rw [draftMembers, putAll_named, putAll_named, put_cons_of_ne s hname]
    cases rest.put s name j.draft slots with
    | error e => rfl
    | ok found =>
      cases found with
      | some slots' => exact htail slots'
      | none =>
        show j.draft.skip.bind _ = Except.map _ (j.draft.skip.bind _)
        cases j.draft.skip with
        | error e => rfl
        | ok _ => exact htail slots

/-- What is written fills the slots. -/
theorem putAll_encode {levels : Nat} {s : Setting} (hs : s.Admits levels) {αs : List Type}
    (fields : Fields αs) (h : fields.Lawful levels) (vs : Values αs) :
    fields.putAll s (.none αs) (draftMembers (fields.encode vs)) = .ok (fields.slotsOf vs) := by
  induction fields with
  | nil => rfl
  | cons f rest ih =>
    obtain ⟨v, vs⟩ := vs
    obtain ⟨hcodec, -, hname, hrest⟩ := h
    have hother : ∀ m ∈ rest.encode vs, m.1 ≠ f.name := by
      intro m hm heq
      exact hname (heq ▸ rest.name_mem_of_mem_encode vs hm)
    have hslots := ih hrest vs
    rw [encode, slotsOf, Slots.none]
    split
    · rw [draftMembers, putAll_named, put_cons_self, hcodec.decode_encode v s hs]
      show (cons f rest).putAll s (some v, .none _) _ = _
      rw [putAll_cons_of_ne s f rest (some v) _ hother, hslots]
      rfl
    · rw [putAll_cons_of_ne s f rest none _ hother, hslots]
      rfl

/-- Full slots make up the values. -/
theorem complete_slotsOf {levels : Nat} {αs : List Type} (fields : Fields αs)
    (h : fields.Lawful levels) (vs : Values αs) :
    fields.complete (fields.slotsOf vs) = .ok vs := by
  induction fields with
  | nil => rfl
  | cons f rest ih =>
    obtain ⟨v, vs⟩ := vs
    obtain ⟨-, habsent, -, hrest⟩ := h
    rw [slotsOf, complete, ih hrest vs]
    by_cases hwritten : f.isWritten v = true
    · rw [if_pos hwritten]
      rfl
    · rw [if_neg hwritten, Option.none_or, habsent v (by simpa using hwritten)]
      rfl

/-- **Fields are read back from the members that are written for them.** -/
theorem ofMembers_encode {levels : Nat} {s : Setting} (hs : s.Admits levels) {αs : List Type}
    (fields : Fields αs) (h : fields.Lawful levels) (vs : Values αs) :
    fields.ofMembers s (draftMembers (fields.encode vs)) (.ok ()) = .ok vs := by
  rw [ofMembers, putAll_encode hs fields h vs]
  exact complete_slotsOf fields h vs

end Fields

namespace Codec

variable {α : Type}

/-! ## Records -/

/-- Records are lawful if their fields are. -/
theorem lawful_record {levels : Nat} {αs : List Type} {fields : Fields αs}
    (h : fields.Lawful levels) {values : α → Values αs} {ofValues : Values αs → α}
    (hvalues : ∀ v, ofValues (values v) = v) :
    (record fields values ofValues).Lawful (levels + 1) where
  decode_encode v s hs := by
    obtain ⟨s', henter, hs'⟩ := hs.enter
    have hmembers := fields.ofMembers_encode hs' h (values v)
    simp only [record, draft, henter]
    show Except.bind (fields.ofMembers s' _ _) _ = _
    rw [hmembers]
    exact congrArg Except.ok (hvalues v)
  holds_encode v := holds_object fun _ hm => Fields.holds_of_mem_encode h _ hm

end Codec

/-! ## Tagged records -/

/-- A kind reads what is written for its fields. -/
theorem Kind.ofMembers_record {α : Type} {levels : Nat} {αs : List Type} {fields : Fields αs}
    (h : fields.Lawful levels) (tag : String) (ofValues : Values αs → α) (vs : Values αs) :
    (Kind.record tag fields ofValues).ofMembers (draftMembers (fields.encode vs)) =
      .ok (ofValues vs) := by
  have hs : Setting.held.Admits levels := trivial
  show Except.map ofValues (fields.ofMembers .held _ _) = _
  rw [fields.ofMembers_encode hs h vs]
  rfl

/-- Once the kind is known, all other members are held in their order. -/
theorem Kind.holdMembers_found {α : Type} {tagName : String} {kinds : List (Kind α)} {levels : Nat}
    {s : Setting} (hs : s.Admits levels) (kind : Kind α) {ms : List (String × Json)}
    (hnames : ∀ m ∈ ms, m.1 ≠ tagName) (hholds : ∀ m ∈ ms, Holds levels m.2)
    (rest : List (Name × Draft)) :
    Kind.holdMembers tagName kinds s (some kind) rest (draftMembers ms) =
      .ok (some kind, rest.reverse ++ draftMembers ms) := by
  induction ms generalizing rest with
  | nil => rw [draftMembers, holdMembers, List.append_nil]
  | cons m ms ih =>
    obtain ⟨name, j⟩ := m
    have hname : ¬ (name == tagName) = true := by
      rw [beq_iff_eq]
      exact hnames (name, j) List.mem_cons_self
    have htail := ih (fun m' hm' => hnames m' (List.mem_cons_of_mem _ hm'))
      (fun m' hm' => hholds m' (List.mem_cons_of_mem _ hm'))
      ((.literal (.ofString name), j.draft) :: rest)
    rw [List.reverse_cons, List.append_assoc, List.singleton_append] at htail
    rw [draftMembers]
    show (if name == tagName then _ else _) = _
    rw [if_neg hname]
    cases s with
    | held => exact htail
    | direct depth =>
      show (j.draft.hold depth).bind _ = _
      rw [hholds (name, j) List.mem_cons_self depth hs]
      exact htail

/-- The tag tells the kind, and all other members are held. -/
theorem Kind.holdMembers_tag {α : Type} {tagName tag : String} {kinds : List (Kind α)}
    {levels : Nat} {s : Setting} (hs : s.Admits levels) {kind : Kind α}
    (hnamed : Kind.named kinds tag = .ok kind) {ms : List (String × Json)}
    (hnames : ∀ m ∈ ms, m.1 ≠ tagName) (hholds : ∀ m ∈ ms, Holds levels m.2) :
    Kind.holdMembers tagName kinds s none []
        ((.literal (.ofString tagName), .text (.ofString tag)) :: draftMembers ms) =
      .ok (some kind, draftMembers ms) := by
  show (if tagName == tagName then (Kind.named kinds tag).bind _ else _) = _
  rw [if_pos (beq_self_eq_true tagName), hnamed]
  exact Kind.holdMembers_found hs kind hnames hholds []

namespace Codec

variable {α : Type} {tagName : String} {kinds : List (Kind α)} {tagOf : α → String}
  {members : α → List (String × Json)}

/-- Tagged records are lawful if the kind of each reads its members, none of which is the tag. -/
theorem lawful_tagged {levels : Nat}
    (hkinds : ∀ v, ∃ kind, Kind.named kinds (tagOf v) = .ok kind ∧
      kind.ofMembers (draftMembers (members v)) = .ok v)
    (hnames : ∀ v, ∀ m ∈ members v, m.1 ≠ tagName)
    (hholds : ∀ v, ∀ m ∈ members v, Holds levels m.2) :
    (tagged tagName kinds tagOf members).Lawful (levels + 1) where
  decode_encode v s hs := by
    obtain ⟨s', henter, hs'⟩ := hs.enter
    obtain ⟨kind, hnamed, hread⟩ := hkinds v
    have hhold := Kind.holdMembers_tag hs' hnamed (hnames v) (hholds v)
    simp only [tagged, draft, draftMembers, henter]
    show Except.bind (Kind.holdMembers tagName kinds s' none [] _) _ = _
    rw [hhold]
    exact hread
  holds_encode v := by
    apply holds_object
    intro m hm
    rcases List.mem_cons.mp hm with rfl | hm
    · intro depth _
      rfl
    · exact hholds v m hm

/-- What goes on with a fault in any case gives no value. -/
private theorem bind_ne_ok {β γ : Type} {x : Except Fault β} {f : β → Except Fault γ} {v : γ}
    (h : ∀ b, f b ≠ .ok v) : (x >>= f) ≠ .ok v := by
  cases x with
  | error e => exact error_ne_ok _ _
  | ok b => exact h b

/-- What is no whole list and no whole object is no tagged record. -/
theorem decode_tagged_of_unclosed {d : Draft} (hd : d.Unclosed) (s : Setting) (v : α) :
    (tagged tagName kinds tagOf members).decode s d ≠ .ok v := by
  cases d with
  | object ms ending =>
    cases ending with
    | ok u => exact absurd rfl hd
    | error f =>
      exact bind_ne_ok fun s' => bind_ne_ok fun found => error_ne_ok _ _
  | list items ending =>
    cases ending with
    | ok u => exact absurd rfl hd
    | error f =>
      refine bind_ne_ok fun s' => ?_
      cases items with
      | nil => exact error_ne_ok _ _
      | cons first rest =>
        refine bind_ne_ok fun name => bind_ne_ok fun kind => ?_
        cases s' with
        | held => exact error_ne_ok _ _
        | direct depth => exact bind_ne_ok fun _ => error_ne_ok _ _
  | _ => exact error_ne_ok _ _

/-! ## Whole texts -/

/-- **A lawful codec reads a value back from every text of it**, with nothing but a gap behind
it. -/
theorem ofChars_written_gap {c : Codec α} {levels : Nat} (h : c.Lawful levels)
    (hlevels : levels < maxDepth) {v : α} {cs g : List Char}
    (hw : Written (.value (c.encode v)) cs) (hg : Gap g) : c.ofChars (cs ++ g) = .ok v := by
  rw [ofChars, readDocument_written hw hg, h.decode_encode v (.direct maxDepth) hlevels]
  rfl

/-- There may be no gap. -/
theorem ofChars_written {c : Codec α} {levels : Nat} (h : c.Lawful levels)
    (hlevels : levels < maxDepth) {v : α} {cs : List Char}
    (hw : Written (.value (c.encode v)) cs) : c.ofChars cs = .ok v := by
  rw [← List.append_nil cs]
  exact ofChars_written_gap h hlevels hw gap_nil

/-- **No beginning of the text of a tagged record is a tagged record.** -/
theorem ofChars_torn {v w : α} {p q : List Char}
    (hsplit : p ++ q = ((tagged tagName kinds tagOf members).encode v).chars) (hq : q ≠ []) :
    (tagged tagName kinds tagOf members).ofChars p ≠ .ok w := by
  have hopen := readDocument_torn (written_memberChars _) (hsplit.trans (by rw [tagged, chars])) hq
  intro hok
  rw [ofChars] at hok
  cases hdecode : (tagged tagName kinds tagOf members).decode (.direct maxDepth)
      (readDocument p).root with
  | error f =>
    rw [hdecode] at hok
    cases hok
  | ok w' => exact decode_tagged_of_unclosed hopen _ w' hdecode

end Codec

end Postmortem.Json
