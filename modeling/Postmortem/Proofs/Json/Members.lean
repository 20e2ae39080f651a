import Postmortem.Proofs.Json.Record
import Postmortem.Proofs.Json.Schema

/-!
# Members in any order

The members of a record are taken one after the other, each into the slot of its field. Two of them
that can be taken one after the other can also be taken the other way round, so their order makes no
difference, and two of one name cannot both be taken.
-/

namespace Postmortem.Json

/-- Going on after a value has been read. -/
theorem bind_eq_ok_iff {α β : Type} {x : Except Fault α} {f : α → Except Fault β} {w : β} :
    x.bind f = .ok w ↔ ∃ v, x = .ok v ∧ f v = .ok w := by
  cases x with
  | error e => simp [Except.bind]
  | ok v => simp [Except.bind]

/-- Putting something around a value that has been read. -/
theorem map_eq_ok_iff {α β : Type} {x : Except Fault α} {f : α → β} {w : β} :
    x.map f = .ok w ↔ ∃ v, x = .ok v ∧ f v = w := by
  cases x with
  | error e => simp [Except.map]
  | ok v => simp [Except.map]

/-! ## Answers -/

/-- What comes of reading a value that is written in full: it is read, or it is a mismatch. -/
def IsAnswer {α : Type} (r : Except Fault α) : Prop := ∀ f, r = .error f → f = .mismatch

theorem isAnswer_ok {α : Type} (v : α) : IsAnswer (.ok v) := by
  intro f h
  cases h

theorem isAnswer_mismatch {α : Type} : IsAnswer (.error .mismatch : Except Fault α) := by
  intro f h
  cases h
  rfl

/-- An answer that is no value is a mismatch. -/
theorem IsAnswer.eq_mismatch {α : Type} {r : Except Fault α} (h : IsAnswer r)
    (hnone : ∀ v, r ≠ .ok v) : r = .error .mismatch := by
  cases r with
  | error f => rw [h f rfl]
  | ok v => exact absurd rfl (hnone v)

/-- Going on after an answer gives an answer if it does so after every value. -/
theorem IsAnswer.bind {α β : Type} {x : Except Fault α} {f : α → Except Fault β} (hx : IsAnswer x)
    (hf : ∀ v, x = .ok v → IsAnswer (f v)) : IsAnswer (x.bind f) := by
  cases x with
  | error e =>
    rw [hx e rfl]
    exact isAnswer_mismatch
  | ok v => exact hf v rfl

theorem IsAnswer.map {α β : Type} {x : Except Fault α} (hx : IsAnswer x) (f : α → β) :
    IsAnswer (x.map f) := by
  cases x with
  | error e =>
    rw [hx e rfl]
    exact isAnswer_mismatch
  | ok v => exact isAnswer_ok (f v)

namespace Fields

/-! ## Taking a member -/

/-- The slots after a member has been taken; one that is for no field leaves them as they are. -/
def take (s : Setting) {αs : List Type} (fields : Fields αs) (slots : Slots αs)
    (m : String × Json) : Except Fault (Slots αs) :=
  (fields.put s m.1 m.2.draft slots).map fun found => found.getD slots

/-- A member of another name is not for the first field. -/
theorem take_cons_of_ne (s : Setting) {α : Type} {αs : List Type} {f : Field α}
    {rest : Fields αs} {m : String × Json} (h : f.name ≠ m.1) (slot : Option α)
    (slots : Slots αs) :
    (cons f rest).take s (slot, slots) m = (rest.take s slots m).map (slot, ·) := by
  rw [take, put_cons_of_ne s h, take]
  cases rest.put s m.1 m.2.draft slots with
  | error e => rfl
  | ok found => cases found <;> rfl

/-- A second member of its name is too much for the first field. -/
theorem take_cons_again (s : Setting) {α : Type} {αs : List Type} {f : Field α}
    {rest : Fields αs} {m : String × Json} (h : f.name = m.1) (v : α) (slots : Slots αs) :
    (cons f rest).take s (some v, slots) m = .error .mismatch := by
  have hput : (cons f rest).put s m.1 m.2.draft (some v, slots) = .error .mismatch :=
    if_pos (by simpa using h)
  rw [take, hput]
  rfl

/-- What taking a member can do: fill the empty slot of the first field, or a later one. -/
theorem take_cons_eq_ok_iff {s : Setting} {α : Type} {αs : List Type} {f : Field α}
    {rest : Fields αs} {slot : Option α} {slots : Slots αs} {m : String × Json}
    {after : Slots (α :: αs)} :
    (cons f rest).take s (slot, slots) m = .ok after ↔
      (f.name = m.1 ∧ slot = none ∧ ∃ v, f.codec.decode s m.2.draft = .ok v ∧
          after = (some v, slots)) ∨
        f.name ≠ m.1 ∧ ∃ slots', rest.take s slots m = .ok slots' ∧ after = (slot, slots') := by
  by_cases hname : f.name = m.1
  · cases slot with
    | some w =>
      rw [take_cons_again s hname]
      simp [hname]
    | none =>
      rw [take, ← hname, put_cons_self]
      simp only [true_and, ne_eq, not_true_eq_false, false_and, or_false, map_eq_ok_iff]
      constructor
      · rintro ⟨found, ⟨v, hv, rfl⟩, rfl⟩
        exact ⟨v, hv, rfl⟩
      · rintro ⟨v, hv, rfl⟩
        exact ⟨_, ⟨v, hv, rfl⟩, rfl⟩
  · rw [take_cons_of_ne s hname, map_eq_ok_iff]
    simp only [hname, false_and, false_or, ne_eq, not_false_eq_true, true_and, eq_comm]

/-- **Two members can be taken in either order.** -/
theorem take_comm {s : Setting} {αs : List Type} {fields : Fields αs} {slots mid after : Slots αs}
    {m m' : String × Json} (h : fields.take s slots m = .ok mid)
    (h' : fields.take s mid m' = .ok after) :
    ∃ mid', fields.take s slots m' = .ok mid' ∧ fields.take s mid' m = .ok after := by
  induction fields with
  | nil => exact ⟨(), rfl, rfl⟩
  | cons f rest ih =>
    obtain ⟨slot, slots⟩ := slots
    rcases take_cons_eq_ok_iff.mp h with ⟨hname, rfl, v, hv, rfl⟩ | ⟨hname, mid, hmid, rfl⟩
    · rcases take_cons_eq_ok_iff.mp h' with ⟨-, hfull, -⟩ | ⟨hname', slots', hslots', rfl⟩
      · cases hfull
      · exact ⟨(none, slots'), take_cons_eq_ok_iff.mpr (.inr ⟨hname', slots', hslots', rfl⟩),
          take_cons_eq_ok_iff.mpr (.inl ⟨hname, rfl, v, hv, rfl⟩)⟩
    · rcases take_cons_eq_ok_iff.mp h' with ⟨hname', rfl, v, hv, rfl⟩ | ⟨hname', end', hend', rfl⟩
      · exact ⟨(some v, slots), take_cons_eq_ok_iff.mpr (.inl ⟨hname', rfl, v, hv, rfl⟩),
          take_cons_eq_ok_iff.mpr (.inr ⟨hname, mid, hmid, rfl⟩)⟩
      · obtain ⟨mid', hmid', hafter⟩ := ih hmid hend'
        exact ⟨(slot, mid'), take_cons_eq_ok_iff.mpr (.inr ⟨hname', mid', hmid', rfl⟩),
          take_cons_eq_ok_iff.mpr (.inr ⟨hname, end', hafter, rfl⟩)⟩

/-- **No two members of one field can be taken.** -/
theorem take_again {s : Setting} {αs : List Type} {fields : Fields αs} {slots mid : Slots αs}
    {m m' : String × Json} (hfield : m.1 ∈ fields.names) (hsame : m'.1 = m.1)
    (h : fields.take s slots m = .ok mid) : fields.take s mid m' = .error .mismatch := by
  induction fields with
  | nil => exact absurd hfield List.not_mem_nil
  | cons f rest ih =>
    obtain ⟨slot, slots⟩ := slots
    rcases take_cons_eq_ok_iff.mp h with ⟨hname, -, v, -, rfl⟩ | ⟨hname, mid, hmid, rfl⟩
    · exact take_cons_again s (hname.trans hsame.symm) v slots
    · rw [take_cons_of_ne s fun hname' => hname (hname'.trans hsame)]
      rcases List.mem_cons.mp hfield with hfirst | hrest
      · exact absurd hfirst.symm hname
      · rw [ih hrest hmid]
        rfl

/-- A member of another name than all fields changes nothing. -/
theorem take_of_not_mem (s : Setting) {αs : List Type} {fields : Fields αs} (slots : Slots αs)
    {m : String × Json} (h : m.1 ∉ fields.names) : fields.take s slots m = .ok slots := by
  induction fields with
  | nil => rfl
  | cons f rest ih =>
    obtain ⟨slot, slots⟩ := slots
    rw [names, List.mem_cons, not_or] at h
    exact take_cons_eq_ok_iff.mpr (.inr ⟨Ne.symm h.1, slots, ih slots h.2, rfl⟩)

/-! ## Taking all members -/

/-- Members that can be skipped are taken one after the other. -/
theorem putAll_draftMembers_cons (s : Setting) {αs : List Type} (fields : Fields αs)
    (slots : Slots αs) {m : String × Json} (hskip : m.2.draft.skip = .ok ())
    (ms : List (String × Json)) :
    fields.putAll s slots (draftMembers (m :: ms)) =
      (fields.take s slots m).bind fun slots => fields.putAll s slots (draftMembers ms) := by
  rw [draftMembers, putAll_named, take]
  cases fields.put s m.1 m.2.draft slots with
  | error e => rfl
  | ok found =>
    cases found with
    | some slots' => rfl
    | none =>
      show (m.2.draft.skip.bind _) = _
      rw [hskip]
      rfl

/-- Members in front are taken before the others. -/
theorem putAll_draftMembers_append (s : Setting) {αs : List Type} (fields : Fields αs)
    (slots : Slots αs) {ms : List (String × Json)} (hskip : ∀ m ∈ ms, m.2.draft.skip = .ok ())
    (ms' : List (String × Json)) :
    fields.putAll s slots (draftMembers (ms ++ ms')) =
      (fields.putAll s slots (draftMembers ms)).bind fun slots =>
        fields.putAll s slots (draftMembers ms') := by
  induction ms generalizing slots with
  | nil => rfl
  | cons m ms ih =>
    obtain ⟨hhead, htail⟩ := List.forall_mem_cons.mp hskip
    rw [List.cons_append, putAll_draftMembers_cons s fields slots hhead,
      putAll_draftMembers_cons s fields slots hhead]
    cases fields.take s slots m with
    | error e => rfl
    | ok slots' => exact ih slots' htail

/-- A member behind others is taken after them. -/
theorem putAll_draftMembers_concat (s : Setting) {αs : List Type} (fields : Fields αs)
    (slots : Slots αs) {ms : List (String × Json)} {m : String × Json}
    (hskip : ∀ m' ∈ ms ++ [m], m'.2.draft.skip = .ok ()) :
    fields.putAll s slots (draftMembers (ms ++ [m])) =
      (fields.putAll s slots (draftMembers ms)).bind fun slots => fields.take s slots m := by
  obtain ⟨hbefore, hlast⟩ := List.forall_mem_append.mp hskip
  rw [putAll_draftMembers_append s fields slots hbefore]
  congr 1
  funext mid
  rw [putAll_draftMembers_cons s fields mid (hlast m List.mem_cons_self)]
  cases fields.take s mid m <;> rfl

/-- Members of other names than all fields change nothing. -/
theorem putAll_of_not_mem (s : Setting) {αs : List Type} {fields : Fields αs} (slots : Slots αs)
    {ms : List (String × Json)} (hskip : ∀ m ∈ ms, m.2.draft.skip = .ok ())
    (h : ∀ m ∈ ms, m.1 ∉ fields.names) :
    fields.putAll s slots (draftMembers ms) = .ok slots := by
  induction ms with
  | nil => rfl
  | cons m ms ih =>
    obtain ⟨hhead, htail⟩ := List.forall_mem_cons.mp hskip
    obtain ⟨hname, hnames⟩ := List.forall_mem_cons.mp h
    rw [putAll_draftMembers_cons s fields slots hhead, take_of_not_mem s slots hname]
    exact ih htail hnames

/-- **The order of members makes no difference.** -/
theorem putAll_perm {s : Setting} {αs : List Type} {fields : Fields αs} {slots after : Slots αs}
    {ms ms' : List (String × Json)} (hperm : ms.Perm ms')
    (hskip : ∀ m ∈ ms, m.2.draft.skip = .ok ())
    (h : fields.putAll s slots (draftMembers ms) = .ok after) :
    fields.putAll s slots (draftMembers ms') = .ok after := by
  induction hperm generalizing slots with
  | nil => exact h
  | cons m _ ih =>
    obtain ⟨hhead, htail⟩ := List.forall_mem_cons.mp hskip
    rw [putAll_draftMembers_cons s fields slots hhead, bind_eq_ok_iff] at h ⊢
    obtain ⟨mid, hmid, hafter⟩ := h
    exact ⟨mid, hmid, ih htail hafter⟩
  | swap m m' ms =>
    obtain ⟨hm', hm, -⟩ := List.forall_mem_cons.mp hskip |>.imp_right List.forall_mem_cons.mp
    simp only [putAll_draftMembers_cons s fields _ hm, putAll_draftMembers_cons s fields _ hm',
      bind_eq_ok_iff] at h ⊢
    obtain ⟨mid, hmid, last, hlast, hafter⟩ := h
    obtain ⟨mid', hmid', hlast'⟩ := take_comm hmid hlast
    exact ⟨mid', hmid', last, hlast', hafter⟩
  | trans hperm _ ih ih' =>
    exact ih' (fun m hm => hskip m (hperm.mem_iff.mpr hm)) (ih hskip h)

/-- Once a field has a member, no other can be taken. -/
theorem take_of_putAll {s : Setting} {αs : List Type} {fields : Fields αs} {slots mid : Slots αs}
    {ms : List (String × Json)} {m : String × Json} (hskip : ∀ m ∈ ms, m.2.draft.skip = .ok ())
    (h : fields.putAll s slots (draftMembers ms) = .ok mid) (hfield : m.1 ∈ fields.names)
    (hm : m.1 ∈ ms.map (·.1)) : fields.take s mid m = .error .mismatch := by
  obtain ⟨m', hm', hsame⟩ := List.mem_map.mp hm
  obtain ⟨pre, post, rfl⟩ := List.append_of_mem hm'
  -- the member that was there may as well have been the last
  have hperm : (pre ++ m' :: post).Perm ((pre ++ post) ++ [m']) :=
    List.perm_middle.trans (List.perm_append_singleton _ _).symm
  have hlast := putAll_perm hperm hskip h
  rw [putAll_draftMembers_concat s fields slots fun m hm => hskip m (hperm.mem_iff.mpr hm),
    bind_eq_ok_iff] at hlast
  obtain ⟨before, -, htake⟩ := hlast
  exact take_again (hsame ▸ hfield) hsame.symm htake

end Fields

end Postmortem.Json
