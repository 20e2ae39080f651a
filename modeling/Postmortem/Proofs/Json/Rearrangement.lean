import Postmortem.Proofs.Json.Following

/-!
# Records that follow a schema

A record follows a schema if its fields do. The members that are kept are read one after the other
as in the order of the fields; those of other names change nothing among them, and the order makes
no difference. A tagged record is held first: whatever stands around the tag, the kind then gets all
other members.
-/

namespace Postmortem.Json

open Schema (Kept)

/-! ## Kept members -/

/-- What is kept is the member of a field. -/
theorem Schema.Kept.name_mem {fs : List (String × Schema)} {ms kept : List (String × Json)}
    (h : Kept fs ms kept) {m : String × Json} (hm : m ∈ kept) :
    m.1 ∈ fs.map (·.1) ∧ m.1 ∈ ms.map (·.1) := by
  induction ms generalizing kept with
  | nil =>
    cases h
    exact absurd hm List.not_mem_nil
  | cons m' ms ih =>
    have hlater {kept : List (String × Json)} (hkept : Kept fs ms kept) (hm : m ∈ kept) :
        m.1 ∈ fs.map (·.1) ∧ m.1 ∈ (m' :: ms).map (·.1) :=
      (ih hkept hm).imp_right (List.mem_cons_of_mem _)
    cases h with
    | keep hfield _ hkept =>
      rcases List.mem_cons.mp hm with rfl | hm
      · exact ⟨List.mem_map.mpr ⟨_, hfield, rfl⟩, List.mem_cons_self⟩
      · exact hlater hkept hm
    | drop _ hkept => exact hlater hkept hm

/-- A field without a member makes no difference to what is kept. -/
theorem Schema.Kept.of_cons {k : String} {t : Schema} {fs : List (String × Schema)}
    {ms kept : List (String × Json)} (h : Kept ((k, t) :: fs) ms kept)
    (hnames : ∀ m ∈ ms, m.1 ≠ k) : Kept fs ms kept := by
  induction ms generalizing kept with
  | nil =>
    cases h
    exact .nil
  | cons m ms ih =>
    obtain ⟨hhead, htail⟩ := List.forall_mem_cons.mp hnames
    have hother {u : Schema} (hfield : (m.1, u) ∈ (k, t) :: fs) : (m.1, u) ∈ fs :=
      (List.mem_cons.mp hfield).resolve_left fun heq => hhead (Prod.mk.inj heq).1
    cases h with
    | keep hfield hvalue hkept => exact .keep (hother hfield) hvalue (ih hkept htail)
    | drop hfield hkept => exact .drop (hother hfield) (ih hkept htail)

/-- A member can be brought to the front. -/
theorem exists_perm_cons {m : String × Json} {ms : List (String × Json)} (h : m ∈ ms) :
    ∃ rest, ms.Perm (m :: rest) := by
  obtain ⟨pre, post, rfl⟩ := List.append_of_mem h
  exact ⟨pre ++ post, List.perm_middle⟩

/-- So can two members of one name. -/
theorem exists_perm_of_two_le_count {k : String} {ms : List (String × Json)}
    (h : 2 ≤ (ms.map (·.1)).count k) : ∃ j j' rest, ms.Perm ((k, j) :: (k, j') :: rest) := by
  have hbring {ms : List (String × Json)} (h : 1 ≤ (ms.map (·.1)).count k) :
      ∃ j rest, ms.Perm ((k, j) :: rest) := by
    obtain ⟨m, hm, rfl⟩ := List.mem_map.mp (List.count_pos_iff.mp h)
    obtain ⟨rest, hperm⟩ := exists_perm_cons hm
    exact ⟨m.2, rest, hperm⟩
  obtain ⟨j, rest, hperm⟩ := hbring (Nat.le_of_succ_le h)
  rw [(hperm.map _).count_eq, List.map_cons, List.count_cons_self] at h
  obtain ⟨j', rest', hperm'⟩ := hbring (Nat.le_of_succ_le_succ h)
  exact ⟨j, j', rest', hperm.trans (hperm'.cons _)⟩

/-! ## Fields -/

/-- Fields with the schemas that they follow. They have different names, and what is not written is
what is missed. -/
inductive Fields.Follow : {αs : List Type} → Fields αs → List (String × Schema) → Prop where
  | nil : Follow .nil []
  | cons {α : Type} {αs : List Type} {f : Field α} {rest : Fields αs} {t : Schema}
      {fs : List (String × Schema)} (hcodec : f.codec.Follows t)
      (hunwritten : ∀ v, f.isWritten v = false → f.codec.absent = some v)
      (hname : f.name ∉ rest.names) (hrest : rest.Follow fs) :
      Follow (.cons f rest) ((f.name, t) :: fs)

namespace Fields

variable {levels : Nat} {s : Setting} {αs : List Type} {fields : Fields αs}
  {fs : List (String × Schema)} {ms : List (String × Json)}

/-- A field that is always written follows its schema if its codec does. -/
theorem follow_field {α : Type} {name : String} {c : Codec α} {rest : Fields αs} {t : Schema}
    (hcodec : c.Follows t) (hname : name ∉ rest.names) (hrest : rest.Follow fs) :
    (field name c rest).Follow ((name, t) :: fs) := by
  refine .cons hcodec ?_ hname hrest
  intro v hwritten
  cases hwritten

/-- Fields and schemas have the same names. -/
theorem Follow.names_eq (h : fields.Follow fs) : fields.names = fs.map (·.1) := by
  induction h with
  | nil => rfl
  | cons _ _ _ _ ih => rw [names, ih, List.map_cons]

/-- A value that is there, or may be missed, is completed by the others. -/
theorem complete_cons {α : Type} {f : Field α} {rest : Fields αs} {slot : Option α}
    {slots : Slots αs} {v : α} {vs : Values αs} (hvalue : slot.or f.codec.absent = some v)
    (hrest : rest.complete slots = .ok vs) :
    (cons f rest).complete (slot, slots) = .ok (v, vs) := by
  rw [complete, hvalue]
  simp only [hrest]
  rfl

/-- Kept members make up the values. -/
theorem exists_putAll_kept (h : fields.Follow fs) (hs : s.Admits levels) {vs : Values αs}
    {kept : List (String × Json)} (hkept : Kept fs (fields.encode vs) kept)
    (hwithin : ∀ m ∈ kept, Within levels m.2) :
    ∃ slots, fields.putAll s (.none αs) (draftMembers kept) = .ok slots ∧
      fields.complete slots = .ok vs := by
  induction h generalizing kept with
  | nil =>
    cases hkept
    exact ⟨(), rfl, rfl⟩
  | @cons α αs f rest t fs hcodec hunwritten hname hrest ih =>
    obtain ⟨v, vs⟩ := vs
    have hothers : ∀ m ∈ rest.encode vs, m.1 ≠ f.name := by
      intro m hm heq
      exact hname (heq ▸ rest.name_mem_of_mem_encode vs hm)
    -- the members behind that of the first field leave its slot as it is
    have hbehind (slot : Option α) {later : List (String × Json)}
        (hlater : Kept ((f.name, t) :: fs) (rest.encode vs) later)
        (hwithin : ∀ m ∈ later, Within levels m.2) (hvalue : slot.or f.codec.absent = some v) :
        ∃ slots, (cons f rest).putAll s (slot, .none αs) (draftMembers later) = .ok slots ∧
          (cons f rest).complete slots = .ok (v, vs) := by
      obtain ⟨slots, hput, hcomplete⟩ := ih (hlater.of_cons hothers) hwithin
      refine ⟨(slot, slots), ?_, complete_cons hvalue hcomplete⟩
      rw [putAll_cons_of_ne, hput]
      · rfl
      · intro m hm heq
        obtain ⟨m', hm', hsame⟩ := List.mem_map.mp (hlater.name_mem hm).2
        exact hothers m' hm' (hsame.trans heq)
    have hfirst {u : Schema} (hfield : (f.name, u) ∈ (f.name, t) :: fs) : u = t := by
      rcases List.mem_cons.mp hfield with heq | hfield
      · exact (Prod.mk.inj heq).2
      · rw [hrest.names_eq] at hname
        exact absurd (List.mem_map.mpr ⟨_, hfield, rfl⟩) hname
    rw [encode] at hkept
    split at hkept
    · generalize hj : f.codec.encode v = j at hkept
      cases hkept with
      | @keep _ _ _ _ j' _ later hfield hvalue hlater =>
        rw [hfirst hfield, ← hj] at hvalue
        obtain ⟨hhead, htail⟩ := List.forall_mem_cons.mp hwithin
        have hread := hcodec.decode_rearranged hs hhead hvalue
        rw [draftMembers, putAll_named, Slots.none, put_cons_self, hread]
        exact hbehind (some v) hlater htail rfl
      | drop hfield hlater =>
        exact hbehind none hlater hwithin (hcodec.absent_of_null (hfirst hfield).symm hj)
    · rename_i hwritten
      exact hbehind none hkept hwithin (hunwritten v (by simpa using hwritten))

/-- **Fields are read from rearranged members.** -/
theorem ofMembers_rearranged (h : fields.Follow fs) (hs : s.Admits levels) {vs : Values αs}
    {kept others : List (String × Json)} (hkept : Kept fs (fields.encode vs) kept)
    (hothers : ∀ m ∈ others, m.1 ∉ fs.map (·.1)) (hperm : ms.Perm (kept ++ others))
    (hwithin : ∀ m ∈ ms, Within levels m.2) :
    fields.ofMembers s (draftMembers ms) (.ok ()) = .ok vs := by
  have hall : ∀ m ∈ kept ++ others, Within levels m.2 :=
    fun m hm => hwithin m (hperm.mem_iff.mpr hm)
  have hskip : ∀ m ∈ kept ++ others, m.2.draft.skip = .ok () := fun m hm => (hall m hm).skip
  obtain ⟨hkeptWithin, hothersWithin⟩ := List.forall_mem_append.mp hall
  obtain ⟨slots, hput, hcomplete⟩ := exists_putAll_kept h hs hkept hkeptWithin
  rw [← h.names_eq] at hothers
  have hput : fields.putAll s (.none αs) (draftMembers (kept ++ others)) = .ok slots := by
    rw [putAll_draftMembers_append s fields _ fun m hm => (hkeptWithin m hm).skip, hput]
    exact putAll_of_not_mem s slots (fun m hm => (hothersWithin m hm).skip) hothers
  exact bind_eq_ok_iff.mpr ⟨slots, putAll_perm hperm.symm hskip hput, hcomplete⟩

/-- What is taken has no repeated field within it. -/
theorem not_repeats_of_take (h : fields.Follow fs) (hs : s.Admits levels) {slots after : Slots αs}
    {k : String} {t : Schema} {j : Json} (hwithin : Within levels j) (hfield : (k, t) ∈ fs)
    (htake : fields.take s slots (k, j) = .ok after) : ¬ t.Repeats j := by
  induction h with
  | nil => exact absurd hfield List.not_mem_nil
  | cons hcodec _ hname hrest ih =>
    obtain ⟨slot, slots⟩ := slots
    rw [hrest.names_eq] at hname
    rcases take_cons_eq_ok_iff.mp htake with ⟨hsame, -, v, hread, -⟩ | ⟨hne, slots', htake, -⟩
    · rcases List.mem_cons.mp hfield with heq | hlater
      · rw [(Prod.mk.inj heq).2]
        exact hcodec.not_repeats hs hwithin hread
      · exact absurd (hsame ▸ List.mem_map.mpr ⟨_, hlater, rfl⟩) hname
    · rcases List.mem_cons.mp hfield with heq | hlater
      · exact absurd (Prod.mk.inj heq).1.symm hne
      · exact ih hlater htake

/-- **Fields are not read from members that repeat one.** -/
theorem not_repeats_of_ofMembers (h : fields.Follow fs) (hs : s.Admits levels) {vs : Values αs}
    (hwithin : ∀ m ∈ ms, Within levels m.2)
    (hread : fields.ofMembers s (draftMembers ms) (.ok ()) = .ok vs) :
    ¬ (Schema.record fs).Repeats (.object ms) := by
  intro hrepeats
  have hskip : ∀ m ∈ ms, m.2.draft.skip = .ok () := fun m hm => (hwithin m hm).skip
  obtain ⟨after, hput, -⟩ := bind_eq_ok_iff.mp hread
  cases hrepeats with
  | @field _ k _ hfield hcount =>
    obtain ⟨j, j', rest, hperm⟩ := exists_perm_of_two_le_count hcount
    have hput := putAll_perm hperm hskip hput
    have hsame : (k, j').1 = (k, j).1 := rfl
    have hfront : ∀ m ∈ (k, j) :: (k, j') :: rest, m.2.draft.skip = .ok () :=
      fun m hm => hskip m (hperm.mem_iff.mpr hm)
    obtain ⟨hfirst, hsecond, -⟩ :=
      List.forall_mem_cons.mp hfront |>.imp_right List.forall_mem_cons.mp
    rw [putAll_draftMembers_cons s fields _ hfirst, bind_eq_ok_iff] at hput
    obtain ⟨mid, hmid, hput⟩ := hput
    rw [putAll_draftMembers_cons s fields _ hsecond, bind_eq_ok_iff] at hput
    obtain ⟨last, hlast, -⟩ := hput
    rw [← h.names_eq] at hfield
    rw [take_again hfield hsame hmid] at hlast
    cases hlast
  | within hfield hm hvalue =>
    obtain ⟨rest, hperm⟩ := exists_perm_cons hm
    have hput := putAll_perm hperm hskip hput
    rw [putAll_draftMembers_cons s fields _ (hskip _ hm), bind_eq_ok_iff] at hput
    obtain ⟨mid, hmid, -⟩ := hput
    exact not_repeats_of_take h hs (hwithin _ hm) hfield hmid hvalue

/-- A member answers if its value does. -/
theorem isAnswer_take (h : fields.Follow fs) (hs : s.Admits levels) {k : String} {j : Json}
    (hwithin : Within levels j) (hplaced : ∀ t, (k, t) ∈ fs → ¬ t.IllPlaced s.isHeld j)
    (slots : Slots αs) : IsAnswer (fields.take s slots (k, j)) := by
  refine IsAnswer.map ?_ _
  induction h with
  | nil => exact isAnswer_ok none
  | @cons α αs f rest t fs hcodec _ _ _ ih =>
    obtain ⟨slot, slots⟩ := slots
    obtain ⟨hfirst, hlater⟩ : (k = f.name → ¬ t.IllPlaced s.isHeld j) ∧
        ∀ u, (k, u) ∈ fs → ¬ u.IllPlaced s.isHeld j := by
      refine ⟨?_, fun u hu => hplaced u (List.mem_cons_of_mem _ hu)⟩
      rintro rfl
      exact hplaced t List.mem_cons_self
    by_cases hname : f.name = k
    · cases slot with
      | some v =>
        rw [put, if_pos (by simpa using hname)]
        exact isAnswer_mismatch
      | none =>
        rw [← hname, put_cons_self]
        exact (hcodec.isAnswer hs hwithin (hfirst hname.symm)).map _
    · rw [put_cons_of_ne s hname]
      exact (ih hlater slots).map _

/-- Members answer if the first of each field does. -/
theorem isAnswer_putAll (h : fields.Follow fs) (hs : s.Admits levels)
    (hwithin : ∀ m ∈ ms, Within levels m.2)
    (hplaced : ¬ (Schema.record fs).IllPlaced s.isHeld (.object ms)) (slots : Slots αs) :
    IsAnswer (fields.putAll s slots (draftMembers ms)) := by
  have hfirst : ∀ k t j, (k, t) ∈ fs → ms.lookup k = some j → ¬ t.IllPlaced s.isHeld j :=
    fun k t j ht hj hvalue => hplaced (.field ht hj hvalue)
  clear hplaced
  induction ms using List.reverseRecOn with
  | nil => exact isAnswer_ok slots
  | append_singleton ms m ih =>
    have hskip : ∀ m' ∈ ms ++ [m], m'.2.draft.skip = .ok () := fun m' hm' => (hwithin m' hm').skip
    obtain ⟨hbefore, hlast⟩ := List.forall_mem_append.mp hwithin
    rw [putAll_draftMembers_concat s fields slots hskip]
    refine (ih hbefore ?_).bind fun mid hmid => ?_
    · intro k t j ht hj
      exact hfirst k t j ht (by rw [List.lookup_append, hj, Option.some_or])
    · by_cases hfield : m.1 ∈ fields.names
      · by_cases hmet : m.1 ∈ ms.map (·.1)
        · rw [take_of_putAll (fun m' hm' => (hbefore m' hm').skip) hmid hfield hmet]
          exact isAnswer_mismatch
        · have hnone : ms.lookup m.1 = none := by
            rw [List.lookup_eq_none_iff]
            intro m' hm'
            rw [bne_iff_ne]
            exact fun heq => hmet (List.mem_map.mpr ⟨m', hm', heq.symm⟩)
          refine isAnswer_take h hs (hlast m List.mem_cons_self) (fun t ht => ?_) mid
          refine hfirst m.1 t m.2 ht ?_
          rw [List.lookup_append, hnone, Option.none_or]
          exact List.lookup_cons_self
      · rw [take_of_not_mem s mid hfield]
        exact isAnswer_ok mid

/-- A missing field is a mismatch. -/
theorem isAnswer_complete (fields : Fields αs) (slots : Slots αs) :
    IsAnswer (fields.complete slots) := by
  induction fields with
  | nil => exact isAnswer_ok ()
  | cons f rest ih =>
    obtain ⟨slot, slots⟩ := slots
    rw [complete]
    split
    · exact (ih slots).map _
    · exact isAnswer_mismatch

/-- **Fields answer to members** that are not ill-placed. -/
theorem isAnswer_ofMembers (h : fields.Follow fs) (hs : s.Admits levels)
    (hwithin : ∀ m ∈ ms, Within levels m.2)
    (hplaced : ¬ (Schema.record fs).IllPlaced s.isHeld (.object ms)) :
    IsAnswer (fields.ofMembers s (draftMembers ms) (.ok ())) :=
  (isAnswer_putAll h hs hwithin hplaced _).bind fun slots _ => isAnswer_complete fields slots

/-- What is ill-placed behind the first item is so in the list. -/
theorem illPlaced_cons {held : Bool} {e : String × Schema} {j : Json} {js : List Json}
    (h : (Schema.record fs).IllPlaced held (.list js)) :
    (Schema.record (e :: fs)).IllPlaced held (.list (j :: js)) := by
  cases h with
  | surplus hlength => exact .surplus (Nat.succ_lt_succ hlength)
  | @place _ _ _ _ _ _ i hfield hj hvalue =>
    exact .place (i := i + 1) hfield hj hvalue

/-- **Fields answer to items** that are not ill-placed. -/
theorem isAnswer_ofItems (h : fields.Follow fs) (hs : s.Admits levels) {js : List Json}
    (hwithin : ∀ j ∈ js, Within levels j)
    (hplaced : ¬ (Schema.record fs).IllPlaced s.isHeld (.list js)) :
    IsAnswer (fields.ofItems s (draftItems js) (.ok ())) := by
  induction h generalizing js with
  | nil =>
    cases js with
    | nil => exact isAnswer_ok ()
    | cons j js =>
      cases s with
      | held => exact isAnswer_mismatch
      | direct depth => exact absurd (.surplus (Nat.succ_pos _)) hplaced
  | @cons α αs f rest t fs hcodec _ _ _ ih =>
    cases js with
    | nil =>
      have hnone {held : Bool} : ¬ (Schema.record fs).IllPlaced held (.list []) := by
        intro hill
        cases hill with
        | surplus hlength => exact absurd hlength (Nat.not_lt_zero _)
        | place _ hj => cases hj
      rw [draftItems, ofItems]
      refine (isAnswer_ok ()).bind fun _ _ => ?_
      split
      · exact (ih hwithin hnone).map _
      · exact isAnswer_mismatch
    | cons j js =>
      obtain ⟨hhead, htail⟩ := List.forall_mem_cons.mp hwithin
      have hfirst : ¬ t.IllPlaced s.isHeld j :=
        fun hvalue => hplaced (.place (i := 0) rfl rfl hvalue)
      refine (hcodec.isAnswer hs hhead hfirst).bind fun v _ => ?_
      exact (ih htail fun hill => hplaced (illPlaced_cons hill)).bind fun vs _ =>
        isAnswer_ok (v, vs)

end Fields

/-! ## Records -/

namespace Codec

variable {α : Type} {αs : List Type} {fields : Fields αs} {values : α → Values αs}
  {ofValues : Values αs → α}

/-- A record is read once its members are. -/
theorem decode_record (s : Setting) (ms : List (String × Json)) :
    (record fields values ofValues).decode s (object ms).draft =
      s.enter.bind fun s' =>
        (fields.ofMembers s' (draftMembers ms) (.ok ())).bind fun vs => .ok (ofValues vs) := by
  rfl

/-- Given as a list, it is read once its items are. -/
theorem decode_record_list (s : Setting) (js : List Json) :
    (record fields values ofValues).decode s (Json.list js).draft =
      s.enter.bind fun s' =>
        (fields.ofItems s' (draftItems js) (.ok ())).bind fun vs => .ok (ofValues vs) := by
  rfl

/-- Records follow their schema if their fields do. -/
theorem follows_record {fs : List (String × Schema)} (hfields : fields.Follow fs)
    (hvalues : ∀ v, ofValues (values v) = v) :
    (record fields values ofValues).Follows (.record fs) where
  decode_rearranged {levels s v j} hs hwithin h := by
    cases h with
    | record hkept hothers hperm =>
      obtain ⟨inner, rfl, hinner⟩ := hwithin.of_object
      obtain ⟨s', henter, hs'⟩ := hs.enter
      have hread := Fields.ofMembers_rearranged hfields hs' hkept hothers hperm hinner
      refine bind_eq_ok_iff.mpr ⟨s', henter, bind_eq_ok_iff.mpr ⟨values v, hread, ?_⟩⟩
      exact congrArg Except.ok (hvalues v)
  not_repeats {levels s v j} hs hwithin hread h := by
    obtain ⟨ms, rfl⟩ : ∃ ms, j = .object ms := by cases h <;> exact ⟨_, rfl⟩
    obtain ⟨inner, rfl, hinner⟩ := hwithin.of_object
    obtain ⟨s', henter, hread⟩ := bind_eq_ok_iff.mp hread
    obtain ⟨vs, hvs, -⟩ := bind_eq_ok_iff.mp hread
    exact Fields.not_repeats_of_ofMembers hfields (hs.of_enter henter) hinner hvs h
  isAnswer {levels s j} hs hwithin hplaced := by
    cases hwithin with
    | object hmembers =>
      obtain ⟨s', henter, hs'⟩ := hs.enter
      rw [← Setting.isHeld_of_enter henter] at hplaced
      rw [decode_record, henter]
      exact (Fields.isAnswer_ofMembers hfields hs' hmembers hplaced).bind fun vs _ => isAnswer_ok _
    | list hitems =>
      obtain ⟨s', henter, hs'⟩ := hs.enter
      rw [← Setting.isHeld_of_enter henter] at hplaced
      rw [decode_record_list, henter]
      exact (Fields.isAnswer_ofItems hfields hs' hitems hplaced).bind fun vs _ => isAnswer_ok _
    | number hrange => exact isAnswer_misfit (Within.number hrange : Within levels _)
    | _ => exact isAnswer_mismatch
  absent_of_null h := by cases h

end Codec

end Postmortem.Json
