import Postmortem.Proofs.Json.Members

/-!
# Codecs that follow a schema

A codec follows a schema if what it reads depends on the structure alone: a rearranged value is read
as the value it was, no value is read where a field is repeated, and whatever is written in full and
not ill-placed gets an answer. The codecs of single values, choices, lists and tables follow their
schemas if their parts do.
-/

namespace Postmortem.Json

/-- Whether a value is held before it is read. -/
def Setting.isHeld : Setting → Bool
  | direct _ => false
  | held => true

/-- What is within a held value is held. -/
theorem Setting.isHeld_of_enter {s s' : Setting} (h : s.enter = .ok s') : s'.isHeld = s.isHeld := by
  cases s with
  | held =>
    cases h
    rfl
  | direct depth =>
    rw [enter] at h
    split at h
    · cases h
    · cases h
      rfl

/-- Within a list or an object there is one level less. -/
theorem Setting.Admits.of_enter {levels : Nat} {s s' : Setting} (h : s.Admits (levels + 1))
    (henter : s.enter = .ok s') : s'.Admits levels := by
  obtain ⟨inner, hinner, hadmits⟩ := h.enter
  rw [henter] at hinner
  cases hinner
  exact hadmits

/-- A codec that reads what has the structure of a schema. -/
structure Codec.Follows {α : Type} (c : Codec α) (t : Schema) : Prop where
  decode_rearranged : ∀ {levels : Nat} {s : Setting} {v : α} {j : Json}, s.Admits levels →
    Within levels j → t.Rearranged (c.encode v) j → c.decode s j.draft = .ok v
  not_repeats : ∀ {levels : Nat} {s : Setting} {v : α} {j : Json}, s.Admits levels →
    Within levels j → c.decode s j.draft = .ok v → ¬ t.Repeats j
  isAnswer : ∀ {levels : Nat} {s : Setting} {j : Json}, s.Admits levels → Within levels j →
    ¬ t.IllPlaced s.isHeld j → IsAnswer (c.decode s j.draft)
  /-- What holds nothing need not be there. -/
  absent_of_null : ∀ {u : Schema} {v : α}, t = .optional u → c.encode v = .null →
    c.absent = some v

/-- A codec of keys that reads back what it writes, and answers to every key of its kind. -/
structure KeyCodec.Follows {α : Type} (k : KeyCodec α) (numbered : Bool) : Prop where
  lawful : k.Lawful
  isAnswer : ∀ {s : Setting} {name : String},
    (numbered = true → ∃ n : Numeral, n.inRange = true ∧ name.toList = n.chars) →
    IsAnswer (k.decode s (.literal (.ofString name)))

namespace Codec

variable {α β : Type} {levels : Nat} {s : Setting} {j : Json}

/-! ## Single values -/

/-- A value of another shape gets an answer. -/
theorem isAnswer_misfit (h : Within levels j) :
    IsAnswer (.error j.draft.misfit : Except Fault α) := by
  rw [h.misfit]
  exact isAnswer_mismatch

/-- A codec of single values follows its schema if it is lawful and answers to all values. -/
theorem follows_plain {c : Codec α} (hlawful : ∀ levels, c.Lawful levels)
    (hanswer : ∀ {levels s j}, Within levels j → IsAnswer (c.decode s j.draft)) :
    c.Follows .plain where
  decode_rearranged hs _ h := by
    cases h
    exact (hlawful _).decode_encode _ _ hs
  not_repeats _ _ _ h := by cases h
  isAnswer _ hwithin _ := hanswer hwithin
  absent_of_null h := by cases h

/-- Every value answers to those who want a text. -/
theorem isAnswer_text (h : Within levels j) : IsAnswer (text.decode s j.draft) := by
  cases h with
  | text t => exact isAnswer_ok t
  | number hrange => exact isAnswer_misfit (Within.number hrange : Within levels _)
  | _ => exact isAnswer_mismatch

/-- Texts are single values. -/
theorem follows_text : text.Follows .plain := follows_plain lawful_text isAnswer_text

/-- A text is read from nothing but itself. -/
theorem eq_text_of_decode {name : String} (hwithin : Within levels j)
    (h : text.decode s j.draft = .ok name) : j = .text name := by
  cases hwithin with
  | text t =>
    cases h
    rfl
  | _ => cases h

/-- So are truth values. -/
theorem follows_flag : flag.Follows .plain := by
  refine follows_plain lawful_flag ?_
  intro levels s j h
  cases h with
  | flag b => exact isAnswer_ok b
  | number hrange => exact isAnswer_misfit (Within.number hrange : Within levels _)
  | _ => exact isAnswer_mismatch

/-- So are natural numbers of 64 bits. -/
theorem follows_word : word.Follows .plain := by
  refine follows_plain lawful_word ?_
  intro levels s j h
  cases h with
  | @number _ n hrange =>
    rw [draft, if_pos hrange, word]
    dsimp only
    split
    · exact isAnswer_ok _
    · exact isAnswer_mismatch
  | _ => exact isAnswer_mismatch

/-- A value that may be nothing and is single otherwise is no record. -/
theorem eq_of_rearranged_optional {i j : Json} (h : (Schema.optional .plain).Rearranged i j) :
    j = i := by
  cases h with
  | nothing => rfl
  | something hvalue =>
    cases hvalue
    rfl

/-- Single values that may be nothing follow their schema if none of them looks like nothing. -/
theorem follows_optional {c : Codec α} (hlawful : ∀ levels, c.optional.Lawful levels)
    (hc : c.Follows .plain) (hnull : ∀ v, c.encode v ≠ .null) :
    c.optional.Follows (.optional .plain) where
  decode_rearranged hs _ h := by
    rw [eq_of_rearranged_optional h]
    exact (hlawful _).decode_encode _ _ hs
  not_repeats _ _ _ h := by
    cases h with
    | optional h => cases h
  isAnswer {levels s j} hs hwithin _ := by
    have hplaced {held : Bool} : ¬ Schema.plain.IllPlaced held j := by rintro ⟨⟩
    have hvalue := (hc.isAnswer hs hwithin hplaced).map some
    cases j with
    | null => exact isAnswer_ok none
    | _ => exact hvalue
  absent_of_null {u v} _ h := by
    cases v with
    | none => rfl
    | some v => exact absurd h (hnull v)

/-! ## Choices -/

/-- A name is that of a choice, or it is a mismatch. -/
theorem isAnswer_choiceNamed (choices : List (String × α)) (name : String) :
    IsAnswer (choiceNamed choices name) := by
  rw [choiceNamed]
  split
  · exact isAnswer_ok _
  · exact isAnswer_mismatch

/-- What an object holds for a choice is nothing, or it is a mismatch. -/
theorem isAnswer_noContent (s : Setting) (h : Within levels j) :
    IsAnswer (noContent s j.draft) := by
  cases h with
  | null => exact isAnswer_ok ()
  | number hrange => exact isAnswer_misfit (Within.number hrange : Within levels _)
  | @object _ ms _ =>
    cases ms with
    | nil =>
      rw [draft, draftMembers, noContent]
      split
      · exact isAnswer_ok ()
      · exact isAnswer_mismatch
    | cons m ms => exact isAnswer_mismatch
  | _ => exact isAnswer_mismatch

/-- An object answers to the one name in it. -/
theorem isAnswer_choice_singleton (choices : List (String × α)) (nameOf : α → String)
    {m : String × Json} (hs : s.Admits levels) (hwithin : Within levels (.object [m])) :
    IsAnswer ((choice choices nameOf).decode s (object [m]).draft) := by
  obtain ⟨inner, rfl, hmembers⟩ := hwithin.of_object
  obtain ⟨s', henter, -⟩ := hs.enter
  have hcontent := isAnswer_noContent s' (hmembers m List.mem_cons_self)
  simp only [choice, draft, draftMembers, henter]
  show IsAnswer (if (s' == .held && !([] : List (Name × Draft)).isEmpty) = true then _ else
    (choiceNamed choices m.1).bind fun v => (noContent s' m.2.draft).bind fun _ => .ok v)
  rw [if_neg (by simp)]
  exact (isAnswer_choiceNamed choices m.1).bind fun v _ => hcontent.bind fun _ _ => isAnswer_ok v

/-- Choices follow their schema if each is the one of its name. -/
theorem follows_choice {choices : List (String × α)} {nameOf : α → String}
    (hlawful : ∀ levels, (choice choices nameOf).Lawful levels) :
    (choice choices nameOf).Follows .choice where
  decode_rearranged hs _ h := by
    cases h
    exact (hlawful _).decode_encode _ _ hs
  not_repeats _ _ _ h := by cases h
  isAnswer {levels s j} hs hwithin hplaced := by
    have hheld (hname : ∀ name, j ≠ .text name) (hobject : ∀ m, j ≠ .object [m]) : s = .held := by
      cases s with
      | held => rfl
      | direct depth => exact absurd (.choice hname hobject) hplaced
    cases j with
    | text name => exact isAnswer_choiceNamed choices name
    | object ms =>
      rcases ms with _ | ⟨m, _ | ⟨m', ms⟩⟩
      · rw [hheld (by simp) (by simp)]
        exact isAnswer_mismatch
      · exact isAnswer_choice_singleton choices nameOf hs hwithin
      · rw [hheld (by simp) (by simp)]
        exact isAnswer_mismatch
    | _ =>
      rw [hheld (by simp) (by simp)]
      exact isAnswer_mismatch
  absent_of_null h := by cases h

/-! ## Lists -/

/-- Items are read one after the other. -/
theorem decodeItems_cons (c : Codec α) (s : Setting) (j : Json) (js : List Json) :
    c.decodeItems s (draftItems (j :: js)) =
      (c.decode s j.draft).bind fun v =>
        (c.decodeItems s (draftItems js)).bind fun vs => .ok (v :: vs) := by
  rfl

/-- A list is read once its items are. -/
theorem decode_list (c : Codec α) (s : Setting) (js : List Json) :
    (list c).decode s (Json.list js).draft =
      s.enter.bind fun s' => (c.decodeItems s' (draftItems js)).bind .ok := by
  rfl

/-- Rearranged items are read as what they were. -/
theorem decodeItems_rearranged {c : Codec α} {t : Schema} (hc : c.Follows t) (hs : s.Admits levels)
    {vs : List α} {js : List Json} (hwithin : ∀ j ∈ js, Within levels j)
    (h : t.RearrangedItems (vs.map c.encode) js) : c.decodeItems s (draftItems js) = .ok vs := by
  induction vs generalizing js with
  | nil =>
    cases h
    rfl
  | cons v vs ih =>
    rw [List.map_cons] at h
    cases h with
    | cons hitem hitems =>
      obtain ⟨hhead, htail⟩ := List.forall_mem_cons.mp hwithin
      rw [decodeItems_cons, hc.decode_rearranged hs hhead hitem, ih htail hitems]
      rfl

/-- If items are read, then each is. -/
theorem exists_of_decodeItems {c : Codec α} {vs : List α} {js : List Json}
    (h : c.decodeItems s (draftItems js) = .ok vs) (hj : j ∈ js) :
    ∃ v, c.decode s j.draft = .ok v := by
  induction js generalizing vs with
  | nil => exact absurd hj List.not_mem_nil
  | cons i js ih =>
    rw [decodeItems_cons, bind_eq_ok_iff] at h
    obtain ⟨v, hv, h⟩ := h
    obtain ⟨vs', hvs', -⟩ := bind_eq_ok_iff.mp h
    rcases List.mem_cons.mp hj with rfl | hj
    · exact ⟨v, hv⟩
    · exact ih hvs' hj

/-- Items answer if each of them does. -/
theorem isAnswer_decodeItems {c : Codec α} {js : List Json}
    (h : ∀ j ∈ js, IsAnswer (c.decode s j.draft)) : IsAnswer (c.decodeItems s (draftItems js)) := by
  induction js with
  | nil => exact isAnswer_ok []
  | cons j js ih =>
    obtain ⟨hhead, htail⟩ := List.forall_mem_cons.mp h
    rw [decodeItems_cons]
    exact hhead.bind fun v _ => (ih htail).bind fun vs _ => isAnswer_ok (v :: vs)

/-- Lists follow their schema if their items do. -/
theorem follows_list {c : Codec α} {t : Schema} (hc : c.Follows t) :
    (list c).Follows (.list t) where
  decode_rearranged {levels s vs j} hs hwithin h := by
    cases h with
    | list hitems =>
      obtain ⟨inner, rfl, hinner⟩ := hwithin.of_list
      obtain ⟨s', henter, hs'⟩ := hs.enter
      have hread := decodeItems_rearranged hc hs' hinner hitems
      exact bind_eq_ok_iff.mpr ⟨s', henter, bind_eq_ok_iff.mpr ⟨vs, hread, rfl⟩⟩
  not_repeats {levels s vs j} hs hwithin hread h := by
    cases h with
    | item hj h =>
      obtain ⟨inner, rfl, hinner⟩ := hwithin.of_list
      obtain ⟨s', henter, hread⟩ := bind_eq_ok_iff.mp hread
      obtain ⟨vs', hvs', -⟩ := bind_eq_ok_iff.mp hread
      obtain ⟨v, hv⟩ := exists_of_decodeItems hvs' hj
      exact hc.not_repeats (hs.of_enter henter) (hinner _ hj) hv h
  isAnswer {levels s j} hs hwithin hplaced := by
    cases hwithin with
    | @list levels js hitems =>
      obtain ⟨s', henter, hs'⟩ := hs.enter
      have hanswers : ∀ j ∈ js, IsAnswer (c.decode s' j.draft) := by
        intro j hj
        refine hc.isAnswer hs' (hitems j hj) fun h => hplaced (.item hj ?_)
        rwa [← Setting.isHeld_of_enter henter]
      rw [decode_list, henter]
      exact (isAnswer_decodeItems hanswers).bind fun vs _ => isAnswer_ok vs
    | number hrange => exact isAnswer_misfit (Within.number hrange : Within levels _)
    | _ => exact isAnswer_mismatch
  absent_of_null h := by cases h

/-! ## Tables -/

/-- Entries are read one after the other. -/
theorem decodeEntries_cons [Key α] (k : KeyCodec α) (c : Codec β) (s : Setting) (tab : Table α β)
    (m : String × Json) (ms : List (String × Json)) :
    decodeEntries k c s tab (draftMembers (m :: ms)) =
      (k.decode s (.literal (.ofString m.1))).bind fun key =>
        (c.decode s m.2.draft).bind fun v =>
          decodeEntries k c s (tab.insert key v) (draftMembers ms) := by
  rfl

/-- A table is read once its entries are. -/
theorem decode_table [Key α] (k : KeyCodec α) (c : Codec β) (s : Setting)
    (ms : List (String × Json)) :
    (table k c).decode s (object ms).draft =
      s.enter.bind fun s' => (decodeEntries k c s' .empty (draftMembers ms)).bind .ok := by
  rfl

/-- Entries with rearranged values are read as what they were. -/
theorem decodeEntries_rearranged [Key α] {k : KeyCodec α} {c : Codec β} {t : Schema} (hk : k.Lawful)
    (hc : c.Follows t) (hs : s.Admits levels) {es : List (α × β)} {ms : List (String × Json)}
    (hwithin : ∀ m ∈ ms, Within levels m.2)
    (h : t.RearrangedEntries (es.map fun e => (k.encode e.1, c.encode e.2)) ms) (tab : Table α β) :
    decodeEntries k c s tab (draftMembers ms) =
      .ok (es.foldl (fun tab e => tab.insert e.1 e.2) tab) := by
  induction es generalizing ms tab with
  | nil =>
    cases h
    rfl
  | cons e es ih =>
    rw [List.map_cons] at h
    cases h with
    | cons hvalue hentries =>
      obtain ⟨hhead, htail⟩ := List.forall_mem_cons.mp hwithin
      rw [decodeEntries_cons, hk e.1 s, hc.decode_rearranged hs hhead hvalue]
      exact ih htail hentries (tab.insert e.1 e.2)

/-- If entries are read, then each value is. -/
theorem exists_of_decodeEntries [Key α] {k : KeyCodec α} {c : Codec β} {tab tab' : Table α β}
    {m : String × Json} {ms : List (String × Json)}
    (h : decodeEntries k c s tab (draftMembers ms) = .ok tab') (hm : m ∈ ms) :
    ∃ v, c.decode s m.2.draft = .ok v := by
  induction ms generalizing tab with
  | nil => exact absurd hm List.not_mem_nil
  | cons m' ms ih =>
    rw [decodeEntries_cons, bind_eq_ok_iff] at h
    obtain ⟨key, -, h⟩ := h
    obtain ⟨v, hv, h⟩ := bind_eq_ok_iff.mp h
    rcases List.mem_cons.mp hm with rfl | hm
    · exact ⟨v, hv⟩
    · exact ih h hm

/-- Entries answer if each key and each value does. -/
theorem isAnswer_decodeEntries [Key α] {k : KeyCodec α} {c : Codec β} {ms : List (String × Json)}
    (hkeys : ∀ m ∈ ms, IsAnswer (k.decode s (.literal (.ofString m.1))))
    (hvalues : ∀ m ∈ ms, IsAnswer (c.decode s m.2.draft)) (tab : Table α β) :
    IsAnswer (decodeEntries k c s tab (draftMembers ms)) := by
  induction ms generalizing tab with
  | nil => exact isAnswer_ok tab
  | cons m ms ih =>
    obtain ⟨hkey, hkeys⟩ := List.forall_mem_cons.mp hkeys
    obtain ⟨hvalue, hvalues⟩ := List.forall_mem_cons.mp hvalues
    rw [decodeEntries_cons]
    exact hkey.bind fun key _ => hvalue.bind fun v _ => ih hkeys hvalues (tab.insert key v)

/-- Tables follow their schema if their keys and values do. -/
theorem follows_table [Key α] {k : KeyCodec α} {c : Codec β} {numbered : Bool} {t : Schema}
    (hk : k.Follows numbered) (hc : c.Follows t) : (table k c).Follows (.table numbered t) where
  decode_rearranged {levels s tab j} hs hwithin h := by
    cases h with
    | table hentries =>
      obtain ⟨inner, rfl, hinner⟩ := hwithin.of_object
      obtain ⟨s', henter, hs'⟩ := hs.enter
      have hread := decodeEntries_rearranged hk.lawful hc hs' hinner hentries .empty
      rw [← Table.ofList, Table.ofList_entries] at hread
      exact bind_eq_ok_iff.mpr ⟨s', henter, bind_eq_ok_iff.mpr ⟨tab, hread, rfl⟩⟩
  not_repeats {levels s tab j} hs hwithin hread h := by
    cases h with
    | entry hm h =>
      obtain ⟨inner, rfl, hinner⟩ := hwithin.of_object
      obtain ⟨s', henter, hread⟩ := bind_eq_ok_iff.mp hread
      obtain ⟨tab', htab', -⟩ := bind_eq_ok_iff.mp hread
      obtain ⟨v, hv⟩ := exists_of_decodeEntries htab' hm
      exact hc.not_repeats (hs.of_enter henter) (hinner _ hm) hv h
  isAnswer {levels s j} hs hwithin hplaced := by
    cases hwithin with
    | @object levels ms hmembers =>
      obtain ⟨s', henter, hs'⟩ := hs.enter
      have hkeys : ∀ m ∈ ms, IsAnswer (k.decode s' (.literal (.ofString m.1))) := by
        intro m hm
        refine hk.isAnswer fun hnumbered => ?_
        by_contra hkey
        subst hnumbered
        exact hplaced (.key hm fun n hrange hchars => hkey ⟨n, hrange, hchars⟩)
      have hvalues : ∀ m ∈ ms, IsAnswer (c.decode s' m.2.draft) := by
        intro m hm
        refine hc.isAnswer hs' (hmembers m hm) fun h => hplaced (.entry hm ?_)
        rwa [← Setting.isHeld_of_enter henter]
      rw [decode_table, henter]
      exact (isAnswer_decodeEntries hkeys hvalues .empty).bind fun tab _ => isAnswer_ok tab
    | number hrange => exact isAnswer_misfit (Within.number hrange : Within levels _)
    | _ => exact isAnswer_mismatch
  absent_of_null h := by cases h

end Codec

/-! ## Keys -/

/-- Every text is a key. -/
theorem KeyCodec.follows_text : KeyCodec.text.Follows false where
  lawful := lawful_text
  isAnswer _ := isAnswer_ok _

/-- No character of a number is escaped. -/
theorem literalTail_numeral (n : Numeral) : literalTail n.chars = n.chars ++ ['"'] := by
  apply literalTail_of_plain
  intro c hc
  rcases isDigit_or_mem_of_mem_numeral hc with hdigit | hmark
  · exact escapeChar_of_isDigit hdigit
  · simp only [List.mem_cons, List.not_mem_nil, or_false] at hmark
    rcases hmark with rfl | rfl | rfl <;> rfl

/-- Every number is a key, if it is of 64 bits, or a mismatch. -/
theorem KeyCodec.follows_word : KeyCodec.word.Follows true where
  lawful := lawful_word
  isAnswer {s name} hname := by
    obtain ⟨n, hrange, hchars⟩ := hname rfl
    obtain ⟨c, cs, hcs, hc⟩ := head?_numeral n
    have hfirst : (c == '-' || Number.isDigit c) = true := by
      rcases hc with hdigit | hsign <;> simp [*]
    have hquote : NumberEnd ['"'] := by
      intro c hc
      cases hc
      decide
    have hread := readValue_numeral n 0 hquote
    rw [draft, if_pos hrange, hcs] at hread
    show IsAnswer (wordWithin (literalTail name.toList))
    rw [hchars, literalTail_numeral, hcs, List.cons_append, wordWithin]
    simp only [if_pos hfirst, ← List.cons_append, hread]
    split
    · exact isAnswer_mismatch
    · exact isAnswer_ok _
    · rename_i hother
      exact absurd rfl (hother [])

end Postmortem.Json
