import Postmortem.Json.Codec
import Postmortem.Proofs.Collections.Table
import Postmortem.Proofs.Json.Layout
import Postmortem.Proofs.Json.Range

/-!
# Lawful codecs

A lawful codec reads back what it writes, whether the value is read while its text is or after it
has been held, as long as lists and objects may be nested deep enough. The codecs of this library
are built from a few parts, each of which is lawful if what it is built from is.
-/

namespace Postmortem.Json

open Postmortem.Number

/-- Whether a setting admits so many levels of lists and objects within each other. -/
def Setting.Admits (levels : Nat) : Setting → Prop
  | direct depth => levels < depth
  | held => True

/-- Within a list or an object there is one level less. -/
theorem Setting.Admits.enter {levels : Nat} {s : Setting} (h : s.Admits (levels + 1)) :
    ∃ s', s.enter = .ok s' ∧ s'.Admits levels := by
  cases s with
  | held => exact ⟨.held, rfl, trivial⟩
  | direct depth =>
    change levels + 1 < depth at h
    refine ⟨.direct (depth - 1), ?_, ?_⟩
    · rw [Setting.enter, if_neg (by omega)]
    · show levels < depth - 1
      omega

/-- A value that can be held at all depths that have so many levels. -/
def Holds (levels : Nat) (j : Json) : Prop := ∀ depth, levels < depth → j.draft.hold depth = .ok ()

/-- A codec that reads back what it writes. -/
structure Codec.Lawful {α : Type} (c : Codec α) (levels : Nat) : Prop where
  decode_encode : ∀ (v : α) (s : Setting), s.Admits levels → c.decode s (c.encode v).draft = .ok v
  holds_encode : ∀ v : α, Holds levels (c.encode v)

/-- A codec of keys that reads back what it writes. -/
def KeyCodec.Lawful {α : Type} (k : KeyCodec α) : Prop :=
  ∀ (key : α) (s : Setting), k.decode s (.literal (.ofString (k.encode key))) = .ok key

/-- Members can be held if their values can. -/
theorem holdMembers_draftMembers {levels depth : Nat} (hdepth : levels < depth)
    {ms : List (String × Json)} (h : ∀ m ∈ ms, Holds levels m.2) :
    Draft.holdMembers depth (draftMembers ms) = .ok () := by
  induction ms with
  | nil => rfl
  | cons m ms ih =>
    have hhead := h m List.mem_cons_self depth hdepth
    have htail := ih fun m' hm' => h m' (List.mem_cons_of_mem _ hm')
    rw [draftMembers, Draft.holdMembers, hhead]
    exact htail

/-- An object can be held one level further out than its members. -/
theorem holds_object {levels : Nat} {ms : List (String × Json)} (h : ∀ m ∈ ms, Holds levels m.2) :
    Holds (levels + 1) (.object ms) := by
  intro depth hdepth
  rw [draft, Draft.hold, if_neg (by omega), holdMembers_draftMembers (by omega) h]
  rfl

/-- Items can be held if all of them can. -/
theorem holdItems_draftItems {levels depth : Nat} (hdepth : levels < depth) {js : List Json}
    (h : ∀ j ∈ js, Holds levels j) : Draft.holdItems depth (draftItems js) = .ok () := by
  induction js with
  | nil => rfl
  | cons j js ih =>
    have hhead := h j List.mem_cons_self depth hdepth
    have htail := ih fun j' hj' => h j' (List.mem_cons_of_mem _ hj')
    rw [draftItems, Draft.holdItems, hhead]
    exact htail

/-- A list can be held one level further out than its items. -/
theorem holds_list {levels : Nat} {js : List Json} (h : ∀ j ∈ js, Holds levels j) :
    Holds (levels + 1) (.list js) := by
  intro depth hdepth
  rw [draft, Draft.hold, if_neg (by omega), holdItems_draftItems (by omega) h]
  rfl

/-- What is read back at some depth is read back further out. -/
theorem Codec.Lawful.mono {α : Type} {c : Codec α} {levels levels' : Nat} (h : c.Lawful levels)
    (hle : levels ≤ levels') : c.Lawful levels' where
  decode_encode v s hs := by
    apply h.decode_encode v s
    cases s with
    | held => exact trivial
    | direct depth => exact Nat.lt_of_le_of_lt hle hs
  holds_encode v depth hdepth := h.holds_encode v depth (Nat.lt_of_le_of_lt hle hdepth)

/-! ## Keys -/

/-- Texts are lawful as keys. -/
theorem KeyCodec.lawful_text : KeyCodec.text.Lawful := by
  intro key s
  rfl

namespace Codec

variable {α β : Type}

/-! ## Single values -/

/-- Texts are lawful. -/
theorem lawful_text (levels : Nat) : text.Lawful levels where
  decode_encode _ _ _ := rfl
  holds_encode _ _ _ := rfl

/-- Truth values are lawful. -/
theorem lawful_flag (levels : Nat) : flag.Lawful levels where
  decode_encode _ _ _ := rfl
  holds_encode _ _ _ := rfl

/-- A natural number of 64 bits is written as such. -/
theorem word?_word (n : UInt64) : (⟨false, n.toNat, [], none⟩ : Numeral).word? = some n := by
  have hn : n.toNat < UInt64.size := n.toNat_lt_size
  rw [Numeral.word?, if_neg (by simp), if_pos hn, UInt64.ofNat_toNat]

/-- Natural numbers of 64 bits are lawful. -/
theorem lawful_word (levels : Nat) : word.Lawful levels where
  decode_encode v s _ := by
    unfold word
    dsimp only
    rw [Json.word, draft, if_pos (Numeral.inRange_word v)]
    simp only [word?_word]
  holds_encode v depth _ := by
    show (Json.word v).draft.hold depth = .ok ()
    rw [Json.word, draft, if_pos (Numeral.inRange_word v)]
    rfl

/-- Values that may be nothing are lawful if none of them looks like nothing. -/
theorem lawful_optional {c : Codec α} {levels : Nat} (h : c.Lawful levels)
    (hnull : ∀ v s, c.decode s .null ≠ .ok v) : c.optional.Lawful levels where
  decode_encode v s hs := by
    cases v with
    | none => rfl
    | some v =>
      have hv := h.decode_encode v s hs
      unfold optional
      dsimp only
      split
      · rename_i heq
        rw [heq] at hv
        exact absurd hv (hnull v s)
      · rw [hv]
        rfl
  holds_encode v depth hdepth := by
    cases v with
    | none => rfl
    | some v => exact h.holds_encode v depth hdepth

/-! ## Lists -/

/-- Written items are read in order. -/
theorem decodeItems_draftItems {c : Codec α} {levels : Nat} (hc : c.Lawful levels) {s : Setting}
    (hs : s.Admits levels) (vs : List α) :
    c.decodeItems s (draftItems (vs.map c.encode)) = .ok vs := by
  induction vs with
  | nil => rfl
  | cons v vs ih =>
    rw [List.map_cons, draftItems, decodeItems, hc.decode_encode v s hs, ih]
    rfl

/-- Lists are lawful. -/
theorem lawful_list {c : Codec α} {levels : Nat} (hc : c.Lawful levels) :
    (list c).Lawful (levels + 1) where
  decode_encode vs s hs := by
    obtain ⟨s', henter, hs'⟩ := hs.enter
    have hitems := decodeItems_draftItems hc hs' vs
    simp only [list, draft, henter]
    show Except.bind (c.decodeItems s' _) _ = _
    rw [hitems]
    rfl
  holds_encode vs := by
    apply holds_list
    intro j hj
    obtain ⟨v, -, rfl⟩ := List.mem_map.mp hj
    exact hc.holds_encode v

/-! ## Tables -/

/-- Written entries are read into a table in order. -/
theorem decodeEntries_draftMembers [Key α] {k : KeyCodec α} {c : Codec β} {levels : Nat}
    (hk : k.Lawful) (hc : c.Lawful levels) {s : Setting} (hs : s.Admits levels)
    (es : List (α × β)) (t : Table α β) :
    decodeEntries k c s t (draftMembers (es.map fun e => (k.encode e.1, c.encode e.2))) =
      .ok (es.foldl (fun t e => t.insert e.1 e.2) t) := by
  induction es generalizing t with
  | nil => rfl
  | cons e es ih =>
    rw [List.map_cons, draftMembers, decodeEntries, hk e.1 s, hc.decode_encode e.2 s hs]
    exact ih (t.insert e.1 e.2)

/-- Tables are lawful. -/
theorem lawful_table [Key α] {k : KeyCodec α} {c : Codec β} {levels : Nat} (hk : k.Lawful)
    (hc : c.Lawful levels) : (table k c).Lawful (levels + 1) where
  decode_encode t s hs := by
    obtain ⟨s', henter, hs'⟩ := hs.enter
    have hentries := decodeEntries_draftMembers hk hc hs' t.entries .empty
    rw [← Table.ofList, Table.ofList_entries] at hentries
    simp only [table, draft, henter]
    show Except.bind (decodeEntries k c s' .empty _) _ = _
    rw [hentries]
    rfl
  holds_encode t := by
    apply holds_object
    intro m hm
    obtain ⟨e, -, rfl⟩ := List.mem_map.mp hm
    exact hc.holds_encode e.2

/-! ## Choices -/

/-- Choices are lawful if each is the one of its name. -/
theorem lawful_choice {choices : List (String × α)} {nameOf : α → String}
    (h : ∀ v, choiceNamed choices (nameOf v) = .ok v) (levels : Nat) :
    (choice choices nameOf).Lawful levels where
  decode_encode v _ _ := h v
  holds_encode _ _ _ := rfl

end Codec

/-! ## Numbers as keys

A number is a key as a text of its digits. None of them is written as an escape, so that between
the quotes stands the number itself.
-/

/-- A digit is written between quotes as it is. -/
theorem escapeChar_of_isDigit {c : Char} (h : isDigit c = true) : escapeChar c = [c] := by
  have hne {d : Char} (hd : isDigit d = false) : c ≠ d := by
    rintro rfl
    rw [h] at hd
    cases hd
  have hcontrol : ¬ c.toNat < 0x20 := by
    have h0 : '0'.toNat = 48 := rfl
    simp only [isDigit, Bool.and_eq_true, decide_eq_true_eq] at h
    omega
  simp [escapeChar, hcontrol, hne (d := '"') rfl, hne (d := '\\') rfl, hne (d := '\x08') rfl,
    hne (d := '\x0c') rfl, hne (d := '\n') rfl, hne (d := '\r') rfl, hne (d := '\t') rfl]

/-- So are all characters that are not escaped. -/
theorem literalTail_of_plain {cs : List Char} (h : ∀ c ∈ cs, escapeChar c = [c]) :
    literalTail cs = cs ++ ['"'] := by
  rw [literalTail]
  congr 1
  induction cs with
  | nil => rfl
  | cons c cs ih =>
    obtain ⟨hc, hrest⟩ := List.forall_mem_cons.mp h
    rw [List.flatMap_cons, hc, ih hrest]
    rfl

/-- So are all digits of a number. -/
theorem literalTail_digits (n : Nat) : literalTail (digits n) = digits n ++ ['"'] :=
  literalTail_of_plain fun _ hc => escapeChar_of_isDigit (isDigit_of_mem_digits hc)

/-- Digits with the closing quote behind them are read as their number. -/
theorem KeyCodec.wordWithin_digits (n : UInt64) :
    wordWithin (digits n.toNat ++ ['"']) = .ok n := by
  have hend : NumberEnd ['"'] := by
    intro c hc
    cases hc
    decide
  have hread := readNumber_chars ⟨false, n.toNat, [], none⟩ hend
  have hchars : (⟨false, n.toNat, [], none⟩ : Numeral).unsignedChars = digits n.toNat :=
    List.append_nil _
  rw [hchars, draft, if_pos (Numeral.inRange_word n)] at hread
  cases hds : digits n.toNat with
  | nil => exact absurd hds (digits_ne_nil _)
  | cons d ds =>
    have hd : isDigit d = true := isDigit_of_mem_digits (hds ▸ List.mem_cons_self)
    rw [hds, List.cons_append] at hread
    have hvalue := (readValue_digit hd 0 (ds ++ ['"'])).trans hread
    have hfirst : (d == '-' || isDigit d) = true := by rw [hd, Bool.or_true]
    rw [List.cons_append, wordWithin]
    simp only [if_pos hfirst, hvalue, Codec.word?_word]

/-- Natural numbers of 64 bits are lawful as keys. -/
theorem KeyCodec.lawful_word : KeyCodec.word.Lawful := by
  intro n s
  have hwritten : (Literal.ofString (KeyCodec.word.encode n)).written =
      digits n.toNat ++ ['"'] := by
    show literalTail (String.ofList (digits n.toNat)).toList = _
    rw [String.toList_ofList, literalTail_digits]
  show wordWithin (Literal.ofString (KeyCodec.word.encode n)).written = .ok n
  rw [hwritten, wordWithin_digits]

end Postmortem.Json
