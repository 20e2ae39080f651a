import Postmortem.Collections.Key
import Postmortem.Proofs.Text.Utf8

/-!
# The order of texts is the order of their bytes

Texts are listed in the order of their code points. It is also the order in which their UTF-8 bytes
are listed, so that no encoded text has to be decoded to find its place.

## Shape of the argument

Of two characters, the greater one does not have fewer bytes, its first byte is greater if it has
more, and otherwise its bytes are the greater digits. The first difference of two texts is thus one
of their bytes, too (`encodeChar_append_lt`), and whatever comes after it does not count.
-/

namespace Postmortem.Text.Utf8

/-- Of two lists of bytes, the one with the greater first byte is greater. -/
theorem byte_cons_lt {m n : Nat} (hlt : m < n) (hn : n < 256) (as bs : List UInt8) :
    UInt8.ofNat m :: as < UInt8.ofNat n :: bs := by
  rw [List.cons_lt_cons_iff]
  left
  rw [UInt8.lt_iff_toNat_lt, UInt8.toNat_ofNat', UInt8.toNat_ofNat', Nat.mod_eq_of_lt hn,
    Nat.mod_eq_of_lt (Nat.lt_trans hlt hn)]
  exact hlt

/-- If the first bytes are equal, the rest decides. -/
theorem byte_cons_lt_of_le {m n : Nat} {as bs : List UInt8} (hle : m ≤ n) (hn : n < 256)
    (hrest : m = n → as < bs) : UInt8.ofNat m :: as < UInt8.ofNat n :: bs := by
  rcases Nat.lt_or_eq_of_le hle with hlt | heq
  · exact byte_cons_lt hlt hn as bs
  · rw [List.cons_lt_cons_iff]
    exact .inr ⟨congrArg UInt8.ofNat heq, hrest heq⟩

/-- The bytes of a smaller character come before those of a greater one, whatever follows. -/
theorem encodeChar_append_lt {a b : Char} (h : a.toNat < b.toNat) (as bs : List UInt8) :
    String.utf8EncodeChar a ++ as < String.utf8EncodeChar b ++ bs := by
  have ha : a.val.toNat = a.toNat := rfl
  have hb : b.val.toNat = b.toNat := rfl
  have hlast : b.toNat < 0x110000 := by
    rcases b.valid with hvalid | hvalid
    · exact Nat.lt_trans hvalid (by decide)
    · exact hvalid.2
  rw [String.utf8EncodeChar, String.utf8EncodeChar]
  simp only [ha, hb]
  -- as many cases as the smaller character can have bytes, and then the greater one
  by_cases h1 : a.toNat ≤ 0x7f
  · rw [if_pos h1]
    repeat' split
    all_goals exact byte_cons_lt (by omega) (by omega) _ _
  rw [if_neg h1, if_neg (show ¬ b.toNat ≤ 0x7f by omega)]
  by_cases h2 : a.toNat ≤ 0x7ff
  · rw [if_pos h2]
    by_cases h2' : b.toNat ≤ 0x7ff
    · rw [if_pos h2']
      refine byte_cons_lt_of_le (by omega) (by omega) fun hfirst => ?_
      exact byte_cons_lt (by omega) (by omega) _ _
    · rw [if_neg h2']
      split <;> exact byte_cons_lt (by omega) (by omega) _ _
  rw [if_neg h2, if_neg (show ¬ b.toNat ≤ 0x7ff by omega)]
  by_cases h3 : a.toNat ≤ 0xffff
  · rw [if_pos h3]
    by_cases h3' : b.toNat ≤ 0xffff
    · rw [if_pos h3']
      refine byte_cons_lt_of_le (by omega) (by omega) fun hfirst => ?_
      refine byte_cons_lt_of_le (by omega) (by omega) fun hsecond => ?_
      exact byte_cons_lt (by omega) (by omega) _ _
    · rw [if_neg h3']
      exact byte_cons_lt (by omega) (by omega) _ _
  rw [if_neg h3, if_neg (show ¬ b.toNat ≤ 0xffff by omega)]
  refine byte_cons_lt_of_le (by omega) (by omega) fun hfirst => ?_
  refine byte_cons_lt_of_le (by omega) (by omega) fun hsecond => ?_
  refine byte_cons_lt_of_le (by omega) (by omega) fun hthird => ?_
  exact byte_cons_lt (by omega) (by omega) _ _

/-- The bytes of an earlier text come first. -/
theorem encode_lt_encode {as bs : List Char} (h : Key.charsBefore as bs = true) :
    encode as < encode bs := by
  induction as generalizing bs with
  | nil =>
    cases bs with
    | nil => exact absurd h (by simp [Key.charsBefore])
    | cons b bs =>
      obtain ⟨byte, bytes, hbytes⟩ :=
        List.exists_cons_of_ne_nil (String.utf8EncodeChar_ne_nil (c := b))
      rw [encode_cons, hbytes, List.cons_append]
      exact List.nil_lt_cons _ _
  | cons a as ih =>
    cases bs with
    | nil => exact absurd h (by simp [Key.charsBefore])
    | cons b bs =>
      rw [Key.charsBefore] at h
      rw [encode_cons, encode_cons]
      by_cases hlt : a.toNat < b.toNat
      · exact encodeChar_append_lt hlt _ _
      · rw [if_neg hlt] at h
        by_cases hgt : b.toNat < a.toNat
        · rw [if_pos hgt] at h
          exact absurd h (by decide)
        · rw [if_neg hgt] at h
          have heq : a = b := Char.toNat_inj.mp (by omega)
          rw [heq]
          exact List.append_left_lt (ih h)

/-- **Texts are ordered as their bytes are.** -/
theorem ofString_lt_ofString_iff {s t : String} :
    ofString s < ofString t ↔ Key.before s t = true := by
  constructor
  · intro h
    -- of two texts one comes first, unless they are the same
    by_cases hfirst : Key.before s t = true
    · exact hfirst
    · exfalso
      by_cases hlater : Key.before t s = true
      · exact List.lt_asymm h (encode_lt_encode hlater)
      · have heq : s = t := Key.eq_of_not_before (by simpa using hfirst) (by simpa using hlater)
        rw [heq] at h
        exact List.lt_irrefl _ h
  · exact encode_lt_encode

end Postmortem.Text.Utf8
