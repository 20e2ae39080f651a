/-!
# Keys

The order in which collections list their members. Texts are ordered by their characters' code
points, which is also the order of their UTF-8 bytes; numbers by size.
-/

namespace Postmortem

/-- A type whose members are strictly and totally ordered. -/
class Key (α : Type) where
  /-- Whether one member comes before another. -/
  before : α → α → Bool
  before_irrefl (a : α) : before a a = false
  before_trans {a b c : α} : before a b = true → before b c = true → before a c = true
  eq_of_not_before {a b : α} : before a b = false → before b a = false → a = b

namespace Key

/-- Whether one list of characters comes before another, by the first code point in which they
differ. -/
def charsBefore : List Char → List Char → Bool
  | _, [] => false
  | [], _ :: _ => true
  | a :: as, b :: bs =>
    if a.toNat < b.toNat then true else if b.toNat < a.toNat then false else charsBefore as bs

theorem charsBefore_irrefl (as : List Char) : charsBefore as as = false := by
  induction as with
  | nil => rfl
  | cons a as ih => simp [charsBefore, ih]

theorem charsBefore_trans {as bs cs : List Char} :
    charsBefore as bs = true → charsBefore bs cs = true → charsBefore as cs = true := by
  induction as generalizing bs cs with
  | nil =>
    cases bs with
    | nil => simp [charsBefore]
    | cons b bs => cases cs <;> simp [charsBefore]
  | cons a as ih =>
    cases bs with
    | nil => simp [charsBefore]
    | cons b bs =>
      cases cs with
      | nil => simp [charsBefore]
      | cons c cs =>
        intro h k
        simp only [charsBefore] at h k ⊢
        split at h
        · split at k
          · rw [if_pos (by omega)]
          · split at k
            · simp at k
            · rw [if_pos (by omega)]
        · split at h
          · simp at h
          · split at k
            · rw [if_pos (by omega)]
            · split at k
              · simp at k
              · rw [if_neg (by omega), if_neg (by omega)]
                exact ih h k

theorem eq_of_not_charsBefore {as bs : List Char} :
    charsBefore as bs = false → charsBefore bs as = false → as = bs := by
  induction as generalizing bs with
  | nil => cases bs <;> simp [charsBefore]
  | cons a as ih =>
    cases bs with
    | nil => simp [charsBefore]
    | cons b bs =>
      intro h k
      simp only [charsBefore] at h k
      split at h
      · simp at h
      · split at h
        · rename_i h₁ h₂
          rw [if_pos h₂] at k
          simp at k
        · rename_i h₁ h₂
          rw [if_neg h₂, if_neg h₁] at k
          have : a = b := Char.toNat_inj.mp (by omega)
          rw [this, ih h k]

instance : Key String where
  before a b := charsBefore a.toList b.toList
  before_irrefl a := charsBefore_irrefl a.toList
  before_trans := charsBefore_trans
  eq_of_not_before h k := String.toList_inj.mp (eq_of_not_charsBefore h k)

instance : Key Nat where
  before a b := decide (a < b)
  before_irrefl a := by simp
  before_trans h k := by simp only [decide_eq_true_eq] at *; omega
  eq_of_not_before h k := by simp only [decide_eq_false_iff_not] at *; omega

instance : Key UInt64 where
  before a b := decide (a.toNat < b.toNat)
  before_irrefl a := by simp
  before_trans h k := by simp only [decide_eq_true_eq] at *; omega
  eq_of_not_before h k := by
    simp only [decide_eq_false_iff_not] at *
    exact UInt64.toNat_inj.mp (by omega)

end Key

end Postmortem
