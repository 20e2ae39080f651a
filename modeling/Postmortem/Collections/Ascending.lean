import Postmortem.Collections.Key

/-!
# Ascending lists

Sets as lists in strictly ascending order. Each set has one such list, whatever the order in which
its members were added.
-/

namespace Postmortem

/-- A list in strictly ascending order. -/
def Ascending {α : Type} [Key α] (xs : List α) : Prop :=
  xs.Pairwise fun a b => Key.before a b = true

namespace Ascending

variable {α : Type} [Key α]

/-- Puts a member in its place, unless it is there. -/
def insert (x : α) : List α → List α
  | [] => [x]
  | y :: ys =>
    if Key.before x y then x :: y :: ys
    else if Key.before y x then y :: insert x ys
    else y :: ys

/-- The members of a list, in ascending order, each once. -/
def ofList (xs : List α) : List α := xs.foldl (fun acc x => insert x acc) []

/-- Adds the members of a list. -/
def union (xs ys : List α) : List α := ys.foldl (fun acc y => insert y acc) xs

theorem mem_insert {x a : α} {xs : List α} : a ∈ insert x xs ↔ a = x ∨ a ∈ xs := by
  induction xs with
  | nil => simp [insert]
  | cons y ys ih =>
    rw [insert]
    split
    · simp
    · split
      · simp [ih, or_left_comm]
      · rename_i h k
        have : x = y := Key.eq_of_not_before (by simpa using h) (by simpa using k)
        simp [this]

theorem insert_ascending {x : α} {xs : List α} (h : Ascending xs) : Ascending (insert x xs) := by
  induction xs with
  | nil => simp [insert, Ascending]
  | cons y ys ih =>
    have hy := List.pairwise_cons.mp h
    rw [insert]
    split
    · rename_i hxy
      refine List.pairwise_cons.mpr ⟨fun a ha => ?_, h⟩
      rcases List.mem_cons.mp ha with rfl | ha
      · exact hxy
      · exact Key.before_trans hxy (hy.1 a ha)
    · split
      · rename_i hyx
        refine List.pairwise_cons.mpr ⟨fun a ha => ?_, ih hy.2⟩
        rcases mem_insert.mp ha with rfl | ha
        · exact hyx
        · exact hy.1 a ha
      · exact h

theorem mem_union {a : α} {xs ys : List α} : a ∈ union xs ys ↔ a ∈ xs ∨ a ∈ ys := by
  induction ys generalizing xs with
  | nil => simp [union]
  | cons y ys ih =>
    have : union xs (y :: ys) = union (insert y xs) ys := rfl
    rw [this, ih, mem_insert]
    simp [or_left_comm, or_assoc]

theorem mem_ofList {a : α} {xs : List α} : a ∈ ofList xs ↔ a ∈ xs := by
  have : ofList xs = union [] xs := rfl
  simp [this, mem_union]

theorem union_ascending {xs ys : List α} (h : Ascending xs) : Ascending (union xs ys) := by
  induction ys generalizing xs with
  | nil => exact h
  | cons y ys ih => exact ih (insert_ascending h)

theorem ofList_ascending (xs : List α) : Ascending (ofList xs) :=
  union_ascending List.Pairwise.nil

end Ascending

end Postmortem
