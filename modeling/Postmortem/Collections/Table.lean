import Postmortem.Collections.Key

/-!
# Tables

Finite maps as lists of entries with strictly ascending keys. The order is part of the type, so two
tables with the same entries are equal, and listing a table needs no sorting.
-/

namespace Postmortem

/-- A finite map. -/
structure Table (α β : Type) [Key α] where
  /-- The entries, by ascending key. -/
  entries : List (α × β)
  ascending : entries.Pairwise fun a b => Key.before a.1 b.1 = true

namespace Table

variable {α β : Type} [Key α]

@[ext] theorem ext {s t : Table α β} (h : s.entries = t.entries) : s = t := by
  cases s; cases t; cases h; rfl

instance [DecidableEq α] [DecidableEq β] : DecidableEq (Table α β) := fun s t =>
  decidable_of_iff (s.entries = t.entries) ⟨ext, fun h => h ▸ rfl⟩

instance [Repr α] [Repr β] : Repr (Table α β) := ⟨fun t p => reprPrec t.entries p⟩

/-- The table without entries. -/
def empty : Table α β := ⟨[], List.Pairwise.nil⟩

instance : Inhabited (Table α β) := ⟨empty⟩

/-- The keys, ascending. -/
def keys (t : Table α β) : List α := t.entries.map (·.1)

/-- The value of a key. -/
def get? (t : Table α β) (k : α) : Option β :=
  (t.entries.find? fun e => !Key.before e.1 k && !Key.before k e.1).map (·.2)

/-- Puts an entry in its place, over one of the same key. -/
def insertEntry (k : α) (v : β) : List (α × β) → List (α × β)
  | [] => [(k, v)]
  | e :: es =>
    if Key.before k e.1 then (k, v) :: e :: es
    else if Key.before e.1 k then e :: insertEntry k v es
    else (k, v) :: es

theorem mem_insertEntry {k : α} {v : β} {a : α × β} {es : List (α × β)}
    (h : a ∈ insertEntry k v es) : a = (k, v) ∨ a ∈ es := by
  induction es with
  | nil => simpa [insertEntry] using h
  | cons e es ih =>
    rw [insertEntry] at h
    split at h
    · simpa using h
    · split at h
      · rcases List.mem_cons.mp h with rfl | h
        · simp
        · rcases ih h with h | h <;> simp [h]
      · rcases List.mem_cons.mp h with rfl | h <;> simp_all

theorem insertEntry_ascending {k : α} {v : β} {es : List (α × β)}
    (h : es.Pairwise fun a b => Key.before a.1 b.1 = true) :
    (insertEntry k v es).Pairwise fun a b => Key.before a.1 b.1 = true := by
  induction es with
  | nil => simp [insertEntry]
  | cons e es ih =>
    have he := List.pairwise_cons.mp h
    rw [insertEntry]
    split
    · rename_i hk
      refine List.pairwise_cons.mpr ⟨fun a ha => ?_, h⟩
      rcases List.mem_cons.mp ha with rfl | ha
      · exact hk
      · exact Key.before_trans hk (he.1 a ha)
    · split
      · rename_i hk
        refine List.pairwise_cons.mpr ⟨fun a ha => ?_, ih he.2⟩
        rcases mem_insertEntry ha with rfl | ha
        · exact hk
        · exact he.1 a ha
      · rename_i h₁ h₂
        have : k = e.1 := Key.eq_of_not_before (by simpa using h₁) (by simpa using h₂)
        exact List.pairwise_cons.mpr ⟨fun a ha => this ▸ he.1 a ha, he.2⟩

/-- The table with one more entry; an entry of the same key is replaced. -/
def insert (t : Table α β) (k : α) (v : β) : Table α β :=
  ⟨insertEntry k v t.entries, insertEntry_ascending t.ascending⟩

/-- The table without the entry of a key. -/
def erase (t : Table α β) (k : α) : Table α β :=
  ⟨t.entries.filter fun e => Key.before e.1 k || Key.before k e.1, t.ascending.filter _⟩

/-- The table of these entries; of several with one key the last counts. -/
def ofList (es : List (α × β)) : Table α β := es.foldl (fun t e => t.insert e.1 e.2) empty

end Table

end Postmortem
