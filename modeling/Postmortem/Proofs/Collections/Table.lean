import Postmortem.Collections.Table

/-!
# Looking up in tables

What a table holds for a key after entries have been added or taken away, and that a table is no
more than what it holds for each key. A lookup compares keys by their order alone, so everything
rests on two keys being equal when neither comes before the other.
-/

namespace Postmortem

namespace Key

variable {α : Type} [Key α]

/-- Two keys are equal exactly when neither comes before the other. -/
theorem not_before_iff {a b : α} : (!before a b && !before b a) = true ↔ a = b := by
  constructor
  · intro h
    simp only [Bool.and_eq_true, Bool.not_eq_true'] at h
    exact eq_of_not_before h.1 h.2
  · rintro rfl
    simp [before_irrefl]

/-- Of two different keys, one comes before the other. -/
theorem before_or_before {a b : α} (h : a ≠ b) : before a b = true ∨ before b a = true := by
  cases hab : before a b with
  | true => exact Or.inl rfl
  | false =>
    cases hba : before b a with
    | true => exact Or.inr rfl
    | false => exact absurd (eq_of_not_before hab hba) h

/-- No two keys come before each other. -/
theorem before_asymm {a b : α} (h : before a b = true) : before b a = false := by
  cases hba : before b a with
  | false => rfl
  | true =>
    have hself := before_trans h hba
    rw [before_irrefl] at hself
    exact absurd hself (by simp)

end Key

namespace Table

variable {α β : Type} [Key α]

/-- An entry can be looked up by its key. -/
theorem get?_of_mem {t : Table α β} {k : α} {v : β} (h : (k, v) ∈ t.entries) :
    t.get? k = some v := by
  have go : ∀ es : List (α × β), es.Pairwise (fun a b => Key.before a.1 b.1 = true) →
      (k, v) ∈ es →
      es.find? (fun e => !Key.before e.1 k && !Key.before k e.1) = some (k, v) := by
    intro es hes hmem
    induction es with
    | nil => exact absurd hmem (by simp)
    | cons e es ih =>
      have hcons := List.pairwise_cons.mp hes
      rw [List.find?_cons]
      rcases List.mem_cons.mp hmem with rfl | hmem
      · rw [Key.not_before_iff.mpr rfl]
      · -- an earlier entry comes before this one, so it has another key
        have hlt : Key.before e.1 k = true := hcons.1 _ hmem
        simp only [hlt, Bool.not_true, Bool.false_and]
        exact ih hcons.2 hmem
  rw [get?, go t.entries t.ascending h]
  rfl

/-- What is found for a key is one of the entries. -/
theorem mem_of_get? {t : Table α β} {k : α} {v : β} (h : t.get? k = some v) :
    (k, v) ∈ t.entries := by
  rw [get?, Option.map_eq_some_iff] at h
  obtain ⟨e, he, rfl⟩ := h
  have hk := List.find?_some he
  rw [← Key.not_before_iff.mp hk]
  exact List.mem_of_find?_eq_some he

/-- A list with a new entry in its place has that entry. -/
theorem mem_insertEntry_self (k : α) (v : β) (es : List (α × β)) :
    (k, v) ∈ insertEntry k v es := by
  induction es with
  | nil => simp [insertEntry]
  | cons e es ih =>
    rw [insertEntry]
    split
    · simp
    · split
      · exact List.mem_cons_of_mem _ ih
      · simp

/-- Entries of other keys stay where an entry is put in its place. -/
theorem mem_insertEntry_of_ne {k : α} {v : β} {a : α × β} {es : List (α × β)} (hne : a.1 ≠ k) :
    a ∈ insertEntry k v es ↔ a ∈ es := by
  have hnew : a ≠ (k, v) := fun h => hne (by rw [h])
  induction es with
  | nil => simp [insertEntry, hnew]
  | cons e es ih =>
    rw [insertEntry]
    split
    · simp [hnew]
    · split
      · simp [ih]
      · rename_i h₁ h₂
        have hk : k = e.1 := Key.eq_of_not_before (by simpa using h₁) (by simpa using h₂)
        have hold : a ≠ e := fun h => hne (by rw [h, hk])
        simp [hnew, hold]

/-- The entry that was put in last is found. -/
@[simp] theorem get?_insert_self (t : Table α β) (k : α) (v : β) :
    (t.insert k v).get? k = some v :=
  get?_of_mem (mem_insertEntry_self k v t.entries)

/-- Putting an entry in does not change what is found for another key. -/
theorem get?_insert_of_ne {t : Table α β} {k k' : α} {v : β} (h : k' ≠ k) :
    (t.insert k v).get? k' = t.get? k' := by
  apply Option.ext
  intro w
  constructor
  · intro hw
    exact get?_of_mem ((mem_insertEntry_of_ne h).mp (mem_of_get? hw))
  · intro hw
    exact get?_of_mem ((mem_insertEntry_of_ne h).mpr (mem_of_get? hw))

/-- Taking an entry away does not change what is found for another key. -/
theorem get?_erase_of_ne {t : Table α β} {k k' : α} (h : k' ≠ k) :
    (t.erase k).get? k' = t.get? k' := by
  have hmem : ∀ v : β, (k', v) ∈ (t.erase k).entries ↔ (k', v) ∈ t.entries := by
    intro v
    rw [erase, List.mem_filter, Bool.or_eq_true]
    exact ⟨fun hv => hv.1, fun hv => ⟨hv, Key.before_or_before h⟩⟩
  apply Option.ext
  intro w
  exact ⟨fun hw => get?_of_mem ((hmem w).mp (mem_of_get? hw)),
    fun hw => get?_of_mem ((hmem w).mpr (mem_of_get? hw))⟩

/-- Nothing is found for a key whose entry was taken away. -/
@[simp] theorem get?_erase_self (t : Table α β) (k : α) : (t.erase k).get? k = none := by
  rw [Option.eq_none_iff_forall_ne_some]
  intro v hv
  have hmem := mem_of_get? hv
  rw [erase, List.mem_filter] at hmem
  simp [Key.before_irrefl] at hmem

/-- An entry of a table is found for its key, and nothing else is. -/
theorem mem_entries_iff {t : Table α β} {k : α} {v : β} :
    (k, v) ∈ t.entries ↔ t.get? k = some v :=
  ⟨get?_of_mem, mem_of_get?⟩

/-- The keys of a table are those for which something is found. -/
theorem mem_keys_iff {t : Table α β} {k : α} : k ∈ t.keys ↔ ∃ v, t.get? k = some v := by
  rw [keys, List.mem_map]
  constructor
  · rintro ⟨⟨k, v⟩, hmem, rfl⟩
    exact ⟨v, get?_of_mem hmem⟩
  · rintro ⟨v, hv⟩
    exact ⟨(k, v), mem_of_get? hv, rfl⟩

/-- Putting an entry in adds its key. -/
theorem mem_keys_insert_iff {t : Table α β} {k k' : α} {v : β} :
    k' ∈ (t.insert k v).keys ↔ k' = k ∨ k' ∈ t.keys := by
  rw [mem_keys_iff, mem_keys_iff]
  by_cases h : k' = k
  · rw [h, get?_insert_self]
    exact iff_of_true ⟨v, rfl⟩ (.inl rfl)
  · rw [get?_insert_of_ne h, or_iff_right h]

/-- Taking an entry away takes its key away. -/
theorem mem_keys_erase_iff {t : Table α β} {k k' : α} :
    k' ∈ (t.erase k).keys ↔ k' ≠ k ∧ k' ∈ t.keys := by
  rw [mem_keys_iff, mem_keys_iff]
  by_cases h : k' = k
  · rw [h, get?_erase_self]
    exact iff_of_false (by simp) (fun hk => hk.1 rfl)
  · rw [get?_erase_of_ne h, and_iff_right h]

/-- A table without keys is empty. -/
theorem eq_empty_of_keys {t : Table α β} (h : ∀ k, k ∉ t.keys) : t = empty := by
  apply ext
  exact List.map_eq_nil_iff.mp (List.eq_nil_iff_forall_not_mem.mpr h)

/-- No entry of a table repeats another. -/
theorem nodup_entries (t : Table α β) : t.entries.Nodup := by
  apply t.ascending.imp
  rintro a b hlt rfl
  rw [Key.before_irrefl] at hlt
  exact absurd hlt (by simp)

/-- **Tables that hold the same for every key are equal.** -/
theorem eq_of_get?_eq {s t : Table α β} (h : ∀ k, s.get? k = t.get? k) : s = t := by
  apply ext
  have hperm : s.entries.Perm t.entries := by
    rw [List.perm_ext_iff_of_nodup s.nodup_entries t.nodup_entries]
    rintro ⟨k, v⟩
    rw [mem_entries_iff, mem_entries_iff, h k]
  apply hperm.eq_of_pairwise _ s.ascending t.ascending
  intro a b _ _ hab hba
  rw [Key.before_asymm hab] at hba
  exact absurd hba (by simp)

/-! ## Tables made from entries -/

/-- An entry of a key behind all others goes to the end. -/
theorem insertEntry_of_last {k : α} {v : β} {es : List (α × β)}
    (h : ∀ e ∈ es, Key.before e.1 k = true) : insertEntry k v es = es ++ [(k, v)] := by
  induction es with
  | nil => rfl
  | cons e es ih =>
    have he := h e List.mem_cons_self
    rw [insertEntry, if_neg (by rw [Key.before_asymm he]; simp), if_pos he,
      ih fun e' he' => h e' (List.mem_cons_of_mem _ he')]
    rfl

/-- Entries with ascending keys behind all others go to the end. -/
theorem entries_foldl_insert (es : List (α × β)) (t : Table α β)
    (h : (t.entries ++ es).Pairwise fun a b => Key.before a.1 b.1 = true) :
    (es.foldl (fun t e => t.insert e.1 e.2) t).entries = t.entries ++ es := by
  induction es generalizing t with
  | nil => exact (List.append_nil _).symm
  | cons e es ih =>
    have hlast : ∀ e' ∈ t.entries, Key.before e'.1 e.1 = true := by
      intro e' he'
      exact (List.pairwise_append.mp h).2.2 e' he' e List.mem_cons_self
    have hinsert : (t.insert e.1 e.2).entries = t.entries ++ [e] := insertEntry_of_last hlast
    rw [List.append_cons, ← hinsert] at h
    rw [List.foldl_cons, ih (t.insert e.1 e.2) h, hinsert, List.append_assoc]
    rfl

/-- **The table of the entries of a table is that table.** -/
theorem ofList_entries (t : Table α β) : ofList t.entries = t := by
  apply ext
  exact entries_foldl_insert t.entries empty t.ascending

/-! ## Tables made from others -/

/-- The table that holds `f v` where another holds `v`, if that is something. -/
def filterMap {γ : Type} (f : β → Option γ) (t : Table α β) : Table α γ where
  entries := t.entries.filterMap fun e => (f e.2).map fun v => (e.1, v)
  ascending := by
    apply t.ascending.filterMap
    intro a b hlt c hc d hd
    obtain ⟨v, -, rfl⟩ := Option.map_eq_some_iff.mp hc
    obtain ⟨w, -, rfl⟩ := Option.map_eq_some_iff.mp hd
    exact hlt

@[simp] theorem get?_filterMap {γ : Type} (f : β → Option γ) (t : Table α β) (k : α) :
    (t.filterMap f).get? k = (t.get? k).bind f := by
  apply Option.ext
  intro w
  rw [← mem_entries_iff, filterMap, List.mem_filterMap, Option.bind_eq_some_iff]
  constructor
  · rintro ⟨⟨l, v⟩, hmem, hv⟩
    obtain ⟨w', hw, heq⟩ := Option.map_eq_some_iff.mp hv
    obtain ⟨rfl, rfl⟩ := Prod.mk.inj heq
    exact ⟨v, get?_of_mem hmem, hw⟩
  · rintro ⟨v, hv, hw⟩
    exact ⟨(k, v), mem_of_get? hv, by rw [hw]; rfl⟩

/-- Making a table from one that was made from another goes in one step. -/
theorem filterMap_filterMap {γ δ : Type} (f : β → Option γ) (g : γ → Option δ) (t : Table α β) :
    (t.filterMap f).filterMap g = t.filterMap fun v => (f v).bind g := by
  apply eq_of_get?_eq
  intro k
  rw [get?_filterMap, get?_filterMap, get?_filterMap, Option.bind_assoc]

end Table

end Postmortem
