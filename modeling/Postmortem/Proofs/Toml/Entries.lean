import Postmortem.Proofs.Number.Decimal
import Postmortem.Toml.Reader

/-!
# What a settings file holds

A file that is read gives no key of its main table twice, and its values are those of the format:
integers have 64 bits, floating-point numbers are those of binary64. Both are kept by every line, so
they hold of the whole file.
-/

namespace Postmortem.Toml

open Number

/-! ## Values -/

/-- Whether a value is one of the format. -/
def Value.IsSound : Value → Prop
  | .integer n => Int64.minValue.toInt ≤ n ∧ n ≤ Int64.maxValue.toInt
  | .float x => x.InFormat
  | _ => True

/-- An integer of the format has 64 bits. -/
theorem isSound_of_integerOf? {n : Int} {v : Value} (h : integerOf? n = some v) : v.IsSound := by
  rw [integerOf?] at h
  split at h
  · rename_i hrange
    cases h
    simpa [Value.IsSound] using hrange
  · cases h

theorem isSound_of_basedInteger? {base : Nat} {cs rest : List Char} {v : Value}
    (h : basedInteger? base cs = some (v, rest)) : v.IsSound := by
  rw [basedInteger?] at h
  obtain ⟨⟨ds, after⟩, -, h⟩ := Option.bind_eq_some_iff.mp h
  obtain ⟨w, hw, h⟩ := Option.bind_eq_some_iff.mp h
  cases h
  exact isSound_of_integerOf? hw

theorem isSound_of_integer? {cs rest : List Char} {v : Value}
    (h : integer? cs = some (v, rest)) : v.IsSound := by
  rw [integer?.eq_def] at h
  split at h
  · exact isSound_of_basedInteger? h
  · exact isSound_of_basedInteger? h
  · exact isSound_of_basedInteger? h
  · obtain ⟨⟨ds, after⟩, -, h⟩ := Option.bind_eq_some_iff.mp h
    obtain ⟨w, hw, h⟩ := Option.bind_eq_some_iff.mp h
    cases h
    exact isSound_of_integerOf? hw

theorem isSound_of_specialFloat? {negative : Bool} {cs rest : List Char} {v : Value}
    (h : specialFloat? negative cs = some (v, rest)) : v.IsSound := by
  rw [specialFloat?.eq_def] at h
  split at h <;> cases h <;> trivial

/-- A floating-point number that is read is one of binary64. -/
theorem isSound_of_float? {cs rest : List Char} {v : Value} (h : float? cs = some (v, rest)) :
    v.IsSound := by
  have hnumber {negative : Bool} {ds after : List Char}
      (h : ((Binary64.ofUnsigned? negative ds).bind fun x =>
        if (x == .infinite false) = true then none else some (Value.float x, after)) =
          some (v, rest)) : v.IsSound := by
    obtain ⟨x, hx, h⟩ := Option.bind_eq_some_iff.mp h
    split at h
    · cases h
    · cases h
      exact Binary64.inFormat_of_ofUnsigned? hx
  rw [float?] at h
  split at h
  split at h
  · rename_i hspecial
    cases h
    exact isSound_of_specialFloat? hspecial
  · obtain ⟨⟨whole, after⟩, -, h⟩ := Option.bind_eq_some_iff.mp h
    dsimp only at h
    split at h
    · obtain ⟨⟨fraction, after⟩, -, h⟩ := Option.bind_eq_some_iff.mp h
      dsimp only at h
      split at h
      · exact hnumber h
      · exact hnumber h
    · obtain ⟨⟨tail, after⟩, -, h⟩ := Option.bind_eq_some_iff.mp h
      exact hnumber h

theorem isSound_of_moment? {cs rest : List Char} {v : Value} (h : moment? cs = some (v, rest)) :
    v.IsSound := by
  have hmoment : v = .moment := by
    rw [moment?] at h
    split at h
    · split at h
      · split at h
        · split at h
          · obtain ⟨r, -, heq⟩ := Option.map_eq_some_iff.mp h
            cases heq
            rfl
          · cases h
            rfl
        · cases h
          rfl
      · cases h
        rfl
    · obtain ⟨r, -, heq⟩ := Option.map_eq_some_iff.mp h
      cases heq
      rfl
  rw [hmoment]
  trivial

theorem isSound_of_numeric? {cs rest : List Char} {v : Value} (h : numeric? cs = some (v, rest)) :
    v.IsSound := by
  rw [numeric?, Option.or_eq_some_iff, Option.or_eq_some_iff] at h
  rcases h with h | ⟨-, h | ⟨-, h⟩⟩
  · exact isSound_of_moment? h
  · exact isSound_of_float? h
  · exact isSound_of_integer? h

/-- **A value that is read is one of the format.** -/
theorem isSound_of_value? {depth fuel : Nat} {cs rest : List Char} {v : Value}
    (h : value? depth fuel cs = some (v, rest)) : v.IsSound := by
  cases fuel with
  | zero => rw [value?] at h; cases h
  | succ fuel =>
    cases cs with
    | nil => rw [value?] at h; cases h
    | cons c cs =>
      rw [value?] at h
      split at h
      · -- a text
        obtain ⟨r, -, heq⟩ := Option.map_eq_some_iff.mp h
        cases heq
        trivial
      split at h
      · -- a list
        split at h
        · cases h
        split at h
        · cases h
          trivial
        · obtain ⟨r, -, heq⟩ := Option.map_eq_some_iff.mp h
          cases heq
          trivial
      split at h
      · -- a table
        split at h
        · cases h
        split at h
        · cases h
          trivial
        · obtain ⟨⟨pairs, after⟩, -, h⟩ := Option.bind_eq_some_iff.mp h
          obtain ⟨w, hw, h⟩ := Option.bind_eq_some_iff.mp h
          cases h
          rw [closedTable?] at hw
          obtain ⟨es, -, hw⟩ := Option.bind_eq_some_iff.mp hw
          cases hw
          trivial
      split at h
      · exact isSound_of_numeric? h
      split at h
      · cases h
        trivial
      · cases h
        trivial
      · exact isSound_of_specialFloat? h

/-! ## Entries -/

namespace Entries

/-- Whether no key is given twice, and all values are of the format. -/
structure IsSound (es : Entries) : Prop where
  nodup : (es.map Prod.fst).Nodup
  values : ∀ key v, (key, Item.value v) ∈ es → v.IsSound

theorem isSound_nil : IsSound [] := ⟨List.nodup_nil, by simp⟩

/-- An item that is set takes the place of the one before it, or the last place. -/
theorem keys_set (es : Entries) (key : String) (i : Item) :
    (es.set key i).map Prod.fst =
      if key ∈ es.map Prod.fst then es.map Prod.fst else es.map Prod.fst ++ [key] := by
  have hany : es.any (·.1 == key) = true ↔ key ∈ es.map Prod.fst := by
    simp [List.any_eq_true]
  rw [set]
  by_cases hmem : key ∈ es.map Prod.fst
  · rw [if_pos (hany.mpr hmem), if_pos hmem, List.map_map]
    refine List.map_congr_left fun e _ => ?_
    rw [Function.comp_apply]
    split
    · rename_i heq
      exact (beq_iff_eq.mp heq).symm
    · rfl
  · rw [if_neg (mt hany.mp hmem), if_neg hmem, List.map_append]
    rfl

theorem mem_set {es : Entries} {key : String} {i : Item} {e : String × Item}
    (h : e ∈ es.set key i) : e = (key, i) ∨ e ∈ es := by
  rw [set] at h
  split at h
  · obtain ⟨e', hmem, heq⟩ := List.mem_map.mp h
    split at heq
    · exact .inl heq.symm
    · exact .inr (heq ▸ hmem)
  · rw [List.mem_append, List.mem_singleton] at h
    exact h.symm

/-- A sound item can be set. -/
theorem IsSound.set {es : Entries} (h : es.IsSound) (key : String) {i : Item}
    (hi : ∀ v, i = .value v → v.IsSound) : (es.set key i).IsSound := by
  constructor
  · rw [keys_set]
    split
    · exact h.nodup
    · rename_i hnew
      rw [List.nodup_append]
      refine ⟨h.nodup, List.nodup_singleton key, ?_⟩
      rintro k hk _ hkey rfl
      exact hnew (List.mem_singleton.mp hkey ▸ hk)
  · intro k v hmem
    rcases mem_set hmem with heq | hold
    · exact hi v (Prod.ext_iff.mp heq).2.symm
    · exact h.values k v hold

theorem IsSound.erase {es : Entries} (h : es.IsSound) (key : String) : (es.erase key).IsSound :=
  ⟨h.nodup.sublist (List.filter_sublist.map _), fun k v hmem =>
    h.values k v (List.mem_of_mem_filter hmem)⟩

/-- A change somewhere below sound entries leaves them sound if it does so where it takes place. -/
theorem IsSound.changeAt {viaDots dotted : Bool} {change : Bool → Entries → Option Entries}
    {path : List String} {es es' : Entries} (h : es.IsSound)
    (hchange : ∀ dotted sub sub', sub.IsSound → change dotted sub = some sub' → sub'.IsSound)
    (heq : changeAt viaDots change dotted path es = some es') : es'.IsSound := by
  cases path with
  | nil => exact hchange _ _ _ h heq
  | cons key path =>
    have htable (b b' : Bool) (sub : Entries) : (es.set key (.table b b' sub)).IsSound :=
      h.set key (by intro v hv; cases hv)
    have htables (subs : List Entries) : (es.set key (.tables subs)).IsSound :=
      h.set key (by intro v hv; cases hv)
    rw [Toml.changeAt] at heq
    split at heq
    · obtain ⟨sub, -, heq⟩ := Option.bind_eq_some_iff.mp heq
      cases heq
      exact htable _ _ _
    · cases heq
    · obtain ⟨last, -, heq⟩ := Option.bind_eq_some_iff.mp heq
      obtain ⟨sub, -, heq⟩ := Option.bind_eq_some_iff.mp heq
      cases heq
      exact htables _
    · split at heq
      · cases heq
      · obtain ⟨sub, -, heq⟩ := Option.bind_eq_some_iff.mp heq
        cases heq
        exact htable _ _ _

theorem IsSound.addPair {path : List String} {key : String} {v : Value} {es es' : Entries}
    (h : es.IsSound) (hv : v.IsSound) (heq : addPair path key v es = some es') : es'.IsSound := by
  refine h.changeAt ?_ heq
  intro dotted sub sub' hsub hset
  split at hset
  · cases hset
  · cases hset
    exact hsub.set key (by rintro w ⟨⟩; exact hv)

/-- **Without keys that are given twice, a lookup finds every entry.** -/
theorem get?_eq_some_iff {es : Entries} (h : (es.map Prod.fst).Nodup) {key : String} {i : Item} :
    es.get? key = some i ↔ (key, i) ∈ es := by
  induction es with
  | nil => simp [get?]
  | cons e es ih =>
    obtain ⟨hhead, htail⟩ := List.nodup_cons.mp h
    rw [get?, List.find?_cons]
    by_cases hkey : e.1 = key
    · rw [beq_iff_eq.mpr hkey, List.mem_cons]
      constructor
      · rintro ⟨⟩
        exact .inl (Prod.ext hkey.symm rfl)
      · rintro (heq | hmem)
        · rw [← heq]
          rfl
        · exact absurd (List.mem_map.mpr ⟨_, hmem, hkey.symm⟩) hhead
    · rw [beq_false_of_ne hkey, List.mem_cons]
      refine (ih htail).trans ⟨.inr, ?_⟩
      rintro (heq | hmem)
      · exact absurd (congrArg Prod.fst heq).symm hkey
      · exact hmem

theorem get?_eq_none_iff {es : Entries} {key : String} :
    es.get? key = none ↔ ∀ i, (key, i) ∉ es := by
  rw [get?, Option.map_eq_none_iff, List.find?_eq_none]
  constructor
  · intro h i hmem
    exact h _ hmem (beq_self_eq_true key)
  · rintro h ⟨k, i⟩ hmem heq
    exact h i (beq_iff_eq.mp heq ▸ hmem)

end Entries

/-! ## Lines -/

namespace Progress

/-- Whether the main table is sound up to some line. It is the open one before the first header. -/
structure IsSound (p : Progress) : Prop where
  root : p.root.IsSound
  main : p.path = [] → p.open_.IsSound

theorem isSound_start : IsSound {} := ⟨Entries.isSound_nil, fun _ => Entries.isSound_nil⟩

theorem IsSound.close {p : Progress} {es : Entries} (h : p.IsSound) (heq : p.close = some es) :
    es.IsSound := by
  rw [Progress.close] at heq
  split at heq
  · rename_i hlast
    cases heq
    exact h.main (List.getLast?_eq_none_iff.mp hlast)
  · refine h.root.changeAt ?_ heq
    intro dotted sub sub' hsub hset
    have htable (b b' : Bool) (es : Entries) (key : String) :
        (sub.set key (.table b b' es)).IsSound :=
      hsub.set key (by intro v hv; cases hv)
    have htables (es : List Entries) (key : String) : (sub.set key (.tables es)).IsSound :=
      hsub.set key (by intro v hv; cases hv)
    split at hset
    · split at hset <;> cases hset
      · exact htables _ _
      · exact htables _ _
    · split at hset <;> cases hset
      · exact htable _ _ _ _
      · exact htable _ _ _ _

theorem IsSound.openTable {p p' : Progress} {path : List String} (h : p.IsSound)
    (heq : p.openTable path = some p') : p'.IsSound := by
  rw [Progress.openTable] at heq
  obtain ⟨key, hkey, heq⟩ := Option.bind_eq_some_iff.mp heq
  obtain ⟨root, hroot, heq⟩ := Option.bind_eq_some_iff.mp heq
  obtain ⟨found, -, heq⟩ := Option.bind_eq_some_iff.mp heq
  have hpath : path ≠ [] := by
    rintro rfl
    cases hkey
  split at heq
  · obtain ⟨root', hroot', heq⟩ := Option.bind_eq_some_iff.mp heq
    cases heq
    refine ⟨(h.close hroot).changeAt ?_ hroot', fun hnil => absurd hnil hpath⟩
    rintro dotted sub _ hsub ⟨⟩
    exact hsub
  · obtain ⟨root', hroot', heq⟩ := Option.bind_eq_some_iff.mp heq
    cases heq
    refine ⟨(h.close hroot).changeAt ?_ hroot', fun hnil => absurd hnil hpath⟩
    rintro dotted sub _ hsub ⟨⟩
    exact hsub.erase key
  · cases heq

theorem IsSound.openElement {p p' : Progress} {path : List String} (h : p.IsSound)
    (heq : p.openElement path = some p') : p'.IsSound := by
  rw [Progress.openElement] at heq
  obtain ⟨key, hkey, heq⟩ := Option.bind_eq_some_iff.mp heq
  obtain ⟨root, hroot, heq⟩ := Option.bind_eq_some_iff.mp heq
  obtain ⟨root', hroot', heq⟩ := Option.bind_eq_some_iff.mp heq
  have hpath : path ≠ [] := by
    rintro rfl
    cases hkey
  cases heq
  refine ⟨(h.close hroot).changeAt ?_ hroot', fun hnil => absurd hnil hpath⟩
  intro dotted sub sub' hsub hset
  split at hset <;> cases hset
  · exact hsub.set key (by intro v hv; cases hv)
  · exact hsub

theorem IsSound.add {p p' : Progress} {path : List String} {key : String} {v : Value}
    (h : p.IsSound) (hv : v.IsSound) (heq : p.add path key v = some p') : p'.IsSound := by
  rw [Progress.add] at heq
  obtain ⟨es, hes, heq⟩ := Option.bind_eq_some_iff.mp heq
  cases heq
  exact ⟨h.root, fun hmain => (h.main hmain).addPair hv hes⟩

end Progress

theorem isSound_of_header? {p p' : Progress} {cs rest : List Char} (h : p.IsSound)
    (heq : header? p cs = some (p', rest)) : p'.IsSound := by
  rw [header?.eq_def] at heq
  split at heq
  · obtain ⟨⟨⟨path, key⟩, after⟩, -, heq⟩ := Option.bind_eq_some_iff.mp heq
    dsimp only at heq
    split at heq
    · obtain ⟨q, hq, heq⟩ := Option.bind_eq_some_iff.mp heq
      obtain ⟨r, -, heq⟩ := Option.bind_eq_some_iff.mp heq
      cases heq
      exact h.openElement hq
    · cases heq
  · obtain ⟨⟨⟨path, key⟩, after⟩, -, heq⟩ := Option.bind_eq_some_iff.mp heq
    dsimp only at heq
    split at heq
    · obtain ⟨q, hq, heq⟩ := Option.bind_eq_some_iff.mp heq
      obtain ⟨r, -, heq⟩ := Option.bind_eq_some_iff.mp heq
      cases heq
      exact h.openTable hq
    · cases heq
  · cases heq

theorem isSound_of_pair? {p p' : Progress} {cs rest : List Char} (h : p.IsSound)
    (heq : pair? p cs = some (p', rest)) : p'.IsSound := by
  rw [pair?] at heq
  obtain ⟨⟨⟨path, key⟩, after⟩, -, heq⟩ := Option.bind_eq_some_iff.mp heq
  dsimp only at heq
  split at heq
  · obtain ⟨⟨v, after⟩, hv, heq⟩ := Option.bind_eq_some_iff.mp heq
    obtain ⟨q, hq, heq⟩ := Option.bind_eq_some_iff.mp heq
    obtain ⟨r, -, heq⟩ := Option.bind_eq_some_iff.mp heq
    cases heq
    exact h.add (isSound_of_value? hv) hq
  · cases heq

/-- Every line keeps the main table sound, so all lines together do. -/
theorem isSound_of_lines? {fuel : Nat} {p p' : Progress} {cs : List Char} (h : p.IsSound)
    (heq : lines? fuel p cs = some p') : p'.IsSound := by
  induction fuel generalizing p cs with
  | zero => rw [lines?] at heq; cases heq
  | succ fuel ih =>
    rw [lines?] at heq
    split at heq
    · cases heq
      exact h
    · obtain ⟨⟨q, rest⟩, hq, heq⟩ := Option.bind_eq_some_iff.mp heq
      exact ih (isSound_of_header? h hq) heq
    · split at heq
      · exact ih h heq
      · obtain ⟨⟨q, rest⟩, hq, heq⟩ := Option.bind_eq_some_iff.mp heq
        exact ih (isSound_of_pair? h hq) heq

/-- **A file gives no key of its main table twice, and values of the format.** -/
theorem isSound_of_read? {cs : List Char} {es : Entries} (h : read? cs = some es) :
    es.IsSound := by
  unfold read? at h
  obtain ⟨p, hp, h⟩ := Option.bind_eq_some_iff.mp h
  exact (isSound_of_lines? Progress.isSound_start hp).close h

end Postmortem.Toml
