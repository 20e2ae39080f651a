import Postmortem.Proofs.Json.Layout

/-!
# Texts that end too early

What has been read to its end is read alike if more text is put behind it, so no beginning of the
text of a list or an object can be read to its end. And what is not read to its end shows it: a list
or an object of which a part is missing has a fault for its end.

## Shape of the argument

Both are inductions on the fuel over values, items and members at once. A value at the very end of
a text is left out of the first, since more digits make another number; within a list or an object
something always follows a value.
-/

namespace Postmortem.Json

open Postmortem.Number

/-! ## Reading on -/

/-- A gap with something behind it. -/
theorem skipGap_append {cs cs' : List Char} {c : Char} (h : skipGap cs = c :: cs')
    (more : List Char) : skipGap (cs ++ more) = c :: (cs' ++ more) := by
  have hne : ¬ (skipGap cs).isEmpty = true := by simp [h]
  rw [skipGap, List.dropWhile_append, ← skipGap, if_neg hne, h, List.cons_append]

/-- Where there is something behind a gap, there is something. -/
theorem ne_nil_of_skipGap {cs cs' : List Char} {c : Char} (h : skipGap cs = c :: cs') :
    cs ≠ [] := by
  rintro rfl
  cases h

/-- The name of a member with something behind it. -/
theorem Named.append {cs rest : List Char} {l : Literal} (h : Named cs l rest) (more : List Char) :
    Named (cs ++ more) l (rest ++ more) := by
  obtain ⟨hquote, hscan, hclosed, hcolon⟩ := h
  exact ⟨skipGap_append hquote more, Literal.scan_append hscan hclosed more, hclosed,
    skipGap_append hcolon more⟩

/-- A word with something behind it. -/
theorem readWord_on {word cs rest : List Char} {d d' : Draft}
    (h : readWord word d cs = (d', some rest)) (more : List Char) :
    readWord word d (cs ++ more) = (d', some (rest ++ more)) := by
  induction word generalizing cs with
  | nil =>
    cases h
    rfl
  | cons w word ih =>
    cases cs with
    | nil => cases h
    | cons c cs =>
      rw [readWord] at h
      rw [List.cons_append, readWord]
      split at h
      · rename_i hw
        rw [if_pos hw]
        exact ih h
      · cases h

/-- Values with something behind them are read alike if more follows, with any fuel that is not
less. -/
def ValuesReadOn (fuel : Nat) : Prop :=
  ∀ cs d rest, readValue fuel cs = (d, some rest) → rest ≠ [] → ∀ fuel' more, fuel ≤ fuel' →
    readValue fuel' (cs ++ more) = (d, some (rest ++ more))

/-- So are the items of a list. -/
def ItemsReadOn (fuel : Nat) : Prop :=
  ∀ cs ds e rest, readItems fuel cs = (ds, e, some rest) → ∀ fuel' more, fuel ≤ fuel' →
    readItems fuel' (cs ++ more) = (ds, e, some (rest ++ more))

/-- So are the members of an object. -/
def MembersReadOn (fuel : Nat) : Prop :=
  ∀ cs ms e rest, readMembers fuel cs = (ms, e, some rest) → ∀ fuel' more, fuel ≤ fuel' →
    readMembers fuel' (cs ++ more) = (ms, e, some (rest ++ more))

/-- The step for lists. -/
private theorem readValue_list_on {fuel : Nat} (ih : ItemsReadOn fuel) {cs rest : List Char}
    {d : Draft} (h : readValue (fuel + 1) ('[' :: cs) = (d, some rest)) {fuel' : Nat}
    (hfuel : fuel ≤ fuel') (more : List Char) :
    readValue (fuel' + 1) ('[' :: (cs ++ more)) = (d, some (rest ++ more)) := by
  cases hskip : skipGap cs with
  | nil =>
    rw [readValue_endedList fuel hskip] at h
    cases h
  | cons c cs' =>
    by_cases hc : c = ']'
    · subst hc
      rw [readValue_closedList fuel hskip] at h
      cases h
      exact readValue_closedList fuel' (skipGap_append hskip more)
    · rw [readValue_openList fuel hskip hc] at h
      obtain ⟨rfl, hrest⟩ := Prod.mk.inj h
      have hitems := ih cs _ _ rest (Prod.ext rfl (Prod.ext rfl hrest)) fuel' more hfuel
      rw [readValue_openList fuel' (skipGap_append hskip more) hc, hitems]

/-- The step for objects. -/
private theorem readValue_object_on {fuel : Nat} (ih : MembersReadOn fuel) {cs rest : List Char}
    {d : Draft} (h : readValue (fuel + 1) ('\x7b' :: cs) = (d, some rest)) {fuel' : Nat}
    (hfuel : fuel ≤ fuel') (more : List Char) :
    readValue (fuel' + 1) ('\x7b' :: (cs ++ more)) = (d, some (rest ++ more)) := by
  cases hskip : skipGap cs with
  | nil =>
    rw [readValue_endedObject fuel hskip] at h
    cases h
  | cons c cs' =>
    by_cases hc : c = '\x7d'
    · subst hc
      rw [readValue_closedObject fuel hskip] at h
      cases h
      exact readValue_closedObject fuel' (skipGap_append hskip more)
    · rw [readValue_openObject fuel hskip hc] at h
      obtain ⟨rfl, hrest⟩ := Prod.mk.inj h
      have hmembers := ih cs _ _ rest (Prod.ext rfl (Prod.ext rfl hrest)) fuel' more hfuel
      rw [readValue_openObject fuel' (skipGap_append hskip more) hc, hmembers]

/-- A text between quotes with something behind it. -/
private theorem readValue_quote_on {fuel : Nat} {cs rest : List Char} {d : Draft}
    (h : readValue (fuel + 1) ('"' :: cs) = (d, some rest)) (fuel' : Nat) (more : List Char) :
    readValue (fuel' + 1) ('"' :: (cs ++ more)) = (d, some (rest ++ more)) := by
  rw [readValue_quote] at h ⊢
  cases hscan : Literal.scan cs with
  | mk l tail =>
    rw [hscan] at h
    dsimp only at h
    split at h
    · rename_i hclosed
      cases h
      have hskipping : l.skipping = .ok () := by
        cases hl : l.skipping with
        | error f =>
          rw [hl] at hclosed
          cases hclosed
        | ok u => rfl
      rw [Literal.scan_append hscan hskipping more]
      dsimp only
      rw [if_pos hclosed]
    · cases h

/-- The step for values. -/
private theorem valuesReadOn_succ {fuel : Nat} (ihitems : ItemsReadOn fuel)
    (ihmembers : MembersReadOn fuel) : ValuesReadOn (fuel + 1) := by
  intro cs d rest h hrest fuel' more hfuel
  obtain ⟨fuel', rfl, hle⟩ := exists_succ hfuel
  cases hskip : skipGap cs with
  | nil =>
    rw [readValue, hskip] at h
    cases h
  | cons c cs' =>
    have hgap := isGap_of_skipGap hskip
    rw [readValue_of_skipGap fuel hskip] at h
    rw [readValue_of_skipGap fuel' (skipGap_append hskip more)]
    -- the first character tells what is read, and it is the same with more behind it
    by_cases hdigit : isDigit c = true
    · rw [readValue_digit hdigit] at h ⊢
      exact readNumber_append h hrest more
    by_cases hc : c ∈ ['n', 't', 'f', '-', '"', '[', '\x7b']
    · simp only [List.mem_cons, List.not_mem_nil, or_false] at hc
      obtain rfl | rfl | rfl | rfl | rfl | rfl | rfl := hc
      · exact readWord_on h more
      · exact readWord_on h more
      · exact readWord_on h more
      · exact readNumber_append h hrest more
      · exact readValue_quote_on h fuel' more
      · exact readValue_list_on ihitems h hle more
      · exact readValue_object_on ihmembers h hle more
    · rw [readValue_other hgap (by simpa using hdigit) hc] at h
      cases h

/-- The step for items. -/
private theorem itemsReadOn_succ {fuel : Nat} (ihvalues : ValuesReadOn fuel)
    (ihitems : ItemsReadOn fuel) : ItemsReadOn (fuel + 1) := by
  intro cs ds e rest h fuel' more hfuel
  obtain ⟨fuel', rfl, hle⟩ := exists_succ hfuel
  obtain ⟨-, hnone⟩ | ⟨d, tail, after, hvalue, hcases⟩ := readItems_inv h
  · cases hnone
  have hon {c : Char} (hskip : skipGap tail = c :: after) :
      readValue fuel' (cs ++ more) = (d, some (tail ++ more)) :=
    ihvalues cs d tail hvalue (ne_nil_of_skipGap hskip) fuel' more hle
  obtain ⟨hskip, rfl, rfl, hrest⟩ | ⟨hskip, ds', rfl, hitems⟩ := hcases
  · cases hrest
    exact readItems_last (hon hskip) (skipGap_append hskip more)
  · exact readItems_more (hon hskip) (skipGap_append hskip more)
      (ihitems after ds' e rest hitems fuel' more hle)

/-- The step for members. -/
private theorem membersReadOn_succ {fuel : Nat} (ihvalues : ValuesReadOn fuel)
    (ihmembers : MembersReadOn fuel) : MembersReadOn (fuel + 1) := by
  intro cs ms e rest h fuel' more hfuel
  obtain ⟨fuel', rfl, hle⟩ := exists_succ hfuel
  obtain ⟨-, hnone⟩ | ⟨l, cs', d, tail, after, hname, hvalue, hcases⟩ := readMembers_inv h
  · cases hnone
  have hon {c : Char} (hskip : skipGap tail = c :: after) :
      readValue fuel' (cs' ++ more) = (d, some (tail ++ more)) :=
    ihvalues cs' d tail hvalue (ne_nil_of_skipGap hskip) fuel' more hle
  obtain ⟨hskip, rfl, rfl, hrest⟩ | ⟨hskip, ms', rfl, hmembers⟩ := hcases
  · cases hrest
    exact readMembers_last (hname.append more) (hon hskip) (skipGap_append hskip more)
  · exact readMembers_more (hname.append more) (hon hskip) (skipGap_append hskip more)
      (ihmembers after ms' e rest hmembers fuel' more hle)

/-- **What has been read to its end is read alike** if more text follows. -/
theorem readsOn (fuel : Nat) : ValuesReadOn fuel ∧ ItemsReadOn fuel ∧ MembersReadOn fuel := by
  induction fuel with
  | zero =>
    refine ⟨?_, ?_, ?_⟩
    · intro cs d rest h
      rw [readValue_zero] at h
      cases h
    · intro cs ds e rest h
      rw [readItems_zero] at h
      cases h
    · intro cs ms e rest h
      rw [readMembers_zero] at h
      cases h
  | succ fuel ih =>
    obtain ⟨ihvalues, ihitems, ihmembers⟩ := ih
    exact ⟨valuesReadOn_succ ihitems ihmembers, itemsReadOn_succ ihvalues ihitems,
      membersReadOn_succ ihvalues ihmembers⟩

/-! ## Unfinished values -/

/-- A draft that is no list and no object with everything in it. -/
def Draft.Unclosed : Draft → Prop
  | list _ ending => ending ≠ .ok ()
  | object _ ending => ending ≠ .ok ()
  | _ => True

/-- Items that are not read to their end have a fault there. -/
theorem readItems_unfinished {fuel : Nat} {cs : List Char} {ds : List Draft}
    {e : Except Fault Unit} (h : readItems fuel cs = (ds, e, none)) : e ≠ .ok () := by
  induction fuel generalizing cs ds with
  | zero =>
    cases h
    exact error_ne_ok _ _
  | succ fuel ih =>
    obtain ⟨hfault, -⟩ | ⟨d, tail, after, -, ⟨-, -, -, hsome⟩ | ⟨-, ds', -, hitems⟩⟩ :=
      readItems_inv h
    · exact hfault
    · cases hsome
    · exact ih hitems

/-- Members that are not read to their end have a fault there. -/
theorem readMembers_unfinished {fuel : Nat} {cs : List Char} {ms : List (Name × Draft)}
    {e : Except Fault Unit} (h : readMembers fuel cs = (ms, e, none)) : e ≠ .ok () := by
  induction fuel generalizing cs ms with
  | zero =>
    cases h
    exact error_ne_ok _ _
  | succ fuel ih =>
    obtain ⟨hfault, -⟩ |
      ⟨l, cs', d, tail, after, -, -, ⟨-, -, -, hsome⟩ | ⟨-, ms', -, hmembers⟩⟩ := readMembers_inv h
    · exact hfault
    · cases hsome
    · exact ih hmembers

/-- A word is no list and no object. -/
private theorem unclosed_readWord {word cs : List Char} {d : Draft} (hd : d.Unclosed) :
    (readWord word d cs).1.Unclosed := by
  induction word generalizing cs with
  | nil => exact hd
  | cons w word ih =>
    cases cs with
    | nil => exact trivial
    | cons c cs =>
      rw [readWord]
      split
      · exact ih
      · exact trivial

/-- Nor is a number. -/
private theorem unclosed_readNumber (negative : Bool) (cs : List Char) :
    (readNumber negative cs).1.Unclosed := by
  have hpower (whole : Nat) (fraction : List (Fin 10)) (cs : List Char) :
      (readPower negative whole fraction cs).1.Unclosed := by
    rw [readPower.eq_def]
    split
    · split
      · split
        all_goals
          rw [readExponent]
          split <;> exact trivial
      · exact trivial
    · exact trivial
  rw [readNumber]
  split
  · exact trivial
  · exact trivial
  · rw [readDecimals.eq_def]
    split
    · rw [readFraction]
      split
      · exact trivial
      · exact hpower _ _ _
    · exact hpower _ _ _

/-- A list that is not read to its end is not whole. -/
private theorem unclosed_list {fuel : Nat} {cs : List Char} {d : Draft}
    (h : readValue (fuel + 1) ('[' :: cs) = (d, none)) : d.Unclosed := by
  cases hskip : skipGap cs with
  | nil =>
    rw [readValue_endedList fuel hskip] at h
    cases h
    exact error_ne_ok _ _
  | cons c cs' =>
    by_cases hc : c = ']'
    · subst hc
      rw [readValue_closedList fuel hskip] at h
      cases h
    · rw [readValue_openList fuel hskip hc] at h
      obtain ⟨rfl, hnone⟩ := Prod.mk.inj h
      exact readItems_unfinished (Prod.ext rfl (Prod.ext rfl hnone))

/-- Nor is such an object. -/
private theorem unclosed_object {fuel : Nat} {cs : List Char} {d : Draft}
    (h : readValue (fuel + 1) ('\x7b' :: cs) = (d, none)) : d.Unclosed := by
  cases hskip : skipGap cs with
  | nil =>
    rw [readValue_endedObject fuel hskip] at h
    cases h
    exact error_ne_ok _ _
  | cons c cs' =>
    by_cases hc : c = '\x7d'
    · subst hc
      rw [readValue_closedObject fuel hskip] at h
      cases h
    · rw [readValue_openObject fuel hskip hc] at h
      obtain ⟨rfl, hnone⟩ := Prod.mk.inj h
      exact readMembers_unfinished (Prod.ext rfl (Prod.ext rfl hnone))

/-- **What is not read to its end is no whole list and no whole object.** -/
theorem readValue_unfinished {fuel : Nat} {cs : List Char} {d : Draft}
    (h : readValue fuel cs = (d, none)) : d.Unclosed := by
  cases fuel with
  | zero =>
    cases h
    exact trivial
  | succ fuel =>
    cases hskip : skipGap cs with
    | nil =>
      rw [readValue, hskip] at h
      cases h
      exact trivial
    | cons c cs' =>
      have hgap := isGap_of_skipGap hskip
      have hd : d = (readValue (fuel + 1) (c :: cs')).1 := by
        rw [← readValue_of_skipGap fuel hskip, h]
      rw [readValue_of_skipGap fuel hskip] at h
      by_cases hdigit : isDigit c = true
      · rw [hd, readValue_digit hdigit]
        exact unclosed_readNumber false _
      by_cases hc : c ∈ ['n', 't', 'f', '-', '"', '[', '\x7b']
      · simp only [List.mem_cons, List.not_mem_nil, or_false] at hc
        obtain rfl | rfl | rfl | rfl | rfl | rfl | rfl := hc
        · rw [hd]
          exact unclosed_readWord trivial
        · rw [hd]
          exact unclosed_readWord trivial
        · rw [hd]
          exact unclosed_readWord trivial
        · rw [hd]
          exact unclosed_readNumber true cs'
        · rw [hd]
          exact trivial
        · exact unclosed_list h
        · exact unclosed_object h
      · rw [readValue_other hgap (by simpa using hdigit) hc] at h
        cases h
        exact trivial

/-- **No beginning of the text of an object is an object.** -/
theorem readDocument_torn {ms : List (String × Json)} {cs p q : List Char}
    (h : Written (.members ms) cs) (hsplit : p ++ q = '\x7b' :: cs) (hq : q ≠ []) :
    (readDocument p).root.Unclosed := by
  cases p with
  | nil => exact trivial
  | cons c p =>
    obtain ⟨rfl, hcs⟩ := List.cons.inj hsplit
    change p ++ q = cs at hcs
    subst hcs
    rw [readDocument]
    cases hread : readValue (('\x7b' :: p).length + 1) ('\x7b' :: p) with
    | mk d rest =>
      cases rest with
      | none => exact readValue_unfinished hread
      | some rest =>
        -- reading the whole text would stop behind the beginning, and yet at the end
        have hlength : ('\x7b' :: p).length ≤ ('\x7b' :: (p ++ q)).length := by simp
        have hon := readValue_object_on (readsOn _).2.2 hread hlength q
        have hwhole := h.object.isReadFrom (('\x7b' :: (p ++ q)).length + 1) [] (Nat.le_succ _)
          numberEnd_nil
        rw [List.append_nil, hon] at hwhole
        have hnil : rest ++ q = [] := Option.some_inj.mp (Prod.mk.inj hwhole).2
        exact absurd (List.append_eq_nil_iff.mp hnil).2 hq

end Postmortem.Json
