import Postmortem.Json.Reader

/-!
# Steps of the reader

What the reader does, told by the character that comes next. A value is read by its first character;
after an item or a member comes the end of the list or the object, or a comma and more of them.
-/

namespace Postmortem.Json

open Postmortem.Number

variable {cs cs' rest : List Char}

/-- More fuel is the successor of something. -/
theorem exists_succ {fuel fuel' : Nat} (h : fuel + 1 ≤ fuel') :
    ∃ n, fuel' = n + 1 ∧ fuel ≤ n := ⟨fuel' - 1, by omega, by omega⟩

/-! ## The first character of a value -/

/-- What is left after a gap does not begin with one. -/
theorem isGap_of_skipGap {cs cs' : List Char} {c : Char} (h : skipGap cs = c :: cs') :
    isGap c = false := by
  have hhead := List.head?_dropWhile_not isGap cs
  rw [← skipGap, h] at hhead
  simpa using hhead

/-- A gap before a value makes no difference. -/
theorem readValue_of_skipGap {cs cs' : List Char} {c : Char} (fuel : Nat)
    (h : skipGap cs = c :: cs') : readValue (fuel + 1) cs = readValue (fuel + 1) (c :: cs') := by
  have hself : skipGap (c :: cs') = c :: cs' := by
    rw [skipGap, List.dropWhile_cons_of_neg (by simp [isGap_of_skipGap h])]
  rw [readValue, readValue, h, hself]

/-- A digit begins no other part. -/
theorem ne_of_isDigit {c : Char} (h : isDigit c = true) :
    isGap c = false ∧ c ≠ 'n' ∧ c ≠ 't' ∧ c ≠ 'f' ∧ c ≠ '-' ∧ c ≠ '"' ∧ c ≠ '[' ∧ c ≠ ']' ∧
      c ≠ '\x7b' ∧ c ≠ '\x7d' := by
  refine ⟨?_, ?_, ?_, ?_, ?_, ?_, ?_, ?_, ?_, ?_⟩
  · rw [isGap]
    simp only [Bool.or_eq_false_iff, beq_eq_false_iff_ne]
    refine ⟨⟨⟨?_, ?_⟩, ?_⟩, ?_⟩ <;> (rintro rfl; exact absurd h (by decide))
  all_goals (rintro rfl; exact absurd h (by decide))

/-- A text between quotes. -/
theorem readValue_quote (fuel : Nat) (cs : List Char) :
    readValue (fuel + 1) ('"' :: cs) =
      (.text (Literal.scan cs).1,
        if (Literal.scan cs).1.skipping.isOk then some (Literal.scan cs).2 else none) := rfl

/-- A digit. -/
theorem readValue_digit {c : Char} (hc : isDigit c = true) (fuel : Nat) (cs : List Char) :
    readValue (fuel + 1) (c :: cs) = readNumber false (c :: cs) := by
  obtain ⟨hgap, hn, ht, hf, hminus, -⟩ := ne_of_isDigit hc
  rw [readValue, skipGap, List.dropWhile_cons_of_neg (by simp [hgap])]
  simp only [beq_iff_eq, hn, ht, hf, hminus, hc, if_false, if_true]

/-- A character that begins no value. -/
theorem readValue_other {c : Char} (hgap : isGap c = false) (hdigit : isDigit c = false)
    (hc : c ∉ ['n', 't', 'f', '-', '"', '[', '\x7b']) (fuel : Nat) (cs : List Char) :
    readValue (fuel + 1) (c :: cs) = (.missing .malformed, none) := by
  simp only [List.mem_cons, List.not_mem_nil, or_false, not_or] at hc
  obtain ⟨hn, ht, hf, hminus, hquote, hlist, hobject⟩ := hc
  rw [readValue, skipGap, List.dropWhile_cons_of_neg (by simp [hgap])]
  simp only [beq_iff_eq, hn, ht, hf, hminus, hdigit, hquote, hlist, hobject, if_false,
    Bool.false_eq_true]

/-- A list of which nothing but the bracket is there. -/
theorem readValue_endedList (fuel : Nat) (h : skipGap cs = []) :
    readValue (fuel + 1) ('[' :: cs) = (.list [] (.error .truncated), none) := by
  have hopen : skipGap ('[' :: cs) = '[' :: cs := rfl
  rw [readValue, hopen]
  dsimp only
  rw [h]
  rfl

/-- A list that is closed at once. -/
theorem readValue_closedList (fuel : Nat) (h : skipGap cs = ']' :: rest) :
    readValue (fuel + 1) ('[' :: cs) = (.list [] (.ok ()), some rest) := by
  have hopen : skipGap ('[' :: cs) = '[' :: cs := rfl
  rw [readValue, hopen]
  dsimp only
  rw [h]
  rfl

/-- A list that has items. -/
theorem readValue_openList {c : Char} (fuel : Nat) (h : skipGap cs = c :: cs')
    (hc : c ≠ ']') :
    readValue (fuel + 1) ('[' :: cs) =
      (.list (readItems fuel cs).1 (readItems fuel cs).2.1, (readItems fuel cs).2.2) := by
  have hopen : skipGap ('[' :: cs) = '[' :: cs := rfl
  rw [readValue, hopen]
  simp [h, hc, isDigit]

/-- An object of which nothing but the brace is there. -/
theorem readValue_endedObject (fuel : Nat) (h : skipGap cs = []) :
    readValue (fuel + 1) ('\x7b' :: cs) = (.object [] (.error .truncated), none) := by
  have hopen : skipGap ('\x7b' :: cs) = '\x7b' :: cs := rfl
  rw [readValue, hopen]
  dsimp only
  rw [h]
  rfl

/-- An object that is closed at once. -/
theorem readValue_closedObject (fuel : Nat) (h : skipGap cs = '\x7d' :: rest) :
    readValue (fuel + 1) ('\x7b' :: cs) = (.object [] (.ok ()), some rest) := by
  have hopen : skipGap ('\x7b' :: cs) = '\x7b' :: cs := rfl
  rw [readValue, hopen]
  dsimp only
  rw [h]
  rfl

/-- An object that has members. -/
theorem readValue_openObject {c : Char} (fuel : Nat) (h : skipGap cs = c :: cs')
    (hc : c ≠ '\x7d') :
    readValue (fuel + 1) ('\x7b' :: cs) =
      (.object (readMembers fuel cs).1 (readMembers fuel cs).2.1, (readMembers fuel cs).2.2) := by
  have hopen : skipGap ('\x7b' :: cs) = '\x7b' :: cs := rfl
  rw [readValue, hopen]
  simp [h, hc, isDigit]

/-- A fault is no value. -/
theorem error_ne_ok {α : Type} (f : Fault) (v : α) : (.error f : Except Fault α) ≠ .ok v := by
  intro h
  cases h

/-! ## Items -/

variable {fuel : Nat} {tail : List Char} {d : Draft} {e : Except Fault Unit}
  {r : Option (List Char)}

/-- An item with the end of the list behind it. -/
theorem readItems_last (hvalue : readValue fuel cs = (d, some tail))
    (hskip : skipGap tail = ']' :: rest) : readItems (fuel + 1) cs = ([d], .ok (), some rest) := by
  rw [readItems, hvalue]
  simp only [hskip]

/-- An item with a comma behind it. -/
theorem readItems_more {ds : List Draft} (hvalue : readValue fuel cs = (d, some tail))
    (hskip : skipGap tail = ',' :: rest) (hitems : readItems fuel rest = (ds, e, r)) :
    readItems (fuel + 1) cs = (d :: ds, e, r) := by
  rw [readItems, hvalue]
  simp only [hskip, hitems]

/-- What reading items can come to: a fault, the last item, or an item and more of them. -/
theorem readItems_inv {ds : List Draft} (h : readItems (fuel + 1) cs = (ds, e, r)) :
    (e ≠ .ok () ∧ r = none) ∨ ∃ d tail rest, readValue fuel cs = (d, some tail) ∧
      ((skipGap tail = ']' :: rest ∧ ds = [d] ∧ e = .ok () ∧ r = some rest) ∨
        (skipGap tail = ',' :: rest ∧
          ∃ ds', ds = d :: ds' ∧ readItems fuel rest = (ds', e, r))) := by
  rw [readItems] at h
  cases hvalue : readValue fuel cs with
  | mk d after =>
    rw [hvalue] at h
    cases after with
    | none =>
      cases h
      exact .inl ⟨error_ne_ok _ _, rfl⟩
    | some tail =>
      dsimp only at h
      split at h
      · rename_i rest hskip
        cases h
        exact .inr ⟨d, tail, rest, rfl, .inl ⟨hskip, rfl, rfl, rfl⟩⟩
      · rename_i rest hskip
        cases h
        exact .inr ⟨d, tail, rest, rfl, .inr ⟨hskip, _, rfl, rfl⟩⟩
      · cases h
        exact .inl ⟨error_ne_ok _ _, rfl⟩

/-! ## Members -/

/-- The name of a member with its colon, and what follows. -/
inductive Named (cs : List Char) (l : Literal) (rest : List Char) : Prop where
  | intro {cs' tail : List Char} (hquote : skipGap cs = '"' :: cs')
      (hscan : Literal.scan cs' = (l, tail)) (hclosed : l.skipping = .ok ())
      (hcolon : skipGap tail = ':' :: rest)

variable {l : Literal}

/-- A member with the end of the object behind it. -/
theorem readMembers_last (hname : Named cs l cs') (hvalue : readValue fuel cs' = (d, some tail))
    (hskip : skipGap tail = '\x7d' :: rest) :
    readMembers (fuel + 1) cs = ([(.literal l, d)], .ok (), some rest) := by
  obtain ⟨hquote, hscan, hclosed, hcolon⟩ := hname
  rw [readMembers, hquote]
  simp only [hscan, hclosed, hcolon, hvalue, hskip]

/-- A member with a comma behind it. -/
theorem readMembers_more {ms : List (Name × Draft)} (hname : Named cs l cs')
    (hvalue : readValue fuel cs' = (d, some tail)) (hskip : skipGap tail = ',' :: rest)
    (hmembers : readMembers fuel rest = (ms, e, r)) :
    readMembers (fuel + 1) cs = ((.literal l, d) :: ms, e, r) := by
  obtain ⟨hquote, hscan, hclosed, hcolon⟩ := hname
  rw [readMembers, hquote]
  simp only [hscan, hclosed, hcolon, hvalue, hskip, hmembers]

/-- What reading members can come to: a fault, the last member, or a member and more of them. -/
theorem readMembers_inv {ms : List (Name × Draft)} (h : readMembers (fuel + 1) cs = (ms, e, r)) :
    (e ≠ .ok () ∧ r = none) ∨ ∃ l cs' d tail rest, Named cs l cs' ∧
      readValue fuel cs' = (d, some tail) ∧
      ((skipGap tail = '\x7d' :: rest ∧ ms = [(.literal l, d)] ∧ e = .ok () ∧ r = some rest) ∨
        (skipGap tail = ',' :: rest ∧
          ∃ ms', ms = (.literal l, d) :: ms' ∧ readMembers fuel rest = (ms', e, r))) := by
  rw [readMembers] at h
  split at h
  · rename_i cs₁ hquote
    cases hscan : Literal.scan cs₁ with
    | mk l tail =>
      rw [hscan] at h
      dsimp only at h
      split at h
      · cases h
        exact .inl ⟨error_ne_ok _ _, rfl⟩
      · rename_i cs' hclosed hcolon
        have hname : Named cs l cs' := ⟨hquote, hscan, hclosed, hcolon⟩
        cases hvalue : readValue fuel cs' with
        | mk d after =>
          rw [hvalue] at h
          cases after with
          | none =>
            cases h
            exact .inl ⟨error_ne_ok _ _, rfl⟩
          | some tail =>
            dsimp only at h
            split at h
            · rename_i rest hskip
              cases h
              exact .inr ⟨l, cs', d, tail, rest, hname, hvalue, .inl ⟨hskip, rfl, rfl, rfl⟩⟩
            · rename_i rest hskip
              cases h
              exact .inr ⟨l, cs', d, tail, rest, hname, hvalue, .inr ⟨hskip, _, rfl, rfl⟩⟩
            · cases h
              exact .inl ⟨error_ne_ok _ _, rfl⟩
      · cases h
        exact .inl ⟨error_ne_ok _ _, rfl⟩
  · cases h
    exact .inl ⟨error_ne_ok _ _, rfl⟩

end Postmortem.Json
