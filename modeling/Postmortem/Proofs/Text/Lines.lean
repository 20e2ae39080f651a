import Postmortem.Text.Lines

/-!
# Taking lines apart

A line feed ends the line before it, whatever comes after, and what is not ended yet is a line as it
stands. So no line of a text has a line feed, nor have parts that are joined by something else.
-/

namespace Postmortem.Text

/-- The parts of a list are what splitting it on the separator gives. -/
theorem splitAt_eq_splitOn {α : Type} [BEq α] (separator : α) (xs : List α) :
    splitAt separator xs = xs.splitOn separator := by
  induction xs with
  | nil => rfl
  | cons x xs ih =>
    rw [splitAt, List.foldr_cons, ← splitAt, ih, List.splitOn_cons_eq_if_modifyHead]
    split
    · rfl
    · cases hparts : xs.splitOn separator with
      | nil => exact absurd hparts (List.splitOn_ne_nil separator xs)
      | cons part parts => rfl

/-- A list joined by a separator is split into the parts of both. -/
theorem splitAt_append_cons {α : Type} [BEq α] [LawfulBEq α] (separator : α) (xs ys : List α) :
    splitAt separator (xs ++ separator :: ys) = splitAt separator xs ++ splitAt separator ys := by
  simp only [splitAt_eq_splitOn, List.splitOn_append_cons_self]

/-- There is one part more than there are separators. -/
theorem length_splitAt {α : Type} [BEq α] [LawfulBEq α] (separator : α) (xs : List α) :
    (splitAt separator xs).length = xs.count separator + 1 := by
  induction xs with
  | nil => rfl
  | cons x xs ih =>
    rw [splitAt, List.foldr_cons, ← splitAt]
    by_cases hx : x = separator
    · simp [hx, ih]
    · have hcount : (x :: xs).count separator = xs.count separator :=
        List.count_cons_of_ne hx
      rw [if_neg (by simpa using hx), hcount, ← ih]
      split
      · rename_i hparts
        rw [hparts, List.length_nil] at ih
        omega
      · rename_i part parts hparts
        rw [hparts]
        rfl

/-- A line that does not end with a return stays as it is. -/
theorem dropReturn_eq_self {α : Type} [BEq α] [LawfulBEq α] {ret : α} {line : List α}
    (h : line.getLast? ≠ some ret) : dropReturn ret line = line := by
  rw [dropReturn, if_neg]
  simpa using h

/-- A line feed ends a line, whatever comes after it. -/
theorem byteLines_append_cons {l : List UInt8} (hfeed : 10 ∉ l) (rest : List UInt8) :
    byteLines (l ++ 10 :: rest) = dropReturn 13 l :: byteLines rest := by
  rw [byteLines, byteLines, splitAt_eq_splitOn, splitAt_eq_splitOn,
    List.splitOn_append_cons_self_of_not_mem hfeed]
  cases hparts : rest.splitOn 10 with
  | nil => exact absurd hparts (List.splitOn_ne_nil 10 rest)
  | cons part parts => rw [closedLines.eq_def]

/-- What no line feed ends is a line unless it is empty. -/
theorem byteLines_of_not_mem {l : List UInt8} (hfeed : 10 ∉ l) :
    byteLines l = if l.isEmpty then [] else [l] := by
  rw [byteLines, splitAt_eq_splitOn, List.splitOn_eq_singleton hfeed, closedLines]

/-- A part of a list between its separators has no separator. -/
theorem not_mem_of_mem_splitAt {α : Type} [BEq α] [LawfulBEq α] {separator : α} {xs part : List α}
    (h : part ∈ splitAt separator xs) : separator ∉ part := by
  induction xs generalizing part with
  | nil =>
    rw [List.mem_singleton.mp h]
    exact List.not_mem_nil
  | cons x xs ih =>
    rw [splitAt, List.foldr_cons, ← splitAt] at h
    split at h
    · rcases List.mem_cons.mp h with rfl | h
      · exact List.not_mem_nil
      · exact ih h
    · rename_i hx
      have hne : separator ≠ x := fun heq => hx (beq_iff_eq.mpr heq.symm)
      split at h
      · rw [List.mem_singleton.mp h]
        simpa using hne
      · rename_i first rest hparts
        rcases List.mem_cons.mp h with rfl | h
        · rw [List.mem_cons, not_or]
          exact ⟨hne, ih (hparts ▸ List.mem_cons_self)⟩
        · exact ih (hparts ▸ List.mem_cons_of_mem _ h)

/-- A line is what stands between two separators, perhaps without a return. -/
theorem exists_of_mem_closedLines {α : Type} [BEq α] {ret : α} {parts : List (List α)}
    {line : List α} (h : line ∈ closedLines ret parts) :
    ∃ part ∈ parts, line = part ∨ line = dropReturn ret part := by
  induction parts with
  | nil => exact absurd h List.not_mem_nil
  | cons part parts ih =>
    cases parts with
    | nil =>
      rw [closedLines] at h
      split at h
      · exact absurd h List.not_mem_nil
      · exact ⟨part, List.mem_cons_self, .inl (List.mem_singleton.mp h)⟩
    | cons next parts =>
      rw [closedLines] at h
      · rcases List.mem_cons.mp h with rfl | h
        · exact ⟨part, List.mem_cons_self, .inr rfl⟩
        · obtain ⟨p, hp, hline⟩ := ih h
          exact ⟨p, List.mem_cons_of_mem _ hp, hline⟩
      · exact List.cons_ne_nil _ _

/-- What is left of a line without its return is part of it. -/
theorem dropReturn_subset {α : Type} [BEq α] (ret : α) (line : List α) :
    dropReturn ret line ⊆ line := by
  rw [dropReturn]
  split
  · exact List.dropLast_subset line
  · exact List.Subset.refl line

/-- **No line has a line feed.** -/
theorem feed_not_mem_of_mem_lines {cs line : List Char} (h : line ∈ lines cs) : '\n' ∉ line := by
  obtain ⟨part, hpart, rfl | rfl⟩ := exists_of_mem_closedLines h
  · exact not_mem_of_mem_splitAt hpart
  · exact fun hfeed => not_mem_of_mem_splitAt hpart (dropReturn_subset '\r' part hfeed)

/-- What is in a list of joined parts is in one of them or in what joins them. -/
theorem mem_of_mem_intercalate {α : Type} {separator : List α} {parts : List (List α)} {x : α}
    (h : x ∈ separator.intercalate parts) : x ∈ separator ∨ ∃ part ∈ parts, x ∈ part := by
  induction parts with
  | nil => exact absurd h List.not_mem_nil
  | cons part parts ih =>
    cases parts with
    | nil =>
      rw [List.intercalate_singleton] at h
      exact .inr ⟨part, List.mem_cons_self, h⟩
    | cons next parts =>
      rw [List.intercalate_cons_cons, List.mem_append, List.mem_append] at h
      rcases h with (h | h) | h
      · exact .inr ⟨part, List.mem_cons_self, h⟩
      · exact .inl h
      · rcases ih h with h | ⟨p, hp, hx⟩
        · exact .inl h
        · exact .inr ⟨p, List.mem_cons_of_mem _ hp, hx⟩

end Postmortem.Text
