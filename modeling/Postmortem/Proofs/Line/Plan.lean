import Postmortem.Line.Plan
import Postmortem.Proofs.Collections.Table
import Postmortem.Proofs.Line.Reads
import Postmortem.Proofs.Text.Blank

/-!
# What a plan takes from the program

A plan has an entry for each line worth recording, at the number of the line. The entry shows the
line without blanks at its ends, and the names that it asks for are read from that text. So nothing
in a plan has a line feed.

## A program of one line

What holds of every parser is shown at work on the program `y = x`, with a parser that knows no
other.
-/

namespace Postmortem.LinePlan

open Line Postmortem.Text

variable {parse : Parser}

/-- The planned ones among some lines, with their numbers. -/
theorem mem_planFrom_iff {n : Nat} {ls : List (List Char)} {e : Nat × PlannedLine} :
    e ∈ planFrom parse n ls ↔
      ∃ i line, ls[i]? = some line ∧ e.1 = n + i ∧ planLine? parse line = some e.2 := by
  induction ls generalizing n with
  | nil => simp [planFrom]
  | cons l ls ih =>
    -- the first line by itself, and the others by what is known of them
    have hsplit : (∃ i line, (l :: ls)[i]? = some line ∧ e.1 = n + i ∧
          planLine? parse line = some e.2) ↔
        (e.1 = n ∧ planLine? parse l = some e.2) ∨ e ∈ planFrom parse (n + 1) ls := by
      rw [ih]
      constructor
      · rintro ⟨i, line, hline, hnumber, hplanned⟩
        cases i with
        | zero =>
          obtain rfl : l = line := Option.some.inj hline
          exact .inl ⟨hnumber, hplanned⟩
        | succ i => exact .inr ⟨i, line, hline, by omega, hplanned⟩
      · rintro (⟨hnumber, hplanned⟩ | ⟨i, line, hline, hnumber, hplanned⟩)
        · exact ⟨0, l, rfl, hnumber, hplanned⟩
        · exact ⟨i + 1, line, hline, by omega, hplanned⟩
    rw [hsplit, planFrom]
    obtain ⟨number, planned⟩ := e
    cases hfirst : planLine? parse l with
    | none => simp
    | some p =>
      rw [List.mem_cons, Prod.mk.injEq, Option.some_inj, eq_comm (a := p)]

/-- **The entries of a plan** are those of the lines worth recording. -/
theorem get?_ofSource_iff {source : String} {n : Nat} {planned : PlannedLine} :
    (ofSource parse source).get? n = some planned ↔
      ∃ line, 1 ≤ n ∧ (lines source.toList)[n - 1]? = some line ∧
        planLine? parse line = some planned := by
  rw [← Table.mem_entries_iff]
  show (n, planned) ∈ planFrom parse 1 (lines source.toList) ↔ _
  rw [mem_planFrom_iff]
  constructor
  · rintro ⟨i, line, hline, rfl, hplanned⟩
    exact ⟨line, by omega, by rw [Nat.add_sub_cancel_left]; exact hline, hplanned⟩
  · rintro ⟨line, hpos, hline, hplanned⟩
    exact ⟨n - 1, line, hline, by omega, hplanned⟩

/-- A line is planned if it is not blank, is of interest when it is completed, and then reads
something. -/
theorem planLine?_eq_some_iff {line : List Char} {planned : PlannedLine} :
    planLine? parse line = some planned ↔
      trim line ≠ [] ∧ isOfInterest parse (completed (.ofList (trim line))) = true ∧
        planned.names ≠ [] ∧
        planned = ⟨.ofList (trim line), reads parse (completed (.ofList (trim line)))⟩ := by
  rw [planLine?]
  dsimp only
  split
  · rename_i hblank
    simp [List.isEmpty_iff.mp hblank]
  rename_i hblank
  split
  · rename_i hdull
    rw [Bool.not_eq_true'] at hdull
    simp [hdull]
  rename_i hinterest
  split
  · rename_i hnone
    constructor
    · exact fun h => absurd h (by simp)
    · rintro ⟨-, -, hnames, rfl⟩
      exact absurd (List.isEmpty_iff.mp hnone) hnames
  · rename_i hnames
    constructor
    · intro h
      obtain rfl := Option.some.inj h
      exact ⟨fun h => hblank (List.isEmpty_iff.mpr h), by simpa using hinterest,
        fun h => hnames (List.isEmpty_iff.mpr h), rfl⟩
    · rintro ⟨-, -, -, rfl⟩
      rfl

/-- A planned line is shown without blanks at its ends, and names what its completed text reads. -/
theorem planLine?_eq_some {line : List Char} {planned : PlannedLine}
    (h : planLine? parse line = some planned) :
    planned.text = .ofList (trim line) ∧
      planned.names = reads parse (completed (.ofList (trim line))) := by
  obtain ⟨-, -, -, rfl⟩ := planLine?_eq_some_iff.mp h
  exact ⟨rfl, rfl⟩

/-- Completing a line adds no line feed. -/
theorem feed_not_mem_completed {line : String} (h : '\n' ∉ line.toList) :
    '\n' ∉ (completed line).toList := by
  rw [completed]
  split
  · rw [String.toList_ofList, List.mem_append, not_or]
    refine ⟨fun hfeed => h ((isPrefix_trimEnd _).subset hfeed), ?_⟩
    decide
  · exact h

/-- **Nothing in a plan has a line feed.** -/
theorem feed_not_mem_of_get?_ofSource (hparse : parse.Slices) {source : String} {n : Nat}
    {planned : PlannedLine} (h : (ofSource parse source).get? n = some planned) :
    '\n' ∉ planned.text.toList ∧ ∀ name ∈ planned.names, '\n' ∉ name.toList := by
  obtain ⟨line, -, hline, hplanned⟩ := get?_ofSource_iff.mp h
  obtain ⟨htext, hnames⟩ := planLine?_eq_some hplanned
  have hfeed : '\n' ∉ line := feed_not_mem_of_mem_lines (List.mem_of_getElem? hline)
  have htrim : '\n' ∉ (String.ofList (trim line)).toList := by
    rw [String.toList_ofList]
    exact fun hmem => hfeed ((isInfix_trim line).subset hmem)
  rw [htext, hnames]
  refine ⟨htrim, ?_⟩
  intro name hname
  exact feed_not_mem_of_mem_reads hparse (feed_not_mem_completed htrim) hname

end Postmortem.LinePlan

/-! ## A program of one line -/

namespace Postmortem.Line

/-- A node of the program `y = x`, which spans some of its characters. -/
def assignmentNode (kind text : String) (start stop : Nat) (roles : List String)
    (children : List SyntaxTree) : SyntaxTree :=
  .node
    { kind, named := kind != "=", text, start := ⟨start, start, 0, start⟩
      stop := ⟨stop, stop, 0, stop⟩, hasError := false, roles }
    children

/-- The parts of its assignment. -/
def assignmentParts : List SyntaxTree :=
  [assignmentNode "identifier" "y" 0 1 ["left"] [], assignmentNode "=" "=" 2 3 [] [],
    assignmentNode "identifier" "x" 4 5 ["right"] []]

/-- Its tree. -/
def assignmentTree : SyntaxTree :=
  assignmentNode "module" "y = x" 0 5 []
    [assignmentNode "expression_statement" "y = x" 0 5 []
      [assignmentNode "assignment" "y = x" 0 5 [] assignmentParts]]

/-- A parser that knows this program alone. -/
def assignmentParser : Parser := fun text => if text = "y = x" then some assignmentTree else none

/-- The parts of the tree are those that it is built of. -/
theorem hasPart_assignmentTree {p : SyntaxTree} (hp : assignmentTree.HasPart p) :
    p = assignmentTree ∨
      p = assignmentNode "expression_statement" "y = x" 0 5 []
        [assignmentNode "assignment" "y = x" 0 5 [] assignmentParts] ∨
      p = assignmentNode "assignment" "y = x" 0 5 [] assignmentParts ∨
      p = assignmentNode "identifier" "y" 0 1 ["left"] [] ∨ p = assignmentNode "=" "=" 2 3 [] [] ∨
      p = assignmentNode "identifier" "x" 4 5 ["right"] [] := by
  simp only [assignmentTree, assignmentParts, assignmentNode, SyntaxTree.hasPart_node_iff,
    List.mem_cons, List.not_mem_nil, or_false, exists_eq_or_imp, exists_eq_left, false_and,
    exists_false, eq_comm (b := p)] at hp
  exact hp

/-- It takes the texts of its nodes from the program. -/
theorem slices_assignmentParser : assignmentParser.Slices := by
  intro text t ht p hp
  rw [assignmentParser] at ht
  split at ht
  · rename_i htext
    obtain rfl := Option.some.inj ht
    rw [htext]
    rcases hasPart_assignmentTree hp with rfl | rfl | rfl | rfl | rfl | rfl <;> decide
  · exact absurd ht (by simp)

/-- The program reads `x` alone. -/
theorem namesRead_assignmentTree : namesRead assignmentTree = ["x"] := by
  let value := assignmentNode "identifier" "x" 4 5 ["right"] []
  let assignment := assignmentNode "assignment" "y = x" 0 5 [] assignmentParts
  let statement := assignmentNode "expression_statement" "y = x" 0 5 [] [assignment]
  have hvalue : allReads value = ["x"] := by
    rw [allReads_eq, ownName?, dottedPath?]
    rfl
  have hassignment : allReads assignment = ["x"] := by
    rw [allReads_eq]
    show [value].flatMap allReads = _
    rw [List.flatMap_singleton, hvalue]
  have hstatement : allReads statement = ["x"] := by
    rw [allReads_eq]
    show [assignment].flatMap allReads = _
    rw [List.flatMap_singleton, hassignment]
  have htree : allReads assignmentTree = ["x"] := by
    rw [allReads_eq]
    show [statement].flatMap allReads = _
    rw [List.flatMap_singleton, hstatement]
  rw [namesRead, htree]
  rfl

/-- The plan of the program asks for `x` before its line. -/
theorem ofSource_assignmentParser :
    LinePlan.ofSource assignmentParser "y = x" = Table.empty.insert 1 ⟨"y = x", ["x"]⟩ := by
  have hclean : cleanTree? assignmentParser "y = x" = some assignmentTree := rfl
  have hreads : reads assignmentParser "y = x" = ["x"] := by
    rw [reads, hclean]
    exact namesRead_assignmentTree
  have hinterest : isOfInterest assignmentParser "y = x" = true := by
    rw [isOfInterest, hclean]
    rfl
  have hform : completed (.ofList (Text.trim "y = x".toList)) = "y = x" := by decide
  have hplanned : LinePlan.planLine? assignmentParser "y = x".toList = some ⟨"y = x", ["x"]⟩ := by
    rw [LinePlan.planLine?]
    simp only [hform, hinterest, hreads]
    rfl
  apply Table.ext
  show LinePlan.planFrom assignmentParser 1 ["y = x".toList] = [(1, ⟨"y = x", ["x"]⟩)]
  rw [LinePlan.planFrom, hplanned]
  rfl

end Postmortem.Line
