import Postmortem.Syntax.Tree

/-!
# Faults

The first place at which a text could not be read: the first node, in the order of the text, that
is an error or is missing. Subtrees without errors are not searched. A missing piece may have no
node of its own; then the nearest node around it stands for it.
-/

namespace Postmortem

namespace SyntaxTree

/-- Whether the root is an error or missing. -/
def isFault (t : SyntaxTree) : Bool := t.label.soundness != .sound

mutual

/-- The first faulty node. -/
def firstFault? : SyntaxTree → Option SyntaxTree
  | .node l cs =>
    if !l.hasError then none
    else if l.soundness != .sound then some (.node l cs)
    else (firstFaultAmong? cs).or (some (.node l cs))

/-- The first faulty node of the first tree that has one. -/
def firstFaultAmong? : List SyntaxTree → Option SyntaxTree
  | [] => none
  | t :: ts => (firstFault? t).or (firstFaultAmong? ts)

end

end SyntaxTree

/-- A place that could not be read: line and column, counted from one, the column in bytes. -/
structure SyntaxIssue where
  line : Nat
  column : Nat
deriving BEq, DecidableEq, Repr, Inhabited

namespace SyntaxIssue

/-- How an issue is reported. -/
def text (i : SyntaxIssue) : String := s!"syntax error at line {i.line}, column {i.column}"

/-- The first issue of a tree. -/
def ofTree? (t : SyntaxTree) : Option SyntaxIssue :=
  t.firstFault?.map fun f => ⟨f.label.start.row + 1, f.label.start.column + 1⟩

end SyntaxIssue

end Postmortem
