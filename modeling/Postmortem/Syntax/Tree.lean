import Postmortem.Text.Source

/-!
# Syntax trees

The tree of a source text as its readers see it. Each node has a kind, the text it spans, and the
roles in which its parent knows it.
-/

namespace Postmortem

open Postmortem.Text

/-- What became of a piece of text. -/
inductive Syntax.Soundness where
  /-- It was read. -/
  | sound
  /-- It could not be read. -/
  | error
  /-- It is not there, but something like it must have been meant. -/
  | missing
deriving BEq, DecidableEq, Repr, Inhabited

/-- What is known of a node besides its children. -/
structure Syntax.Label where
  kind : String
  /-- Whether the node counts as named; marks and keywords do not. -/
  named : Bool
  /-- The text from its beginning to its end. -/
  text : String
  /-- Where it begins. -/
  start : Mark
  /-- Where it ends. -/
  stop : Mark
  soundness : Soundness := .sound
  /-- Whether some piece in or below it is not sound, pieces without a node included. -/
  hasError : Bool
  /-- The roles in which the parent knows the node. -/
  roles : List String := []
deriving BEq, Repr, Inhabited

/-- A syntax tree. -/
inductive SyntaxTree where
  | node (label : Syntax.Label) (children : List SyntaxTree)
deriving Inhabited

namespace SyntaxTree

/-- What is known of the root. -/
def label : SyntaxTree → Syntax.Label
  | node l _ => l

/-- The children of the root, in the order of the text. -/
def children : SyntaxTree → List SyntaxTree
  | node _ cs => cs

/-- The kind of the root. -/
def kind (t : SyntaxTree) : String := t.label.kind

/-- The text that the tree spans. -/
def text (t : SyntaxTree) : String := t.label.text

/-- Whether the root is named. -/
def isNamed (t : SyntaxTree) : Bool := t.label.named

/-- The named children of the root. -/
def namedChildren (t : SyntaxTree) : List SyntaxTree := t.children.filter isNamed

/-- The first child in a role. -/
def childIn? (t : SyntaxTree) (role : String) : Option SyntaxTree :=
  t.children.find? (·.label.roles.contains role)

end SyntaxTree

end Postmortem
