import Postmortem.Parse.Machine
import Postmortem.Syntax.Tree

/-!
# From subtrees to syntax trees

Hidden nodes give way to their children. What a production says about a hidden part holds for the
first child that shows in its place; what is said within the part holds as well.
-/

namespace Postmortem.Parse

open Postmortem.Text Postmortem.Automaton Postmortem.Grammar Postmortem.Syntax

variable {Memory : Type}

/-- Gives the first of some trees a further role. -/
def addRole (role : Option String) (trees : List SyntaxTree) : List SyntaxTree :=
  match role, trees with
  | some r, .node l cs :: rest => .node { l with roles := r :: l.roles } cs :: rest
  | _, _ => trees

/-- The label of a subtree that shows. -/
def labelOf (a : Automaton) (src : Source) (rename : Option Rename) (s : Summary Memory) : Label :=
  let info := a.vocabulary.info s.symbol
  let isError := s.symbol == a.errorSymbol
  { kind := match rename with
      | some r => r.name
      | none => if isError then "ERROR" else info.name
    named := match rename with
      | some r => r.named
      | none => isError || info.named
    text := src.slice s.start.index s.stop.index
    start := s.start
    stop := s.stop
    soundness := if isError then .error else if s.missing then .missing else .sound
    hasError := s.cost > 0 }

mutual

/-- The trees that show for a subtree which its parent calls by another name or not. -/
def shown (a : Automaton) (src : Source) (rename : Option Rename) :
    Subtree Memory → List SyntaxTree
  | .node s parts =>
    let shape := a.shapes.getD s.shape {}
    let below := shownAll a src shape 0 parts
    if s.visible || rename.isSome then [.node (labelOf a src rename s) below] else below

/-- The trees that show for the parts of a production of this shape, from a place on. -/
def shownAll (a : Automaton) (src : Source) (shape : Shape) (place : Nat) :
    List (Subtree Memory) → List SyntaxTree
  | [] => []
  | .node s parts :: rest =>
    if s.extra then
      shown a src none (.node s parts) ++ shownAll a src shape place rest
    else
      let rename := if s.symbol == 0 then none else shape.renameAt place
      addRole (shape.roleAt place) (shown a src rename (.node s parts)) ++
        shownAll a src shape (place + 1) rest

end

/-- The syntax tree of a subtree. -/
def toSyntaxTree (a : Automaton) (src : Source) : Subtree Memory → SyntaxTree
  | .node s parts =>
    .node (labelOf a src none s) (shownAll a src (a.shapes.getD s.shape {}) 0 parts)

end Postmortem.Parse
