import Postmortem.Line.Reads
import Postmortem.Syntax.Fault
import Postmortem.Text.Blank

/-!
# Lines of interest

Each line of a program is parsed on its own. A line is of interest if it assigns, asserts,
compares, returns or calls. A line that does not parse is of no interest and reads nothing, and
neither is one in which a keyword stands where a name should: the grammar lets keywords be names,
so that `else: pass` parses as an annotated assignment.
-/

namespace Postmortem.Line

open Postmortem.Text

/-- A parser: it gives the tree of a text, if it can build one at all. -/
abbrev Parser := String → Option SyntaxTree

/-- The kinds of nodes that make a line interesting. -/
def interestingKinds : List String :=
  ["assignment", "augmented_assignment", "assert_statement", "comparison_operator",
    "return_statement", "call"]

/-- The words that are never names. -/
def hardKeywords : List String :=
  ["False", "None", "True", "and", "as", "assert", "async", "await", "break", "class",
    "continue", "def", "del", "elif", "else", "except", "finally", "for", "from", "global",
    "if", "import", "in", "is", "lambda", "nonlocal", "not", "or", "pass", "raise", "return",
    "try", "while", "with", "yield"]

mutual

/-- Whether a keyword stands for a name somewhere in a tree. -/
def namesKeyword : SyntaxTree → Bool
  | .node l cs =>
    if l.kind == "identifier" then hardKeywords.contains l.text else anyNamesKeyword cs

/-- Whether a keyword stands for a name in some named tree of a list. -/
def anyNamesKeyword : List SyntaxTree → Bool
  | [] => false
  | t :: ts => t.isNamed && namesKeyword t || anyNamesKeyword ts

end

mutual

/-- Whether a tree holds something interesting. -/
def isInteresting : SyntaxTree → Bool
  | .node l cs => interestingKinds.contains l.kind || anyInteresting cs

/-- Whether some named tree of a list holds something interesting. -/
def anyInteresting : List SyntaxTree → Bool
  | [] => false
  | t :: ts => t.isNamed && isInteresting t || anyInteresting ts

end

/-- The tree of a text that parses without errors and in which no keyword stands for a name. -/
def cleanTree? (parse : Parser) (text : String) : Option SyntaxTree :=
  (parse text).filter fun t => !t.label.hasError && !namesKeyword t

/-- A line as it can be parsed on its own: a block header gets a body. -/
def completed (line : String) : String :=
  let cs := trimEnd line.toList
  if cs.getLast? == some ':' then .ofList (cs ++ " pass".toList) else line

/-- Whether a line is of interest. -/
def isOfInterest (parse : Parser) (line : String) : Bool :=
  match cleanTree? parse line with
  | some t => isInteresting t
  | none => false

/-- The names and paths that a line reads, in ascending order. -/
def reads (parse : Parser) (line : String) : List String :=
  match cleanTree? parse line with
  | some t => namesRead t
  | none => []

/-- The first syntax error of a whole program. -/
def syntaxIssue? (parse : Parser) (source : String) : Option SyntaxIssue :=
  (parse source).bind SyntaxIssue.ofTree?

end Postmortem.Line
