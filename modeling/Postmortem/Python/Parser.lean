import Postmortem.Automaton.Basic
import Postmortem.Parse.Tree
import Postmortem.Python.Layout
import Postmortem.Python.Rules

/-!
# Parsing Python

The automaton of the Python grammar, joined with the layout reader.
-/

namespace Postmortem.Python

open Postmortem.Text Postmortem.Parse

/-- The layout tokens, in the order in which the grammar lists them. -/
def layoutTokens : List LayoutToken :=
  [.newline, .indent, .dedent, .stringStart, .stringContent, .escapeInterpolation, .stringEnd,
    .comment, .closeBracket, .closeParen, .closeBrace, .except]

/-- The layout reader of Python, with tokens known by their place in the grammar's list. -/
def layoutReader : LayoutReader Layout where
  initial := .initial
  read src welcome layout i :=
    let tokens := welcome.filterMap fun k => layoutTokens[k]?
    (Layout.read src tokens.contains layout i).map fun f =>
      { token := layoutTokens.idxOf f.token, start := f.start, stop := f.stop, memory := f.layout }

/-- The automaton of the Python grammar. -/
def automaton : Automaton := .ofGrammar grammar

/-- The syntax tree of a Python text. -/
def parse (a : Automaton) (text : String) : Option SyntaxTree :=
  let src := Source.ofString text
  (Parse.parse a layoutReader src).map (toSyntaxTree a src)

end Postmortem.Python
