import Postmortem.Text.Source

/-!
# Layout of Python programs

Newlines, indentation and the insides of strings depend on more than a pattern can say: on the
indentation of the blocks that are open and on the quotes of the strings that are. A `Layout` is
that memory, and `Layout.read` finds the next token of this kind.

Line ends and indentation make tokens of no width before the blanks that show them. Only tokens
that the automaton welcomes are found.
-/

namespace Postmortem.Python

open Postmortem.Text

/-- The tokens that the layout reader finds or wants to know about, in the order in which the
grammar lists them. -/
inductive LayoutToken where
  | newline
  | indent
  | dedent
  | stringStart
  | stringContent
  | escapeInterpolation
  | stringEnd
  | comment
  | closeBracket
  | closeParen
  | closeBrace
  | except
deriving BEq, DecidableEq, Repr, Inhabited

/-- The quotes and marks of an open string. -/
structure Quote where
  /-- The character that ends the string. -/
  mark : Char
  triple : Bool := false
  raw : Bool := false
  bytes : Bool := false
  format : Bool := false
deriving BEq, DecidableEq, Repr, Inhabited

/-- What the layout reader remembers between tokens. -/
structure Layout where
  /-- The indentation of the open blocks, innermost first; the outermost block has none. -/
  indents : List Nat
  /-- The open strings, innermost first. -/
  quotes : List Quote
  /-- Whether the string begun last may hold expressions. -/
  inFormat : Bool
deriving BEq, DecidableEq, Repr, Inhabited

namespace Layout

/-- The memory at the beginning of a text. -/
def initial : Layout := ⟨[0], [], false⟩

/-- A token that was found. -/
structure Found where
  token : LayoutToken
  /-- Where it begins. -/
  start : Nat
  /-- Where it ends. -/
  stop : Nat
  /-- The memory after it. -/
  layout : Layout
deriving Inhabited

/-! ## Inside strings -/

/-- Reads text inside a string from `i` on, up to something that is not text. `held` tells whether
there is any so far. The left side means that nothing stopped the text before the place given,
which is the end of the source or a NUL. -/
def readContent (src : Source) (layout : Layout) (q : Quote) (start : Nat) :
    Nat → Nat → Bool → Nat ⊕ Option Found
  | 0, i, _ => .inl i
  | fuel + 1, i, held =>
    let content (stop : Nat) : Nat ⊕ Option Found :=
      .inr (some ⟨.stringContent, start, stop, layout⟩)
    let ended (stop : Nat) : Nat ⊕ Option Found :=
      .inr (some ⟨.stringEnd, start, stop,
        { layout with quotes := layout.quotes.drop 1, inFormat := false }⟩)
    let c := src.peek i
    if c == '\x00' then .inl (min i src.size)
    else if (c == '{' || c == '}') && q.format then
      if held then content i else .inr none
    else if c == '\\' then
      if q.raw then
        let j := i + 1
        let j := if src.peek j == q.mark || src.peek j == '\\' then j + 1 else j
        let j := if src.peek j == '\r' then (if src.peek (j + 1) == '\n' then j + 2 else j + 1)
          else if src.peek j == '\n' then j + 1 else j
        readContent src layout q start fuel j held
      else if q.bytes && ['N', 'u', 'U'].contains (src.peek (i + 1)) then
        readContent src layout q start fuel (i + 3) true
      else if held then content i else .inr none
    else if c == q.mark then
      if q.triple then
        if src.peek (i + 1) == q.mark && src.peek (i + 2) == q.mark then
          if held then content i else ended (i + 3)
        else content (if src.peek (i + 1) == q.mark then i + 2 else i + 1)
      else if held then content i else ended (i + 1)
    else if c == '\n' && held && !q.triple then .inr none
    else readContent src layout q start fuel (i + 1) true

/-! ## Line ends -/

/-- What was seen while blanks, line ends and comment lines were passed over. -/
structure Passed where
  /-- The first place that is none of these. -/
  at_ : Nat
  /-- Whether a line ended. -/
  lineEnded : Bool
  /-- The indentation there. -/
  indent : Nat
  /-- The indentation of the first comment line. -/
  commentIndent : Option Nat
deriving Inhabited

/-- The place of the next line feed or NUL from `i` on. -/
def lineStop (src : Source) : Nat → Nat → Nat
  | 0, i => i
  | fuel + 1, i =>
    if src.peek i == '\x00' || src.peek i == '\n' then i else lineStop src fuel (i + 1)

/-- Passes over blanks, line ends and comment lines. `comments` tells whether comments matter here;
one on the line at hand, or a backslash that ends no line, means that no token can be found. -/
def pass (src : Source) (comments : Bool) : Nat → Passed → Option Passed
  | 0, p => some p
  | fuel + 1, p =>
    let i := p.at_
    let c := src.peek i
    if src.atEnd i then some { p with indent := 0, lineEnded := true }
    else if c == '\n' then
      pass src comments fuel { p with at_ := i + 1, lineEnded := true, indent := 0 }
    else if c == ' ' then pass src comments fuel { p with at_ := i + 1, indent := p.indent + 1 }
    else if c == '\r' || c == '\x0c' then
      pass src comments fuel { p with at_ := i + 1, indent := 0 }
    else if c == '\t' then pass src comments fuel { p with at_ := i + 1, indent := p.indent + 8 }
    else if c == '#' && comments then
      if !p.lineEnded then none else
        pass src comments fuel { p with
          at_ := min (lineStop src (src.size + 1) i + 1) src.size
          indent := 0
          commentIndent := p.commentIndent.or (some p.indent) }
    else if c == '\\' then
      let j := if src.peek (i + 1) == '\r' then i + 2 else i + 1
      if src.peek j == '\n' || src.atEnd j then
        pass src comments fuel { p with at_ := min (j + 1) src.size }
      else none
    else some p

/-! ## Strings -/

/-- Reads the marks before a string from `i` on: the place after them and what they say. -/
def readMarks (src : Source) : Nat → Nat → Quote → Nat × Quote
  | 0, i, q => (i, q)
  | fuel + 1, i, q =>
    match src.peek i with
    | 'f' | 'F' => readMarks src fuel (i + 1) { q with format := true }
    | 'r' | 'R' => readMarks src fuel (i + 1) { q with raw := true }
    | 'b' | 'B' => readMarks src fuel (i + 1) { q with bytes := true }
    | 'u' | 'U' => readMarks src fuel (i + 1) q
    | _ => (i, q)

/-- Reads the beginning of a string. -/
def readStart (src : Source) (layout : Layout) (i : Nat) : Option Found :=
  let (j, q) := readMarks src (src.size + 1) i { mark := '\x00' }
  let c := src.peek j
  let opened (q : Quote) (stop : Nat) : Option Found :=
    some ⟨.stringStart, i, stop, { layout with quotes := q :: layout.quotes, inFormat := q.format }⟩
  if c == '\x60' then opened { q with mark := c } (j + 1)
  else if c == '\x27' || c == '"' then
    if src.peek (j + 1) == c && src.peek (j + 2) == c
    then opened { q with mark := c, triple := true } (j + 3)
    else opened { q with mark := c } (j + 1)
  else none

/-! ## The reader -/

/-- Finds the next token from `i` on among those that are welcome. -/
def read (src : Source) (welcome : LayoutToken → Bool) (layout : Layout) (i : Nat) :
    Option Found :=
  let mending := welcome .stringContent && welcome .indent
  let inBrackets := welcome .closeBrace || welcome .closeParen || welcome .closeBracket
  let lines (k : Nat) : Option Found :=
    let comments := welcome .indent || welcome .dedent || welcome .newline || welcome .except
    match pass src comments (src.size + 1) ⟨k, false, 0, none⟩ with
    | none => none
    | some p =>
      let start := if p.at_ == k then i else k
      let line : Option Found := if !p.lineEnded then none else
        let block : Option Found := match layout.indents with
          | [] => none
          | current :: outer =>
            let c := src.peek p.at_
            let atString := c == '"' || c == '\x27' || c == '\x60'
            if welcome .indent && p.indent > current then
              some ⟨.indent, start, k, { layout with indents := p.indent :: layout.indents }⟩
            else if (welcome .dedent || (!welcome .newline && !(welcome .stringStart && atString) &&
                !inBrackets)) && p.indent < current && !layout.inFormat &&
                (match p.commentIndent with | none => true | some n => n < current) then
              some ⟨.dedent, start, k, { layout with indents := outer }⟩
            else none
        block <|> if welcome .newline && !mending then some ⟨.newline, start, k, layout⟩ else none
      line <|> if p.commentIndent.isNone && welcome .stringStart
        then readStart src layout p.at_ else none
  let c := src.peek i
  match layout.quotes with
  | q :: _ =>
    if welcome .escapeInterpolation && (c == '{' || c == '}') && !mending && q.format then
      if src.peek (i + 1) == c then some ⟨.escapeInterpolation, i, i + 2, layout⟩ else none
    else if welcome .stringContent && !mending then
      match readContent src layout q i (src.size + 1) i false with
      | .inr found => found
      | .inl k => lines k
    else lines i
  | [] => lines i

end Layout

end Postmortem.Python
