import Postmortem.Parse.Stack

/-!
# Finding the next token

In each state the layout reader is asked first, then the lexer in the state's mode. If both fail,
they try again for every token that the error state takes up, and then character by character until
they find one; what was passed over becomes a part that could not be read.
-/

namespace Postmortem.Parse

open Postmortem.Text Postmortem.Automaton Postmortem.Lexical

/-- A layout token that was found. -/
structure LayoutFound (Memory : Type) where
  /-- Its place among the layout tokens of the grammar. -/
  token : Nat
  start : Nat
  stop : Nat
  memory : Memory
deriving Inhabited

/-- A reader of layout: a memory at the start, and a function that finds the next token among
those that are welcome. -/
structure LayoutReader (Memory : Type) where
  initial : Memory
  read : Source → List Nat → Memory → Nat → Option (LayoutFound Memory)

/-- What a parser is made of. -/
structure Setup (Memory : Type) where
  automaton : Automaton
  layout : LayoutReader Memory
  source : Source

/-- What a lexer found. -/
structure Lexed where
  /-- The symbol of the token and the place where it ends. -/
  found : Option (Nat × Nat)
  /-- Where the token begins, after blanks. -/
  start : Nat
  /-- How far the lexer looked. -/
  reached : Nat
deriving Inhabited

/-- Reads on from `i` while some token may still go on. -/
def lexFrom (lx : Lexicon) (src : Source) (admitsEnd : Bool) :
    Nat → Nat → Nat → Reading → Bool → Option (Nat × Nat) → Lexed
  | 0, i, start, _, _, best => ⟨best, start, i⟩
  | fuel + 1, i, start, reading, onlyBlank, best =>
    let done := lx.complete reading
    let best := match done with
      | some t => some (t + 1, i)
      | none => best
    match src.chars[i]? with
    | none => ⟨if admitsEnd && onlyBlank then some (0, i) else best, start, i⟩
    | some c =>
      let next := lx.step reading (lx.alphabet.classOf c.toNat)
      let goOn := !next.isEmpty && match done with
        | some t => lx.prefersLonger reading t next
        | none => true
      if goOn then
        let blank := lx.afterBlank next
        lexFrom lx src admitsEnd fuel (i + 1) (if blank then i + 1 else start) next
          (onlyBlank && blank) best
      else ⟨best, start, i⟩

variable {Memory : Type}

/-- Finds the token of a lexer's mode from `i` on. -/
def lex (su : Setup Memory) (mode i : Nat) : Lexed :=
  let m := su.automaton.modes.getD mode default
  lexFrom su.automaton.lexicon su.source m.admitsEnd (su.source.size + 2 - i) i i
    (Lexicon.start m.tokens) true none

/-- The place where a lexer begins: a byte order mark at the beginning of a text is passed over. -/
def lexStart (src : Source) (i : Nat) : Nat :=
  if i == 0 && src.peek 0 == '\ufeff' then 1 else i

/-- A token between two places, with the blanks before it. -/
def leaf (su : Setup Memory) (lead start stop symbol : Nat) : Subtree Memory :=
  .node
    { symbol
      lead := su.source.mark lead
      start := su.source.mark start
      stop := su.source.mark stop
      extra := symbol == 0
      visible := Subtree.shows su.automaton symbol } []

/-- The search for a token. -/
structure Search where
  /-- Whether every token is looked for that the error state takes up. -/
  mending : Bool
  /-- What has been passed over. -/
  skipped : Option (Nat × Nat)
  /-- Where to look next. -/
  at_ : Nat

/-- Asks the layout reader. A token without width that changes nothing is not taken while errors are
mended, nor where it would lead nowhere. -/
def findLayout [BEq Memory] (su : Setup Memory) (state : Nat) (memory : Option Memory)
    (advanced : Bool) (s : Search) : Option (LayoutFound Memory × Nat × Bool) :=
  let a := su.automaton
  let welcome := a.layoutOf.getD (if s.mending then 0 else state) []
  if welcome.isEmpty then none else
    match su.layout.read su.source welcome (memory.getD su.layout.initial)
        (lexStart su.source s.at_) with
    | none => none
    | some f =>
      let changed := memory != some f.memory
      let symbol := a.vocabulary.layout.getD f.token 0
      let idle := f.stop ≤ s.at_ && !changed &&
        (s.mending || !advanced || a.successor state symbol == state)
      if idle then none else some (f, symbol, changed)

/-- Finds the next token from `start` on; `fuel` bounds the number of attempts. -/
def searchToken [BEq Memory] (su : Setup Memory) (state : Nat) (memory : Option Memory)
    (advanced : Bool) (start : Nat) : Nat → Search → Subtree Memory
  | 0, _ => leaf su start start su.source.size su.automaton.errorSymbol
  | fuel + 1, s =>
    let a := su.automaton
    let passed (other : Subtree Memory) : Subtree Memory :=
      match s.skipped with
      | some (i, j) => leaf su start i j a.errorSymbol
      | none => other
    match findLayout su state memory advanced s with
    | some (f, symbol, changed) =>
      passed ((leaf su start f.start f.stop symbol).modify fun x =>
        { x with memory := some f.memory, memoryChanged := changed })
    | none =>
      let found := lex su (a.modeOf.getD (if s.mending then 0 else state) 0)
        (lexStart su.source s.at_)
      match found.found with
      | some (symbol, stop) =>
        let word := leaf su start found.start stop symbol
        let asKeyword := if symbol == a.vocabulary.word
          then a.keywords[su.source.slice found.start stop]? else none
        passed (match asKeyword with
          | some k => if (a.actionsAt state k).isEmpty then word else
              (leaf su start found.start stop k).modify fun x => { x with keyword := true }
          | none => word)
      | none =>
        if !s.mending then
          searchToken su state memory advanced start fuel { s with mending := true, at_ := start }
        else
          let (i, j) := s.skipped.getD (found.start, found.start)
          if found.reached == j && su.source.atEnd j then leaf su start i j a.errorSymbol
          else
            let k := if found.reached == j then j + 1 else found.reached
            searchToken su state memory advanced start fuel
              { s with skipped := some (i, k), at_ := k }

/-- The next token of a version in `state` at `start`. -/
def nextToken [BEq Memory] (su : Setup Memory) (state : Nat) (memory : Option Memory)
    (advanced : Bool) (start : Nat) : Subtree Memory :=
  searchToken su state memory advanced start (su.source.size + 3) ⟨false, none, start⟩

end Postmortem.Parse
