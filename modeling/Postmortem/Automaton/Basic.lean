import Postmortem.Automaton.Merge

/-!
# Automata

The automaton of a grammar: its merged states, each with the tokens that a lexer looks for there.
States whose tokens do not disturb each other share one *mode* of the lexer, so a lexer may also
find a token on which the state at hand does not act.
-/

namespace Postmortem

open Postmortem.Automaton Postmortem.Grammar Postmortem.Lexical

/-- What a lexer looks for. -/
structure Automaton.Mode where
  /-- The tokens, by their number in the lexicon. -/
  tokens : List Nat
  /-- Whether the end of the text may come. -/
  admitsEnd : Bool
deriving Inhabited

/-- An automaton that reads the texts of a grammar. State zero is where errors are mended, state
one the start. -/
structure Automaton where
  vocabulary : Vocabulary
  lexicon : Lexicon
  shapes : Array Shape
  states : Array State
  /-- The lexer's mode in each state. -/
  modeOf : Array Nat
  modes : Array Automaton.Mode
  /-- The tokens of the layout reader that are welcome in each state, by their place among them. -/
  layoutOf : Array (List Nat)
  /-- The tokens whose texts are first read as the word token, by text. -/
  keywords : Std.HashMap String Nat
  /-- The heads of the productions between which some state leaves the choice open. -/
  ambiguities : List (List Nat)
deriving Inhabited

namespace Automaton

/-- Whether a lexer may look for two sets of tokens at once. -/
def compatible (ts : Tokens) (n : Nat) (a b : TokenSet) : Bool :=
  let clean (t : Nat) (others : TokenSet) : Bool :=
    (others.toList n).all fun u =>
      let o := ts.overlapOf t u
      !(o.conflicts || o.stopsShort) &&
        (ts.standTogether t u || !(o.touches || (ts.overlapOf u t).touches))
  ((a.diff b).toList n).all (fun t => t == 0 || clean t (b.diff (.single 0))) &&
    ((b.diff a).toList n).all fun t => t == 0 || clean t (a.diff (.single 0))

/-- Puts a set of tokens into the first mode that admits it. -/
def assign (ts : Tokens) (n : Nat) (modes : Array TokenSet) (set : TokenSet) :
    Array TokenSet × Nat :=
  match modes.findIdx? fun m => compatible ts n m set with
  | some i => (modes.modify i (·.union set), i)
  | none => (modes.push set, modes.size)

/-- The tokens that a lexer must look for in a state. -/
def lexedTokens (v : Vocabulary) (keywords : TokenSet) (s : State) : TokenSet :=
  let tokens := (Tokens.stateTokens s).inter (.ofList (List.range v.lexemeCount))
  let found := tokens.inter keywords
  if found.isEmpty then tokens else (tokens.diff found).insert v.word

/-- Lets the error state take up tokens. What it already passes it still passes, but for the end. -/
def withRecovery (tokens : List Nat) (s : State) : State :=
  { s with
    actions := tokens.foldl (fun acts t =>
      acts.modify t fun a => if a.isEmpty || t == 0 then #[.recover] else a) s.actions }

/-- The automaton of a grammar. -/
def ofGrammar (g : Grammar) : Automaton :=
  let p := Plan.ofGrammar g
  let v := p.vocabulary
  let d := Draft.ofPlan p
  let ts := Tokens.ofStates p g.blanks d.states
  let states := d.states.modify 0 (withRecovery (ts.recoverable v))
  let merged := Draft.merge states (Draft.groups v ts states)
  let states := Draft.order (Draft.dropUnused (Draft.skipLone p.productions merged))
  let (modes, modeOf) := states.foldl (fun (acc : Array TokenSet × Array Nat) s =>
    let (modes, i) := assign ts v.lexemeCount acc.1 (lexedTokens v ts.keywords s)
    (modes, acc.2.push i)) (#[], #[])
  { vocabulary := v
    lexicon := ts.lexicon
    shapes := p.shapes
    states
    modeOf
    modes := modes.map fun m =>
      ⟨((m.toList v.lexemeCount).filter (· != 0)).map (· - 1), m.contains 0⟩
    layoutOf := states.map fun s =>
      let tokens := Tokens.stateTokens s
      (List.range v.layout.size).filter fun i => tokens.contains (v.layout.getD i 0)
    keywords := Std.HashMap.ofList ((ts.keywords.toList v.lexemeCount).filterMap fun t =>
      (ts.lexicon.lexemes.getD (t - 1) default).literal.map fun s => (s, t))
    ambiguities := d.ambiguities }

/-- What the automaton does in a state on a token. -/
def actionsAt (a : Automaton) (state token : Nat) : Array Action :=
  match a.states[state]? with
  | some s => s.actions.getD token #[]
  | none => #[]

/-- The state after a symbol, zero if there is none. A token that may stand anywhere leads
nowhere new. -/
def successor (a : Automaton) (state symbol : Nat) : Nat :=
  if symbol < a.vocabulary.tokenCount then
    match (a.actionsAt state symbol).back? with
    | some (.shift target _) => target
    | some .pass => state
    | _ => 0
  else
    match a.states[state]? with
    | some s => s.gotos.getD (symbol - a.vocabulary.tokenCount) 0
    | none => 0

/-- Whether the first thing that the automaton does in a state on a token is to end a production. -/
def beginsWithReduce (a : Automaton) (state token : Nat) : Bool :=
  match (a.actionsAt state token).toList with
  | .reduce .. :: _ => true
  | _ => false

/-- The symbol of a part that could not be read. -/
def errorSymbol (a : Automaton) : Nat := a.vocabulary.infos.size + 1

/-- The symbol of several such parts. -/
def errorRun (a : Automaton) : Nat := a.vocabulary.infos.size

end Automaton

end Postmortem
