import Postmortem.Automaton.Build
import Postmortem.Lexical.Overlap

/-!
# What the tokens of a grammar have to do with each other

Which tokens overlap, which ever stand in one state together, and which are *keywords*: tokens
whose texts a lexer may first read as the word token without getting in the way of any other token.
The set of tokens that the error state takes up is chosen here too. It leaves out a token that would
change how one of the *independent* tokens is read, those that no other token can cut short or
extend.
-/

namespace Postmortem.Automaton

open Postmortem.Grammar Postmortem.Lexical

/-- What the tokens of a grammar have to do with each other. All rows are indexed by token. -/
structure Tokens where
  lexicon : Lexicon
  /-- How each token overlaps each other. -/
  overlap : Array (Array Overlap)
  /-- The tokens with which each token shares a state. -/
  together : Array TokenSet
  /-- The tokens that each token conflicts with, in the sense of `Overlap.conflicts`. -/
  conflicts : Array TokenSet
  /-- The tokens that are read as the word token first. -/
  keywords : TokenSet
deriving Inhabited

namespace Tokens

/-- The tokens that may come right after each token. -/
def followers (p : Plan) : Array TokenSet :=
  let ps := p.productions
  let v := ps.vocabulary
  let lasts := tokensAtEnd ps List.getLast?
  let lexed := (List.range (v.lexemeCount - 1)).map (· + 1)
  let pairs (acc : Array TokenSet) (steps : List Step) : Array TokenSet :=
    (steps.zip steps.tail).foldl (fun acc (a, b) =>
      let next := p.firsts.getD b.symbol .empty
      ((lasts.getD a.symbol .empty).toList v.lexemeCount).foldl
        (fun acc t => acc.modify t (·.union next)) acc) acc
  let acc := ps.all.foldl (fun acc q => pairs acc q.steps) (Array.replicate v.lexemeCount .empty)
  ps.extras.foldl (fun acc x =>
    (acc.map (·.insert x)).setIfInBounds x (.ofList lexed)) acc

/-- How each pair of tokens overlaps, given the tokens that may follow each. -/
def overlapTable (lx : Lexicon) (count : Nat) (after : Array TokenSet) : Array (Array Overlap) :=
  let beginnings := (List.range count).map fun t => (lx.recognizer (t - 1)).startClasses
  let classesAfter := after.map fun set =>
    (beginnings.zipIdx.filter fun (_, t) => t != 0 && set.contains t).foldl
      (fun acc (ks, _) => ks.foldl TokenSet.insert acc) TokenSet.empty
  let can (t k : Nat) : Bool := (classesAfter.getD t .empty).contains k
  let blank : Array (Array Overlap) := Array.replicate count (Array.replicate count {})
  let lexed := (List.range (count - 1)).map (· + 1)
  lexed.foldl (fun table i => (lexed.filter (· < i)).foldl (fun table j =>
    let (a, b) := lx.overlaps (i - 1) (j - 1) (can i) (can j)
    (table.modify i fun row => row.setIfInBounds j a).modify j fun row => row.setIfInBounds i b)
    table) blank

/-- The tokens on which a state acts. -/
def stateTokens (s : State) : TokenSet :=
  s.actions.zipIdx.foldl (fun acc (a, t) => if a.isEmpty then acc else acc.insert t) .empty

/-- Whether every character that may begin the token is a letter or an underscore. -/
def isAlphabetical (lx : Lexicon) (t : Nat) : Bool :=
  match (lx.lexemes.getD (t - 1) default).literal with
  | some s => match s.toList.head? with
    | some c => c.isAlpha || c == '_'
    | none => false
  | none => false

/-- The tokens that are read as the word token first. -/
def keywordsOf (v : Vocabulary) (lx : Lexicon) (overlap : Array (Array Overlap))
    (sets : List TokenSet) : TokenSet :=
  let at_ (i j : Nat) : Overlap := (overlap.getD i #[]).getD j {}
  let lexed := (List.range (v.lexemeCount - 1)).map (· + 1)
  let candidates := lexed.filter fun t =>
    t != v.word && isAlphabetical lx t && (at_ t v.word).winsSame && !(at_ t v.word).differs
  let plain := candidates.filter fun t =>
    !candidates.any fun u => u != t && (at_ u t).winsSame
  let withoutWord := sets.filter fun s => !s.contains v.word
  .ofList (plain.filter fun t => lexed.all fun u =>
    candidates.contains u || at_ t u == at_ v.word u ||
      !withoutWord.any fun s => s.contains t && s.contains u)

/-- What the tokens have to do with each other in these states. -/
def ofStates (p : Plan) (blanks : Text.CharSet) (states : Array State) : Tokens :=
  let v := p.vocabulary
  let lexicon := Lexicon.ofLexemes blanks v.lexemes
  let overlap := overlapTable lexicon v.lexemeCount (followers p)
  let sets := states.toList.map stateTokens
  let together := sets.foldl (fun (acc : Array TokenSet) s =>
    (s.toList v.lexemeCount).foldl (fun acc t => acc.modify t (·.union s)) acc)
    (Array.replicate v.lexemeCount .empty)
  let conflicts := overlap.map fun row =>
    row.zipIdx.foldl (fun acc (o, u) => if o.conflicts then acc.insert u else acc) .empty
  { lexicon, overlap, together, conflicts
    keywords := keywordsOf v lexicon overlap sets }

/-- How token `t` overlaps token `u`. -/
def overlapOf (ts : Tokens) (t u : Nat) : Overlap := (ts.overlap.getD t #[]).getD u {}

/-- Whether two tokens share a state. -/
def standTogether (ts : Tokens) (t u : Nat) : Bool := (ts.together.getD t .empty).contains u

/-- Whether token `t` can cut token `u` short or extend it, and not because blanks are part of
`u`. -/
def disturbs (ts : Tokens) (t u : Nat) : Bool :=
  let o := ts.overlapOf t u
  (o.goesOnValidly || o.holdsBlank) && !(ts.overlapOf u t).holdsBlank

/-- The tokens that the error state takes up. -/
def recoverable (ts : Tokens) (v : Vocabulary) : List Nat :=
  let lexed := (List.range (v.lexemeCount - 1)).map (· + 1)
  let independent := lexed.filter fun i =>
    !lexed.any fun j => j != i && !ts.standTogether i j && ts.disturbs i j
  let kept := lexed.filter fun i =>
    independent.contains i || ts.keywords.contains i || i == v.word ||
      !independent.any fun t => !ts.standTogether i t && (ts.overlapOf i t).conflicts
  let layoutOnly := (List.range (v.tokenCount - v.lexemeCount)).map (· + v.lexemeCount)
  0 :: kept ++ layoutOnly

end Tokens

end Postmortem.Automaton
