import Postmortem.Automaton.Item

/-!
# First tokens, last tokens and closures

Which tokens a symbol may begin with and end with, and which items an item with a rule after its
dot brings along: those of every production that can begin the rule, each with the tokens that may
follow it there.
-/

namespace Postmortem.Automaton

open Postmortem.Grammar

/-- Repeats a step until it changes nothing, at most `fuel` times. -/
def settle {α : Type} [BEq α] (step : α → α) : Nat → α → α
  | 0, a => a
  | fuel + 1, a =>
    let b := step a
    if b == a then a else settle step fuel b

/-- For each symbol, the tokens at one end of it, where `pick` gives the symbol at that end of a
production. -/
def tokensAtEnd (ps : Productions) (pick : List Step → Option Step) : Array TokenSet :=
  let v := ps.vocabulary
  let initial := (Array.range v.infos.size).map fun s =>
    if v.isToken s then TokenSet.single s else .empty
  let round (sets : Array TokenSet) : Array TokenSet :=
    ps.all.foldl (fun sets p =>
      match pick p.steps with
      | none => sets
      | some s =>
        let new := sets.getD s.symbol .empty
        sets.modify p.head (·.union new)) sets
  settle round v.infos.size initial

/-- An item that a rule after a dot brings along. -/
structure Addition where
  item : Nat
  /-- The tokens that may follow it in any case. -/
  follow : TokenSet
  /-- Whether what may follow the rule may also follow the item. -/
  inherits : Bool
deriving BEq, Inhabited

/-- What may follow each symbol that can begin a rule, and whether what follows the rule may. -/
abbrev Corners := Array (Option (TokenSet × Bool))

/-- Collects the symbols that can begin a rule. `fuel` bounds the number of visits. -/
def corners (ps : Productions) (firsts : Array TokenSet) :
    Nat → List (Nat × TokenSet × Bool) → Corners → Corners
  | 0, _, acc => acc
  | _ + 1, [], acc => acc
  | fuel + 1, (s, follow, inherits) :: rest, acc =>
    let known := acc.getD s none
    let old := known.getD (.empty, false)
    let new := (old.1.union follow, old.2 || inherits)
    if known.isSome && new == old then corners ps firsts fuel rest acc else
      let more := (ps.ofHead.getD s []).filterMap fun i =>
        match (ps.all.getD i default).steps with
        | [] => none
        | [a] => if ps.vocabulary.isToken a.symbol then none else some (a.symbol, follow, inherits)
        | a :: b :: _ => if ps.vocabulary.isToken a.symbol then none else
            some (a.symbol, firsts.getD b.symbol .empty, false)
      corners ps firsts fuel (more ++ rest) (acc.setIfInBounds s (some new))

/-- The most visits that collecting the beginnings of one rule takes. -/
def cornerLimit : Nat := 1000000

/-- The items that each rule brings along. -/
def allAdditions (ps : Productions) (items : Items) (firsts : Array TokenSet) :
    Array (Array Addition) :=
  let n := ps.vocabulary.infos.size
  (Array.range n).map fun s =>
    if ps.vocabulary.isToken s then #[] else
      let acc := corners ps firsts cornerLimit [(s, .empty, true)] (Array.replicate n none)
      acc.zipIdx.flatMap fun (entry, head) =>
        match entry with
        | none => #[]
        | some (follow, inherits) =>
          ((ps.ofHead.getD head []).map fun i =>
            (⟨items.front.getD i 0, follow, inherits⟩ : Addition)).toArray

end Postmortem.Automaton
