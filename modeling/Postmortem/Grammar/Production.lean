import Postmortem.Grammar.Vocabulary

/-!
# Productions

The rules of a grammar, spelled out as sequences of symbols. Each choice of alternatives gives a
production of its own; a repeated part becomes a run, which is two runs of the same kind or the
part itself; uses of inlined rules are replaced by the rule's alternatives.

## Levels of steps

A step carries the level and side of the innermost ranked part around it. Where a ranked part ends
before its rule does, its last step carries the level and side from outside the part instead: what
follows that step is no longer the part's concern.
-/

namespace Postmortem.Grammar

/-- One symbol of a production, with what its place says about it. -/
structure Step where
  symbol : Nat
  level : Option Int := none
  side : Option Side := none
  rename : Option Rename := none
  role : Option String := none
deriving BEq, DecidableEq, Hashable, Inhabited

/-- One way to make a symbol of others. -/
structure Production where
  head : Nat
  steps : List Step
  weight : Int
deriving BEq, Inhabited

/-- Of two weights the one further from zero, the first one at equal distance. -/
def heavier (a b : Int) : Int := if b.natAbs > a.natAbs then b else a

/-- What the place of a part says about its steps. -/
structure Place where
  level : Option Int := none
  side : Option Side := none
  rename : Option Rename := none
  role : Option String := none

/-- Changes the last step of a sequence. -/
def modifyLast (f : Step → Step) : List Step → List Step
  | [] => []
  | [s] => [f s]
  | s :: ss => s :: modifyLast f ss

/-- The sequences that a part stands for, with their weights. `atEnd` tells whether the part ends
its rule. -/
def Rule.sequences (v : Vocabulary) (place : Place) (atEnd : Bool) : Rule → List (List Step × Int)
  | .empty => [([], 0)]
  | .token l => [([⟨v.ofLexeme l, place.level, place.side, place.rename, place.role⟩], 0)]
  | .ref name =>
    [([⟨v.ofName.getD name 0, place.level, place.side, place.rename, place.role⟩], 0)]
  | .many1 body => [([⟨v.ofRun body, place.level, place.side, place.rename, place.role⟩], 0)]
  | .seq a b =>
    let right := b.sequences v place atEnd
    (a.sequences v place false).flatMap fun (xs, wx) =>
      right.map fun (ys, wy) => (xs ++ ys, heavier wx wy)
  | .alt a b => a.sequences v place atEnd ++ b.sequences v place atEnd
  | .ranked level side body =>
    let inner := body.sequences v
      { place with level := some level, side := side.or place.side } atEnd
    if atEnd then inner else
      inner.map fun (xs, w) => (modifyLast (fun s =>
        { s with level := place.level, side := if side.isSome then place.side else s.side }) xs, w)
  | .weighted weight body =>
    (body.sequences v place atEnd).map fun (xs, w) => (xs, heavier weight w)
  | .renamed as body => body.sequences v { place with rename := some as } atEnd
  | .role name body => body.sequences v { place with role := some name } atEnd

/-- The productions of a rule body. -/
def Rule.productions (v : Vocabulary) (head : Nat) (body : Rule) : Array Production :=
  distinct ((body.sequences v {} true).map fun (steps, w) => ⟨head, steps, w⟩)

/-- The productions of a repeated part: two runs, or the part itself. -/
def runProductions (v : Vocabulary) (body : Rule) : Array Production :=
  let head := v.ofRun body
  distinct (⟨head, [{ symbol := head }, { symbol := head }], 0⟩ ::
    (body.sequences v {} true).map fun (steps, w) => ⟨head, steps, w⟩)

/-- The name under which a symbol appears wherever it is used, if it is never used without one:
of several the most frequent, and of those the first. -/
def defaultRename (uses : List (Option Rename)) : Option Rename :=
  if uses.any Option.isNone then none else
    (tally uses).foldl (fun best (r, n) =>
      match best with
      | some (_, m) => if n > m then some (r, n) else best
      | none => some (r, n)) none |>.bind (·.1)

/-- Replaces the step at position `at_` by the steps of an alternative `p` of its symbol. -/
def Production.splice (outer : Production) (at_ : Nat) (p : Production) : Production :=
  match outer.steps[at_]? with
  | none => outer
  | some old =>
    let place (s : Step) : Step :=
      { s with rename := old.rename.or s.rename, role := old.role.or s.role }
    let last (s : Step) : Step :=
      { s with level := s.level.or old.level, side := s.side.or old.side }
    { outer with
      steps := outer.steps.take at_ ++ modifyLast last (p.steps.map place) ++
        outer.steps.drop (at_ + 1)
      weight := heavier outer.weight p.weight }

/-- Replaces every use of an inlined rule from position `at_` on. `fuel` bounds the number of steps
looked at along one branch. -/
def Production.inlined (alternatives : Nat → Option (Array Production)) :
    Nat → Nat → Production → List Production
  | 0, _, p => [p]
  | fuel + 1, at_, p =>
    match p.steps[at_]? with
    | none => [p]
    | some s =>
      match alternatives s.symbol with
      | none => p.inlined alternatives fuel (at_ + 1)
      | some alts => alts.toList.flatMap fun a => (p.splice at_ a).inlined alternatives fuel at_

/-- The longest chain of steps that inlining follows. -/
def inlineLimit : Nat := 64

/-- A grammar spelled out. -/
structure Productions where
  /-- The symbols, under the names that the tree shows. -/
  vocabulary : Vocabulary
  /-- All productions; those of one symbol stand together. -/
  all : Array Production
  /-- The productions of each symbol, by number. -/
  ofHead : Array (List Nat)
  /-- The symbols that appear renamed somewhere although not everywhere. -/
  renamed : List Nat
  /-- The symbols that have a name of their own only by being renamed everywhere. -/
  renamedAlways : List Nat
  /-- The roles that occur within each hidden symbol. -/
  roles : Array (List String)
  /-- The symbols of the tokens that may stand anywhere. -/
  extras : List Nat
deriving Inhabited

namespace Productions

/-- One round of collecting roles: those of a symbol's own steps, and those of the hidden symbols
among its steps. -/
def collectRoles (v : Vocabulary) (ps : Array Production) (roles : Array (List String)) :
    Array (List String) :=
  ps.foldl (fun roles p => p.steps.foldl (fun roles s =>
    let own := s.role.toList
    let info := v.info s.symbol
    let inner := if s.rename.isNone && !info.visible && !info.isGroup then
      roles.getD s.symbol [] else []
    roles.modify p.head fun old => (own ++ inner).foldl (fun acc r =>
      if acc.contains r then acc else acc ++ [r]) old) roles) roles

/-- The productions of a grammar. -/
def ofGrammar (g : Grammar) : Productions :=
  let v := Vocabulary.ofGrammar g
  let inlinedSymbols := g.inlined.map fun name => v.ofName.getD name 0
  let written := g.rules.foldl (fun acc (name, body) =>
    match v.ofName[name]? with
    | some s => if v.isToken s then acc else acc ++ body.productions v s
    | none => acc) #[]
  let written := v.runs.foldl (fun acc body => acc ++ runProductions v body) written
  let extras := g.extras.map fun name => v.ofName.getD name 0
  let steps := written.toList.flatMap (·.steps)
  let usesOf := steps.foldl (fun (uses : Array (List (Option Rename))) s =>
    uses.modify s.symbol (· ++ [s.rename])) (Array.replicate v.infos.size [])
  let usesOf := extras.foldl (fun uses s => uses.modify s (· ++ [none])) usesOf
  let defaults := usesOf.mapIdx fun s uses =>
    if inlinedSymbols.contains s then none else defaultRename uses
  let written := written.map fun p => { p with
    steps := p.steps.map fun s =>
      if s.rename.isSome && s.rename == defaults.getD s.symbol none
      then { s with rename := none } else s }
  let v := { v with
    infos := v.infos.mapIdx fun s info =>
      match defaults.getD s none with
      | some r => { info with name := r.name, visible := true, named := r.named }
      | none => info }
  let alternatives (s : Nat) : Option (Array Production) :=
    if inlinedSymbols.contains s then some (written.filter (·.head == s)) else none
  let all := written.filter fun p => !inlinedSymbols.contains p.head
  let all := all.flatMap fun p => (p.inlined alternatives inlineLimit 0).toArray
  let ofHead := all.zipIdx.foldl (fun (acc : Array (List Nat)) (p, i) =>
    acc.modify p.head (· ++ [i])) (Array.replicate v.infos.size [])
  let roles := (List.range 8).foldl (fun roles _ => collectRoles v all roles)
    (Array.replicate v.infos.size [])
  { vocabulary := v
    all
    ofHead
    renamed := (distinct ((written.toList.flatMap (·.steps)).filterMap fun s =>
      if s.rename.isSome then some s.symbol else none)).toList
    renamedAlways := (List.range v.infos.size).filter fun s => (defaults.getD s none).isSome
    roles
    extras }

end Productions

end Postmortem.Grammar
