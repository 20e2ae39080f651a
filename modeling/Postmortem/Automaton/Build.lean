import Postmortem.Automaton.Closure
import Postmortem.Automaton.Shape

/-!
# Building an automaton

The states of the automaton are sets of items with the tokens that may follow each. They are found
breadth first from the start; a set found again is the same state.

## Conflicts

A state may allow several things on one token. Of several productions that could end, those of the
highest level stay. Between ending a production and reading on, the higher level wins, and at equal
levels the side: left ends, right reads on. What is then still open stays open, and both readings
are followed side by side. The choice between ending a run and extending it is no ambiguity of the
text, so the extension is only marked.
-/

namespace Postmortem.Automaton

open Postmortem.Grammar

/-- What an automaton does on a token. -/
inductive Action where
  /-- Reads the token and goes to a state; `repeats` marks the extension of a run. -/
  | shift (state : Nat) (repeats : Bool)
  /-- Ends a production of `count` parts. -/
  | reduce (head count : Nat) (weight : Int) (shape : Nat)
  /-- Reads the token as one that may stand anywhere. -/
  | pass
  /-- Ends the text. -/
  | accept
  /-- Takes the token up while looking for a way on after an error. -/
  | recover
deriving BEq, Inhabited

/-- One state of an automaton. -/
structure State where
  /-- What to do on each token. -/
  actions : Array (Array Action)
  /-- The state after each rule or run, counted from the first one; zero if there is none. -/
  gotos : Array Nat
  /-- The number of the state's set of items, whatever may follow them. -/
  core : Nat
deriving Inhabited

/-- An item with the tokens that may follow it. -/
structure Look where
  item : Nat
  follow : TokenSet
deriving BEq, Hashable, Inhabited

/-- What an automaton is built from. -/
structure Plan where
  productions : Productions
  items : Items
  firsts : Array TokenSet
  additions : Array (Array Addition)
  /-- The shape of each production. -/
  shapeOf : Array Nat
  shapes : Array Shape
deriving Inhabited

namespace Plan

/-- The head of the production that wraps the start rule. -/
def startHead (ps : Productions) : Nat := ps.vocabulary.infos.size

/-- The plan of a grammar: its productions and one more, which is the start rule alone. -/
def ofGrammar (g : Grammar) : Plan :=
  let ps := Productions.ofGrammar g
  let v := ps.vocabulary
  let root := (g.rules.head?.map (·.1)).getD ""
  let wrap : Production := ⟨startHead ps, [{ symbol := v.ofName.getD root 0 }], 0⟩
  let full := { ps with all := ps.all.push wrap }
  let items := Items.ofProductions full
  let firsts := tokensAtEnd ps List.head?
  let (shapes, shapeOf) := Shape.table full
  { productions := full, items, firsts, shapes, shapeOf
    additions := allAdditions ps items firsts }

/-- The vocabulary of a plan. -/
def vocabulary (p : Plan) : Vocabulary := p.productions.vocabulary

/-- The production that shows an item. -/
def productionOf (p : Plan) (item : Nat) : Production :=
  p.productions.all.getD (p.items.production.getD item 0) default

/-- The step before the dot of an item. -/
def lastStep? (p : Plan) (item : Nat) : Option Step :=
  match p.items.dot.getD item 0 with
  | 0 => none
  | d + 1 => (p.productionOf item).steps[d]?

/-- Notes that `item` may be followed by `follow`: `table` holds what may follow each item, and
`touched` the items noted so far. -/
@[inline] def note (acc : Array TokenSet × Array Nat) (item : Nat) (follow : TokenSet) :
    Array TokenSet × Array Nat :=
  let (table, touched) := acc
  let old := table.getD item .empty
  let touched := if old.isEmpty then touched.push item else touched
  (table.setIfInBounds item (old.union follow), touched)

/-- The items of a kernel and all that they bring along. The table is empty before. -/
def close (p : Plan) (table : Array TokenSet) (kernel : Array Look) : Array TokenSet × Array Nat :=
  let open_ (acc : (Array TokenSet × Array Nat) × List (Nat × TokenSet)) (l : Look) :=
    let table := note acc.1 l.item l.follow
    match p.items.next.getD l.item none with
    | none => (table, acc.2)
    | some s =>
      if p.vocabulary.isToken s then (table, acc.2) else
        let follow := match p.items.afterNext.getD l.item none with
          | none => l.follow
          | some t => p.firsts.getD t .empty
        (table, pend acc.2 s follow)
  let (acc, pending) := kernel.foldl open_ ((table, #[]), [])
  pending.foldl (fun acc (s, follow) =>
    (p.additions.getD s #[]).foldl (fun acc a =>
      note acc a.item (if a.inherits then a.follow.union follow else a.follow)) acc) acc
where
  /-- Adds to what may follow a symbol. -/
  pend : List (Nat × TokenSet) → Nat → TokenSet → List (Nat × TokenSet)
    | [], s, f => [(s, f)]
    | (t, g) :: r, s, f => if t == s then (t, g.union f) :: r else (t, g) :: pend r s f

/-- Sorts a set of items by number, and joins what may follow each. -/
def normalize (looks : Array Look) : Array Look :=
  let sorted := looks.qsort fun a b => a.item < b.item
  sorted.foldl (fun acc l =>
    match acc.back? with
    | some m => if m.item == l.item then acc.pop.push ⟨m.item, m.follow.union l.follow⟩
        else acc.push l
    | none => acc.push l) #[]

end Plan

/-- What is known of the productions that can end on one token. -/
structure Ending where
  level : Int := 0
  left : Bool := false
  right : Bool := false
  neither : Bool := false
deriving Inhabited

/-- An automaton under construction. -/
structure Draft where
  /-- The kernels found, in order; those from `states.size` on are still to be looked at. -/
  kernels : Array (Array Look)
  cores : Array Nat
  states : Array State
  ids : Std.HashMap (Array Look) Nat
  coreIds : Std.HashMap (Array Nat) Nat
  /-- What may follow each item of the state at hand; empty between states. -/
  table : Array TokenSet
  /-- The items after each symbol of the state at hand; empty between states. -/
  after : Array (Array Look)
  /-- The heads of the productions among which a state leaves the choice open. -/
  ambiguities : List (List Nat)
deriving Inhabited

namespace Draft

/-- The state of a kernel, a new one if it has none. -/
def intern (d : Draft) (kernel : Array Look) : Nat × Draft :=
  match d.ids[kernel]? with
  | some i => (i, d)
  | none =>
    let i := d.kernels.size
    let core := kernel.map (·.item)
    let c := d.coreIds.getD core d.coreIds.size
    (i, { d with
      kernels := d.kernels.push kernel
      cores := d.cores.push c
      ids := d.ids.insert kernel i
      coreIds := d.coreIds.insert core c })

/-- What ends on each token: the actions, what is known of them, and the tokens on which several
actions are open. -/
structure Endings where
  actions : Array (Array Action)
  known : Array Ending
  open_ : TokenSet := .empty

/-- Enters a production that can end on a token. -/
def Endings.enter (e : Endings) (level : Int) (side : Option Side) (action : Action) (t : Nat) :
    Endings :=
  let old := e.known.getD t {}
  let here := e.actions.getD t #[]
  let record (k : Ending) : Ending :=
    match side with
    | some .left => { k with level, left := true }
    | some .right => { k with level, right := true }
    | none => { k with level, neither := true }
  if here.isEmpty then
    { e with actions := e.actions.setIfInBounds t #[action]
             known := e.known.setIfInBounds t (record old) }
  else if level > old.level then
    { actions := e.actions.setIfInBounds t #[action]
      known := e.known.setIfInBounds t (record {})
      open_ := e.open_.diff (.single t) }
  else if level == old.level then
    { actions := e.actions.setIfInBounds t (here.push action)
      known := e.known.setIfInBounds t (record old)
      open_ := e.open_.insert t }
  else e

/-- Settles the choice on one token between ending productions and reading on, as far as levels and
sides decide it. Also gives the heads among which the choice stays open. -/
def settleConflict (p : Plan) (items : List (Nat × TokenSet)) (e : Endings) (t : Nat) :
    Endings × Option (List Nat) :=
  let v := p.vocabulary
  let start := Plan.startHead p.productions
  let actions := e.actions.getD t #[]
  let involved := items.filter fun (i, follow) =>
    (p.productionOf i).head != start &&
    match p.items.next.getD i none with
    | some s => p.items.dot.getD i 0 > 0 && (p.firsts.getD s .empty).contains t
    | none => follow.contains t
  let heads := involved.map fun (i, _) => (p.productionOf i).head
  let ended := actions.pop
  let openHeads (xs : List Nat) : Option (List Nat) := some (distinct xs).toList
  match actions.back? with
  | some (.shift state _) =>
    let allOneRun := match heads with
      | [] => false
      | h :: hs => (v.info h).isRun && hs.all (· == h)
    if allOneRun then
      ({ e with actions := e.actions.setIfInBounds t (ended.push (.shift state true)) }, none)
    else
      let known := e.known.getD t {}
      let shifting := involved.filter fun (i, _) => (p.items.next.getD i none).isSome
      let levels := shifting.map fun (i, _) => ((p.lastStep? i).bind (·.level)).getD 0
      let more := levels.any (· > known.level)
      let less := levels.any (· < known.level)
      let readOn := { e with actions := e.actions.setIfInBounds t (#[.shift state false]) }
      let stop := { e with actions := e.actions.setIfInBounds t ended }
      let done := involved.filter fun (i, _) => (p.items.next.getD i none).isNone
      let stopped := if ended.size == 1 then none else
        openHeads (done.map fun (i, _) => (p.productionOf i).head)
      if more && !less then (readOn, none)
      else if less && !more then (stop, stopped)
      else if more || less then (e, openHeads heads)
      else if known.left && !known.neither && !known.right then (stop, stopped)
      else if known.right && !known.neither && !known.left then (readOn, none)
      else (e, openHeads heads)
  | _ => (e, openHeads heads)

/-- Completes the next state whose kernel is known. -/
def advance (p : Plan) (d : Draft) (kernel : Array Look) : Draft :=
  let v := p.vocabulary
  let n := v.tokenCount
  let start := Plan.startHead p.productions
  let (table, touched) := p.close d.table kernel
  -- where each unfinished item leads, and which items are finished
  let step (acc : Array (Array Look) × Array Nat × Array Nat) (i : Nat) :=
    let (after, symbols, done) := acc
    match p.items.next.getD i none with
    | none => (after, symbols, done.push i)
    | some s =>
      let fresh := (after.getD s #[]).isEmpty
      (after.modify s (·.push ⟨p.items.advance.getD i 0, table.getD i .empty⟩),
        if fresh then symbols.push s else symbols, done)
  let (after, symbols, done) := touched.foldl step (d.after, #[], #[])
  -- the productions that can end
  let finish (e : Endings) (i : Nat) : Endings :=
    let prod := p.productionOf i
    let action := if prod.head == start then .accept else
      .reduce prod.head prod.steps.length prod.weight
        (p.shapeOf.getD (p.items.production.getD i 0) 0)
    let last := p.lastStep? i
    ((table.getD i .empty).toList n).foldl
      (fun e t => e.enter ((last.bind (·.level)).getD 0) (last.bind (·.side)) action t) e
  let endings : Endings := (done.qsort (· < ·)).foldl finish
    ⟨Array.replicate n #[], if done.isEmpty then #[] else Array.replicate n {}, .empty⟩
  -- the states that follow
  let d := { d with after := #[], table := #[] }
  let shiftOne (acc : Draft × Array (Array Look) × Endings) (t : Nat) :=
    let (d, after, e) := acc
    let looks := after.getD t #[]
    if looks.isEmpty then acc else
      let (target, d) := d.intern (Plan.normalize looks)
      let here := e.actions.getD t #[]
      (d, after.setIfInBounds t #[],
        { e with actions := e.actions.setIfInBounds t (here.push (.shift target false))
                 open_ := if here.isEmpty then e.open_ else e.open_.insert t })
  let (d, after, endings) := v.reading.foldl shiftOne (d, after, endings)
  let gotoOne (acc : Draft × Array (Array Look) × Array Nat) (s : Nat) :=
    let (d, after, gotos) := acc
    let (target, d) := d.intern (Plan.normalize (after.getD s #[]))
    (d, after.setIfInBounds s #[], gotos.setIfInBounds (s - n) target)
  let rules := (symbols.filter fun s => !v.isToken s).qsort (· < ·)
  let (d, after, gotos) := rules.foldl gotoOne (d, after, Array.replicate (v.infos.size - n) 0)
  -- what is open is settled or stays open
  let (endings, ambiguities) := if endings.open_.isEmpty then (endings, d.ambiguities) else
    let items := ((touched.qsort (· < ·)).map fun i => (i, table.getD i .empty)).toList
    (endings.open_.toList n).foldl (fun (e, amb) t =>
      let (e, found) := settleConflict p items e t
      match found with
      | some hs => (e, if amb.contains hs then amb else hs :: amb)
      | none => (e, amb)) (endings, d.ambiguities)
  let actions := p.productions.extras.foldl (fun acts t =>
    acts.modify t fun a => if a.isEmpty then #[.pass] else a) endings.actions
  { d with
    states := d.states.push ⟨actions, gotos, d.cores.getD d.states.size 0⟩
    after
    table := touched.foldl (fun table i => table.setIfInBounds i .empty) table
    ambiguities }

/-- Completes states until no kernel is left; `fuel` bounds their number. -/
def run (p : Plan) : Nat → Draft → Draft
  | 0, d => d
  | fuel + 1, d =>
    match d.kernels[d.states.size]? with
    | none => d
    | some kernel => run p fuel (d.advance p kernel)

/-- The most states that an automaton may have while it is built. -/
def stateLimit : Nat := 65536

/-- All states of a plan: state zero is where errors are mended, state one the start. -/
def ofPlan (p : Plan) : Draft :=
  let d : Draft :=
    { kernels := #[], cores := #[], states := #[], ids := {}, coreIds := {}
      table := Array.replicate p.items.size .empty
      after := Array.replicate p.vocabulary.infos.size #[]
      ambiguities := [] }
  let start := p.items.front.getD (p.productions.all.size - 1) 0
  let (_, d) := d.intern #[]
  let (_, d) := d.intern #[⟨start, .single 0⟩]
  d.run p stateLimit

end Draft

end Postmortem.Automaton
