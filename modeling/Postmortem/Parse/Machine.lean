import Postmortem.Parse.Token

/-!
# Reading a text

All versions of the stack are advanced token by token. On a token a version may end productions,
each way back giving a version of its own, and then read the token. A version that cannot read its
token waits. After every round the versions are sorted, equal ones merged and hopeless ones dropped;
only if the best one waits is its error mended.

## Mending errors

Three ways are tried at once: to suppose a token that is missing, to go back to an earlier state in
which the token can be read, and to skip the token. Their costs decide in the end. At the end of
the text a version with an error is closed as it is.
-/

namespace Postmortem.Parse

open Postmortem.Text Postmortem.Automaton

/-- The most versions that are kept. -/
def versionLimit : Nat := 6
/-- How many more there may be for a moment. -/
def versionOverflow : Nat := 4
/-- How far back earlier states are remembered. -/
def recordLimit : Nat := 16
/-- The cost by which a version may be behind before it is dropped. -/
def costGap : Nat := 18 * skippedTreeCost

/-- The state of a parser. -/
structure Machine (Memory : Type) where
  stack : Stack Memory
  /-- The best tree of the whole text so far. -/
  finished : Option (Subtree Memory) := none
  /-- How often the text was finished. -/
  accepted : Nat := 0
deriving Inhabited

/-- How a version stands. -/
structure Standing where
  cost : Nat
  count : Nat
  weight : Int
  inError : Bool

/-- Which of two versions is better: one of them clearly, or by a little, or none. -/
inductive Verdict where
  | takeLeft
  | preferLeft
  | none
  | preferRight
  | takeRight
deriving BEq

/-- Compares two versions. -/
def Standing.compare (a b : Standing) : Verdict :=
  if !a.inError && b.inError then if a.cost < b.cost then .takeLeft else .preferLeft
  else if a.inError && !b.inError then if b.cost < a.cost then .takeRight else .preferRight
  else if a.cost < b.cost then
    if (b.cost - a.cost) * (1 + a.count) > costGap then .takeLeft else .preferLeft
  else if b.cost < a.cost then
    if (a.cost - b.cost) * (1 + b.count) > costGap then .takeRight else .preferRight
  else if a.weight > b.weight then .preferLeft
  else if b.weight > a.weight then .preferRight
  else .none

namespace Machine

variable {Memory : Type} [BEq Memory]

/-- How version `v` stands. -/
def standing (s : Stack Memory) (v : Nat) : Standing :=
  let paused := s.isPaused v
  { cost := s.cost v + (if paused then skippedTreeCost else 0)
    count := s.countSinceError v
    weight := (s.top v).weight
    inError := paused || s.state v == 0 }

/-! ## Ending productions -/

/-- Makes the parent of one slice, choosing between the ways that left the same version. Gives the
parent and the extras after it. -/
def parentOf (a : Automaton) (here : Mark) (head shape : Nat) (first : List (Subtree Memory))
    (others : List (List (Subtree Memory))) : Subtree Memory × List (Subtree Memory) :=
  let (parts, extras) := Subtree.splitExtras first
  others.foldl (fun (parent, extras) trees =>
    let (parts, extras') := Subtree.splitExtras trees
    if Subtree.prefersRight parent (Subtree.ofParts a here head 0 parts)
    then (Subtree.ofParts a here head shape parts, extras')
    else (parent, extras)) (Subtree.ofParts a here head shape parts, extras)

/-- The slices of one version that stand together at the front, and the rest. -/
def sameVersion (v : Nat) : List (Stack.Slice Memory) →
    List (List (Subtree Memory)) × List (Stack.Slice Memory)
  | [] => ([], [])
  | s :: rest =>
    if s.version == v then
      let (same, others) := sameVersion v rest
      (s.trees :: same, others)
    else ([], s :: rest)

/-- Pushes a new parent for each version that a pop left. `removed` counts the versions that have
been dropped or merged since the pop; `fuel` bounds the number of slices. -/
def pushParents (a : Automaton) (origin head weightShape : Nat) (weight : Int) :
    Nat → List (Stack.Slice Memory) → Nat → Stack Memory → Stack Memory
  | 0, _, _, s => s
  | _ + 1, [], _, s => s
  | fuel + 1, slice :: rest, removed, s =>
    let v := slice.version - removed
    let (same, rest) := sameVersion slice.version rest
    if v > versionLimit + versionOverflow then
      pushParents a origin head weightShape weight fuel rest (removed + 1) (s.remove v)
    else
      let (parent, extras) := parentOf a (s.place v) head weightShape slice.trees same
      let next := a.successor (s.state v) head
      let parent := parent.modify fun x => { x with weight := x.weight + weight }
      let s := s.push a v (some parent) next
      let s := extras.foldl (fun s t => s.push a v (some t) next) s
      let merged := ((List.range v).filter (· != origin)).findSome? fun j => s.merge? a j v
      match merged with
      | some s => pushParents a origin head weightShape weight fuel rest (removed + 1) s
      | none => pushParents a origin head weightShape weight fuel rest removed s

/-- Ends a production of `count` parts in version `v`. Gives the first version that this made, if
one is left. -/
def reduce (a : Automaton) (s : Stack Memory) (v head count shape : Nat) (weight : Int) :
    Stack Memory × Option Nat :=
  let before := s.size
  let (s, slices) := s.pop v count
  let s := pushParents a v head shape weight (slices.size + 1) slices.toList 0 s
  (s, if s.size > before then some before else none)

/-! ## Accepting -/

/-- Replaces the last part that is not extra by its own parts, and takes them all as the parts of
that part's symbol. -/
def rootOf? (a : Automaton) (trees : List (Subtree Memory)) : Option (Subtree Memory) :=
  let (front, extras) := Subtree.splitExtras trees
  front.getLast?.map fun t =>
    Subtree.ofParts a t.summary.lead t.summary.symbol t.summary.shape
      (front.dropLast ++ t.children ++ extras)

/-- Closes version `v` with the end of the text. -/
def accept (a : Automaton) (m : Machine Memory) (v : Nat) (lookahead : Subtree Memory) :
    Machine Memory :=
  let (s, slices) := (m.stack.push a v (some lookahead) 1).popAll v
  let m := slices.foldl (fun (m : Machine Memory) slice =>
    match rootOf? a slice.trees with
    | none => m
    | some root =>
      let better := match m.finished with
        | none => true
        | some old => Subtree.prefersRight old root
      { m with finished := if better then some root else m.finished, accepted := m.accepted + 1 })
    { m with stack := s }
  let stack := match slices[0]? with
    | some slice => m.stack.remove slice.version
    | none => m.stack
  { m with stack := stack.halt v }

/-! ## Mending errors -/

/-- Whether another version is so good that version `v` need not be read on at `cost`. -/
def betterExists (m : Machine Memory) (v : Nat) (inError : Bool) (cost : Nat) : Bool :=
  let done := match m.finished with
    | some t => t.summary.cost ≤ cost
    | none => false
  done ||
    let s := m.stack
    let here := s.place v
    let own : Standing := ⟨cost, s.countSinceError v, (s.top v).weight, inError⟩
    (List.range s.size).any fun i =>
      i != v && s.isActive i && here.byte ≤ (s.place i).byte &&
        match own.compare (standing s i) with
        | .takeRight => true
        | .preferRight => s.canMerge i v
        | _ => false

/-- The productions that can end in a state on the given tokens, those of one head and count once,
and whether some token can be read. -/
def endings (a : Automaton) (state : Nat) (tokens : List Nat) :
    Array (Nat × Nat × Int × Nat) × Bool :=
  tokens.foldl (fun acc t => (a.actionsAt state t).foldl (fun (found, shifts) action =>
    match action with
    | .shift _ repeats => (found, shifts || !repeats)
    | .recover => (found, true)
    | .reduce head count weight shape =>
      if count == 0 || found.any fun r => r.1 == head && r.2.1 == count then (found, shifts)
      else (found.push (head, count, weight, shape), shifts)
    | _ => (found, shifts)) acc) (#[], false)

/-- Ends all productions that can end, in version `v` and in those that this makes. With a
`lookahead` only those count that it allows, and versions that then cannot read it are dropped.
Tells whether some version can read it. -/
def reduceAll (a : Automaton) (first before : Nat) (lookahead : Option Nat) :
    Nat → Nat → Nat → Stack Memory → Bool → Stack Memory × Bool
  | 0, _, _, s, can => (s, can)
  | fuel + 1, round, v, s, can =>
    let count := s.size
    if v ≥ count then (s, can) else
      let merged := ((List.range v).drop before).findSome? fun j => s.merge? a j v
      match merged with
      | some s => reduceAll a first before lookahead fuel (round + 1) v s can
      | none =>
        let tokens := match lookahead with
          | some t => [t]
          | none => (List.range a.vocabulary.tokenCount).drop 1
        let (found, shifts) := endings a (s.state v) tokens
        let (s, made) := found.foldl (fun (s, _) (head, parts, weight, shape) =>
          reduce a s v head parts shape weight) (s, none)
        let next (s : Stack Memory) (can : Bool) :=
          reduceAll a first before lookahead fuel (round + 1)
            (if v == first then count else v + 1) s can
        if shifts then next s true
        else match made with
          | some w =>
            if round < versionLimit then
              reduceAll a first before lookahead fuel (round + 1) v (s.renumber w v) can
            else if lookahead.isSome then next (s.remove v) can else next s can
          | none => if lookahead.isSome then next (s.remove v) can else next s can

/-- Ends all productions that can end in version `v`. -/
def reduceEverything (a : Automaton) (s : Stack Memory) (v : Nat) (lookahead : Option Nat) :
    Stack Memory × Bool :=
  reduceAll a v s.size lookahead (100 * (versionLimit + versionOverflow + s.size)) 0 v s false

/-- Supposes a missing token in version `v`, if after it the token at hand can be read. -/
def suppose? (su : Setup Memory) (s : Stack Memory) (v : Nat) (place : Mark) (lookahead : Nat) :
    Stack Memory × Bool :=
  let a := su.automaton
  let state := s.state v
  let attempt (acc : Stack Memory × Bool) (t : Nat) : Stack Memory × Bool :=
    let (s, done) := acc
    if done then acc else
      let next := a.successor state t
      if next == 0 || next == state || !a.beginsWithReduce next lookahead then acc else
        let (s, w) := s.copy v
        let missing := (leaf su place.index place.index place.index t).modify fun x =>
          { x with missing := true, cost := missingCost + recoveryCost }
        reduceEverything a (s.push a w (some missing) next) w
          (if lookahead == 0 then none else some lookahead)
  ((List.range a.vocabulary.tokenCount).drop 1).foldl attempt (s, false)

/-- Goes back to an earlier state in new versions, and wraps what lies between as a part that could
not be read. Tells whether some version got there. -/
def recoverTo (a : Automaton) (s : Stack Memory) (v depth goal : Nat) : Stack Memory × Bool :=
  let (s, slices) := s.pop v depth
  let settle (acc : Stack Memory × Option Nat) (slice : Stack.Slice Memory) :=
    let (s, previous) := acc
    let w := slice.version
    if previous == some w then acc
    else if s.state w != goal then (s.halt w, previous)
    else
      let (s, errors) := s.popError a w
      let trees := (errors.head?.map (·.children)).getD [] ++ slice.trees
      let (parts, extras) := Subtree.splitExtras trees
      let s := if parts.isEmpty then s else
        let wrapped := (Subtree.ofParts a (s.place w) a.errorSymbol 0 parts).modify fun x =>
          { x with extra := true }
        s.push a w (some wrapped) goal
      (extras.foldl (fun s t => s.push a w (some t) goal) s, some w)
  let (s, reached) := slices.foldl settle (s, none)
  (s, reached.isSome)

/-- Tries the earlier states of a version in turn, until one is reached in which the token can be
read or all that remain are too costly. -/
def recoverEarlier (a : Automaton) (m : Machine Memory) (v : Nat) (lookahead : Subtree Memory)
    (place : Mark) (before cost : Nat) (gained : Bool) : List Earlier → Machine Memory × Bool
  | [] => (m, false)
  | e :: rest =>
    let skip := recoverEarlier a m v lookahead place before cost gained rest
    if e.state == 0 || e.place.byte == place.byte then skip
    else if (List.range before).any fun j =>
        m.stack.state j == e.state && (m.stack.place j).byte == place.byte then skip
    else
      let newCost := cost + e.depth * skippedTreeCost +
        (place.byte - e.place.byte) * skippedByteCost + (place.row - e.place.row) * skippedLineCost
      if betterExists m v false newCost then (m, false)
      else if (a.actionsAt e.state lookahead.summary.symbol).isEmpty then skip
      else
        match recoverTo a m.stack v (if gained then e.depth + 1 else e.depth) e.state with
        | (s, true) => ({ m with stack := s }, true)
        | (s, false) => recoverEarlier a { m with stack := s } v lookahead place before cost gained
            rest

/-- Drops the versions from `i` on that are not active. -/
def dropInactive : Nat → Nat → Stack Memory → Stack Memory
  | 0, _, s => s
  | fuel + 1, i, s =>
    if i ≥ s.size then s
    else if s.isActive i then dropInactive fuel (i + 1) s
    else dropInactive fuel i (s.remove i)

/-- Skips the token at hand in version `v`. -/
def skipToken (a : Automaton) (s : Stack Memory) (v : Nat) (lookahead : Subtree Memory)
    (gained : Bool) : Stack Memory :=
  let passes := match (a.actionsAt 1 lookahead.summary.symbol).back? with
    | some .pass => true
    | _ => false
  let token := if passes then lookahead.modify fun x => { x with extra := true } else lookahead
  let run := Subtree.ofParts a (s.place v) a.errorRun 0 [token]
  let (s, run) := if !gained then (s, run) else
    let (s, slices) := s.pop v 1
    match slices[0]? with
    | none => (s, run)
    | some slice =>
      let s := { s with heads := s.heads.extract 0 (slice.version + 1) }
      (s.renumber slice.version v,
        Subtree.ofParts a (s.place v) a.errorRun 0 (slice.trees ++ [run]))
  let s := s.push a v (some run) 0
  match lookahead.summary.memory with
  | some memory => s.modifyHead v fun h => { h with memory := some memory }
  | none => s

/-- Mends an error in version `v`, which is in the error state, at a token. -/
def recover (a : Automaton) (m : Machine Memory) (v : Nat) (lookahead : Subtree Memory) :
    Machine Memory :=
  let before := m.stack.size
  let place := m.stack.place v
  let m := { m with stack := m.stack.clampCounts }
  let gained := m.stack.countSinceError v > 0
  let cost := m.stack.cost v
  let earlier := if lookahead.isError a then [] else
    ((m.stack.head v).earlier.getD #[]).toList
  let (m, recovered) := recoverEarlier a m v lookahead place before cost gained earlier
  let m := { m with stack := dropInactive (m.stack.size + 1) before m.stack }
  if lookahead.summary.symbol == 0 then
    let nothing := Subtree.ofParts a place a.errorSymbol 0 []
    accept a { m with stack := m.stack.push a v (some nothing) 1 } v lookahead
  else if recovered && m.stack.size > versionLimit then { m with stack := m.stack.halt v }
  else if recovered && lookahead.summary.memoryChanged then { m with stack := m.stack.halt v }
  else
    let newCost := cost + skippedTreeCost + lookahead.totalBytes * skippedByteCost +
      lookahead.totalRows * skippedLineCost
    if betterExists m v false newCost then { m with stack := m.stack.halt v }
    else { m with stack := skipToken a m.stack v lookahead gained }

/-- Begins to mend an error in version `v` at a token that cannot be read. -/
def handleError (su : Setup Memory) (m : Machine Memory) (v : Nat) (lookahead : Subtree Memory) :
    Machine Memory :=
  let a := su.automaton
  let before := m.stack.size
  let token := lookahead.summary.symbol
  let (s, _) := reduceEverything a m.stack v none
  let after := s.size
  let place := s.place v
  let versions := v :: (List.range after).drop before
  let (s, _) := versions.foldl (fun (s, supposed) w =>
    let (s, supposed) := if supposed then (s, supposed) else suppose? su s w place token
    (s.push a w none 0, supposed)) (s, false)
  let s := (List.range (after - before)).foldl (fun s _ => (s.merge? a v before).getD s) s
  recover a { m with stack := s.record v recordLimit } v lookahead

/-! ## Reading on -/

/-- What became of the actions on a token. -/
inductive Acted (Memory : Type) where
  /-- The token has been dealt with. -/
  | done (m : Machine Memory)
  /-- Productions were ended; the token is still there. Gives the last version that this made. -/
  | reduced (s : Stack Memory) (last : Option Nat)

/-- Carries out actions on a token, in order. -/
def act (a : Automaton) (m : Machine Memory) (v state : Nat) (lookahead : Subtree Memory) :
    List Action → Option Nat → Acted Memory
  | [], last => .reduced m.stack last
  | action :: rest, last =>
    let shift (next : Nat) (extra : Bool) : Acted Memory :=
      let token := lookahead.modify fun x => { x with extra }
      let s := m.stack.push a v (some token) next
      .done { m with stack := match lookahead.summary.memory with
        | some memory => s.modifyHead v fun h => { h with memory := some memory }
        | none => s }
    match action with
    | .shift next repeats => if repeats then act a m v state lookahead rest last else shift next false
    | .pass => shift state true
    | .reduce head count weight shape =>
      let (s, made) := reduce a m.stack v head count shape weight
      act a { m with stack := s } v state lookahead rest (made.or last)
    | .accept => .done (accept a m v lookahead)
    | .recover => .done (recover a m v lookahead)

/-- Advances version `v` over the token at hand; `fuel` bounds the number of productions that are
ended before. -/
def advanceOver (a : Automaton) (v : Nat) : Nat → Machine Memory → Subtree Memory → Machine Memory
  | 0, m, _ => { m with stack := m.stack.halt v }
  | fuel + 1, m, lookahead =>
    let state := m.stack.state v
    let actions := (a.actionsAt state lookahead.summary.symbol).toList
    match act a m v state lookahead actions none with
    | .done m => m
    | .reduced s (some last) =>
      advanceOver a v fuel { m with stack := s.renumber last v } lookahead
    | .reduced s none =>
      let m := { m with stack := s }
      let word := a.vocabulary.word
      if lookahead.summary.keyword && !(a.actionsAt state word).isEmpty then
        advanceOver a v fuel m (lookahead.modify fun x =>
          { x with symbol := word, keyword := false, visible := Subtree.shows a word })
      else if state == 0 then recover a m v lookahead
      else { m with stack := m.stack.pause v lookahead }

/-- Advances version `v` by one token. -/
def advance (su : Setup Memory) (m : Machine Memory) (v : Nat) : Machine Memory :=
  let s := m.stack
  let token := nextToken su (s.state v) (s.head v).memory (s.hasAdvanced v) (s.place v).index
  advanceOver su.automaton v (16 * (s.nodes.size + 64)) m token

/-! ## Sorting the versions -/

/-- Compares version `i` with the versions before it, from `j` on, whose standing was taken before.
Gives the stack and the number of versions that have been looked at. -/
def sortOne (a : Automaton) (own : Standing) : Nat → Nat → Nat → Stack Memory → Stack Memory × Nat
  | 0, i, _, s => (s, i + 1)
  | fuel + 1, i, j, s =>
    if j ≥ i then (s, i + 1) else
      let s := s.clampCount j
      match (standing s j).compare own with
      | .takeLeft => (s.remove i, i)
      | .preferLeft | .none =>
        match s.merge? a j i with
        | some s => (s, i)
        | none => sortOne a own fuel i (j + 1) s
      | .preferRight =>
        match s.merge? a j i with
        | some s => (s, i)
        | none =>
          sortOne a own fuel i (j + 1) { s with heads := s.heads.swapIfInBounds i j }
      | .takeRight => sortOne a own fuel (i - 1) j (s.remove j)

/-- Sorts the versions from `i` on, drops those that are given up, and finds the least cost of a
version without an error at hand. -/
def sortAll (a : Automaton) : Nat → Nat → Stack Memory → Option Nat → Stack Memory × Option Nat
  | 0, _, s, least => (s, least)
  | fuel + 1, i, s, least =>
    if i ≥ s.size then (s, least)
    else if s.isHalted i then sortAll a fuel i (s.remove i) least
    else
      let s := s.clampCount i
      let own := standing s i
      let least := if own.inError then least else
        some (match least with
          | none => own.cost
          | some c => min c own.cost)
      let (s, next) := sortOne a own (s.size + 1) i 0 s
      sortAll a fuel next s least

/-- Mends the error of the best version if it waits, and drops all other versions that wait. -/
def resume (su : Setup Memory) : Nat → Nat → Machine Memory → Bool → Option Nat →
    Machine Memory × Option Nat
  | 0, _, m, _, least => (m, least)
  | n + 1, i, m, unpaused, least =>
    match (m.stack.head i).status with
    | .paused lookahead =>
      if !unpaused && m.accepted < versionLimit then
        let least := m.stack.cost i
        let s := m.stack.modifyHead i fun h => { h with status := .active }
        resume su n (i + 1) (handleError su { m with stack := s } i lookahead) true (some least)
      else resume su n i { m with stack := m.stack.remove i } unpaused least
    | _ => resume su n (i + 1) m true least

/-- Sorts the versions, keeps the best ones, and mends the error of the best one if it waits. Also
gives the least cost of a version without an error at hand. -/
def condense (su : Setup Memory) (m : Machine Memory) : Machine Memory × Option Nat :=
  let (s, least) := sortAll su.automaton (4 * (m.stack.size + 1) * (m.stack.size + 1)) 0 m.stack none
  let s := { s with heads := s.heads.extract 0 versionLimit }
  resume su s.size 0 { m with stack := s } false least

/-! ## The whole text -/

/-- Advances version `v` until it has read more text than any version before. -/
def advanceFar (su : Setup Memory) (v reached : Nat) : Nat → Machine Memory → Machine Memory × Nat
  | 0, m => (m, reached)
  | fuel + 1, m =>
    if !m.stack.isActive v then (m, reached) else
      let m := advance su m v
      let place := (m.stack.place v).byte
      if place > reached || (v > 0 && place == reached) then (m, place)
      else advanceFar su v reached fuel m

/-- Advances every version. -/
def advanceAll (su : Setup Memory) (limit : Nat) : Nat → Nat → Machine Memory → Nat →
    Machine Memory × Nat
  | 0, _, m, reached => (m, reached)
  | fuel + 1, v, m, reached =>
    if v ≥ m.stack.size then (m, reached) else
      let (m, reached) := advanceFar su v reached limit m
      advanceAll su limit fuel (v + 1) m reached

/-- Reads on until the text is finished; `fuel` bounds the number of rounds. -/
def run (su : Setup Memory) (limit : Nat) : Nat → Machine Memory → Nat → Machine Memory
  | 0, m, _ => m
  | fuel + 1, m, reached =>
    let (m, reached) := advanceAll su limit 1000 0 m reached
    let (m, least) := condense su m
    let settled := match m.finished, least with
      | some t, some c => t.summary.cost < c
      | some _, none => true
      | none, _ => false
    if settled || m.stack.size == 0 then m else run su limit fuel m reached

end Machine

/-- The tree of a text. -/
def parse {Memory : Type} [BEq Memory] (automaton : Automaton) (layout : LayoutReader Memory)
    (source : Source) : Option (Subtree Memory) :=
  let su : Setup Memory := ⟨automaton, layout, source⟩
  let limit := 64 * (source.size + 64)
  (Machine.run su limit limit { stack := .start 1 } 0).finished

end Postmortem.Parse
