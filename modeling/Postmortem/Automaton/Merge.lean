import Postmortem.Automaton.Tokens

/-!
# Merging states

States that differ only in what may follow their items are merged where that does no harm: where
they do the same on the tokens both act on, and where no token of one can disturb how a token of
the other is read. Then states whose only choice is to give a hidden symbol its one part are
skipped, and states that nothing leads to any more are dropped.

## Order

The groups are split pair by pair in the order of their members, and the states that remain are
ordered by how much they do. Both orders are fixed because which states share a lexer depends on
them.
-/

namespace Postmortem.Automaton

open Postmortem.Grammar

/-- A partition of the states into groups. -/
structure Groups where
  members : Array (Array Nat)
  ofState : Array Nat
deriving Inhabited

/-- Divides a group: a state leaves it that must be apart from an earlier state that stays. -/
def leaving (apart : Nat → Nat → Bool) : Nat → Array Nat → Array Nat
  | 0, _ => #[]
  | fuel + 1, group =>
    match group[0]? with
    | none => #[]
    | some first =>
      let (out, stay) := (group.extract 1 group.size).partition (apart first)
      out ++ leaving apart fuel stay

/-- Divides every group once, new ones included, and tells whether any was divided. -/
def Groups.divide (apart : Array Nat → Nat → Nat → Bool) : Nat → Nat → Groups → Bool → Groups × Bool
  | 0, _, g, changed => (g, changed)
  | fuel + 1, k, g, changed =>
    match g.members[k]? with
    | none => (g, changed)
    | some group =>
      let out := if group.size < 2 then #[] else leaving (apart g.ofState) group.size group
      if out.isEmpty then g.divide apart fuel (k + 1) changed else
        let new := g.members.size
        let stay := group.filter (!out.contains ·)
        Groups.divide apart fuel (k + 1)
          { members := (g.members.setIfInBounds k stay).push out
            ofState := out.foldl (fun a s => a.setIfInBounds s new) g.ofState } true

/-- Divides groups until none is divided any more. -/
def Groups.divideAll (apart : Array Nat → Nat → Nat → Bool) (limit : Nat) : Nat → Groups → Groups
  | 0, g => g
  | fuel + 1, g =>
    match g.divide apart limit 0 false with
    | (g, true) => g.divideAll apart limit fuel
    | (g, false) => g

/-- A state with what is asked of it often. -/
structure Digest where
  tokens : TokenSet
  tokenList : List Nat
  gotoList : List Nat
deriving Inhabited

namespace State

/-- The state that reading a token leads to, if it is read. -/
def shiftTarget? (s : State) (t : Nat) : Option Nat :=
  match (s.actions.getD t #[]).back? with
  | some (.shift target _) => some target
  | _ => none

/-- Renames the states that a state leads to. -/
def redirect (s : State) (f : Nat → Nat) : State :=
  { s with
    actions := s.actions.map fun acts => acts.map fun
      | .shift t r => .shift (f t) r
      | a => a
    gotos := s.gotos.map fun t => if t == 0 then 0 else f t }

/-- The states that a state leads to. -/
def targets (s : State) : List Nat :=
  (s.actions.toList.flatMap fun acts => acts.toList.filterMap fun
    | .shift t _ => some t
    | _ => none) ++ s.gotos.toList.filter (· != 0)

/-- How many symbols a state acts on. -/
def size (s : State) : Nat :=
  s.actions.foldl (fun n acts => if acts.isEmpty then n else n + 1) 0 +
    s.gotos.foldl (fun n t => if t == 0 then n else n + 1) 0

end State

namespace Draft

/-- Whether two lists of actions differ, states counting as equal in one group. -/
def actionsDiffer (groupOf : Array Nat) (a b : Array Action) : Bool :=
  a.size != b.size || (a.zip b).any fun
    | (.shift s r, .shift t q) => groupOf.getD s 0 != groupOf.getD t 0 || r != q
    | (x, y) => x != y

/-- Whether a token may not be added to a state that acts on `present`. -/
def disturbs (v : Vocabulary) (ts : Tokens) (present : TokenSet) (t : Nat) : Bool :=
  if v.isLayoutOnly t || v.layout.contains t then true
  else if t == 0 then false
  else
    let mask := ts.conflicts.getD t .empty
    let mask := if ts.keywords.contains t then mask.diff (.single v.word)
      else if t == v.word then mask.diff ts.keywords else mask
    !(mask.inter present).isEmpty

/-- Whether two states cannot be merged. -/
def statesConflict (v : Vocabulary) (ts : Tokens) (states : Array State) (digests : Array Digest)
    (groupOf : Array Nat) (i j : Nat) : Bool :=
  let a := digests.getD i default
  let b := digests.getD j default
  let sa := states.getD i default
  let sb := states.getD j default
  a.tokenList.any (fun t =>
    if b.tokens.contains t then
      actionsDiffer groupOf (sa.actions.getD t #[]) (sb.actions.getD t #[])
    else disturbs v ts b.tokens t) ||
  b.tokenList.any fun t => !a.tokens.contains t && disturbs v ts a.tokens t

/-- Whether two states lead to different groups on some symbol. -/
def successorsDiffer (states : Array State) (digests : Array Digest) (groupOf : Array Nat)
    (i j : Nat) : Bool :=
  let sa := states.getD i default
  let sb := states.getD j default
  (digests.getD i default).tokenList.any (fun t =>
    match sa.shiftTarget? t, sb.shiftTarget? t with
    | some x, some y => groupOf.getD x 0 != groupOf.getD y 0
    | _, _ => false) ||
  (digests.getD i default).gotoList.any fun s =>
    let x := sa.gotos.getD s 0
    let y := sb.gotos.getD s 0
    y != 0 && groupOf.getD x 0 != groupOf.getD y 0

/-- The groups of states that can be merged. -/
def groups (v : Vocabulary) (ts : Tokens) (states : Array State) : Groups :=
  let digests := states.map fun s =>
    let tokens := Tokens.stateTokens s
    (⟨tokens, tokens.toList v.tokenCount,
      (List.range s.gotos.size).filter fun i => s.gotos.getD i 0 != 0⟩ : Digest)
  let coreCount := states.foldl (fun n s => max n (s.core + 1)) 0
  let start : Groups :=
    { members := states.zipIdx.foldl (fun acc (s, i) => acc.modify s.core (·.push i))
        (Array.replicate coreCount #[])
      ofState := states.map (·.core) }
  let (first, _) := start.divide (statesConflict v ts states digests) (2 * states.size + 1) 0 false
  first.divideAll (successorsDiffer states digests) (2 * states.size + 1) (states.size + 1)

/-- Adds what another state does. -/
def join (a b : State) : State :=
  { a with
    actions := (a.actions.zip b.actions).map fun (x, y) => if y.isEmpty then x else y
    gotos := (a.gotos.zip b.gotos).map fun (x, y) => if y == 0 then x else y }

/-- One state for each group. -/
def merge (states : Array State) (g : Groups) : Array State :=
  g.members.map fun group =>
    let all := group.map fun i => states.getD i default
    (all.foldl (fun acc s =>
      match acc with
      | none => some s
      | some a => some (join a s)) none).getD default |>.redirect fun t => g.ofState.getD t 0

/-- The symbol of which a state only says that its one part is complete. -/
def loneSymbol? (ps : Productions) (s : State) : Option Nat :=
  let v := ps.vocabulary
  let isPlain (head : Nat) : Bool :=
    let info := v.info head
    !info.isGroup && (!info.visible || info.isRun) && !ps.renamed.contains head &&
      !ps.renamedAlways.contains head
  let check (acc : Option (Option Nat)) (a : Action) : Option (Option Nat) :=
    match acc, a with
    | none, _ => none
    | some found, .pass => some found
    | some found, .reduce head 1 0 0 =>
      if isPlain head && (found.isNone || found == some head) then some (some head) else none
    | some _, _ => none
  (s.actions.foldl (fun acc acts => acts.foldl check acc) (some none)).join

/-- Lets each state skip the states that only complete a hidden symbol of one part. -/
def skipLone (ps : Productions) (states : Array State) : Array State :=
  let n := ps.vocabulary.tokenCount
  let lone := states.map (loneSymbol? ps)
  states.map fun s =>
    let target (t : Nat) : Nat :=
      match lone.getD t none with
      | some head => match s.gotos.getD (head - n) 0 with
        | 0 => t
        | u => u
      | none => t
    let settled (t : Nat) : Nat := settle target states.size t
    s.redirect settled

/-- Keeps the states that some state leads to, and the first two. -/
def dropUnused (states : Array State) : Array State :=
  let used := states.foldl (fun (acc : Array Bool) s =>
    s.targets.foldl (fun acc t => acc.setIfInBounds t true) acc)
    (((Array.replicate states.size false).setIfInBounds 0 true).setIfInBounds 1 true)
  let (numbers, _) := used.foldl (fun (acc, n) u => (acc.push n, if u then n + 1 else n)) (#[], 0)
  (states.zipIdx.filter fun (_, i) => used.getD i false).map fun (s, _) =>
    s.redirect fun t => numbers.getD t 0

/-- Orders the states after the first two by how much they do, most first. -/
def order (states : Array State) : Array State :=
  let rest := ((List.range states.size).drop 2).mergeSort fun i j =>
    (states.getD j default).size ≤ (states.getD i default).size
  let old := (0 :: 1 :: rest).toArray
  let new := old.zipIdx.foldl (fun (acc : Array Nat) (o, n) => acc.setIfInBounds o n)
    (Array.replicate states.size 0)
  old.map fun o => (states.getD o default).redirect fun t => new.getD t 0

end Draft

end Postmortem.Automaton
