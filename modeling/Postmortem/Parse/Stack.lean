import Postmortem.Parse.Subtree

/-!
# Stacks of many versions

While a text allows several readings, the parser keeps one version of its stack for each. Versions
share what they have in common: a stack is a graph of nodes, each linked to the nodes before it by
the subtree between them, and a version is a *head*, a node with what is particular to that reading.
Versions that reach the same state at the same place merge into one head with several links.

Nodes are kept in one array and are never removed; a link is a position in it.
-/

namespace Postmortem.Parse

open Postmortem.Text

variable {Memory : Type}

/-- The way from a node to one before it. No subtree marks the place of an error. -/
structure Link (Memory : Type) where
  node : Nat
  tree : Option (Subtree Memory)
deriving Inhabited

/-- One node of the stack. -/
structure StackNode (Memory : Type) where
  state : Nat
  links : Array (Link Memory)
  place : Mark
  /-- The cost of all subtrees below. -/
  cost : Nat
  /-- The weight of all subtrees below. -/
  weight : Int
  /-- The number of nodes of all subtrees below. -/
  count : Nat
deriving Inhabited

/-- Whether a version is being read on. -/
inductive Status (Memory : Type) where
  | active
  /-- It waits at a token that it cannot read. -/
  | paused (lookahead : Subtree Memory)
  /-- It is given up. -/
  | halted
deriving Inhabited

/-- A state that a version was in before an error. -/
structure Earlier where
  place : Mark
  depth : Nat
  state : Nat
deriving Inhabited

/-- One version of the stack. -/
structure Head (Memory : Type) where
  node : Nat
  /-- The number of nodes at the last error. -/
  countAtError : Nat := 0
  /-- What the layout reader remembers. -/
  memory : Option Memory := none
  status : Status Memory := .active
  /-- The states before the last error, nearest first. -/
  earlier : Option (Array Earlier) := none
deriving Inhabited

/-- All versions. -/
structure Stack (Memory : Type) where
  nodes : Array (StackNode Memory)
  heads : Array (Head Memory)
deriving Inhabited

/-- The most links of a node. -/
def linkLimit : Nat := 8
/-- The most ways that are followed back at once. -/
def wayLimit : Nat := 64

namespace Stack

/-- A stack of one version in state `state`. -/
def start (state : Nat) : Stack Memory :=
  ⟨#[⟨state, #[], .zero, 0, 0, 0⟩], #[{ node := 0 }]⟩

/-- The number of versions. -/
def size (s : Stack Memory) : Nat := s.heads.size

/-- The head of a version. -/
def head (s : Stack Memory) (v : Nat) : Head Memory := s.heads.getD v default

/-- A node. -/
def node (s : Stack Memory) (i : Nat) : StackNode Memory := s.nodes.getD i default

/-- Replaces a node. -/
def setNode (s : Stack Memory) (i : Nat) (n : StackNode Memory) : Stack Memory :=
  { s with nodes := s.nodes.setIfInBounds i n }

/-- The topmost node of a version. -/
def top (s : Stack Memory) (v : Nat) : StackNode Memory := s.node (s.head v).node

/-- The state of a version. -/
def state (s : Stack Memory) (v : Nat) : Nat := (s.top v).state

/-- The place that a version has reached. -/
def place (s : Stack Memory) (v : Nat) : Mark := (s.top v).place

/-- Whether a version is being read on. -/
def isActive (s : Stack Memory) (v : Nat) : Bool :=
  match (s.head v).status with
  | .active => true
  | _ => false

/-- Whether a version waits. -/
def isPaused (s : Stack Memory) (v : Nat) : Bool :=
  match (s.head v).status with
  | .paused _ => true
  | _ => false

/-- Whether a version is given up. -/
def isHalted (s : Stack Memory) (v : Nat) : Bool :=
  match (s.head v).status with
  | .halted => true
  | _ => false

/-- Changes the head of a version. -/
def modifyHead (s : Stack Memory) (v : Nat) (f : Head Memory → Head Memory) : Stack Memory :=
  { s with heads := s.heads.modify v f }

/-- Gives a version up. -/
def halt (s : Stack Memory) (v : Nat) : Stack Memory :=
  s.modifyHead v fun h => { h with status := .halted }

/-- Lets a version wait at a token. -/
def pause (s : Stack Memory) (v : Nat) (lookahead : Subtree Memory) : Stack Memory :=
  let count := (s.top v).count
  s.modifyHead v fun h => { h with status := .paused lookahead, countAtError := count }

/-- Forgets a version. Later versions move up. -/
def remove (s : Stack Memory) (v : Nat) : Stack Memory :=
  { s with heads := s.heads.eraseIdxIfInBounds v }

/-- Puts version `source` in the place of version `target`. -/
def renumber (s : Stack Memory) (source target : Nat) : Stack Memory :=
  if source == target then s else
    let from_ := s.head source
    let to_ := s.head target
    let moved := if to_.earlier.isSome && from_.earlier.isNone
      then { from_ with earlier := to_.earlier } else from_
    { s with heads := (s.heads.setIfInBounds target moved).eraseIdxIfInBounds source }

/-- Adds a second version like `v`. -/
def copy (s : Stack Memory) (v : Nat) : Stack Memory × Nat :=
  ({ s with heads := s.heads.push { s.head v with earlier := none } }, s.size)

/-- Pushes a subtree, or the mark of an error, onto a version. -/
def push (a : Automaton) (s : Stack Memory) (v : Nat) (tree : Option (Subtree Memory))
    (state : Nat) : Stack Memory :=
  let below := (s.head v).node
  let n := s.node below
  let new : StackNode Memory := match tree with
    | none => { n with state, links := #[⟨below, none⟩] }
    | some t =>
      { state
        links := #[⟨below, tree⟩]
        place := t.summary.stop
        cost := n.cost + t.summary.cost
        weight := n.weight + t.summary.weight
        count := n.count + t.weightInStack a }
  let i := s.nodes.size
  { nodes := s.nodes.push new
    heads := s.heads.modify v fun h =>
      { h with node := i, countAtError := if tree.isNone then new.count else h.countAtError } }

/-- What a version costs. -/
def cost (s : Stack Memory) (v : Nat) : Nat :=
  let n := s.top v
  let atError := n.state == 0 && ((n.links[0]?).map (·.tree.isNone)).getD false
  n.cost + (if s.isPaused v || atError then recoveryCost else 0)

/-- Keeps a version's count at the last error from exceeding its count. -/
def clampCount (s : Stack Memory) (v : Nat) : Stack Memory :=
  let count := (s.top v).count
  s.modifyHead v fun h => { h with countAtError := min h.countAtError count }

/-- Keeps the counts at the last error of all active versions from exceeding their counts. -/
def clampCounts (s : Stack Memory) : Stack Memory :=
  (List.range s.size).foldl (fun s v => if s.isActive v then s.clampCount v else s) s

/-- The number of nodes that a version has gained since the last error. -/
def countSinceError (s : Stack Memory) (v : Nat) : Nat :=
  (s.top v).count - (s.head v).countAtError

/-- Whether a version has read any text since the last error. -/
def hasAdvanced (s : Stack Memory) (v : Nat) : Bool :=
  if (s.top v).cost == 0 then true else go (s.nodes.size + 1) (s.head v).node
where
  /-- Looks at the subtree on top and at those below while they are empty. -/
  go : Nat → Nat → Bool
    | 0, _ => false
    | fuel + 1, i =>
      match (s.node i).links[0]? with
      | none => false
      | some l =>
        match l.tree with
        | none => false
        | some t =>
          if t.totalBytes > 0 then true
          else if (s.node i).count > (s.head v).countAtError && t.summary.cost == 0
          then go fuel l.node
          else false

/-- Whether two ways on hold the same: trees of one symbol that both have errors, or that agree in
place, extent and number of parts. -/
def similar [BEq Memory] : Option (Subtree Memory) → Option (Subtree Memory) → Bool
  | none, none => true
  | some x, some y =>
    let a := x.summary
    let b := y.summary
    a.symbol == b.symbol && (a.cost > 0 && b.cost > 0 ||
      a.start.byte - a.lead.byte == b.start.byte - b.lead.byte &&
      a.stop.byte - a.start.byte == b.stop.byte - b.start.byte &&
      x.size == y.size && a.extra == b.extra &&
      (if x.children.isEmpty then a.memory else none) ==
        (if y.children.isEmpty then b.memory else none))
  | _, _ => false

/-- What joining a link to a node asks for, if a link that is there already serves. -/
inductive Joining where
  /-- The link at this position leads to the same node. -/
  | same (position : Nat)
  /-- The link at this position leads to a node like it. -/
  | like (position : Nat)
  /-- No link serves. -/
  | new

/-- Looks for a link of node `i` that serves for `l`. -/
def joining [BEq Memory] (s : Stack Memory) (i : Nat) (l : Link Memory) : Joining :=
  let n := s.node i
  let target := s.node l.node
  let serves (old : Link Memory) : Bool :=
    similar old.tree l.tree && (old.node == l.node ||
      (let o := s.node old.node
       o.state == target.state && o.place.byte == target.place.byte && o.cost == target.cost))
  match n.links.findIdx? serves with
  | none => .new
  | some k => if (n.links.getD k default).node == l.node then .same k else .like k

/-- Adds a way back to node `i`. `fuel` bounds how far likeness is followed back. -/
def addLink [BEq Memory] (a : Automaton) : Nat → Stack Memory → Nat → Link Memory → Stack Memory
  | 0, s, _, _ => s
  | fuel + 1, s, i, l =>
    if l.node == i then s else
      let target := s.node l.node
      let weight := target.weight + ((l.tree.map (·.summary.weight)).getD 0)
      let n := s.node i
      match s.joining i l with
      | .same k =>
        let old := (((n.links.getD k default).tree.map (·.summary.weight)).getD 0)
        if ((l.tree.map (·.summary.weight)).getD 0) > old then
          s.setNode i { n with links := n.links.setIfInBounds k l, weight }
        else s
      | .like k =>
        let other := (n.links.getD k default).node
        let s := target.links.foldl (fun s l' => addLink a fuel s other l') s
        { s with nodes := s.nodes.modify i fun n => { n with weight := max n.weight weight } }
      | .new =>
        if n.links.size ≥ linkLimit then s else
          let count := target.count + ((l.tree.map (·.weightInStack a)).getD 0)
          s.setNode i { n with
            links := n.links.push l
            count := max n.count count
            weight := max n.weight weight }

/-- Whether two versions can merge. -/
def canMerge [BEq Memory] (s : Stack Memory) (v w : Nat) : Bool :=
  let a := s.top v
  let b := s.top w
  s.isActive v && s.isActive w && a.state == b.state && a.place.byte == b.place.byte &&
    a.cost == b.cost && (s.head v).memory == (s.head w).memory

/-- Merges version `w` into version `v` if they can merge. -/
def merge? [BEq Memory] (a : Automaton) (s : Stack Memory) (v w : Nat) : Option (Stack Memory) :=
  if v == w || !s.canMerge v w then none else
    let i := (s.head v).node
    let merged := (s.top w).links.foldl (fun s l => addLink a (s.nodes.size + 1) s i l) s
    let merged := if (merged.node i).state == 0 then
        merged.modifyHead v fun h => { h with countAtError := (merged.node i).count }
      else merged
    some (merged.remove w)

/-! ## Ways back -/

/-- A way back from the head of a version. -/
structure Way (Memory : Type) where
  node : Nat
  /-- The subtrees passed, lowest first. -/
  trees : List (Subtree Memory)
  /-- The number of subtrees passed that are parts of productions. -/
  depth : Nat
deriving Inhabited

/-- The subtrees popped along one way, with the version that was left. -/
structure Slice (Memory : Type) where
  trees : List (Subtree Memory)
  version : Nat
deriving Inhabited

/-- What to do at a node on the way back. -/
structure Visit where
  /-- Pop what was passed. -/
  pop : Bool
  /-- Go no further. -/
  stop : Bool

/-- A walk back over all ways at once. -/
structure Walk (Memory σ : Type) where
  stack : Stack Memory
  slices : Array (Slice Memory)
  /-- The ways that go on, in order. -/
  going : Array (Way Memory)
  /-- The ways that branched off in this round. -/
  branched : Array (Way Memory)
  data : σ

/-- Adds a slice: beside those that left the same node, else with a version of its own. -/
def addSlice (s : Stack Memory) (slices : Array (Slice Memory)) (origin node : Nat)
    (trees : List (Subtree Memory)) : Stack Memory × Array (Slice Memory) :=
  let found := (List.range slices.size).reverse.find? fun i =>
    (s.head (slices.getD i default).version).node == node
  match found with
  | some i =>
    let v := (slices.getD i default).version
    (s, slices.extract 0 (i + 1) ++ #[⟨trees, v⟩] ++ slices.extract (i + 1) slices.size)
  | none =>
    let h := s.head origin
    let new : Head Memory := { node, countAtError := h.countAtError, memory := h.memory }
    ({ s with heads := s.heads.push new }, slices.push ⟨trees, s.size⟩)

/-- Follows one link. -/
def Way.follow (w : Way Memory) (l : Link Memory) : Way Memory :=
  match l.tree with
  | none => { w with node := l.node, depth := w.depth + 1 }
  | some t =>
    { node := l.node
      trees := t :: w.trees
      depth := if t.summary.extra then w.depth else w.depth + 1 }

/-- One step of one way. `waiting` is the number of ways of this round that come after. -/
def Walk.step {σ : Type} (origin : Nat) (visit : σ → StackNode Memory → Way Memory → Visit × σ)
    (acc : Walk Memory σ × Nat) (w : Way Memory) : Walk Memory σ × Nat :=
  let (walk, waiting) := acc
  let waiting := waiting - 1
  let n := walk.stack.node w.node
  let (answer, data) := visit walk.data n w
  let walk := { walk with data }
  let stop := answer.stop || n.links.isEmpty
  let walk := if answer.pop then
      let (stack, slices) := addSlice walk.stack walk.slices origin w.node w.trees
      { walk with stack, slices }
    else walk
  if stop then (walk, waiting) else
    let branch (walk : Walk Memory σ) (l : Link Memory) : Walk Memory σ :=
      if walk.going.size + 1 + waiting + walk.branched.size ≥ wayLimit then walk
      else { walk with branched := walk.branched.push (w.follow l) }
    let walk := (n.links.extract 1 n.links.size).foldl branch walk
    ({ walk with going := walk.going.push (w.follow (n.links.getD 0 default)) }, waiting)

/-- Walks back until no way goes on; `fuel` bounds the number of rounds. -/
def Walk.run {σ : Type} (origin : Nat) (visit : σ → StackNode Memory → Way Memory → Visit × σ) :
    Nat → Walk Memory σ → Walk Memory σ
  | 0, w => w
  | fuel + 1, w =>
    if w.going.isEmpty then w else
      let (w', _) := w.going.foldl (Walk.step origin visit)
        ({ w with going := #[], branched := #[] }, w.going.size)
      Walk.run origin visit fuel { w' with going := w'.going ++ w'.branched, branched := #[] }

/-- Walks back from a version. -/
def walk {σ : Type} (s : Stack Memory) (v : Nat)
    (visit : σ → StackNode Memory → Way Memory → Visit × σ) (data : σ) : Walk Memory σ :=
  Walk.run v visit (s.nodes.size + 1)
    { stack := s, slices := #[], going := #[⟨(s.head v).node, [], 0⟩], branched := #[], data }

/-- Pops `count` parts off a version, along every way. The rests are new versions. -/
def pop (s : Stack Memory) (v count : Nat) : Stack Memory × Array (Slice Memory) :=
  let w := s.walk v (fun _ _ way => (⟨way.depth == count, way.depth == count⟩, ())) ()
  (w.stack, w.slices)

/-- Pops everything off a version, along every way. -/
def popAll (s : Stack Memory) (v : Nat) : Stack Memory × Array (Slice Memory) :=
  let w := s.walk v (fun _ n _ => (⟨n.links.isEmpty, false⟩, ())) ()
  (w.stack, w.slices)

/-- Pops a part that could not be read off the top of a version, if there is one. -/
def popError (a : Automaton) (s : Stack Memory) (v : Nat) :
    Stack Memory × List (Subtree Memory) :=
  let isError (t : Subtree Memory) := t.isError a
  if (s.top v).links.any fun l => (l.tree.map isError).getD false then
    let w := s.walk v (fun found _ way =>
      match way.trees with
      | [] => (⟨false, false⟩, found)
      | t :: _ => if !found && isError t then (⟨true, true⟩, true) else (⟨false, true⟩, found))
      false
    match w.slices[0]? with
    | some slice => (w.stack.renumber slice.version v, slice.trees)
    | none => (s, [])
  else (s, [])

/-- The states before, to a depth of `limit`, each depth and state once. -/
def record (s : Stack Memory) (v limit : Nat) : Stack Memory :=
  let w := s.walk v (fun (found : Array Earlier) n way =>
    if way.depth > limit then (⟨false, true⟩, found)
    else if found.any fun e => e.depth == way.depth && e.state == n.state then
      (⟨false, false⟩, found)
    else (⟨false, false⟩, found.push ⟨n.place, way.depth, n.state⟩)) #[]
  s.modifyHead v fun h => { h with earlier := some w.data }

end Stack

end Postmortem.Parse
