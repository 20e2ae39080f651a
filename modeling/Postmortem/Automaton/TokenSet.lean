/-!
# Sets of tokens

Tokens are small numbers, so a set of them is a number whose bits are the members.
-/

namespace Postmortem.Automaton

/-- A set of tokens, as the bits of a number. -/
structure TokenSet where
  bits : Nat
deriving BEq, DecidableEq, Inhabited

namespace TokenSet

/-- The set without members. -/
def empty : TokenSet := ⟨0⟩

/-- The set of one token. -/
def single (t : Nat) : TokenSet := ⟨1 <<< t⟩

/-- The members of either set. -/
def union (a b : TokenSet) : TokenSet := ⟨a.bits ||| b.bits⟩

/-- The members of both sets. -/
def inter (a b : TokenSet) : TokenSet := ⟨a.bits &&& b.bits⟩

/-- The set with one more member. -/
def insert (s : TokenSet) (t : Nat) : TokenSet := s.union (single t)

/-- Whether a token is a member. -/
def contains (s : TokenSet) (t : Nat) : Bool := s.bits.testBit t

/-- Whether the set has no members. -/
def isEmpty (s : TokenSet) : Bool := s.bits == 0

/-- The set of the tokens in a list. -/
def ofList (ts : List Nat) : TokenSet := ts.foldl insert empty

/-- The members below `n`, ascending. -/
def toList (s : TokenSet) (n : Nat) : List Nat := (List.range n).filter s.contains

/-- The members of `a` that are no members of `b`. -/
def diff (a b : TokenSet) : TokenSet := ⟨a.bits ^^^ (a.bits &&& b.bits)⟩

instance : Hashable TokenSet :=
  ⟨fun s => mixHash (hash s.bits) (hash (s.bits >>> 64))⟩

end TokenSet

end Postmortem.Automaton
