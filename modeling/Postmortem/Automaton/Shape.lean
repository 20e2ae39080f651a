import Postmortem.Grammar.Production

/-!
# Shapes

A shape is what a production says about its parts besides their symbols: the names under which
they appear and the roles in which they stand. Productions of one shape make nodes alike, and the
plain shape says nothing.
-/

namespace Postmortem.Automaton

open Postmortem.Grammar

/-- What a production says about its parts. -/
structure Shape where
  /-- The new name of each part, up to the last part that has one. -/
  renames : List (Option Rename) := []
  /-- The role of each part, up to the last part that has one. -/
  roles : List (Option String) := []
  /-- The places of hidden parts that have roles within, with those roles. -/
  inherited : List (Nat × List String) := []
deriving BEq, Inhabited

namespace Shape

/-- Drops what says nothing from the end of a list. -/
def trim {α : Type} (xs : List (Option α)) : List (Option α) :=
  (xs.reverse.dropWhile Option.isNone).reverse

/-- The shape of a production. -/
def ofProduction (ps : Productions) (p : Production) : Shape :=
  { renames := trim (p.steps.map (·.rename))
    roles := trim (p.steps.map (·.role))
    inherited := p.steps.zipIdx.filterMap fun (s, i) =>
      let info := ps.vocabulary.info s.symbol
      let inner := ps.roles.getD s.symbol []
      if info.visible || info.isGroup || inner.isEmpty then none else some (i, inner) }

/-- The new name of the part at a place. -/
def renameAt (s : Shape) (i : Nat) : Option Rename := (s.renames[i]?).join

/-- The role of the part at a place. -/
def roleAt (s : Shape) (i : Nat) : Option String := (s.roles[i]?).join

/-- The distinct shapes of a grammar, the plain one first, and the number of each production's. -/
def table (ps : Productions) : Array Shape × Array Nat :=
  ps.all.foldl (fun (shapes, numbers) p =>
    let s := ofProduction ps p
    match shapes.findIdx? (· == s) with
    | some i => (shapes, numbers.push i)
    | none => (shapes.push s, numbers.push shapes.size)) (#[{}], #[])

end Shape

end Postmortem.Automaton
