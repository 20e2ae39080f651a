import Postmortem.Collections.Ascending
import Postmortem.Syntax.Tree

/-!
# The names that a line reads

Which names and dotted paths a line of Python reads before it runs, found by walking its tree along
*read edges*. Names that the line only binds are not read: targets of plain assignments, parameters,
names of arguments, functions and classes.

## Dotted paths

An attribute of an attribute of a name is one path, and its parts are not read on their own. An
attribute of anything else reads what that reads.
-/

namespace Postmortem.Line

open SyntaxTree

/-- A child in a role is smaller than its tree. -/
theorem sizeOf_childIn?_lt {t c : SyntaxTree} {role : String} (h : t.childIn? role = some c) :
    sizeOf c < sizeOf t := by
  obtain ⟨l, cs⟩ := t
  have : c ∈ cs := List.mem_of_find?_eq_some h
  have := List.sizeOf_lt_of_mem this
  simp only [SyntaxTree.node.sizeOf_spec]
  omega

/-- The segments of a chain of attributes, from the name at its base outwards; none if there is no
name at its base. -/
def dottedPath? (t : SyntaxTree) : Option (List String) :=
  if t.kind == "identifier" then some [t.text]
  else if t.kind == "attribute" then
    match t.childIn? "attribute", _h : t.childIn? "object" with
    | some a, some o => (dottedPath? o).map (· ++ [a.text])
    | _, _ => none
  else none
termination_by t
decreasing_by exact sizeOf_childIn?_lt _h

/-- The kinds of statements whose names are bindings. -/
def bindingKinds : List String :=
  ["import_statement", "import_from_statement", "future_import_statement", "global_statement",
    "nonlocal_statement"]

/-- The children in some roles, in the order of the roles. -/
def childrenIn (t : SyntaxTree) (roles : List String) : List SyntaxTree :=
  roles.filterMap t.childIn?

/-- What a parameter reads: its default and its annotation. -/
def parameterReads (p : SyntaxTree) : List SyntaxTree :=
  match p.kind with
  | "default_parameter" => childrenIn p ["value"]
  | "typed_default_parameter" => childrenIn p ["type", "value"]
  | "typed_parameter" => childrenIn p ["type"]
  | _ => []

/-- The trees to which read edges lead from a tree. -/
def readEdges (t : SyntaxTree) : List SyntaxTree :=
  match t.kind with
  | "identifier" => []
  | "assignment" =>
    -- `x: int = y` reads its target and its annotation too
    if (t.childIn? "type").isSome then t.namedChildren else childrenIn t ["right"]
  | "attribute" => if (dottedPath? t).isSome then [] else childrenIn t ["object"]
  | "call" => childrenIn t ["function", "arguments"]
  | "keyword_argument" => childrenIn t ["value"]
  | "function_definition" => childrenIn t ["parameters", "return_type", "body"]
  | "class_definition" => childrenIn t ["superclasses", "body"]
  | "lambda" => childrenIn t ["parameters", "body"]
  | "parameters" | "lambda_parameters" => t.namedChildren.flatMap parameterReads
  | kind => if bindingKinds.contains kind then [] else t.namedChildren

/-- The name or path that a tree is itself, if it is one. -/
def ownName? (t : SyntaxTree) : Option String :=
  if t.kind == "identifier" || t.kind == "attribute" then
    (dottedPath? t).map (".".intercalate ·)
  else none

theorem sizeOf_namedChild_lt {t c : SyntaxTree} (h : c ∈ t.namedChildren) :
    sizeOf c < sizeOf t := by
  obtain ⟨l, cs⟩ := t
  have : c ∈ cs := (List.mem_filter.mp h).1
  have := List.sizeOf_lt_of_mem this
  simp only [SyntaxTree.node.sizeOf_spec]
  omega

theorem sizeOf_childrenIn_lt {t c : SyntaxTree} {roles : List String}
    (h : c ∈ childrenIn t roles) : sizeOf c < sizeOf t := by
  obtain ⟨role, _, h⟩ := List.mem_filterMap.mp h
  exact sizeOf_childIn?_lt h

theorem sizeOf_parameterReads_lt {p c : SyntaxTree} (h : c ∈ parameterReads p) :
    sizeOf c < sizeOf p := by
  unfold parameterReads at h
  split at h <;> first | exact sizeOf_childrenIn_lt h | simp at h

/-- Read edges lead to smaller trees. -/
theorem sizeOf_readEdges_lt {t c : SyntaxTree} (h : c ∈ readEdges t) : sizeOf c < sizeOf t := by
  have params (h : c ∈ t.namedChildren.flatMap parameterReads) : sizeOf c < sizeOf t := by
    obtain ⟨p, hp, hc⟩ := List.mem_flatMap.mp h
    exact Nat.lt_trans (sizeOf_parameterReads_lt hc) (sizeOf_namedChild_lt hp)
  unfold readEdges at h
  split at h <;> (try split at h) <;>
    first
    | exact sizeOf_childrenIn_lt h
    | exact sizeOf_namedChild_lt h
    | exact params h
    | simp at h

/-- The names and paths that a tree reads, in the order of the walk, repetitions included. -/
def allReads (t : SyntaxTree) : List String :=
  (ownName? t).toList ++ (readEdges t).attach.flatMap fun ⟨c, _⟩ => allReads c
termination_by t
decreasing_by exact sizeOf_readEdges_lt ‹_›

/-- The names and paths that a tree reads, each once, in ascending order. -/
def namesRead (t : SyntaxTree) : List String := Ascending.ofList (allReads t)

end Postmortem.Line
