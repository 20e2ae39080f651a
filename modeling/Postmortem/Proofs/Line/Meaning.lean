import Postmortem.Proofs.Line.Reads

/-!
# What it means to read a name

Which names a line reads can be told without walking its tree. Read edges lead from a node to those
of its children whose values it needs; a name is read if it belongs to a node to which they lead.
The walk collects exactly the names that are read in this sense.

## Shape of the proof

A chain of attributes has its segments exactly when the walk finds them (`dottedPath?_eq_some_iff`),
and each kind of node has its read edges where the walk goes on (`mem_readEdges_iff`). The rest is
what is known of the walk along its own edges (`mem_allReads_iff`).
-/

namespace Postmortem.Line

open SyntaxTree

/-! ## Chains of attributes -/

/-- A chain of attributes with a name at its base, and its segments from the base outwards. -/
inductive NameChain : SyntaxTree → List String → Prop where
  | name {t : SyntaxTree} (hkind : t.kind = "identifier") : NameChain t [t.text]
  | link {t base last : SyntaxTree} {segments : List String} (hkind : t.kind = "attribute")
      (hlast : t.childIn? "attribute" = some last) (hbase : t.childIn? "object" = some base)
      (hchain : NameChain base segments) : NameChain t (segments ++ [last.text])

/-- **The segments of a chain are what the walk finds for it.** -/
theorem dottedPath?_eq_some_iff {t : SyntaxTree} {segments : List String} :
    dottedPath? t = some segments ↔ NameChain t segments := by
  constructor
  · intro h
    induction t using dottedPath?.induct generalizing segments with
    | case1 t hname =>
      rw [dottedPath?, if_pos hname, Option.some_inj] at h
      rw [← h]
      exact .name (by simpa using hname)
    | case2 t hname hattribute last base hbase hlast ih =>
      rw [dottedPath?, if_neg hname, if_pos hattribute] at h
      split at h
      · rename_i last' base' hlast' hbase'
        obtain rfl : base = base' := Option.some.inj (hbase.symm.trans hbase')
        obtain ⟨inner, hinner, rfl⟩ := Option.map_eq_some_iff.mp h
        exact .link (by simpa using hattribute) hlast' hbase (ih hinner)
      · exact absurd h (by simp)
    | case3 t hname hattribute hnone =>
      rw [dottedPath?, if_neg hname, if_pos hattribute] at h
      split at h
      · rename_i last base hlast hbase
        exact (hnone last base hlast hbase).elim
      · exact absurd h (by simp)
    | case4 t hname hattribute =>
      rw [dottedPath?, if_neg hname, if_neg hattribute] at h
      exact absurd h (by simp)
  · intro h
    induction h with
    | name hkind => rw [dottedPath?, if_pos (by simpa using hkind)]
    | link hkind hlast hbase _ ih =>
      rw [dottedPath?, if_neg (by simp [hkind]), if_pos (by simpa using hkind)]
      split
      · rename_i last' base' hlast' hbase'
        obtain rfl := Option.some.inj (hlast.symm.trans hlast')
        obtain rfl := Option.some.inj (hbase.symm.trans hbase')
        rw [ih]
        rfl
      · rename_i hnone
        exact (hnone _ _ hlast hbase).elim

/-- A node that is no chain has no segments. -/
theorem dottedPath?_eq_none_iff {t : SyntaxTree} :
    dottedPath? t = none ↔ ∀ segments, ¬ NameChain t segments := by
  simp only [← dottedPath?_eq_some_iff, Option.eq_none_iff_forall_ne_some, ne_eq]

/-- The name of a node is that of its chain. -/
theorem ownName?_eq_some_iff {t : SyntaxTree} {name : String} :
    ownName? t = some name ↔ ∃ segments, NameChain t segments ∧ ".".intercalate segments = name := by
  have hkind {segments : List String} (h : NameChain t segments) :
      (t.kind == "identifier" || t.kind == "attribute") = true := by
    cases h with
    | name hkind => simp [hkind]
    | link hkind => simp [hkind]
  simp only [← dottedPath?_eq_some_iff] at hkind ⊢
  rw [ownName?]
  constructor
  · intro h
    split at h
    · exact Option.map_eq_some_iff.mp h
    · exact absurd h (by simp)
  · rintro ⟨segments, hpath, hname⟩
    rw [if_pos (hkind hpath), hpath]
    exact congrArg some hname

/-! ## Read edges -/

/-- The kinds of nodes that read their children in some roles alone, and these roles. -/
def selectiveKinds : List (String × List String) :=
  [("call", ["function", "arguments"]), ("keyword_argument", ["value"]),
    ("function_definition", ["parameters", "return_type", "body"]),
    ("class_definition", ["superclasses", "body"]), ("lambda", ["parameters", "body"])]

/-- The kinds of parameters that read something, and the roles of what they read. -/
def parameterKinds : List (String × List String) :=
  [("default_parameter", ["value"]), ("typed_default_parameter", ["type", "value"]),
    ("typed_parameter", ["type"])]

/-- The kinds of lists of parameters. -/
def parameterLists : List String := ["parameters", "lambda_parameters"]

/-- The kinds of nodes that bind names and read nothing. -/
def silentKinds : List String :=
  ["import_statement", "import_from_statement", "future_import_statement", "global_statement",
    "nonlocal_statement"]

/-- The kinds of nodes that do not read all of their named children. -/
def specialKinds : List String :=
  ["identifier", "assignment", "attribute"] ++ selectiveKinds.map (·.1) ++ parameterLists ++
    silentKinds

/-- A node reads another one. -/
inductive ReadEdge : SyntaxTree → SyntaxTree → Prop where
  /-- An assignment without a type reads its value alone. -/
  | assigned {t c : SyntaxTree} (hkind : t.kind = "assignment") (htype : t.childIn? "type" = none)
      (hchild : t.childIn? "right" = some c) : ReadEdge t c
  /-- One with a type reads all that is named in it. -/
  | annotated {t annotation c : SyntaxTree} (hkind : t.kind = "assignment")
      (htype : t.childIn? "type" = some annotation) (hchild : c ∈ t.namedChildren) : ReadEdge t c
  /-- An attribute that belongs to no chain reads what it is an attribute of. -/
  | object {t c : SyntaxTree} (hkind : t.kind = "attribute")
      (hchain : ∀ segments, ¬ NameChain t segments) (hchild : t.childIn? "object" = some c) :
      ReadEdge t c
  /-- Some kinds of nodes read their children in certain roles. -/
  | role {t c : SyntaxTree} {roles : List String} {role : String}
      (hkind : (t.kind, roles) ∈ selectiveKinds) (hrole : role ∈ roles)
      (hchild : t.childIn? role = some c) : ReadEdge t c
  /-- Of parameters, defaults and annotations are read. -/
  | parameter {t p c : SyntaxTree} {roles : List String} {role : String}
      (hkind : t.kind ∈ parameterLists) (hparameter : p ∈ t.namedChildren)
      (hroles : (p.kind, roles) ∈ parameterKinds) (hrole : role ∈ roles)
      (hchild : p.childIn? role = some c) : ReadEdge t c
  /-- All other nodes read what is named in them. -/
  | child {t c : SyntaxTree} (hkind : t.kind ∉ specialKinds) (hchild : c ∈ t.namedChildren) :
      ReadEdge t c

/-- The children in some roles. -/
theorem mem_childrenIn_iff {t c : SyntaxTree} {roles : List String} :
    c ∈ childrenIn t roles ↔ ∃ role ∈ roles, t.childIn? role = some c :=
  List.mem_filterMap

/-- What a parameter reads. -/
theorem mem_parameterReads_iff {p c : SyntaxTree} :
    c ∈ parameterReads p ↔
      ∃ roles role, (p.kind, roles) ∈ parameterKinds ∧ role ∈ roles ∧ p.childIn? role = some c := by
  have htable (roles : List String) (hkind : (p.kind, roles) ∈ parameterKinds) :
      parameterReads p = childrenIn p roles := by
    simp only [parameterKinds, List.mem_cons, Prod.mk.injEq, List.not_mem_nil, or_false] at hkind
    unfold parameterReads
    rcases hkind with ⟨hkind, rfl⟩ | ⟨hkind, rfl⟩ | ⟨hkind, rfl⟩ <;> (rw [hkind]; rfl)
  constructor
  · intro h
    have hroles : ∃ roles, (p.kind, roles) ∈ parameterKinds := by
      unfold parameterReads at h
      split at h
      · rename_i hkind
        exact ⟨["value"], by simp [hkind, parameterKinds]⟩
      · rename_i hkind
        exact ⟨["type", "value"], by simp [hkind, parameterKinds]⟩
      · rename_i hkind
        exact ⟨["type"], by simp [hkind, parameterKinds]⟩
      · exact absurd h List.not_mem_nil
    obtain ⟨roles, hkind⟩ := hroles
    rw [htable roles hkind, mem_childrenIn_iff] at h
    obtain ⟨role, hrole, hchild⟩ := h
    exact ⟨roles, role, hkind, hrole, hchild⟩
  · rintro ⟨roles, role, hkind, hrole, hchild⟩
    rw [htable roles hkind, mem_childrenIn_iff]
    exact ⟨role, hrole, hchild⟩

/-- Whether an assignment has a type decides what it reads. -/
theorem readEdges_of_assignment {t : SyntaxTree} (hkind : t.kind = "assignment") :
    readEdges t =
      if (t.childIn? "type").isSome then t.namedChildren else childrenIn t ["right"] := by
  unfold readEdges
  rw [hkind]
  rfl

/-- Whether an attribute is a chain decides what it reads. -/
theorem readEdges_of_attribute {t : SyntaxTree} (hkind : t.kind = "attribute") :
    readEdges t = if (dottedPath? t).isSome then [] else childrenIn t ["object"] := by
  unfold readEdges
  rw [hkind]
  rfl

/-- Nodes of selective kinds read their children in the roles of their kind. -/
theorem readEdges_of_selective {t : SyntaxTree} {roles : List String}
    (hkind : (t.kind, roles) ∈ selectiveKinds) : readEdges t = childrenIn t roles := by
  simp only [selectiveKinds, List.mem_cons, Prod.mk.injEq, List.not_mem_nil, or_false] at hkind
  unfold readEdges
  rcases hkind with ⟨hkind, rfl⟩ | ⟨hkind, rfl⟩ | ⟨hkind, rfl⟩ | ⟨hkind, rfl⟩ | ⟨hkind, rfl⟩ <;>
    (rw [hkind]; rfl)

/-- Lists of parameters read what their parameters do. -/
theorem readEdges_of_parameters {t : SyntaxTree} (hkind : t.kind ∈ parameterLists) :
    readEdges t = t.namedChildren.flatMap parameterReads := by
  simp only [parameterLists, List.mem_cons, List.not_mem_nil, or_false] at hkind
  unfold readEdges
  rcases hkind with hkind | hkind <;> (rw [hkind]; rfl)

/-- Nodes of other kinds read all that is named in them. -/
theorem readEdges_of_not_special {t : SyntaxTree} (hkind : t.kind ∉ specialKinds) :
    readEdges t = t.namedChildren := by
  have hne {kind : String} (h : kind ∈ specialKinds) : t.kind ≠ kind := fun heq => hkind (heq ▸ h)
  unfold readEdges
  split
  all_goals try exact absurd ‹t.kind = _› (hne (by decide))
  rw [if_neg]
  intro hbinding
  exact hkind (List.mem_append_right _ (List.contains_iff_mem.mp hbinding))

/-- The walk goes on along read edges alone. -/
theorem ReadEdge.of_mem {t c : SyntaxTree} (h : c ∈ readEdges t) : ReadEdge t c := by
  have hselective {roles : List String} (hkind : (t.kind, roles) ∈ selectiveKinds)
      (hc : c ∈ childrenIn t roles) : ReadEdge t c := by
    obtain ⟨role, hrole, hchild⟩ := mem_childrenIn_iff.mp hc
    exact .role hkind hrole hchild
  have hparameters (hkind : t.kind ∈ parameterLists)
      (hc : c ∈ t.namedChildren.flatMap parameterReads) : ReadEdge t c := by
    obtain ⟨p, hp, hc⟩ := List.mem_flatMap.mp hc
    obtain ⟨roles, role, hroles, hrole, hchild⟩ := mem_parameterReads_iff.mp hc
    exact .parameter hkind hp hroles hrole hchild
  unfold readEdges at h
  split at h
  · exact absurd h List.not_mem_nil
  · rename_i hkind
    split at h
    · rename_i htype
      obtain ⟨declared, htype⟩ := Option.isSome_iff_exists.mp htype
      exact .annotated hkind htype h
    · rename_i htype
      obtain ⟨role, hrole, hchild⟩ := mem_childrenIn_iff.mp h
      rw [List.mem_singleton.mp hrole] at hchild
      exact .assigned hkind (by simpa using htype) hchild
  · rename_i hkind
    split at h
    · exact absurd h List.not_mem_nil
    · rename_i hpath
      obtain ⟨role, hrole, hchild⟩ := mem_childrenIn_iff.mp h
      rw [List.mem_singleton.mp hrole] at hchild
      exact .object hkind (dottedPath?_eq_none_iff.mp (by simpa using hpath)) hchild
  iterate 5
    · rename_i hkind
      exact hselective (by simp [hkind, selectiveKinds]) h
  iterate 2
    · rename_i hkind
      exact hparameters (by simp [hkind, parameterLists]) h
  · rename_i hidentifier hassignment hattribute hcall hargument hfunction hclass hlambda
      hparameter hlambdaParameter
    split at h
    · exact absurd h List.not_mem_nil
    · rename_i hbinding
      refine .child ?_ h
      simp only [specialKinds, selectiveKinds, parameterLists, List.map_cons, List.map_nil,
        List.cons_append, List.nil_append, List.mem_cons, not_or]
      exact ⟨hidentifier, hassignment, hattribute, hcall, hargument, hfunction, hclass, hlambda,
        hparameter, hlambdaParameter, fun h => hbinding (List.contains_iff_mem.mpr h)⟩

/-- It goes on along all of them. -/
theorem ReadEdge.mem {t c : SyntaxTree} (h : ReadEdge t c) : c ∈ readEdges t := by
  cases h with
  | assigned hkind htype hchild =>
    rw [readEdges_of_assignment hkind, if_neg (by simp [htype])]
    exact mem_childrenIn_iff.mpr ⟨"right", List.mem_singleton_self _, hchild⟩
  | annotated hkind htype hchild =>
    rw [readEdges_of_assignment hkind, if_pos (by simp [htype])]
    exact hchild
  | object hkind hchain hchild =>
    rw [readEdges_of_attribute hkind, dottedPath?_eq_none_iff.mpr hchain, if_neg (by simp)]
    exact mem_childrenIn_iff.mpr ⟨"object", List.mem_singleton_self _, hchild⟩
  | role hkind hrole hchild =>
    rw [readEdges_of_selective hkind]
    exact mem_childrenIn_iff.mpr ⟨_, hrole, hchild⟩
  | parameter hkind hparameter hroles hrole hchild =>
    rw [readEdges_of_parameters hkind, List.mem_flatMap]
    exact ⟨_, hparameter, mem_parameterReads_iff.mpr ⟨_, _, hroles, hrole, hchild⟩⟩
  | child hkind hchild =>
    rw [readEdges_of_not_special hkind]
    exact hchild

/-- **Read edges lead where the walk goes on.** -/
theorem mem_readEdges_iff {t c : SyntaxTree} : c ∈ readEdges t ↔ ReadEdge t c :=
  ⟨ReadEdge.of_mem, ReadEdge.mem⟩

/-! ## Names -/

/-- **The names that a tree reads** are those of the chains to which read edges lead from its
root. -/
theorem mem_namesRead_iff (t : SyntaxTree) (name : String) :
    name ∈ namesRead t ↔
      ∃ n segments, Relation.ReflTransGen ReadEdge t n ∧ NameChain n segments ∧
        ".".intercalate segments = name := by
  have hedges : (fun t c => c ∈ readEdges t) = ReadEdge := by
    funext t c
    exact propext mem_readEdges_iff
  rw [namesRead, Ascending.mem_ofList, mem_allReads_iff]
  simp only [Reads, hedges, ownName?_eq_some_iff, exists_and_left]

end Postmortem.Line
