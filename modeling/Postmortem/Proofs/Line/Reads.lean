import Mathlib.Logic.Relation
import Postmortem.Line.Interest
import Postmortem.Proofs.Text.Lines

/-!
# Where the names that a line reads come from

The names that a line reads are those of the nodes to which read edges lead from the root of its
tree, and a dotted path is made of the texts of nodes below its own. So all that is in a name comes
from the line, if the parser takes the texts of its nodes from there.

## Shape of the argument

Read edges lead to parts of a tree (`Line.hasPart_of_mem_readEdges`). The walk along them collects
exactly the names of the nodes that can be reached (`Line.mem_allReads_iff`), and the segments of a
name are texts of parts (`Line.exists_part_of_dottedPath?`).
-/

namespace Postmortem

/-! ## Parts of trees -/

namespace SyntaxTree

/-- Induction on trees: what holds of a tree if it holds of its children holds of all trees. -/
@[elab_as_elim]
theorem induction_on {P : SyntaxTree → Prop} (t : SyntaxTree)
    (node : ∀ l cs, (∀ c ∈ cs, P c) → P (.node l cs)) : P t := by
  cases t with
  | node l cs => exact node l cs fun c _ => induction_on c node
termination_by t
decreasing_by
  have := List.sizeOf_lt_of_mem ‹c ∈ cs›
  simp only [SyntaxTree.node.sizeOf_spec]
  omega

/-- A tree has another as a part: itself, or one that it has below it. -/
def HasPart : SyntaxTree → SyntaxTree → Prop :=
  Relation.ReflTransGen fun t c => c ∈ t.children

/-- A child in a role is a part. -/
theorem hasPart_of_childIn? {t c : SyntaxTree} {role : String} (h : t.childIn? role = some c) :
    t.HasPart c :=
  .single (List.mem_of_find?_eq_some h)

/-- A named child is a part. -/
theorem hasPart_of_mem_namedChildren {t c : SyntaxTree} (h : c ∈ t.namedChildren) :
    t.HasPart c :=
  .single (List.mem_filter.mp h).1

/-- A tree has its root as a part, and the parts of its children. -/
theorem hasPart_node_iff {l : Syntax.Label} {cs : List SyntaxTree} {p : SyntaxTree} :
    (node l cs).HasPart p ↔ node l cs = p ∨ ∃ c ∈ cs, c.HasPart p := by
  rw [HasPart, Relation.ReflTransGen.cases_head_iff]
  rfl

end SyntaxTree

namespace Line

open SyntaxTree

/-- A parser takes the texts of its nodes from the text that it reads. -/
def Parser.Slices (parse : Parser) : Prop :=
  ∀ text t, parse text = some t → ∀ p, t.HasPart p → p.text.toList <:+: text.toList

/-! ## Read edges -/

/-- The children in some roles are parts. -/
theorem hasPart_of_mem_childrenIn {t c : SyntaxTree} {roles : List String}
    (h : c ∈ childrenIn t roles) : t.HasPart c := by
  obtain ⟨role, -, hchild⟩ := List.mem_filterMap.mp h
  exact hasPart_of_childIn? hchild

/-- What a parameter reads is part of it. -/
theorem hasPart_of_mem_parameterReads {p c : SyntaxTree} (h : c ∈ parameterReads p) :
    p.HasPart c := by
  unfold parameterReads at h
  split at h
  · exact hasPart_of_mem_childrenIn h
  · exact hasPart_of_mem_childrenIn h
  · exact hasPart_of_mem_childrenIn h
  · exact absurd h List.not_mem_nil

/-- **Read edges lead to parts.** -/
theorem hasPart_of_mem_readEdges {t c : SyntaxTree} (h : c ∈ readEdges t) : t.HasPart c := by
  have hparameters (h : c ∈ t.namedChildren.flatMap parameterReads) : t.HasPart c := by
    obtain ⟨p, hp, hc⟩ := List.mem_flatMap.mp h
    exact (hasPart_of_mem_namedChildren hp).trans (hasPart_of_mem_parameterReads hc)
  unfold readEdges at h
  split at h
  all_goals try split at h
  all_goals
    first
    | exact hasPart_of_mem_childrenIn h
    | exact hasPart_of_mem_namedChildren h
    | exact hparameters h
    | exact absurd h List.not_mem_nil

/-- Read edges lead from one tree to another. -/
def Reads : SyntaxTree → SyntaxTree → Prop := Relation.ReflTransGen fun t c => c ∈ readEdges t

/-- Where read edges lead is a part. -/
theorem Reads.hasPart {t n : SyntaxTree} (h : Reads t n) : t.HasPart n := by
  induction h with
  | refl => exact .refl
  | tail _ hedge ih => exact ih.trans (hasPart_of_mem_readEdges hedge)

/-- The walk names a tree and goes on along its read edges. -/
theorem allReads_eq (t : SyntaxTree) :
    allReads t = (ownName? t).toList ++ (readEdges t).flatMap allReads := by
  rw [allReads]
  simp only [List.flatMap_subtype, List.unattach_attach]

/-- **The names of the walk** are those of the trees to which read edges lead. -/
theorem mem_allReads_iff {t : SyntaxTree} {name : String} :
    name ∈ allReads t ↔ ∃ n, Reads t n ∧ ownName? n = some name := by
  induction t using allReads.induct with
  | case1 t ih =>
    have hwalk : name ∈ allReads t ↔
        ownName? t = some name ∨ ∃ c ∈ readEdges t, name ∈ allReads c := by
      rw [allReads_eq, List.mem_append, Option.mem_toList, List.mem_flatMap]
    rw [hwalk]
    constructor
    · rintro (hname | ⟨c, hc, hname⟩)
      · exact ⟨t, .refl, hname⟩
      · obtain ⟨n, hn, hname⟩ := (ih c hc).mp hname
        exact ⟨n, .head hc hn, hname⟩
    · rintro ⟨n, hn, hname⟩
      rcases hn.cases_head with rfl | ⟨c, hc, hn⟩
      · exact .inl hname
      · exact .inr ⟨c, hc, (ih c hc).mpr ⟨n, hn, hname⟩⟩

/-! ## Segments -/

/-- The segments of a dotted path are texts of its parts. -/
theorem exists_part_of_dottedPath? {t : SyntaxTree} {segments : List String}
    (h : dottedPath? t = some segments) : ∀ s ∈ segments, ∃ p, t.HasPart p ∧ p.text = s := by
  induction t using dottedPath?.induct generalizing segments with
  | case1 t hkind =>
    rw [dottedPath?, if_pos hkind, Option.some_inj] at h
    rw [← h]
    intro s hs
    exact ⟨t, .refl, (List.mem_singleton.mp hs).symm⟩
  | case2 t hname hattribute a o hobject hlast ih =>
    rw [dottedPath?, if_neg hname, if_pos hattribute] at h
    split at h
    · rename_i a' o' hlast' hobject'
      obtain rfl : o = o' := Option.some.inj (hobject.symm.trans hobject')
      obtain ⟨base, hbase, rfl⟩ := Option.map_eq_some_iff.mp h
      intro s hs
      rcases List.mem_append.mp hs with hs | hs
      · obtain ⟨p, hp, htext⟩ := ih hbase s hs
        exact ⟨p, (hasPart_of_childIn? hobject).trans hp, htext⟩
      · exact ⟨a', hasPart_of_childIn? hlast', (List.mem_singleton.mp hs).symm⟩
    · exact absurd h (by simp)
  | case3 t hname hattribute hnone =>
    rw [dottedPath?, if_neg hname, if_pos hattribute] at h
    split at h
    · rename_i a o hlast hobject
      exact (hnone a o hlast hobject).elim
    · exact absurd h (by simp)
  | case4 t hname hattribute =>
    rw [dottedPath?, if_neg hname, if_neg hattribute] at h
    exact absurd h (by simp)

/-- The name of a node is made of the texts of its parts, joined by points. -/
theorem exists_segments_of_ownName? {t : SyntaxTree} {name : String} (h : ownName? t = some name) :
    ∃ segments, name = ".".intercalate segments ∧
      ∀ s ∈ segments, ∃ p, t.HasPart p ∧ p.text = s := by
  rw [ownName?] at h
  split at h
  · obtain ⟨segments, hpath, rfl⟩ := Option.map_eq_some_iff.mp h
    exact ⟨segments, rfl, exists_part_of_dottedPath? hpath⟩
  · exact absurd h (by simp)

/-- **The names that a line reads** are made of parts of the line, joined by points. -/
theorem exists_segments_of_mem_reads {parse : Parser} (hparse : parse.Slices) {line name : String}
    (h : name ∈ reads parse line) :
    ∃ segments, name = ".".intercalate segments ∧
      ∀ s ∈ segments, s.toList <:+: line.toList := by
  rw [reads] at h
  split at h
  · rename_i t ht
    rw [cleanTree?, Option.filter_eq_some_iff] at ht
    rw [namesRead, Ascending.mem_ofList, mem_allReads_iff] at h
    obtain ⟨n, hn, hname⟩ := h
    obtain ⟨segments, hsegments, hparts⟩ := exists_segments_of_ownName? hname
    refine ⟨segments, hsegments, ?_⟩
    intro s hs
    obtain ⟨p, hp, rfl⟩ := hparts s hs
    exact hparse line t ht.1 p (hn.hasPart.trans hp)
  · exact absurd h List.not_mem_nil

/-- A line without line feeds reads no name that has one. -/
theorem feed_not_mem_of_mem_reads {parse : Parser} (hparse : parse.Slices) {line name : String}
    (hline : '\n' ∉ line.toList) (h : name ∈ reads parse line) : '\n' ∉ name.toList := by
  obtain ⟨segments, rfl, hsegments⟩ := exists_segments_of_mem_reads hparse h
  rw [String.toList_intercalate]
  intro hfeed
  rcases Text.mem_of_mem_intercalate hfeed with hpoint | ⟨part, hpart, hfeed⟩
  · exact absurd hpoint (by decide)
  · obtain ⟨s, hs, rfl⟩ := List.mem_map.mp hpart
    exact hline ((hsegments s hs).subset hfeed)

end Line

end Postmortem
