import Postmortem.Proofs.Line.Reads
import Postmortem.Python.Parser

/-!
# Syntax trees are cut from their source

Every node of a syntax tree has a text that stands in the source. Hidden nodes that give way to
their children and further roles for a child do not change that, so the Python parser takes the
texts of its nodes from the text that it reads.
-/

namespace Postmortem.Parse

open Postmortem.Text Postmortem.Automaton Postmortem.Syntax

variable {Memory : Type} {a : Automaton} {src : Source}

/-- All parts of a tree have texts that lie between two places of a source. -/
def CutFrom (src : Source) (t : SyntaxTree) : Prop :=
  ∀ p, t.HasPart p → ∃ i j, p.text = src.slice i j

/-- A tree is cut from a source if its root and its children are. -/
theorem cutFrom_node {l : Label} {cs : List SyntaxTree} {i j : Nat} (htext : l.text = src.slice i j)
    (hchildren : ∀ c ∈ cs, CutFrom src c) : CutFrom src (.node l cs) := by
  intro p hp
  rcases SyntaxTree.hasPart_node_iff.mp hp with rfl | ⟨c, hc, hp⟩
  · exact ⟨i, j, htext⟩
  · exact hchildren c hc p hp

/-- The children of a tree that is cut from a source are, too. -/
theorem CutFrom.of_mem {l : Label} {cs : List SyntaxTree} (h : CutFrom src (.node l cs)) :
    ∀ c ∈ cs, CutFrom src c := by
  intro c hc p hp
  exact h p (SyntaxTree.hasPart_node_iff.mpr (.inr ⟨c, hc, hp⟩))

/-- A further role does not change texts. -/
theorem cutFrom_of_mem_addRole {role : Option String} {trees : List SyntaxTree}
    (h : ∀ t ∈ trees, CutFrom src t) : ∀ t ∈ addRole role trees, CutFrom src t := by
  cases role with
  | none => exact h
  | some r =>
    cases trees with
    | nil => exact h
    | cons first rest =>
      obtain ⟨l, cs⟩ := first
      have hfirst : CutFrom src (.node l cs) := h _ List.mem_cons_self
      obtain ⟨i, j, htext⟩ := hfirst _ .refl
      intro t ht
      rcases List.mem_cons.mp ht with rfl | ht
      · exact cutFrom_node htext hfirst.of_mem
      · exact h t (List.mem_cons_of_mem _ ht)

mutual

/-- The trees that show for a subtree are cut from the source. -/
theorem cutFrom_of_mem_shown (rename : Option Grammar.Rename) (subtree : Subtree Memory) :
    ∀ t ∈ shown a src rename subtree, CutFrom src t := by
  cases subtree with
  | node s parts =>
    have hparts := cutFrom_of_mem_shownAll (a.shapes.getD s.shape {}) 0 parts
    rw [shown]
    split
    · intro t ht
      rw [List.mem_singleton.mp ht]
      exact cutFrom_node rfl hparts
    · exact hparts

/-- So are those that show for the parts of a production. -/
theorem cutFrom_of_mem_shownAll (shape : Shape) (place : Nat) (parts : List (Subtree Memory)) :
    ∀ t ∈ shownAll a src shape place parts, CutFrom src t := by
  cases parts with
  | nil =>
    rw [shownAll]
    exact fun t ht => absurd ht List.not_mem_nil
  | cons part rest =>
    cases part with
    | node s below =>
      rw [shownAll]
      split
      · intro t ht
        rcases List.mem_append.mp ht with ht | ht
        · exact cutFrom_of_mem_shown none (.node s below) t ht
        · exact cutFrom_of_mem_shownAll shape place rest t ht
      · intro t ht
        rcases List.mem_append.mp ht with ht | ht
        · exact cutFrom_of_mem_addRole (cutFrom_of_mem_shown _ (.node s below)) t ht
        · exact cutFrom_of_mem_shownAll shape (place + 1) rest t ht

end

/-- **The syntax tree of a subtree is cut from the source.** -/
theorem cutFrom_toSyntaxTree (subtree : Subtree Memory) :
    CutFrom src (toSyntaxTree a src subtree) := by
  obtain ⟨s, parts⟩ := subtree
  exact cutFrom_node rfl (cutFrom_of_mem_shownAll _ 0 parts)

/-- The characters of a source are those of its text. -/
theorem toList_chars_ofString (s : String) : (Source.ofString s).chars.toList = s.toList := by
  rw [Source.ofString]

/-- What lies between two places of a source is part of it. -/
theorem isInfix_slice (src : Source) (i j : Nat) :
    (src.slice i j).toList <:+: src.chars.toList := by
  rw [Source.slice, String.toList_ofList, Array.toList_extract, List.extract_eq_take_drop]
  exact (List.take_prefix _ _).isInfix.trans (List.drop_suffix _ _).isInfix

end Postmortem.Parse

namespace Postmortem.Python

open Postmortem.Text Postmortem.Parse

/-- **The Python parser takes the texts of its nodes from the text that it reads.** -/
theorem slices_parse (a : Automaton) : Line.Parser.Slices (parse a) := by
  intro text t ht p hp
  rw [parse] at ht
  obtain ⟨subtree, -, rfl⟩ := Option.map_eq_some_iff.mp ht
  obtain ⟨i, j, hslice⟩ := cutFrom_toSyntaxTree subtree p hp
  have hinfix := isInfix_slice (Source.ofString text) i j
  rw [toList_chars_ofString] at hinfix
  rw [hslice]
  exact hinfix

end Postmortem.Python
