import Mathlib.Data.Prod.Lex
import Postmortem.Proofs.Line.Reads

/-!
# The first fault of a program

The first syntax error that is reported is the first there is: no faulty node of the tree begins
before it. The search only goes where the flags of the nodes say that something is wrong, and it
stops at the first child in which it finds something, so this rests on two things that a parser
owes its trees: the flag of a node tells whether there is a fault in or below it
(`SyntaxTree.Flagged`), and children stand one after another within their parent
(`SyntaxTree.InOrder`). A tree with a fault that has no node of its own is not `Flagged`; there the
search falls back to the node around it.

## Shape of the argument

The search gives nothing exactly where the flag is not set (`SyntaxTree.firstFault?_eq_none_iff`).
So the children before the one in which it ends have no faults, and the faults of the children after
it begin after that child ends (`SyntaxTree.firstFault_of_firstFault?`, by induction on the tree).
-/

namespace Postmortem

open Postmortem.Text

namespace SyntaxTree

/-! ## Places -/

/-- Where a tree begins: in which row and, within it, at which byte. -/
def start (t : SyntaxTree) : ℕ ×ₗ ℕ := toLex (t.label.start.row, t.label.start.column)

/-- Where a tree ends. -/
def stop (t : SyntaxTree) : ℕ ×ₗ ℕ := toLex (t.label.stop.row, t.label.stop.column)

/-- Children stand one after another, each within its parent. -/
structure InOrder (t : SyntaxTree) : Prop where
  /-- No part ends before it begins. -/
  span : ∀ n, t.HasPart n → n.start ≤ n.stop
  /-- Children lie within their parent. -/
  inside : ∀ n, t.HasPart n → ∀ c ∈ n.children, n.start ≤ c.start ∧ c.stop ≤ n.stop
  /-- A child ends before its later siblings begin. -/
  apart : ∀ n, t.HasPart n → n.children.Pairwise fun c d => c.stop ≤ d.start

variable {t n f : SyntaxTree} {l : Syntax.Label} {cs : List SyntaxTree}

theorem InOrder.of_hasPart (h : t.InOrder) (hn : t.HasPart n) : n.InOrder where
  span p hp := h.span p (hn.trans hp)
  inside p hp := h.inside p (hn.trans hp)
  apart p hp := h.apart p (hn.trans hp)

/-- All parts of a tree lie within it. -/
theorem InOrder.within (h : t.InOrder) (hn : t.HasPart n) :
    t.start ≤ n.start ∧ n.stop ≤ t.stop := by
  induction hn with
  | refl => exact ⟨le_rfl, le_rfl⟩
  | tail hp hc ih =>
    obtain ⟨hstart, hstop⟩ := h.inside _ hp _ hc
    exact ⟨ih.1.trans hstart, hstop.trans ih.2⟩

/-- A tree is in order if its children are, which stand one after another within it. -/
theorem inOrder_node_iff : (node l cs).InOrder ↔
    (node l cs).start ≤ (node l cs).stop ∧
      (∀ c ∈ cs, (node l cs).start ≤ c.start ∧ c.stop ≤ (node l cs).stop) ∧
      (cs.Pairwise fun c d => c.stop ≤ d.start) ∧ ∀ c ∈ cs, c.InOrder := by
  constructor
  · intro h
    exact ⟨h.span _ .refl, h.inside _ .refl, h.apart _ .refl, fun c hc => h.of_hasPart (.single hc)⟩
  · rintro ⟨hspan, hinside, hapart, hchildren⟩
    constructor
    all_goals
      intro n hn
      rcases hasPart_node_iff.mp hn with rfl | ⟨c, hc, hn⟩
    · exact hspan
    · exact (hchildren c hc).span n hn
    · exact hinside
    · exact (hchildren c hc).inside n hn
    · exact hapart
    · exact (hchildren c hc).apart n hn

/-! ## Flags -/

/-- A tree is a fault if its root was not read. -/
theorem isFault_iff : t.isFault = true ↔ t.label.soundness ≠ .sound := by
  rw [isFault]
  cases t.label.soundness <;> decide

/-- The flags of a tree tell where its faults are. -/
def Flagged (t : SyntaxTree) : Prop :=
  ∀ n, t.HasPart n → (n.label.hasError = true ↔ ∃ f, n.HasPart f ∧ f.isFault = true)

theorem Flagged.of_hasPart (h : t.Flagged) (hn : t.HasPart n) : n.Flagged :=
  fun p hp => h p (hn.trans hp)

/-- Where the flag is not set there is no fault. -/
theorem Flagged.isFault_eq_false (h : t.Flagged) (hflag : t.label.hasError = false)
    (hf : t.HasPart f) : f.isFault = false := by
  by_contra hfault
  have hset : t.label.hasError = true := (h t .refl).mpr ⟨f, hf, by simpa using hfault⟩
  rw [hflag] at hset
  exact Bool.noConfusion hset

/-- Flags tell where the faults are if each tells whether the node is a fault or has a child with
the flag set. -/
theorem flagged_node_iff : (node l cs).Flagged ↔
    (l.hasError = true ↔ (node l cs).isFault = true ∨ ∃ c ∈ cs, c.label.hasError = true) ∧
      ∀ c ∈ cs, c.Flagged := by
  have hfaults (hchildren : ∀ c ∈ cs, c.Flagged) :
      (∃ f, (node l cs).HasPart f ∧ f.isFault = true) ↔
        (node l cs).isFault = true ∨ ∃ c ∈ cs, c.label.hasError = true := by
    constructor
    · rintro ⟨f, hf, hfault⟩
      rcases hasPart_node_iff.mp hf with rfl | ⟨c, hc, hf⟩
      · exact .inl hfault
      · exact .inr ⟨c, hc, (hchildren c hc c .refl).mpr ⟨f, hf, hfault⟩⟩
    · rintro (hfault | ⟨c, hc, hflag⟩)
      · exact ⟨_, .refl, hfault⟩
      · obtain ⟨f, hf, hfault⟩ := (hchildren c hc c .refl).mp hflag
        exact ⟨f, .head hc hf, hfault⟩
  constructor
  · intro h
    have hchildren : ∀ c ∈ cs, c.Flagged := fun c hc => h.of_hasPart (.single hc)
    exact ⟨(h _ .refl).trans (hfaults hchildren), hchildren⟩
  · rintro ⟨hroot, hchildren⟩ n hn
    rcases hasPart_node_iff.mp hn with rfl | ⟨c, hc, hn⟩
    · exact hroot.trans (hfaults hchildren).symm
    · exact hchildren c hc n hn

/-! ## The search -/

/-- The search goes through the children one after another. -/
theorem firstFaultAmong?_eq (ts : List SyntaxTree) :
    firstFaultAmong? ts = ts.findSome? firstFault? := by
  induction ts with
  | nil => rw [firstFaultAmong?, List.findSome?_nil]
  | cons t ts ih =>
    rw [firstFaultAmong?, ih, List.findSome?_cons]
    cases firstFault? t with
    | none => rfl
    | some f => rfl

/-- **The search gives nothing** exactly where the flag is not set. -/
theorem firstFault?_eq_none_iff : t.firstFault? = none ↔ t.label.hasError = false := by
  obtain ⟨l, cs⟩ := t
  show firstFault? (node l cs) = none ↔ l.hasError = false
  rw [firstFault?]
  cases l.hasError with
  | false => simp
  | true =>
    rw [if_neg (by decide)]
    split <;> simp

/-- Where the search finds something the flag is set. -/
theorem hasError_of_firstFault? (h : t.firstFault? = some f) : t.label.hasError = true := by
  rw [← Bool.not_eq_false, ← firstFault?_eq_none_iff, h]
  simp

/-- A fault is the first of a tree: no other begins before it. -/
structure FirstFault (t f : SyntaxTree) : Prop where
  part : t.HasPart f
  fault : f.isFault = true
  first : ∀ g, t.HasPart g → g.isFault = true → f.start ≤ g.start

/-- A root that is a fault is the first. -/
theorem InOrder.firstFault_self (h : t.InOrder) (hfault : t.isFault = true) : t.FirstFault t where
  part := .refl
  fault := hfault
  first _ hg _ := (h.within hg).1

/-- The first fault of a child is the first of the tree if the root is none and the children before
have none. -/
theorem FirstFault.of_child {before after : List SyntaxTree} {c : SyntaxTree}
    (horder : (node l (before ++ c :: after)).InOrder)
    (hroot : (node l (before ++ c :: after)).isFault = false)
    (hbefore : ∀ d ∈ before, ∀ g, d.HasPart g → g.isFault = false) (hf : c.FirstFault f) :
    (node l (before ++ c :: after)).FirstFault f := by
  have hc : c ∈ before ++ c :: after := List.mem_append_right _ List.mem_cons_self
  obtain ⟨-, -, hapart, hchildren⟩ := inOrder_node_iff.mp horder
  refine ⟨.head hc hf.part, hf.fault, ?_⟩
  intro g hpart hfault
  rcases hasPart_node_iff.mp hpart with rfl | ⟨d, hd, hg⟩
  · rw [hroot] at hfault
    exact Bool.noConfusion hfault
  rcases List.mem_append.mp hd with hd | hd
  · rw [hbefore d hd g hg] at hfault
    exact Bool.noConfusion hfault
  rcases List.mem_cons.mp hd with rfl | hd
  · exact hf.first g hg hfault
  · have hlater : c.stop ≤ d.start :=
      (List.pairwise_cons.mp (List.pairwise_append.mp hapart).2.1).1 d hd
    have hmem : d ∈ before ++ c :: after :=
      List.mem_append_right _ (List.mem_cons_of_mem _ hd)
    calc
      f.start ≤ f.stop := (hchildren c hc).span f hf.part
      _ ≤ c.stop := ((hchildren c hc).within hf.part).2
      _ ≤ d.start := hlater
      _ ≤ g.start := ((hchildren d hmem).within hg).1

/-- A root that is a fault is what the search finds. -/
theorem firstFault?_of_isFault (hflag : t.label.hasError = true) (hfault : t.isFault = true) :
    t.firstFault? = some t := by
  obtain ⟨l, cs⟩ := t
  rw [label] at hflag
  rw [firstFault?, hflag, if_neg (by decide)]
  exact if_pos hfault

/-- **No fallback**: in a tree whose root is no fault the search finds what it finds among the
children. -/
theorem Flagged.firstFault?_node (hflags : (node l cs).Flagged)
    (hroot : (node l cs).isFault = false) :
    (node l cs).firstFault? = cs.findSome? firstFault? := by
  obtain ⟨hflag, -⟩ := flagged_node_iff.mp hflags
  cases hfound : cs.findSome? firstFault? with
  | none =>
    rw [firstFault?_eq_none_iff, ← Bool.not_eq_true]
    intro hset
    obtain ⟨c, hc, hcset⟩ := (hflag.mp hset).resolve_left (by rw [hroot]; decide)
    have hnone := List.findSome?_eq_none_iff.mp hfound c hc
    rw [firstFault?_eq_none_iff, hcset] at hnone
    exact Bool.noConfusion hnone
  | some g =>
    obtain ⟨c, hc, hg⟩ := List.exists_of_findSome?_eq_some hfound
    have hset : l.hasError = true := hflag.mpr (.inr ⟨c, hc, hasError_of_firstFault? hg⟩)
    rw [firstFault?, hset, if_neg (by decide), firstFaultAmong?_eq, hfound, Option.some_or]
    exact if_neg (Bool.eq_false_iff.mp hroot)

/-- **What the search finds is the first fault**, if the flags and the order of the tree are
right. -/
theorem firstFault_of_firstFault? (hflags : t.Flagged) (horder : t.InOrder)
    (h : t.firstFault? = some f) : t.FirstFault f := by
  induction t using SyntaxTree.induction_on generalizing f with
  | node l cs ih =>
    by_cases hfault : (node l cs).isFault = true
    · rw [firstFault?_of_isFault (hasError_of_firstFault? h) hfault, Option.some_inj] at h
      rw [← h]
      exact horder.firstFault_self hfault
    · have hroot : (node l cs).isFault = false := Bool.eq_false_iff.mpr hfault
      obtain ⟨-, hchildren⟩ := flagged_node_iff.mp hflags
      rw [hflags.firstFault?_node hroot] at h
      obtain ⟨before, c, after, rfl, hc, hbefore⟩ := List.findSome?_eq_some_iff.mp h
      have hmem : c ∈ before ++ c :: after := List.mem_append_right _ List.mem_cons_self
      refine .of_child horder hroot ?_
        (ih c hmem (hchildren c hmem) (horder.of_hasPart (.single hmem)) hc)
      intro d hd g hg
      exact (hchildren d (List.mem_append_left _ hd)).isFault_eq_false
        (firstFault?_eq_none_iff.mp (hbefore d hd)) hg

/-- Nothing is found in a tree without faults. -/
theorem firstFault?_eq_none_iff_of_flagged (hflags : t.Flagged) :
    t.firstFault? = none ↔ ∀ f, t.HasPart f → f.isFault = false := by
  rw [firstFault?_eq_none_iff]
  constructor
  · exact fun hflag f hf => hflags.isFault_eq_false hflag hf
  · intro hsound
    rw [← Bool.not_eq_true, hflags t .refl]
    rintro ⟨f, hf, hfault⟩
    rw [hsound f hf] at hfault
    exact Bool.noConfusion hfault

end SyntaxTree

/-! ## Syntax issues -/

namespace Line

open SyntaxTree

/-- A text with a syntax issue has no clean tree. -/
theorem cleanTree?_eq_none_of_syntaxIssue? {parse : Parser} {source : String}
    (h : syntaxIssue? parse source ≠ none) : cleanTree? parse source = none := by
  rw [cleanTree?, Option.filter_eq_none_iff]
  intro t ht hclean
  rw [Bool.and_eq_true, Bool.not_eq_true'] at hclean
  refine h ?_
  rw [syntaxIssue?, ht, Option.bind_some, SyntaxIssue.ofTree?, firstFault?_eq_none_iff.mpr hclean.1,
    Option.map_none]

/-- **The syntax issue of a program is its first fault.** Where the tree of a program has flags that
tell its faults and children in the order of the text, the program has an issue exactly if some part
of the tree is a fault, and then the issue is the beginning of a fault before which none begins.
Whatever the tree, a text with an issue is of no interest and reads nothing. -/
theorem syntaxIssue?_first (parse : Parser) (source : String) :
    (∀ t, parse source = some t → t.Flagged → t.InOrder →
      (syntaxIssue? parse source = none ↔ ∀ f, t.HasPart f → f.isFault = false) ∧
        ∀ issue, syntaxIssue? parse source = some issue →
          ∃ f, t.firstFault? = some f ∧ t.HasPart f ∧ f.isFault = true ∧
            issue = ⟨f.label.start.row + 1, f.label.start.column + 1⟩ ∧
            ∀ g, t.HasPart g → g.isFault = true → f.start ≤ g.start) ∧
      (syntaxIssue? parse source ≠ none →
        isOfInterest parse source = false ∧ reads parse source = []) := by
  constructor
  · intro t ht hflags horder
    rw [syntaxIssue?, ht, Option.bind_some, SyntaxIssue.ofTree?]
    constructor
    · rw [Option.map_eq_none_iff]
      exact firstFault?_eq_none_iff_of_flagged hflags
    · intro issue hissue
      obtain ⟨f, hf, rfl⟩ := Option.map_eq_some_iff.mp hissue
      obtain ⟨hpart, hfault, hfirst⟩ := firstFault_of_firstFault? hflags horder hf
      exact ⟨f, hf, hpart, hfault, rfl, hfirst⟩
  · intro hissue
    have hclean := cleanTree?_eq_none_of_syntaxIssue? hissue
    rw [isOfInterest, reads, hclean]
    exact ⟨rfl, rfl⟩

/-- A program that ends too soon, after a condition was left out. -/
def unfinishedProgram : String := "if: \"a"

/-- A node of its tree, which spans some of its characters. -/
def unfinishedNode (kind : String) (start stop : Nat) (soundness : Syntax.Soundness)
    (hasError : Bool) (children : List SyntaxTree) : SyntaxTree :=
  .node
    { kind, named := kind != "if" && kind != ":"
      text := .ofList ((unfinishedProgram.toList.take stop).drop start)
      start := ⟨start, start, 0, start⟩, stop := ⟨stop, stop, 0, stop⟩, soundness, hasError }
    children

/-- Its tree: the condition is missing, and the quotation mark could not be read. -/
def unfinishedTree : SyntaxTree :=
  unfinishedNode "module" 0 6 .sound true
    [unfinishedNode "if_statement" 0 6 .sound true
      [unfinishedNode "if" 0 2 .sound false [],
        unfinishedNode "identifier" 2 2 .missing true [],
        unfinishedNode ":" 2 3 .sound false [],
        unfinishedNode "ERROR" 4 5 .error true [unfinishedNode "string_start" 4 5 .sound false []],
        unfinishedNode "block" 5 6 .sound false
          [unfinishedNode "expression_statement" 5 6 .sound false
            [unfinishedNode "identifier" 5 6 .sound false []]]]]

/-- A parser that knows this program alone. -/
def unfinishedParser : Parser := fun text =>
  if text = unfinishedProgram then some unfinishedTree else none

theorem flagged_unfinishedTree : unfinishedTree.Flagged := by
  simp [unfinishedTree, unfinishedNode, flagged_node_iff, isFault_iff, label]

theorem inOrder_unfinishedTree : unfinishedTree.InOrder := by
  simp [unfinishedTree, unfinishedNode, inOrder_node_iff, SyntaxTree.start, SyntaxTree.stop, label,
    Prod.Lex.toLex_le_toLex]

/-- The missing condition is reported and not the quotation mark after it. -/
theorem syntaxIssue?_first_unfinished :
    unfinishedTree.Flagged ∧ unfinishedTree.InOrder ∧
      syntaxIssue? unfinishedParser unfinishedProgram = some ⟨1, 3⟩ ∧
      (∃ f, unfinishedTree.HasPart f ∧ f.isFault = true ∧ f.start = toLex (0, 2) ∧
        ∀ g, unfinishedTree.HasPart g → g.isFault = true → f.start ≤ g.start) ∧
      isOfInterest unfinishedParser unfinishedProgram = false ∧
      reads unfinishedParser unfinishedProgram = [] := by
  obtain ⟨hfirst, hgate⟩ := syntaxIssue?_first unfinishedParser unfinishedProgram
  have hissue : syntaxIssue? unfinishedParser unfinishedProgram = some ⟨1, 3⟩ := by decide
  obtain ⟨-, hplace⟩ := hfirst unfinishedTree rfl flagged_unfinishedTree inOrder_unfinishedTree
  obtain ⟨f, -, hpart, hfault, hstart, hfirst⟩ := hplace ⟨1, 3⟩ hissue
  obtain ⟨hrow, hcolumn⟩ := SyntaxIssue.mk.inj hstart
  have hat : f.start = toLex (0, 2) := by
    rw [SyntaxTree.start, ← Nat.succ.inj hrow, ← Nat.succ.inj hcolumn]
  exact ⟨flagged_unfinishedTree, inOrder_unfinishedTree, hissue, ⟨f, hpart, hfault, hat, hfirst⟩,
    hgate (by rw [hissue]; decide)⟩

end Line

end Postmortem
