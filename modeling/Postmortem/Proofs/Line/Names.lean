import Postmortem.Proofs.Line.Meaning
import Postmortem.Proofs.Line.Plan
import Postmortem.Proofs.Text.ByteOrder

/-!
# The names that a plan asks for

A plan never asks for something that cannot be a name. The grammar lets keywords be names and reads
lines that mean something else, and the names of a line are found along other ways than those on
which keywords are looked for: through the children whose values are read and through chains of
attributes, not through all named children. What the two have in common are the names in the tree,
if the parser tells them from everything else (`Line.TellsNames`).

## Shape of the argument

The gate refuses a tree exactly if a keyword is among the names in it
(`Line.namesKeyword_eq_true_iff`), and the segments of all chains of attributes are names in the
tree (`Line.exists_name_of_nameChain`), so no segment is a keyword. Of a line that got a body, no
segment is taken from the body, whose only word is a keyword (`Line.StandsIn.of_append_body`).
-/

namespace Postmortem.Line

open SyntaxTree Postmortem.Text

variable {parse : Parser} {t n p : SyntaxTree}

/-! ## Names in trees -/

/-- A tree has another as a named part: all that lie on the way to it are named. -/
def HasNamedPart : SyntaxTree → SyntaxTree → Prop :=
  Relation.ReflTransGen fun t c => c ∈ t.namedChildren

/-- A tree has itself as a named part, and the named parts of its named children. -/
theorem hasNamedPart_iff : HasNamedPart t p ↔ t = p ∨ ∃ c ∈ t.namedChildren, HasNamedPart c p :=
  Relation.ReflTransGen.cases_head_iff

/-- A part of a tree that is a name. -/
structure IsName (t p : SyntaxTree) : Prop where
  part : t.HasPart p
  kind : p.kind = "identifier"

/-- A tree tells names from everything else. -/
structure TellsNames (t : SyntaxTree) : Prop where
  /-- Names are named, and so is all that they belong to. -/
  named : ∀ p, IsName t p → HasNamedPart t p
  /-- Names are tokens: they have no children. -/
  token : ∀ p, IsName t p → p.children = []
  /-- What an attribute adds to its object is a name. -/
  last : ∀ n p, t.HasPart n → n.kind = "attribute" → n.childIn? "attribute" = some p →
    p.kind = "identifier"
  /-- Names hold neither points nor blanks. -/
  plain : ∀ p, IsName t p → ∀ c ∈ p.text.toList, c ≠ '.' ∧ isBlank c = false

/-- A parser tells names from everything else in the trees of texts without errors. -/
def Parser.TellsNames (parse : Parser) : Prop :=
  ∀ text t, parse text = some t → t.label.hasError = false → Line.TellsNames t

/-! ## The gate -/

/-- The gate looks at the text of a name. -/
theorem namesKeyword_of_kind (hkind : t.kind = "identifier") :
    namesKeyword t = hardKeywords.contains t.text := by
  obtain ⟨l, cs⟩ := t
  have hl : l.kind = "identifier" := hkind
  rw [namesKeyword, hl, if_pos (by decide)]
  rfl

/-- It goes through the named trees of a list. -/
theorem anyNamesKeyword_eq (ts : List SyntaxTree) :
    anyNamesKeyword ts = (ts.filter isNamed).any namesKeyword := by
  induction ts with
  | nil => rw [anyNamesKeyword, List.filter_nil, List.any_nil]
  | cons t ts ih =>
    rw [anyNamesKeyword, ih, List.filter_cons]
    cases t.isNamed with
    | false => rfl
    | true => rfl

/-- It looks into the named children of all other trees. -/
theorem namesKeyword_of_kind_ne (hkind : t.kind ≠ "identifier") :
    namesKeyword t = t.namedChildren.any namesKeyword := by
  obtain ⟨l, cs⟩ := t
  have hl : l.kind ≠ "identifier" := hkind
  rw [namesKeyword, if_neg (by simpa using hl), anyNamesKeyword_eq]
  rfl

/-- **The gate refuses a tree** exactly if one of the names that are reached through named children
is a keyword. -/
theorem namesKeyword_eq_true_iff (htoken : ∀ p, IsName t p → p.children = []) :
    namesKeyword t = true ↔
      ∃ p, HasNamedPart t p ∧ p.kind = "identifier" ∧ p.text ∈ hardKeywords := by
  induction t using SyntaxTree.induction_on with
  | node l cs ih =>
    by_cases hkind : (SyntaxTree.node l cs).kind = "identifier"
    · obtain rfl : cs = [] := htoken _ ⟨.refl, hkind⟩
      rw [namesKeyword_of_kind hkind, List.contains_iff_mem]
      constructor
      · exact fun hword => ⟨_, .refl, hkind, hword⟩
      · rintro ⟨p, hp, -, hword⟩
        rcases hasNamedPart_iff.mp hp with rfl | ⟨c, hc, -⟩
        · exact hword
        · exact absurd hc List.not_mem_nil
    · have hchild {c : SyntaxTree} (hc : c ∈ (SyntaxTree.node l cs).namedChildren) :
          namesKeyword c = true ↔
            ∃ p, HasNamedPart c p ∧ p.kind = "identifier" ∧ p.text ∈ hardKeywords := by
        refine ih c (List.mem_filter.mp hc).1 fun p hp => htoken p ⟨?_, hp.kind⟩
        exact (hasPart_of_mem_namedChildren hc).trans hp.part
      rw [namesKeyword_of_kind_ne hkind, List.any_eq_true]
      constructor
      · rintro ⟨c, hc, hgate⟩
        obtain ⟨p, hp, hname⟩ := (hchild hc).mp hgate
        exact ⟨p, .head hc hp, hname⟩
      · rintro ⟨p, hp, hname, hword⟩
        rcases hasNamedPart_iff.mp hp with rfl | ⟨c, hc, hp⟩
        · exact absurd hname hkind
        · exact ⟨c, hc, (hchild hc).mpr ⟨p, hp, hname, hword⟩⟩

/-- No name in a tree that passes the gate is a keyword. -/
theorem TellsNames.not_mem_hardKeywords (h : TellsNames t) (hgate : namesKeyword t = false)
    (hp : IsName t p) : p.text ∉ hardKeywords := by
  intro hword
  rw [← Bool.not_eq_true, namesKeyword_eq_true_iff h.token] at hgate
  exact hgate ⟨p, h.named p hp, hp.kind, hword⟩

/-! ## Chains of attributes -/

/-- The segments of a chain are names in the tree. -/
theorem exists_name_of_nameChain (h : TellsNames t) (hn : t.HasPart n) {segments : List String}
    (hchain : NameChain n segments) : ∀ s ∈ segments, ∃ p, IsName t p ∧ p.text = s := by
  induction hchain with
  | @name n hkind =>
    intro s hs
    exact ⟨n, ⟨hn, hkind⟩, (List.mem_singleton.mp hs).symm⟩
  | @link n base last segments hkind hlast hbase _ ih =>
    intro s hs
    rcases List.mem_append.mp hs with hs | hs
    · exact ih (hn.trans (hasPart_of_childIn? hbase)) s hs
    · rw [List.mem_singleton.mp hs]
      exact ⟨last, ⟨hn.trans (hasPart_of_childIn? hlast), h.last n last hn hkind hlast⟩, rfl⟩

/-- A chain has a segment. -/
theorem NameChain.ne_nil {segments : List String} (h : NameChain n segments) : segments ≠ [] := by
  cases h with
  | name => exact List.cons_ne_nil _ _
  | link => exact List.append_ne_nil_of_right_ne_nil _ (List.cons_ne_nil _ _)

/-- The names that a tree reads are made of names in it, joined by points. -/
theorem exists_names_of_mem_namesRead (h : TellsNames t) {name : String}
    (hname : name ∈ namesRead t) :
    ∃ segments, segments ≠ [] ∧ name = ".".intercalate segments ∧
      ∀ s ∈ segments, ∃ p, IsName t p ∧ p.text = s := by
  rw [namesRead, Ascending.mem_ofList, mem_allReads_iff] at hname
  obtain ⟨n, hn, hown⟩ := hname
  obtain ⟨segments, hchain, rfl⟩ := ownName?_eq_some_iff.mp hown
  exact ⟨segments, hchain.ne_nil, rfl, exists_name_of_nameChain h hn.hasPart hchain⟩

/-! ## Words -/

/-- What stands in a text that has a separator, and does not have it itself, stands on one side of
it. -/
theorem before_or_after_of_append {before word after text body : List Char} {c : Char}
    (h : text ++ c :: body = before ++ word ++ after) (hc : c ∉ word) :
    (∃ rest, text = before ++ word ++ rest ∧ after = rest ++ c :: body) ∨
      ∃ first, before = text ++ c :: first ∧ body = first ++ word ++ after := by
  rcases List.append_eq_append_iff.mp h with ⟨rest, hword, hbody⟩ | hrest
  · cases rest with
    | nil => exact .inl ⟨[], by rw [hword, List.append_nil, List.append_nil], hbody.symm⟩
    | cons d rest =>
      -- it ends behind the separator, so it begins there, too
      obtain ⟨rfl, hrest'⟩ : c = d ∧ body = rest ++ after := List.cons.inj hbody
      rcases List.append_eq_append_iff.mp hword with ⟨more, -, rfl⟩ | ⟨first, hbefore, hrest⟩
      · exact absurd (List.mem_append_right _ List.mem_cons_self) hc
      cases first with
      | nil =>
        rw [List.nil_append] at hrest
        exact absurd (hrest ▸ List.mem_cons_self) hc
      | cons d first =>
        obtain ⟨rfl, rfl⟩ : c = d ∧ rest = first ++ word := List.cons.inj hrest
        exact .inr ⟨first, hbefore, hrest'⟩
  · exact .inl hrest

/-- A word stands in a text if it is there with no letter next to it. -/
def StandsIn (word text : List Char) : Prop :=
  ∃ before after, text = before ++ word ++ after ∧
    (∀ c ∈ before.getLast?, c.isAlpha = false) ∧ ∀ c ∈ after.head?, c.isAlpha = false

/-- A piece of a row of letters with no letter next to it is the whole row. -/
theorem eq_of_append_letters {letters before word after : List Char}
    (hletters : ∀ c ∈ letters, c.isAlpha = true) (h : letters = before ++ word ++ after)
    (hbefore : ∀ c ∈ before.getLast?, c.isAlpha = false)
    (hafter : ∀ c ∈ after.head?, c.isAlpha = false) : word = letters := by
  have hmem {c : Char} (hc : c ∈ before ∨ c ∈ after) : c.isAlpha = true := by
    refine hletters c ?_
    rw [h, List.append_assoc, List.mem_append, List.mem_append]
    exact hc.imp_right .inr
  have hnone : before = [] := by
    rw [← List.getLast?_eq_none_iff, Option.eq_none_iff_forall_ne_some]
    intro c hc
    exact absurd (hmem (.inl (List.mem_of_getLast? hc))) (by rw [hbefore c hc]; decide)
  have hnone' : after = [] := by
    rw [← List.head?_eq_none_iff, Option.eq_none_iff_forall_ne_some]
    intro c hc
    exact absurd (hmem (.inr (List.mem_of_head? hc))) (by rw [hafter c hc]; decide)
  rw [h, hnone, hnone', List.nil_append, List.append_nil]

/-- The only word of the body that a block header gets is `pass`. -/
theorem StandsIn.of_append_body {word text : List Char}
    (h : StandsIn word (text ++ ' ' :: "pass".toList)) (hblank : ' ' ∉ word)
    (hword : word ≠ "pass".toList) : StandsIn word text := by
  obtain ⟨before, after, htext, hbefore, hafter⟩ := h
  rcases before_or_after_of_append htext hblank with ⟨rest, hword', rfl⟩ | ⟨first, rfl, hbody⟩
  · refine ⟨before, rest, hword', hbefore, ?_⟩
    intro c hc
    refine hafter c ?_
    rw [List.head?_append, Option.mem_def.mp hc]
    rfl
  · have hletters : ∀ c ∈ "pass".toList, c.isAlpha = true := List.all_eq_true.mp (by decide)
    refine absurd (eq_of_append_letters hletters hbody ?_ hafter) hword
    intro c hc
    refine hbefore c ?_
    rw [List.getLast?_append, List.getLast?_cons, Option.mem_def.mp hc]
    rfl

/-- What stands in a text stands there anyway, whatever is next to it. -/
theorem StandsIn.isInfix {word text : List Char} (h : StandsIn word text) : word <:+: text := by
  obtain ⟨before, after, htext, -⟩ := h
  exact ⟨before, after, htext.symm⟩

/-- A block header is parsed with a body behind it, and any other line as it is. -/
theorem toList_completed {line : String} (h : NoBlankEnds line.toList) :
    (completed line).toList = line.toList ∨
      (completed line).toList = line.toList ++ ' ' :: "pass".toList := by
  rw [completed, trimEnd_eq_self h.last]
  split
  · exact .inr String.toList_ofList
  · exact .inl rfl

/-- The text of a name in the tree of a line, as the plan asks for it. -/
structure NameSegment (t : SyntaxTree) (line segment : String) : Prop where
  name : ∃ p, IsName t p ∧ p.text = segment
  not_keyword : segment ∉ hardKeywords
  plain : ∀ c ∈ segment.toList, c ≠ '.' ∧ isBlank c = false
  /-- If it is a word of the completed line, it is one of the line. -/
  standsIn : StandsIn segment.toList (completed line).toList → StandsIn segment.toList line.toList
  /-- It is part of the line, unless the parser took less than a word from the body. -/
  isInfix : segment.toList <:+: line.toList ∨
    segment.toList <:+: "pass".toList ∧ ¬ StandsIn segment.toList (completed line).toList

/-- Words of a completed line that are not the body's are words of the line. -/
theorem StandsIn.of_completed {line word : String} (hline : NoBlankEnds line.toList)
    (hblank : ' ' ∉ word.toList) (hword : word ≠ "pass")
    (h : StandsIn word.toList (completed line).toList) : StandsIn word.toList line.toList := by
  rcases toList_completed hline with hform | hform
  · rwa [hform] at h
  · rw [hform] at h
    exact h.of_append_body hblank fun hpass => hword (String.toList_injective hpass)

/-- Parts of a completed line without blanks are parts of the line or of the body. -/
theorem isInfix_or_of_completed {line word : String} (hline : NoBlankEnds line.toList)
    (hblank : ' ' ∉ word.toList) (h : word.toList <:+: (completed line).toList) :
    word.toList <:+: line.toList ∨ word.toList <:+: "pass".toList := by
  rcases toList_completed hline with hform | hform
  · exact .inl (hform ▸ h)
  · obtain ⟨before, after, htext⟩ := h
    rw [hform] at htext
    rcases before_or_after_of_append htext.symm hblank with ⟨rest, hrest, -⟩ | ⟨first, -, hbody⟩
    · exact .inl ⟨before, rest, hrest.symm⟩
    · exact .inr ⟨first, after, hbody.symm⟩

/-- The texts of names in the clean tree of a line are as the plan asks for them. -/
theorem nameSegment_of_isName (hslices : parse.Slices) {line : String}
    (hline : NoBlankEnds line.toList) (ht : parse (completed line) = some t)
    (hnames : TellsNames t) (hgate : namesKeyword t = false) (hp : IsName t p) :
    NameSegment t line p.text := by
  have hkeyword : p.text ∉ hardKeywords := hnames.not_mem_hardKeywords hgate hp
  have hblank : ' ' ∉ p.text.toList := fun hblank =>
    absurd (hnames.plain p hp _ hblank).2 (by decide)
  have hword (h : StandsIn p.text.toList (completed line).toList) :
      StandsIn p.text.toList line.toList :=
    h.of_completed hline hblank fun hpass => hkeyword (by rw [hpass]; decide)
  refine ⟨⟨p, hp, rfl⟩, hkeyword, hnames.plain p hp, hword, ?_⟩
  rcases isInfix_or_of_completed hline hblank (hslices _ t ht p hp.part) with h | h
  · exact .inl h
  · by_cases hstands : StandsIn p.text.toList (completed line).toList
    · exact .inl (hword hstands).isInfix
    · exact .inr ⟨h, hstands⟩

/-- What reads something has a clean tree, which reads the same. -/
theorem exists_cleanTree_of_reads_ne_nil {line : String} (h : reads parse line ≠ []) :
    ∃ t, cleanTree? parse line = some t ∧ reads parse line = namesRead t := by
  rw [reads] at h ⊢
  cases hclean : cleanTree? parse line with
  | none => rw [hclean] at h; exact absurd rfl h
  | some t => exact ⟨t, rfl, rfl⟩

/-- Names are read in the order of their bytes. -/
theorem namesRead_ascending (t : SyntaxTree) :
    (namesRead t).Pairwise fun a b => Utf8.ofString a < Utf8.ofString b :=
  (Ascending.ofList_ascending _).imp Utf8.ofString_lt_ofString_iff.mpr

/-- **A plan asks for names.** For each planned line there is something to ask for, in strictly
ascending order of bytes, and all of it is made of texts of names in the tree of the line, joined by
points, none of them a keyword. -/
theorem planned_names (hslices : parse.Slices) (hnames : parse.TellsNames) {source : String}
    {number : Nat} {planned : PlannedLine}
    (h : (LinePlan.ofSource parse source).get? number = some planned) :
    planned.names ≠ [] ∧
      (planned.names.Pairwise fun a b => Utf8.ofString a < Utf8.ofString b) ∧
      (∃ line, 1 ≤ number ∧ (lines source.toList)[number - 1]? = some line ∧
        planned.text = .ofList (trim line)) ∧
      ∃ t, parse (completed planned.text) = some t ∧
        ∀ name ∈ planned.names, ∃ segments, segments ≠ [] ∧ name = ".".intercalate segments ∧
          ∀ segment ∈ segments, NameSegment t planned.text segment := by
  obtain ⟨line, hpos, hline, hplanned⟩ := LinePlan.get?_ofSource_iff.mp h
  obtain ⟨htext, hreads⟩ := LinePlan.planLine?_eq_some hplanned
  obtain ⟨-, -, hne, -⟩ := LinePlan.planLine?_eq_some_iff.mp hplanned
  rw [← htext] at hreads
  obtain ⟨t, hclean, hread⟩ := exists_cleanTree_of_reads_ne_nil (hreads ▸ hne)
  rw [hread] at hreads
  rw [cleanTree?, Option.filter_eq_some_iff, Bool.and_eq_true, Bool.not_eq_true',
    Bool.not_eq_true'] at hclean
  obtain ⟨ht, herror, hgate⟩ := hclean
  have htells : TellsNames t := hnames _ t ht herror
  have hends : NoBlankEnds planned.text.toList := by
    rw [htext, String.toList_ofList]
    exact noBlankEnds_trim line
  refine ⟨hne, by rw [hreads]; exact namesRead_ascending t, ⟨line, hpos, hline, htext⟩, t, ht, ?_⟩
  intro name hname
  obtain ⟨segments, hsegments, hjoin, hparts⟩ := exists_names_of_mem_namesRead htells (hreads ▸ hname)
  refine ⟨segments, hsegments, hjoin, ?_⟩
  intro segment hsegment
  obtain ⟨p, hp, rfl⟩ := hparts segment hsegment
  exact nameSegment_of_isName hslices hends ht htells hgate hp

/-- The names in the tree of the program `y = x`. -/
theorem isName_assignmentTree (hp : IsName assignmentTree p) :
    p = assignmentNode "identifier" "y" 0 1 ["left"] [] ∨
      p = assignmentNode "identifier" "x" 4 5 ["right"] [] := by
  obtain ⟨hpart, hkind⟩ := hp
  rcases hasPart_assignmentTree hpart with rfl | rfl | rfl | rfl | rfl | rfl
  · exact absurd hkind (by decide)
  · exact absurd hkind (by decide)
  · exact absurd hkind (by decide)
  · exact .inl rfl
  · exact absurd hkind (by decide)
  · exact .inr rfl

/-- Its parser tells them. -/
theorem tellsNames_assignmentParser : assignmentParser.TellsNames := by
  intro text t ht _
  rw [assignmentParser] at ht
  split at ht
  · obtain rfl := Option.some.inj ht
    -- all that is named in it is two steps below its root
    have hnamed {c : SyntaxTree} (hc : c ∈ assignmentParts.filter isNamed) :
        HasNamedPart assignmentTree c :=
      .head List.mem_cons_self (.head List.mem_cons_self (.single hc))
    constructor
    · intro p hp
      rcases isName_assignmentTree hp with rfl | rfl
      · exact hnamed List.mem_cons_self
      · exact hnamed (List.mem_cons_of_mem _ List.mem_cons_self)
    · intro p hp
      rcases isName_assignmentTree hp with rfl | rfl
      · rfl
      · rfl
    · intro n p hn hkind hp
      rcases hasPart_assignmentTree hn with rfl | rfl | rfl | rfl | rfl | rfl <;>
        exact absurd hkind (by decide)
    · intro p hp c hc
      rcases isName_assignmentTree hp with rfl | rfl
      · rw [List.mem_singleton.mp (show c ∈ ['y'] from hc)]
        decide
      · rw [List.mem_singleton.mp (show c ∈ ['x'] from hc)]
        decide
  · exact absurd ht (by simp)

/-- The plan of that program asks for `x`, which is the text of a name in it and no keyword. -/
theorem planned_names_assignment :
    ∃ planned, (LinePlan.ofSource assignmentParser "y = x").get? 1 = some planned ∧
      planned.names = ["x"] ∧ ∃ t, assignmentParser (completed planned.text) = some t ∧
        ∀ name ∈ planned.names, ∃ segments, segments ≠ [] ∧ name = ".".intercalate segments ∧
          ∀ segment ∈ segments, NameSegment t planned.text segment := by
  have hplanned : (LinePlan.ofSource assignmentParser "y = x").get? 1 = some ⟨"y = x", ["x"]⟩ := by
    rw [ofSource_assignmentParser]
    rfl
  obtain ⟨-, -, -, hnames⟩ :=
    planned_names slices_assignmentParser tellsNames_assignmentParser hplanned
  exact ⟨_, hplanned, rfl, hnames⟩

end Postmortem.Line
