import Mathlib.Data.List.Induction
import Postmortem.Proofs.Files.Store
import Postmortem.Proofs.Text.Lines

/-!
# Paths part by part

A path is taken apart into components, of which only some are names: empty parts and points count
for nothing, two points lead up, and a slash in front leads to the root. The parent of a path lacks
the last component. Adding names to a path adds just those components, and the path then leads to a
place below the one it led to before.
-/

namespace Postmortem

namespace Path

/-! ## Components -/

/-- What a path consists of. -/
inductive Component where
  | root
  | current
  | parent
  | normal (name : String)
deriving DecidableEq, Repr

/-- The component that a part of a path is, if it is one. -/
def component? (part : String) : Option Component :=
  if part == "" || part == "." then none
  else if part == ".." then some .parent
  else some (.normal part)

/-- The components of a path. A point is one only at the beginning. -/
def components (path : String) : List Component :=
  (if isAbsolute path then [.root]
    else if (parts path).head? == some "." then [.current]
    else []) ++ (parts path).filterMap component?

/-- A path followed by another one. An absolute one takes its place. -/
def push (path other : String) : String := if isAbsolute other then other else join path other

/-- A path with another extension of its last name. Without a name at the end it has none. -/
def withExtension (path extension : String) : String :=
  match (parts path).reverse.dropWhile (fun part => part == "" || part == ".") with
  | [] => path
  | name :: above =>
    if name == ".." then path
    else "/".intercalate (above.reverse ++ [stem name ++ "." ++ extension])

/-- Whether a part of a path is a name. -/
structure IsName (name : String) : Prop where
  ne_empty : name ≠ ""
  ne_point : name ≠ "."
  ne_points : name ≠ ".."
  slash : '/' ∉ name.toList

theorem IsName.component?_eq {name : String} (h : IsName name) :
    component? name = some (.normal name) := by
  simp [component?, h.ne_empty, h.ne_point, h.ne_points]

/-! ## Parts -/

/-- A slash divides the parts before it from those after it. -/
theorem parts_slash {path : String} {cs ds : List Char} (h : path.toList = cs ++ '/' :: ds) :
    parts path = parts (.ofList cs) ++ parts (.ofList ds) := by
  simp only [parts, h, String.toList_ofList, Text.splitAt_append_cons, List.map_append]

/-- Without a slash there is one part. -/
theorem parts_eq_singleton {name : String} (h : '/' ∉ name.toList) : parts name = [name] := by
  rw [parts, Text.splitAt_eq_splitOn, List.splitOn_eq_singleton h, List.map_singleton,
    String.ofList_toList]

theorem parts_ne_nil (path : String) : parts path ≠ [] := by
  rw [parts, Text.splitAt_eq_splitOn, ne_eq, List.map_eq_nil_iff]
  exact List.splitOn_ne_nil '/' path.toList

/-- The parts with slashes between them are the path. -/
theorem intercalate_parts (path : String) : "/".intercalate (parts path) = path := by
  rw [← String.toList_inj, String.toList_intercalate, parts, List.map_map, Text.splitAt_eq_splitOn]
  have hsame : (String.toList ∘ String.ofList) = id := funext fun cs => String.toList_ofList
  rw [hsame, List.map_id]
  exact List.intercalate_splitOn '/'

/-- **A name that is joined to a path is a part more**, whether the path has a slash at its end or
not. -/
theorem exists_parts_join (path : String) :
    ∃ above, (parts path = above ∨ parts path = above ++ [""]) ∧
      ∀ name : String, '/' ∉ name.toList → parts (join path name) = above ++ [name] := by
  cases hlast : path.toList.getLast? with
  | none =>
    have hnone : path = "" := by
      rw [← String.toList_inj]
      exact List.getLast?_eq_none_iff.mp hlast
    subst hnone
    refine ⟨[], .inr rfl, fun name hname => ?_⟩
    rw [join, hlast]
    exact parts_eq_singleton hname
  | some c =>
    obtain ⟨cs, hcs⟩ := List.getLast?_eq_some_iff.mp hlast
    by_cases hc : c = '/'
    · subst hc
      have hpath : parts path = parts (.ofList cs) ++ [""] := parts_slash hcs
      refine ⟨parts (.ofList cs), .inr hpath, fun name hname => ?_⟩
      have hjoin : (join path name).toList = cs ++ '/' :: name.toList := by
        rw [join, hlast]
        show (path ++ name).toList = _
        rw [String.toList_append, hcs, List.append_assoc]
        rfl
      rw [parts_slash hjoin, String.ofList_toList, parts_eq_singleton hname]
    · refine ⟨parts path, .inl rfl, fun name hname => ?_⟩
      have hjoin : (join path name).toList = path.toList ++ '/' :: name.toList := by
        rw [join, hlast]
        split
        · rename_i heq
          cases heq
        · rename_i heq
          exact absurd (Option.some_inj.mp heq) hc
        · rw [String.toList_append, String.toList_append, List.append_assoc]
          rfl
      rw [parts_slash hjoin, String.ofList_toList, String.ofList_toList, parts_eq_singleton hname]

/-- More behind a name that is joined is more behind the path. -/
theorem join_append (path name more : String) :
    join path (name ++ more) = join path name ++ more := by
  simp only [join]
  split
  · rfl
  · rw [String.append_assoc]
  · simp only [String.append_assoc]

/-- No part has a slash in it. -/
theorem slash_not_mem_of_mem_parts {path part : String} (h : part ∈ parts path) :
    '/' ∉ part.toList := by
  obtain ⟨cs, hcs, rfl⟩ := List.mem_map.mp h
  rw [String.toList_ofList]
  exact Text.not_mem_of_mem_splitAt hcs

/-- Parts without slashes are those of the path that they make up. -/
theorem parts_intercalate {ps : List String} (hsome : ps ≠ [])
    (hslash : ∀ p ∈ ps, '/' ∉ p.toList) : parts ("/".intercalate ps) = ps := by
  have hparts : ∀ cs ∈ ps.map String.toList, '/' ∉ cs := by
    intro cs hcs
    obtain ⟨p, hp, rfl⟩ := List.mem_map.mp hcs
    exact hslash p hp
  have hsplit : ("/".intercalate ps).toList.splitOn '/' = ps.map String.toList := by
    rw [String.toList_intercalate]
    exact List.splitOn_intercalate '/' hparts (by simpa using hsome)
  rw [parts, Text.splitAt_eq_splitOn, hsplit, List.map_map]
  simp [Function.comp_def]

/-! ## Parents -/

theorem isAbsolute_of_parts {path first : String} {rest : List String}
    (h : parts path = first :: rest) : isAbsolute path = (first == "" && !rest.isEmpty) := by
  have hslash : '/' ∉ first.toList :=
    slash_not_mem_of_mem_parts (by rw [h]; exact List.mem_cons_self)
  have hpath : path = "/".intercalate (first :: rest) := by rw [← h, intercalate_parts]
  rw [isAbsolute, hpath, String.toList_intercalate, List.map_cons]
  cases hfirst : first.toList with
  | nil =>
    rw [String.toList_inj.mp (hfirst.trans String.toList_empty.symm)]
    cases rest <;> rfl
  | cons c cs =>
    have hempty : (first == "") = false := by
      rw [beq_eq_false_iff_ne, ne_eq, ← String.toList_inj, hfirst]
      exact List.cons_ne_nil c cs
    have hc : c ≠ '/' := fun heq => hslash (by rw [hfirst, heq]; exact List.mem_cons_self)
    rw [hempty]
    cases rest <;> simpa [List.intercalate] using hc

/-- The components of a path, told from its first part and the rest. -/
theorem components_of_parts {path first : String} {rest : List String}
    (h : parts path = first :: rest) :
    components path =
      (if (first == "" && !rest.isEmpty) = true then [.root]
        else if first == "." then [.current]
        else []) ++ (first :: rest).filterMap component? := by
  rw [components, isAbsolute_of_parts h, h, List.head?_cons]
  rfl

theorem component?_of_idle {part : String} (h : isIdle part = true) : component? part = none :=
  if_pos h

/-- A part that leads somewhere is a component, and none is the root. -/
theorem exists_component?_of_not_idle {part : String} (h : isIdle part = false) :
    ∃ c, component? part = some c ∧ c ≠ .root := by
  rw [isIdle] at h
  rw [component?, h, if_neg Bool.false_ne_true]
  split
  · exact ⟨.parent, rfl, by decide⟩
  · exact ⟨.normal part, rfl, Component.noConfusion⟩

/-- Dropping parts that lead nowhere drops no component. -/
theorem filterMap_component?_dropWhile (ps : List String) :
    (ps.dropWhile isIdle).reverse.filterMap component? = ps.reverse.filterMap component? := by
  induction ps with
  | nil => rfl
  | cons p ps ih =>
    rw [List.dropWhile_cons]
    split
    · rename_i hidle
      rw [ih, List.reverse_cons, List.filterMap_append]
      simp [component?_of_idle hidle]
    · rfl

/-- What the parent of a path is, told from its first part and the rest. -/
theorem parent?_cases {path first : String} {rest : List String}
    (h : parts path = first :: rest) :
    (rest.filterMap component? = [] ∧ parent? path = if first = "" then none else some "") ∨
      ∃ before last, last ≠ .root ∧ rest ≠ [] ∧ before ⊆ rest ∧
        rest.filterMap component? = before.filterMap component? ++ [last] ∧
        parent? path =
          some (if first = "" ∧ before = [] then "/" else "/".intercalate (first :: before)) := by
  have hrest := filterMap_component?_dropWhile rest.reverse
  rw [List.reverse_reverse] at hrest
  rw [parent?, h]
  cases htrimmed : rest.reverse.dropWhile isIdle with
  | nil =>
    rw [htrimmed] at hrest
    exact .inl ⟨hrest.symm, by simp only [htrimmed, beq_iff_eq]⟩
  | cons part above =>
    have hpart : part ∈ rest :=
      List.mem_reverse.mp ((List.dropWhile_sublist _).mem (htrimmed ▸ List.mem_cons_self))
    have hidle : isIdle part = false := by
      have hhead := List.head?_dropWhile_not isIdle rest.reverse
      rw [htrimmed] at hhead
      simpa using hhead
    obtain ⟨last, hlast, hroot⟩ := exists_component?_of_not_idle hidle
    refine .inr ⟨(above.dropWhile isIdle).reverse, last, hroot, List.ne_nil_of_mem hpart, ?_, ?_,
      ?_⟩
    · intro p hp
      have hp := (List.dropWhile_sublist _).mem (List.mem_reverse.mp hp)
      have hp := (List.dropWhile_sublist _).mem (htrimmed ▸ List.mem_cons_of_mem part hp)
      exact List.mem_reverse.mp hp
    · rw [← hrest, htrimmed, filterMap_component?_dropWhile, List.reverse_cons,
        List.filterMap_append]
      simp [hlast]
    · simp only [htrimmed, Bool.and_eq_true, beq_iff_eq, List.isEmpty_iff]
      exact (apply_ite some _ _ _).symm

/-- **The parent of a path lacks its last component**, which is not the root, and no other. -/
theorem components_parent {path parent : String} (h : parent? path = some parent) :
    ∃ last, last ≠ .root ∧ components path = components parent ++ [last] := by
  obtain ⟨first, rest, hparts⟩ := List.exists_cons_of_ne_nil (parts_ne_nil path)
  rw [components_of_parts hparts, List.filterMap_cons]
  obtain ⟨hrest, hparent⟩ | ⟨before, last, hroot, hsome, hbefore, hrest, hparent⟩ :=
    parent?_cases hparts
  · -- the first part is the only component
    rw [hparent] at h
    by_cases hempty : first = ""
    · rw [if_pos hempty] at h
      cases h
    · rw [if_neg hempty] at h
      obtain rfl := Option.some_inj.mp h
      have hnone : components "" = [] := rfl
      rw [hrest, hnone]
      by_cases hpoint : first = "."
      · exact ⟨.current, by decide, by simp [hpoint, component?]⟩
      · have hidle : isIdle first = false := by simp [isIdle, hempty, hpoint]
        obtain ⟨c, hc, hroot⟩ := exists_component?_of_not_idle hidle
        exact ⟨c, hroot, by simp [hempty, hpoint, hc]⟩
  · refine ⟨last, hroot, ?_⟩
    obtain rfl := Option.some_inj.mp (hparent.symm.trans h)
    by_cases hbelow : first = "" ∧ before = []
    · -- right below the root
      have hslash : components "/" = [.root] := rfl
      rw [if_pos hbelow, hslash, hrest, hbelow.1, hbelow.2]
      simp [hsome, component?]
    · have hjoined : parts ("/".intercalate (first :: before)) = first :: before := by
        refine parts_intercalate (List.cons_ne_nil _ _) fun p hp => ?_
        have hmem : p ∈ parts path := by
          rw [hparts]
          exact List.cons_subset_cons first hbefore hp
        exact slash_not_mem_of_mem_parts hmem
      rw [if_neg hbelow, components_of_parts hjoined, List.filterMap_cons, hrest]
      by_cases hempty : first = ""
      · have hlong : before ≠ [] := fun hnil => hbelow ⟨hempty, hnil⟩
        simp [hempty, hsome, hlong, component?]
      · cases hfirst : component? first with
        | none => simp [hempty]
        | some c => simp [hempty]

/-- **Only a root, and a path without components, has no parent.** -/
theorem parent?_eq_none_iff {path : String} :
    parent? path = none ↔ components path = [] ∨ components path = [.root] := by
  constructor
  · intro h
    obtain ⟨first, rest, hparts⟩ := List.exists_cons_of_ne_nil (parts_ne_nil path)
    obtain ⟨hrest, hparent⟩ | ⟨before, last, -, -, -, -, hparent⟩ := parent?_cases hparts
    · have hempty : first = "" := by
        by_contra hempty
        rw [hparent, if_neg hempty] at h
        cases h
      rw [components_of_parts hparts, List.filterMap_cons, hrest, hempty]
      cases rest with
      | nil => exact .inl rfl
      | cons _ _ => exact .inr rfl
    · rw [hparent] at h
      cases h
  · intro h
    cases hparent : parent? path with
    | none => rfl
    | some parent =>
      obtain ⟨last, hroot, hcomponents⟩ := components_parent hparent
      rw [hcomponents] at h
      rcases h with h | h
      · exact absurd h (List.append_ne_nil_of_right_ne_nil _ (List.cons_ne_nil _ _))
      · have hlast := congrArg List.getLast? h
        rw [List.getLast?_concat] at hlast
        exact absurd (Option.some_inj.mp hlast) hroot

example : parent? "solution.py" = some "" := rfl

example : parent? "/a//./b.py/" = some "/a" := rfl

/-! ## Names behind a path -/

theorem IsName.isAbsolute_eq {name : String} (h : IsName name) : isAbsolute name = false := by
  rw [isAbsolute, beq_eq_false_iff_ne]
  intro hhead
  exact h.slash (List.mem_of_head? hhead)

theorem isAbsolute_join {path name : String} (h : IsName name) :
    isAbsolute (join path name) = isAbsolute path := by
  cases hpath : path.toList with
  | nil =>
    have hnone : path = "" := String.toList_inj.mp hpath
    subst hnone
    exact h.isAbsolute_eq
  | cons c cs =>
    have hhead (more : String) : isAbsolute (path ++ more) = isAbsolute path := by
      rw [isAbsolute, isAbsolute, String.toList_append, hpath]
      rfl
    rw [join]
    split
    · rename_i hlast
      rw [hpath] at hlast
      simp at hlast
    · exact hhead name
    · rw [String.append_assoc]
      exact hhead _

/-- **A name that is joined to a path is a component more.** -/
theorem components_join {path name : String} (h : IsName name) :
    components (join path name) = components path ++ [.normal name] := by
  obtain ⟨above, hpath, hjoin⟩ := exists_parts_join path
  have hname : component? name = some (.normal name) := h.component?_eq
  have hempty : component? "" = none := rfl
  have hfirst : ((above ++ [name]).head? == some ".") = ((parts path).head? == some ".") := by
    cases above with
    | nil =>
      rcases hpath with hnil | hnil
      · exact absurd hnil (parts_ne_nil path)
      · rw [hnil]
        simpa using h.ne_point
    | cons a above => rcases hpath with heq | heq <;> rw [heq] <;> rfl
  rw [components, components, isAbsolute_join h, hjoin name h.slash, hfirst]
  rcases hpath with heq | heq <;> rw [heq] <;> simp [hname, hempty]

/-- The path to which names lead from a root. -/
def under (root : String) (names : List String) : String := names.foldl join root

/-- Pushing names is joining them, for none is absolute. -/
theorem foldl_push_eq_under {names : List String} (h : ∀ name ∈ names, IsName name)
    (root : String) :
    names.foldl push root = under root names := by
  induction names generalizing root with
  | nil => rfl
  | cons name names ih =>
    have hname := h name List.mem_cons_self
    rw [List.foldl_cons, push, hname.isAbsolute_eq, if_neg Bool.false_ne_true,
      ih fun n hn => h n (List.mem_cons_of_mem _ hn)]
    rfl

theorem isAbsolute_under {names : List String} (h : ∀ name ∈ names, IsName name) (root : String) :
    isAbsolute (under root names) = isAbsolute root := by
  induction names generalizing root with
  | nil => rfl
  | cons name names ih =>
    have hrest := ih (fun n hn => h n (List.mem_cons_of_mem _ hn)) (join root name)
    rwa [isAbsolute_join (h name List.mem_cons_self)] at hrest

/-- **Names behind a root are its last components**, and no other component is added. -/
theorem components_under {names : List String} (h : ∀ name ∈ names, IsName name) (root : String) :
    components (under root names) = components root ++ names.map .normal := by
  induction names generalizing root with
  | nil => simp [under]
  | cons name names ih =>
    have hrest := ih (fun n hn => h n (List.mem_cons_of_mem _ hn)) (join root name)
    rw [components_join (h name List.mem_cons_self)] at hrest
    simpa [under] using hrest

theorem under_concat (root : String) (names : List String) (name : String) :
    under root (names ++ [name]) = join (under root names) name := by
  rw [under, List.foldl_append]
  rfl

/-- The parts of a root and of the names behind it. -/
theorem exists_parts_under (root : String) :
    ∃ above, (parts root = above ∨ parts root = above ++ [""]) ∧
      ∀ names, (∀ name ∈ names, IsName name) → names ≠ [] →
        parts (under root names) = above ++ names := by
  obtain ⟨above, hroot, hjoin⟩ := exists_parts_join root
  refine ⟨above, hroot, fun names hnames hsome => ?_⟩
  induction names using List.reverseRecOn with
  | nil => exact absurd rfl hsome
  | append_singleton names name ih =>
    have hname := hnames name (by simp)
    have hbefore : ∀ n ∈ names, IsName n := fun n hn => hnames n (List.mem_append_left _ hn)
    rw [under_concat]
    cases names with
    | nil => exact hjoin name hname.slash
    | cons first names =>
      have hparts := ih hbefore (List.cons_ne_nil _ _)
      obtain ⟨before, hunder, hnext⟩ := exists_parts_join (under root (first :: names))
      rw [hnext name hname.slash]
      rcases hunder with heq | heq
      · rw [← heq, hparts, List.append_assoc]
      · -- the last part is a name, so there is no slash at the end
        have hlast := congrArg List.getLast? (hparts.symm.trans heq)
        rw [List.getLast?_concat, List.getLast?_append,
          List.getLast?_eq_some_getLast (List.cons_ne_nil _ _), Option.some_or,
          Option.some_inj] at hlast
        exact absurd rfl (hbefore "" (hlast ▸ List.getLast_mem _)).ne_empty

/-- **An extension is put behind a name that has none.** -/
theorem withExtension_join {path name extension : String} (h : IsName name)
    (hpoint : '.' ∉ name.toList) (hslash : '/' ∉ extension.toList) :
    withExtension (join path name) extension = join path name ++ ("." ++ extension) := by
  obtain ⟨above, -, hjoin⟩ := exists_parts_join path
  have hstem : stem name = name := by
    have hnone : name.toList.reverse.dropWhile (· != '.') = [] := by
      rw [← List.append_nil name.toList.reverse, List.dropWhile_append_of_pos]
      · rfl
      · intro c hc
        have hne : c ≠ '.' := fun heq => hpoint (heq ▸ List.mem_reverse.mp hc)
        simpa using hne
    rw [stem, hnone]
  have hmore : '/' ∉ (name ++ ("." ++ extension)).toList := by
    simp only [String.toList_append, List.mem_append, not_or]
    exact ⟨h.slash, by decide, hslash⟩
  have hstop : ((above ++ [name]).reverse.dropWhile fun part => part == "" || part == ".") =
      name :: above.reverse := by
    rw [List.reverse_append, List.reverse_singleton, List.singleton_append,
      List.dropWhile_cons_of_neg]
    simp [h.ne_empty, h.ne_point]
  rw [withExtension, hjoin name h.slash, hstop]
  dsimp only
  rw [if_neg (by simpa using h.ne_points), List.reverse_reverse, hstem, String.append_assoc,
    ← hjoin _ hmore, intercalate_parts, join_append]

theorem withExtension_under {above : List String} {name extension : String} (h : IsName name)
    (hpoint : '.' ∉ name.toList) (hslash : '/' ∉ extension.toList) {root : String} :
    withExtension (under root (above ++ [name])) extension =
      under root (above ++ [name ++ ("." ++ extension)]) := by
  rw [under_concat, under_concat, withExtension_join h hpoint hslash, join_append]

end Path

/-! ## Ways to names -/

namespace FileStore

/-- A way through some parts and then others has a place between. -/
theorem walk_append_iff {s : FileStore} {place target : List String} {front back : List String} :
    s.walk place (front ++ back) = .ok target ↔
      ∃ middle, s.walk place front = .ok middle ∧ s.walk middle back = .ok target := by
  induction front generalizing place with
  | nil => simp [walk]
  | cons part front ih =>
    rw [List.cons_append, walk_cons_iff, ih]
    simp only [walk_cons_iff, and_assoc, exists_and_left]

/-- Names lead down. -/
theorem walk_names {s : FileStore} {names : List String} (h : ∀ name ∈ names, Path.IsName name)
    {place target : List String} (hwalk : s.walk place names = .ok target) :
    target = names.reverse ++ place := by
  induction names generalizing place with
  | nil =>
    rw [walk] at hwalk
    cases hwalk
    rfl
  | cons name names ih =>
    have hname := h name List.mem_cons_self
    obtain ⟨-, hrest⟩ := walk_cons_iff.mp hwalk
    have hnext : next place name = name :: place := by
      simp [next, hname.ne_empty, hname.ne_point, hname.ne_points]
    rw [hnext] at hrest
    rw [ih (fun n hn => h n (List.mem_cons_of_mem _ hn)) hrest, List.reverse_cons,
      List.append_assoc]
    rfl

/-- **A path of names behind a root leads to a place below that of the root**, by just those names.
-/
theorem exists_base_of_locate_under {s : FileStore} {directory place : List String} {root : String}
    {names : List String} (h : ∀ name ∈ names, Path.IsName name) (hsome : names ≠ [])
    (hplace : s.locate directory (Path.under root names) = .ok place) :
    ∃ base, s.walk (if Path.isAbsolute root then [] else directory) (Path.parts root) = .ok base ∧
      place = names.reverse ++ base := by
  obtain ⟨above, hroot, hunder⟩ := Path.exists_parts_under root
  obtain ⟨-, -, hwalk⟩ := locate_eq_ok_iff.mp hplace
  rw [hunder names h hsome, Path.isAbsolute_under h] at hwalk
  obtain ⟨base, hbase, hnames⟩ := walk_append_iff.mp hwalk
  refine ⟨base, ?_, walk_names h hnames⟩
  rcases hroot with heq | heq
  · rw [heq]
    exact hbase
  · rw [heq, walk_append_iff]
    refine ⟨base, hbase, ?_⟩
    obtain ⟨name, names, rfl⟩ := List.exists_cons_of_ne_nil hsome
    exact walk_cons_iff.mpr ⟨(walk_cons_iff.mp hnames).1, rfl⟩

end FileStore

end Postmortem
