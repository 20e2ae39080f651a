import Postmortem.Proofs.Files.Path
import Postmortem.Proofs.Run.Totality

/-!
# Where modules are

A module is one or more segments with points between them, and its source is found by following them
from a root. No segment can be mistaken for another part of a path, so the source is below the root,
and no two modules have the same one. Main statement: `Target.modulePath_confined`.
-/

namespace Postmortem.Target

/-! ## Segments -/

/-- Whether a character is a letter or a digit of ASCII or an underscore. -/
def IsPlainChar (c : Char) : Prop :=
  ('a' ≤ c ∧ c ≤ 'z') ∨ ('A' ≤ c ∧ c ≤ 'Z') ∨ ('0' ≤ c ∧ c ≤ '9') ∨ c = '_'

/-- Whether a text is a segment: letters and digits of ASCII and underscores, at least one. -/
structure IsPlain (segment : String) : Prop where
  ne_empty : segment ≠ ""
  chars : ∀ c ∈ segment.toList, IsPlainChar c

theorem isSegmentChar_iff {c : Char} : isSegmentChar c = true ↔ IsPlainChar c := by
  have hle {a b : Char} : a ≤ b ↔ a.toNat ≤ b.toNat := UInt32.le_iff_toNat_le
  simp only [isSegmentChar, IsPlainChar, hle, Bool.or_eq_true, Bool.and_eq_true, decide_eq_true_eq,
    beq_iff_eq, or_assoc]

theorem isPlain_iff {segment : String} : IsPlain segment ↔ isSegment segment.toList = true := by
  have hempty : segment = "" ↔ segment.toList = [] := String.toList_eq_nil_iff.symm
  simp only [isSegment, Bool.and_eq_true, Bool.not_eq_true', List.isEmpty_eq_false_iff,
    List.all_eq_true, isSegmentChar_iff]
  exact ⟨fun h => ⟨mt hempty.mpr h.ne_empty, h.chars⟩, fun h => ⟨mt hempty.mp h.1, h.2⟩⟩

theorem IsPlain.not_mem {segment : String} (h : IsPlain segment) {c : Char}
    (hc : isSegmentChar c = false) : c ∉ segment.toList := by
  intro hmem
  rw [isSegmentChar_iff.mpr (h.chars c hmem)] at hc
  cases hc

/-- A segment is a name on a path. -/
theorem IsPlain.isName {segment : String} (h : IsPlain segment) : Path.IsName segment where
  ne_empty := h.ne_empty
  ne_point := fun heq => h.not_mem (c := '.') (by decide) (by simp [heq])
  ne_points := fun heq => h.not_mem (c := '.') (by decide) (by simp [heq])
  slash := h.not_mem (by decide)

/-- And so is one with the extension of sources. -/
theorem IsPlain.isName_source {segment : String} (h : IsPlain segment) :
    Path.IsName (segment ++ ".py") := by
  have hextension : (segment ++ ".py").toList = segment.toList ++ ['.', 'p', 'y'] :=
    String.toList_append
  have hne {text : String} (hchar : 'p' ∉ text.toList) : segment ++ ".py" ≠ text := by
    intro heq
    rw [← heq, hextension] at hchar
    exact hchar (by simp)
  refine ⟨hne (by decide), hne (by decide), hne (by decide), ?_⟩
  rw [hextension, List.mem_append, not_or]
  exact ⟨h.not_mem (by decide), by decide⟩

/-! ## Modules -/

/-- A module is divided into the segments that it was put together from. -/
theorem segments_intercalate {parts : List String} (h : ∀ part ∈ parts, IsPlain part)
    (hsome : parts ≠ []) :
    segments (".".intercalate parts).toList = parts.map String.toList := by
  have hpoint : ∀ cs ∈ parts.map String.toList, '.' ∉ cs := by
    intro cs hmem
    obtain ⟨part, hpart, rfl⟩ := List.mem_map.mp hmem
    exact (h part hpart).not_mem (by decide)
  rw [segments, Text.splitAt_eq_splitOn, String.toList_intercalate]
  exact List.splitOn_intercalate '.' hpoint (by simpa using hsome)

/-- The segments of a module put it together again. -/
theorem intercalate_segments (module : String) :
    ".".intercalate ((segments module.toList).map .ofList) = module := by
  have hsame : (String.toList ∘ String.ofList) = id := funext fun cs => String.toList_ofList
  rw [← String.toList_inj, String.toList_intercalate, List.map_map, hsame, List.map_id, segments,
    Text.splitAt_eq_splitOn]
  exact List.intercalate_splitOn '.'

/-- **Segments lead from the root to the source.** -/
theorem modulePath_intercalate {above : List String} {last : String}
    (h : ∀ segment ∈ above ++ [last], IsPlain segment) (root : String) :
    modulePath root (".".intercalate (above ++ [last])) =
      .ok (Path.under root (above ++ [last ++ ".py"])) := by
  have hall : ((above ++ [last]).map String.toList).all isSegment = true := by
    rw [List.all_eq_true]
    intro cs hmem
    obtain ⟨segment, hsegment, rfl⟩ := List.mem_map.mp hmem
    exact isPlain_iff.mp (h segment hsegment)
  rw [modulePath, segments_intercalate h (by simp), if_pos hall, List.foldl_map]
  simp only [String.ofList_toList]
  rw [← Path.under.eq_def, Path.under_concat, Path.under_concat, Path.join_append]
  rfl

/-- **A module has a source exactly if it is segments with points between them.** -/
theorem modulePath_eq_ok_iff {root module path : String} :
    modulePath root module = .ok path ↔
      ∃ above last, (∀ segment ∈ above ++ [last], IsPlain segment) ∧
        module = ".".intercalate (above ++ [last]) ∧
        path = Path.under root (above ++ [last ++ ".py"]) := by
  constructor
  · intro hok
    have hall : (segments module.toList).all isSegment = true := by
      by_contra hnot
      rw [modulePath, if_neg hnot] at hok
      cases hok
    have hsome : (segments module.toList).map String.ofList ≠ [] := by
      rw [ne_eq, List.map_eq_nil_iff, segments, Text.splitAt_eq_splitOn]
      exact List.splitOn_ne_nil '.' module.toList
    have hplain : ∀ segment ∈ (segments module.toList).map String.ofList, IsPlain segment := by
      intro segment hmem
      obtain ⟨cs, hcs, rfl⟩ := List.mem_map.mp hmem
      rw [isPlain_iff, String.toList_ofList]
      exact List.all_eq_true.mp hall cs hcs
    have hmodule := intercalate_segments module
    obtain ⟨above, last, hparts⟩ := List.eq_nil_or_concat' _ |>.resolve_left hsome
    rw [hparts] at hplain hmodule
    refine ⟨above, last, hplain, hmodule.symm, ?_⟩
    rw [← hmodule, modulePath_intercalate hplain] at hok
    cases hok
    rfl
  · rintro ⟨above, last, hplain, rfl, rfl⟩
    exact modulePath_intercalate hplain root

/-- The names on the way from the root to a source. -/
theorem isName_of_plain {above : List String} {last : String}
    (h : ∀ segment ∈ above ++ [last], IsPlain segment) :
    ∀ name ∈ above ++ [last ++ ".py"], Path.IsName name := by
  intro name hmem
  rcases List.mem_append.mp hmem with habove | hlast
  · exact (h name (List.mem_append_left _ habove)).isName
  · rw [List.mem_singleton.mp hlast]
    exact (h last (by simp)).isName_source

/-- Different modules have different sources: their last components differ. -/
theorem modulePath_inj {root module module' path : String} (h : modulePath root module = .ok path)
    (h' : modulePath root module' = .ok path) : module = module' := by
  obtain ⟨above, last, hplain, rfl, rfl⟩ := modulePath_eq_ok_iff.mp h
  obtain ⟨above', last', hplain', rfl, hpath⟩ := modulePath_eq_ok_iff.mp h'
  have hcomponents := Path.components_under (isName_of_plain hplain) root
  rw [hpath, Path.components_under (isName_of_plain hplain') root, List.append_cancel_left_eq,
    List.map_inj_right (by rintro a b ⟨⟩; rfl)] at hcomponents
  obtain ⟨rfl, hlast⟩ := List.append_inj' hcomponents rfl
  rw [List.cons.injEq, and_iff_left rfl, ← String.toList_inj, String.toList_append,
    String.toList_append, List.append_cancel_right_eq, String.toList_inj] at hlast
  rw [hlast]

/-- **The source of a module is below the root.** Its path is that of the root, extended by the
segments one after the other and by the extension of sources; so it has the components of the root
and then these names alone, and leads to a place below that of the root. Different modules have
different sources. -/
theorem modulePath_confined (root module : String) :
    ((∃ path, modulePath root module = .ok path) ↔
      ∃ parts : List String, parts ≠ [] ∧ (∀ part ∈ parts, IsPlain part) ∧
        module = ".".intercalate parts) ∧
    (∀ path, modulePath root module = .ok path →
      ∃ above last, (∀ segment ∈ above ++ [last], IsPlain segment) ∧
        module = ".".intercalate (above ++ [last]) ∧
        path = Path.withExtension ((above ++ [last]).foldl Path.push root) "py" ∧
        Path.components path =
          Path.components root ++ (above ++ [last ++ ".py"]).map .normal ∧
        ∀ (files : FileStore) (directory place : List String),
          files.locate directory path = .ok place →
          ∃ base, files.walk (if Path.isAbsolute root then [] else directory) (Path.parts root) =
              .ok base ∧
            place = (above ++ [last ++ ".py"]).reverse ++ base) ∧
    ∀ module' path, modulePath root module = .ok path → modulePath root module' = .ok path →
      module = module' := by
  refine ⟨⟨?_, ?_⟩, ?_, fun module' path h h' => modulePath_inj h h'⟩
  · rintro ⟨path, hok⟩
    obtain ⟨above, last, hplain, hmodule, -⟩ := modulePath_eq_ok_iff.mp hok
    exact ⟨above ++ [last], by simp, hplain, hmodule⟩
  · rintro ⟨parts, hsome, hplain, rfl⟩
    obtain ⟨above, last, rfl⟩ := List.eq_nil_or_concat' parts |>.resolve_left hsome
    exact ⟨_, modulePath_intercalate hplain root⟩
  · intro path hok
    obtain ⟨above, last, hplain, hmodule, rfl⟩ := modulePath_eq_ok_iff.mp hok
    have hnames := isName_of_plain hplain
    refine ⟨above, last, hplain, hmodule, ?_, Path.components_under hnames root,
      fun files directory place hplace =>
        FileStore.exists_base_of_locate_under hnames (by simp) hplace⟩
    have hlast : IsPlain last := hplain last (by simp)
    have hpoint : '.' ∉ last.toList := hlast.not_mem (by decide)
    have hslash : '/' ∉ "py".toList := by decide
    rw [Path.foldl_push_eq_under fun name hmem => (hplain name hmem).isName,
      Path.withExtension_under hlast.isName hpoint hslash]
    rfl

/-- A module of a package, under a root that ends with a slash. -/
theorem modulePath_confined_package :
    modulePath "/srv/" "pkg.mod_1" = .ok "/srv/pkg/mod_1.py" ∧
      ∃ above last, "pkg.mod_1" = ".".intercalate (above ++ [last]) ∧
        Path.components "/srv/pkg/mod_1.py" =
          [.root, .normal "srv"] ++ (above ++ [last ++ ".py"]).map .normal := by
  have hpath : modulePath "/srv/" "pkg.mod_1" = .ok "/srv/pkg/mod_1.py" := rfl
  have hroot : Path.components "/srv/" = [.root, .normal "srv"] := by decide
  obtain ⟨above, last, -, hmodule, -, hcomponents, -⟩ :=
    (modulePath_confined "/srv/" "pkg.mod_1").2.1 _ hpath
  rw [hroot] at hcomponents
  exact ⟨hpath, above, last, hmodule, hcomponents⟩

end Postmortem.Target
