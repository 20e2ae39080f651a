import Postmortem.Files.Store
import Postmortem.Proofs.Collections.Table
import Postmortem.Proofs.Text.Utf8

/-!
# Reading and writing files

What was written to a file is read back from it, and nothing else in the store has changed. Whether
a text can be written depends on the store and the path alone.

## Shape of the argument

A path leads through directories. Putting a file where no directory is leaves them all in place, so
the path still leads to where it led before.
-/

namespace Postmortem.FileStore

/-! ## Ways through a store -/

/-- The place that a part leads to from a directory. -/
def next (place : List String) (part : String) : List String :=
  if part == "" || part == "." then place else if part == ".." then place.tail else part :: place

/-- A way leads on from a directory, and from nothing else. -/
theorem walk_cons_iff {s : FileStore} {place target : List String} {part : String}
    {rest : List String} :
    s.walk place (part :: rest) = .ok target ↔
      s.node? place = some .directory ∧ s.walk (next place part) rest = .ok target := by
  rw [walk]
  cases hnode : s.node? place with
  | none =>
    refine ⟨fun h => ?_, fun h => ?_⟩
    · cases h
    · cases h.1
  | some node =>
    cases node with
    | file bytes =>
      refine ⟨fun h => ?_, fun h => ?_⟩
      · cases h
      · cases h.1
    | directory =>
      have hnext : (if part == "" || part == "." then s.walk place rest
          else if part == ".." then s.walk place.tail rest else s.walk (part :: place) rest) =
          s.walk (next place part) rest := by
        rw [next]
        split
        · rfl
        · split
          · rfl
          · rfl
      dsimp only
      rw [hnext]
      exact ⟨fun h => ⟨rfl, h⟩, fun h => h.2⟩

/-- A way leads to the same place in every store that has its directories. -/
theorem walk_of_directories {s s' : FileStore}
    (h : ∀ place, s.node? place = some .directory → s'.node? place = some .directory)
    {place target parts : List String} (hwalk : s.walk place parts = .ok target) :
    s'.walk place parts = .ok target := by
  induction parts generalizing place with
  | nil => exact hwalk
  | cons part rest ih =>
    obtain ⟨hdirectory, hrest⟩ := walk_cons_iff.mp hwalk
    exact walk_cons_iff.mpr ⟨h place hdirectory, ih hrest⟩

/-- A path leads to a place if it has characters, none of them NUL, and its parts lead there. -/
theorem locate_eq_ok_iff {s : FileStore} {directory place : List String} {path : String} :
    s.locate directory path = .ok place ↔
      path.isEmpty = false ∧ path.toList.contains '\x00' = false ∧
        s.walk (if Path.isAbsolute path then [] else directory) (Path.parts path) = .ok place := by
  rw [locate]
  cases path.isEmpty with
  | true => exact ⟨fun h => (by cases h), fun h => (by cases h.1)⟩
  | false =>
    cases path.toList.contains '\x00' with
    | true => exact ⟨fun h => (by cases h), fun h => (by cases h.2.1)⟩
    | false => exact ⟨fun h => ⟨rfl, rfl, h⟩, fun h => h.2.2⟩

/-- A path leads to the same place in every store that has its directories. -/
theorem locate_of_directories {s s' : FileStore}
    (h : ∀ place, s.node? place = some .directory → s'.node? place = some .directory)
    {directory place : List String} {path : String}
    (hlocate : s.locate directory path = .ok place) :
    s'.locate directory path = .ok place := by
  obtain ⟨hempty, hnul, hwalk⟩ := locate_eq_ok_iff.mp hlocate
  exact locate_eq_ok_iff.mpr ⟨hempty, hnul, walk_of_directories h hwalk⟩

/-- What a path leads to is what is at its place. -/
theorem find_eq_ok_iff {s : FileStore} {directory place : List String} {path : String}
    {node : FileNode} :
    s.find directory path = .ok (place, node) ↔
      s.locate directory path = .ok place ∧ s.node? place = some node := by
  rw [find]
  cases s.locate directory path with
  | error e => exact ⟨fun h => (by cases h), fun h => (by cases h.1)⟩
  | ok found =>
    simp only [bind, Except.bind]
    cases hnode : s.node? found with
    | none =>
      refine ⟨fun h => (by cases h), ?_⟩
      rintro ⟨hplace, hsome⟩
      cases hplace
      rw [hnode] at hsome
      cases hsome
    | some n =>
      constructor
      · intro h
        cases h
        exact ⟨rfl, hnode⟩
      · rintro ⟨hplace, hsome⟩
        cases hplace
        rw [hnode] at hsome
        cases hsome
        rfl

/-- The text of a file that holds one is that text. -/
theorem readText_of_find {s : FileStore} {directory place : List String} {path text : String}
    (h : s.find directory path = .ok (place, .file (Text.Utf8.ofString text))) :
    s.readText directory path = .ok text := by
  have htext : Text.Utf8.string? (Text.Utf8.ofString text) = some text := by
    rw [Text.Utf8.string?, Text.Utf8.ofString, Text.Utf8.chars?_encode, Option.map_some,
      String.ofList_toList]
  rw [readText, h]
  simp only [bind, Except.bind, htext]

/-! ## Putting a file into a store -/

/-- What is at a place of a store that holds a new file. -/
theorem node?_insert (s : FileStore) (place other : List String) (node : FileNode) :
    node? ⟨s.nodes.insert (Path.ofParts place.reverse) node⟩ other =
      if Path.ofParts other.reverse = Path.ofParts place.reverse then some node
      else s.node? other := by
  split
  · rename_i heq
    rw [node?, heq, Table.get?_insert_self]
  · rename_i hne
    exact Table.get?_insert_of_ne hne

/-- A file in place of what is no directory leaves all directories. -/
theorem directory_of_insert {s : FileStore} {place other : List String} {node : FileNode}
    (hplace : s.node? place ≠ some .directory) (hother : s.node? other = some .directory) :
    node? ⟨s.nodes.insert (Path.ofParts place.reverse) node⟩ other = some .directory := by
  rw [node?_insert, if_neg]
  · exact hother
  · -- equal paths lead to the same thing
    intro heq
    apply hplace
    rw [node?, ← heq]
    exact hother

/-! ## Writing -/

/-- Whether a path can be written to: it leads to a file, or to nothing yet in a directory. -/
def Writable (s : FileStore) (directory : List String) (path : String) : Prop :=
  ∃ place, s.locate directory path = .ok place ∧
    ((∃ bytes, s.node? place = some (.file bytes)) ∨
      (s.node? place = none ∧ s.node? place.tail = some .directory ∧
        path.toList.getLast? ≠ some '/'))

/-- A store after a text was written to a file of another: the file holds exactly the text, and all
that is elsewhere is as it was. -/
structure IsWrite (s s' : FileStore) (directory : List String) (path text : String) : Prop where
  read : s'.readText directory path = .ok text
  bytes : ∃ place, s'.find directory path = .ok (place, .file (Text.Utf8.ofString text)) ∧
    ∀ other, Path.ofParts other.reverse ≠ Path.ofParts place.reverse →
      s'.node? other = s.node? other

/-- Putting a file where a path leads, unless there is a directory, is a write. -/
theorem isWrite_put {s : FileStore} {directory place : List String} {path : String} (text : String)
    (hlocate : s.locate directory path = .ok place) (hplace : s.node? place ≠ some .directory) :
    s.IsWrite ⟨writeText.put s text place⟩ directory path text := by
  have hfind : find ⟨writeText.put s text place⟩ directory path =
      .ok (place, .file (Text.Utf8.ofString text)) := by
    refine find_eq_ok_iff.mpr ⟨?_, ?_⟩
    · exact locate_of_directories (fun _ hother => directory_of_insert hplace hother) hlocate
    · rw [writeText.put, node?_insert, if_pos rfl]
  refine ⟨readText_of_find hfind, place, hfind, fun other hother => ?_⟩
  rw [writeText.put, node?_insert, if_neg hother]

/-- What can be written is written. -/
theorem exists_writeText {s : FileStore} {directory : List String} {path : String} (text : String)
    (h : s.Writable directory path) :
    ∃ s', s.writeText directory path text = .ok s' ∧ s.IsWrite s' directory path text := by
  obtain ⟨place, hlocate, hplace⟩ := h
  refine ⟨⟨writeText.put s text place⟩, ?_, isWrite_put text hlocate ?_⟩
  · rw [writeText, hlocate]
    rcases hplace with ⟨bytes, hfile⟩ | ⟨hnone, hdirectory, hslash⟩
    · simp only [bind, Except.bind, hfile]
    · simp only [bind, Except.bind, hnone, hdirectory]
      rw [if_neg]
      simpa using hslash
  · rcases hplace with ⟨bytes, hfile⟩ | ⟨hnone, -⟩
    · simp [hfile]
    · simp [hnone]

/-- What is written could be written. -/
theorem writable_of_writeText {s s' : FileStore} {directory : List String} {path text : String}
    (h : s.writeText directory path text = .ok s') : s.Writable directory path := by
  rw [writeText] at h
  cases hlocate : s.locate directory path with
  | error e =>
    rw [hlocate] at h
    cases h
  | ok place =>
    refine ⟨place, hlocate, ?_⟩
    rw [hlocate] at h
    simp only [bind, Except.bind] at h
    cases hnode : s.node? place with
    | some node =>
      cases node with
      | file bytes => exact .inl ⟨bytes, rfl⟩
      | directory =>
        rw [hnode] at h
        cases h
    | none =>
      refine .inr ⟨rfl, ?_⟩
      rw [hnode] at h
      cases habove : s.node? place.tail with
      | none =>
        simp only [habove] at h
        cases h
      | some above =>
        cases above with
        | file bytes =>
          simp only [habove] at h
          cases h
        | directory =>
          refine ⟨rfl, ?_⟩
          intro hslash
          simp only [habove] at h
          rw [if_pos (beq_iff_eq.mpr hslash)] at h
          cases h

/-! ## Delivering -/

/-- A text is delivered to a file that can be written to. -/
theorem isWrite_deliver {s : FileStore} {directory : List String} {path : String} (text : String)
    (h : s.Writable directory path) :
    s.IsWrite (s.deliver directory (some path) text) directory path text := by
  obtain ⟨s', hwrite, hs'⟩ := exists_writeText text h
  rw [deliver, hwrite]
  exact hs'

/-- A text that no file is there for is not delivered, and nothing else happens. -/
theorem deliver_of_not_writable {s : FileStore} {directory : List String}
    {destination : Option String} (text : String)
    (h : ∀ path, destination = some path → ¬ s.Writable directory path) :
    s.deliver directory destination text = s := by
  cases destination with
  | none => rfl
  | some path =>
    rw [deliver]
    cases hwrite : s.writeText directory path text with
    | error e => rfl
    | ok s' => exact absurd (writable_of_writeText hwrite) (h path rfl)

end Postmortem.FileStore
