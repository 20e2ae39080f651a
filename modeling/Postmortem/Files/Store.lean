import Postmortem.Collections.Table
import Postmortem.Files.Path
import Postmortem.Text.Utf8

/-!
# Stores of files

Files and directories as a value. Every directory on the way to a file is part of the store.
-/

namespace Postmortem

/-- Why a file cannot be used. -/
inductive FileError where
  | notFound
  | denied
  | notDirectory
  | isDirectory
  | notText
  /-- Its name has a character that no name may have. -/
  | badName
deriving DecidableEq, Repr, Inhabited

/-- How an error is told. -/
def FileError.message : FileError → String
  | notFound => "No such file or directory (os error 2)"
  | denied => "Permission denied (os error 13)"
  | notDirectory => "Not a directory (os error 20)"
  | isDirectory => "Is a directory (os error 21)"
  | notText => "stream did not contain valid UTF-8"
  | badName => "file name contained an unexpected NUL byte"

/-- What is at a place of a store. -/
inductive FileNode where
  | directory
  | file (bytes : List UInt8)
deriving DecidableEq, Repr, Inhabited

/-- A store: its files and directories, by path from the root. -/
structure FileStore where
  nodes : Table String FileNode
deriving DecidableEq, Repr, Inhabited

namespace FileStore

/-- The store that has only the root. -/
def empty : FileStore := ⟨Table.empty.insert (Path.ofParts []) .directory⟩

/-- What is at the end of given parts, the last one first. -/
def node? (s : FileStore) (reversed : List String) : Option FileNode :=
  s.nodes.get? (Path.ofParts reversed.reverse)

/-- The store with a directory at the end of given parts, and those on the way to it. -/
def addDirectory (s : FileStore) : List String → FileStore
  | [] => s
  | last :: reversed =>
    let s := s.addDirectory reversed
    if (s.node? (last :: reversed)).isSome then s
    else ⟨s.nodes.insert (Path.ofParts (last :: reversed).reverse) .directory⟩

/-- The store with a file at the end of given parts, and the directories on the way to it. -/
def addFile (s : FileStore) (reversed : List String) (bytes : List UInt8) : FileStore :=
  ⟨(s.addDirectory reversed.tail).nodes.insert (Path.ofParts reversed.reverse) (.file bytes)⟩

/-- Follows parts from a place that must be a directory: gives the parts of the place they lead to,
which need not exist. -/
def walk (s : FileStore) (place : List String) : List String → Except FileError (List String)
  | [] => .ok place
  | part :: rest =>
    match s.node? place with
    | none => .error .notFound
    | some (.file _) => .error .notDirectory
    | some .directory =>
      if part == "" || part == "." then s.walk place rest
      else if part == ".." then s.walk place.tail rest
      else s.walk (part :: place) rest

/-- The place that a path leads to from a directory; it need not exist. -/
def locate (s : FileStore) (directory : List String) (path : String) :
    Except FileError (List String) :=
  if path.isEmpty then .error .notFound
  else if path.toList.contains '\x00' then .error .badName
  else s.walk (if Path.isAbsolute path then [] else directory) (Path.parts path)

/-- The place that a path leads to from a directory, with what is there. -/
def find (s : FileStore) (directory : List String) (path : String) :
    Except FileError (List String × FileNode) := do
  let place ← s.locate directory path
  match s.node? place with
  | none => .error .notFound
  | some node => .ok (place, node)

/-- Whether a path leads to a file. -/
def isFile (s : FileStore) (directory : List String) (path : String) : Bool :=
  match s.find directory path with
  | .ok (_, .file _) => true
  | _ => false

/-- The text of a file. -/
def readText (s : FileStore) (directory : List String) (path : String) :
    Except FileError String := do
  match ← s.find directory path with
  | (_, .directory) => .error .isDirectory
  | (_, .file bytes) =>
    match Text.Utf8.string? bytes with
    | some text => .ok text
    | none => .error .notText

/-- Writes a text to a file, which is made if its directory is there. -/
def writeText (s : FileStore) (directory : List String) (path : String) (text : String) :
    Except FileError FileStore := do
  let place ← s.locate directory path
  match s.node? place with
  | some .directory => .error .isDirectory
  | some (.file _) => .ok ⟨put place⟩
  | none =>
    match s.node? place.tail with
    | some .directory =>
      if path.toList.getLast? == some '/' then .error .isDirectory else .ok ⟨put place⟩
    | some (.file _) => .error .notDirectory
    | none => .error .notFound
where
  put (place : List String) : Table String FileNode :=
    s.nodes.insert (Path.ofParts place.reverse) (.file (Text.Utf8.ofString text))

/-- The store after a text has been written to a file, if one is wanted and can be written. -/
def deliver (s : FileStore) (directory : List String) (destination : Option String)
    (text : String) : FileStore :=
  match destination with
  | none => s
  | some path => (s.writeText directory path text).toOption.getD s

end FileStore

end Postmortem
