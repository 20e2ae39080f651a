import Postmortem.Text.Lines

/-!
# Paths

Paths as texts whose parts a slash divides. A path that begins with a slash starts at the root, any
other at the current directory.
-/

namespace Postmortem.Path

/-- The parts of a path between slashes. -/
def parts (path : String) : List String := (Text.splitAt '/' path.toList).map .ofList

/-- Whether a path starts at the root. -/
def isAbsolute (path : String) : Bool := path.toList.head? == some '/'

/-- A path with one part more. -/
def join (path part : String) : String :=
  match path.toList.getLast? with
  | none => part
  | some '/' => path ++ part
  | some _ => path ++ "/" ++ part

/-- The path from the root through given parts. -/
def ofParts (parts : List String) : String := "/" ++ "/".intercalate parts

/-- Whether a part leads nowhere: there is nothing in it, or only a point. -/
def isIdle (part : String) : Bool := part == "" || part == "."

/-- A path without its last component. The root has no parent, and neither has a path without
components. What leads nowhere behind the last component, and right before it, goes with it. -/
def parent? (path : String) : Option String :=
  match parts path with
  | [] => none
  | first :: rest =>
    match rest.reverse.dropWhile isIdle with
    | [] => if first == "" then none else some ""
    | _ :: above =>
      let before := (above.dropWhile isIdle).reverse
      if first == "" && before.isEmpty then some "/" else some ("/".intercalate (first :: before))

/-- A file name without its extension. A point at the beginning starts no extension. -/
def stem (name : String) : String :=
  match name.toList.reverse.dropWhile (· != '.') with
  | '.' :: [] => name
  | '.' :: rest => .ofList rest.reverse
  | _ => name

end Postmortem.Path
