import Postmortem.Number.Binary64

/-!
# Settings files

The contents of a file of keys and values, in which headers open tables. Tables come about in
different ways, and how one came about decides what may still be added to it.
-/

namespace Postmortem.Toml

open Number

/-- A value. -/
inductive Value where
  | text (s : String)
  | integer (n : Int)
  | float (x : Binary64)
  | flag (b : Bool)
  /-- A date, a time or both. -/
  | moment
  | list (items : List Value)
  /-- A table written as a value, which is closed. -/
  | closed (keys : List String)
deriving Inhabited

/-- What a key stands for in a table that may be open. -/
inductive Item where
  | value (v : Value)
  /-- A table. It is implicit until a header opens it, and dotted if a key with dots made it. -/
  | table (implicit dotted : Bool) (entries : List (String × Item))
  /-- The tables of a list, each opened by a header of its own. -/
  | tables (elements : List (List (String × Item)))
deriving Inhabited

/-- The entries of a table, in the order of their appearance. -/
abbrev Entries := List (String × Item)

namespace Entries

/-- What a key stands for. -/
def get? (es : Entries) (key : String) : Option Item := (es.find? (·.1 == key)).map (·.2)

/-- The entries with another item for a key, in its old place if it had one. -/
def set (es : Entries) (key : String) (i : Item) : Entries :=
  if es.any (·.1 == key) then es.map fun e => if e.1 == key then (key, i) else e
  else es ++ [(key, i)]

/-- The entries without those of a key. -/
def erase (es : Entries) (key : String) : Entries := es.filter (·.1 != key)

end Entries

/-- Changes the table at the end of a path, and makes the tables on the way that are not there. Of
several tables of a list the last is meant. Keys with dots do not enter tables that a header opened.
The change is told whether a key with dots made the table. -/
def changeAt (viaDots : Bool) (change : Bool → Entries → Option Entries) (dotted : Bool) :
    List String → Entries → Option Entries
  | [], es => change dotted es
  | key :: path, es =>
    match es.get? key with
    | none => do
      let sub ← changeAt viaDots change viaDots path []
      return es.set key (.table true viaDots sub)
    | some (.value _) => none
    | some (.tables elements) => do
      let last ← elements.getLast?
      let sub ← changeAt viaDots change false path last
      return es.set key (.tables (elements.dropLast ++ [sub]))
    | some (.table implicit dotted sub) =>
      if viaDots && !implicit then none else do
        let sub ← changeAt viaDots change dotted path sub
        return es.set key (.table implicit dotted sub)

/-- Adds a key, which may have dots, with its value. Keys with dots and without do not mix in one
table, and no key is given twice. -/
def addPair (path : List String) (key : String) (v : Value) (es : Entries) : Option Entries :=
  changeAt true (fun dotted es =>
    if dotted == path.isEmpty || (es.get? key).isSome then none
    else some (es.set key (.value v))) false path es

/-- The keys of a table that is written as a value, given its pairs. -/
def closedTable? (pairs : List (List String × String × Value)) : Option Value := do
  let es ← pairs.foldlM (fun es (path, key, v) => addPair path key v es) []
  return .closed (es.map (·.1))

/-! ## Headers -/

/-- A file up to some line. -/
structure Progress where
  /-- The tables before the open one. -/
  root : Entries := []
  /-- The path of the open table; the empty path before the first header. -/
  path : List String := []
  /-- Whether the open table is an element of a list. -/
  element : Bool := false
  /-- The entries of the open table. -/
  open_ : Entries := []

namespace Progress

/-- Puts the open table in its place. -/
def close (p : Progress) : Option Entries :=
  match p.path.getLast? with
  | none => some p.open_
  | some key =>
    changeAt false (fun _ es =>
      if p.element then
        match es.get? key with
        | none => some (es.set key (.tables [p.open_]))
        | some (.tables elements) => some (es.set key (.tables (elements ++ [p.open_])))
        | some _ => none
      else
        match es.get? key with
        | none => some (es.set key (.table false false p.open_))
        | some (.table true _ _) => some (es.set key (.table false false p.open_))
        | some _ => none) false p.path.dropLast p.root

/-- Opens the table of a header. Only a table that is implicit and not dotted can still be opened,
and it keeps its entries. -/
def openTable (p : Progress) (path : List String) : Option Progress := do
  let key ← path.getLast?
  let root ← p.close
  let found ← lookup path.dropLast root
  match found.get? key with
  | none =>
    let root ← changeAt false (fun _ es => some es) false path.dropLast root
    return { root, path }
  | some (.table true false sub) =>
    let root ← changeAt false (fun _ es => some (es.erase key)) false path.dropLast root
    return { root, path, open_ := sub }
  | some _ => none
where
  /-- The entries of the table at a path; none where there is no table yet. -/
  lookup : List String → Entries → Option Entries
    | [], es => some es
    | key :: path, es =>
      match es.get? key with
      | none => some []
      | some (.value _) => none
      | some (.tables elements) => elements.getLast?.bind (lookup path)
      | some (.table _ _ sub) => lookup path sub

/-- Opens the element of a list of tables. -/
def openElement (p : Progress) (path : List String) : Option Progress := do
  let key ← path.getLast?
  let root ← p.close
  let root ← changeAt false (fun _ es =>
    match es.get? key with
    | none => some (es.set key (.tables []))
    | some (.tables _) => some es
    | some _ => none) false path.dropLast root
  return { root, path, element := true }

/-- Adds a key with its value to the open table. -/
def add (p : Progress) (path : List String) (key : String) (v : Value) : Option Progress := do
  return { p with open_ := ← addPair path key v p.open_ }

end Progress

end Postmortem.Toml
