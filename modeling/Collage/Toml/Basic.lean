import Collage.Text

/-!
# TOML values and tables

A TOML text builds its tables piece by piece: by headers, by lists of tables, and by
keys with dots.  `Draft` is the document so far; every step fails where it would
define something twice or add to what is already complete.

Of a date or a time only its presence is kept.
-/

namespace Collage
namespace Toml

/-- A value.  Tables keep the order in which their keys came. -/
inductive Value
  | string (text : String)
  | integer (value : Int)
  | float (value : Float)
  | boolean (value : Bool)
  /-- a date, a time, or both -/
  | moment
  | array (items : List Value)
  | table (entries : List (String × Value))
  deriving Inhabited

/-- A part of a document that is not complete yet. -/
inductive Item
  | value (value : Value)
  /-- a table: whether it has no header of its own, and whether keys with dots
  made it -/
  | table (implicit dotted : Bool) (entries : List (String × Item))
  /-- a list of tables -/
  | tables (all : List (List (String × Item)))
  deriving Inhabited

/-- What a table holds so far. -/
abbrev Entries := List (String × Item)

namespace Item

mutual

/-- The complete value. -/
def toValue : Item → Value
  | value v => v
  | table _ _ entries => .table (valuesOf entries)
  | tables all => .array (tablesOf all)

/-- The complete entries of a table. -/
def valuesOf : List (String × Item) → List (String × Value)
  | [] => []
  | (key, item) :: rest => (key, toValue item) :: valuesOf rest

/-- The complete tables of a list. -/
def tablesOf : List (List (String × Item)) → List Value
  | [] => []
  | entries :: rest => .table (valuesOf entries) :: tablesOf rest

end

end Item

namespace Entries

/-- The item of a key. -/
def item? (key : String) (entries : Entries) : Option Item :=
  (List.find? (fun entry => entry.1 = key) entries).map (·.2)

/-- Replaces the item of a key. -/
def withItem (key : String) (item : Item) (entries : Entries) : Entries :=
  List.map (fun entry => if entry.1 = key then (key, item) else entry) entries

/-- Takes a key away. -/
def without (key : String) (entries : Entries) : Entries :=
  List.filter (fun entry => entry.1 ≠ key) entries

/-- Edits the table that a path leads to; `edit` is told whether keys with dots made
it.  Tables that are missing on the way are made.  A path of dots leads into no table
that has a header. -/
def editAt {α : Type} (dotted : Bool) (edit : Bool → Entries → Option (α × Entries)) :
    List String → Bool → Entries → Option (α × Entries)
  | [], made, entries => edit made entries
  | key :: path, _, entries =>
    match entries.item? key with
    | none => do
      let (result, inner) ← editAt dotted edit path dotted []
      return (result, entries ++ [(key, .table true dotted inner)])
    | some (.value _) => none
    | some (.tables all) => do
      let (result, inner) ← editAt dotted edit path false (← all.getLast?)
      return (result, entries.withItem key (.tables (all.dropLast ++ [inner])))
    | some (.table implicit made inner) =>
      if dotted && !implicit then none
      else do
        let (result, inner) ← editAt dotted edit path made inner
        return (result, entries.withItem key (.table implicit made inner))

/-- Adds a value under a path and a key.  Keys with dots add only to tables that keys
with dots made. -/
def insert (path : List String) (key : String) (value : Value) (entries : Entries) :
    Option Entries :=
  let edit (made : Bool) (inner : Entries) : Option (Unit × Entries) :=
    if made = path.isEmpty then none
    else if (inner.item? key).isSome then none
    else some ((), inner ++ [(key, .value value)])
  (editAt true edit path false entries).map (·.2)

end Entries

/-- A document so far: the finished tables, and the one whose lines are being read. -/
structure Draft where
  root : Entries := []
  /-- the parents of the current table and its key; none for the root -/
  current : Option (List String × String) := none
  /-- whether the current table goes into a list -/
  inList : Bool := false
  entries : Entries := []
  deriving Inhabited

namespace Draft

/-- Puts a finished table under its key. -/
def place (inList : Bool) (key : String) (entries : Entries) (_ : Bool) (parent : Entries) :
    Option (Unit × Entries) :=
  match parent.item? key, inList with
  | none, true => some ((), parent ++ [(key, .tables [entries])])
  | some (.tables all), true => some ((), parent.withItem key (.tables (all ++ [entries])))
  | none, false => some ((), parent ++ [(key, .table false false entries)])
  | some (.table true _ _), false => some ((), parent.withItem key (.table false false entries))
  | _, _ => none

/-- Finishes the current table; gives the whole document. -/
def finish (draft : Draft) : Option Entries :=
  match draft.current with
  | none => some draft.entries
  | some (path, key) =>
    (Entries.editAt false (place draft.inList key draft.entries) path false draft.root).map (·.2)

/-- Takes a table that other headers implied out of its parent; there must be no
other one of that key. -/
def takeImplied (key : String) (_ : Bool) (parent : Entries) : Option (Entries × Entries) :=
  match parent.item? key with
  | none => some ([], parent)
  | some (.table true false inner) => some (inner, parent.without key)
  | _ => none

/-- Makes sure that a key stands for a list of tables. -/
def openList (key : String) (_ : Bool) (parent : Entries) : Option (Unit × Entries) :=
  match parent.item? key with
  | none => some ((), parent ++ [(key, .tables [])])
  | some (.tables _) => some ((), parent)
  | _ => none

/-- Begins a table at a header. -/
def startTable (path : List String) (key : String) (draft : Draft) : Option Draft := do
  let root ← draft.finish
  let (entries, root) ← Entries.editAt false (takeImplied key) path false root
  return { root, current := some (path, key), inList := false, entries }

/-- Begins the next table of a list at a header. -/
def startElement (path : List String) (key : String) (draft : Draft) : Option Draft := do
  let root ← draft.finish
  let (_, root) ← Entries.editAt false (openList key) path false root
  return { root, current := some (path, key), inList := true, entries := [] }

/-- Adds a value to the current table. -/
def insert (path : List String) (key : String) (value : Value) (draft : Draft) : Option Draft :=
  (Entries.insert path key value draft.entries).map fun entries => { draft with entries }

end Draft
end Toml
end Collage
