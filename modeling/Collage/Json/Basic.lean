import Collage.Number.Decimal
import Collage.Text

/-!
# Structured values

`Json` is the tree that documents and annotations are read into and written
from.  A number stays whole when it was written whole; a number with a point or
an exponent is a double, and a single-precision number keeps its own
constructor so that it is written with the digits it needs and no more.  An
object keeps its entries as written; `canonical` sorts them by key and keeps the
last of those that share one.
-/

namespace Collage

/-- A structured value. -/
inductive Json
  | null
  | bool (value : Bool)
  | int (value : Int)
  | double (value : Float)
  | single (value : Float32)
  | string (value : String)
  | array (items : List Json)
  | object (entries : List (String × Json))
  deriving Inhabited, BEq, Repr

namespace Json

/-- Puts an entry into entries sorted by key, over one with the same key. -/
def insertEntry {α : Type} (key : String) (value : α) : List (String × α) → List (String × α)
  | [] => [(key, value)]
  | (k, v) :: rest =>
    if key = k then (key, value) :: rest
    else if key < k then (key, value) :: (k, v) :: rest
    else (k, v) :: insertEntry key value rest

/-- Entries sorted by key, the last of each key. -/
def sortEntries {α : Type} (entries : List (String × α)) : List (String × α) :=
  entries.foldl (fun sorted (key, value) => insertEntry key value sorted) []

mutual

/-- The same value with the entries of every object sorted, each key once. -/
def canonical : Json → Json
  | array items => array (canonicalItems items)
  | object entries => object (sortEntries (canonicalEntries entries))
  | other => other

/-- `canonical` of each item. -/
def canonicalItems : List Json → List Json
  | [] => []
  | item :: rest => canonical item :: canonicalItems rest

/-- `canonical` of each entry's value. -/
def canonicalEntries : List (String × Json) → List (String × Json)
  | [] => []
  | (key, value) :: rest => (key, canonical value) :: canonicalEntries rest

end

/-- The value of a key; the last one counts. -/
def get? (json : Json) (key : String) : Option Json :=
  match json with
  | object entries => (entries.reverse.find? (·.1 = key)).map (·.2)
  | _ => none

/-- The items of an array. -/
def items? : Json → Option (List Json)
  | array items => some items
  | _ => none

/-- The characters of a text. -/
def string? : Json → Option String
  | string value => some value
  | _ => none

/-- A truth value. -/
def bool? : Json → Option Bool
  | bool value => some value
  | _ => none

/-- A whole number that fits 64 bits with a sign. -/
def int64? : Json → Option Int
  | int value => if int64Lowest ≤ value ∧ value ≤ int64Highest then some value else none
  | _ => none

/-- Any number, as a double. -/
def double? : Json → Option Float
  | int value => some (Float.nearest value)
  | double value => some value
  | single value => some value.widen
  | _ => none

/-- Any number, in single precision. -/
def single? : Json → Option Float32
  | int value => some (Float32.nearest value)
  | double value => some value.narrow
  | single value => some value
  | _ => none

/-- A double, or nothing where there is no finite number. -/
def ofDouble (x : Float) : Json :=
  if x.isFinite then double x else null

/-- A single-precision number, or nothing where there is no finite number. -/
def ofSingle (x : Float32) : Json :=
  if x.isFinite then single x else null

mutual

/-- The same value with every single-precision number as a double. -/
def widened : Json → Json
  | single value => double value.widen
  | array items => array (widenedItems items)
  | object entries => object (widenedEntries entries)
  | other => other

/-- `widened` of each item. -/
def widenedItems : List Json → List Json
  | [] => []
  | item :: rest => widened item :: widenedItems rest

/-- `widened` of each entry's value. -/
def widenedEntries : List (String × Json) → List (String × Json)
  | [] => []
  | (key, value) :: rest => (key, widened value) :: widenedEntries rest

end

end Json

end Collage
