import Collage.Json.Basic

/-!
# Shapes of structured values

Ways to take a structured value apart when its shape is known.  A record may be
written as an object or as an array of its fields in order; in an object a field
stands once, and unknown fields are passed over.  A tagged record says in one of
its fields which of several shapes the others have.
-/

namespace Collage
namespace Json

/-- The only value of a key: nothing when it is absent, and a failure when it
stands twice. -/
def onlyEntry (key : String) (entries : List (String × Json)) : Option (Option Json) :=
  match entries.filter (·.1 = key) with
  | [] => some none
  | [(_, value)] => some (some value)
  | _ => none

/-- The values of the named fields of an object. -/
def objectFields (names : List String) : Json → Option (List (Option Json))
  | object entries => names.mapM fun name => onlyEntry name entries
  | _ => none

/-- The values of the named fields of an object, or of an array that lists them
in order and may end before the last. -/
def recordFields (names : List String) : Json → Option (List (Option Json))
  | object entries => names.mapM fun name => onlyEntry name entries
  | array items =>
    if items.length ≤ names.length then
      some (items.map some ++ List.replicate (names.length - items.length) none)
    else none
  | _ => none

/-- A tag and the rest of a tagged record: an object without its tag, or an
array without its first item. -/
def splitTag (tag : String) : Json → Option (Json × Json)
  | object entries => do
    let value ← (← onlyEntry tag entries)
    return (value, object (entries.filter (·.1 ≠ tag)))
  | array (value :: rest) => some (value, array rest)
  | _ => none

/-- Which of several names a tag is.  A tag inside a value that is kept back until
its own tag is known may also be given by number. -/
def tagIndex (byNumber : Bool) (names : List String) : Json → Option Nat
  | string name => names.idxOf? name
  | int n =>
    if byNumber ∧ 0 ≤ n ∧ n < names.length then some n.toNat else none
  | _ => none

/-- Which of several names a value is: the name, or an object whose only key is
the name and whose value is empty. -/
def nameIndex (names : List String) : Json → Option Nat
  | string name => names.idxOf? name
  | object [(name, null)] => names.idxOf? name
  | object [(name, object [])] => names.idxOf? name
  | _ => none

/-- The meaning of a value that is one of several names. -/
def named {α : Type} (table : List (String × α)) (json : Json) : Option α := do
  let index ← nameIndex (table.map (·.1)) json
  (·.2) <$> table[index]?

/-- A field that may be absent. -/
def orElse {α : Type} (otherwise : α) (decode : Json → Option α) : Option Json → Option α
  | none => some otherwise
  | some json => decode json

/-- A field that has to be there. -/
def required {α : Type} (decode : Json → Option α) (field : Option Json) : Option α :=
  field.bind decode

/-- A field that may be absent or empty. -/
def optional {α : Type} (decode : Json → Option α) : Option Json → Option (Option α)
  | none => some none
  | some null => some none
  | some json => (decode json).map some

/-- The items of an array. -/
def listOf {α : Type} (decode : Json → Option α) (json : Json) : Option (List α) := do
  (← json.items?).mapM decode

/-- The entries of an object, sorted by key, the last of each key. -/
def mapOf {α : Type} (decode : Json → Option α) : Json → Option (List (String × α))
  | object entries => do
    let decoded ← entries.mapM fun (key, value) => do return (key, ← decode value)
    return sortEntries decoded
  | _ => none

end Json
end Collage
