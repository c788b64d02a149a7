import Collage.Json.Basic

/-!
# Loose readings of values

Defaults and stored values are read loosely: a text is read as the number it
shows, nothing and falsehood are zero, and what has no reading at all becomes
zero too.
-/

namespace Collage
namespace Coercion

/-- The number that a text shows; an empty text shows zero. -/
def numberOfText (text : String) : Float :=
  let body := trim text.toList
  let shown := String.ofList body
  if body.isEmpty then 0
  else if shown = "Infinity" ∨ shown = "+Infinity" then 1 / 0
  else if shown = "-Infinity" then -1 / 0
  else
    match body with
    | '0' :: 'x' :: digits | '0' :: 'X' :: digits =>
      let digits := match digits with
        | '+' :: rest => rest
        | _ => digits
      match readBase? 16 digits with
      | some n => if n < twoPow 64 then Float.nearest n else 0 / 0
      | none => 0 / 0
    | _ =>
      let small := lowercase body
      if occursIn ['i', 'n', 'f'] small || occursIn ['n', 'a', 'n'] small then 0 / 0
      else (Float.ofText? shown).getD (0 / 0)

/-- The number that a value shows, which may be none at all.  An array shows what
its only item shows. -/
def number : Json → Float
  | .null => 0
  | .bool value => if value then 1 else 0
  | .int value => Float.nearest value
  | .double value => value
  | .single value => value.widen
  | .string value => numberOfText value
  | .array [] => 0
  | .array [.bool _] => 0 / 0
  | .array [.object _] => 0 / 0
  | .array [item] => number item
  | .array _ => 0 / 0
  | .object _ => 0 / 0

/-- The number that a value shows; zero has no sign, and what shows none is
zero. -/
def numberOrZero (json : Json) : Float :=
  let x := number json
  if x.isNaN || x == 0 then 0 else x

/-- The next lower integer of the number that a value shows, within 64 bits. -/
def integer (json : Json) : Int :=
  (numberOrZero json).integerPart .floor

/-- Whether a value is anything at all. -/
def truthy : Json → Bool
  | .null => false
  | .bool value => value
  | .int value => value ≠ 0
  | .double value => !(value == 0 || value.isNaN)
  | .single value => !(value == 0 || value.isNaN)
  | .string value => !value.isEmpty
  | .array _ => true
  | .object _ => true

/-- A number is true from one half on; anything else when it is anything at
all. -/
def boolean : Json → Bool
  | .int value => 0.5 ≤ numberOrZero (.int value)
  | .double value => 0.5 ≤ numberOrZero (.double value)
  | .single value => 0.5 ≤ numberOrZero (.single value)
  | other => truthy other

/-- One component per default: that of the array, or the default where the array
has none. -/
def componentsOf {α : Type} (convert : Json → α) : List α → List Json → List α
  | [], _ => []
  | fallback :: defaults, [] => fallback :: componentsOf convert defaults []
  | fallback :: defaults, .null :: items => fallback :: componentsOf convert defaults items
  | _ :: defaults, item :: items => convert item :: componentsOf convert defaults items

/-- One component per default; what is no array gives the defaults. -/
def components {α : Type} (convert : Json → α) (defaults : List α) : Json → List α
  | .array items => componentsOf convert defaults items
  | _ => defaults

end Coercion
end Collage
