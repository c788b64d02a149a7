import Collage.Number.Arithmetic
import Collage.Text

/-!
# Gradients

A gradient is a list of colours at positions.  `sample` gives the colour at a
point between zero and one, `rasterize` a row of such colours as bytes, and
`ofShorthand?` reads the short written form `#rrggbb[aa] [position], …`.
-/

namespace Collage

/-- A colour with an opacity. -/
structure Color (α : Type) where
  red : α
  green : α
  blue : α
  alpha : α
  deriving Repr, DecidableEq, BEq, Inhabited

namespace Color

/-- The four channels, red first. -/
def toList {α : Type} (c : Color α) : List α :=
  [c.red, c.green, c.blue, c.alpha]

/-- The colour of four channels. -/
def ofList? {α : Type} : List α → Option (Color α)
  | [red, green, blue, alpha] => some ⟨red, green, blue, alpha⟩
  | _ => none

/-- Every channel changed in the same way. -/
def map {α β : Type} (f : α → β) (c : Color α) : Color β :=
  ⟨f c.red, f c.green, f c.blue, f c.alpha⟩

/-- Every channel joined with that of another colour. -/
def zipWith {α β γ : Type} (f : α → β → γ) (c : Color α) (d : Color β) : Color γ :=
  ⟨f c.red d.red, f c.green d.green, f c.blue d.blue, f c.alpha d.alpha⟩

/-- One value in every channel. -/
def constant {α : Type} (x : α) : Color α :=
  ⟨x, x, x, x⟩

end Color

/-- A colour at a position. -/
structure GradientStop (α : Type) where
  position : α
  color : Color α
  deriving Repr, DecidableEq, BEq, Inhabited

/-- Colours at positions. -/
structure Gradient (α : Type) where
  stops : List (GradientStop α)
  deriving Repr, DecidableEq, BEq, Inhabited

namespace Gradient

/-! ### Sampling -/

section

variable {α : Type} [Arithmetic α]

open Arithmetic

/-- The stops by position, those at one position in the order written. -/
def sortedStops (g : Gradient α) : List (GradientStop α) :=
  g.stops.mergeSort fun a b => precedes a.position b.position

/-- The colour between two stops, at a point no higher than the second.  Stops
closer than the least step count as that far apart. -/
def between (lower upper : GradientStop α) (t : α) : Color α :=
  let span := greater (upper.position - lower.position) epsilon
  let portion := (t - lower.position) / span
  lower.color.zipWith (fun x y => x + (y - x) * portion) upper.color

/-- The colour at `t` between the first stop and the ones that follow it. -/
def sampleAfter (t : α) : GradientStop α → List (GradientStop α) → Color α
  | last, [] => last.color
  | lower, upper :: rest =>
    if le t upper.position then between lower upper t else sampleAfter t upper rest

/-- The colour at a point: that of the first stop up to its position, that of
the last stop from its position on, and in between a mixture of the two stops on
either side.  Without stops it is transparent. -/
def sample (g : Gradient α) (point : α) : Color α :=
  let t := unit point
  match g.sortedStops with
  | [] => Color.constant zero
  | first :: rest => if le t first.position then first.color else sampleAfter t first rest

end

/-- Opaque black to opaque white. -/
def standard : Gradient Float32 :=
  ⟨[⟨0, ⟨0, 0, 0, 1⟩⟩, ⟨1, ⟨1, 1, 1, 1⟩⟩]⟩

/-- A channel as a byte. -/
def channelByte (x : Float32) : Nat :=
  ((Float32.within 0 1 x * 255).integerPart .nearest 0 255).toNat

/-- Colours at `width` evenly spaced points, as bytes. -/
def rasterize (g : Gradient Float32) (width : Nat) : List (Color Nat) :=
  let last := Float32.nearest (max (width - 1) 1 : Nat)
  (List.range width).map fun (index : Nat) =>
    (g.sample (Float32.nearest index / last)).map channelByte

/-- The bit patterns of all positions and channels; gradients with one key have
the same colours. -/
def key (g : Gradient Float32) : List UInt32 :=
  g.stops.flatMap fun stop => (stop.position :: stop.color.toList).map Float32.toBits

/-! ### The short written form -/

/-- Two digits of a colour; the first may be a plus sign. -/
def readChannel? (high low : Char) : Option Float32 :=
  let value :=
    if high = '+' then hexDigit? low
    else readBase? 16 [high, low]
  value.map fun n => Float32.nearest n / 255

/-- A number sign and the digits of three or four channels. -/
def readColor? : List Char → Option (Color Float32)
  | ['#', r, r', g, g', b, b'] => do
    let red ← readChannel? r r'
    let green ← readChannel? g g'
    let blue ← readChannel? b b'
    return ⟨red, green, blue, 1⟩
  | ['#', r, r', g, g', b, b', a, a'] => do
    let red ← readChannel? r r'
    let green ← readChannel? g g'
    let blue ← readChannel? b b'
    let alpha ← readChannel? a a'
    return ⟨red, green, blue, alpha⟩
  | _ => none

/-- A colour, and a position when one follows it. -/
def readEntry? (entry : List Char) : Option (Color Float32 × Option Float32) :=
  match words entry with
  | [color] => (readColor? color).map fun c => (c, none)
  | [color, position] => do
    let c ← readColor? color
    let p ← Float32.ofText? (String.ofList position)
    return (c, some p)
  | _ => none

/-- Reads the short written form: at least two colours between commas.  A colour
without a position stands where it would in an even spacing of all of them. -/
def ofShorthand? (text : String) : Option (Gradient Float32) := do
  let entries ← (splitAtAll (· = ',') text.toList).mapM readEntry?
  if entries.length < 2 then none
  else
    let last := Float32.nearest (entries.length - 1 : Nat)
    some ⟨entries.mapIdx fun index (color, position) =>
      ⟨position.getD (Float32.nearest index / last), color⟩⟩

end Gradient
end Collage
