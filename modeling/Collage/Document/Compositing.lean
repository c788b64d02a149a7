import Collage.Document.Blend
import Collage.Document.Gradient

/-!
# Compositing colours

What the generated blend functions compute, on single colours.  Colours are
straight: their channels are not multiplied by their opacity.  The formulas are
written over any `Arithmetic`.
-/

namespace Collage
namespace Compositing

open Arithmetic

variable {α : Type} [Arithmetic α]

/-- The three channels of a colour without its opacity. -/
structure Tint (α : Type) where
  red : α
  green : α
  blue : α
  deriving Repr, DecidableEq, BEq

/-- The channels of a colour. -/
def tint (c : Color α) : Tint α :=
  ⟨c.red, c.green, c.blue⟩

/-- A colour of channels and an opacity. -/
def Tint.withAlpha (t : Tint α) (alpha : α) : Color α :=
  ⟨t.red, t.green, t.blue, alpha⟩

/-- The two of a number. -/
def two : α := literal 2 0

/-- One half. -/
def half : α := literal 5 1

/-- A pseudo-random number between zero and one for a point. -/
def hash (x y : α) : α :=
  let v := fract (sine (x * literal 129898 4 + y * literal 78233 3) * literal 437585453 4)
  if lt v zero then v + one else v

/-- How bright a colour is. -/
def luminance (t : Tint α) : α :=
  t.red * literal 3 1 + t.green * literal 59 2 + t.blue * literal 11 2

/-- Burns the lower channel. -/
def colorBurn (s d : α) : α :=
  if le one d then one
  else if le s zero then zero
  else one - lesser one ((one - d) / s)

/-- Dodges the lower channel. -/
def colorDodge (s d : α) : α :=
  if le d zero then zero
  else if le one s then one
  else lesser one (d / (one - s))

/-- Multiplies below one half, screens above. -/
def hardLight (s d : α) : α :=
  if le s half then two * s * d
  else one - two * (one - s) * (one - d)

/-- Darkens or lightens softly. -/
def softLight (s d : α) : α :=
  if le s half then d - (one - two * s) * d * (one - d)
  else
    let e :=
      if le d (literal 25 2) then ((literal 16 0 * d - literal 12 0) * d + literal 4 0) * d
      else sqrt d
    d + (two * s - one) * (e - d)

/-- Burns below one half, dodges above. -/
def vividLight (s d : α) : α :=
  if le s half then colorBurn (two * s) d else colorDodge (two * (s - half)) d

/-- One channel of the upper and the lower colour. -/
def channel (mode : BlendMode) (s d : α) : α :=
  match mode with
  | .darken => lesser s d
  | .multiply => s * d
  | .colorBurn => colorBurn s d
  | .linearBurn => greater (s + d - one) zero
  | .lighten => greater s d
  | .screen => s + d - s * d
  | .colorDodge => colorDodge s d
  | .linearDodge => lesser (s + d) one
  | .overlay => hardLight d s
  | .softLight => softLight s d
  | .hardLight => hardLight s d
  | .vividLight => vividLight s d
  | .linearLight => unit (d + two * s - one)
  | .pinLight => if le s half then lesser d (two * s) else greater d (two * (s - half))
  | .hardMix => if lt (vividLight s d) half then zero else one
  | .difference => abs (d - s)
  | .exclusion => s + d - two * s * d
  | .subtract => greater (d - s) zero
  | .divide =>
    if le s zero then (if lt zero d then one else zero) else lesser (d / s) one
  | _ => s

/-- The upper and the lower colour without their opacities. -/
def blendTint (mode : BlendMode) (s d : Tint α) : Tint α :=
  match mode with
  | .darkerColor => if lt (luminance s) (luminance d) then s else d
  | .lighterColor => if lt (luminance d) (luminance s) then s else d
  | _ => ⟨channel mode s.red d.red, channel mode s.green d.green, channel mode s.blue d.blue⟩

/-- One channel of the result: the lower colour shines through, and the blended
channel counts as far as the lower colour is opaque. -/
def mixChannel (sourceAlpha lowerAlpha alpha source blended lower : α) : α :=
  let below := lower * lowerAlpha * (one - sourceAlpha)
  let straight := (source * sourceAlpha + below) / alpha
  let aware := (blended * sourceAlpha + below) / alpha
  straight + (aware - straight) * lowerAlpha

/-- A colour over another, at a point that matters where colours dissolve. -/
def blend (mode : BlendMode) (opacity : α) (x y : α) (source destination : Color α) : Color α :=
  let sourceAlpha := unit (source.alpha * opacity)
  match mode with
  | .passThrough | .overwrite => (tint source).withAlpha sourceAlpha
  | .mask => (tint destination).withAlpha (lesser destination.alpha sourceAlpha)
  | .none => destination
  | .dissolve =>
    if lt (hash x y) sourceAlpha then (tint source).withAlpha one else destination
  | _ =>
    let alpha := sourceAlpha + destination.alpha * (one - sourceAlpha)
    if le alpha zero then Color.constant zero
    else
      let blended := blendTint mode (tint source) (tint destination)
      let mix := mixChannel sourceAlpha destination.alpha alpha
      ⟨mix source.red (unit blended.red) destination.red,
        mix source.green (unit blended.green) destination.green,
        mix source.blue (unit blended.blue) destination.blue, alpha⟩

end Compositing
end Collage
