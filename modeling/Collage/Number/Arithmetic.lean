import Collage.Number.Decimal

/-!
# Arithmetic on colour channels

Colours are computed with in single precision, but what the formulas mean does
not depend on rounding.  `Arithmetic` names the operations they use, so that one
formula serves for single precision and for exact numbers alike.
-/

namespace Collage

/-- The numbers that colour formulas are computed with. -/
class Arithmetic (α : Type) where
  add : α → α → α
  sub : α → α → α
  mul : α → α → α
  div : α → α → α
  neg : α → α
  abs : α → α
  sqrt : α → α
  /-- the part after the point, with the sign of the number -/
  fract : α → α
  sine : α → α
  lt : α → α → Bool
  le : α → α → Bool
  eq : α → α → Bool
  /-- a total order that also places what is no number -/
  precedes : α → α → Bool
  /-- `digits · 10 ^ (-places)` -/
  literal : (digits : Nat) → (places : Nat) → α
  /-- the least step above one -/
  epsilon : α

namespace Arithmetic

variable {α : Type} [Arithmetic α]

instance : Add α := ⟨Arithmetic.add⟩
instance : Sub α := ⟨Arithmetic.sub⟩
instance : Mul α := ⟨Arithmetic.mul⟩
instance : Div α := ⟨Arithmetic.div⟩

/-- Zero. -/
def zero : α := literal 0 0

/-- One. -/
def one : α := literal 1 0

/-- Whether a number is not even equal to itself. -/
def undefined (x : α) : Bool :=
  !le x x

/-- The lesser of two numbers, the second of two equal ones; what is no number
gives way to the other. -/
def lesser (x y : α) : α :=
  if undefined x then y else if undefined y then x else if lt x y then x else y

/-- The greater of two numbers, the second of two equal ones; what is no number
gives way to the other. -/
def greater (x y : α) : α :=
  if undefined x then y else if undefined y then x else if lt y x then x else y

/-- A number kept within two bounds; what is no number stays as it is. -/
def within (lowest highest x : α) : α :=
  if lt x lowest then lowest else if lt highest x then highest else x

/-- A number kept between zero and one. -/
def unit (x : α) : α :=
  within zero one x

end Arithmetic

/-- An integer that orders single-precision numbers by sign and size. -/
def singleOrderKey (x : Float32) : Int :=
  let body : Int := x.toBits.toNat % twoPow 31
  if x.signed then -body - 1 else body

/-- Single precision; sine comes from the mathematics library of the system. -/
instance : Arithmetic Float32 where
  add := Float32.add
  sub := Float32.sub
  mul := Float32.mul
  div := Float32.div
  neg := Float32.neg
  abs := Float32.abs
  sqrt := Float32.sqrt
  fract x := x - (if x < 0 then x.ceil else x.floor)
  sine := Float32.sin
  lt x y := x < y
  le x y := x ≤ y
  eq x y := x == y
  precedes x y := singleOrderKey x ≤ singleOrderKey y
  literal digits places :=
    Float32.ofBits (BinaryFormat.single.roundRatio digits (tenPow places)).toUInt32
  epsilon := Float32.ofBits (BinaryFormat.single.roundRatio 1 (twoPow 23)).toUInt32

end Collage
