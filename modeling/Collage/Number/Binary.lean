import Collage.Number.Power

/-!
# Binary floating-point formats

A `BinaryFormat` says how many fraction and exponent bits a floating-point
number has.  `read` says which number a bit pattern stands for, exactly, and
`roundRatio` gives the bit pattern nearest to a ratio of natural numbers, ties
to the even one.  Everything else here is built from these two: reading a
decimal, changing precision, and taking an integer part.  None of it goes
through floating-point arithmetic, so all of it can be reasoned about.
-/

namespace Collage

/-- A binary floating-point format: a sign bit, `exponent` exponent bits and
`fraction` fraction bits. -/
structure BinaryFormat where
  fraction : Nat
  exponent : Nat
  deriving Repr, DecidableEq

/-- The exact value of a bit pattern; a finite one is `mantissa · 2 ^ power`. -/
inductive Magnitude
  | finite (mantissa : Nat) (power : Int)
  | infinite
  | notANumber
  deriving Repr, DecidableEq

namespace BinaryFormat

/-- Sixty-four bits. -/
def double : BinaryFormat := ⟨52, 11⟩

/-- Thirty-two bits. -/
def single : BinaryFormat := ⟨23, 8⟩

/-- The exponent of the least positive number. -/
def leastPower (f : BinaryFormat) : Int :=
  2 - (twoPow (f.exponent - 1) : Nat) - f.fraction

/-- The bit pattern of positive infinity. -/
def infinity (f : BinaryFormat) : Nat :=
  (twoPow f.exponent - 1) * twoPow f.fraction

/-- The bit pattern of negative zero. -/
def signBit (f : BinaryFormat) : Nat :=
  twoPow (f.fraction + f.exponent)

/-- The sign and the magnitude that a bit pattern stands for. -/
def read (f : BinaryFormat) (bits : Nat) : Bool × Magnitude :=
  let negative := f.signBit ≤ bits
  let body := bits % f.signBit
  let field := body / twoPow f.fraction
  let fraction := body % twoPow f.fraction
  let magnitude :=
    if f.infinity < body then .notANumber
    else if f.infinity = body then .infinite
    else if field = 0 then .finite fraction f.leastPower
    else .finite (twoPow f.fraction + fraction) (f.leastPower + (field - 1 : Nat))
  (negative, magnitude)

/-- `num / den` rounded to an integer, a half going to the even neighbour. -/
def roundHalfEven (num den : Nat) : Nat :=
  let quotient := num / den
  let twice := 2 * (num % den)
  if twice < den then quotient
  else if den < twice then quotient + 1
  else quotient + quotient % 2

/-- `num / den` scaled by `2 ^ (-power)`, as a ratio. -/
def scaled (num den : Nat) (power : Int) : Nat × Nat :=
  if 0 ≤ power then (num, den * twoPow power.toNat) else (num * twoPow (-power).toNat, den)

/-- The bit pattern nearest to `num / den`, ties to the even pattern; infinity
when the ratio is too large. -/
def roundRatio (f : BinaryFormat) (num den : Nat) : Nat :=
  if num = 0 ∨ den = 0 then 0
  else
    let estimate : Int := (Nat.log2 num : Int) - Nat.log2 den - f.fraction
    let (n₀, d₀) := scaled num den estimate
    let power := max f.leastPower (if n₀ < twoPow f.fraction * d₀ then estimate - 1 else estimate)
    let (n, d) := scaled num den power
    let bits := (power - f.leastPower).toNat * twoPow f.fraction + roundHalfEven n d
    min bits f.infinity

/-- The bit pattern nearest to `mantissa · 2 ^ power`. -/
def roundScaled (f : BinaryFormat) (mantissa : Nat) (power : Int) : Nat :=
  if 0 ≤ power then f.roundRatio (mantissa * twoPow power.toNat) 1
  else f.roundRatio mantissa (twoPow (-power).toNat)

/-- The bit pattern with the given sign. -/
def withSign (f : BinaryFormat) (negative : Bool) (bits : Nat) : Nat :=
  if negative then f.signBit + bits else bits

/-- The bit pattern of one format nearest to the number that a pattern of
another stands for. -/
def convert (source target : BinaryFormat) (bits : Nat) : Nat :=
  let (negative, magnitude) := source.read bits
  match magnitude with
  | .finite mantissa power => target.withSign negative (target.roundScaled mantissa power)
  | .infinite => target.withSign negative target.infinity
  | .notANumber => target.infinity + twoPow (target.fraction - 1)

/-- The bit pattern nearest to an integer. -/
def ofInt (f : BinaryFormat) (value : Int) : Nat :=
  f.withSign (value < 0) (f.roundRatio value.natAbs 1)

end BinaryFormat

/-- Which integer a number between two integers goes to. -/
inductive IntegerPart
  /-- the one nearer to zero -/
  | towardZero
  /-- the lower one -/
  | floor
  /-- the nearer one, a half going away from zero -/
  | nearest
  deriving Repr, DecidableEq

namespace BinaryFormat

/-- The integer part of `± mantissa · 2 ^ power`. -/
def integerOf (part : IntegerPart) (negative : Bool) (mantissa : Nat) (power : Int) : Int :=
  let (num, den) := scaled mantissa 1 (-power)
  let whole := num / den
  let rest := num % den
  let magnitude :=
    match part with
    | .towardZero => whole
    | .floor => if negative && rest != 0 then whole + 1 else whole
    | .nearest => if den ≤ 2 * rest then whole + 1 else whole
  if negative then -(magnitude : Int) else magnitude

/-- The integer part of the number that a pattern stands for, kept within
`lowest` and `highest`; what is no number counts as zero. -/
def toInt (f : BinaryFormat) (part : IntegerPart) (lowest highest : Int) (bits : Nat) : Int :=
  match f.read bits with
  | (negative, .finite mantissa power) =>
    max lowest (min highest (integerOf part negative mantissa power))
  | (negative, .infinite) => if negative then lowest else highest
  | (_, .notANumber) => 0

end BinaryFormat

/-- The least integer of 64 bits. -/
def int64Lowest : Int := -(twoPow 63 : Nat)

/-- The greatest integer of 64 bits. -/
def int64Highest : Int := (twoPow 63 - 1 : Nat)

/-- The greatest natural number of 64 bits. -/
def word64Highest : Int := (twoPow 64 - 1 : Nat)

end Collage

namespace Float

open Collage (BinaryFormat IntegerPart int64Lowest int64Highest)

/-- A double rounded to single precision. -/
def narrow (x : Float) : Float32 :=
  Float32.ofBits (BinaryFormat.double.convert .single x.toBits.toNat).toUInt32

/-- The double nearest to an integer. -/
def nearest (value : Int) : Float :=
  Float.ofBits (BinaryFormat.double.ofInt value).toUInt64

/-- The integer part of a double, kept within 64 bits. -/
def integerPart (part : IntegerPart) (x : Float) : Int :=
  BinaryFormat.double.toInt part int64Lowest int64Highest x.toBits.toNat

/-- Whether the sign bit is set; zero has one too. -/
def signed (x : Float) : Bool :=
  (BinaryFormat.double.read x.toBits.toNat).1

/-- The lesser of two numbers, the second of two equal ones; what is no number
gives way to the other. -/
def lesser (x y : Float) : Float :=
  if x.isNaN then y else if y.isNaN then x else if x < y then x else y

/-- The greater of two numbers, the second of two equal ones; what is no number
gives way to the other. -/
def greater (x y : Float) : Float :=
  if x.isNaN then y else if y.isNaN then x else if y < x then x else y

/-- A number kept within two bounds; what is no number stays as it is. -/
def within (lowest highest x : Float) : Float :=
  if x < lowest then lowest else if highest < x then highest else x

end Float

namespace Float32

open Collage (BinaryFormat IntegerPart)

/-- A single-precision number as a double; no digit is lost. -/
def widen (x : Float32) : Float :=
  Float.ofBits (BinaryFormat.single.convert .double x.toBits.toNat).toUInt64

/-- The single-precision number nearest to an integer. -/
def nearest (value : Int) : Float32 :=
  Float32.ofBits (BinaryFormat.single.ofInt value).toUInt32

/-- The integer part of a single-precision number, kept within two bounds. -/
def integerPart (part : IntegerPart) (lowest highest : Int) (x : Float32) : Int :=
  BinaryFormat.single.toInt part lowest highest x.toBits.toNat

/-- Whether the sign bit is set; zero has one too. -/
def signed (x : Float32) : Bool :=
  (BinaryFormat.single.read x.toBits.toNat).1

/-- The lesser of two numbers, the second of two equal ones; what is no number
gives way to the other. -/
def lesser (x y : Float32) : Float32 :=
  if x.isNaN then y else if y.isNaN then x else if x < y then x else y

/-- The greater of two numbers, the second of two equal ones; what is no number
gives way to the other. -/
def greater (x y : Float32) : Float32 :=
  if x.isNaN then y else if y.isNaN then x else if y < x then x else y

/-- A number kept within two bounds; what is no number stays as it is. -/
def within (lowest highest x : Float32) : Float32 :=
  if x < lowest then lowest else if highest < x then highest else x

end Float32
