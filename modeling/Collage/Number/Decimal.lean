import Collage.Number.Binary

/-!
# Decimal notation

`Decimal` is a sign, a natural number and a power of ten.  `shortest` finds the
fewest digits that read back as a given binary number, and of these the ones
nearest to it; `write` lays digits out by a `DecimalLayout`.  `Decimal.parse`
reads the usual notation and `Decimal.toBits` rounds it correctly, so the two
directions meet: what `shortest` gives, `toBits` takes back.
-/

namespace Collage

/-- `± digits · 10 ^ power`. -/
structure Decimal where
  negative : Bool
  digits : Nat
  power : Int
  deriving Repr, DecidableEq

namespace Decimal

/-- How many digits a number has; zero has one. -/
def digitCount (n : Nat) : Nat :=
  (Nat.toDigits 10 n).length

/-! ### The fewest digits -/

/-- Whether `a · 2 ^ p ≤ b · 10 ^ q`. -/
def binaryLe (a : Nat) (p : Int) (b : Nat) (q : Int) : Bool :=
  let left := a * twoPow p.toNat * tenPow (-q).toNat
  let right := b * tenPow q.toNat * twoPow (-p).toNat
  left ≤ right

/-- The interval of reals that round to `mantissa · 2 ^ power`, in quarters of
the last place: its two ends, and whether they belong to it. -/
structure RoundingRange where
  low : Nat
  high : Nat
  power : Int
  closed : Bool

/-- The gap below a power of two is half as wide as the gap above it. -/
def roundingRange (f : BinaryFormat) (mantissa : Nat) (power : Int) : RoundingRange :=
  let below := if mantissa = twoPow f.fraction ∧ f.leastPower < power then 1 else 2
  ⟨4 * mantissa - below, 4 * mantissa + 2, power - 2, mantissa % 2 = 0⟩

/-- Whether `digits · 10 ^ power` lies in the interval. -/
def RoundingRange.contains (range : RoundingRange) (digits : Nat) (power : Int) : Bool :=
  let atLeastLow := binaryLe range.low range.power digits power
  let atMostLow :=
    digits * tenPow power.toNat * twoPow (-range.power).toNat ≤
      range.low * twoPow range.power.toNat * tenPow (-power).toNat
  let atLeastHigh := binaryLe range.high range.power digits power
  let atMostHigh :=
    digits * tenPow power.toNat * twoPow (-range.power).toNat ≤
      range.high * twoPow range.power.toNat * tenPow (-power).toNat
  if range.closed then atLeastLow && atMostHigh else !atMostLow && !atLeastHigh

/-- The greatest power of ten that is no more than `mantissa · 2 ^ power`,
sought upward from `guess`. -/
def leadingPower (mantissa : Nat) (power : Int) : Nat → Int → Int
  | 0, guess => guess
  | steps + 1, guess =>
    let next := guess + 1
    let fits := tenPow next.toNat * twoPow (-power).toNat ≤
      mantissa * twoPow power.toNat * tenPow (-next).toNat
    if fits then leadingPower mantissa power steps next else guess

/-- The point of the grid of multiples of `10 ^ grid` that lies in the interval
and is nearest to the value, the even one of two equally near. -/
def nearestOnGrid (range : RoundingRange) (mantissa : Nat) (power grid : Int) : Option Nat :=
  let num := mantissa * twoPow power.toNat * tenPow (-grid).toNat
  let den := tenPow grid.toNat * twoPow (-power).toNat
  let below := num / den
  let twice := 2 * (num % den)
  let lowFits := range.contains below grid
  let highFits := range.contains (below + 1) grid
  if lowFits && highFits then
    some (if twice < den then below
      else if den < twice then below + 1
      else below + below % 2)
  else if lowFits then some below
  else if highFits then some (below + 1)
  else none

/-- The first grid, from coarse to fine, with a point in the interval. -/
def firstGrid (range : RoundingRange) (mantissa : Nat) (power : Int) : Nat → Int → Nat × Int
  | 0, grid => (mantissa, grid)
  | steps + 1, grid =>
    match nearestOnGrid range mantissa power grid with
    | some digits => (digits, grid)
    | none => firstGrid range mantissa power steps (grid - 1)

/-- Trailing zeros of `digits` moved into the power of ten. -/
def stripZeros : Nat → Nat → Int → Nat × Int
  | 0, digits, power => (digits, power)
  | steps + 1, digits, power =>
    if digits ≠ 0 ∧ digits % 10 = 0 then stripZeros steps (digits / 10) (power + 1)
    else (digits, power)

/-- The fewest digits that read back as `mantissa · 2 ^ power`. -/
def shortestOf (f : BinaryFormat) (mantissa : Nat) (power : Int) : Nat × Int :=
  if mantissa = 0 then (0, 0)
  else
    let range := roundingRange f mantissa power
    let bits : Int := (Nat.log2 mantissa : Int) + power
    let lead := leadingPower mantissa power 4 (bits * 30103 / 100000 - 2)
    let (digits, grid) := firstGrid range mantissa power 20 lead
    stripZeros 20 digits grid

/-- The shortest decimal of a finite bit pattern. -/
def ofBits? (f : BinaryFormat) (bits : Nat) : Option Decimal :=
  match f.read bits with
  | (negative, .finite mantissa power) =>
    let (digits, exponent) := shortestOf f mantissa power
    some ⟨negative, digits, exponent⟩
  | _ => none

/-- The bit pattern nearest to a decimal.  Exponents far outside the format are
settled by their size alone. -/
def toBits (f : BinaryFormat) (d : Decimal) : Nat :=
  let magnitude :=
    if d.digits = 0 then 0
    else
      let lead := (digitCount d.digits : Int) + d.power
      if 400 < lead then f.infinity
      else if lead < -400 then 0
      else if 0 ≤ d.power then f.roundRatio (d.digits * tenPow d.power.toNat) 1
      else f.roundRatio d.digits (tenPow (-d.power).toNat)
  f.withSign d.negative magnitude

end Decimal

/-! ### Layout -/

/-- How digits `d.ddd · 10 ^ e` are written: positionally when `lowest ≤ e` and
`e ≤ highest`, and otherwise with an exponent. -/
structure DecimalLayout where
  lowest : Int
  highest : Int
  deriving Repr, DecidableEq

namespace DecimalLayout

/-- A double is written positionally from `0.00001` to below `10 ^ 16`. -/
def double : DecimalLayout := ⟨-5, 15⟩

/-- A single-precision number is written positionally from `0.000001` to below
`10 ^ 13`. -/
def single : DecimalLayout := ⟨-6, 12⟩

/-- The digits of an exponent, always with a sign. -/
def exponentText (e : Int) : String :=
  (if e < 0 then "-" else "+") ++ toString e.natAbs

/-- Writes a decimal.  A whole number keeps one zero after the point, and an
exponent always has its sign. -/
def write (layout : DecimalLayout) (d : Decimal) : String :=
  let sign := if d.negative then "-" else ""
  let digits := Nat.toDigits 10 d.digits
  let lead : Int := digits.length - 1 + d.power
  let body :=
    if d.digits = 0 then "0.0"
    else if layout.lowest ≤ lead ∧ lead ≤ layout.highest then
      if 0 ≤ d.power then
        String.ofList (digits ++ List.replicate d.power.toNat '0') ++ ".0"
      else if lead < 0 then
        "0." ++ String.ofList (List.replicate (-lead - 1).toNat '0' ++ digits)
      else
        String.ofList (digits.take (lead.toNat + 1)) ++ "." ++
          String.ofList (digits.drop (lead.toNat + 1))
    else
      let mantissa :=
        match digits with
        | [] => ""
        | [c] => String.singleton c
        | c :: rest => String.singleton c ++ "." ++ String.ofList rest
      mantissa ++ "e" ++ exponentText lead
  sign ++ body

end DecimalLayout

/-! ### Reading -/

namespace Decimal

/-- The value of a run of decimal digits, appended to `start`. -/
def readDigits (start : Nat) (digits : List Char) : Nat :=
  digits.foldl (fun n c => n * 10 + (c.toNat - '0'.toNat)) start

/-- Splits a sign off. -/
def splitSign : List Char → Bool × List Char
  | '-' :: rest => (true, rest)
  | '+' :: rest => (false, rest)
  | rest => (false, rest)

/-- The exponent that follows a mantissa: nothing, or `e` with an optional sign
and at least one digit. -/
def parseExponent : List Char → Option Int
  | [] => some 0
  | c :: rest =>
    if c = 'e' ∨ c = 'E' then
      let (negative, digits) := splitSign rest
      if digits.isEmpty || !digits.all Char.isDigit then none
      else
        let size : Int := readDigits 0 digits
        some (if negative then -size else size)
    else none

/-- Reads digits with an optional sign, point and exponent; at least one digit
stands before or after the point. -/
def parse (text : List Char) : Option Decimal :=
  let (negative, body) := splitSign text
  let whole := body.takeWhile Char.isDigit
  let afterWhole := body.dropWhile Char.isDigit
  let (fraction, rest) :=
    match afterWhole with
    | '.' :: more => (more.takeWhile Char.isDigit, more.dropWhile Char.isDigit)
    | _ => ([], afterWhole)
  if whole.isEmpty && fraction.isEmpty then none
  else
    (parseExponent rest).map fun exponent =>
      ⟨negative, readDigits (readDigits 0 whole) fraction, exponent - fraction.length⟩

/-- Reads a number of a binary format: a decimal, or one of the words for
infinity and for what is no number, in any case of letters. -/
def parseBits (f : BinaryFormat) (text : List Char) : Option Nat :=
  match parse text with
  | some d => some (d.toBits f)
  | none =>
    let (negative, body) := splitSign text
    let word := String.ofList (body.map Char.toLower)
    if word = "inf" ∨ word = "infinity" then some (f.withSign negative f.infinity)
    else if word = "nan" then some (f.withSign negative (f.infinity + twoPow (f.fraction - 1)))
    else none

end Decimal

end Collage

namespace Float

open Collage

/-- The text of a finite double; `none` for the others. -/
def decimalText? (x : Float) : Option String :=
  (Decimal.ofBits? .double x.toBits.toNat).map DecimalLayout.double.write

/-- Reads a double, correctly rounded. -/
def ofText? (text : String) : Option Float :=
  (Decimal.parseBits .double text.toList).map fun bits => Float.ofBits bits.toUInt64

end Float

namespace Float32

open Collage

/-- The text of a finite single-precision number; `none` for the others. -/
def decimalText? (x : Float32) : Option String :=
  (Decimal.ofBits? .single x.toBits.toNat).map DecimalLayout.single.write

/-- Reads a single-precision number, correctly rounded. -/
def ofText? (text : String) : Option Float32 :=
  (Decimal.parseBits .single text.toList).map fun bits => Float32.ofBits bits.toUInt32

end Float32
