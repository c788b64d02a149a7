import Collage.Frame.Duration
import Collage.Text

/-!
# Spans of time as people write them

A span is a number of seconds, or a text such as `1h 30min` or `2.5s`: amounts with
units, which are added up.  `Duration.ofText?` and `Duration.ofSeconds?` read the two
forms.  Everything that is counted on the way has to fit into 64 bits.
-/

namespace Collage

/-- Why something is no span of time. -/
inductive SpanError
  /-- a text that does not have the form of a span -/
  | unreadable
  /-- a number below zero, or none -/
  | negative
  /-- more seconds than fit into 64 bits -/
  | tooLong
  deriving Repr, DecidableEq

/-- A unit of time. -/
structure TimeUnit where
  nanoseconds : Nat
  deriving Repr, DecidableEq

namespace TimeUnit

/-- The units by their names.  A month has 30.44 days and a year 365.25. -/
def named : List (List String × TimeUnit) :=
  [(["nanos", "nsec", "ns"], ⟨1⟩),
    (["usec", "us", "µs"], ⟨tenPow 3⟩),
    (["millis", "msec", "ms"], ⟨tenPow 6⟩),
    (["seconds", "second", "secs", "sec", "s"], ⟨tenPow 9⟩),
    (["minutes", "minute", "min", "mins", "m"], ⟨60 * tenPow 9⟩),
    (["hours", "hour", "hrs", "hr", "h"], ⟨3600 * tenPow 9⟩),
    (["days", "day", "d"], ⟨86400 * tenPow 9⟩),
    (["weeks", "week", "wk", "wks", "w"], ⟨604800 * tenPow 9⟩),
    (["months", "month", "M"], ⟨2630016 * tenPow 9⟩),
    (["years", "year", "yr", "yrs", "y"], ⟨31557600 * tenPow 9⟩)]

/-- The unit of a name. -/
def ofName? (name : String) : Option TimeUnit :=
  (named.find? (·.1.contains name)).map (·.2)

/-- The step that whole amounts of a unit are counted in: seconds from the second on,
nanoseconds below. -/
def wholeStep (unit : TimeUnit) : Nat :=
  if unit.nanoseconds < Duration.secondLength then 1 else Duration.secondLength

/-- The step that parts of a unit are counted in: seconds from the hour on,
nanoseconds below. -/
def partStep (unit : TimeUnit) : Nat :=
  if unit.nanoseconds < 3600 * Duration.secondLength then 1 else Duration.secondLength

end TimeUnit

/-- A number that fits into 64 bits. -/
def word64? (n : Nat) : Except SpanError Nat :=
  if n < twoPow 64 then .ok n else .error .unreadable

namespace Duration

/-- A sum to which some steps of a size are added.  The steps below the second join
the rest of the sum; where they make up exactly one more second, that second is only
counted at the end. -/
def plus (sum : Duration) (count step : Nat) : Except SpanError Duration := do
  let rest ← word64? (sum.restNanoseconds + if step = 1 then count else 0)
  let carried := if rest = secondLength then 0 else rest / secondLength
  let _ ← word64? (sum.wholeSeconds + carried + if step = 1 then 0 else count)
  let total : Duration := ⟨sum.nanoseconds + count * step⟩
  if twoPow 64 ≤ total.wholeSeconds then .error .tooLong else return total

/-- A sum to which an amount is added: a whole number of units, and a part of one in
decimal digits. -/
def plusAmount (sum : Duration) (whole : Nat) (digits : List Char) (unit : TimeUnit) :
    Except SpanError Duration := do
  let _ ← word64? (tenPow digits.length)
  let step := unit.wholeStep
  let sum ← sum.plus (← word64? (whole * (unit.nanoseconds / step))) step
  if digits.isEmpty then return sum
  let part := (readBase? 10 digits).getD 0
  let step := unit.partStep
  sum.plus ((← word64? (part * (unit.nanoseconds / step))) / tenPow digits.length) step

/-- A letter of a unit. -/
def isUnitLetter (c : Char) : Bool :=
  c.isAlpha || c = 'µ'

/-- The digits at the front of a text, and the text after them.  Blanks between digits
do not count. -/
def spacedDigits (text : List Char) : List Char × List Char :=
  let inside (c : Char) : Bool := c.isDigit || isBlank c
  ((text.takeWhile inside).filter Char.isDigit, text.dropWhile inside)

/-- The digits after a point, and the text after them; at least one digit. -/
def partDigits : List Char → Except SpanError (List Char × List Char)
  | '.' :: text =>
    let (digits, rest) := spacedDigits text
    if digits.isEmpty then .error .unreadable else .ok (digits, rest)
  | text => .ok ([], text)

/-- A sum to which the amounts of a text are added, given enough steps. -/
def plusText : Nat → Duration → List Char → Except SpanError Duration
  | 0, _, _ => .error .unreadable
  | steps + 1, sum, text => do
    let (digits, rest) := spacedDigits text
    let whole ← ((readBase? 10 digits).map word64?).getD (.error .unreadable)
    let (part, rest) ← partDigits rest
    let name := rest.takeWhile isUnitLetter
    let rest := rest.dropWhile isUnitLetter
    if rest.head?.any fun c => !c.isDigit && !isBlank c then .error .unreadable
    match TimeUnit.ofName? (String.ofList name) with
    | none => .error .unreadable
    | some unit =>
      let sum ← sum.plusAmount whole part unit
      let rest := trimStart rest
      if rest.isEmpty then return sum else plusText steps sum rest

/-- The span that a text says; a lone zero needs no unit. -/
def ofText? (text : String) : Except SpanError Duration :=
  if text = "0" then .ok ⟨0⟩ else plusText (text.length + 1) ⟨0⟩ (trimStart text.toList)

/-- The span of a number of seconds, to the nearest nanosecond. -/
def ofSeconds? (count : Float) : Except SpanError Duration :=
  match BinaryFormat.double.read count.toBits.toNat with
  | (true, _) | (_, .notANumber) => .error .negative
  | (false, .infinite) => .error .tooLong
  | (false, .finite mantissa power) =>
    let (num, den) := BinaryFormat.scaled (mantissa * secondLength) 1 (-power)
    let span : Duration := ⟨BinaryFormat.roundHalfEven num den⟩
    if twoPow 64 ≤ span.wholeSeconds then .error .tooLong else .ok span

end Duration
end Collage
