import Collage.Number.Binary

/-!
# Spans of time

A span of time is a whole number of nanoseconds.  It is measured in seconds where
it is computed with.
-/

namespace Collage

/-- A span of time. -/
structure Duration where
  nanoseconds : Nat
  deriving Repr, DecidableEq, Inhabited

namespace Duration

/-- How many nanoseconds a second has. -/
def secondLength : Nat := tenPow 9

/-- A span of microseconds. -/
def ofMicroseconds (count : Nat) : Duration :=
  ⟨count * 1000⟩

/-- A span of milliseconds. -/
def ofMilliseconds (count : Nat) : Duration :=
  ⟨count * tenPow 6⟩

/-- A span of seconds. -/
def ofSeconds (count : Nat) : Duration :=
  ⟨count * secondLength⟩

/-- The full seconds. -/
def wholeSeconds (span : Duration) : Nat :=
  span.nanoseconds / secondLength

/-- The nanoseconds beyond the full seconds. -/
def restNanoseconds (span : Duration) : Nat :=
  span.nanoseconds % secondLength

/-- The length in seconds: the full seconds and the rest are rounded apart, then
added. -/
def seconds (span : Duration) : Float :=
  Float.nearest span.wholeSeconds + Float.nearest span.restNanoseconds / Float.nearest secondLength

end Duration
end Collage
