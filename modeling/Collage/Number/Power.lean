/-!
# Powers of two and ten

Formats of numbers are measured in powers of two and of ten.
-/

namespace Collage

/-- Two times itself, `n` times. -/
def twoPow (n : Nat) : Nat :=
  Nat.pow 2 n

/-- Ten times itself, `n` times. -/
def tenPow (n : Nat) : Nat :=
  Nat.pow 10 n

@[simp] theorem twoPow_zero : twoPow 0 = 1 := rfl

theorem twoPow_succ (n : Nat) : twoPow (n + 1) = twoPow n * 2 := rfl

@[simp] theorem tenPow_zero : tenPow 0 = 1 := rfl

theorem tenPow_succ (n : Nat) : tenPow (n + 1) = tenPow n * 10 := rfl

theorem twoPow_pos (n : Nat) : 0 < twoPow n :=
  Nat.pow_pos (by decide)

theorem tenPow_pos (n : Nat) : 0 < tenPow n :=
  Nat.pow_pos (by decide)

end Collage
