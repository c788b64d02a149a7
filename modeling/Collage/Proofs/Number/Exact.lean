import Collage.Number.Arithmetic
import Mathlib.Algebra.Order.Field.Basic
import Mathlib.Algebra.Order.Floor.Ring
import Mathlib.Data.Rat.Floor
import Mathlib.Data.Set.Operations

/-!
# Exact arithmetic

`Exact ι` says that the numbers of an ordered field are among those that formulas are computed
with, and that the formulas compute exactly with them.  What a division by zero gives is left open,
and so is what any operation makes of it: it may be another number, or a mark that spoils all that
it meets.  So a formula comes to a number of the field, whatever `ι` is, only where nothing that
it comes to goes back to a division by zero.

Roots and sines may be any numbers of the field.  Of the part after the point it is only said that
it is less than one.

`Fraction` has such an arithmetic: fractions, and one mark for all that a division by zero leads to
(`exact_of`).
-/

namespace Collage
namespace Arithmetic

variable {K α : Type} [Field K] [LinearOrder K] [Arithmetic α]

/-- Formulas compute exactly with the numbers of a field, unless they divide by zero. -/
structure Exact (ι : K → α) : Prop where
  add (x y : K) : ι x + ι y = ι (x + y)
  sub (x y : K) : ι x - ι y = ι (x - y)
  mul (x y : K) : ι x * ι y = ι (x * y)
  div (x : K) {y : K} (nonzero : y ≠ 0) : ι x / ι y = ι (x / y)
  neg (x : K) : Arithmetic.neg (ι x) = ι (-x)
  abs (x : K) : Arithmetic.abs (ι x) = ι |x|
  sqrt (x : K) : Arithmetic.sqrt (ι x) ∈ Set.range ι
  sine (x : K) : Arithmetic.sine (ι x) ∈ Set.range ι
  fract (x : K) : ∃ part, |part| < 1 ∧ Arithmetic.fract (ι x) = ι part
  lt (x y : K) : Arithmetic.lt (ι x) (ι y) = decide (x < y)
  le (x y : K) : Arithmetic.le (ι x) (ι y) = decide (x ≤ y)
  eq (x y : K) : Arithmetic.eq (ι x) (ι y) = decide (x = y)
  precedes (x y : K) : Arithmetic.precedes (ι x) (ι y) = decide (x ≤ y)
  literal (digits places : ℕ) : Arithmetic.literal digits places = ι (digits / 10 ^ places)
  epsilon : Arithmetic.epsilon = ι (1 / 2 ^ 23)

/-- A number kept between zero and one. -/
def clamp (x : K) : K :=
  max 0 (min x 1)

section

variable [IsStrictOrderedRing K]

theorem clamp_mem (x : K) : clamp x ∈ Set.Icc 0 1 :=
  ⟨le_max_left 0 _, max_le zero_le_one (min_le_right x 1)⟩

end

theorem clamp_of_mem {x : K} (h : x ∈ Set.Icc 0 1) : clamp x = x := by
  rw [clamp, min_eq_left h.2, max_eq_right h.1]

namespace Exact

variable {ι : K → α} (exact : Exact ι)

include exact

theorem injective : Function.Injective ι := by
  intro x y same
  have equal : decide (x = y) = decide (y = y) := by rw [← exact.eq, ← exact.eq, same]
  simpa using equal

theorem zero : (Arithmetic.zero : α) = ι 0 := by
  rw [Arithmetic.zero, exact.literal, Nat.cast_zero, zero_div]

theorem one : (Arithmetic.one : α) = ι 1 := by
  rw [Arithmetic.one, exact.literal, Nat.cast_one, pow_zero, div_one]

theorem undefined (x : K) : Arithmetic.undefined (ι x) = false := by
  simp [Arithmetic.undefined, exact.le]

theorem lesser (x y : K) : Arithmetic.lesser (ι x) (ι y) = ι (min x y) := by
  simp only [Arithmetic.lesser, exact.undefined, exact.lt, Bool.false_eq_true, if_false,
    decide_eq_true_eq]
  split
  · next less => rw [min_eq_left less.le]
  · next more => rw [min_eq_right (not_lt.mp more)]

theorem greater (x y : K) : Arithmetic.greater (ι x) (ι y) = ι (max x y) := by
  simp only [Arithmetic.greater, exact.undefined, exact.lt, Bool.false_eq_true, if_false,
    decide_eq_true_eq]
  split
  · next less => rw [max_eq_left less.le]
  · next more => rw [max_eq_right (not_lt.mp more)]

variable [IsStrictOrderedRing K]

theorem unit (x : K) : Arithmetic.unit (ι x) = ι (clamp x) := by
  simp only [Arithmetic.unit, Arithmetic.within, exact.zero, exact.one, exact.lt,
    decide_eq_true_eq, clamp]
  split
  · next negative => rw [min_eq_left (negative.le.trans zero_le_one), max_eq_left negative.le]
  · next low =>
    split
    · next high => rw [min_eq_right high.le, max_eq_right zero_le_one]
    · next high => rw [min_eq_left (not_lt.mp high), max_eq_right (not_lt.mp low)]

theorem unit_of_mem {x : K} (h : x ∈ Set.Icc 0 1) : Arithmetic.unit (ι x) = ι x := by
  rw [exact.unit, clamp_of_mem h]

end Exact

/-! ### Fractions with a mark for what is none -/

/-- The part of a fraction after the point, with its sign. -/
def fractionalPart (x : ℚ) : ℚ :=
  if x < 0 then x - ⌈x⌉ else x - ⌊x⌋

theorem abs_fractionalPart_lt (x : ℚ) : |fractionalPart x| < 1 := by
  unfold fractionalPart
  split
  · have below := Int.le_ceil x
    have above := Int.ceil_lt_add_one x
    exact abs_lt.mpr ⟨by linarith, by linarith⟩
  · have below := Int.floor_le x
    have above := Int.lt_floor_add_one x
    exact abs_lt.mpr ⟨by linarith, by linarith⟩

/-- A fraction, or a mark for what is none. -/
def Fraction : Type :=
  Option ℚ

/-- A fraction among the fractions and the mark. -/
def Fraction.of (x : ℚ) : Fraction :=
  some x

/-- A division by zero gives the mark, and so does every operation on it; comparing it says no.
Roots and sines are not exact: they are what they are of. -/
instance : Arithmetic Fraction where
  add x y := Option.map₂ (· + ·) x y
  sub x y := Option.map₂ (· - ·) x y
  mul x y := Option.map₂ (· * ·) x y
  div x y := Option.bind x fun a => Option.bind y fun b => if b = 0 then none else some (a / b)
  neg x := Option.map (-·) x
  abs x := Option.map (|·|) x
  sqrt x := x
  fract x := Option.map fractionalPart x
  sine x := x
  lt x y := (Option.map₂ (fun a b => decide (a < b)) x y).getD false
  le x y := (Option.map₂ (fun a b => decide (a ≤ b)) x y).getD false
  eq x y := (Option.map₂ (fun a b => decide (a = b)) x y).getD false
  precedes x y := (Option.map₂ (fun a b => decide (a ≤ b)) x y).getD false
  literal digits places := some (digits / 10 ^ places)
  epsilon := some (1 / 2 ^ 23)

theorem exact_of : Exact Fraction.of where
  add _ _ := rfl
  sub _ _ := rfl
  mul _ _ := rfl
  div _ _ nonzero := if_neg nonzero
  neg _ := rfl
  abs _ := rfl
  sqrt x := ⟨x, rfl⟩
  sine x := ⟨x, rfl⟩
  fract x := ⟨fractionalPart x, abs_fractionalPart_lt x, rfl⟩
  lt _ _ := rfl
  le _ _ := rfl
  eq _ _ := rfl
  precedes _ _ := rfl
  literal _ _ := rfl
  epsilon := rfl

/-- A division by zero does not go unnoticed. -/
theorem Fraction.div_zero_notMem (x : ℚ) :
    Fraction.of x / Fraction.of 0 ∉ Set.range Fraction.of := by
  rintro ⟨y, same⟩
  have mark : (if (0 : ℚ) = 0 then none else some (x / 0)) = none := if_pos rfl
  exact Option.some_ne_none y (same.trans mark)

end Arithmetic
end Collage
