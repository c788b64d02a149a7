import Collage.Proofs.Number.Rounding
import Mathlib.Algebra.Order.Floor.Semifield
import Mathlib.Data.Int.Log

/-!
# The nearest number of a format

`nearestBits` is the bit pattern nearest to a positive number, and `nearestValue` the number that
it stands for.  A number is divided by the power of two that leaves as many bits as a mantissa has
(`gridPower`) and rounded to an integer.  `roundRatio` does this for a ratio
(`roundRatio_eq_nearestBits`).

Both keep the order of numbers (`nearestBits_mono`, `nearestValue_mono`): on one grid because
rounding to an integer does, and from one grid to a wider one because the power of two between
them is on both.
-/

namespace Collage
namespace BinaryFormat

/-! ### Nearest integers -/

/-- The integer nearest to a number that is not negative, the even one of two. -/
def halfEven (x : ℚ) : ℕ :=
  if x - ⌊x⌋₊ < 1 / 2 then ⌊x⌋₊
  else if 1 / 2 < x - ⌊x⌋₊ then ⌊x⌋₊ + 1
  else ⌊x⌋₊ + ⌊x⌋₊ % 2

theorem floor_le_halfEven (x : ℚ) : ⌊x⌋₊ ≤ halfEven x := by
  unfold halfEven
  split_ifs <;> omega

theorem halfEven_le_succ_floor (x : ℚ) : halfEven x ≤ ⌊x⌋₊ + 1 := by
  unfold halfEven
  split_ifs <;> omega

theorem halfEven_mono {x y : ℚ} (le : x ≤ y) : halfEven x ≤ halfEven y := by
  rcases (Nat.floor_mono le).lt_or_eq with less | same
  · exact (halfEven_le_succ_floor x).trans (less.trans_le (floor_le_halfEven y))
  · unfold halfEven
    rw [same]
    split_ifs <;> first | omega | linarith

theorem halfEven_natCast (n : ℕ) : halfEven n = n := by
  unfold halfEven
  rw [Nat.floor_natCast, sub_self, if_pos (by norm_num)]

theorem halfEven_div (num : ℕ) {den : ℕ} (positive : 0 < den) :
    halfEven (num / den) = roundHalfEven num den := by
  have den_pos : (0 : ℚ) < den := by exact_mod_cast positive
  have whole : ⌊(num / den : ℚ)⌋₊ = num / den := Nat.floor_div_eq_div num den
  have part : (num / den : ℚ) - (num / den : ℕ) = (num % den : ℕ) / den := by
    have split : (num : ℚ) = den * (num / den : ℕ) + (num % den : ℕ) := by
      exact_mod_cast (Nat.div_add_mod num den).symm
    rw [eq_div_iff den_pos.ne', sub_mul, div_mul_cancel₀ _ den_pos.ne']
    linarith
  have below : ((num % den : ℕ) / den : ℚ) < 1 / 2 ↔ 2 * (num % den) < den := by
    rw [div_lt_div_iff₀ den_pos two_pos, one_mul, mul_comm]
    exact_mod_cast Iff.rfl
  have above : 1 / 2 < ((num % den : ℕ) / den : ℚ) ↔ den < 2 * (num % den) := by
    rw [div_lt_div_iff₀ two_pos den_pos, one_mul, mul_comm _ (2 : ℚ)]
    exact_mod_cast Iff.rfl
  unfold halfEven roundHalfEven
  simp only [whole, part, below, above]

/-! ### The grid -/

variable (f : BinaryFormat)

/-- The power of two that a number is rounded at. -/
def gridPower (x : ℚ) : ℤ :=
  max f.leastPower (Int.log 2 x - f.fraction)

/-- The mantissa that a number is rounded to; one too long stands for the next power of two. -/
def nearestMantissa (x : ℚ) : ℕ :=
  halfEven (x / 2 ^ f.gridPower x)

/-- The bit pattern nearest to a positive number, as if there were no greatest one. -/
def nearestBits (x : ℚ) : ℕ :=
  (f.gridPower x - f.leastPower).toNat * 2 ^ f.fraction + f.nearestMantissa x

/-- The number nearest to a positive number. -/
def nearestValue (x : ℚ) : ℚ :=
  f.nearestMantissa x * 2 ^ f.gridPower x

variable {f} {x y : ℚ}

theorem leastPower_le_gridPower (x : ℚ) : f.leastPower ≤ f.gridPower x :=
  le_max_left _ _

theorem gridPower_mono (positive : 0 < x) (le : x ≤ y) : f.gridPower x ≤ f.gridPower y :=
  max_le_max le_rfl (sub_le_sub_right (Int.log_mono_right positive le) _)

/-- A mantissa has at most one bit too many. -/
theorem nearestMantissa_le (x : ℚ) : f.nearestMantissa x ≤ 2 ^ (f.fraction + 1) := by
  have above : x / 2 ^ f.gridPower x ≤ (2 ^ (f.fraction + 1) : ℕ) := by
    rw [div_le_iff₀ (zpow_pos two_pos _)]
    have below : Int.log 2 x + 1 ≤ f.fraction + 1 + f.gridPower x := by
      have := le_max_right f.leastPower (Int.log 2 x - f.fraction)
      unfold gridPower
      omega
    calc x ≤ 2 ^ (Int.log 2 x + 1) := by
          exact_mod_cast (Int.lt_zpow_succ_log_self one_lt_two x).le
      _ ≤ 2 ^ ((f.fraction : ℤ) + 1 + f.gridPower x) :=
          zpow_le_zpow_right₀ one_le_two below
      _ = (2 ^ (f.fraction + 1) : ℕ) * 2 ^ f.gridPower x := by
          rw [zpow_add₀ two_ne_zero, Nat.cast_pow, ← zpow_natCast]
          norm_cast
  calc f.nearestMantissa x ≤ halfEven (2 ^ (f.fraction + 1) : ℕ) := halfEven_mono above
    _ = 2 ^ (f.fraction + 1) := halfEven_natCast _

/-- Above the least power a mantissa has all its bits. -/
theorem le_nearestMantissa (positive : 0 < x) (wide : f.leastPower < f.gridPower x) :
    2 ^ f.fraction ≤ f.nearestMantissa x := by
  have normal : f.gridPower x = Int.log 2 x - f.fraction := by
    unfold gridPower at wide ⊢
    omega
  have below : ((2 ^ f.fraction : ℕ) : ℚ) ≤ x / 2 ^ f.gridPower x := by
    rw [le_div_iff₀ (zpow_pos two_pos _), normal, Nat.cast_pow, ← zpow_natCast]
    calc ((2 : ℕ) : ℚ) ^ (f.fraction : ℤ) * 2 ^ (Int.log 2 x - f.fraction)
        = 2 ^ Int.log 2 x := by
          rw [Nat.cast_ofNat, ← zpow_add₀ two_ne_zero, add_sub_cancel]
      _ ≤ x := by exact_mod_cast Int.zpow_log_le_self one_lt_two positive
  calc 2 ^ f.fraction = halfEven (2 ^ f.fraction : ℕ) := (halfEven_natCast _).symm
    _ ≤ f.nearestMantissa x := halfEven_mono below

/-- The grid is not wider than the number, unless that is less than the least one. -/
theorem zpow_gridPower_le (least : 2 ^ f.leastPower ≤ x) : 2 ^ f.gridPower x ≤ x := by
  have positive : 0 < x := (zpow_pos two_pos _).trans_le least
  rcases max_cases f.leastPower (Int.log 2 x - f.fraction) with ⟨same, _⟩ | ⟨same, _⟩
  · rwa [gridPower, same]
  · rw [gridPower, same]
    calc (2 : ℚ) ^ (Int.log 2 x - f.fraction) ≤ 2 ^ Int.log 2 x :=
          zpow_le_zpow_right₀ one_le_two (by omega)
      _ ≤ x := by exact_mod_cast Int.zpow_log_le_self one_lt_two positive

/-- Only what is less than the least number may be rounded to zero. -/
theorem nearestMantissa_pos (least : 2 ^ f.leastPower ≤ x) : 0 < f.nearestMantissa x := by
  have whole : ((1 : ℕ) : ℚ) ≤ x / 2 ^ f.gridPower x := by
    rw [le_div_iff₀ (zpow_pos two_pos _), Nat.cast_one, one_mul]
    exact zpow_gridPower_le least
  exact (halfEven_natCast 1).symm.trans_le (halfEven_mono whole)

theorem nearestMantissa_mono (same : f.gridPower x = f.gridPower y) (le : x ≤ y) :
    f.nearestMantissa x ≤ f.nearestMantissa y := by
  unfold nearestMantissa
  rw [same]
  exact halfEven_mono (div_le_div_of_nonneg_right le (zpow_pos two_pos _).le)

/-- **The nearest pattern keeps the order of numbers.** -/
theorem nearestBits_mono (positive : 0 < x) (le : x ≤ y) : f.nearestBits x ≤ f.nearestBits y := by
  unfold nearestBits
  rcases (gridPower_mono (f := f) positive le).lt_or_eq with wider | same
  · have least := leastPower_le_gridPower (f := f) x
    have full := le_nearestMantissa (positive.trans_le le) (least.trans_lt wider)
    calc (f.gridPower x - f.leastPower).toNat * 2 ^ f.fraction + f.nearestMantissa x
        ≤ (f.gridPower x - f.leastPower).toNat * 2 ^ f.fraction + 2 ^ (f.fraction + 1) :=
          Nat.add_le_add_left (nearestMantissa_le x) _
      _ = ((f.gridPower x - f.leastPower).toNat + 1) * 2 ^ f.fraction + 2 ^ f.fraction := by ring
      _ ≤ (f.gridPower y - f.leastPower).toNat * 2 ^ f.fraction + f.nearestMantissa y :=
          Nat.add_le_add (Nat.mul_le_mul_right _ (by omega)) full
  · have mantissa := nearestMantissa_mono same le
    rw [same]
    exact Nat.add_le_add_left mantissa _

/-- **The nearest number keeps the order of numbers.** -/
theorem nearestValue_mono (positive : 0 < x) (le : x ≤ y) :
    f.nearestValue x ≤ f.nearestValue y := by
  unfold nearestValue
  rcases (gridPower_mono (f := f) positive le).lt_or_eq with wider | same
  · have least := leastPower_le_gridPower (f := f) x
    have full := le_nearestMantissa (positive.trans_le le) (least.trans_lt wider)
    have short : (f.nearestMantissa x : ℚ) ≤ 2 ^ ((f.fraction : ℤ) + 1) := by
      exact_mod_cast nearestMantissa_le x
    have full : (2 : ℚ) ^ (f.fraction : ℤ) ≤ f.nearestMantissa y := by exact_mod_cast full
    calc (f.nearestMantissa x : ℚ) * 2 ^ f.gridPower x
        ≤ 2 ^ ((f.fraction : ℤ) + 1) * 2 ^ f.gridPower x :=
          mul_le_mul_of_nonneg_right short (zpow_pos two_pos _).le
      _ = 2 ^ ((f.fraction : ℤ) + 1 + f.gridPower x) := (zpow_add₀ two_ne_zero _ _).symm
      _ ≤ 2 ^ ((f.fraction : ℤ) + f.gridPower y) := zpow_le_zpow_right₀ one_le_two (by omega)
      _ = 2 ^ (f.fraction : ℤ) * 2 ^ f.gridPower y := zpow_add₀ two_ne_zero _ _
      _ ≤ f.nearestMantissa y * 2 ^ f.gridPower y :=
          mul_le_mul_of_nonneg_right full (zpow_pos two_pos _).le
  · have mantissa : (f.nearestMantissa x : ℚ) ≤ f.nearestMantissa y := by
      exact_mod_cast nearestMantissa_mono same le
    rw [same]
    exact mul_le_mul_of_nonneg_right mantissa (zpow_pos two_pos _).le

/-- A power of two is on its own grid, unless it is too small. -/
theorem nearest_two_zpow {power : ℤ} (normal : f.leastPower ≤ power - f.fraction) :
    f.gridPower (2 ^ power) = power - f.fraction ∧
      f.nearestMantissa (2 ^ power) = 2 ^ f.fraction := by
  have log : Int.log 2 ((2 : ℚ) ^ power) = power := by
    have := Int.log_zpow one_lt_two power (R := ℚ)
    exact_mod_cast this
  have grid : f.gridPower (2 ^ power) = power - f.fraction := by
    rw [gridPower, log, max_eq_right normal]
  refine ⟨grid, ?_⟩
  have whole : (2 : ℚ) ^ power / 2 ^ (power - f.fraction) = (2 ^ f.fraction : ℕ) := by
    rw [← zpow_sub₀ two_ne_zero, sub_sub_cancel, zpow_natCast, Nat.cast_pow, Nat.cast_ofNat]
  rw [nearestMantissa, grid, whole, halfEven_natCast]

theorem nearestValue_two_zpow {power : ℤ} (normal : f.leastPower ≤ power - f.fraction) :
    f.nearestValue (2 ^ power) = 2 ^ power := by
  obtain ⟨grid, mantissa⟩ := nearest_two_zpow normal
  rw [nearestValue, grid, mantissa, Nat.cast_pow, Nat.cast_ofNat, ← zpow_natCast,
    ← zpow_add₀ two_ne_zero, add_sub_cancel]

theorem nearestBits_two_zpow {power : ℤ} (normal : f.leastPower ≤ power - f.fraction) :
    f.nearestBits (2 ^ power) =
      ((power - f.fraction - f.leastPower).toNat + 1) * 2 ^ f.fraction := by
  obtain ⟨grid, mantissa⟩ := nearest_two_zpow normal
  rw [nearestBits, grid, mantissa, Nat.add_one_mul]

/-! ### Patterns -/

/-- A nearest number has a mantissa of the right length. -/
theorem exists_pattern_of_nearest (positive : 0 < x) : ∃ mantissa above : ℕ,
    mantissa < 2 ^ (f.fraction + 1) ∧ (2 ^ f.fraction ≤ mantissa ∨ above = 0) ∧
      f.nearestBits x = f.pattern mantissa above ∧
        f.nearestValue x = mantissa * 2 ^ (f.leastPower + (above : ℤ)) := by
  have least := leastPower_le_gridPower (f := f) x
  obtain ⟨above, power⟩ : ∃ above : ℕ, f.gridPower x = f.leastPower + above :=
    ⟨(f.gridPower x - f.leastPower).toNat, by omega⟩
  have amount : (f.gridPower x - f.leastPower).toNat = above := by omega
  unfold nearestBits nearestValue pattern
  rw [amount, power]
  rcases (nearestMantissa_le (f := f) x).lt_or_eq with short | long
  · refine ⟨f.nearestMantissa x, above, short, ?_, rfl, rfl⟩
    rcases Nat.eq_zero_or_pos above with none | some
    · exact .inr none
    · exact .inl (le_nearestMantissa positive (by omega))
  · refine ⟨2 ^ f.fraction, above + 1, Nat.pow_lt_pow_succ one_lt_two, .inl le_rfl, ?_, ?_⟩
    · rw [long]
      ring
    · rw [long, Nat.cast_succ, ← add_assoc, zpow_add_one₀ two_ne_zero]
      push_cast
      ring

theorem log_eq_of_normal {power : ℤ} (low : (2 : ℚ) ^ ((f.fraction : ℤ) + power) ≤ x)
    (high : x < 2 ^ ((f.fraction : ℤ) + power + 1)) : Int.log 2 x - f.fraction = power := by
  have positive : 0 < x := (zpow_pos two_pos _).trans_le low
  have atLeast : (f.fraction : ℤ) + power ≤ Int.log 2 x :=
    (Int.zpow_le_iff_le_log one_lt_two positive).mp (by exact_mod_cast low)
  have atMost : Int.log 2 x < f.fraction + power + 1 :=
    (Int.lt_zpow_iff_log_lt one_lt_two positive).mp (by exact_mod_cast high)
  omega

/-- **A ratio is rounded to the nearest pattern.** -/
theorem roundRatio_eq_nearestBits {num den : ℕ} (num_ne : num ≠ 0) (den_ne : den ≠ 0) :
    f.roundRatio num den = min (f.nearestBits (num / den)) f.infinity := by
  obtain ⟨power, low, high, rounded⟩ := exists_power_roundRatio f num_ne den_ne
  rw [rounded]
  have grid : max f.leastPower power = f.gridPower (num / den) := by
    rw [gridPower, log_eq_of_normal low high]
  rw [grid]
  obtain ⟨positive, exact⟩ := scaled_spec num (Nat.pos_of_ne_zero den_ne) (f.gridPower (num / den))
  have scaled_ne : ((scaled num den (f.gridPower (num / den))).2 : ℚ) ≠ 0 := by
    exact_mod_cast positive.ne'
  rw [nearestBits, nearestMantissa, (eq_div_of_mul_eq scaled_ne exact.symm),
    halfEven_div _ positive, twoPow_eq]

end BinaryFormat
end Collage
