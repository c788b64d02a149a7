import Collage.Number.Binary
import Mathlib.Algebra.Order.Field.Power
import Mathlib.Algebra.Order.Floor.Ring
import Mathlib.Data.Rat.Floor
import Mathlib.Tactic.FieldSimp
import Mathlib.Tactic.Linarith
import Mathlib.Tactic.NormNum
import Mathlib.Tactic.Positivity
import Mathlib.Tactic.Ring

/-!
# Numbers that a format holds

A finite bit pattern stands for a mantissa times a power of two in a canonical way: the
mantissa has all its bits, or the power is the least one.  `read_pattern` and `read_finite`
say that bit patterns and canonical pairs are the same thing, and `roundRatio_canonical`
that rounding a ratio which a canonical pair stands for loses nothing.  So a number goes
unchanged from single precision to double precision and back, and so does an integer of few
enough bits.
-/

namespace Collage

theorem twoPow_eq (n : Nat) : twoPow n = 2 ^ n :=
  rfl

namespace BinaryFormat

variable {f : BinaryFormat}

/-! ### Canonical pairs -/

/-- A mantissa, and how far its power is above the least one, of a finite bit pattern. -/
structure Canonical (f : BinaryFormat) (mantissa above : Nat) : Prop where
  short : mantissa < 2 ^ (f.fraction + 1)
  full : 2 ^ f.fraction ≤ mantissa ∨ above = 0
  most : above + 3 ≤ 2 ^ f.exponent

/-- The bits of a canonical pair, without a sign. -/
def pattern (f : BinaryFormat) (mantissa above : Nat) : Nat :=
  above * 2 ^ f.fraction + mantissa

theorem infinity_lt_signBit (f : BinaryFormat) : f.infinity < f.signBit := by
  rw [infinity, signBit, twoPow_eq, twoPow_eq, twoPow_eq, Nat.pow_add']
  exact Nat.mul_lt_mul_of_pos_right (Nat.sub_one_lt (Nat.two_pow_pos _).ne') (Nat.two_pow_pos _)

theorem Canonical.pattern_lt {mantissa above : Nat} (h : f.Canonical mantissa above) :
    f.pattern mantissa above < f.infinity := by
  obtain ⟨short, -, most⟩ := h
  rw [pattern, infinity, twoPow_eq, twoPow_eq]
  calc above * 2 ^ f.fraction + mantissa
      < above * 2 ^ f.fraction + 2 ^ (f.fraction + 1) := by omega
    _ = (above + 2) * 2 ^ f.fraction := by ring
    _ ≤ (2 ^ f.exponent - 1) * 2 ^ f.fraction := Nat.mul_le_mul_right _ (by omega)

/-- Reading the bits of a canonical pair gives the pair. -/
theorem read_pattern {mantissa above : Nat} (h : f.Canonical mantissa above) (negative : Bool) :
    f.read (f.withSign negative (f.pattern mantissa above)) =
      (negative, .finite mantissa (f.leastPower + above)) := by
  have below := h.pattern_lt
  have small := below.trans f.infinity_lt_signBit
  have body : f.withSign negative (f.pattern mantissa above) % f.signBit =
      f.pattern mantissa above := by
    cases negative with
    | false => exact Nat.mod_eq_of_lt small
    | true =>
      rw [withSign, if_pos rfl, Nat.add_mod_left]
      exact Nat.mod_eq_of_lt small
  have sign : decide (f.signBit ≤ f.withSign negative (f.pattern mantissa above)) = negative := by
    cases negative with
    | false => exact decide_eq_false (Nat.not_le.mpr small)
    | true => exact decide_eq_true (Nat.le_add_right _ _)
  unfold read
  dsimp only
  rw [body, sign, if_neg (Nat.not_lt.mpr below.le), if_neg below.ne']
  congr 1
  obtain ⟨short, full, -⟩ := h
  rcases Nat.lt_or_ge mantissa (2 ^ f.fraction) with few | many
  · obtain rfl : above = 0 := full.resolve_left (Nat.not_le.mpr few)
    rw [pattern, Nat.zero_mul, Nat.zero_add, twoPow_eq, if_pos (Nat.div_eq_of_lt few),
      Nat.mod_eq_of_lt few, Nat.cast_zero, Int.add_zero]
  · obtain ⟨rest, rfl⟩ := Nat.exists_eq_add_of_le many
    have little : rest < 2 ^ f.fraction := by
      rw [Nat.pow_succ] at short
      omega
    have split : f.pattern (2 ^ f.fraction + rest) above =
        2 ^ f.fraction * (above + 1) + rest := by
      rw [pattern]
      ring
    rw [split, twoPow_eq, Nat.mul_add_div (Nat.two_pow_pos _), Nat.div_eq_of_lt little,
      Nat.add_zero, if_neg (Nat.succ_ne_zero _), Nat.mul_add_mod, Nat.mod_eq_of_lt little,
      Nat.add_sub_cancel]

/-- A finite bit pattern is that of a canonical pair. -/
theorem read_finite {bits : Nat} {negative : Bool} {mantissa : Nat} {power : Int}
    (wide : 2 ≤ f.exponent) (word : bits < 2 * f.signBit)
    (finite : f.read bits = (negative, .finite mantissa power)) :
    ∃ above : Nat, power = f.leastPower + above ∧ f.Canonical mantissa above ∧
      bits = f.withSign negative (f.pattern mantissa above) := by
  have four : 2 ^ 2 ≤ 2 ^ f.exponent := Nat.pow_le_pow_right (by decide) wide
  have whole : bits = f.withSign (decide (f.signBit ≤ bits)) (bits % f.signBit) := by
    rcases Nat.lt_or_ge bits f.signBit with small | large
    · rw [decide_eq_false (Nat.not_le.mpr small), Nat.mod_eq_of_lt small]
      rfl
    · rw [decide_eq_true large, Nat.mod_eq_sub_mod large, Nat.mod_eq_of_lt (by omega)]
      exact (Nat.add_sub_cancel' large).symm
  unfold read at finite
  dsimp only at finite
  obtain ⟨sign, magnitude⟩ := Prod.mk.inj finite
  rw [sign] at whole
  generalize bits % f.signBit = body at whole magnitude
  have parts : 2 ^ f.fraction * (body / 2 ^ f.fraction) + body % 2 ^ f.fraction = body :=
    Nat.div_add_mod _ _
  have little : body % 2 ^ f.fraction < 2 ^ f.fraction := Nat.mod_lt _ (Nat.two_pow_pos _)
  split at magnitude
  · cases magnitude
  rename_i atMost
  split at magnitude
  · cases magnitude
  rename_i other
  have field : body / 2 ^ f.fraction < 2 ^ f.exponent - 1 :=
    (Nat.div_lt_iff_lt_mul (Nat.two_pow_pos _)).mpr
      (Nat.lt_of_le_of_ne (Nat.not_lt.mp atMost) (Ne.symm other))
  rw [twoPow_eq] at magnitude
  split at magnitude
  · rename_i zero
    cases magnitude
    refine ⟨0, by rw [Nat.cast_zero, Int.add_zero], ⟨by omega, .inr rfl, by omega⟩, ?_⟩
    rw [zero, Nat.mul_zero, Nat.zero_add] at parts
    rw [whole, pattern, Nat.zero_mul, Nat.zero_add, parts]
  · rename_i nonzero
    cases magnitude
    obtain ⟨before, same⟩ := Nat.exists_eq_succ_of_ne_zero nonzero
    rw [same, Nat.succ_eq_add_one] at parts field ⊢
    refine ⟨before, by rw [Nat.add_sub_cancel], ⟨by omega, .inl (Nat.le_add_right _ _), by omega⟩, ?_⟩
    rw [whole, pattern, ← parts]
    congr 1
    rw [parts]
    linarith

/-! ### Rounding what needs no rounding -/

theorem scaled_spec (num : Nat) {den : Nat} (positive : 0 < den) (power : Int) :
    0 < (scaled num den power).2 ∧
      ((scaled num den power).1 : ℚ) = num / den / 2 ^ power * (scaled num den power).2 := by
  have den_ne : (den : ℚ) ≠ 0 := by exact_mod_cast positive.ne'
  unfold scaled
  split
  · rename_i nonneg
    obtain ⟨exponent, rfl⟩ := Int.eq_ofNat_of_zero_le nonneg
    refine ⟨Nat.mul_pos positive (twoPow_pos _), ?_⟩
    rw [twoPow_eq, Int.toNat_natCast, zpow_natCast]
    push_cast
    field_simp
  · rename_i negative
    obtain ⟨exponent, rfl⟩ : ∃ n : Nat, power = -n := ⟨(-power).toNat, by omega⟩
    refine ⟨positive, ?_⟩
    rw [twoPow_eq, neg_neg, Int.toNat_natCast, zpow_neg, zpow_natCast]
    push_cast
    field_simp

theorem roundHalfEven_mul (mantissa : Nat) {den : Nat} (positive : 0 < den) :
    roundHalfEven (mantissa * den) den = mantissa := by
  unfold roundHalfEven
  dsimp only
  rw [Nat.mul_mod_left, Nat.mul_div_cancel _ positive, if_pos (by omega)]

/-- The power of two at which a ratio has all bits of a mantissa. -/
theorem normal_power (f : BinaryFormat) {num den : Nat} (num_ne : num ≠ 0) (den_ne : den ≠ 0) :
    let estimate : Int := (Nat.log2 num : Int) - Nat.log2 den - f.fraction
    let power := if (scaled num den estimate).1 < twoPow f.fraction * (scaled num den estimate).2
      then estimate - 1 else estimate
    (2 : ℚ) ^ ((f.fraction : Int) + power) ≤ num / den ∧
      (num / den : ℚ) < 2 ^ ((f.fraction : Int) + power + 1) := by
  intro estimate power
  have two : (0 : ℚ) < 2 := by norm_num
  have num_low : (2 : ℚ) ^ num.log2 ≤ num := by exact_mod_cast Nat.log2_self_le num_ne
  have num_high : (num : ℚ) < 2 ^ (num.log2 + 1) := by exact_mod_cast Nat.lt_log2_self
  have den_low : (2 : ℚ) ^ den.log2 ≤ den := by exact_mod_cast Nat.log2_self_le den_ne
  have den_high : (den : ℚ) < 2 ^ (den.log2 + 1) := by exact_mod_cast Nat.lt_log2_self
  have den_pos : (0 : ℚ) < den := by exact_mod_cast Nat.pos_of_ne_zero den_ne
  have low : (2 : ℚ) ^ ((f.fraction : Int) + estimate - 1) < num / den := by
    rw [lt_div_iff₀ den_pos]
    calc (2 : ℚ) ^ ((f.fraction : Int) + estimate - 1) * den
        < 2 ^ ((f.fraction : Int) + estimate - 1) * 2 ^ (den.log2 + 1) :=
          mul_lt_mul_of_pos_left den_high (zpow_pos two _)
      _ = 2 ^ num.log2 := by
          rw [← zpow_natCast, ← zpow_natCast, ← zpow_add₀ two.ne']
          congr 1
          push_cast
          omega
      _ ≤ num := num_low
  have high : (num / den : ℚ) < 2 ^ ((f.fraction : Int) + estimate + 1) := by
    rw [div_lt_iff₀ den_pos]
    calc (num : ℚ) < 2 ^ (num.log2 + 1) := num_high
      _ = 2 ^ ((f.fraction : Int) + estimate + 1) * 2 ^ den.log2 := by
          rw [← zpow_natCast, ← zpow_natCast, ← zpow_add₀ two.ne']
          congr 1
          push_cast
          omega
      _ ≤ 2 ^ ((f.fraction : Int) + estimate + 1) * den :=
          mul_le_mul_of_nonneg_left den_low (zpow_pos two _).le
  obtain ⟨positive, exact⟩ := scaled_spec num (Nat.pos_of_ne_zero den_ne) estimate
  have positive : (0 : ℚ) < (scaled num den estimate).2 := by exact_mod_cast positive
  -- whether the estimate is one too high is whether the scaled ratio has a bit too few
  have few : (scaled num den estimate).1 < twoPow f.fraction * (scaled num den estimate).2 ↔
      (num / den : ℚ) < 2 ^ ((f.fraction : Int) + estimate) := by
    rw [twoPow_eq, ← Nat.cast_lt (α := ℚ), exact, Nat.cast_mul,
      mul_lt_mul_iff_left₀ positive, div_lt_iff₀ (zpow_pos two _), zpow_add₀ two.ne', zpow_natCast]
    push_cast
    rfl
  by_cases below : (scaled num den estimate).1 < twoPow f.fraction * (scaled num den estimate).2
  · have isPower : power = estimate - 1 := if_pos below
    rw [isPower]
    refine ⟨?_, ?_⟩
    · rw [← add_sub_assoc]
      exact low.le
    · rw [show (f.fraction : Int) + (estimate - 1) + 1 = f.fraction + estimate by omega]
      exact few.mp below
  · have isPower : power = estimate := if_neg below
    rw [isPower]
    exact ⟨not_lt.mp (mt few.mpr below), high⟩

/-- A ratio is rounded at the power at which it has all bits of a mantissa, or at the least one. -/
theorem exists_power_roundRatio (f : BinaryFormat) {num den : Nat} (num_ne : num ≠ 0)
    (den_ne : den ≠ 0) :
    ∃ power : Int, (2 : ℚ) ^ ((f.fraction : Int) + power) ≤ num / den ∧
      (num / den : ℚ) < 2 ^ ((f.fraction : Int) + power + 1) ∧
      f.roundRatio num den = min ((max f.leastPower power - f.leastPower).toNat *
        twoPow f.fraction + roundHalfEven (scaled num den (max f.leastPower power)).1
          (scaled num den (max f.leastPower power)).2) f.infinity := by
  obtain ⟨low, high⟩ := normal_power f num_ne den_ne
  refine ⟨_, low, high, ?_⟩
  rw [roundRatio, if_neg (not_or.mpr ⟨num_ne, den_ne⟩)]

/-- **Rounding is exact** on what the format holds. -/
theorem roundRatio_canonical {mantissa above num den : Nat} (h : f.Canonical mantissa above)
    (den_ne : den ≠ 0)
    (exact : (num / den : ℚ) = mantissa * 2 ^ (f.leastPower + (above : Int))) :
    f.roundRatio num den = f.pattern mantissa above := by
  have two : (0 : ℚ) < 2 := by norm_num
  have den_pos : (0 : ℚ) < den := by exact_mod_cast Nat.pos_of_ne_zero den_ne
  rcases Nat.eq_zero_or_pos mantissa with rfl | positive
  · have none : num = 0 := by
      rw [Nat.cast_zero, zero_mul, div_eq_zero_iff] at exact
      exact_mod_cast exact.resolve_right den_pos.ne'
    obtain rfl : above = 0 := h.full.resolve_left (Nat.not_le.mpr (Nat.two_pow_pos _))
    rw [roundRatio, if_pos (.inl none), pattern, Nat.zero_mul, Nat.add_zero]
  · have num_ne : num ≠ 0 := by
      rintro rfl
      rw [Nat.cast_zero, zero_div] at exact
      exact absurd exact.symm (mul_pos (by exact_mod_cast positive) (zpow_pos two _)).ne'
    obtain ⟨power, low, high, rounded⟩ := exists_power_roundRatio f num_ne den_ne
    rw [rounded]
    rw [exact] at low high
    have short : (mantissa : ℚ) < 2 ^ ((f.fraction : Int) + 1) := by
      have := h.short
      rw [← Nat.cast_lt (α := ℚ)] at this
      push_cast at this
      exact_mod_cast this
    -- the power of a full mantissa is the normal one, and the least power is not below it
    have isPower : max f.leastPower power = f.leastPower + above := by
      have atMost : power ≤ f.leastPower + above := by
        have : (2 : ℚ) ^ ((f.fraction : Int) + power) <
            2 ^ ((f.fraction : Int) + 1 + (f.leastPower + above)) := by
          rw [zpow_add₀ two.ne' _ (f.leastPower + above : Int)]
          exact low.trans_lt (mul_lt_mul_of_pos_right short (zpow_pos two _))
        have := (zpow_lt_zpow_iff_right₀ (by norm_num : (1 : ℚ) < 2)).mp this
        omega
      rcases h.full with full | rfl
      · have full : (2 : ℚ) ^ (f.fraction : Int) ≤ mantissa := by exact_mod_cast full
        have : (2 : ℚ) ^ ((f.fraction : Int) + (f.leastPower + above)) <
            2 ^ ((f.fraction : Int) + power + 1) := by
          rw [zpow_add₀ two.ne']
          exact (mul_le_mul_of_nonneg_right full (zpow_pos two _).le).trans_lt high
        have := (zpow_lt_zpow_iff_right₀ (by norm_num : (1 : ℚ) < 2)).mp this
        omega
      · omega
    rw [isPower]
    obtain ⟨positive, scaledExact⟩ :=
      scaled_spec num (Nat.pos_of_ne_zero den_ne) (f.leastPower + above)
    have product : (scaled num den (f.leastPower + above)).1 =
        mantissa * (scaled num den (f.leastPower + above)).2 := by
      rw [exact, mul_div_cancel_right₀ _ (zpow_pos two _).ne'] at scaledExact
      exact_mod_cast scaledExact
    rw [product, roundHalfEven_mul mantissa positive, add_sub_cancel_left, Int.toNat_natCast,
      twoPow_eq]
    exact Nat.min_eq_left h.pattern_lt.le

theorem exists_canonical {mantissa above : Nat} (short : mantissa < 2 ^ (f.fraction + 1))
    (most : above + 3 ≤ 2 ^ f.exponent) :
    ∃ full lower, f.Canonical full lower ∧
      (full : ℚ) * 2 ^ (f.leastPower + (lower : Int)) =
        mantissa * 2 ^ (f.leastPower + (above : Int)) := by
  induction above generalizing mantissa with
  | zero => exact ⟨mantissa, 0, ⟨short, .inr rfl, most⟩, rfl⟩
  | succ above ih =>
    rcases Nat.lt_or_ge mantissa (2 ^ f.fraction) with few | many
    · have twice : 2 * mantissa < 2 ^ (f.fraction + 1) := by
        rw [Nat.pow_succ]
        omega
      obtain ⟨full, lower, canonical, same⟩ := ih twice (by omega)
      refine ⟨full, lower, canonical, same.trans ?_⟩
      rw [Nat.cast_succ, ← add_assoc, zpow_add_one₀ two_ne_zero]
      push_cast
      ring
    · exact ⟨mantissa, above + 1, ⟨short, .inl many, most⟩, rfl⟩

theorem roundScaled_canonical {mantissa above : Nat} (h : f.Canonical mantissa above) {other : Nat}
    {power : Int} (same : (mantissa : ℚ) * 2 ^ (f.leastPower + (above : Int)) = other * 2 ^ power) :
    f.roundScaled other power = f.pattern mantissa above := by
  unfold roundScaled
  split
  · rename_i nonneg
    obtain ⟨exponent, rfl⟩ := Int.eq_ofNat_of_zero_le nonneg
    refine roundRatio_canonical h one_ne_zero ?_
    rw [same, twoPow_eq, Int.toNat_natCast, zpow_natCast]
    push_cast
    ring
  · rename_i negative
    obtain ⟨exponent, rfl⟩ : ∃ n : Nat, power = -n := ⟨(-power).toNat, by omega⟩
    refine roundRatio_canonical h (twoPow_pos _).ne' ?_
    rw [same, twoPow_eq, neg_neg, Int.toNat_natCast, zpow_neg, zpow_natCast]
    push_cast
    ring

theorem roundRatio_lt (f : BinaryFormat) (num den : Nat) : f.roundRatio num den < f.signBit := by
  refine lt_of_le_of_lt ?_ f.infinity_lt_signBit
  unfold roundRatio
  split
  · exact Nat.zero_le _
  · exact Nat.min_le_right _ _

theorem withSign_lt {bits : Nat} (small : bits < f.signBit) (negative : Bool) :
    f.withSign negative bits < 2 * f.signBit := by
  cases negative with
  | false => rw [withSign, if_neg Bool.false_ne_true]; omega
  | true => rw [withSign, if_pos rfl]; omega

/-! ### From one format to a wider one and back -/

/-- The numbers of one format are among those of another. -/
structure Embeds (f g : BinaryFormat) : Prop where
  wide : 2 ≤ f.exponent
  fraction : f.fraction ≤ g.fraction
  power : ∃ above : Nat, f.leastPower = g.leastPower + above ∧
    above + 2 ^ f.exponent ≤ 2 ^ g.exponent

theorem single_embeds : single.Embeds double :=
  ⟨by decide, by decide, 925, by decide, by decide⟩

variable {g : BinaryFormat}

theorem convert_eq_pattern (h : f.Embeds g) {bits : Nat} {negative : Bool} {mantissa : Nat}
    {power : Int} (word : bits < 2 * f.signBit)
    (finite : f.read bits = (negative, .finite mantissa power)) :
    ∃ full lower, g.Canonical full lower ∧
      (full : ℚ) * 2 ^ (g.leastPower + (lower : Int)) = mantissa * 2 ^ power ∧
      f.convert g bits = g.withSign negative (g.pattern full lower) := by
  obtain ⟨above, rfl, canonical, -⟩ := read_finite h.wide word finite
  obtain ⟨wide, fraction, between, least, most⟩ := h
  have short : mantissa < 2 ^ (g.fraction + 1) :=
    canonical.short.trans_le (Nat.pow_le_pow_right (by decide) (by omega))
  have room := canonical.most
  obtain ⟨full, lower, isCanonical, same⟩ :=
    exists_canonical (f := g) short (show between + above + 3 ≤ 2 ^ g.exponent by omega)
  have power : g.leastPower + ((between + above : Nat) : Int) = f.leastPower + above := by
    rw [least]
    push_cast
    omega
  rw [power] at same
  refine ⟨full, lower, isCanonical, same, ?_⟩
  unfold convert
  rw [finite]
  dsimp only
  rw [roundScaled_canonical isCanonical same]

/-- **A number is the same after a wider format.** -/
theorem convert_convert (h : f.Embeds g) {bits : Nat} {negative : Bool} {mantissa : Nat}
    {power : Int} (word : bits < 2 * f.signBit)
    (finite : f.read bits = (negative, .finite mantissa power)) :
    g.convert f (f.convert g bits) = bits := by
  obtain ⟨full, lower, isCanonical, same, converted⟩ := convert_eq_pattern h word finite
  obtain ⟨above, rfl, canonical, whole⟩ := read_finite h.wide word finite
  unfold convert at converted ⊢
  rw [converted, read_pattern isCanonical]
  dsimp only
  rw [roundScaled_canonical canonical same.symm, ← whole]

/-! ### Integers in double precision -/

/-- The integer below a number. -/
theorem integerOf_floor (negative : Bool) (mantissa : Nat) (power : Int) :
    integerOf .floor negative mantissa power =
      ⌊if negative then -((mantissa : ℚ) * 2 ^ power) else mantissa * 2 ^ power⌋ := by
  obtain ⟨positive, exact⟩ := scaled_spec mantissa Nat.one_pos (-power)
  unfold integerOf
  generalize scaled mantissa 1 (-power) = ratio at positive exact ⊢
  cases ratio with
  | mk num den =>
    dsimp only at positive exact ⊢
    have den_pos : (0 : ℚ) < den := by exact_mod_cast positive
    have value : (mantissa : ℚ) * 2 ^ power = num / den := by
      rw [eq_div_iff den_pos.ne', exact, zpow_neg]
      simp
    rw [value]
    have parts : (num : ℚ) = den * (num / den : Nat) + (num % den : Nat) := by
      exact_mod_cast (Nat.div_add_mod num den).symm
    have little : ((num % den : Nat) : ℚ) < den := by exact_mod_cast Nat.mod_lt num positive
    generalize num / den = whole at parts ⊢
    generalize num % den = rest at parts little ⊢
    symm
    rw [parts]
    cases negative with
    | false =>
      rw [if_neg Bool.false_ne_true, if_neg Bool.false_ne_true, Bool.false_and,
        if_neg Bool.false_ne_true, Int.floor_eq_iff, le_div_iff₀ den_pos, div_lt_iff₀ den_pos]
      push_cast
      exact ⟨by linarith [(Nat.cast_nonneg rest : (0 : ℚ) ≤ rest)], by linarith⟩
    | true =>
      rw [if_pos rfl, if_pos rfl, Bool.true_and, Int.floor_eq_iff, ← neg_div,
        le_div_iff₀ den_pos, div_lt_iff₀ den_pos]
      rcases Nat.eq_zero_or_pos rest with rfl | some
      · rw [if_neg (by decide)]
        push_cast
        exact ⟨by linarith, by linarith⟩
      · rw [if_pos (bne_iff_ne.mpr some.ne')]
        have : (1 : ℚ) ≤ rest := by exact_mod_cast some
        push_cast
        exact ⟨by linarith, by linarith⟩

/-- An integer that double precision holds. -/
def Holds (n : Int) : Prop :=
  ∃ mantissa exponent : Nat, n.natAbs = mantissa * 2 ^ exponent ∧ mantissa < 2 ^ 53 ∧
    exponent ≤ 971

theorem holds_of_natAbs_le {n : Int} (few : n.natAbs ≤ 2 ^ 53) : Holds n := by
  rcases few.lt_or_eq with less | same
  · exact ⟨n.natAbs, 0, by rw [pow_zero, mul_one], less, by decide⟩
  · exact ⟨1, 53, by rw [same, one_mul], by decide, by decide⟩

theorem read_ofInt {n : Int} (h : Holds n) : ∃ mantissa power,
    double.read (double.ofInt n) = (decide (n < 0), .finite mantissa power) ∧
      (mantissa : ℚ) * 2 ^ power = n.natAbs := by
  obtain ⟨mantissa, exponent, exact, short, most⟩ := h
  obtain ⟨full, lower, canonical, same⟩ :=
    exists_canonical (f := double) short
      (show 1074 + exponent + 3 ≤ 2 ^ 11 by omega)
  have power : double.leastPower + ((1074 + exponent : Nat) : Int) = exponent := by
    have least : double.leastPower = -1074 := by decide
    rw [least]
    push_cast
    omega
  rw [power, zpow_natCast] at same
  have value : (full : ℚ) * 2 ^ (double.leastPower + (lower : Int)) = n.natAbs := by
    rw [same, exact]
    push_cast
    rfl
  refine ⟨full, _, ?_, value⟩
  unfold ofInt
  rw [roundRatio_canonical canonical one_ne_zero (by rw [value, Nat.cast_one, div_one])]
  exact read_pattern canonical _

theorem toInt_ofInt {n : Int} (h : Holds n) (lowest highest : Int) :
    double.toInt .floor lowest highest (double.ofInt n) = max lowest (min highest n) := by
  obtain ⟨mantissa, power, finite, value⟩ := read_ofInt h
  unfold toInt
  rw [finite]
  dsimp only
  have whole : integerOf .floor (decide (n < 0)) mantissa power = n := by
    rw [integerOf_floor, value]
    rcases Int.lt_or_le n 0 with negative | nonneg
    · rw [if_pos (decide_eq_true negative), Nat.cast_natAbs, abs_of_neg negative, Int.cast_neg,
        neg_neg, Int.floor_intCast]
    · rw [if_neg (by simpa using nonneg), Nat.cast_natAbs, abs_of_nonneg nonneg, Int.floor_intCast]
  rw [whole]

/-- Double precision holds the integer parts of its numbers. -/
theorem holds_integerOf {bits : Nat} {negative : Bool} {mantissa : Nat} {power : Int}
    (word : bits < 2 * double.signBit)
    (finite : double.read bits = (negative, .finite mantissa power)) :
    Holds (integerOf .floor negative mantissa power) := by
  obtain ⟨above, rfl, canonical, -⟩ := read_finite (by decide) word finite
  have short : mantissa < 2 ^ 53 := canonical.short
  have most : above + 3 ≤ 2 ^ 11 := canonical.most
  have least : double.leastPower = -1074 := by decide
  rw [integerOf_floor, least]
  rcases Nat.lt_or_ge above 1074 with below | whole
  · -- what is less than the mantissa has no more bits than it
    refine holds_of_natAbs_le (le_trans ?_ short.le)
    have part : (mantissa : ℚ) * 2 ^ (-1074 + (above : Int)) ≤ mantissa := by
      refine mul_le_of_le_one_right (Nat.cast_nonneg _) ?_
      exact zpow_le_one_of_nonpos₀ (by norm_num) (by omega)
    have nonneg : (0 : ℚ) ≤ mantissa * 2 ^ (-1074 + (above : Int)) := by positivity
    generalize (mantissa : ℚ) * 2 ^ (-1074 + (above : Int)) = value at part nonneg ⊢
    cases negative with
    | false =>
      have low : 0 ≤ ⌊value⌋ := Int.floor_nonneg.mpr nonneg
      have high : ⌊value⌋ ≤ mantissa := by
        rw [← Int.floor_natCast (R := ℚ) mantissa]
        exact Int.floor_le_floor part
      rw [if_neg Bool.false_ne_true]
      omega
    | true =>
      have low : -(mantissa : Int) ≤ ⌊-value⌋ := by
        rw [Int.le_floor]
        push_cast
        exact neg_le_neg part
      have high : ⌊-value⌋ ≤ 0 := Int.floor_nonpos (neg_nonpos.mpr nonneg)
      rw [if_pos rfl]
      omega
  · obtain ⟨exponent, rfl⟩ := Nat.exists_eq_add_of_le whole
    have power : -1074 + ((1074 + exponent : Nat) : Int) = exponent := by
      push_cast
      omega
    refine ⟨mantissa, exponent, ?_, short, by omega⟩
    have exact : (mantissa : ℚ) * 2 ^ exponent = ((mantissa * 2 ^ exponent : Nat) : Int) := by
      push_cast
      rfl
    rw [power, zpow_natCast, exact]
    cases negative with
    | false => rw [if_neg Bool.false_ne_true, Int.floor_intCast, Int.natAbs_natCast]
    | true => rw [if_pos rfl, ← Int.cast_neg, Int.floor_intCast, Int.natAbs_neg, Int.natAbs_natCast]

/-- An integer of 64 bits that double precision holds, or the greatest one. -/
def Settles (n : Int) : Prop :=
  (Holds n ∧ int64Lowest ≤ n ∧ n ≤ int64Highest) ∨ n = int64Highest

/-- Every integer part within 64 bits is such a one. -/
theorem settles_toInt {bits : Nat} (word : bits < 2 * double.signBit) :
    Settles (double.toInt .floor int64Lowest int64Highest bits) := by
  have lowest : Holds int64Lowest := ⟨1, 63, rfl, by decide, by decide⟩
  have zero : Settles 0 := .inl ⟨⟨0, 0, rfl, by decide, by decide⟩, by decide, by decide⟩
  unfold toInt
  cases h : double.read bits with
  | mk negative magnitude =>
    cases magnitude with
    | notANumber => exact zero
    | infinite =>
      cases negative with
      | true => exact .inl ⟨lowest, le_rfl, by decide⟩
      | false => exact .inr rfl
    | finite mantissa power =>
      dsimp only
      have held := holds_integerOf word h
      generalize integerOf .floor negative mantissa power = n at held ⊢
      have order : int64Lowest ≤ int64Highest := by decide
      rcases Int.le_total n int64Lowest with low | low
      · rw [min_eq_right (low.trans order), max_eq_left low]
        exact .inl ⟨lowest, le_rfl, order⟩
      · rcases Int.le_total n int64Highest with high | high
        · rw [min_eq_right high, max_eq_right low]
          exact .inl ⟨held, low, high⟩
        · rw [min_eq_left high, max_eq_right order]
          exact .inr rfl

/-- **An integer part stays what it is** when it becomes a number again. -/
theorem Settles.toInt_ofInt {n : Int} (h : Settles n) :
    double.toInt .floor int64Lowest int64Highest (double.ofInt n) = n := by
  rcases h with ⟨held, low, high⟩ | rfl
  · rw [BinaryFormat.toInt_ofInt held, min_eq_right high, max_eq_right low]
  · -- the greatest integer rounds up to a power of two, which is cut off again
    decide +kernel

theorem ofInt_lt (n : Int) : f.ofInt n < 2 * f.signBit :=
  withSign_lt (roundRatio_lt _ _ _) _

theorem Settles.read_ofInt {n : Int} (h : Settles n) :
    ∃ mantissa power, double.read (double.ofInt n) = (decide (n < 0), .finite mantissa power) := by
  rcases h with ⟨held, -, -⟩ | rfl
  · obtain ⟨mantissa, power, finite, -⟩ := BinaryFormat.read_ofInt held
    exact ⟨mantissa, power, finite⟩
  · exact ⟨2 ^ 52, 11, by decide +kernel⟩

end BinaryFormat
end Collage
