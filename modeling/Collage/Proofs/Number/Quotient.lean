import Collage.Proofs.Number.Nearest
import Collage.Proofs.Number.One

/-!
# Quotients are rounded once

The quotient of two numbers in single precision is the number nearest to what exact division gives
(`Float32.toBits_div`).  The mantissas are divided as integers, and two bits keep what the
remainder adds: whether it is a half or more, and whether it is neither nothing nor a half.
`StandsFor` says which number a mantissa with these bits is, up to what rounding can tell apart;
shifting to the right halves that number, so that one rounding at the end does for all.
-/

namespace Float.Model.UnpackedFloat

open Float.Model (Format totalExponent)
open Collage (BinaryFormat)
open Collage.BinaryFormat (ofSpec halfEven nearestBits nearestMantissa_le le_nearestMantissa
  nearestMantissa_pos leastPower_le_gridPower zpow_gridPower_le)

/-! ### A mantissa with what is left -/

/-- Whether a mantissa with its two bits is what rounding can tell of a number. -/
def StandsFor (x : ℚ) : ExtendedMantissa → Prop
  | ⟨mantissa, false, false⟩ => x = mantissa
  | ⟨mantissa, false, true⟩ => mantissa < x ∧ x < mantissa + 1 / 2
  | ⟨mantissa, true, false⟩ => x = mantissa + 1 / 2
  | ⟨mantissa, true, true⟩ => mantissa + 1 / 2 < x ∧ x < mantissa + 1

theorem StandsFor.bounds {x : ℚ} {em : ExtendedMantissa} (stands : StandsFor x em) :
    (em.mantissa : ℚ) ≤ x ∧ x < em.mantissa + 1 := by
  obtain ⟨mantissa, round, sticky⟩ := em
  cases round <;> cases sticky <;> simp only [StandsFor] at stands <;> dsimp only
  · exact ⟨stands.ge, by linarith⟩
  · exact ⟨stands.1.le, by linarith [stands.2]⟩
  · constructor <;> linarith
  · exact ⟨by linarith [stands.1], stands.2⟩

/-- Rounding the mantissa by its bits rounds the number. -/
theorem StandsFor.rounded {x : ℚ} {em : ExtendedMantissa} (stands : StandsFor x em) :
    em.roundedMantissa = halfEven x := by
  obtain ⟨low, high⟩ := stands.bounds
  have floor : ⌊x⌋₊ = em.mantissa :=
    (Nat.floor_eq_iff ((Nat.cast_nonneg _).trans low)).mpr ⟨low, high⟩
  unfold halfEven
  rw [floor]
  obtain ⟨mantissa, round, sticky⟩ := em
  unfold ExtendedMantissa.roundedMantissa
  cases round <;> cases sticky <;> simp only [StandsFor] at stands <;> dsimp only
  · rw [stands, sub_self, if_pos (by norm_num)]
    rfl
  · rw [if_pos (by linarith [stands.2])]
    rfl
  · rw [stands, add_sub_cancel_left, if_neg (lt_irrefl _), if_neg (lt_irrefl _)]
    rfl
  · rw [if_neg (by linarith [stands.1]), if_pos (by linarith [stands.1])]
    rfl

/-- A shift by one place halves the number. -/
theorem StandsFor.shiftRightOne {x : ℚ} {em : ExtendedMantissa} (stands : StandsFor x em) :
    StandsFor (x / 2) em.shiftRightOne := by
  obtain ⟨mantissa, round, sticky⟩ := em
  have split : (mantissa : ℚ) = 2 * (mantissa / 2 : ℕ) + (mantissa % 2 : ℕ) := by
    exact_mod_cast (Nat.div_add_mod mantissa 2).symm
  unfold ExtendedMantissa.shiftRightOne
  rcases Nat.mod_two_eq_zero_or_one mantissa with even | odd
  · rw [even, Nat.cast_zero, add_zero] at split
    cases round <;> cases sticky <;> simp only [StandsFor] at stands <;>
      simp only [even, bne_self_eq_false, Bool.or_false, Bool.or_true, StandsFor]
    · linarith
    · constructor <;> linarith [stands.1, stands.2]
    · constructor <;> linarith
    · constructor <;> linarith [stands.1, stands.2]
  · rw [odd, Nat.cast_one] at split
    cases round <;> cases sticky <;> simp only [StandsFor] at stands <;>
      simp only [odd, Nat.reduceBneDiff, Bool.or_false, Bool.or_true, StandsFor]
    · linarith
    · constructor <;> linarith [stands.1, stands.2]
    · constructor <;> linarith
    · constructor <;> linarith [stands.1, stands.2]

theorem StandsFor.shiftRight {x : ℚ} {em : ExtendedMantissa} (stands : StandsFor x em)
    (places : ℕ) : StandsFor (x / 2 ^ places) (em >>> places) := by
  change StandsFor _ (Nat.repeat ExtendedMantissa.shiftRightOne places em)
  induction places with
  | zero => simpa [Nat.repeat] using stands
  | succ places ih =>
    rw [Nat.repeat, pow_succ, ← div_div]
    exact ih.shiftRightOne

/-- What is left of a division. -/
theorem standsFor_quotient (num : ℕ) {den : ℕ} (positive : 0 < den) :
    StandsFor (num / den) (ExtendedMantissa.ofMantissaAndAccuracy (num / den)
      (accuracyOfFraction (num % den) den)) := by
  have den_pos : (0 : ℚ) < den := by exact_mod_cast positive
  have less : num % den < den := Nat.mod_lt _ positive
  have whole : (num / den : ℚ) = (num / den : ℕ) + (num % den : ℕ) / den := by
    rw [← sub_eq_iff_eq_add', eq_div_iff den_pos.ne', sub_mul, div_mul_cancel₀ _ den_pos.ne']
    have : (num : ℚ) = den * (num / den : ℕ) + (num % den : ℕ) := by
      exact_mod_cast (Nat.div_add_mod num den).symm
    linarith
  rw [whole]
  generalize num / den = quotient
  generalize num % den = remainder at less
  have part : (remainder : ℚ) / den < 1 := by
    rw [div_lt_one den_pos]
    exact_mod_cast less
  unfold accuracyOfFraction
  split
  · rename_i none
    rw [none, Nat.cast_zero, zero_div, add_zero]
    rfl
  · rename_i some
    have positive : 0 < (remainder : ℚ) / den :=
      div_pos (by exact_mod_cast Nat.pos_of_ne_zero some) den_pos
    have half : (remainder : ℚ) / den < 1 / 2 ↔ 2 * remainder < den := by
      rw [div_lt_div_iff₀ den_pos two_pos, one_mul, mul_comm]
      exact_mod_cast Iff.rfl
    have half' : 1 / 2 < (remainder : ℚ) / den ↔ den < 2 * remainder := by
      rw [div_lt_div_iff₀ two_pos den_pos, one_mul, mul_comm _ (2 : ℚ)]
      exact_mod_cast Iff.rfl
    rcases lt_trichotomy (2 * remainder) den with below | middle | above
    · rw [Nat.compare_eq_lt.mpr below]
      exact ⟨by linarith, by linarith [half.mpr below]⟩
    · rw [Nat.compare_eq_eq.mpr middle]
      have exact : (remainder : ℚ) / den = 1 / 2 :=
        le_antisymm (not_lt.mp (mt half'.mp middle.le.not_gt))
          (not_lt.mp (mt half.mp middle.ge.not_gt))
      change _ = _
      rw [exact]
    · rw [Nat.compare_eq_gt.mpr above]
      exact ⟨by linarith [half'.mpr above], by linarith⟩

/-! ### Rounding -/

theorem minExponent_eq (spec : Format) : spec.minExponent = (ofSpec spec).leastPower := by
  unfold Format.minExponent Format.mantissaBits BinaryFormat.leastPower ofSpec
  dsimp only
  rw [Collage.twoPow_eq]
  push_cast
  ring

section

variable {spec : Format} {x : ℚ} {mantissa : ℕ} {exponent : ℤ}

theorem log_eq_of_bounds (some : 0 < mantissa) (low : mantissa ≤ x / 2 ^ exponent)
    (high : x / 2 ^ exponent < mantissa + 1) : Int.log 2 x = mantissa.log2 + exponent := by
  have power : (0 : ℚ) < 2 ^ exponent := zpow_pos two_pos _
  rw [le_div_iff₀ power] at low
  rw [div_lt_iff₀ power] at high
  have positive : 0 < x := (mul_pos (by exact_mod_cast some) power).trans_le low
  have atLeast : (2 : ℚ) ^ ((mantissa.log2 : ℤ) + exponent) ≤ x := by
    rw [zpow_add₀ two_ne_zero, zpow_natCast]
    refine (mul_le_mul_of_nonneg_right ?_ power.le).trans low
    exact_mod_cast Nat.log2_self_le some.ne'
  have atMost : x < (2 : ℚ) ^ ((mantissa.log2 : ℤ) + exponent + 1) := by
    rw [add_right_comm, zpow_add₀ two_ne_zero]
    refine high.trans_le (mul_le_mul_of_nonneg_right ?_ power.le)
    exact_mod_cast Nat.lt_log2_self
  have lower := (Int.zpow_le_iff_le_log one_lt_two positive).mp (by exact_mod_cast atLeast)
  have upper := (Int.lt_zpow_iff_log_lt one_lt_two positive).mp (by exact_mod_cast atMost)
  omega

theorem targetExponent_eq (some : 0 < mantissa) (low : mantissa ≤ x / 2 ^ exponent)
    (high : x / 2 ^ exponent < mantissa + 1) :
    spec.targetExponent (totalExponent mantissa exponent) = (ofSpec spec).gridPower x := by
  unfold Format.targetExponent BinaryFormat.gridPower
  rw [minExponent_eq, log_eq_of_bounds some low high, max_comm]
  unfold totalExponent Format.mantissaBits ofSpec
  dsimp only
  push_cast
  congr 1
  ring

theorem ofMantissaAndAccuracy_mantissa (mantissa : ℕ) (accuracy : Accuracy) :
    (ExtendedMantissa.ofMantissaAndAccuracy mantissa accuracy).mantissa = mantissa := by
  rcases accuracy with _ | (_ | _ | _) <;> rfl

theorem exists_shifted {accuracy : Accuracy} {target : ℤ}
    (stands : StandsFor (x / 2 ^ exponent)
      (ExtendedMantissa.ofMantissaAndAccuracy mantissa accuracy)) (less : exponent ≤ target) :
    ∃ em, shiftToExponent mantissa exponent accuracy target = (em, target) ∧
      StandsFor (x / 2 ^ target) em := by
  obtain ⟨places, rfl⟩ : ∃ places : ℕ, target = exponent + places :=
    ⟨(target - exponent).toNat, by omega⟩
  have amount : (exponent + places - exponent).toNat = places := by omega
  refine ⟨ExtendedMantissa.ofMantissaAndAccuracy mantissa accuracy >>> places, ?_, ?_⟩
  · unfold shiftToExponent
    rw [amount]
  · rw [zpow_add₀ two_ne_zero, zpow_natCast, ← div_div]
    exact stands.shiftRight places

/-- A mantissa that is one bit too long loses it, and no other changes. -/
theorem shiftToTargetExponent_short (short : mantissa < 2 ^ ((ofSpec spec).fraction + 1))
    (some : 0 < mantissa) (least : (ofSpec spec).leastPower ≤ exponent) :
    shiftToTargetExponent spec mantissa exponent .exact = (⟨mantissa, false, false⟩, exponent) := by
  have bits : mantissa.log2 < (ofSpec spec).fraction + 1 := (Nat.log2_lt some.ne').mpr short
  have amount : (spec.targetExponent (totalExponent mantissa exponent) - exponent).toNat = 0 := by
    unfold Format.targetExponent totalExponent Format.mantissaBits
    rw [minExponent_eq]
    change mantissa.log2 < spec.mantissaBitsWithoutImplicit + 1 at bits
    omega
  unfold shiftToTargetExponent shiftToExponent
  dsimp only
  rw [amount, Nat.cast_zero, add_zero]
  rfl

theorem shiftToTargetExponent_long (least : (ofSpec spec).leastPower ≤ exponent) :
    shiftToTargetExponent spec (2 ^ ((ofSpec spec).fraction + 1)) exponent .exact =
      (⟨2 ^ (ofSpec spec).fraction, false, false⟩, exponent + 1) := by
  have amount : (spec.targetExponent (totalExponent (2 ^ ((ofSpec spec).fraction + 1)) exponent) -
      exponent).toNat = 1 := by
    unfold Format.targetExponent totalExponent Format.mantissaBits
    rw [minExponent_eq, Nat.log2_two_pow]
    have fraction : (ofSpec spec).fraction = spec.mantissaBitsWithoutImplicit := rfl
    omega
  have halved : (⟨2 ^ ((ofSpec spec).fraction + 1), false, false⟩ : ExtendedMantissa) >>> 1 =
      ⟨2 ^ (ofSpec spec).fraction, false, false⟩ := by
    have back := shiftRight_shifted (2 ^ (ofSpec spec).fraction) 1
    rwa [pow_one, ← Nat.pow_succ] at back
  unfold shiftToTargetExponent shiftToExponent
  dsimp only
  rw [amount, ExtendedMantissa.ofMantissaAndAccuracy, halved, Nat.cast_one]

/-- **Rounding gives the nearest number.** -/
theorem roundWithAccuracy_eq {accuracy : Accuracy} (some : 0 < mantissa)
    (stands : StandsFor (x / 2 ^ exponent)
      (ExtendedMantissa.ofMantissaAndAccuracy mantissa accuracy))
    (coarse : exponent ≤ (ofSpec spec).gridPower x)
    (positive : 0 < (ofSpec spec).nearestMantissa x) (sign : Sign) :
    ∃ (mantissa' above : ℕ) (some' : 0 < mantissa'),
      roundWithAccuracy spec sign mantissa exponent accuracy =
        .finite sign mantissa' ((ofSpec spec).leastPower + above) some' ∧
      mantissa' < 2 ^ ((ofSpec spec).fraction + 1) ∧
      (2 ^ (ofSpec spec).fraction ≤ mantissa' ∨ above = 0) ∧
      (ofSpec spec).nearestBits x = (ofSpec spec).pattern mantissa' above := by
  have least := leastPower_le_gridPower (f := ofSpec spec) x
  have full := le_nearestMantissa (f := ofSpec spec) (x := x)
  have most := nearestMantissa_le (f := ofSpec spec) x
  obtain ⟨low, high⟩ := stands.bounds
  rw [ofMantissaAndAccuracy_mantissa] at low high
  have x_pos : 0 < x := by
    have ratio : 0 < x / 2 ^ exponent := lt_of_lt_of_le (by exact_mod_cast some) low
    exact (div_pos_iff_of_pos_right (zpow_pos two_pos _)).mp ratio
  obtain ⟨em, shifted, stands⟩ := exists_shifted stands coarse
  have first : shiftToTargetExponent spec mantissa exponent accuracy =
      (em, (ofSpec spec).gridPower x) := by
    unfold shiftToTargetExponent
    rw [targetExponent_eq some low high, shifted]
  have rounded : em.roundedMantissa = (ofSpec spec).nearestMantissa x := stands.rounded
  obtain ⟨above, power⟩ : ∃ above : ℕ,
      (ofSpec spec).gridPower x = (ofSpec spec).leastPower + above :=
    ⟨((ofSpec spec).gridPower x - (ofSpec spec).leastPower).toNat, by omega⟩
  have amount : ((ofSpec spec).gridPower x - (ofSpec spec).leastPower).toNat = above := by omega
  unfold roundWithAccuracy
  rw [first]
  dsimp only
  rw [rounded]
  rcases most.lt_or_eq with short | long
  · refine ⟨(ofSpec spec).nearestMantissa x, above, positive, ?_, short, ?_, ?_⟩
    · rw [shiftToTargetExponent_short short positive least]
      dsimp only
      rw [dif_neg positive.ne', power]
    · rcases Nat.eq_zero_or_pos above with none | some
      · exact .inr none
      · exact .inl (full x_pos (by omega))
    · rw [nearestBits, amount, BinaryFormat.pattern]
  · refine ⟨2 ^ (ofSpec spec).fraction, above + 1, Nat.two_pow_pos _, ?_,
      Nat.pow_lt_pow_succ one_lt_two, .inl le_rfl, ?_⟩
    · rw [long, shiftToTargetExponent_long least]
      dsimp only
      rw [dif_neg (Nat.two_pow_pos _).ne', power, Nat.cast_succ, add_assoc]
    · rw [nearestBits, amount, BinaryFormat.pattern, long]
      ring

end

/-! ### Division -/

/-- The leading bits of the mantissas tell a quotient up to one bit. -/
theorem totalExponent_le_log {m₁ m₂ : ℕ} {e₁ e₂ : ℤ} (some₁ : 0 < m₁) (some₂ : 0 < m₂) {x : ℚ}
    (quotient : x = m₁ * 2 ^ e₁ / (m₂ * 2 ^ e₂)) (x_pos : 0 < x) :
    totalExponent m₁ e₁ - totalExponent m₂ e₂ - 1 ≤ Int.log 2 x := by
  have m₂_pos : (0 : ℚ) < m₂ := by exact_mod_cast some₂
  refine (Int.zpow_le_iff_le_log one_lt_two x_pos).mp ?_
  have low : (2 : ℚ) ^ m₁.log2 ≤ m₁ := by exact_mod_cast Nat.log2_self_le some₁.ne'
  have high : (m₂ : ℚ) ≤ 2 ^ (m₂.log2 + 1) := by exact_mod_cast Nat.lt_log2_self.le
  rw [quotient, le_div_iff₀ (mul_pos m₂_pos (zpow_pos two_pos _))]
  calc ((2 : ℕ) : ℚ) ^ (totalExponent m₁ e₁ - totalExponent m₂ e₂ - 1) * (m₂ * 2 ^ e₂)
      ≤ 2 ^ (totalExponent m₁ e₁ - totalExponent m₂ e₂ - 1) *
          (2 ^ (m₂.log2 + 1) * 2 ^ e₂) := by
        rw [Nat.cast_ofNat]
        exact mul_le_mul_of_nonneg_left
          (mul_le_mul_of_nonneg_right high (zpow_pos two_pos _).le) (zpow_pos two_pos _).le
    _ = 2 ^ m₁.log2 * 2 ^ e₁ := by
        rw [← zpow_natCast, ← zpow_natCast, ← zpow_add₀ two_ne_zero, ← zpow_add₀ two_ne_zero,
          ← zpow_add₀ two_ne_zero]
        congr 1
        unfold totalExponent
        push_cast
        ring
    _ ≤ m₁ * 2 ^ e₁ := mul_le_mul_of_nonneg_right low (zpow_pos two_pos _).le

theorem divCore_spec {spec : Format} {m₁ m₂ : ℕ} {e₁ e₂ : ℤ} (some₁ : 0 < m₁) (some₂ : 0 < m₂)
    {x : ℚ} (quotient : x = m₁ * 2 ^ e₁ / (m₂ * 2 ^ e₂))
    (least : 2 ^ (ofSpec spec).leastPower ≤ x) :
    ∃ mantissa exponent accuracy, divCore spec m₁ e₁ m₂ e₂ = (mantissa, exponent, accuracy) ∧
      0 < mantissa ∧ exponent ≤ (ofSpec spec).gridPower x ∧
        StandsFor (x / 2 ^ exponent)
          (ExtendedMantissa.ofMantissaAndAccuracy mantissa accuracy) := by
  have m₂_pos : (0 : ℚ) < m₂ := by exact_mod_cast some₂
  have x_pos : 0 < x := (zpow_pos two_pos _).trans_le least
  have leading := totalExponent_le_log some₁ some₂ quotient x_pos
  have coarse : min (e₁ - e₂) (spec.targetExponent (totalExponent m₁ e₁ - totalExponent m₂ e₂)) ≤
      (ofSpec spec).gridPower x := by
    refine (min_le_right _ _).trans ?_
    unfold Format.targetExponent BinaryFormat.gridPower Format.mantissaBits
    rw [minExponent_eq]
    have fraction : (ofSpec spec).fraction = spec.mantissaBitsWithoutImplicit := rfl
    omega
  refine ⟨_, _, _, rfl, ?_⟩
  generalize target : min (e₁ - e₂)
    (spec.targetExponent (totalExponent m₁ e₁ - totalExponent m₂ e₂)) = exponent at coarse
  obtain ⟨places, shift⟩ : ∃ places : ℕ, e₁ - e₂ = exponent + places :=
    ⟨(e₁ - e₂ - exponent).toNat, by omega⟩
  have amount : (e₁ - e₂ - exponent).toNat = places := by omega
  have scaled : x / 2 ^ exponent = ((m₁ <<< places : ℕ) : ℚ) / m₂ := by
    rw [quotient, Nat.shiftLeft_eq, Nat.cast_mul, Nat.cast_pow, Nat.cast_ofNat,
      ← zpow_natCast, show (places : ℤ) = e₁ - e₂ - exponent by omega, zpow_sub₀ two_ne_zero,
      zpow_sub₀ two_ne_zero]
    field_simp
  have stands := standsFor_quotient (m₁ <<< places) some₂
  rw [← scaled] at stands
  rw [amount]
  refine ⟨?_, coarse, stands⟩
  have whole : (1 : ℚ) ≤ x / 2 ^ exponent := by
    rw [le_div_iff₀ (zpow_pos two_pos _), one_mul]
    exact (zpow_le_zpow_right₀ one_le_two coarse).trans (zpow_gridPower_le least)
  have high := stands.bounds.2
  rw [ofMantissaAndAccuracy_mantissa] at high
  have : (0 : ℚ) < (m₁ <<< places / m₂ : ℕ) := by linarith
  exact_mod_cast this

/-- **Division is rounded once.** -/
theorem div_eq {spec : Format} {m₁ m₂ : ℕ} {e₁ e₂ : ℤ} (some₁ : 0 < m₁) (some₂ : 0 < m₂)
    {x : ℚ} (quotient : x = m₁ * 2 ^ e₁ / (m₂ * 2 ^ e₂))
    (least : 2 ^ (ofSpec spec).leastPower ≤ x) :
    ∃ (mantissa above : ℕ) (some : 0 < mantissa),
      div spec (.finite .positive m₁ e₁ some₁) (.finite .positive m₂ e₂ some₂) =
        .finite .positive mantissa ((ofSpec spec).leastPower + above) some ∧
      mantissa < 2 ^ ((ofSpec spec).fraction + 1) ∧
      (2 ^ (ofSpec spec).fraction ≤ mantissa ∨ above = 0) ∧
      (ofSpec spec).nearestBits x = (ofSpec spec).pattern mantissa above := by
  obtain ⟨mantissa, exponent, accuracy, core, some, coarse, stands⟩ :=
    divCore_spec some₁ some₂ quotient least
  have rounded := roundWithAccuracy_eq some stands coarse (nearestMantissa_pos least) .positive
  rw [div, core]
  exact rounded

end Float.Model.UnpackedFloat

namespace Float32

open Float.Model (UnpackedFloat)
open Collage (BinaryFormat twoPow_eq)
open Collage.BinaryFormat (single)

/-! ### Single precision -/

theorem toNat_packComponents (exponent : BitVec 8) (mantissa : BitVec 23) :
    (UnpackedFloat.packComponents .binary32 .positive exponent mantissa).toNat =
      exponent.toNat * 2 ^ 23 + mantissa.toNat := by
  have sign : (UnpackedFloat.Sign.toBitVec .positive ++ exponent).toNat = exponent.toNat := by
    rw [BitVec.toNat_append]
    change (0#1).toNat <<< 8 ||| _ = _
    rw [BitVec.toNat_zero, Nat.zero_shiftLeft, Nat.zero_or]
  unfold UnpackedFloat.packComponents
  rw [BitVec.toNat_append, sign, ← Nat.shiftLeft_add_eq_or_of_lt mantissa.isLt, Nat.shiftLeft_eq]

/-- The bits of a number that is rounded. -/
theorem toNat_pack {mantissa above : ℕ} (some : 0 < mantissa)
    (short : mantissa < 2 ^ (single.fraction + 1))
    (full : 2 ^ single.fraction ≤ mantissa ∨ above = 0) :
    (UnpackedFloat.pack .binary32
      (.finite .positive mantissa (single.leastPower + above) some)).toNat =
        min (single.pattern mantissa above) single.infinity := by
  have fraction : single.fraction = 23 := rfl
  have infinity : single.infinity = 255 * 2 ^ 23 := rfl
  have least : single.leastPower = -149 := rfl
  have bias : Float.Model.Format.binary32.exponentBias = 127 := rfl
  have biased : (single.leastPower + above + (127 : ℕ) + (23 : ℕ)).toNat = above + 1 := by
    omega
  unfold UnpackedFloat.pack
  dsimp only
  rw [bias, biased, infinity, BinaryFormat.pattern, fraction]
  rw [fraction] at short full
  split
  · rename_i large
    have most : 255 * 2 ^ 23 ≤ above * 2 ^ 23 + mantissa := by omega
    rw [min_eq_right most]
    rfl
  rename_i small
  have less : above * 2 ^ 23 + mantissa ≤ 255 * 2 ^ 23 := by omega
  rw [min_eq_left less]
  split
  · rename_i normal
    have bits : mantissa.log2 = 23 := by
      change mantissa.log2 + 1 = 24 at normal
      omega
    have low := Nat.log2_self_le some.ne'
    rw [bits] at low
    rw [toNat_packComponents, BitVec.toNat_ofNat, BitVec.toNat_ofNat, Nat.mod_eq_of_lt (by omega)]
    omega
  · rename_i subnormal
    have bits : mantissa.log2 < 23 := by
      have high : mantissa.log2 < 24 := (Nat.log2_lt some.ne').mpr short
      change ¬ mantissa.log2 + 1 = 24 at subnormal
      omega
    have few : mantissa < 2 ^ 23 := (Nat.log2_lt some.ne').mp bits
    obtain rfl : above = 0 := full.resolve_left (Nat.not_le.mpr few)
    rw [toNat_packComponents, BitVec.toNat_ofNat, BitVec.toNat_ofNat, Nat.mod_eq_of_lt few]

/-- A pattern that reads as a positive number is unpacked into that number. -/
theorem unpack_of_read {bits : BitVec 32} {mantissa : ℕ} {power : ℤ}
    (read : single.read bits.toNat = (false, .finite mantissa power)) (some : 0 < mantissa) :
    UnpackedFloat.unpack .binary32 bits = .finite .positive mantissa power some := by
  have magnitude := @BinaryFormat.magnitude_eq .binary32 bits
  change (single.read bits.toNat).2 = _ at magnitude
  rw [read] at magnitude
  have positive : bits.toNat < 2 ^ 31 := by
    have negative := congrArg Prod.fst read
    exact Nat.not_le.mp (of_decide_eq_false negative)
  have sign : @UnpackedFloat.unpackSign .binary32 bits = 0#1 := by
    refine BitVec.eq_of_toNat_eq ?_
    rw [UnpackedFloat.unpackSign, BitVec.toNat_cast, BitVec.extractLsb_toNat,
      Nat.shiftRight_eq_div_pow]
    have none : bits.toNat / 2 ^ (23 + 8) = 0 := Nat.div_eq_of_lt positive
    change bits.toNat / 2 ^ (23 + 8) % _ = _
    rw [none]
    rfl
  have bias : Float.Model.Format.binary32.exponentBias = 127 := rfl
  have least : (BinaryFormat.ofSpec .binary32).leastPower = -149 := rfl
  unfold UnpackedFloat.unpack
  dsimp only
  rw [sign, bias]
  rw [least] at magnitude
  split at magnitude
  · split at magnitude <;> cases magnitude
  rename_i notAll
  rw [if_neg notAll]
  split at magnitude
  · rename_i none
    obtain ⟨rfl, rfl⟩ := Collage.Magnitude.finite.inj magnitude
    have notZero : @UnpackedFloat.unpackMantissa .binary32 bits ≠ 0#_ := by
      intro zero
      rw [zero] at some
      exact absurd some (lt_irrefl 0)
    rw [if_pos none, dif_neg notZero, none]
    rfl
  · rename_i field
    obtain ⟨rfl, rfl⟩ := Collage.Magnitude.finite.inj magnitude
    have atLeast : 0 < (@UnpackedFloat.unpackExponent .binary32 bits).toNat :=
      Nat.pos_of_ne_zero fun none => field (BitVec.eq_of_toNat_eq none)
    have full : (1#1 ++ @UnpackedFloat.unpackMantissa .binary32 bits).toNat =
        2 ^ 23 + (@UnpackedFloat.unpackMantissa .binary32 bits).toNat := by
      rw [BitVec.toNat_append,
        ← Nat.shiftLeft_add_eq_or_of_lt (@UnpackedFloat.unpackMantissa .binary32 bits).isLt]
      rfl
    rw [if_neg field, UnpackedFloat.finite.injEq]
    exact ⟨rfl, full, by omega⟩

/-- Whether a number is positive and has a given value. -/
def Is (x : Float32) (a : ℚ) : Prop :=
  ∃ (mantissa : ℕ) (exponent : ℤ) (some : 0 < mantissa),
    x.toModel.unpack = .finite .positive mantissa exponent some ∧ a = mantissa * 2 ^ exponent

theorem Is.pos {x : Float32} {a : ℚ} (is : x.Is a) : 0 < a := by
  obtain ⟨mantissa, exponent, some, _, rfl⟩ := is
  exact mul_pos (by exact_mod_cast some) (zpow_pos two_pos _)

/-- **The quotient of two numbers is the number nearest to their exact quotient.** -/
theorem toBits_div {x y : Float32} {a b : ℚ} (isX : x.Is a) (isY : y.Is b)
    (least : 2 ^ single.leastPower ≤ a / b) :
    (x / y).toBits.toNat = min (single.nearestBits (a / b)) single.infinity := by
  obtain ⟨m₁, e₁, some₁, unpack₁, value₁⟩ := isX
  obtain ⟨m₂, e₂, some₂, unpack₂, value₂⟩ := isY
  obtain ⟨mantissa, above, some, quotient, short, full, bits⟩ :=
    @UnpackedFloat.div_eq .binary32 m₁ m₂ e₁ e₂ some₁ some₂ (a / b) (by rw [value₁, value₂]) least
  change single.nearestBits (a / b) = single.pattern mantissa above at bits
  change (UnpackedFloat.pack .binary32
    (UnpackedFloat.div .binary32 x.toModel.unpack y.toModel.unpack)).toNat = _
  rw [unpack₁, unpack₂, quotient, bits]
  exact toNat_pack some short full

/-- A pattern that is no NaN stays what it is. -/
theorem toBits_ofBits {bits : ℕ} (word : bits < 2 * single.signBit)
    (number : (single.read bits).2 ≠ .notANumber) :
    (Float32.ofBits bits.toUInt32).toBits.toNat = bits := by
  have small : bits.toUInt32.toNat = bits := by
    rw [Nat.toUInt32_eq, UInt32.toNat_ofNat']
    exact Nat.mod_eq_of_lt word
  have packed : (Float32.ofBits bits.toUInt32).toBits.toBitVec =
      (UnpackedFloat.unpack .binary32 bits.toUInt32.toBitVec).pack .binary32 := rfl
  have noNaN : ¬ @UnpackedFloat.isNaNBits .binary32 bits.toUInt32.toBitVec := by
    rw [BinaryFormat.isNaNBits_iff]
    have same : bits.toUInt32.toBitVec.toNat = bits := small
    rw [same]
    exact number
  rw [UnpackedFloat.pack_unpack, if_neg noNaN] at packed
  rw [UInt32.toBitVec_inj.mp packed, small]

theorem least_le_one : (2 : ℚ) ^ single.leastPower ≤ 1 :=
  zpow_le_one_of_nonpos₀ one_le_two (by decide)

/-- The number nearest to a natural number, when there is a finite one. -/
theorem is_nearest {n : ℕ} (some : n ≠ 0) (finite : single.nearestBits n < single.infinity) :
    (nearest n).Is (single.nearestValue n) := by
  have n_pos : (0 : ℚ) < n := by exact_mod_cast Nat.pos_of_ne_zero some
  have one_le : (1 : ℚ) ≤ n := by exact_mod_cast Nat.pos_of_ne_zero some
  obtain ⟨mantissa, above, short, full, bits, value⟩ :=
    @BinaryFormat.exists_pattern_of_nearest single n n_pos
  have mantissa_pos : 0 < mantissa := by
    refine Nat.pos_of_ne_zero fun none => ?_
    have positive : 0 < single.nearestValue n :=
      mul_pos (by exact_mod_cast BinaryFormat.nearestMantissa_pos (least_le_one.trans one_le))
        (zpow_pos two_pos _)
    rw [value, none, Nat.cast_zero, zero_mul] at positive
    exact lt_irrefl _ positive
  have canonical : single.Canonical mantissa above := by
    refine ⟨short, full, ?_⟩
    have below : above * 2 ^ 23 + mantissa < 255 * 2 ^ 23 := bits.symm.trans_lt finite
    change above + 3 ≤ 256
    rcases full with full | rfl
    · change 2 ^ 23 ≤ mantissa at full
      omega
    · omega
  have rounded : single.ofInt n = single.withSign false (single.pattern mantissa above) := by
    have ratio := @BinaryFormat.roundRatio_eq_nearestBits single n 1 some one_ne_zero
    rw [Nat.cast_one, div_one, min_eq_left finite.le, bits] at ratio
    unfold BinaryFormat.ofInt
    rw [Int.natAbs_natCast, ratio, decide_eq_false (by omega)]
  have read := BinaryFormat.read_pattern canonical false
  rw [← rounded] at read
  have kept : (nearest n).toBits.toNat = single.ofInt n :=
    toBits_ofBits (BinaryFormat.ofInt_lt n) (by rw [read]; exact Collage.Magnitude.noConfusion)
  rw [← kept] at read
  exact ⟨mantissa, _, mantissa_pos, unpack_of_read read mantissa_pos, value⟩

/-! ### Parts of a whole -/

theorem toBits_zero_div {x : Float32} {a : ℚ} (is : x.Is a) : (nearest 0 / x).toBits.toNat = 0 := by
  obtain ⟨mantissa, exponent, some, unpacked, _⟩ := is
  change (UnpackedFloat.pack .binary32
    (UnpackedFloat.div .binary32 (nearest 0).toModel.unpack x.toModel.unpack)).toNat = _
  have zero : (nearest 0).toModel.unpack = .zero .positive := by rfl
  rw [zero, unpacked]
  rfl

/-- What is known of a number that counts no more than 64 bits can. -/
theorem is_nearest_count {n : ℕ} (some : n ≠ 0) (word : n ≤ 2 ^ 64) :
    (nearest n).Is (single.nearestValue n) ∧ 1 ≤ single.nearestValue n ∧
      single.nearestValue n ≤ 2 ^ 64 := by
  have one_le : (1 : ℚ) ≤ n := by exact_mod_cast Nat.pos_of_ne_zero some
  have le_word : (n : ℚ) ≤ 2 ^ (64 : ℤ) := by exact_mod_cast word
  have one : single.nearestValue (2 ^ (0 : ℤ)) = 2 ^ (0 : ℤ) :=
    BinaryFormat.nearestValue_two_zpow (by decide)
  have most : single.nearestValue (2 ^ (64 : ℤ)) = 2 ^ (64 : ℤ) :=
    BinaryFormat.nearestValue_two_zpow (by decide)
  have mostBits : single.nearestBits (2 ^ (64 : ℤ)) = 191 * 2 ^ 23 :=
    BinaryFormat.nearestBits_two_zpow (by decide)
  have finite : single.nearestBits n < single.infinity :=
    (BinaryFormat.nearestBits_mono (zero_lt_one.trans_le one_le) le_word).trans_lt
      (mostBits.trans_lt (by decide))
  refine ⟨is_nearest some finite, ?_, ?_⟩
  · have low := BinaryFormat.nearestValue_mono (f := single) zero_lt_one one_le
    rwa [← zpow_zero (2 : ℚ), one, zpow_zero] at low
  · have high := BinaryFormat.nearestValue_mono (f := single) (zero_lt_one.trans_le one_le) le_word
    rw [most] at high
    exact_mod_cast high

section

variable {i j n : ℕ} (word : n ≤ 2 ^ 64)

include word

theorem least_le_part (i_ne : i ≠ 0) (le : i ≤ n) :
    2 ^ single.leastPower ≤ single.nearestValue i / single.nearestValue n := by
  obtain ⟨_, low, _⟩ := is_nearest_count i_ne (le.trans word)
  obtain ⟨is, _, high⟩ := is_nearest_count (by omega) word
  rw [le_div_iff₀ is.pos]
  calc (2 : ℚ) ^ single.leastPower * single.nearestValue n
      ≤ 2 ^ single.leastPower * 2 ^ 64 := mul_le_mul_of_nonneg_left high (zpow_pos two_pos _).le
    _ ≤ 1 := by
        rw [← zpow_natCast, ← zpow_add₀ two_ne_zero]
        exact zpow_le_one_of_nonpos₀ one_le_two (by decide)
    _ ≤ single.nearestValue i := low

theorem toBits_part (i_ne : i ≠ 0) (le : i ≤ n) :
    (nearest i / nearest n).toBits.toNat =
      single.nearestBits (single.nearestValue i / single.nearestValue n) := by
  obtain ⟨isI, _, _⟩ := is_nearest_count i_ne (le.trans word)
  obtain ⟨isN, _, _⟩ := is_nearest_count (by omega) word
  have least := least_le_part word i_ne le
  have positive := (zpow_pos two_pos _).trans_le least
  have whole : single.nearestValue i / single.nearestValue n ≤ 2 ^ (0 : ℤ) := by
    rw [zpow_zero, div_le_one isN.pos]
    exact BinaryFormat.nearestValue_mono (by exact_mod_cast Nat.pos_of_ne_zero i_ne)
      (by exact_mod_cast le)
  have one : single.nearestBits (2 ^ (0 : ℤ)) = 127 * 2 ^ 23 :=
    BinaryFormat.nearestBits_two_zpow (by decide)
  have finite : single.nearestBits (single.nearestValue i / single.nearestValue n) ≤
      single.infinity :=
    (BinaryFormat.nearestBits_mono positive whole).trans (one.trans_le (by decide))
  rw [toBits_div isI isN least, min_eq_left finite]

/-- **Parts of a whole are in order**, rounded as they are. -/
theorem toBits_part_mono (ij : i ≤ j) (jn : j ≤ n) (some : n ≠ 0) :
    (nearest i / nearest n).toBits.toNat ≤ (nearest j / nearest n).toBits.toNat := by
  obtain ⟨isN, _, _⟩ := is_nearest_count some word
  rcases Nat.eq_zero_or_pos i with rfl | i_pos
  · exact (toBits_zero_div isN).trans_le (Nat.zero_le _)
  · rw [toBits_part word i_pos.ne' (ij.trans jn), toBits_part word (by omega) jn]
    refine BinaryFormat.nearestBits_mono
      ((zpow_pos two_pos _).trans_le (least_le_part word i_pos.ne' (ij.trans jn))) ?_
    refine div_le_div_of_nonneg_right ?_ isN.pos.le
    exact BinaryFormat.nearestValue_mono (by exact_mod_cast i_pos) (by exact_mod_cast ij)

theorem part_self (some : n ≠ 0) : nearest n / nearest n = 1 := by
  obtain ⟨isN, _, _⟩ := is_nearest_count some word
  have bits := toBits_part word some le_rfl
  have one : single.nearestBits (2 ^ (0 : ℤ)) = 127 * 2 ^ 23 :=
    BinaryFormat.nearestBits_two_zpow (by decide)
  rw [div_self isN.pos.ne', ← zpow_zero (2 : ℚ), one] at bits
  have same : (nearest n / nearest n).toBits = (1 : Float32).toBits :=
    UInt32.toNat_inj.mp (bits.trans rfl)
  rw [← (nearest n / nearest n).ofBits_toBits, same, Float32.ofBits_toBits]

end

end Float32
