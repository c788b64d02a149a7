import Collage.Proofs.Number.Rounding
import Mathlib

/-!
# Floating-point numbers and their bits

What Lean proves of `Float` and `Float32` speaks of unpacked bits, and `BinaryFormat.read`
of a bit pattern as a number.  `magnitude_eq` says that the two agree, so that a pattern
which is no NaN is kept by `ofBits` and `toBits`, and a number is finite when its pattern
reads as finite.  With this, exactness of rounding becomes exactness of `widen`, `narrow`,
`nearest` and `integerPart`.
-/

namespace Collage
namespace BinaryFormat

open Float.Model (Format)
open Float.Model.UnpackedFloat (unpackExponent unpackMantissa isNaNBits unpack)

/-- The format of a specification of the library. -/
def ofSpec (spec : Format) : BinaryFormat :=
  ⟨spec.mantissaBitsWithoutImplicit, spec.exponentBits⟩

variable {s : Format}

theorem toNat_unpackMantissa (b : BitVec s.numBits) :
    (unpackMantissa b).toNat = b.toNat % 2 ^ s.mantissaBitsWithoutImplicit := by
  rw [Float.Model.UnpackedFloat.unpackMantissa_def, BitVec.extractLsb'_toNat, Nat.shiftRight_zero]

theorem toNat_unpackExponent (b : BitVec s.numBits) :
    (unpackExponent b).toNat =
      b.toNat / 2 ^ s.mantissaBitsWithoutImplicit % 2 ^ s.exponentBits := by
  rw [Float.Model.UnpackedFloat.unpackExponent_def, BitVec.extractLsb'_toNat,
    Nat.shiftRight_eq_div_pow]

/-- The magnitude of a bit pattern by its parts. -/
theorem magnitude_eq (b : BitVec s.numBits) :
    ((ofSpec s).read b.toNat).2 =
      if unpackExponent b = -1#_ then
        if unpackMantissa b = 0#_ then .infinite else .notANumber
      else if unpackExponent b = 0#_ then
        .finite (unpackMantissa b).toNat (ofSpec s).leastPower
      else
        .finite (2 ^ s.mantissaBitsWithoutImplicit + (unpackMantissa b).toNat)
          ((ofSpec s).leastPower + ((unpackExponent b).toNat - 1 : Nat)) := by
  have mantissa := toNat_unpackMantissa b
  have exponent := toNat_unpackExponent b
  have ones : unpackExponent b = -1#_ ↔ (unpackExponent b).toNat = 2 ^ s.exponentBits - 1 := by
    rw [← BitVec.toNat_inj, BitVec.neg_one_eq_allOnes, BitVec.toNat_allOnes]
  have zeros : unpackExponent b = 0#_ ↔ (unpackExponent b).toNat = 0 := by
    rw [← BitVec.toNat_inj, BitVec.toNat_ofNat, Nat.zero_mod]
  have empty : unpackMantissa b = 0#_ ↔ (unpackMantissa b).toNat = 0 := by
    rw [← BitVec.toNat_inj, BitVec.toNat_ofNat, Nat.zero_mod]
  have fewer := (unpackExponent b).isLt
  have less := (unpackMantissa b).isLt
  simp only [ones, zeros, empty]
  generalize (unpackExponent b).toNat = field at exponent fewer ⊢
  generalize (unpackMantissa b).toNat = fraction at mantissa less ⊢
  have body : b.toNat % (ofSpec s).signBit =
      field * 2 ^ s.mantissaBitsWithoutImplicit + fraction := by
    rw [signBit, twoPow_eq, ofSpec, Nat.pow_add, Nat.mod_mul, ← mantissa, ← exponent]
    ring
  have positive : 0 < 2 ^ s.mantissaBitsWithoutImplicit := Nat.two_pow_pos _
  unfold read
  dsimp only
  rw [body]
  have div : (field * 2 ^ s.mantissaBitsWithoutImplicit + fraction) /
      twoPow (ofSpec s).fraction = field := by
    rw [twoPow_eq, ofSpec, Nat.mul_comm, Nat.mul_add_div positive, Nat.div_eq_of_lt less,
      Nat.add_zero]
  have mod : (field * 2 ^ s.mantissaBitsWithoutImplicit + fraction) %
      twoPow (ofSpec s).fraction = fraction := by
    rw [twoPow_eq, ofSpec, Nat.mul_comm, Nat.mul_add_mod, Nat.mod_eq_of_lt less]
  have infinity : (ofSpec s).infinity =
      (2 ^ s.exponentBits - 1) * 2 ^ s.mantissaBitsWithoutImplicit := rfl
  rw [div, mod, infinity, twoPow_eq]
  by_cases top : field = 2 ^ s.exponentBits - 1
  · rw [if_pos top, top]
    rcases Nat.eq_zero_or_pos fraction with rfl | some
    · rw [if_neg (by omega), if_pos (by omega), if_pos rfl]
    · rw [if_pos (by omega), if_neg some.ne']
  · have below : field + 1 ≤ 2 ^ s.exponentBits - 1 := by omega
    have bound : field * 2 ^ s.mantissaBitsWithoutImplicit + fraction <
        (2 ^ s.exponentBits - 1) * 2 ^ s.mantissaBitsWithoutImplicit :=
      calc field * 2 ^ s.mantissaBitsWithoutImplicit + fraction
          < (field + 1) * 2 ^ s.mantissaBitsWithoutImplicit := by
            rw [Nat.add_one_mul]
            omega
        _ ≤ _ := Nat.mul_le_mul_right _ below
    rw [if_neg top, if_neg (by omega), if_neg (by omega)]
    rfl

theorem isNaNBits_iff (b : BitVec s.numBits) :
    isNaNBits b ↔ ((ofSpec s).read b.toNat).2 = .notANumber := by
  rw [magnitude_eq, isNaNBits, decide_eq_true_iff]
  grind

theorem isFinite_unpack_iff (b : BitVec s.numBits) :
    (unpack s b).isFinite ↔
      ∃ mantissa power, ((ofSpec s).read b.toNat).2 = .finite mantissa power := by
  rw [magnitude_eq]
  unfold unpack
  dsimp only
  split
  · split <;> simp [Float.Model.UnpackedFloat.isFinite]
  · split
    · split <;> simp [Float.Model.UnpackedFloat.isFinite]
    · simp [Float.Model.UnpackedFloat.isFinite]

end BinaryFormat
end Collage

namespace Float

open Collage (BinaryFormat)

theorem toNat_toBits_lt (x : Float) : x.toBits.toNat < 2 * BinaryFormat.double.signBit :=
  x.toBits.toNat_lt

/-- A pattern that is no NaN stays what it is. -/
theorem toBits_ofBits {bits : Nat} (word : bits < 2 * BinaryFormat.double.signBit)
    (number : (BinaryFormat.double.read bits).2 ≠ .notANumber) :
    (Float.ofBits bits.toUInt64).toBits.toNat = bits := by
  have small : bits.toUInt64.toNat = bits := by
    rw [Nat.toUInt64_eq, UInt64.toNat_ofNat']
    exact Nat.mod_eq_of_lt word
  have packed : (Float.ofBits bits.toUInt64).toBits.toBitVec =
      (Float.Model.UnpackedFloat.unpack .binary64 bits.toUInt64.toBitVec).pack .binary64 := rfl
  have noNaN :
      ¬ @Float.Model.UnpackedFloat.isNaNBits .binary64 bits.toUInt64.toBitVec := by
    rw [BinaryFormat.isNaNBits_iff]
    have same : bits.toUInt64.toBitVec.toNat = bits := small
    rw [same]
    exact number
  rw [Float.Model.UnpackedFloat.pack_unpack, if_neg noNaN] at packed
  rw [UInt64.toBitVec_inj.mp packed, small]

/-! ### Integer parts -/

theorem toBits_nearest {n : Int} (settles : BinaryFormat.Settles n) :
    (nearest n).toBits.toNat = BinaryFormat.double.ofInt n := by
  obtain ⟨mantissa, power, finite⟩ := settles.read_ofInt
  exact toBits_ofBits (BinaryFormat.ofInt_lt n) (by rw [finite]; exact Collage.Magnitude.noConfusion)

/-- The integer part of a number is one that a number can be. -/
theorem settles_integerPart (x : Float) : BinaryFormat.Settles (x.integerPart .floor) :=
  BinaryFormat.settles_toInt x.toNat_toBits_lt

theorem integerPart_nearest {n : Int} (settles : BinaryFormat.Settles n) :
    (nearest n).integerPart .floor = n := by
  rw [integerPart, toBits_nearest settles, settles.toInt_ofInt]

theorem integerPart_of_isNaN {x : Float} (undefined : x.isNaN) : x.integerPart .floor = 0 := by
  rw [isNaN_eq_decide_eq_nan, decide_eq_true_iff] at undefined
  rw [undefined]
  decide +kernel

theorem integerPart_of_beq_zero {x : Float} (zero : x == 0) : x.integerPart .floor = 0 := by
  obtain ⟨-, -, rfl | ⟨rfl, -⟩ | ⟨rfl, -⟩⟩ := beq_iff_ne_nan_and_eq.mp zero
  all_goals decide +kernel

end Float

namespace Float32

open Collage (BinaryFormat)

theorem toNat_toBits_lt (x : Float32) : x.toBits.toNat < 2 * BinaryFormat.single.signBit :=
  x.toBits.toNat_lt

theorem isFinite_iff (x : Float32) :
    x.isFinite ↔ ∃ negative mantissa power,
      BinaryFormat.single.read x.toBits.toNat = (negative, .finite mantissa power) := by
  have same : x.isFinite ↔ ∃ mantissa power,
      (BinaryFormat.single.read x.toBits.toNat).2 = .finite mantissa power :=
    BinaryFormat.isFinite_unpack_iff (s := .binary32) x.toModel.toBits.toBitVec
  rw [same]
  constructor
  · rintro ⟨mantissa, power, finite⟩
    exact ⟨_, mantissa, power, Prod.ext rfl finite⟩
  · rintro ⟨negative, mantissa, power, finite⟩
    exact ⟨mantissa, power, by rw [finite]⟩

/-- **A finite number in single precision** is the same after it has been a double. -/
theorem narrow_widen {x : Float32} (finite : x.isFinite) : x.widen.narrow = x := by
  obtain ⟨negative, mantissa, power, finite⟩ := x.isFinite_iff.mp finite
  obtain ⟨full, lower, canonical, -, converted⟩ :=
    BinaryFormat.convert_eq_pattern BinaryFormat.single_embeds x.toNat_toBits_lt finite
  have read := BinaryFormat.read_pattern canonical negative
  rw [← converted] at read
  have wide : x.widen.toBits.toNat =
      BinaryFormat.single.convert .double x.toBits.toNat := by
    refine Float.toBits_ofBits ?_ (by rw [read]; exact Collage.Magnitude.noConfusion)
    rw [converted]
    exact BinaryFormat.withSign_lt (canonical.pattern_lt.trans (BinaryFormat.infinity_lt_signBit _)) _
  rw [Float.narrow, wide,
    BinaryFormat.convert_convert BinaryFormat.single_embeds x.toNat_toBits_lt finite]
  exact (congrArg Float32.ofBits UInt32.ofNat_toNat).trans x.ofBits_toBits

end Float32
