import Collage.Proofs.Number.Bits

/-!
# One is neutral

Multiplying with one changes no number in single precision.  A product is rounded by shifting its
mantissa to the exponent that it should have; with the mantissa of one, a power of two, this takes
back what the product added (`roundWithAccuracy_shifted`).
-/

namespace Float.Model.UnpackedFloat

open Float.Model (Format totalExponent)

theorem log2_shifted {mantissa : Nat} (some : 0 < mantissa) (shift : Nat) :
    (mantissa * 2 ^ shift).log2 = mantissa.log2 + shift := by
  have lower := Nat.log2_self_le some.ne'
  have upper := @Nat.lt_log2_self mantissa
  refine (Nat.log2_eq_iff (Nat.mul_pos some (Nat.two_pow_pos _)).ne').mpr ⟨?_, ?_⟩
  · rw [Nat.pow_add]
    exact Nat.mul_le_mul_right _ lower
  · rw [Nat.add_right_comm, Nat.pow_add]
    exact Nat.mul_lt_mul_of_pos_right upper (Nat.two_pow_pos _)

theorem shiftRight_shifted (mantissa : Nat) : ∀ shift : Nat,
    (⟨mantissa * 2 ^ shift, false, false⟩ : ExtendedMantissa) >>> shift = ⟨mantissa, false, false⟩ := by
  intro shift
  change Nat.repeat ExtendedMantissa.shiftRightOne shift _ = _
  induction shift generalizing mantissa with
  | zero => rw [Nat.pow_zero, Nat.mul_one]; rfl
  | succ shift ih =>
    rw [Nat.repeat, Nat.pow_succ', ← Nat.mul_assoc, ih]
    unfold ExtendedMantissa.shiftRightOne
    simp

/-- A number with the exponent that it should have. -/
def Rounded (spec : Format) (mantissa : Nat) (exponent : Int) : Prop :=
  spec.targetExponent (totalExponent mantissa exponent) = exponent

theorem shiftToTargetExponent_shifted {spec : Format} {mantissa : Nat} {exponent : Int}
    (some : 0 < mantissa) (rounded : Rounded spec mantissa exponent) (shift : Nat) :
    shiftToTargetExponent spec (mantissa * 2 ^ shift) (exponent - shift) .exact =
      (⟨mantissa, false, false⟩, exponent) := by
  have total : totalExponent (mantissa * 2 ^ shift) (exponent - shift) =
      totalExponent mantissa exponent := by
    unfold totalExponent
    rw [log2_shifted some]
    omega
  have amount : (exponent - (exponent - shift)).toNat = shift := by omega
  unfold shiftToTargetExponent shiftToExponent
  rw [total, rounded]
  dsimp only
  rw [amount, ExtendedMantissa.ofMantissaAndAccuracy, shiftRight_shifted, Int.sub_add_cancel]

/-- **What a power of two adds to a mantissa, rounding takes back.** -/
theorem roundWithAccuracy_shifted {spec : Format} {mantissa : Nat} {exponent : Int}
    (some : 0 < mantissa) (rounded : Rounded spec mantissa exponent) (sign : Sign) (shift : Nat) :
    roundWithAccuracy spec sign (mantissa * 2 ^ shift) (exponent - shift) .exact =
      .finite sign mantissa exponent some := by
  have again := shiftToTargetExponent_shifted some rounded 0
  rw [Nat.pow_zero, Nat.mul_one, Nat.cast_zero, Int.sub_zero] at again
  have exact : (⟨mantissa, false, false⟩ : ExtendedMantissa).roundedMantissa = mantissa := rfl
  unfold roundWithAccuracy
  rw [shiftToTargetExponent_shifted some rounded]
  dsimp only
  rw [exact, again]
  dsimp only
  rw [dif_neg some.ne']

/-- What is unpacked has the exponent that it should have. -/
theorem rounded_of_unpack {bits : BitVec Format.binary32.numBits} {sign : Sign} {mantissa : Nat}
    {exponent : Int} {some : 0 < mantissa}
    (unpacked : unpack .binary32 bits = .finite sign mantissa exponent some) :
    Rounded .binary32 mantissa exponent := by
  have bias : Format.binary32.exponentBias = 127 := rfl
  have least : Format.binary32.minExponent = -149 := rfl
  have wide : Format.binary32.mantissaBits = 24 := rfl
  have fits := (unpackMantissa bits).isLt
  unfold Rounded Format.targetExponent totalExponent
  rw [least, wide]
  unfold unpack at unpacked
  dsimp only at unpacked
  rw [bias] at unpacked
  split at unpacked
  · split at unpacked <;> cases unpacked
  · split at unpacked
    · next zero =>
      split at unpacked
      · cases unpacked
      · injection unpacked with _ small lowest
        have short : mantissa.log2 < 23 := (Nat.log2_lt some.ne').mpr (small ▸ fits)
        rw [zero, BitVec.toNat_ofNat] at lowest
        omega
    · next normal =>
      injection unpacked with _ full exponent
      have field : 0 < (unpackExponent bits).toNat :=
        Nat.pos_of_ne_zero fun none => normal (BitVec.eq_of_toNat_eq none)
      have long : mantissa.log2 = 23 := by
        refine (Nat.log2_eq_iff some.ne').mpr ?_
        rw [BitVec.toNat_append, ← Nat.shiftLeft_add_eq_or_of_lt fits] at full
        have implicit : (1#1).toNat <<< Format.binary32.mantissaBitsWithoutImplicit = 2 ^ 23 := rfl
        rw [implicit] at full
        change _ < 2 ^ 23 at fits
        omega
      omega

end Float.Model.UnpackedFloat

namespace Float32

open Float.Model (UnpackedFloat)

theorem unpack_one :
    (1 : Float32).toModel.unpack = .finite .positive (2 ^ 23) (-23) (Nat.two_pow_pos 23) := by
  rfl

theorem pack_unpack (x : Float32.Model) : Float32.Model.pack x.unpack = x := by
  have packed := @UnpackedFloat.pack_unpack .binary32 x.toBits.toBitVec (by decide)
  have whole : UnpackedFloat.pack .binary32 x.unpack = x.toBits.toBitVec := by
    refine packed.trans ?_
    split
    · next undefined =>
      unfold UnpackedFloat.isNaNBits at undefined
      rw [decide_eq_true_iff] at undefined
      exact (x.valid.eq_packedNaN undefined.1 undefined.2).symm
    · rfl
  obtain ⟨bits, valid⟩ := x
  unfold Float32.Model.pack
  simp only [whole]

/-- **One is neutral.** -/
theorem mul_one (x : Float32) : x * 1 = x := by
  obtain ⟨model⟩ := x
  have product : UnpackedFloat.mul .binary32 model.unpack (1 : Float32).toModel.unpack =
      model.unpack := by
    rw [unpack_one]
    cases unpacked : model.unpack with
    | notANumber => rfl
    | infinity sign => cases sign <;> rfl
    | zero sign => cases sign <;> rfl
    | finite sign mantissa exponent some =>
      have same : sign * .positive = sign := by cases sign <;> rfl
      rw [UnpackedFloat.mul, same]
      exact UnpackedFloat.roundWithAccuracy_shifted some (UnpackedFloat.rounded_of_unpack unpacked)
        sign 23
  change Float32.ofModel (Float32.Model.pack _) = _
  rw [product, pack_unpack]

end Float32
