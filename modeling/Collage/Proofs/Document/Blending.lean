import Collage.Document.Compositing
import Collage.Proofs.Number.Exact
import Mathlib.Tactic.Linarith
import Mathlib.Tactic.Ring

/-!
# Blending valid colours

A colour is valid if its channels lie between zero and one.  In exact arithmetic (`Exact`) the
formulas divide by nothing that is zero, whatever the mode is: `channel_mem` for the formulas of
single channels, `blend_mixing` for what is mixed with the colour below, which is divided by the
opacity of the result.

Mixing is a mean of means (`composite_mem`, `mix_mem`), so that blending valid colours gives a valid
colour, and what is blended with no opacity leaves the colour below as it is, unless that has no
opacity either (`blend_closed`).
-/

namespace Collage

namespace Color

variable {K : Type} [Field K] [LinearOrder K]

/-- All channels lie between zero and one. -/
structure Valid (c : Color K) : Prop where
  red : c.red ∈ Set.Icc 0 1
  green : c.green ∈ Set.Icc 0 1
  blue : c.blue ∈ Set.Icc 0 1
  alpha : c.alpha ∈ Set.Icc 0 1

theorem valid_constant_zero [IsStrictOrderedRing K] : (constant (0 : K)).Valid := by
  have zero : (0 : K) ∈ Set.Icc 0 1 := ⟨le_rfl, zero_le_one⟩
  exact ⟨zero, zero, zero, zero⟩

end Color

namespace Compositing

open Arithmetic (Exact Fraction clamp clamp_mem clamp_of_mem exact_of)

variable {K α : Type} [Field K] [LinearOrder K] [Arithmetic α] {ι : K → α}

/-! ### Single channels -/

section

variable (exact : Exact ι)

include exact

/-- Burning divides only by what is more than zero. -/
theorem colorBurn_mem (s d : K) : colorBurn (ι s) (ι d) ∈ Set.range ι := by
  unfold colorBurn
  rw [exact.one, exact.zero, exact.le, exact.le]
  split
  · exact ⟨1, rfl⟩
  · split
    · exact ⟨0, rfl⟩
    · next positive =>
      have nonzero : s ≠ 0 := (not_le.mp (by simpa using positive)).ne'
      rw [exact.sub, exact.div _ nonzero, exact.lesser, exact.sub]
      exact ⟨_, rfl⟩

/-- Dividing asks first if there is something to divide by. -/
theorem divide_mem (s d : K) : channel .divide (ι s) (ι d) ∈ Set.range ι := by
  unfold channel
  dsimp only
  rw [exact.one, exact.zero, exact.le, exact.lt]
  split
  · split <;> exact ⟨_, rfl⟩
  · next positive =>
    have nonzero : s ≠ 0 := (not_le.mp (by simpa using positive)).ne'
    rw [exact.div _ nonzero, exact.lesser]
    exact ⟨_, rfl⟩

variable [IsStrictOrderedRing K]

theorem half_eq : (half : α) = ι (1 / 2) := by
  rw [half, exact.literal]
  norm_num

theorem two_eq : (two : α) = ι 2 := by
  rw [two, exact.literal]
  norm_num

/-- Dodging divides only by what is more than zero. -/
theorem colorDodge_mem (s d : K) : colorDodge (ι s) (ι d) ∈ Set.range ι := by
  unfold colorDodge
  rw [exact.one, exact.zero, exact.le, exact.le]
  split
  · exact ⟨0, rfl⟩
  · split
    · exact ⟨1, rfl⟩
    · next below =>
      have nonzero : 1 - s ≠ 0 := (sub_pos.mpr (not_le.mp (by simpa using below))).ne'
      rw [exact.sub, exact.div _ nonzero, exact.lesser]
      exact ⟨_, rfl⟩

theorem hardLight_mem (s d : K) : hardLight (ι s) (ι d) ∈ Set.range ι := by
  unfold hardLight
  simp only [half_eq exact, two_eq exact, exact.one, exact.mul, exact.sub]
  split <;> exact ⟨_, rfl⟩

theorem softLight_mem (s d : K) : softLight (ι s) (ι d) ∈ Set.range ι := by
  obtain ⟨root, same⟩ := exact.sqrt d
  unfold softLight
  simp only [half_eq exact, two_eq exact, exact.one, exact.literal, exact.mul, exact.sub, exact.add,
    ← same]
  split
  · exact ⟨_, rfl⟩
  · split
    · simp only [exact.add, exact.sub, exact.mul]
      exact ⟨_, rfl⟩
    · simp only [exact.add, exact.sub, exact.mul]
      exact ⟨_, rfl⟩

theorem vividLight_mem (s d : K) : vividLight (ι s) (ι d) ∈ Set.range ι := by
  unfold vividLight
  rw [half_eq exact, two_eq exact, exact.sub, exact.mul, exact.mul]
  split
  · exact colorBurn_mem exact _ d
  · exact colorDodge_mem exact _ d

/-- **No mode divides a channel by zero.** -/
theorem channel_mem (mode : BlendMode) (s d : K) : channel mode (ι s) (ι d) ∈ Set.range ι := by
  cases mode with
  | colorBurn => exact colorBurn_mem exact s d
  | colorDodge => exact colorDodge_mem exact s d
  | overlay => exact hardLight_mem exact d s
  | hardLight => exact hardLight_mem exact s d
  | softLight => exact softLight_mem exact s d
  | vividLight => exact vividLight_mem exact s d
  | divide => exact divide_mem exact s d
  | pinLight =>
    simp only [channel, half_eq exact, two_eq exact, exact.mul, exact.sub, exact.lesser,
      exact.greater]
    split <;> exact ⟨_, rfl⟩
  | hardMix =>
    simp only [channel, exact.zero, exact.one]
    split <;> exact ⟨_, rfl⟩
  | darken => exact ⟨_, (exact.lesser s d).symm⟩
  | lighten => exact ⟨_, (exact.greater s d).symm⟩
  | multiply | linearBurn | screen | linearDodge | linearLight | difference | exclusion
  | subtract =>
    simp only [channel, two_eq exact, exact.zero, exact.one, exact.add, exact.sub, exact.mul,
      exact.abs, exact.lesser, exact.greater, exact.unit]
    exact ⟨_, rfl⟩
  | passThrough | overwrite | mask | none | dissolve | normal | darkerColor | lighterColor =>
    exact ⟨s, rfl⟩

theorem blendTint_mem (mode : BlendMode) (source destination : Color K) :
    (blendTint mode (tint (source.map ι)) (tint (destination.map ι))).red ∈ Set.range ι ∧
    (blendTint mode (tint (source.map ι)) (tint (destination.map ι))).green ∈ Set.range ι ∧
    (blendTint mode (tint (source.map ι)) (tint (destination.map ι))).blue ∈ Set.range ι := by
  unfold blendTint
  split
  · split <;> exact ⟨⟨_, rfl⟩, ⟨_, rfl⟩, ⟨_, rfl⟩⟩
  · split <;> exact ⟨⟨_, rfl⟩, ⟨_, rfl⟩, ⟨_, rfl⟩⟩
  · exact ⟨channel_mem exact mode _ _, channel_mem exact mode _ _, channel_mem exact mode _ _⟩

/-- The pseudo-random number is not negative and less than one. -/
theorem exists_hash (x y : K) : ∃ number ∈ Set.Ico 0 1, hash (ι x) (ι y) = ι number := by
  unfold hash
  rw [exact.literal, exact.literal, exact.literal, exact.mul, exact.mul, exact.add]
  obtain ⟨wave, sine⟩ := exact.sine
    (x * ((129898 : ℕ) / 10 ^ 4) + y * ((78233 : ℕ) / 10 ^ 3))
  rw [← sine, exact.mul]
  obtain ⟨part, small, fract⟩ := exact.fract (wave * ((437585453 : ℕ) / 10 ^ 4))
  have bounds := abs_lt.mp small
  rw [fract, exact.zero, exact.one]
  dsimp only
  rw [exact.lt, exact.add]
  split
  · next negative =>
    have below : part < 0 := by simpa using negative
    exact ⟨part + 1, ⟨by linarith, by linarith⟩, rfl⟩
  · next other =>
    have above : 0 ≤ part := by simpa using other
    exact ⟨part, ⟨above, bounds.2⟩, rfl⟩

end

/-! ### Mixing -/

/-- How far two colours cover, the upper one of which lets the lower one through. -/
def cover (upper lower : K) : K :=
  upper + lower * (1 - upper)

/-- A channel over another; each counts as far as its colour is seen. -/
def composite (upperAlpha lowerAlpha upper lower : K) : K :=
  (upper * upperAlpha + lower * lowerAlpha * (1 - upperAlpha)) / cover upperAlpha lowerAlpha

/-- What lies between two numbers, a part of the way from the first to the second. -/
def between (first second part : K) : K :=
  first + (second - first) * part

/-- The modes that mix a colour with the one below it. -/
def Mixing (mode : BlendMode) : Prop :=
  mode ∉ [BlendMode.passThrough, .overwrite, .mask, .none, .dissolve]

instance (mode : BlendMode) : Decidable (Mixing mode) :=
  inferInstanceAs (Decidable (mode ∉ _))

/-- A colour mixed with the one below, where `blended` is seen as far as that one covers. -/
def mixed (source blended destination : Color K) (alpha : K) : Color K :=
  let mix (upper blended lower : K) : K :=
    between (composite alpha destination.alpha upper lower)
      (composite alpha destination.alpha blended lower) destination.alpha
  ⟨mix source.red blended.red destination.red, mix source.green blended.green destination.green,
    mix source.blue blended.blue destination.blue, cover alpha destination.alpha⟩

section

variable (exact : Exact ι)

include exact

theorem cover_eq (upper lower : K) :
    ι upper + ι lower * (Arithmetic.one - ι upper) = ι (cover upper lower) := by
  rw [exact.one, exact.sub, exact.mul, exact.add]
  rfl

theorem mixChannel_eq {alpha lowerAlpha : K} (nonzero : cover alpha lowerAlpha ≠ 0)
    (upper blended lower : K) :
    mixChannel (ι alpha) (ι lowerAlpha) (ι (cover alpha lowerAlpha)) (ι upper) (ι blended)
        (ι lower) =
      ι (between (composite alpha lowerAlpha upper lower)
        (composite alpha lowerAlpha blended lower) lowerAlpha) := by
  unfold mixChannel
  simp only [exact.one, exact.sub, exact.mul, exact.add, exact.div _ nonzero]
  rfl

end

omit [LinearOrder K] in
theorem mixed_unseen (source blended : Color K) {destination : Color K}
    (seen : destination.alpha ≠ 0) : mixed source blended destination 0 = destination := by
  have through (upper lower : K) : composite 0 destination.alpha upper lower = lower := by
    rw [composite, cover, mul_zero, sub_zero, mul_one, mul_one, zero_add, zero_add,
      mul_div_cancel_right₀ _ seen]
  simp [mixed, through, between, cover]

variable [IsStrictOrderedRing K]

theorem mul_mem_unit {x y : K} (hx : x ∈ Set.Icc 0 1) (hy : y ∈ Set.Icc 0 1) :
    x * y ∈ Set.Icc 0 1 :=
  ⟨mul_nonneg hx.1 hy.1, mul_le_one₀ hx.2 hy.1 hy.2⟩

theorem cover_mem {upper lower : K} (u : upper ∈ Set.Icc 0 1) (l : lower ∈ Set.Icc 0 1) :
    cover upper lower ∈ Set.Icc 0 1 := by
  have through : 0 ≤ 1 - upper := sub_nonneg.mpr u.2
  refine ⟨add_nonneg u.1 (mul_nonneg l.1 through), ?_⟩
  calc
    upper + lower * (1 - upper)
    _ ≤ upper + (1 - upper) := add_le_add_right (mul_le_of_le_one_left through l.2) upper
    _ = 1 := by ring

theorem composite_mem {upperAlpha lowerAlpha upper lower : K} (ua : upperAlpha ∈ Set.Icc 0 1)
    (la : lowerAlpha ∈ Set.Icc 0 1) (u : upper ∈ Set.Icc 0 1) (l : lower ∈ Set.Icc 0 1) :
    composite upperAlpha lowerAlpha upper lower ∈ Set.Icc 0 1 := by
  have through : 0 ≤ 1 - upperAlpha := sub_nonneg.mpr ua.2
  refine ⟨div_nonneg ?_ (cover_mem ua la).1, div_le_one_of_le₀ ?_ (cover_mem ua la).1⟩
  · exact add_nonneg (mul_nonneg u.1 ua.1) (mul_nonneg (mul_nonneg l.1 la.1) through)
  · refine add_le_add (mul_le_of_le_one_left ua.1 u.2) ?_
    exact mul_le_mul_of_nonneg_right (mul_le_of_le_one_left la.1 l.2) through

theorem between_mem {first second part : K} (f : first ∈ Set.Icc 0 1) (s : second ∈ Set.Icc 0 1)
    (p : part ∈ Set.Icc 0 1) : between first second part ∈ Set.Icc 0 1 := by
  have rest : 0 ≤ 1 - part := sub_nonneg.mpr p.2
  have mean : between first second part = first * (1 - part) + second * part := by
    unfold between
    ring
  rw [mean]
  refine ⟨add_nonneg (mul_nonneg f.1 rest) (mul_nonneg s.1 p.1), ?_⟩
  calc
    first * (1 - part) + second * part
    _ ≤ (1 - part) + part :=
      add_le_add (mul_le_of_le_one_left rest f.2) (mul_le_of_le_one_left p.1 s.2)
    _ = 1 := by ring

theorem mixed_valid {source blended destination : Color K} {alpha : K} (s : source.Valid)
    (b : blended.Valid) (d : destination.Valid) (a : alpha ∈ Set.Icc 0 1) :
    (mixed source blended destination alpha).Valid := by
  have mix {upper blended lower : K} (u : upper ∈ Set.Icc 0 1) (b : blended ∈ Set.Icc 0 1)
      (l : lower ∈ Set.Icc 0 1) := between_mem (composite_mem a d.alpha u l)
        (composite_mem a d.alpha b l) d.alpha
  exact ⟨mix s.red b.red d.red, mix s.green b.green d.green, mix s.blue b.blue d.blue,
    cover_mem a d.alpha⟩

/-- **A mode that mixes gives a mixture, or nothing where nothing covers.** -/
theorem blend_mixing (exact : Exact ι) {mode : BlendMode} (mixing : Mixing mode) {opacity : K}
    (o : opacity ∈ Set.Icc 0 1) (x y : α) {source destination : Color K} (s : source.Valid)
    (d : destination.Valid) :
    ∃ blended : Color K, blended.Valid ∧ (mode = .normal → blended = source) ∧
      blend mode (ι opacity) x y (source.map ι) (destination.map ι) =
        (if cover (source.alpha * opacity) destination.alpha = 0 then Color.constant 0
          else mixed source blended destination (source.alpha * opacity)).map ι := by
  have visible := mul_mem_unit s.alpha o
  have covers := cover_mem visible d.alpha
  obtain ⟨⟨red, sameRed⟩, ⟨green, sameGreen⟩, ⟨blue, sameBlue⟩⟩ :=
    blendTint_mem exact mode source destination
  refine ⟨⟨clamp red, clamp green, clamp blue, source.alpha⟩,
    ⟨clamp_mem red, clamp_mem green, clamp_mem blue, s.alpha⟩, ?_, ?_⟩
  · rintro rfl
    rw [exact.injective sameRed, exact.injective sameGreen, exact.injective sameBlue,
      clamp_of_mem s.red, clamp_of_mem s.green, clamp_of_mem s.blue]
  · unfold blend
    split
    case h_6 =>
      simp only [Color.map, exact.mul, exact.unit_of_mem visible, cover_eq exact, exact.zero,
        exact.le, decide_eq_true_eq]
      by_cases nothing : cover (source.alpha * opacity) destination.alpha = 0
      · rw [if_pos nothing.le, if_pos nothing]
        rfl
      · rw [if_neg fun le => nothing (le_antisymm le covers.1), if_neg nothing]
        simp only [Color.map] at sameRed sameGreen sameBlue
        rw [← sameRed, ← sameGreen, ← sameBlue, exact.unit, exact.unit, exact.unit,
          mixChannel_eq exact nothing, mixChannel_eq exact nothing, mixChannel_eq exact nothing]
        rfl
    all_goals exact absurd mixing (by decide)

/-- What a mode gives for valid colours: a valid one, and the lower one where the upper one has no
opacity, up to the colour of what does not cover. -/
def Closed (mode : BlendMode) (alpha : K) (destination result : Color K) : Prop :=
  result.Valid ∧
    (alpha = 0 → mode ∉ [BlendMode.passThrough, .overwrite, .mask] →
      result.alpha = destination.alpha ∧ (destination.alpha ≠ 0 → result = destination))

/-- A mode that does not mix chooses. -/
theorem blend_plain (exact : Exact ι) {mode : BlendMode} (plain : ¬ Mixing mode) {opacity : K}
    (o : opacity ∈ Set.Icc 0 1) (x y : K) {source destination : Color K} (s : source.Valid)
    (d : destination.Valid) :
    ∃ result, Closed mode (source.alpha * opacity) destination result ∧
      blend mode (ι opacity) (ι x) (ι y) (source.map ι) (destination.map ι) = result.map ι := by
  have visible := mul_mem_unit s.alpha o
  have shown : Arithmetic.unit ((source.map ι).alpha * ι opacity) = ι (source.alpha * opacity) := by
    rw [← exact.unit_of_mem visible, ← exact.mul]
    rfl
  unfold blend
  rw [shown]
  split
  case h_6 a b c e f => exact absurd (by simpa [Mixing] using ⟨a, b, c, e, f⟩) plain
  case h_1 | h_2 =>
    refine ⟨⟨source.red, source.green, source.blue, source.alpha * opacity⟩,
      ⟨⟨s.red, s.green, s.blue, visible⟩, ?_⟩, rfl⟩
    exact fun _ other => absurd other (by decide)
  case h_3 =>
    refine ⟨⟨destination.red, destination.green, destination.blue,
      min destination.alpha (source.alpha * opacity)⟩, ⟨⟨d.red, d.green, d.blue, ?_⟩, ?_⟩, ?_⟩
    · exact ⟨le_min d.alpha.1 visible.1, min_le_of_left_le d.alpha.2⟩
    · exact fun _ other => absurd other (by decide)
    · exact congrArg (Tint.withAlpha (tint (destination.map ι)))
        (exact.lesser destination.alpha (source.alpha * opacity))
  case h_4 => exact ⟨destination, ⟨d, fun _ _ => ⟨rfl, fun _ => rfl⟩⟩, rfl⟩
  case h_5 =>
    obtain ⟨number, bounds, drawn⟩ := exists_hash exact x y
    dsimp only
    rw [drawn, exact.lt, exact.one]
    split
    · next less =>
      refine ⟨⟨source.red, source.green, source.blue, 1⟩,
        ⟨⟨s.red, s.green, s.blue, zero_le_one, le_rfl⟩, fun unseen _ => ?_⟩, rfl⟩
      rw [unseen] at less
      exact absurd bounds.1 (not_le.mpr (of_decide_eq_true less))
    · exact ⟨destination, ⟨d, fun _ _ => ⟨rfl, fun _ => rfl⟩⟩, rfl⟩

/-- **Blending keeps colours valid and divides by nothing that is zero.**  As `Exact` leaves open
what a division by zero gives, each formula comes to a number of the field for every `ι` only
without one.  Where the upper colour has no opacity, the lower one stays, or at least has no opacity
either. -/
theorem blend_closed (exact : Exact ι) (mode : BlendMode) {opacity : K} (o : opacity ∈ Set.Icc 0 1)
    (x y : K) {source destination : Color K} (s : source.Valid) (d : destination.Valid) :
    (∀ upper lower : K, channel mode (ι upper) (ι lower) ∈ Set.range ι) ∧
    (∃ red green blue, blendTint mode (tint (source.map ι)) (tint (destination.map ι)) =
      ⟨ι red, ι green, ι blue⟩) ∧
    ∃ result, Closed mode (source.alpha * opacity) destination result ∧
      blend mode (ι opacity) (ι x) (ι y) (source.map ι) (destination.map ι) = result.map ι := by
  refine ⟨channel_mem exact mode, ?_, ?_⟩
  · obtain ⟨⟨red, r⟩, ⟨green, g⟩, ⟨blue, b⟩⟩ := blendTint_mem exact mode source destination
    exact ⟨red, green, blue, by rw [r, g, b]⟩
  · by_cases mixing : Mixing mode
    · obtain ⟨blended, valid, -, same⟩ := blend_mixing exact mixing o (ι x) (ι y) s d
      refine ⟨_, ⟨?_, fun unseen _ => ?_⟩, same⟩
      · split
        · exact Color.valid_constant_zero
        · exact mixed_valid s valid d (mul_mem_unit s.alpha o)
      · rw [unseen, cover, sub_zero, mul_one, zero_add]
        split
        · next nothing => exact ⟨nothing.symm, fun covers => absurd nothing covers⟩
        · next covers =>
          rw [mixed_unseen source blended covers]
          exact ⟨rfl, fun _ => rfl⟩
    · exact blend_plain exact mixing o x y s d

/-- A channel that burns by nothing, among fractions with a mark for what is none. -/
theorem blend_closed_burn :
    Fraction.of 1 / Fraction.of 0 ∉ Set.range Fraction.of ∧
    (1 / 2 : ℚ) ∈ Set.Icc 0 1 ∧ (⟨0, 1 / 2, 1, 1⟩ : Color ℚ).Valid ∧
    (⟨1 / 2, 1 / 2, 0, 1 / 2⟩ : Color ℚ).Valid ∧
    ∃ result, Closed .colorBurn (1 * (1 / 2)) (⟨1 / 2, 1 / 2, 0, 1 / 2⟩ : Color ℚ) result ∧
      blend .colorBurn (Fraction.of (1 / 2)) (Fraction.of 0) (Fraction.of 0)
        ((⟨0, 1 / 2, 1, 1⟩ : Color ℚ).map Fraction.of)
        ((⟨1 / 2, 1 / 2, 0, 1 / 2⟩ : Color ℚ).map Fraction.of) = result.map Fraction.of := by
  have opacity : (1 / 2 : ℚ) ∈ Set.Icc 0 1 := by norm_num
  have source : (⟨0, 1 / 2, 1, 1⟩ : Color ℚ).Valid := by constructor <;> norm_num
  have destination : (⟨1 / 2, 1 / 2, 0, 1 / 2⟩ : Color ℚ).Valid := by constructor <;> norm_num
  exact ⟨Fraction.div_zero_notMem 1, opacity, source, destination,
    (blend_closed exact_of .colorBurn opacity 0 0 source destination).2.2⟩

end Compositing
end Collage
