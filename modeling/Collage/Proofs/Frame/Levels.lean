import Collage.Proofs.Frame.Layout
import Mathlib.Order.Bounds.Basic

/-!
# The loops behind the level

The level of anti-aliasing is first doubled and then halved, and `achievableAntiAlias` gives both
loops steps.  `Doubles` and `Halves` are the same loops without steps: they relate a level to what
the loop ends with, every turn has to be made, and nothing may be more than its word holds.
`Achieves` is one loop after the other, and `Best` says what is looked for without any loop.

If less than the greatest number of 32 bits is requested, both loops come to an end, and they end
where those with steps do (`raiseLevel_doubles`, `lowerLevel_halves`).  If it is requested, then
doubling has no end: at the highest power of two, twice the level is cut down to the greatest
number, which is still not more than what was requested (`Doubles.requested_lt`).
`achieves_iff` puts this together, and `exists_endless` is the one request without an answer.
-/

namespace Collage

theorem twoPow_le_iff {few many : Nat} : twoPow few ≤ twoPow many ↔ few ≤ many :=
  Nat.pow_le_pow_iff_right (by decide)

namespace RenderTargets

variable {width height requested maxDimension longest level top lowered : Nat}

/-! ### Doubling and halving -/

/-- Doubling a level of 32 bits ends with a level. -/
inductive Doubles (requested : Nat) : Nat → Nat → Prop
  | stop {level : Nat} (beyond : max requested 1 < min (2 * level) word32Highest) :
      Doubles requested level level
  | pass {level top : Nat} (within : min (2 * level) word32Highest ≤ max requested 1)
      (held : 2 * level ≤ word32Highest) (rest : Doubles requested (2 * level) top) :
      Doubles requested level top

/-- Halving a level ends with a level; the products have 64 bits. -/
inductive Halves (longest maxDimension : Nat) : Nat → Nat → Prop
  | stop {level : Nat} (held : longest * level < twoPow 64)
      (done : ¬(1 < level ∧ maxDimension < longest * level)) :
      Halves longest maxDimension level level
  | pass {level lowered : Nat} (held : longest * level < twoPow 64)
      (large : 1 < level ∧ maxDimension < longest * level)
      (rest : Halves longest maxDimension (level / 2) lowered) :
      Halves longest maxDimension level lowered

/-- Doubling from one and then halving ends with a level. -/
def Achieves (width height requested maxDimension level : Nat) : Prop :=
  ∃ top, Doubles requested 1 top ∧ Halves (max (max width height) 1) maxDimension top level

theorem Doubles.unique {other : Nat} (h : Doubles requested level top)
    (h' : Doubles requested level other) : top = other := by
  induction h with
  | stop beyond =>
    cases h' with
    | stop => rfl
    | pass within => exact absurd within (Nat.not_le.mpr beyond)
  | pass within _ _ same =>
    cases h' with
    | stop beyond => exact absurd within (Nat.not_le.mpr beyond)
    | pass _ _ rest => exact same rest

theorem Halves.unique {other : Nat} (h : Halves longest maxDimension level lowered)
    (h' : Halves longest maxDimension level other) : lowered = other := by
  induction h with
  | stop _ done =>
    cases h' with
    | stop => rfl
    | pass _ large => exact absurd large done
  | pass _ large _ same =>
    cases h' with
    | stop _ done => exact absurd large done
    | pass _ _ rest => exact same rest

/-- Doubling ends only if less than the greatest number is requested, since what is compared with
the request is never more than that. -/
theorem Doubles.requested_lt (h : Doubles requested level top) : requested < word32Highest := by
  induction h with
  | stop beyond =>
    exact Nat.lt_of_le_of_lt (Nat.le_max_left _ _)
      (Nat.lt_of_lt_of_le beyond (Nat.min_le_right _ _))
  | pass _ _ _ less => exact less

/-! ### The loops with steps -/

/-- **Doubling comes to an end** at the highest power of two that is not more than requested.  The
induction is on how far the level is from the highest power of two that has 32 bits: with less than
the greatest number requested it is never doubled there. -/
theorem raiseLevel_doubles (less : requested < word32Highest) :
    ∀ (left done steps : Nat), done + left = 31 → left < steps → twoPow done ≤ max requested 1 →
      ∃ last ≤ 31, raiseLevel requested steps (twoPow done) = twoPow last ∧
        Doubles requested (twoPow done) (twoPow last) ∧
        twoPow last ≤ max requested 1 ∧ max requested 1 < twoPow (last + 1) := by
  have small : max requested 1 < word32Highest := max_lt less (by decide)
  intro left
  induction left with
  | zero =>
    rintro done (_ | steps) rfl many reached
    · cases many
    · have beyond : max requested 1 < min (2 * twoPow 31) word32Highest :=
        lt_min (small.trans (by decide)) small
      exact ⟨31, le_rfl, by rw [raiseLevel, if_neg (Nat.not_le.mpr beyond)], .stop beyond,
        reached, small.trans (by decide)⟩
  | succ left next =>
    rintro done (_ | steps) whole many reached
    · cases many
    · have twice : 2 * twoPow done = twoPow (done + 1) := by rw [twoPow_succ, Nat.mul_comm]
      have held : twoPow (done + 1) ≤ word32Highest :=
        (twoPow_le_iff.mpr (by omega : done + 1 ≤ 31)).trans (by decide)
      by_cases within : min (2 * twoPow done) word32Highest ≤ max requested 1
      · have further : twoPow (done + 1) ≤ max requested 1 := by
          rwa [twice, min_eq_left held] at within
        obtain ⟨last, few, raised, doubles, below, above⟩ :=
          next (done + 1) steps (by omega) (Nat.lt_of_succ_lt_succ many) further
        refine ⟨last, few, ?_, .pass within (twice ▸ held) (twice ▸ doubles), below, above⟩
        rw [raiseLevel, if_pos within, twice,
          Nat.mod_eq_of_lt (Nat.lt_of_le_of_lt held (by decide)), raised]
      · refine ⟨done, by omega, by rw [raiseLevel, if_neg within], .stop (Nat.not_le.mp within),
          reached, ?_⟩
        rw [← twice]
        exact lt_of_lt_of_le (Nat.not_le.mp within) (Nat.min_le_left _ _)

/-- **Halving comes to an end** at the highest power of two that fits, or at one. -/
theorem lowerLevel_halves (longest maxDimension : Nat) : ∀ (start steps : Nat), start < steps →
    longest * twoPow start < twoPow 64 →
      ∃ last ≤ start, lowerLevel longest maxDimension steps (twoPow start) = twoPow last ∧
        Halves longest maxDimension (twoPow start) (twoPow last) ∧
        (last = 0 ∨ longest * twoPow last ≤ maxDimension) ∧
        ∀ more ≤ start, last < more → maxDimension < longest * twoPow more
  | _, 0, many, _ => nomatch many
  | 0, steps + 1, _, held => by
    have done : ¬(1 < twoPow 0 ∧ maxDimension < longest * twoPow 0) := fun large =>
      absurd large.1 (by decide)
    exact ⟨0, le_rfl, by rw [lowerLevel, if_neg done], .stop held done, .inl rfl,
      fun more few some => absurd some (Nat.not_lt.mpr few)⟩
  | start + 1, steps + 1, many, held => by
    by_cases large : maxDimension < longest * twoPow (start + 1)
    · have above : 1 < twoPow (start + 1) := Nat.one_lt_two_pow (Nat.succ_ne_zero start)
      have half : twoPow (start + 1) / 2 = twoPow start := by
        rw [twoPow_succ, Nat.mul_div_cancel _ (by decide)]
      have less : longest * twoPow start ≤ longest * twoPow (start + 1) :=
        Nat.mul_le_mul_left _ (twoPow_le_iff.mpr (Nat.le_succ start))
      obtain ⟨last, few, ends, halves, fits, beyond⟩ :=
        lowerLevel_halves longest maxDimension start steps (Nat.lt_of_succ_lt_succ many)
          (less.trans_lt held)
      refine ⟨last, few.trans (Nat.le_succ start), ?_, .pass held ⟨above, large⟩ (half ▸ halves),
        fits, fun more upTo some => ?_⟩
      · rw [lowerLevel, if_pos ⟨above, large⟩, half, ends]
      · rcases Nat.le_succ_iff.mp upTo with before | rfl
        · exact beyond more before some
        · exact large
    · have done : ¬(1 < twoPow (start + 1) ∧ maxDimension < longest * twoPow (start + 1)) :=
        fun both => large both.2
      exact ⟨start + 1, le_rfl, by rw [lowerLevel, if_neg done], .stop held done,
        .inr (Nat.le_of_not_lt large), fun more few some => absurd some (Nat.not_lt.mpr few)⟩

/-! ### The level that is looked for -/

/-- A power of two that is not more than requested and at which the larger side fits. -/
structure Fitting (width height requested maxDimension level : Nat) : Prop where
  power : ∃ exponent, level = twoPow exponent
  requested : level ≤ max requested 1
  fits : max (max width height) 1 * level ≤ maxDimension

/-- The greatest level that fits, or one if none does. -/
def Best (width height requested maxDimension level : Nat) : Prop :=
  IsGreatest {level | Fitting width height requested maxDimension level} level ∨
    level = 1 ∧ ∀ other, ¬Fitting width height requested maxDimension other

/-- **Both loops come to an end at the best level**, if the larger side has 32 bits and less than
the greatest number is requested. -/
theorem achievableAntiAlias_best (maxDimension : Nat) (wide : width ≤ word32Highest)
    (high : height ≤ word32Highest) (less : requested < word32Highest) :
    Achieves width height requested maxDimension
        (achievableAntiAlias width height requested maxDimension) ∧
      Best width height requested maxDimension
        (achievableAntiAlias width height requested maxDimension) := by
  obtain ⟨top, small, raised, doubles, asked, above⟩ :=
    raiseLevel_doubles less 31 0 endless rfl (by decide) (Nat.le_max_right _ _)
  have side : max (max width height) 1 ≤ word32Highest := max_le (max_le wide high) (by decide)
  have held : max (max width height) 1 * twoPow top < twoPow 64 :=
    (Nat.mul_le_mul side (asked.trans (max_le less.le (by decide)))).trans_lt (by decide)
  obtain ⟨last, few, ends, halves, fits, beyond⟩ :=
    lowerLevel_halves _ maxDimension top 33 (by omega) held
  have achieved : achievableAntiAlias width height requested maxDimension = twoPow last := by
    rw [achievableAntiAlias, show (1 : Nat) = twoPow 0 from rfl, raised]
    exact ends
  rw [achieved]
  refine ⟨⟨twoPow top, doubles, halves⟩, ?_⟩
  by_cases room : max (max width height) 1 * twoPow last ≤ maxDimension
  · refine .inl ⟨⟨⟨last, rfl⟩, (twoPow_le_iff.mpr few).trans asked, room⟩, ?_⟩
    rintro _ ⟨⟨other, rfl⟩, wanted, otherFits⟩
    have upTo : other ≤ top := Nat.lt_succ_iff.mp
      (Nat.lt_of_not_le fun more => absurd (above.trans_le (twoPow_le_iff.mpr more))
        (Nat.not_lt.mpr wanted))
    exact twoPow_le_iff.mpr (Nat.le_of_not_lt fun more =>
      absurd otherFits (Nat.not_le.mpr (beyond other upTo more)))
  · obtain rfl : last = 0 := fits.resolve_right room
    refine .inr ⟨rfl, fun other fitting => room ?_⟩
    obtain ⟨exponent, rfl⟩ := fitting.power
    exact (Nat.mul_le_mul_left _ (twoPow_pos exponent)).trans fitting.fits

/-! ### The level of a pool -/

/-- **A pool that has anti-aliasing is not too large**: up to its level, the sizes that it works out
are within the limit of the device. -/
theorem create_held {device later : Device} {pool : RenderTargets}
    (made : (create width height requested).runOn device = (.ok pool, later))
    (above : 1 < pool.antiAlias) {factor : Nat} (small : factor ≤ pool.antiAlias) :
    pool.width * factor ≤ device.traits.maxDimension ∧
      pool.height * factor ≤ device.traits.maxDimension := by
  have laid := Action.Yields.of_ok made (create_layout width height requested device)
  have level : pool.antiAlias = _ := congrArg Layout.level laid.layout
  obtain ⟨wide, high⟩ := Prod.mk.inj laid.output
  change pool.antiAlias =
    achievableAntiAlias width height requested device.traits.maxDimension at level
  have fits := achievableAntiAlias_fits (level ▸ above)
  rw [← level] at fits
  have both : ∀ side ≤ max (max width height) 1, side * factor ≤ device.traits.maxDimension :=
    fun side most => (Nat.mul_le_mul most small).trans fits
  exact ⟨wide ▸ both _ (by omega), high ▸ both _ (by omega)⟩

/-- **The level is the best one, unless the greatest number of 32 bits is requested**: just then
the loops have no end.  Where they end, nothing in them overflows, and if the level is more than
one then neither do the sizes of a pool that is made with it. -/
theorem achieves_iff (width height requested maxDimension : Nat) (wide : width ≤ word32Highest)
    (high : height ≤ word32Highest) (asked : requested ≤ word32Highest)
    (limit : maxDimension ≤ word32Highest) :
    ((∃ level, Achieves width height requested maxDimension level) ↔
        requested ≠ word32Highest) ∧
      (∀ level, Achieves width height requested maxDimension level →
        level = achievableAntiAlias width height requested maxDimension ∧
          Best width height requested maxDimension level) ∧
      ∀ (device later : Device) (pool : RenderTargets),
        device.traits.maxDimension = maxDimension →
        (create width height requested).runOn device = (.ok pool, later) → 1 < pool.antiAlias →
          (∀ factor ≤ pool.antiAlias,
            pool.width * factor ≤ word32Highest ∧ pool.height * factor ≤ word32Highest) ∧
          pool.renderSize.1 ≤ word32Highest ∧ pool.renderSize.2 ≤ word32Highest := by
  refine ⟨⟨?_, fun other => ?_⟩, ?_, ?_⟩
  · rintro ⟨level, top, doubles, -⟩
    exact doubles.requested_lt.ne
  · exact ⟨_, (achievableAntiAlias_best _ wide high (lt_of_le_of_ne asked other)).1⟩
  · rintro level ⟨top, doubles, halves⟩
    obtain ⟨⟨other, doubles', halves'⟩, best⟩ :=
      achievableAntiAlias_best maxDimension wide high doubles.requested_lt
    obtain rfl := doubles.unique doubles'
    obtain rfl := halves.unique halves'
    exact ⟨rfl, best⟩
  · rintro device later pool rfl made above
    have held : ∀ factor ≤ pool.antiAlias,
        pool.width * factor ≤ word32Highest ∧ pool.height * factor ≤ word32Highest :=
      fun factor small =>
        have sizes := create_held made above small
        ⟨sizes.1.trans limit, sizes.2.trans limit⟩
    exact ⟨held, held pool.antiAlias le_rfl⟩

/-- Six are requested for an output of ten by five, and the sides of textures have sixty-four
pixels at most. -/
theorem achieves_iff_six :
    (∃ level, Achieves 10 5 6 64 level) ∧ (∀ level, Achieves 10 5 6 64 level → level = 4) ∧
      ∃ pool later, (create 10 5 6).runOn { traits := { maxDimension := 64 } } =
          (.ok pool, later) ∧
        pool.renderSize = (40, 20) ∧ pool.width * 2 ≤ word32Highest := by
  obtain ⟨ends, best, sizes⟩ :=
    achieves_iff 10 5 6 64 (by decide) (by decide) (by decide) (by decide)
  let pool : RenderTargets :=
    { targets := [⟨2, 1, 20, 10, .permanent⟩], ladder := [0], width := 10, height := 5,
      antiAlias := 4 }
  have made := Action.runOn_eq_ok (show ((create 10 5 6).runOn
    { traits := { maxDimension := 64 } }).1.toOption = some pool by decide +kernel)
  have four : achievableAntiAlias 10 5 6 64 = 4 := by decide +kernel
  exact ⟨ends.mpr (by decide), fun level achieved => (best level achieved).1.trans four, pool, _,
    made, rfl, ((sizes _ _ pool rfl made (by decide)).1 2 (by decide)).1⟩

/-- **A request without an answer**: there is a best level for the greatest number of 32 bits, but
it is not found. -/
theorem exists_endless :
    (¬∃ level, Achieves 1 1 word32Highest 8192 level) ∧ Best 1 1 word32Highest 8192 8192 := by
  constructor
  · rintro ⟨level, top, doubles, -⟩
    exact absurd doubles.requested_lt (lt_irrefl _)
  · refine .inl ⟨⟨⟨13, rfl⟩, by decide, by decide⟩, fun other fitting => ?_⟩
    have fits := fitting.fits
    rwa [max_self, max_self, Nat.one_mul] at fits

end RenderTargets
end Collage
