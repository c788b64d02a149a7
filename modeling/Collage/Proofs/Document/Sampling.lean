import Collage.Document.Gradient
import Collage.Proofs.Number.Exact
import Mathlib.Data.Set.Finite.Lattice
import Mathlib.Tactic.Linarith
import Mathlib.Tactic.Ring
import Mathlib.Topology.Algebra.Order.Field
import Mathlib.Topology.Instances.Rat

/-!
# Colours between stops

`Interpolates` says what a gradient is, whatever the order of its stops: up to the lowest stop it
has the colour of that one, from the highest stop on the colour of that one, and between two
neighbours it goes in a line from the one to the other.  As one of these is the case everywhere
(`exists_enclosing`), there is one such curve (`Interpolates.unique`).

Sampling goes through the stops in their order.  In exact arithmetic it goes along `follow`, as long
as stops are not closer than the least step (`sampleAfter_eq`), and `follow` has at a place the
colour of the two neighbours around it (`follow_eq_mix`).  From its recursion it can also be seen
that it makes no jump and leaves no bounds (`continuous_follow`, `follow_mem`).
-/

namespace Collage

namespace Color

/-- The four channels of a colour. -/
def channels {K : Type} : List (Color K → K) :=
  [red, green, blue, alpha]

end Color

namespace GradientStop

/-- The stop with its position and its colour changed in the same way. -/
def map {K α : Type} (f : K → α) (stop : GradientStop K) : GradientStop α :=
  ⟨f stop.position, stop.color.map f⟩

/-- The colour on the line from one stop to another. -/
def mix {K : Type} [Field K] (lower upper : GradientStop K) (t : K) : Color K :=
  lower.color.zipWith
    (fun x y => x + (y - x) * ((t - lower.position) / (upper.position - lower.position)))
    upper.color

end GradientStop

namespace Gradient

open Arithmetic (Exact Fraction clamp clamp_mem clamp_of_mem exact_of)
open GradientStop (mix)

/-- The gradient with all its numbers changed in the same way. -/
def map {K α : Type} (f : K → α) (g : Gradient K) : Gradient α :=
  ⟨g.stops.map (·.map f)⟩

variable {K : Type} [Field K] [LinearOrder K]

/-- No two stops are closer than the least step above one. -/
def Apart (g : Gradient K) : Prop :=
  g.stops.Pairwise fun a b => 1 / 2 ^ 23 ≤ |a.position - b.position|

/-- What a gradient is, point by point; points count as between zero and one. -/
structure Interpolates (stops : List (GradientStop K)) (curve : K → Color K) : Prop where
  first : ∀ stop ∈ stops, (∀ other ∈ stops, stop.position ≤ other.position) →
    ∀ t, clamp t ≤ stop.position → curve t = stop.color
  last : ∀ stop ∈ stops, (∀ other ∈ stops, other.position ≤ stop.position) →
    ∀ t, stop.position ≤ clamp t → curve t = stop.color
  between : ∀ lower ∈ stops, ∀ upper ∈ stops, lower.position < upper.position →
    (∀ other ∈ stops, other.position ≤ lower.position ∨ upper.position ≤ other.position) →
    ∀ t, clamp t ∈ Set.Icc lower.position upper.position → curve t = mix lower upper (clamp t)

/-! ### One curve -/

omit [Field K] in
/-- Every point lies before all stops, behind all stops or between two neighbours. -/
theorem exists_enclosing {stops : List (GradientStop K)} (nonempty : stops ≠ []) (x : K) :
    (∃ stop ∈ stops, (∀ other ∈ stops, stop.position ≤ other.position) ∧ x ≤ stop.position) ∨
    (∃ stop ∈ stops, (∀ other ∈ stops, other.position ≤ stop.position) ∧ stop.position ≤ x) ∨
    ∃ lower ∈ stops, ∃ upper ∈ stops, lower.position < upper.position ∧
      (∀ other ∈ stops, other.position ≤ lower.position ∨ upper.position ≤ other.position) ∧
      x ∈ Set.Icc lower.position upper.position := by
  have finite (p : GradientStop K → Prop) : {stop | stop ∈ stops ∧ p stop}.Finite :=
    stops.finite_toSet.subset fun _ inside => inside.1
  by_cases below : ∃ stop ∈ stops, stop.position < x
  · obtain ⟨lower, ⟨inside, less⟩, highest⟩ := Set.exists_max_image _ GradientStop.position
      (finite fun stop => stop.position < x) below
    by_cases above : ∃ stop ∈ stops, x ≤ stop.position
    · obtain ⟨upper, ⟨inside', le⟩, lowest⟩ := Set.exists_min_image _ GradientStop.position
        (finite fun stop => x ≤ stop.position) above
      refine .inr (.inr ⟨lower, inside, upper, inside', less.trans_le le, ?_, less.le, le⟩)
      intro other among
      rcases lt_or_ge other.position x with before | behind
      · exact .inl (highest other ⟨among, before⟩)
      · exact .inr (lowest other ⟨among, behind⟩)
    · refine .inr (.inl ⟨lower, inside, fun other among => ?_, less.le⟩)
      exact highest other ⟨among, not_le.mp fun behind => above ⟨other, among, behind⟩⟩
  · obtain ⟨first, inside, lowest⟩ := Set.exists_min_image _ GradientStop.position
      stops.finite_toSet (List.exists_mem_of_ne_nil stops nonempty)
    exact .inl ⟨first, inside, lowest, not_lt.mp fun before => below ⟨first, inside, before⟩⟩

namespace Interpolates

variable {stops : List (GradientStop K)} {curve : K → Color K}

/-- **Stops determine the curve.** -/
theorem unique (h : Interpolates stops curve) (nonempty : stops ≠ []) {other : K → Color K}
    (h' : Interpolates stops other) : other = curve := by
  funext t
  rcases exists_enclosing nonempty (clamp t) with ⟨stop, inside, lowest, le⟩ |
    ⟨stop, inside, highest, le⟩ | ⟨lower, inside, upper, inside', less, apart, between⟩
  · rw [h.first stop inside lowest t le, h'.first stop inside lowest t le]
  · rw [h.last stop inside highest t le, h'.last stop inside highest t le]
  · rw [h.between lower inside upper inside' less apart t between,
      h'.between lower inside upper inside' less apart t between]

theorem of_mem_iff (h : Interpolates stops curve) {others : List (GradientStop K)}
    (same : ∀ stop, stop ∈ others ↔ stop ∈ stops) : Interpolates others curve where
  first stop inside lowest := h.first stop ((same stop).mp inside)
    fun other among => lowest other ((same other).mpr among)
  last stop inside highest := h.last stop ((same stop).mp inside)
    fun other among => highest other ((same other).mpr among)
  between lower inside upper inside' less apart := h.between lower ((same lower).mp inside) upper
    ((same upper).mp inside') less fun other among => apart other ((same other).mpr among)

end Interpolates

/-! ### Through the stops in their order -/

/-- The colour at a point behind the first stop. -/
def follow (t : K) : GradientStop K → List (GradientStop K) → Color K
  | last, [] => last.color
  | lower, upper :: rest => if t ≤ upper.position then mix lower upper t else follow t upper rest

/-- The colour at a point, from stops in their order. -/
def along (t : K) : List (GradientStop K) → Color K
  | [] => Color.constant 0
  | first :: rest => if t ≤ first.position then first.color else follow t first rest

/-- The stops by position. -/
def inOrder (g : Gradient K) : List (GradientStop K) :=
  g.stops.mergeSort fun a b => decide (a.position ≤ b.position)

/-- Each stop is at least the least step behind the ones before it. -/
def Spaced (stops : List (GradientStop K)) : Prop :=
  stops.Pairwise fun a b => 1 / 2 ^ 23 ≤ b.position - a.position

omit [Field K] in
theorem mem_inOrder {g : Gradient K} {stop : GradientStop K} :
    stop ∈ g.inOrder ↔ stop ∈ g.stops :=
  List.mem_mergeSort

omit [Field K] in
theorem inOrder_ne_nil {g : Gradient K} (nonempty : g.stops ≠ []) : g.inOrder ≠ [] := by
  obtain ⟨stop, inside⟩ := List.exists_mem_of_ne_nil g.stops nonempty
  exact List.ne_nil_of_mem (mem_inOrder.mpr inside)

variable [IsStrictOrderedRing K]

theorem spaced_inOrder {g : Gradient K} (apart : g.Apart) : Spaced g.inOrder := by
  have sorted : g.inOrder.Pairwise fun a b => decide (a.position ≤ b.position) = true := by
    refine List.pairwise_mergeSort (fun a b c ab bc => ?_) (fun a b => ?_) g.stops
    · exact decide_eq_true ((of_decide_eq_true ab).trans (of_decide_eq_true bc))
    · simpa using le_total a.position b.position
  have apart' : g.inOrder.Pairwise fun a b => 1 / 2 ^ 23 ≤ |a.position - b.position| :=
    (List.mergeSort_perm g.stops _).symm.pairwise apart
      fun {a b} far => by rwa [abs_sub_comm]
  refine (sorted.and apart').imp fun {a b} both => ?_
  have le : a.position - b.position ≤ 0 := sub_nonpos.mpr (of_decide_eq_true both.1)
  have far := both.2
  rwa [abs_of_nonpos le, neg_sub] at far

theorem Spaced.lt {stops : List (GradientStop K)} (spaced : Spaced stops) :
    stops.Pairwise fun a b => a.position < b.position :=
  spaced.imp fun far => sub_pos.mp (lt_of_lt_of_le (by positivity) far)

section

variable {α : Type} [Arithmetic α] {ι : K → α} (exact : Exact ι)

include exact

omit [IsStrictOrderedRing K] in
theorem sortedStops_map (g : Gradient K) :
    (g.map ι).sortedStops = g.inOrder.map (·.map ι) :=
  (List.map_mergeSort fun a _ b _ => (exact.precedes a.position b.position).symm).symm

theorem between_eq {lower upper : GradientStop K}
    (far : 1 / 2 ^ 23 ≤ upper.position - lower.position) (t : K) :
    Gradient.between (lower.map ι) (upper.map ι) (ι t) = (mix lower upper t).map ι := by
  have nonzero : upper.position - lower.position ≠ 0 :=
    (lt_of_lt_of_le (by positivity) far).ne'
  unfold Gradient.between mix
  simp only [GradientStop.map, Color.map, Color.zipWith, exact.sub, exact.epsilon, exact.greater,
    max_eq_left far, exact.div _ nonzero, exact.mul, exact.add]

/-- **Sampling goes along the stops.** -/
theorem sampleAfter_eq (t : K) {lower : GradientStop K} {rest : List (GradientStop K)}
    (spaced : Spaced (lower :: rest)) :
    sampleAfter (ι t) (lower.map ι) (rest.map (·.map ι)) = (follow t lower rest).map ι := by
  induction rest generalizing lower with
  | nil => rfl
  | cons upper rest ih =>
    obtain ⟨far, later⟩ := List.pairwise_cons.mp spaced
    have compare : Arithmetic.le (ι t) (upper.map ι).position = decide (t ≤ upper.position) :=
      exact.le t upper.position
    rw [List.map_cons, sampleAfter, follow, compare]
    by_cases here : t ≤ upper.position
    · rw [if_pos (decide_eq_true here), if_pos here,
        between_eq exact (far upper List.mem_cons_self)]
    · rw [if_neg (by simpa using here), if_neg here, ih later]

theorem sample_eq {g : Gradient K} (apart : g.Apart) (t : K) :
    (g.map ι).sample (ι t) = (along (clamp t) g.inOrder).map ι := by
  have spaced := spaced_inOrder apart
  unfold sample
  dsimp only
  rw [exact.unit, sortedStops_map exact]
  generalize g.inOrder = stops at spaced
  cases stops with
  | nil => rw [along, exact.zero]; rfl
  | cons first rest =>
    have compare : Arithmetic.le (ι (clamp t)) (first.map ι).position =
      decide (clamp t ≤ first.position) := exact.le _ _
    rw [List.map_cons, along]
    dsimp only
    rw [compare]
    by_cases here : clamp t ≤ first.position
    · rw [if_pos (decide_eq_true here), if_pos here]
      rfl
    · rw [if_neg (by simpa using here), if_neg here, sampleAfter_eq exact _ spaced]

end

/-! ### At the stops and between them -/

omit [LinearOrder K] [IsStrictOrderedRing K] in
theorem mix_lower (lower upper : GradientStop K) : mix lower upper lower.position = lower.color := by
  simp [mix, Color.zipWith]

theorem mix_upper {lower upper : GradientStop K} (less : lower.position < upper.position) :
    mix lower upper upper.position = upper.color := by
  simp [mix, Color.zipWith, div_self (sub_pos.mpr less).ne']

omit [LinearOrder K] [IsStrictOrderedRing K] in
theorem channel_mix {channel : Color K → K} (h : channel ∈ Color.channels)
    (lower upper : GradientStop K) (t : K) :
    channel (mix lower upper t) = channel lower.color + (channel upper.color - channel lower.color) *
      ((t - lower.position) / (upper.position - lower.position)) := by
  simp only [Color.channels, List.mem_cons, List.not_mem_nil, or_false] at h
  rcases h with rfl | rfl | rfl | rfl <;> rfl

variable {lower : GradientStop K} {rest : List (GradientStop K)} {t : K}

theorem follow_self (spaced : Spaced (lower :: rest)) :
    follow lower.position lower rest = lower.color := by
  cases rest with
  | nil => rfl
  | cons upper rest =>
    have less := (List.pairwise_cons.mp spaced.lt).1 upper List.mem_cons_self
    rw [follow, if_pos less.le, mix_lower]

/-- At each stop it has the colour of that stop. -/
theorem follow_stop {stop : GradientStop K} (spaced : Spaced (lower :: rest))
    (inside : stop ∈ lower :: rest) : follow stop.position lower rest = stop.color := by
  induction rest generalizing lower with
  | nil =>
    obtain rfl := List.mem_singleton.mp inside
    rfl
  | cons upper rest ih =>
    obtain ⟨less, later⟩ := List.pairwise_cons.mp spaced.lt
    rcases List.mem_cons.mp inside with rfl | inside
    · exact follow_self spaced
    · rw [follow]
      rcases List.mem_cons.mp inside with rfl | further
      · rw [if_pos le_rfl, mix_upper (less stop List.mem_cons_self)]
      · have before := (List.pairwise_cons.mp later).1 stop further
        rw [if_neg (not_le.mpr before)]
        exact ih (List.pairwise_cons.mp spaced).2 inside

/-- Between two stops, one right behind the other, it goes from the one to the other. -/
theorem follow_eq_mix {front back : List (GradientStop K)} {a b : GradientStop K}
    (spaced : Spaced (lower :: rest)) (whole : lower :: rest = front ++ a :: b :: back)
    (inside : t ∈ Set.Icc a.position b.position) : follow t lower rest = mix a b t := by
  induction front generalizing lower rest with
  | nil =>
    obtain ⟨rfl, rfl⟩ := List.cons.inj whole
    rw [follow, if_pos inside.2]
  | cons _ front ih =>
    obtain ⟨rfl, tail⟩ := List.cons.inj whole
    obtain ⟨upper, others, same⟩ : ∃ upper others, front ++ a :: b :: back = upper :: others :=
      List.exists_cons_of_ne_nil (by simp)
    obtain rfl : rest = upper :: others := tail.trans same
    obtain ⟨less, later⟩ := List.pairwise_cons.mp spaced.lt
    rw [follow]
    by_cases here : t ≤ upper.position
    · -- the place is the first of the two stops, which is the one reached here
      cases front with
      | nil =>
        obtain ⟨rfl, rfl⟩ := List.cons.inj same
        obtain rfl : t = a.position := le_antisymm here inside.1
        rw [if_pos le_rfl, mix_upper (less a List.mem_cons_self), mix_lower]
      | cons _ front =>
        obtain ⟨rfl, rfl⟩ := List.cons.inj same
        have before := (List.pairwise_cons.mp later).1 a (by simp)
        exact absurd (here.trans_lt before) (not_lt.mpr inside.1)
    · rw [if_neg here]
      exact ih (List.pairwise_cons.mp spaced).2 same.symm

/-- From the last stop on it has the colour of that stop. -/
theorem follow_eq_last {last : GradientStop K} (spaced : Spaced (lower :: rest))
    (inside : last ∈ lower :: rest) (highest : ∀ other ∈ lower :: rest,
      other.position ≤ last.position) (behind : last.position ≤ t) :
    follow t lower rest = last.color := by
  induction rest generalizing lower with
  | nil =>
    obtain rfl := List.mem_singleton.mp inside
    rfl
  | cons upper rest ih =>
    obtain ⟨less, later⟩ := List.pairwise_cons.mp spaced.lt
    have among : last ∈ upper :: rest := by
      rcases List.mem_cons.mp inside with rfl | among
      · exact absurd (highest upper (by simp)) (not_le.mpr (less upper List.mem_cons_self))
      · exact among
    rw [follow]
    by_cases here : t ≤ upper.position
    · -- nothing is behind this stop, and the place is its own
      have same : upper = last := by
        rcases List.mem_cons.mp among with same | further
        · exact same.symm
        · have before := (List.pairwise_cons.mp later).1 last further
          exact absurd (here.trans_lt before) (not_lt.mpr behind)
      subst same
      obtain rfl : t = upper.position := le_antisymm here behind
      rw [if_pos le_rfl, mix_upper (less upper List.mem_cons_self)]
    · rw [if_neg here]
      exact ih (List.pairwise_cons.mp spaced).2 among
        fun other inside => highest other (List.mem_cons_of_mem _ inside)

omit [Field K] [IsStrictOrderedRing K] in
/-- Neighbours stand one right behind the other. -/
theorem exists_neighbours {stops : List (GradientStop K)} {upper : GradientStop K}
    (sorted : stops.Pairwise fun a b => a.position < b.position)
    (inside : lower ∈ stops) (inside' : upper ∈ stops) (less : lower.position < upper.position)
    (apart : ∀ other ∈ stops, other.position ≤ lower.position ∨ upper.position ≤ other.position) :
    ∃ front back, stops = front ++ lower :: upper :: back := by
  obtain ⟨front, behind, rfl⟩ := List.append_of_mem inside
  obtain ⟨_, later, before⟩ := List.pairwise_append.mp sorted
  obtain ⟨next, later⟩ := List.pairwise_cons.mp later
  have among : upper ∈ behind := by
    rcases List.mem_append.mp inside' with ahead | there
    · exact absurd (before upper ahead lower List.mem_cons_self) (not_lt.mpr less.le)
    · rcases List.mem_cons.mp there with rfl | there
      · exact absurd less (lt_irrefl _)
      · exact there
  cases behind with
  | nil => cases among
  | cons other behind =>
    obtain rfl : upper = other := by
      rcases List.mem_cons.mp among with same | further
      · exact same
      · have closer := (List.pairwise_cons.mp later).1 upper further
        have greater := next other List.mem_cons_self
        rcases apart other (by simp) with le | le
        · exact absurd greater (not_lt.mpr le)
        · exact absurd closer (not_lt.mpr le)
    exact ⟨front, behind, rfl⟩

/-- **Stops in their order give the curve.** -/
theorem interpolates_along {stops : List (GradientStop K)} (spaced : Spaced stops) :
    Interpolates stops fun t => along (clamp t) stops := by
  cases stops with
  | nil =>
    exact ⟨fun _ none => (List.not_mem_nil none).elim, fun _ none => (List.not_mem_nil none).elim,
      fun _ none => (List.not_mem_nil none).elim⟩
  | cons first rest =>
    have lowest : ∀ other ∈ rest, first.position < other.position :=
      (List.pairwise_cons.mp spaced.lt).1
    -- both sides of the first case agree at the first stop
    have behind {t : K} (le : first.position ≤ t) : along t (first :: rest) = follow t first rest := by
      rw [along]
      split
      · next ge => rw [le_antisymm ge le, follow_self spaced]
      · rfl
    have le {stop : GradientStop K} (inside : stop ∈ first :: rest) :
        first.position ≤ stop.position := by
      rcases List.mem_cons.mp inside with rfl | inside
      · exact le_rfl
      · exact (lowest stop inside).le
    constructor
    · intro stop inside least t here
      obtain rfl : stop = first := by
        rcases List.mem_cons.mp inside with same | further
        · exact same
        · exact absurd (lowest stop further) (not_lt.mpr (least first List.mem_cons_self))
      exact if_pos here
    · intro stop inside highest t here
      rw [behind ((le inside).trans here), follow_eq_last spaced inside highest here]
    · intro lower inside upper inside' less apart t here
      obtain ⟨front, back, whole⟩ := exists_neighbours spaced.lt inside inside' less apart
      rw [behind ((le inside).trans here.1), follow_eq_mix spaced whole here]

theorem along_stop {stops : List (GradientStop K)} (spaced : Spaced stops)
    {stop : GradientStop K} (inside : stop ∈ stops) : along stop.position stops = stop.color := by
  cases stops with
  | nil => cases inside
  | cons first rest =>
    rw [along]
    rcases List.mem_cons.mp inside with rfl | further
    · rw [if_pos le_rfl]
    · have before := (List.pairwise_cons.mp spaced.lt).1 stop further
      rw [if_neg (not_le.mpr before), follow_stop spaced inside]

/-! ### No jumps and no overshooting -/

theorem mem_line {x y least greatest part : K} (hx : x ∈ Set.Icc least greatest)
    (hy : y ∈ Set.Icc least greatest) (hp : part ∈ Set.Icc 0 1) :
    x + (y - x) * part ∈ Set.Icc least greatest := by
  have rest : 0 ≤ 1 - part := sub_nonneg.mpr hp.2
  have mean : x + (y - x) * part = x * (1 - part) + y * part := by ring
  rw [mean]
  constructor
  · calc
      least = least * (1 - part) + least * part := by ring
      _ ≤ x * (1 - part) + y * part :=
        add_le_add (mul_le_mul_of_nonneg_right hx.1 rest) (mul_le_mul_of_nonneg_right hy.1 hp.1)
  · calc
      x * (1 - part) + y * part
      _ ≤ greatest * (1 - part) + greatest * part :=
        add_le_add (mul_le_mul_of_nonneg_right hx.2 rest) (mul_le_mul_of_nonneg_right hy.2 hp.1)
      _ = greatest := by ring

variable {channel : Color K → K}

/-- **Between stops no bound of their channels is left.** -/
theorem follow_mem (h : channel ∈ Color.channels) (spaced : Spaced (lower :: rest))
    {least greatest : K}
    (bounds : ∀ stop ∈ lower :: rest, channel stop.color ∈ Set.Icc least greatest)
    (behind : lower.position ≤ t) : channel (follow t lower rest) ∈ Set.Icc least greatest := by
  induction rest generalizing lower with
  | nil => exact bounds lower List.mem_cons_self
  | cons upper rest ih =>
    have less := (List.pairwise_cons.mp spaced.lt).1 upper List.mem_cons_self
    have later := fun stop inside => bounds stop (List.mem_cons_of_mem lower inside)
    rw [follow]
    by_cases here : t ≤ upper.position
    · have part : (t - lower.position) / (upper.position - lower.position) ∈ Set.Icc 0 1 := by
        have wide : 0 < upper.position - lower.position := sub_pos.mpr less
        refine ⟨div_nonneg (sub_nonneg.mpr behind) wide.le, ?_⟩
        exact (div_le_one wide).mpr (sub_le_sub_right here _)
      rw [if_pos here, channel_mix h]
      exact mem_line (bounds lower List.mem_cons_self) (later upper List.mem_cons_self) part
    · rw [if_neg here]
      exact ih (List.pairwise_cons.mp spaced).2 later (not_le.mp here).le

theorem along_mem (h : channel ∈ Color.channels) {stops : List (GradientStop K)}
    (spaced : Spaced stops) (nonempty : stops ≠ []) {least greatest : K}
    (bounds : ∀ stop ∈ stops, channel stop.color ∈ Set.Icc least greatest) (t : K) :
    channel (along t stops) ∈ Set.Icc least greatest := by
  cases stops with
  | nil => exact absurd rfl nonempty
  | cons first rest =>
    rw [along]
    by_cases here : t ≤ first.position
    · rw [if_pos here]
      exact bounds first List.mem_cons_self
    · rw [if_neg here]
      exact follow_mem h spaced bounds (not_le.mp here).le

variable [TopologicalSpace K] [OrderTopology K]

theorem continuous_mix (h : channel ∈ Color.channels) (lower upper : GradientStop K) :
    Continuous fun t => channel (mix lower upper t) := by
  simp only [channel_mix h]
  fun_prop

/-- **At no stop is there a jump.** -/
theorem continuous_follow (h : channel ∈ Color.channels) (spaced : Spaced (lower :: rest)) :
    Continuous fun t => channel (follow t lower rest) := by
  induction rest generalizing lower with
  | nil =>
    simp only [follow]
    exact continuous_const
  | cons upper rest ih =>
    have less := (List.pairwise_cons.mp spaced.lt).1 upper List.mem_cons_self
    have later := (List.pairwise_cons.mp spaced).2
    simp only [follow, apply_ite channel]
    refine (continuous_mix h lower upper).if_le (ih later) continuous_id continuous_const
      fun t here => ?_
    obtain rfl : t = upper.position := here
    rw [mix_upper less, follow_self later]

theorem continuous_along (h : channel ∈ Color.channels) {stops : List (GradientStop K)}
    (spaced : Spaced stops) : Continuous fun t => channel (along t stops) := by
  cases stops with
  | nil =>
    simp only [along]
    exact continuous_const
  | cons first rest =>
    simp only [along, apply_ite channel]
    refine Continuous.if_le continuous_const (continuous_follow h spaced) continuous_id
      continuous_const fun t here => ?_
    obtain rfl : t = first.position := here
    rw [follow_self spaced]

omit [IsStrictOrderedRing K] in
theorem continuous_clamp : Continuous (clamp : K → K) :=
  continuous_const.max (continuous_id.min continuous_const)

/-- **A gradient goes in lines from stop to stop.**  In exact arithmetic there is one curve that
interpolates its stops, and each sample is a point of it.  It has the colour of each stop at its
place, depends on the stops but not on their order, makes no jump, and leaves no bounds that all
stops keep. -/
theorem sample_interpolates {α : Type} [Arithmetic α] {ι : K → α} (exact : Exact ι)
    {g : Gradient K} (nonempty : g.stops ≠ []) (apart : g.Apart) :
    ∃ curve : K → Color K,
      (∀ t, (g.map ι).sample (ι t) = (curve t).map ι) ∧
      Interpolates g.stops curve ∧ (∀ other, Interpolates g.stops other → other = curve) ∧
      (∀ stop ∈ g.stops, stop.position ∈ Set.Icc 0 1 → curve stop.position = stop.color) ∧
      (∀ h : Gradient K, h.stops.Perm g.stops →
        ∀ t, (h.map ι).sample (ι t) = (g.map ι).sample (ι t)) ∧
      ∀ channel ∈ Color.channels, (Continuous fun t => channel (curve t)) ∧
        ∀ least greatest, (∀ stop ∈ g.stops, channel stop.color ∈ Set.Icc least greatest) →
          ∀ t, channel (curve t) ∈ Set.Icc least greatest := by
  have spaced := spaced_inOrder apart
  have curve := (interpolates_along spaced).of_mem_iff fun _ => mem_inOrder.symm
  refine ⟨fun t => along (clamp t) g.inOrder, sample_eq exact apart, curve,
    fun other h => curve.unique nonempty h, ?_, ?_, ?_⟩
  · intro stop inside bounds
    dsimp only
    rw [clamp_of_mem bounds, along_stop spaced (mem_inOrder.mpr inside)]
  · intro h same t
    have apart' : h.Apart := same.symm.pairwise apart fun {a b} far => by rwa [abs_sub_comm]
    have curve' := (interpolates_along (spaced_inOrder apart')).of_mem_iff
      fun stop => same.mem_iff.symm.trans mem_inOrder.symm
    have agree := congrFun (curve.unique nonempty curve') t
    rw [sample_eq exact apart, sample_eq exact apart']
    exact congrArg (Color.map ι) agree
  · intro channel h
    refine ⟨(continuous_along h spaced).comp continuous_clamp, fun least greatest bounds t => ?_⟩
    exact along_mem h spaced (inOrder_ne_nil nonempty)
      (fun stop inside => bounds stop (mem_inOrder.mp inside)) (clamp t)

/-- Three stops that are not listed by position. -/
def bands : Gradient ℚ :=
  ⟨[⟨3 / 4, ⟨1, 0, 0, 1⟩⟩, ⟨1 / 4, ⟨0, 0, 1, 1⟩⟩, ⟨1 / 2, ⟨0, 1, 0, 1 / 2⟩⟩]⟩

/-- Sampling stops out of order. -/
theorem sample_interpolates_bands : bands.stops ≠ [] ∧ bands.Apart ∧
    ∃ curve : ℚ → Color ℚ,
      (∀ t, (bands.map Fraction.of).sample (Fraction.of t) = (curve t).map Fraction.of) ∧
      Interpolates bands.stops curve ∧ curve (1 / 2) = ⟨0, 1, 0, 1 / 2⟩ := by
  have nonempty : bands.stops ≠ [] := List.cons_ne_nil _ _
  have apart : bands.Apart := by
    unfold Apart bands
    norm_num [abs_of_pos, abs_of_neg]
  obtain ⟨curve, samples, interpolates, _, stops, _⟩ :=
    sample_interpolates exact_of nonempty apart
  refine ⟨nonempty, apart, curve, samples, interpolates, ?_⟩
  exact stops ⟨1 / 2, ⟨0, 1, 0, 1 / 2⟩⟩ (by simp [bands]) (by norm_num)

end Gradient
end Collage
