import Collage.Document.Gradient
import Collage.Proofs.Number.Quotient

/-!
# Where the stops of a gradient are

In the short written form a stop may have no position.  It then stands where it would if all stops
were spread evenly, whatever positions its neighbours have (`spread`).

The stops keep their order exactly if the positions that are given go up and every stop without a
position comes to stand between its neighbours (`Between`), and this is decided where a stop with a
position stands next to one without (`Fits`, `spread_tfae`).  Then, and only then, sorting the stops
leaves the colours in the order in which they are written (`ofShorthand?_tfae`).
-/

namespace Collage
namespace Gradient

open Arithmetic (precedes)

/-! ### The order of positions -/

theorem precedes_iff {p q : Float32} : precedes p q = true ↔ singleOrderKey p ≤ singleOrderKey q :=
  decide_eq_true_iff

theorem precedes_trans {p q r : Float32} (pq : precedes p q = true) (qr : precedes q r = true) :
    precedes p r = true :=
  precedes_iff.mpr ((precedes_iff.mp pq).trans (precedes_iff.mp qr))

theorem precedes_total (p q : Float32) : precedes p q = true ∨ precedes q p = true := by
  rw [precedes_iff, precedes_iff]
  exact le_total _ _

theorem singleOrderKey_of_unsigned {x : Float32} (unsigned : x.toBits.toNat < 2 ^ 31) :
    singleOrderKey x = x.toBits.toNat := by
  have plain : x.signed = false := decide_eq_false (Nat.not_le.mpr unsigned)
  have body : (x.toBits.toNat : ℤ) % (twoPow 31 : ℕ) = x.toBits.toNat := by
    exact_mod_cast Nat.mod_eq_of_lt unsigned
  unfold singleOrderKey
  rw [body, plain]
  rfl

/-! ### Positions -/

/-- Where a stop stands among `count` ones that are spread evenly. -/
def evenly (count index : ℕ) : Float32 :=
  Float32.nearest index / Float32.nearest (count - 1 : ℕ)

/-- The positions of stops, some of which are given. -/
def spread (places : List (Option Float32)) : List Float32 :=
  places.mapIdx fun index place => place.getD (evenly places.length index)

/-- The first position that is given. -/
def firstGiven (default : Float32) : List (Option Float32) → Float32
  | [] => default
  | some p :: _ => p
  | none :: rest => firstGiven default rest

/-- The position that is given last in front of a stop, or zero. -/
def before (places : List (Option Float32)) (index : ℕ) : Float32 :=
  firstGiven 0 (places.take index).reverse

/-- The position that is given first behind a stop, or one. -/
def after (places : List (Option Float32)) (index : ℕ) : Float32 :=
  firstGiven 1 (places.drop (index + 1))

/-- Whether no position stands behind a later one. -/
def InOrder (positions : List Float32) : Prop :=
  positions.Pairwise fun p q => precedes p q = true

instance : DecidablePred InOrder :=
  fun positions => inferInstanceAs (Decidable (positions.Pairwise _))

theorem InOrder.precedes {positions : List Float32} (inOrder : InOrder positions) {i j : ℕ}
    {p q : Float32} (less : i < j) (atI : positions[i]? = some p) (atJ : positions[j]? = some q) :
    Arithmetic.precedes p q = true := by
  obtain ⟨iInside, rfl⟩ := List.getElem?_eq_some_iff.mp atI
  obtain ⟨jInside, rfl⟩ := List.getElem?_eq_some_iff.mp atJ
  exact List.pairwise_iff_getElem.mp inOrder i j iInside jInside less

/-- Whether the positions that are given go up. -/
def GoUp (places : List (Option Float32)) : Prop :=
  InOrder (places.filterMap id)

instance : DecidablePred GoUp :=
  fun _ => inferInstanceAs (Decidable (InOrder _))

theorem goUp_iff {places : List (Option Float32)} :
    GoUp places ↔ ∀ (i j : ℕ) (p q : Float32), i < j → places[i]? = some (some p) →
      places[j]? = some (some q) → precedes p q = true := by
  unfold GoUp InOrder
  rw [List.pairwise_filterMap, List.pairwise_iff_getElem]
  constructor
  · intro goUp i j p q less atI atJ
    obtain ⟨iInside, isI⟩ := List.getElem?_eq_some_iff.mp atI
    obtain ⟨jInside, isJ⟩ := List.getElem?_eq_some_iff.mp atJ
    exact goUp i j iInside jInside less p isI q isJ
  · intro each i j iInside jInside less p isI q isJ
    exact each i j p q less (List.getElem?_eq_some_iff.mpr ⟨iInside, isI⟩)
      (List.getElem?_eq_some_iff.mpr ⟨jInside, isJ⟩)

theorem GoUp.ordered {places : List (Option Float32)} (goUp : GoUp places) {i j : ℕ}
    {p q : Float32} (le : i ≤ j) (atI : places[i]? = some (some p))
    (atJ : places[j]? = some (some q)) : precedes p q = true := by
  rcases le.lt_or_eq with less | rfl
  · exact goUp_iff.mp goUp i j p q less atI atJ
  · obtain rfl : p = q := Option.some.inj (Option.some.inj (atI.symm.trans atJ))
    exact precedes_iff.mpr le_rfl

theorem firstGiven_spec (default : Float32) : ∀ places : List (Option Float32),
    (∃ i : ℕ, places[i]? = some (some (firstGiven default places)) ∧
      ∀ j < i, places[j]? = some none) ∨
      (firstGiven default places = default ∧ ∀ j < places.length, places[j]? = some none)
  | [] => .inr ⟨rfl, by simp⟩
  | some p :: rest => .inl ⟨0, rfl, by simp⟩
  | none :: rest => by
    have step {bound : ℕ} (each : ∀ j < bound, rest[j]? = some none) :
        ∀ j < bound + 1, (none :: rest)[j]? = some none := by
      intro j less
      cases j with
      | zero => rfl
      | succ j => exact each j (Nat.lt_of_succ_lt_succ less)
    rcases firstGiven_spec default rest with ⟨i, given, missing⟩ | ⟨same, missing⟩
    · exact .inl ⟨i + 1, given, step missing⟩
    · exact .inr ⟨same, step missing⟩

/-- What stands in front of a stop. -/
theorem before_spec (places : List (Option Float32)) {index : ℕ} (inside : index ≤ places.length) :
    (∃ i < index, places[i]? = some (some (before places index)) ∧
      ∀ j, i < j → j < index → places[j]? = some none) ∨
      (before places index = 0 ∧ ∀ j < index, places[j]? = some none) := by
  have reversed : ∀ j < index, (places.take index).reverse[j]? = places[index - 1 - j]? := by
    intro j less
    have size : (places.take index).length = index := List.length_take_of_le inside
    rw [List.getElem?_reverse (by rwa [size]), size, List.getElem?_take_of_lt (by omega)]
  rcases firstGiven_spec 0 (places.take index).reverse with ⟨i, given, missing⟩ | ⟨same, missing⟩
  · have less : i < index := by
      have := (List.getElem?_eq_some_iff.mp given).1
      rw [List.length_reverse, List.length_take_of_le inside] at this
      exact this
    refine .inl ⟨index - 1 - i, by omega, ?_, ?_⟩
    · rw [← reversed i less]
      exact given
    · intro j above below
      have back := missing (index - 1 - j) (by omega)
      rwa [reversed _ (by omega), show index - 1 - (index - 1 - j) = j by omega] at back
  · refine .inr ⟨same, fun j less => ?_⟩
    have back := missing (index - 1 - j) (by
      rw [List.length_reverse, List.length_take_of_le inside]
      omega)
    rwa [reversed _ (by omega), show index - 1 - (index - 1 - j) = j by omega] at back

/-- What stands behind a stop. -/
theorem after_spec (places : List (Option Float32)) (index : ℕ) :
    (∃ i, index < i ∧ places[i]? = some (some (after places index)) ∧
      ∀ j, index < j → j < i → places[j]? = some none) ∨
      (after places index = 1 ∧ ∀ j, index < j → j < places.length → places[j]? = some none) := by
  have dropped : ∀ j, (places.drop (index + 1))[j]? = places[index + 1 + j]? :=
    fun j => List.getElem?_drop
  rcases firstGiven_spec 1 (places.drop (index + 1)) with ⟨i, given, missing⟩ | ⟨same, missing⟩
  · refine .inl ⟨index + 1 + i, by omega, ?_, ?_⟩
    · rw [← dropped]
      exact given
    · intro j above below
      have back := missing (j - (index + 1)) (by omega)
      rwa [dropped, show index + 1 + (j - (index + 1)) = j by omega] at back
  · refine .inr ⟨same, fun j above below => ?_⟩
    have back := missing (j - (index + 1)) (by
      rw [List.length_drop]
      omega)
    rwa [dropped, show index + 1 + (j - (index + 1)) = j by omega] at back

/-! ### Even spacing -/

section

variable {count i j : ℕ} (several : 2 ≤ count) (few : count ≤ 2 ^ 64)

include several few

theorem toBits_evenly_mono (ij : i ≤ j) (jn : j < count) :
    (evenly count i).toBits.toNat ≤ (evenly count j).toBits.toNat :=
  Float32.toBits_part_mono (by omega) ij (by omega) (by omega)

theorem evenly_last : evenly count (count - 1) = 1 :=
  Float32.part_self (by omega) (by omega)

theorem singleOrderKey_evenly (inside : i < count) :
    singleOrderKey (evenly count i) = (evenly count i).toBits.toNat := by
  have le := toBits_evenly_mono several few (i := i) (j := count - 1) (by omega) (by omega)
  rw [evenly_last several few] at le
  exact singleOrderKey_of_unsigned (le.trans_lt (by decide))

theorem evenly_mono (ij : i ≤ j) (jn : j < count) :
    precedes (evenly count i) (evenly count j) = true := by
  rw [precedes_iff, singleOrderKey_evenly several few (by omega),
    singleOrderKey_evenly several few jn]
  exact_mod_cast toBits_evenly_mono several few ij jn

theorem precedes_zero_evenly (inside : i < count) : precedes 0 (evenly count i) = true := by
  have zero : singleOrderKey 0 = 0 := by decide
  rw [precedes_iff, singleOrderKey_evenly several few inside, zero]
  exact Int.natCast_nonneg _

theorem precedes_evenly_one (inside : i < count) : precedes (evenly count i) 1 = true := by
  have last := evenly_mono several few (i := i) (j := count - 1) (by omega) (by omega)
  rwa [evenly_last several few] at last

end

/-! ### Order kept -/

theorem getElem?_spread (places : List (Option Float32)) (index : ℕ) :
    (spread places)[index]? =
      places[index]?.map fun place => place.getD (evenly places.length index) := by
  rw [spread, List.getElem?_mapIdx]

/-- Whether every stop without a position stands between its neighbours. -/
def Between (places : List (Option Float32)) : Prop :=
  ∀ {i : ℕ}, places[i]? = some none →
    precedes (before places i) (evenly places.length i) = true ∧
      precedes (evenly places.length i) (after places i) = true

/-- Whether every given position lies between the places of the stops next to it that have none. -/
def Fits (places : List (Option Float32)) : Prop :=
  ∀ {i : ℕ} {p : Float32}, places[i]? = some (some p) →
    (∀ j, j + 1 = i → places[j]? = some none → precedes (evenly places.length j) p = true) ∧
      (places[i + 1]? = some none → precedes p (evenly places.length (i + 1)) = true)

theorem goUp_of_inOrder {places : List (Option Float32)} (inOrder : InOrder (spread places)) :
    GoUp places := by
  refine goUp_iff.mpr fun i j p q less atI atJ => inOrder.precedes less ?_ ?_
  · rw [getElem?_spread, atI]
    rfl
  · rw [getElem?_spread, atJ]
    rfl

theorem fits_of_inOrder {places : List (Option Float32)} (inOrder : InOrder (spread places)) :
    Fits places := by
  have shown : ∀ {k : ℕ} {place : Option Float32}, places[k]? = some place →
      (spread places)[k]? = some (place.getD (evenly places.length k)) := by
    intro k place found
    rw [getElem?_spread, found, Option.map_some]
  intro i p given
  constructor
  · rintro j rfl missing
    exact inOrder.precedes (Nat.lt_succ_self j) (shown missing) (shown given)
  · intro missing
    exact inOrder.precedes (Nat.lt_succ_self i) (shown given) (shown missing)

section

variable {places : List (Option Float32)} (several : 2 ≤ places.length)
  (few : places.length ≤ 2 ^ 64)

include several few

theorem between_of_fits (fits : Fits places) : Between places := by
  intro i missing
  have inside := (List.getElem?_eq_some_iff.mp missing).1
  constructor
  · rcases before_spec places inside.le with ⟨k, less, given, others⟩ | ⟨same, _⟩
    · have next : places[k + 1]? = some none := by
        rcases Nat.eq_or_lt_of_le (Nat.succ_le_of_lt less) with rfl | more
        · exact missing
        · exact others (k + 1) (Nat.lt_succ_self k) more
      exact precedes_trans ((fits given).2 next) (evenly_mono several few less inside)
    · rw [same]
      exact precedes_zero_evenly several few inside
  · rcases after_spec places i with ⟨k, less, given, others⟩ | ⟨same, _⟩
    · have kInside := (List.getElem?_eq_some_iff.mp given).1
      have last : places[k - 1]? = some none := by
        rcases Nat.eq_or_lt_of_le (Nat.le_sub_one_of_lt less) with rfl | more
        · exact missing
        · exact others (k - 1) more (by omega)
      exact precedes_trans (evenly_mono several few (by omega) (by omega))
        ((fits given).1 (k - 1) (by omega) last)
    · rw [same]
      exact precedes_evenly_one several few inside

theorem inOrder_of_between (goUp : GoUp places) (between : Between places) :
    InOrder (spread places) := by
  refine List.pairwise_iff_getElem.mpr fun i j iInside jInside less => ?_
  have shown : ∀ k (inside : k < (spread places).length), ∃ place, places[k]? = some place ∧
      (spread places)[k] = place.getD (evenly places.length k) := by
    intro k inside
    have at_k := getElem?_spread places k
    rw [List.getElem?_eq_getElem inside] at at_k
    obtain ⟨place, found, same⟩ := Option.map_eq_some_iff.mp at_k.symm
    exact ⟨place, found, same.symm⟩
  obtain ⟨p, atI, showI⟩ := shown i iInside
  obtain ⟨q, atJ, showJ⟩ := shown j jInside
  have iInside := (List.getElem?_eq_some_iff.mp atI).1
  have jInside := (List.getElem?_eq_some_iff.mp atJ).1
  rw [showI, showJ]
  cases p with
  | some p =>
    cases q with
    | some q => exact goUp.ordered less.le atI atJ
    | none =>
      refine precedes_trans ?_ (between atJ).1
      rcases before_spec places jInside.le with ⟨k, _, given, missing⟩ | ⟨_, missing⟩
      · have order : i ≤ k := by
          by_contra above
          rw [missing i (by omega) less] at atI
          cases atI
        exact goUp.ordered order atI given
      · rw [missing i less] at atI
        cases atI
  | none =>
    cases q with
    | some q =>
      refine precedes_trans (between atI).2 ?_
      rcases after_spec places i with ⟨k, _, given, missing⟩ | ⟨_, missing⟩
      · have order : k ≤ j := by
          by_contra below
          rw [missing j less (by omega)] at atJ
          cases atJ
        exact goUp.ordered order given atJ
      · rw [missing j less jInside] at atJ
        cases atJ
    | none => exact evenly_mono several few less.le jInside

/-- **When the stops keep their order.** -/
theorem spread_tfae :
    [GoUp places ∧ Between places, InOrder (spread places), GoUp places ∧ Fits places].TFAE := by
  tfae_have 1 → 2 := fun ⟨goUp, between⟩ => inOrder_of_between several few goUp between
  tfae_have 2 → 3 := fun inOrder => ⟨goUp_of_inOrder inOrder, fits_of_inOrder inOrder⟩
  tfae_have 3 → 1 := fun ⟨goUp, fits⟩ => ⟨goUp, between_of_fits several few fits⟩
  tfae_finish

end

/-! ### Gradients -/

/-- The colours that a text lists, with the positions that are given. -/
def entries? (text : String) : Option (List (Color Float32 × Option Float32)) :=
  (splitAtAll (· = ',') text.toList).mapM readEntry?

theorem ofShorthand?_eq {text : String} {entries : List (Color Float32 × Option Float32)}
    (listed : entries? text = some entries) :
    ofShorthand? text = if entries.length < 2 then none else
      some ⟨entries.mapIdx fun index (color, place) =>
        ⟨place.getD (evenly entries.length index), color⟩⟩ := by
  unfold entries? at listed
  unfold ofShorthand?
  rw [listed]
  rfl

theorem stops_ofShorthand? {text : String} {entries : List (Color Float32 × Option Float32)}
    {g : Gradient Float32} (listed : entries? text = some entries)
    (accepted : ofShorthand? text = some g) :
    2 ≤ entries.length ∧ g.stops.map (·.position) = spread (entries.map (·.2)) ∧
      g.stops.map (·.color) = entries.map (·.1) := by
  rw [ofShorthand?_eq listed] at accepted
  split at accepted
  · cases accepted
  · rename_i several
    cases accepted
    refine ⟨by omega, List.ext_getElem? fun index => ?_, List.ext_getElem? fun index => ?_⟩
    · rw [getElem?_spread, List.getElem?_map, List.getElem?_map, List.getElem?_mapIdx,
        List.length_map, Option.map_map, Option.map_map]
      rfl
    · rw [List.getElem?_map, List.getElem?_map, List.getElem?_mapIdx, Option.map_map]
      rfl

/-- Sorting leaves the stops as they are if they are in order. -/
theorem sortedStops_eq_iff (g : Gradient Float32) :
    g.sortedStops = g.stops ↔ InOrder (g.stops.map (·.position)) := by
  unfold sortedStops InOrder
  rw [List.pairwise_map]
  constructor
  · intro same
    rw [← same]
    have total (a b : GradientStop Float32) :
        (precedes a.position b.position || precedes b.position a.position) = true := by
      rw [Bool.or_eq_true]
      exact precedes_total a.position b.position
    have trans (a b c : GradientStop Float32) : precedes a.position b.position = true →
        precedes b.position c.position = true → precedes a.position c.position = true :=
      precedes_trans
    exact List.pairwise_mergeSort trans total g.stops
  · exact List.mergeSort_of_pairwise

/-- **When a gradient has its colours in the order that they are listed in.**  The positions that
are given have to go up, and every stop without a position has to stand between its neighbours,
which is decided where such a stop stands next to one with a position. -/
theorem ofShorthand?_tfae {text : String} {entries : List (Color Float32 × Option Float32)}
    {g : Gradient Float32} (listed : entries? text = some entries)
    (accepted : ofShorthand? text = some g) (few : entries.length ≤ 2 ^ 64) :
    [GoUp (entries.map (·.2)) ∧ Between (entries.map (·.2)), InOrder (g.stops.map (·.position)),
      g.sortedStops = g.stops, GoUp (entries.map (·.2)) ∧ Fits (entries.map (·.2))].TFAE := by
  obtain ⟨several, positions, _⟩ := stops_ofShorthand? listed accepted
  rw [← List.length_map (f := fun entry => entry.2)] at several few
  have same := spread_tfae several few
  tfae_have 1 ↔ 2 := by
    rw [positions]
    exact same.out 0 1
  tfae_have 2 ↔ 3 := (sortedStops_eq_iff g).symm
  tfae_have 2 ↔ 4 := by
    rw [positions]
    exact same.out 1 2
  tfae_finish

/-- Between the ends a stop stands in the middle. -/
theorem ofShorthand?_tfae_middle : ∃ entries g,
    entries? "#000000 0, #ffffff, #000000 1" = some entries ∧
      ofShorthand? "#000000 0, #ffffff, #000000 1" = some g ∧ entries.length ≤ 2 ^ 64 ∧
        GoUp (entries.map (·.2)) ∧ Fits (entries.map (·.2)) ∧ g.sortedStops = g.stops := by
  have places : (entries? "#000000 0, #ffffff, #000000 1").map (List.map (·.2)) =
    some [some 0, none, some 1] := rfl
  obtain ⟨entries, listed, same⟩ := Option.map_eq_some_iff.mp places
  have count : entries.length = 3 := by rw [← List.length_map (·.2), same]; rfl
  obtain ⟨g, accepted⟩ : ∃ g, ofShorthand? "#000000 0, #ffffff, #000000 1" = some g :=
    ⟨_, (ofShorthand?_eq listed).trans (if_neg (by omega))⟩
  have few : entries.length ≤ 2 ^ 64 := by omega
  have inOrder : InOrder (g.stops.map (·.position)) := by
    rw [(stops_ofShorthand? listed accepted).2.1, same]
    decide
  have all := ofShorthand?_tfae listed accepted few
  have fits := (all.out 1 3).mp inOrder
  exact ⟨entries, g, listed, accepted, few, fits.1, fits.2, (all.out 1 2).mp inOrder⟩

/-- A stop without a position in front of its neighbour. -/
theorem ofShorthand?_astray : ∃ entries g,
    entries? "#ff0000 0.75, #00ff00, #0000ff 1" = some entries ∧
      ofShorthand? "#ff0000 0.75, #00ff00, #0000ff 1" = some g ∧
        GoUp (entries.map (·.2)) ∧ ¬ Between (entries.map (·.2)) ∧ g.sortedStops ≠ g.stops := by
  have places : (entries? "#ff0000 0.75, #00ff00, #0000ff 1").map (List.map (·.2)) =
    some [some 0.75, none, some 1] := by decide +kernel
  obtain ⟨entries, listed, same⟩ := Option.map_eq_some_iff.mp places
  have count : entries.length = 3 := by rw [← List.length_map (·.2), same]; rfl
  obtain ⟨g, accepted⟩ : ∃ g, ofShorthand? "#ff0000 0.75, #00ff00, #0000ff 1" = some g :=
    ⟨_, (ofShorthand?_eq listed).trans (if_neg (by omega))⟩
  refine ⟨entries, g, listed, accepted, ?_, ?_, ?_⟩
  · rw [same]
    decide
  · rw [same]
    intro between
    have lower := (between (i := 1) rfl).1
    revert lower
    decide
  · intro kept
    rw [sortedStops_eq_iff, (stops_ofShorthand? listed accepted).2.1, same] at kept
    revert kept
    decide

end Gradient
end Collage
