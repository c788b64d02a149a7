import Collage.Proofs.Document.Blending

/-!
# Coats of colour

A coat is a colour with an opacity; `layered` lays coats over a backdrop in mode normal, one after
the other.  In exact arithmetic a colour lies over another as `onto` says.

A colour counts as much as it covers, and so do the channels of a stack of two (`Stacks`).  This
determines the colour of a stack, as what does not cover is transparent black (`Stacks.unique`), and
it does not matter which parts of a stack are put together first (`Stacks.onto`).  Therefore coats
can be laid over nothing, and what comes of it over the backdrop (`onto_lay`).
-/

namespace Collage
namespace Compositing

open Arithmetic (Exact)

/-- A colour with an opacity. -/
structure Coat (α : Type) where
  color : Color α
  opacity : α

/-- The same coat in other numbers. -/
def Coat.map {α β : Type} (f : α → β) (coat : Coat α) : Coat β :=
  ⟨coat.color.map f, f coat.opacity⟩

/-- Coats laid over a backdrop at a point, the first one first. -/
def layered {α : Type} [Arithmetic α] (x y : α) (coats : List (Coat α)) (backdrop : Color α) :
    Color α :=
  coats.foldl (fun below coat => blend .normal coat.opacity x y coat.color below) backdrop

/-! ### Stacks of two -/

variable {K α : Type} [Field K]

/-- The whole counts as its two parts do; the upper one lets a part of the lower one through. -/
structure Stacks (upper lower whole : Color K) : Prop where
  red : whole.red * whole.alpha =
    upper.red * upper.alpha + lower.red * lower.alpha * (1 - upper.alpha)
  green : whole.green * whole.alpha =
    upper.green * upper.alpha + lower.green * lower.alpha * (1 - upper.alpha)
  blue : whole.blue * whole.alpha =
    upper.blue * upper.alpha + lower.blue * lower.alpha * (1 - upper.alpha)
  alpha : whole.alpha = cover upper.alpha lower.alpha

/-- What does not cover is transparent black. -/
def Clear (c : Color K) : Prop :=
  c.alpha = 0 → c = Color.constant 0

/-- **A stack has one colour.** -/
theorem Stacks.unique {upper lower whole whole' : Color K} (h : Stacks upper lower whole)
    (h' : Stacks upper lower whole') (clear : Clear whole) (clear' : Clear whole') :
    whole = whole' := by
  have alpha : whole.alpha = whole'.alpha := h.alpha.trans h'.alpha.symm
  by_cases nothing : whole.alpha = 0
  · rw [clear nothing, clear' (alpha ▸ nothing)]
  · have same {x x' part : K} (e : x * whole.alpha = part) (e' : x' * whole'.alpha = part) :
        x = x' :=
      mul_right_cancel₀ nothing (by rw [e, alpha, e'])
    obtain ⟨red, green, blue, _⟩ := whole
    obtain ⟨red', green', blue', _⟩ := whole'
    rw [Color.mk.injEq]
    exact ⟨same h.red h'.red, same h.green h'.green, same h.blue h'.blue, alpha⟩

theorem stacks_zero (lower : Color K) : Stacks (Color.constant 0) lower lower := by
  constructor <;> simp [Color.constant, cover]

/-! ### A coat over a colour -/

variable [LinearOrder K]

/-- Colour and opacity lie between zero and one. -/
structure Coat.Valid (coat : Coat K) : Prop where
  color : coat.color.Valid
  opacity : coat.opacity ∈ Set.Icc 0 1

/-- How far a coat covers. -/
def Coat.alpha (coat : Coat K) : K :=
  coat.color.alpha * coat.opacity

/-- A coat over a colour. -/
def onto (coat : Coat K) (lower : Color K) : Color K :=
  if cover coat.alpha lower.alpha = 0 then Color.constant 0
  else ⟨composite coat.alpha lower.alpha coat.color.red lower.red,
    composite coat.alpha lower.alpha coat.color.green lower.green,
    composite coat.alpha lower.alpha coat.color.blue lower.blue, cover coat.alpha lower.alpha⟩

/-- Coats over a backdrop. -/
def lay (coats : List (Coat K)) (backdrop : Color K) : Color K :=
  coats.foldl (fun below coat => onto coat below) backdrop

theorem clear_onto (coat : Coat K) (lower : Color K) : Clear (onto coat lower) := by
  unfold onto Clear
  split
  · exact fun _ => rfl
  · next covers => exact fun nothing => absurd nothing covers

theorem clear_lay {coats : List (Coat K)} {backdrop : Color K} (clear : Clear backdrop) :
    Clear (lay coats backdrop) := by
  induction coats generalizing backdrop with
  | nil => exact clear
  | cons coat rest ih => exact ih (clear_onto coat backdrop)

variable [IsStrictOrderedRing K]

theorem Coat.Valid.alpha_mem {coat : Coat K} (valid : coat.Valid) : coat.alpha ∈ Set.Icc 0 1 :=
  mul_mem_unit valid.color.alpha valid.opacity

/-- Only nothing over nothing does not cover. -/
theorem eq_zero_of_cover {upper lower : K} (u : upper ∈ Set.Icc 0 1) (l : lower ∈ Set.Icc 0 1)
    (nothing : cover upper lower = 0) : upper = 0 ∧ lower = 0 := by
  have through : 0 ≤ 1 - upper := sub_nonneg.mpr u.2
  obtain ⟨upperZero, rest⟩ :=
    (add_eq_zero_iff_of_nonneg u.1 (mul_nonneg l.1 through)).mp nothing
  rw [upperZero, sub_zero, mul_one] at rest
  exact ⟨upperZero, rest⟩

theorem onto_valid {coat : Coat K} {lower : Color K} (c : coat.Valid) (l : lower.Valid) :
    (onto coat lower).Valid := by
  unfold onto
  split
  · exact Color.valid_constant_zero
  · exact ⟨composite_mem c.alpha_mem l.alpha c.color.red l.red,
      composite_mem c.alpha_mem l.alpha c.color.green l.green,
      composite_mem c.alpha_mem l.alpha c.color.blue l.blue, cover_mem c.alpha_mem l.alpha⟩

/-- A coat over a colour is a stack of the two. -/
theorem stacks_onto {coat : Coat K} {lower : Color K} (c : coat.Valid) (l : lower.Valid) :
    Stacks { coat.color with alpha := coat.alpha } lower (onto coat lower) := by
  unfold onto
  split
  · next nothing =>
    obtain ⟨coatZero, lowerZero⟩ := eq_zero_of_cover c.alpha_mem l.alpha nothing
    constructor <;> simp [coatZero, lowerZero, Color.constant, cover]
  · next covers =>
    constructor
    · exact div_mul_cancel₀ _ covers
    · exact div_mul_cancel₀ _ covers
    · exact div_mul_cancel₀ _ covers
    · rfl

/-- **A coat on top of a stack may be laid over its upper part first.** -/
theorem Stacks.onto {coat : Coat K} {upper lower whole : Color K} (h : Stacks upper lower whole)
    (c : coat.Valid) (u : upper.Valid) (w : whole.Valid) :
    Stacks (Compositing.onto coat upper) lower (Compositing.onto coat whole) := by
  have first := stacks_onto c u
  have second := stacks_onto c w
  have covers : (Compositing.onto coat upper).alpha = coat.alpha + upper.alpha * (1 - coat.alpha) :=
    first.alpha
  constructor
  · rw [second.red, h.red, first.red, covers]
    ring
  · rw [second.green, h.green, first.green, covers]
    ring
  · rw [second.blue, h.blue, first.blue, covers]
    ring
  · rw [second.alpha, h.alpha, cover, cover, cover, covers]
    ring

/-! ### Many coats -/

theorem lay_valid {coats : List (Coat K)} (valid : ∀ coat ∈ coats, coat.Valid) {backdrop : Color K}
    (b : backdrop.Valid) : (lay coats backdrop).Valid := by
  induction coats generalizing backdrop with
  | nil => exact b
  | cons coat rest ih =>
    obtain ⟨first, others⟩ := List.forall_mem_cons.mp valid
    exact ih others (onto_valid first b)

theorem Stacks.lay {coats : List (Coat K)} (valid : ∀ coat ∈ coats, coat.Valid)
    {upper lower whole : Color K} (h : Stacks upper lower whole) (u : upper.Valid)
    (w : whole.Valid) :
    Stacks (Compositing.lay coats upper) lower (Compositing.lay coats whole) := by
  induction coats generalizing upper whole with
  | nil => exact h
  | cons coat rest ih =>
    obtain ⟨first, others⟩ := List.forall_mem_cons.mp valid
    exact ih others (h.onto first u w) (onto_valid first u) (onto_valid first w)

/-- **Coats may be laid over nothing, and what comes of it over the backdrop.** -/
theorem onto_lay {coats : List (Coat K)} (nonempty : coats ≠ [])
    (valid : ∀ coat ∈ coats, coat.Valid) {backdrop : Color K} (b : backdrop.Valid) :
    onto ⟨lay coats (Color.constant 0), 1⟩ backdrop = lay coats backdrop := by
  have zero : (Color.constant (0 : K)).Valid := Color.valid_constant_zero
  have result : (⟨lay coats (Color.constant 0), 1⟩ : Coat K).Valid :=
    ⟨lay_valid valid zero, zero_le_one, le_rfl⟩
  have whole : Stacks (lay coats (Color.constant 0)) backdrop (lay coats backdrop) :=
    (stacks_zero backdrop).lay valid zero b
  have upper := stacks_onto result b
  rw [Coat.alpha, mul_one] at upper
  have clear : Clear (lay coats backdrop) := by
    obtain ⟨first, rest, rfl⟩ := List.exists_cons_of_ne_nil nonempty
    change Clear (lay rest (onto first backdrop))
    exact clear_lay (clear_onto first backdrop)
  exact upper.unique whole (clear_onto _ _) clear

/-! ### Exact arithmetic -/

variable [Arithmetic α] {ι : K → α}

theorem blend_normal (exact : Exact ι) {coat : Coat K} (c : coat.Valid) (x y : α) {lower : Color K}
    (l : lower.Valid) :
    blend .normal (ι coat.opacity) x y (coat.color.map ι) (lower.map ι) =
      (onto coat lower).map ι := by
  have mixing : Mixing .normal := by decide
  obtain ⟨blended, -, same, result⟩ := blend_mixing exact mixing c.opacity x y c.color l
  have straight (first part : K) : between first first part = first := by
    rw [between, sub_self, zero_mul, add_zero]
  rw [result, same rfl]
  unfold onto mixed
  simp only [straight]
  rfl

theorem layered_eq (exact : Exact ι) (x y : α) {coats : List (Coat K)}
    (valid : ∀ coat ∈ coats, coat.Valid) {backdrop : Color K} (b : backdrop.Valid) :
    layered x y (coats.map (Coat.map ι)) (backdrop.map ι) = (lay coats backdrop).map ι := by
  induction coats generalizing backdrop with
  | nil => rfl
  | cons coat rest ih =>
    obtain ⟨first, others⟩ := List.forall_mem_cons.mp valid
    have next : layered x y ((coat :: rest).map (Coat.map ι)) (backdrop.map ι) =
        layered x y (rest.map (Coat.map ι)) ((onto coat backdrop).map ι) := by
      rw [← blend_normal exact first x y b]
      rfl
    rw [next, ih others (onto_valid first b)]
    rfl

theorem blend_layered (exact : Exact ι) (x y : α) {coats : List (Coat K)} (nonempty : coats ≠ [])
    (valid : ∀ coat ∈ coats, coat.Valid) {backdrop : Color K} (b : backdrop.Valid) :
    blend .normal Arithmetic.one x y
        (layered x y (coats.map (Coat.map ι)) (Color.constant Arithmetic.zero)) (backdrop.map ι) =
      layered x y (coats.map (Coat.map ι)) (backdrop.map ι) := by
  have zero : (Color.constant (0 : K)).Valid := Color.valid_constant_zero
  have transparent : Color.constant Arithmetic.zero = (Color.constant (0 : K)).map ι := by
    rw [exact.zero]
    rfl
  have result : (⟨lay coats (Color.constant 0), 1⟩ : Coat K).Valid :=
    ⟨lay_valid valid zero, zero_le_one, le_rfl⟩
  rw [transparent, layered_eq exact x y valid zero, layered_eq exact x y valid b,
    ← onto_lay nonempty valid b, ← blend_normal exact result x y b, exact.one]

end Compositing
end Collage
