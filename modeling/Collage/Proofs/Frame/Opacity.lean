import Collage.Frame.Composite
import Collage.Proofs.Frame.LayerTree
import Mathlib.Algebra.BigOperators.Ring.List
import Mathlib.Algebra.Order.BigOperators.Group.List
import Mathlib.Data.List.Induction
import Mathlib.Data.Rat.Defs
import Mathlib.Tactic.Linarith

/-!
# Opacities

A layer that is composited is drawn through the groups around it that pass through, up to the
next group that is drawn on its own (`LayerTree.composited`).  Its opacity is a formula of its
own number and of those of these groups (`effectiveOpacity`), the same one in single precision
and in exact arithmetic.

In exact arithmetic the formula is the product of all these numbers, each kept between zero and
one, unless the layer's own number is above one and the groups are neither invisible nor opaque
together (`effectiveOpacity_eq_iff`): then the layer is too opaque, as its own number is only
kept between bounds after it was multiplied.
-/

namespace Collage

/-! ### The formula -/

section

variable {α : Type} [LT α] [DecidableLT α] [Zero α] [One α]

/-- A number kept between zero and one. -/
def clamped (x : α) : α :=
  if x < 0 then 0 else if 1 < x then 1 else x

variable [Mul α]

/-- By what groups around a layer multiply its opacity, the outermost first. -/
def groupScale (groups : List α) : α :=
  groups.foldl (fun scale group => scale * clamped group) 1

/-- The opacity that a layer inside groups is drawn with. -/
def effectiveOpacity (groups : List α) (own : α) : α :=
  clamped (own * groupScale groups)

theorem groupScale_concat (groups : List α) (group : α) :
    groupScale (groups ++ [group]) = groupScale groups * clamped group := by
  rw [groupScale, List.foldl_append]
  rfl

end

/-! ### Exact arithmetic -/

section

variable {x own scale : ℚ} {groups : List ℚ}

theorem clamped_of_nonpos (low : x ≤ 0) : clamped x = 0 := by
  unfold clamped
  split
  · rfl
  · split <;> linarith

theorem clamped_of_one_le (high : 1 ≤ x) : clamped x = 1 := by
  unfold clamped
  split
  · linarith
  · split
    · rfl
    · linarith

theorem clamped_of_mem (low : 0 ≤ x) (high : x ≤ 1) : clamped x = x := by
  unfold clamped
  rw [if_neg (not_lt.mpr low), if_neg (not_lt.mpr high)]

theorem clamped_nonneg (x : ℚ) : 0 ≤ clamped x := by
  unfold clamped
  split
  · exact le_refl 0
  · split <;> linarith

theorem clamped_le_one (x : ℚ) : clamped x ≤ 1 := by
  unfold clamped
  split
  · exact zero_le_one
  · split <;> linarith

theorem clamped_eq_zero_iff : clamped x = 0 ↔ x ≤ 0 := by
  refine ⟨fun same => ?_, clamped_of_nonpos⟩
  by_contra above
  rcases le_total x 1 with small | large
  · rw [clamped_of_mem (by linarith) small] at same
    linarith
  · rw [clamped_of_one_le large] at same
    linarith

theorem clamped_eq_one_iff : clamped x = 1 ↔ 1 ≤ x := by
  refine ⟨fun same => ?_, clamped_of_one_le⟩
  by_contra below
  rcases le_total x 0 with low | high
  · rw [clamped_of_nonpos low] at same
    linarith
  · rw [clamped_of_mem high (by linarith)] at same
    linarith

/-- Keeping a number between bounds before it is scaled down or afterwards makes a difference
where it is too large and the scale is neither zero nor one. -/
theorem clamped_mul_iff (low : 0 ≤ scale) (high : scale ≤ 1) :
    clamped (own * scale) = clamped own * scale ↔ own ≤ 1 ∨ scale = 0 ∨ scale = 1 := by
  rcases le_total own 1 with small | large
  · refine iff_of_true ?_ (.inl small)
    rcases le_total own 0 with negative | positive
    · rw [clamped_of_nonpos negative, zero_mul,
        clamped_of_nonpos (mul_nonpos_of_nonpos_of_nonneg negative low)]
    · rw [clamped_of_mem positive small,
        clamped_of_mem (mul_nonneg positive low) (mul_le_one₀ small low high)]
  · rw [clamped_of_one_le large, one_mul]
    constructor
    · intro same
      by_contra neither
      obtain ⟨above, rest⟩ := not_or.mp neither
      obtain ⟨shown, partly⟩ := not_or.mp rest
      have positive : 0 < scale := lt_of_le_of_ne low (Ne.symm shown)
      have short : scale < 1 := lt_of_le_of_ne high partly
      have more : scale < own * scale := by nlinarith
      rcases le_total (own * scale) 1 with inside | outside
      · rw [clamped_of_mem (by linarith) inside] at same
        linarith
      · rw [clamped_of_one_le outside] at same
        linarith
    · rintro (small | rfl | rfl)
      · obtain rfl : own = 1 := le_antisymm small large
        rw [one_mul, clamped_of_mem low high]
      · rw [mul_zero, clamped_of_nonpos le_rfl]
      · rw [mul_one, clamped_of_one_le large]

theorem groupScale_eq (groups : List ℚ) : groupScale groups = (groups.map clamped).prod := by
  rw [List.prod_eq_foldl, List.foldl_map]
  rfl

theorem groupScale_bounds (groups : List ℚ) : 0 ≤ groupScale groups ∧ groupScale groups ≤ 1 := by
  induction groups using List.reverseRecOn with
  | nil => exact ⟨zero_le_one, le_refl 1⟩
  | append_singleton groups group ih =>
    rw [groupScale_concat]
    exact ⟨mul_nonneg ih.1 (clamped_nonneg group),
      mul_le_one₀ ih.2 (clamped_nonneg group) (clamped_le_one group)⟩

theorem groupScale_eq_zero_iff : groupScale groups = 0 ↔ ∃ group ∈ groups, group ≤ 0 := by
  rw [groupScale_eq, List.prod_eq_zero_iff, List.mem_map]
  exact exists_congr fun group => and_congr_right fun _ => clamped_eq_zero_iff

/-- Groups change nothing when each of them is opaque. -/
theorem groupScale_eq_one_iff : groupScale groups = 1 ↔ ∀ group ∈ groups, 1 ≤ group := by
  induction groups using List.reverseRecOn with
  | nil => exact iff_of_true rfl (List.forall_mem_nil _)
  | append_singleton groups group ih =>
    obtain ⟨low, high⟩ := groupScale_bounds groups
    rw [groupScale_concat, List.forall_mem_append, List.forall_mem_singleton, ← ih,
      ← clamped_eq_one_iff]
    have first := clamped_nonneg group
    have last := clamped_le_one group
    constructor
    · intro one
      constructor <;> nlinarith
    · rintro ⟨all, also⟩
      rw [all, also, one_mul]

/-- **The formula against the product**: they differ just for layers whose own number is above
one, in groups that together neither hide everything nor change nothing. -/
theorem effectiveOpacity_eq_iff (groups : List ℚ) (own : ℚ) :
    effectiveOpacity groups own = clamped own * (groups.map clamped).prod ↔
      own ≤ 1 ∨ (∃ group ∈ groups, group ≤ 0) ∨ ∀ group ∈ groups, 1 ≤ group := by
  obtain ⟨low, high⟩ := groupScale_bounds groups
  rw [← groupScale_eq_zero_iff, ← groupScale_eq_one_iff, ← groupScale_eq, effectiveOpacity,
    clamped_mul_iff low high]

/-- **One group more** multiplies the opacity by its own, unless what it is given is above
one. -/
theorem effectiveOpacity_concat_iff (groups : List ℚ) (own group : ℚ) :
    effectiveOpacity (groups ++ [group]) own = effectiveOpacity groups own * clamped group ↔
      own * groupScale groups ≤ 1 ∨ group ≤ 0 ∨ 1 ≤ group := by
  rw [effectiveOpacity, groupScale_concat, ← mul_assoc, effectiveOpacity,
    clamped_mul_iff (clamped_nonneg group) (clamped_le_one group), clamped_eq_zero_iff,
    clamped_eq_one_iff]

end

/-! ### Layers in their groups -/

/-- A layer that is composited, with the groups that it is drawn through, the outermost first. -/
structure Composited where
  layer : CompiledLayer
  through : List CompiledLayer

/-- The opacity that it is drawn with. -/
def Composited.opacity (composited : Composited) : Float32 :=
  effectiveOpacity (composited.through.map (·.opacity)) composited.layer.opacity

namespace LayerTree

mutual

/-- The layers that are composited when a layer is drawn through groups, in their order: what a
group on its own holds is drawn before it, and through no group around it. -/
def composited (through : List CompiledLayer) : LayerTree → List Composited
  | node layer inside =>
    if layer.visible then
      match layer.kind with
      | .group _ =>
        if layer.blend = .passThrough then compositedIn (through ++ [layer]) inside
        else compositedIn [] inside ++ [⟨layer, through⟩]
      | .shader _ | .script _ => [⟨layer, through⟩]
      | .distance .. => []
    else []

/-- The same of layers, the last of which is drawn first. -/
def compositedIn (through : List CompiledLayer) : List LayerTree → List Composited
  | [] => []
  | tree :: rest => compositedIn through rest ++ composited through tree

end

theorem compositedIn_singleton (through : List CompiledLayer) (tree : LayerTree) :
    compositedIn through [tree] = composited through tree := by
  rw [compositedIn, compositedIn, List.nil_append]

end LayerTree

/-- The layers that are composited in a frame. -/
def CompiledTree.composited (tree : CompiledTree) : List Composited :=
  LayerTree.compositedIn [] tree.drawn

end Collage
