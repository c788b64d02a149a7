import Collage.Tree.Basic
import Mathlib.Data.List.Basic

/-!
# The places of a document

Every layer of a document that has a place, besides the outermost one, is held by a layer
at a lower place, and what a layer holds stands at higher places (`Layer.nested_placed`);
what a distance layer holds are distance layers.
-/

namespace Collage

/-- The places of what a layer holds; code holds nothing. -/
def PlacedLayer.holds (placed : PlacedLayer) : List Nat :=
  match placed.layer with
  | .code .. => []
  | _ => placed.children

/-- Layers at the places from `place` on, of which something outside holds those at the places
`outer`, which are distance layers if it is one. -/
structure Nested (place : Nat) (inDistance : Bool) (outer : List Nat) (layers : List PlacedLayer) :
    Prop where
  /-- every layer is held from outside or by an earlier one -/
  held : ∀ i < layers.length, place + i ∈ outer ∨
    ∃ j < i, ∃ holder, layers[j]? = some holder ∧ place + i ∈ holder.holds
  /-- what is held from outside is there -/
  outside : ∀ child ∈ outer, ∃ i inner, child = place + i ∧ layers[i]? = some inner ∧
    Layer.fits inDistance inner.layer = true
  /-- what a layer holds comes later -/
  inside : ∀ j holder, layers[j]? = some holder → ∀ child ∈ holder.holds,
    ∃ i inner, j < i ∧ child = place + i ∧ layers[i]? = some inner ∧
      Layer.fits holder.layer.isDistance inner.layer = true

namespace Nested

variable {place : Nat} {inDistance : Bool} {outer : List Nat}

theorem nil : Nested place inDistance [] [] where
  held _ short := absurd short (Nat.not_lt_zero _)
  outside := List.forall_mem_nil _
  inside _ _ found := by cases found

/-- A layer in front of all that it holds. -/
theorem cons {holder : PlacedLayer} {rest : List PlacedLayer}
    (fits : Layer.fits inDistance holder.layer = true)
    (nested : Nested (place + 1) holder.layer.isDistance holder.holds rest) :
    Nested place inDistance [place] (holder :: rest) where
  held i short := by
    cases i with
    | zero => exact .inl (List.mem_singleton.mpr rfl)
    | succ i =>
      have shift : place + (i + 1) = place + 1 + i := by omega
      rw [shift]
      refine .inr ?_
      rcases nested.held i (Nat.lt_of_succ_lt_succ short) with mine | ⟨j, earlier, other, found, its⟩
      · exact ⟨0, Nat.succ_pos i, holder, rfl, mine⟩
      · exact ⟨j + 1, Nat.succ_lt_succ earlier, other, found, its⟩
  outside child here := by
    obtain rfl := List.mem_singleton.mp here
    exact ⟨0, holder, rfl, rfl, fits⟩
  inside j other found child its := by
    cases j with
    | zero =>
      cases found
      obtain ⟨i, inner, rfl, there, fits⟩ := nested.outside child its
      exact ⟨i + 1, inner, Nat.succ_pos i, by omega, there, fits⟩
    | succ j =>
      obtain ⟨i, inner, later, rfl, there, fits⟩ := nested.inside j other found child its
      exact ⟨i + 1, inner, Nat.succ_lt_succ later, by omega, there, fits⟩

/-- Layers in front of others. -/
theorem append {others : List Nat} {first rest : List PlacedLayer}
    (nested : Nested place inDistance outer first)
    (behind : Nested (place + first.length) inDistance others rest) :
    Nested place inDistance (outer ++ others) (first ++ rest) where
  held i short := by
    rcases Nat.lt_or_ge i first.length with early | late
    · rcases nested.held i early with out | ⟨j, earlier, holder, found, its⟩
      · exact .inl (List.mem_append_left _ out)
      · exact .inr ⟨j, earlier, holder, by
          rwa [List.getElem?_append_left (Nat.lt_trans earlier early)], its⟩
    · obtain ⟨i, rfl⟩ := Nat.exists_eq_add_of_le late
      rw [List.length_append] at short
      have shift : place + (first.length + i) = place + first.length + i := by omega
      rw [shift]
      rcases behind.held i (by omega) with out | ⟨j, earlier, holder, found, its⟩
      · exact .inl (List.mem_append_right _ out)
      · refine .inr ⟨first.length + j, by omega, holder, ?_, its⟩
        rwa [List.getElem?_append_right (Nat.le_add_right _ _), Nat.add_sub_cancel_left]
  outside child out := by
    rcases List.mem_append.mp out with out | out
    · obtain ⟨i, inner, same, found, fits⟩ := nested.outside child out
      have short := (List.getElem?_eq_some_iff.mp found).1
      exact ⟨i, inner, same, by rwa [List.getElem?_append_left short], fits⟩
    · obtain ⟨i, inner, rfl, found, fits⟩ := behind.outside child out
      refine ⟨first.length + i, inner, by omega, ?_, fits⟩
      rwa [List.getElem?_append_right (Nat.le_add_right _ _), Nat.add_sub_cancel_left]
  inside j holder found child its := by
    rcases Nat.lt_or_ge j first.length with early | late
    · rw [List.getElem?_append_left early] at found
      obtain ⟨i, inner, later, same, there, fits⟩ := nested.inside j holder found child its
      have short := (List.getElem?_eq_some_iff.mp there).1
      exact ⟨i, inner, later, same, by rwa [List.getElem?_append_left short], fits⟩
    · rw [List.getElem?_append_right late] at found
      obtain ⟨i, inner, later, rfl, there, fits⟩ := behind.inside _ holder found child its
      refine ⟨first.length + i, inner, by omega, by omega, ?_, fits⟩
      rwa [List.getElem?_append_right (Nat.le_add_right _ _), Nat.add_sub_cancel_left]

end Nested

namespace Layer

mutual

theorem length_placedAt (parent : Option Nat) (place : Nat) : ∀ layer : Layer,
    (placedAt parent place layer).length = placeCount layer
  | group head blend opacity children => by
    rw [placedAt, placeCount, List.length_cons, length_placedIn, Nat.add_comm]
  | code .. => by rw [placedAt, placeCount, List.length_singleton]
  | distance head source values operands => by
    rw [placedAt, placeCount, List.length_cons, length_placedIn, Nat.add_comm]

theorem length_placedIn (inDistance : Bool) (parent place : Nat) : ∀ layers : List Layer,
    (placedIn inDistance parent place layers).length = placeCountIn inDistance layers
  | [] => by rw [placedIn, placeCountIn, List.length_nil]
  | layer :: rest => by
    rw [placedIn, placeCountIn]
    split
    · rw [List.length_append, length_placedAt, length_placedIn]
    · rw [length_placedIn, Nat.zero_add]

end

mutual

theorem nested_placedAt (parent : Option Nat) (place : Nat) (inDistance : Bool) :
    ∀ layer : Layer, fits inDistance layer = true →
      Nested place inDistance [place] (placedAt parent place layer)
  | group head blend opacity children, fit => by
    rw [placedAt]
    exact .cons fit (nested_placedIn false place (place + 1) children)
  | code .., fit => by
    rw [placedAt]
    exact .cons fit .nil
  | distance head source values operands, fit => by
    rw [placedAt]
    exact .cons fit (nested_placedIn true place (place + 1) operands)

theorem nested_placedIn (inDistance : Bool) (parent place : Nat) : ∀ layers : List Layer,
    Nested place inDistance (childPlaces inDistance place layers)
      (placedIn inDistance parent place layers)
  | [] => by
    rw [placedIn, childPlaces]
    exact .nil
  | layer :: rest => by
    rw [placedIn, childPlaces]
    split
    · rename_i fit
      refine (nested_placedAt (some parent) place inDistance layer fit).append ?_
      rw [length_placedAt]
      exact nested_placedIn inDistance parent (place + placeCount layer) rest
    · exact nested_placedIn inDistance parent place rest

end

/-- **The places of a document**: everything but the outermost layer is held by something
earlier. -/
theorem nested_placed (document : Layer) : Nested 0 false [0] document.placed :=
  nested_placedAt none 0 false document rfl

end Layer

/-! ### What stands at a place -/

section

variable {α : Type} {whole part others : List α} {first : α} {place : Nat}

theorem getElem?_of_prefix_drop (stands : first :: part <+: whole.drop place) :
    whole[place]? = some first := by
  obtain ⟨rest, same⟩ := stands
  rw [← List.head?_drop, ← same]
  rfl

theorem prefix_drop_succ (stands : first :: part <+: whole.drop place) :
    part <+: whole.drop (place + 1) := by
  obtain ⟨rest, same⟩ := stands
  refine ⟨rest, ?_⟩
  rw [← List.tail_drop, ← same]
  rfl

theorem prefix_drop_add (stands : part ++ others <+: whole.drop place) :
    others <+: whole.drop (place + part.length) := by
  obtain ⟨rest, same⟩ := stands
  refine ⟨rest, ?_⟩
  rw [← List.drop_drop, ← same, List.append_assoc, List.drop_left]

end

end Collage
