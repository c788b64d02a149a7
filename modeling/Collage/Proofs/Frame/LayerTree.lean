import Collage.Tree.Basic
import Mathlib.Data.List.Basic

/-!
# Layers as they are drawn

A compiled tree keeps its layers in a list, and drawing follows their places.  Here
the same layers are a tree: `CompiledTree.drawn` gives the outermost layers that a
frame draws, each with the layers inside it, so that what a frame does can be said by
recursion on layers.

* `LayerTree.isolation` counts the groups that are drawn on their own inside each
  other, and `LayerTree.need` the targets that a layer takes besides the one that holds
  the result so far; a layer needs one more than it is isolated at most (`need_le`).
* `unfold_eq_of_ordered`: where layers stand before those inside them, as they do in a
  tree that was compiled, the tree of a layer does not depend on how many steps it is
  unfolded with, once they are enough for the layers behind it.
-/

namespace Collage

/-- A layer with what is drawn inside it. -/
inductive LayerTree
  | node (layer : CompiledLayer) (inside : List LayerTree)

/-- The places of the layers of a group. -/
def CompiledLayer.members (layer : CompiledLayer) : List Nat :=
  match layer.kind with
  | .group children => children
  | _ => []

namespace CompiledTree

/-- The layer at a place with what is drawn inside it, given enough steps for how deep
layers are nested. -/
def unfold (tree : CompiledTree) : Nat → Nat → Option LayerTree
  | 0, _ => none
  | steps + 1, place =>
    (tree.layer? place).map fun layer => .node layer (layer.members.filterMap (tree.unfold steps))

/-- The outermost layers that a frame draws: those of the group at the root, or the root if
it is no group that is shown. -/
def drawn (tree : CompiledTree) : List LayerTree :=
  match (tree.layer? rootPlace).filter (·.visible) with
  | some { kind := .group children, .. } => children.filterMap (tree.unfold tree.layers.length)
  | _ => (tree.unfold tree.layers.length rootPlace).toList

/-- Layers stand before those inside them. -/
def Ordered (tree : CompiledTree) : Prop :=
  ∀ place layer, tree.layer? place = some layer → ∀ child ∈ layer.members, place < child

/-- **Unfolding with enough steps does not depend on their number.** -/
theorem unfold_eq_of_ordered {tree : CompiledTree} (ordered : tree.Ordered) :
    ∀ (steps more place : Nat), tree.layers.length ≤ steps + place →
      tree.layers.length ≤ more + place → tree.unfold steps place = tree.unfold more place := by
  have beyond : ∀ (steps place : Nat), tree.layers.length ≤ place →
      tree.unfold steps place = none := by
    intro steps place far
    cases steps with
    | zero => rfl
    | succ steps => rw [unfold, layer?, List.getElem?_eq_none far, Option.map_none]
  intro steps
  induction steps with
  | zero =>
    intro more place enough _
    rw [beyond 0 place (by omega), beyond more place (by omega)]
  | succ steps ih =>
    intro more place enough enough'
    cases more with
    | zero => rw [beyond 0 place (by omega), beyond (steps + 1) place (by omega)]
    | succ more =>
      rw [unfold, unfold]
      cases found : tree.layer? place with
      | none => rfl
      | some layer =>
        have inside : layer.members.filterMap (tree.unfold steps) =
            layer.members.filterMap (tree.unfold more) := by
          refine List.filterMap_congr ?_
          intro child member
          have later := ordered place layer found child member
          exact ih more child (by omega) (by omega)
        rw [Option.map_some, Option.map_some, inside]

end CompiledTree

namespace LayerTree

mutual

/-- How many groups that are drawn on their own lie inside each other. -/
def isolation : LayerTree → Nat
  | node layer inside =>
    if layer.visible then
      match layer.kind with
      | .group _ =>
        if layer.blend = .passThrough then isolationIn inside else isolationIn inside + 1
      | _ => 0
    else 0

/-- The same among several layers. -/
def isolationIn : List LayerTree → Nat
  | [] => 0
  | tree :: rest => max (isolation tree) (isolationIn rest)

end

mutual

/-- How many targets a layer takes besides the one that holds the result so far.  A group on
its own holds one for its layers, and one more when it is drawn itself. -/
def need : LayerTree → Nat
  | node layer inside =>
    if layer.visible then
      match layer.kind with
      | .group _ =>
        if layer.blend = .passThrough then needIn inside else max (needIn inside + 1) 2
      | .shader _ | .script _ => 1
      | .distance .. => 0
    else 0

/-- The same of several layers. -/
def needIn : List LayerTree → Nat
  | [] => 0
  | tree :: rest => max (need tree) (needIn rest)

end

theorem needIn_singleton (tree : LayerTree) : needIn [tree] = need tree := by
  rw [needIn, needIn, Nat.max_zero]

mutual

/-- No layer is drawn by a script. -/
def Scriptless : LayerTree → Prop
  | node layer inside => (∀ code, layer.kind ≠ .script code) ∧ ScriptlessIn inside

/-- The same of several layers. -/
def ScriptlessIn : List LayerTree → Prop
  | [] => True
  | tree :: rest => Scriptless tree ∧ ScriptlessIn rest

end

theorem scriptlessIn_iff {trees : List LayerTree} :
    ScriptlessIn trees ↔ ∀ tree ∈ trees, Scriptless tree := by
  induction trees with
  | nil => simp [ScriptlessIn]
  | cons tree rest ih => simp [ScriptlessIn, ih]

mutual

/-- A layer needs at most one target more than groups on their own lie inside each other. -/
theorem need_le : ∀ tree : LayerTree, tree.need ≤ tree.isolation + 1
  | node layer inside => by
    have below := needIn_le inside
    unfold need isolation
    split
    · cases layer.kind with
      | group children =>
        dsimp only
        split <;> omega
      | shader => exact Nat.le_refl 1
      | script => exact Nat.le_refl 1
      | distance => exact Nat.zero_le 1
    · exact Nat.zero_le 1

theorem needIn_le : ∀ trees : List LayerTree, needIn trees ≤ isolationIn trees + 1
  | [] => Nat.zero_le 1
  | tree :: rest => by
    have first := need_le tree
    have others := needIn_le rest
    rw [needIn, isolationIn]
    omega

end

end LayerTree

namespace CompiledTree

open LayerTree

/-- Without scripts among the layers of a tree there are none where it is unfolded. -/
theorem unfold_scriptless {tree : CompiledTree}
    (free : ∀ layer ∈ tree.layers, ∀ code, layer.kind ≠ .script code) :
    ∀ (steps place : Nat), ∀ view ∈ tree.unfold steps place, Scriptless view := by
  intro steps
  induction steps with
  | zero =>
    intro place view seen
    cases seen
  | succ steps ih =>
    intro place view seen
    rw [unfold] at seen
    obtain ⟨layer, found, rfl⟩ := Option.map_eq_some_iff.mp (Option.mem_def.mp seen)
    refine ⟨free layer (List.mem_of_getElem? found), scriptlessIn_iff.mpr fun inner inside => ?_⟩
    obtain ⟨child, _, seen⟩ := List.mem_filterMap.mp inside
    exact ih child inner seen

theorem drawn_scriptless {tree : CompiledTree}
    (free : ∀ layer ∈ tree.layers, ∀ code, layer.kind ≠ .script code) :
    ScriptlessIn tree.drawn := by
  refine scriptlessIn_iff.mpr fun view inside => ?_
  unfold drawn at inside
  split at inside
  · obtain ⟨child, _, seen⟩ := List.mem_filterMap.mp inside
    exact unfold_scriptless free _ child view seen
  · exact unfold_scriptless free _ _ view (Option.mem_toList.mp inside)

end CompiledTree
end Collage
