import Collage.Proofs.Tree.Editing
import Collage.Proofs.Tree.Places

/-!
# The paths of the places

Every place of a document belongs to one path (`Layer.paths`).  The paths are in the order of a
walk that takes a layer before those inside it (`paths_pairwise`), and a path is among them unless
it goes from a distance layer to one that this cannot combine (`mem_paths_iff`).  `standing_placed`
says what a placed layer is by its path: which layer it is, which one it takes for its parent, and
which ones for its children.
-/

namespace Collage
namespace Layer

/-! ### Layers by what they hold -/

section

variable {P : Layer → Prop}

mutual

/-- **Induction on layers**, through what they hold. -/
theorem induction_children (step : ∀ layer, (∀ child ∈ layer.children, P child) → P layer) :
    ∀ layer, P layer
  | group _ _ _ children => step _ (inductionIn_children step children)
  | code .. => step _ (List.forall_mem_nil _)
  | distance _ _ _ operands => step _ (inductionIn_children step operands)

theorem inductionIn_children (step : ∀ layer, (∀ child ∈ layer.children, P child) → P layer) :
    ∀ layers : List Layer, ∀ child ∈ layers, P child
  | [] => List.forall_mem_nil _
  | layer :: rest => List.forall_mem_cons.mpr
      ⟨induction_children step layer, inductionIn_children step rest⟩

end

end

theorem placedAt_eq (parent : Option Nat) (place : Nat) (layer : Layer) :
    placedAt parent place layer =
      ⟨layer, parent, childPlaces layer.isDistance (place + 1) layer.children⟩ ::
        placedIn layer.isDistance place (place + 1) layer.children := by
  cases layer <;> rw [placedAt] <;> rfl

theorem layerAt?_append (rest : List Nat) : ∀ (path : List Nat) (layer : Layer),
    layer.layerAt? (path ++ rest) = (layer.layerAt? path).bind (layerAt? rest)
  | [], _ => rfl
  | index :: path, layer => by
    rw [List.cons_append, layerAt?, layerAt?, Option.bind_assoc]
    exact congrArg _ (funext fun child => layerAt?_append rest path child)

/-! ### The paths of a layer -/

mutual

/-- The paths to a layer and to all in it that have a place, a layer before those inside it. -/
def paths : Layer → List (List Nat)
  | group _ _ _ children => [] :: pathsIn false 0 children
  | code .. => [[]]
  | distance _ _ _ operands => [] :: pathsIn true 0 operands

/-- The same of layers, the first of which has this index. -/
def pathsIn (inDistance : Bool) (index : Nat) : List Layer → List (List Nat)
  | [] => []
  | layer :: rest =>
    (if fits inDistance layer then (paths layer).map (index :: ·) else []) ++
      pathsIn inDistance (index + 1) rest

end

theorem paths_eq (layer : Layer) :
    layer.paths = [] :: pathsIn layer.isDistance 0 layer.children := by
  cases layer <;> rw [paths] <;> rfl

theorem mem_pathsIn_iff {inDistance : Bool} {path : List Nat} :
    ∀ {layers : List Layer} {index : Nat},
    path ∈ pathsIn inDistance index layers ↔ ∃ k child rest, path = (index + k) :: rest ∧
      layers[k]? = some child ∧ fits inDistance child = true ∧ rest ∈ child.paths
  | [], index => by
    rw [pathsIn]
    refine iff_of_false List.not_mem_nil ?_
    rintro ⟨k, child, rest, -, none, -⟩
    cases none
  | layer :: others, index => by
    rw [pathsIn, List.mem_append, mem_pathsIn_iff]
    constructor
    · rintro (here | ⟨k, child, rest, rfl, found, fit, inside⟩)
      · split at here
        · rename_i fit
          obtain ⟨rest, inside, rfl⟩ := List.mem_map.mp here
          exact ⟨0, layer, rest, rfl, rfl, fit, inside⟩
        · cases here
      · exact ⟨k + 1, child, rest, by rw [Nat.add_assoc, Nat.add_comm 1 k], found, fit, inside⟩
    · rintro ⟨k, child, rest, rfl, found, fit, inside⟩
      cases k with
      | zero =>
        cases found
        rw [if_pos fit]
        exact .inl (List.mem_map_of_mem inside)
      | succ k =>
        exact .inr ⟨k, child, rest, by rw [Nat.add_assoc, Nat.add_comm 1 k], found, fit, inside⟩

/-- Whether a path goes from a distance layer to one that it cannot combine. -/
def LeavesOut (document : Layer) (path : List Nat) : Prop :=
  ∃ above index parent layer, above ++ [index] <+: path ∧ document.layerAt? above = some parent ∧
    parent.children[index]? = some layer ∧ parent.isDistance = true ∧ layer.isDistance = false

theorem fits_eq_false_iff {inDistance : Bool} {layer : Layer} :
    fits inDistance layer = false ↔ inDistance = true ∧ layer.isDistance = false := by
  cases inDistance <;> simp [fits]

/-- What a path leaves out, by its first step. -/
theorem leavesOut_cons {layer : Layer} {index : Nat} {path : List Nat} :
    layer.LeavesOut (index :: path) ↔ ∃ child, layer.children[index]? = some child ∧
      (fits layer.isDistance child = false ∨ child.LeavesOut path) := by
  constructor
  · rintro ⟨above, k, parent, inner, before, leads, held, distance, other⟩
    cases above with
    | nil =>
      obtain ⟨rfl, -⟩ := List.cons_prefix_cons.mp before
      cases leads
      exact ⟨inner, held, .inl (fits_eq_false_iff.mpr ⟨distance, other⟩)⟩
    | cons first above =>
      rw [List.cons_append] at before
      obtain ⟨rfl, behind⟩ := List.cons_prefix_cons.mp before
      obtain ⟨child, found, leads⟩ := Option.bind_eq_some_iff.mp leads
      exact ⟨child, found, .inr ⟨above, k, parent, inner, behind, leads, held, distance, other⟩⟩
  · rintro ⟨child, found, unfit | ⟨above, k, parent, inner, before, leads, held, distance, other⟩⟩
    · obtain ⟨distance, other⟩ := fits_eq_false_iff.mp unfit
      exact ⟨[], index, layer, child, List.cons_prefix_cons.mpr ⟨rfl, List.nil_prefix⟩, rfl, found,
        distance, other⟩
    · refine ⟨index :: above, k, parent, inner, List.cons_prefix_cons.mpr ⟨rfl, before⟩, ?_, held,
        distance, other⟩
      rw [layerAt?, found]
      exact leads

/-- **The paths of a document** are those that lead somewhere and leave nothing out. -/
theorem mem_paths_iff : ∀ {path : List Nat} {layer : Layer},
    path ∈ layer.paths ↔ (layer.layerAt? path).isSome = true ∧ ¬ layer.LeavesOut path
  | [], layer => by
    rw [paths_eq]
    refine iff_of_true List.mem_cons_self ⟨rfl, ?_⟩
    rintro ⟨above, index, -, -, before, -⟩
    exact List.concat_ne_nil _ _ (List.prefix_nil.mp before)
  | index :: path, layer => by
    rw [paths_eq, List.mem_cons, or_iff_right (List.cons_ne_nil _ _), mem_pathsIn_iff,
      leavesOut_cons,
      layerAt?]
    constructor
    · rintro ⟨k, child, rest, same, found, fit, inside⟩
      obtain ⟨rfl, rfl⟩ := List.cons.inj same
      rw [Nat.zero_add, found]
      obtain ⟨leads, kept⟩ := mem_paths_iff.mp inside
      refine ⟨leads, ?_⟩
      rintro ⟨_, ⟨⟩, unfit | left⟩
      · rw [fit] at unfit
        cases unfit
      · exact kept left
    · rintro ⟨leads, kept⟩
      cases found : layer.children[index]? with
      | none =>
        rw [found] at leads
        cases leads
      | some child =>
        rw [found] at leads
        have fit : fits layer.isDistance child = true := by
          by_contra unfit
          exact kept ⟨child, found, .inl (Bool.eq_false_of_not_eq_true unfit)⟩
        exact ⟨index, child, path, by rw [Nat.zero_add], found, fit,
          mem_paths_iff.mpr ⟨leads, fun left => kept ⟨child, found, .inr left⟩⟩⟩

theorem head_le_of_mem_pathsIn {inDistance : Bool} {index : Nat} {layers : List Layer}
    {path : List Nat} (inside : path ∈ pathsIn inDistance index layers) :
    ∃ first rest, path = first :: rest ∧ index ≤ first := by
  obtain ⟨k, -, rest, rfl, -⟩ := mem_pathsIn_iff.mp inside
  exact ⟨index + k, rest, rfl, Nat.le_add_right _ _⟩

theorem pathsIn_pairwise (inDistance : Bool) : ∀ (layers : List Layer) (index : Nat),
    (∀ child ∈ layers, child.paths.Pairwise (List.Lex (· < ·))) →
    (pathsIn inDistance index layers).Pairwise (List.Lex (· < ·))
  | [], _, _ => by
    rw [pathsIn]
    exact .nil
  | child :: others, index, each => by
    rw [pathsIn, List.pairwise_append]
    refine ⟨?_, pathsIn_pairwise inDistance others _ fun other inside =>
      each other (List.mem_cons_of_mem _ inside), ?_⟩
    · split
      · exact List.pairwise_map.mpr ((each child List.mem_cons_self).imp .cons)
      · exact .nil
    · intro path here other later
      obtain ⟨first, tail, rfl, order⟩ := head_le_of_mem_pathsIn later
      split at here
      · obtain ⟨tail', -, rfl⟩ := List.mem_map.mp here
        exact .rel order
      · cases here

/-- **The paths of a document are in the order of a walk** that takes a layer before those inside
it, and these as they stand. -/
theorem paths_pairwise (document : Layer) : document.paths.Pairwise (List.Lex (· < ·)) := by
  induction document using induction_children with
  | step layer each =>
    rw [paths_eq, List.pairwise_cons]
    refine ⟨fun path inside => ?_, pathsIn_pairwise _ _ 0 each⟩
    obtain ⟨first, rest, rfl, -⟩ := head_le_of_mem_pathsIn inside
    exact .nil

theorem nodup_paths (document : Layer) : document.paths.Nodup :=
  document.paths_pairwise.imp fun {path other} order (same : path = other) =>
    List.lex_irrefl Nat.lt_irrefl _ (same ▸ order)

/-! ### What stands at the places -/

theorem placeCount_eq (layer : Layer) :
    placeCount layer = 1 + placeCountIn layer.isDistance layer.children := by
  cases layer <;> rw [placeCount] <;> rfl

theorem length_pathsIn (inDistance : Bool) : ∀ (layers : List Layer) (index : Nat),
    (∀ child ∈ layers, child.paths.length = placeCount child) →
    (pathsIn inDistance index layers).length = placeCountIn inDistance layers
  | [], _, _ => by rw [pathsIn, placeCountIn, List.length_nil]
  | child :: others, index, each => by
    rw [pathsIn, placeCountIn, List.length_append, length_pathsIn inDistance others _
      fun other inside => each other (List.mem_cons_of_mem _ inside)]
    split
    · rw [List.length_map, each child List.mem_cons_self]
    · rfl

theorem length_paths (layer : Layer) : layer.paths.length = placeCount layer := by
  induction layer using induction_children with
  | step layer each =>
    rw [paths_eq, placeCount_eq, List.length_cons, length_pathsIn _ _ 0 each, Nat.add_comm]

/-- What a placed layer is by its path: the layer that this leads to, its parent one step before,
and its children one step on, as many as fit. -/
structure Standing (document : Layer) (path : List Nat) (placed : PlacedLayer) : Prop where
  layer : document.layerAt? path = some placed.layer
  parent : placed.parent.map (document.paths[·]?) =
    if path = [] then none else some (some path.dropLast)
  children : placed.children.map (document.paths[·]?) =
    (placed.layer.children.findIdxs (fits placed.layer.isDistance)).map
      fun index => some (path ++ [index])

variable {document : Layer}

/-- The children of the layer at a path are one step on, where they fit. -/
theorem paths_childPlaces (inDistance : Bool) (path : List Nat) :
    ∀ (layers : List Layer) (index place : Nat),
      (pathsIn inDistance index layers).map (path ++ ·) <+: document.paths.drop place →
      (childPlaces inDistance place layers).map (document.paths[·]?) =
        (layers.findIdxs (fits inDistance) index).map fun index => some (path ++ [index])
  | [], _, _, _ => rfl
  | child :: others, index, place, stands => by
    rw [pathsIn, List.map_append] at stands
    rw [childPlaces, List.findIdxs_cons]
    split at stands
    · rename_i fit
      rw [if_pos fit, if_pos fit, List.map_cons, List.map_cons]
      have behind := prefix_drop_add stands
      rw [List.length_map, List.length_map, length_paths] at behind
      rw [paths_childPlaces inDistance path others _ _ behind]
      have first := (List.prefix_append _ _).trans stands
      rw [paths_eq, List.map_cons, List.map_cons] at first
      rw [getElem?_of_prefix_drop first]
    · rename_i unfit
      rw [if_neg unfit, if_neg unfit]
      exact paths_childPlaces inDistance path others _ _ stands

/-- Whether all in a layer stands by its path wherever the layer is in the document. -/
def Settled (document layer : Layer) : Prop :=
  ∀ (path : List Nat) (parent : Option Nat) (place : Nat), document.layerAt? path = some layer →
    parent.map (document.paths[·]?) = (if path = [] then none else some (some path.dropLast)) →
    layer.paths.map (path ++ ·) <+: document.paths.drop place →
    List.Forall₂ (Standing document) (layer.paths.map (path ++ ·)) (placedAt parent place layer)

theorem standing_placedIn (inDistance : Bool) (path : List Nat) {parent : Nat}
    (above : document.paths[parent]? = some path) :
    ∀ (layers : List Layer) (index place : Nat),
      (∀ k child, layers[k]? = some child → document.layerAt? (path ++ [index + k]) = some child) →
      (pathsIn inDistance index layers).map (path ++ ·) <+: document.paths.drop place →
      (∀ child ∈ layers, Settled document child) →
      List.Forall₂ (Standing document) ((pathsIn inDistance index layers).map (path ++ ·))
        (placedIn inDistance parent place layers)
  | [], _, _, _, _, _ => by
    rw [pathsIn, placedIn]
    exact .nil
  | child :: others, index, place, leads, stands, each => by
    have next : ∀ k other, others[k]? = some other →
        document.layerAt? (path ++ [index + 1 + k]) = some other := by
      intro k other found
      rw [Nat.add_assoc, Nat.add_comm 1 k]
      exact leads (k + 1) other found
    have rest := fun other inside => each other (List.mem_cons_of_mem _ inside)
    rw [pathsIn, List.map_append] at stands ⊢
    rw [placedIn]
    by_cases fit : fits inDistance child = true
    · rw [if_pos fit] at stands ⊢
      rw [if_pos fit]
      have behind := prefix_drop_add stands
      rw [List.length_map, List.length_map, length_paths] at behind
      refine List.rel_append ?_
        (standing_placedIn inDistance path above others _ _ next behind rest)
      have first := (List.prefix_append _ _).trans stands
      have steps : (child.paths.map (index :: ·)).map (path ++ ·) =
          child.paths.map (path ++ [index] ++ ·) := by
        rw [List.map_map]
        exact List.map_congr_left fun rest _ => (List.append_assoc path [index] rest).symm
      rw [steps] at first ⊢
      refine each child List.mem_cons_self _ _ _ (leads 0 child rfl) ?_ first
      rw [Option.map_some, above, if_neg (List.concat_ne_nil _ _), List.dropLast_concat]
    · rw [if_neg fit] at stands ⊢
      rw [if_neg fit]
      exact standing_placedIn inDistance path above others _ _ next stands rest

/-- Every layer settles, as those that it holds do. -/
theorem settled (document layer : Layer) : Settled document layer := by
  induction layer using induction_children with
  | step layer each =>
    intro path parent place leads above stands
    rw [paths_eq, List.map_cons, List.append_nil] at stands ⊢
    rw [placedAt_eq]
    have inside := prefix_drop_succ stands
    refine .cons ⟨leads, above, paths_childPlaces _ path _ 0 _ inside⟩ ?_
    refine standing_placedIn _ path (getElem?_of_prefix_drop stands) _ 0 _ ?_ inside each
    intro k child found
    rw [layerAt?_concat, leads, Nat.zero_add]
    exact found

/-- **Every place stands by its path.** -/
theorem standing_placed (document : Layer) :
    List.Forall₂ (Standing document) document.paths document.placed := by
  have whole : document.paths.map ([] ++ ·) = document.paths := List.map_id' _
  have stands := settled document document [] none 0 rfl rfl (by rw [whole]; exact List.prefix_rfl)
  rwa [whole] at stands

end Layer
end Collage
