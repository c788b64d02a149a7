import Collage.Proofs.Tree.Blueprint
import Collage.Proofs.Tree.Places
import Mathlib.Data.List.Basic

/-!
# The scene of a document

The scene of a document is made of its distance layers, wherever they stand: `Layer.solids` lists
those that stand in no other, each with those that it combines.  What else there is in the
document, and which layers are hidden, plays no part.

`buildScene` goes by places in the list of all layers.  `buildScene_solids` says that it gives the
scene of the solids, in which layers are counted by slots, with places written over the slots.
-/

namespace Collage

/-- A distance layer, with those that it combines. -/
inductive Solid
  | node (id source : String) (values : List ShaderValue) (operands : List Solid)

namespace Layer

mutual

/-- The distance layers of a layer that stand in no other. -/
def solids : Layer → List Solid
  | group _ _ _ children => solidsIn false children
  | code .. => []
  | distance head source values operands => [.node head.id source values (solidsIn true operands)]

/-- The same of several layers. -/
def solidsIn (inDistance : Bool) : List Layer → List Solid
  | [] => []
  | layer :: rest =>
    (if fits inDistance layer then solids layer else []) ++ solidsIn inDistance rest

end

end Layer

namespace Solid

mutual

/-- How many distance layers there are in one, itself included. -/
def count : Solid → Nat
  | node _ _ _ operands => 1 + countIn operands

/-- The same of several. -/
def countIn : List Solid → Nat
  | [] => 0
  | solid :: rest => count solid + countIn rest

end

/-- The slots of distance layers, when the first of them has this one. -/
def slots (slot : Nat) : List Solid → List Nat
  | [] => []
  | solid :: rest => slot :: slots (slot + count solid) rest

theorem slots_append (others : List Solid) : ∀ (solids : List Solid) (slot : Nat),
    slots slot (solids ++ others) = slots slot solids ++ slots (slot + countIn solids) others
  | [], _ => rfl
  | solid :: rest, slot => by
    rw [List.cons_append, slots, slots_append others rest, slots, countIn, Nat.add_assoc,
      List.cons_append]

theorem countIn_append (others : List Solid) : ∀ solids : List Solid,
    countIn (solids ++ others) = countIn solids + countIn others
  | [] => (Nat.zero_add _).symm
  | solid :: rest => by
    rw [List.cons_append, countIn, countIn, countIn_append others rest, Nat.add_assoc]

section

variable (traits : DeviceTraits) (version : String)

/-- The signature of a distance layer that takes part in a scene. -/
def usableSignature (source : String) : Option Signature :=
  (Signature.ofSource source).toOption.filter fun signature =>
    !(CompiledTree.blueprintErrors traits version source signature).any Diagnostic.isError

mutual

/-- The layers of a scene that a distance layer becomes, if it has this slot. -/
def parts (slot : Nat) : Solid → List SceneLayer
  | node id source values operands =>
    ⟨id, source, usableSignature traits version source, Uniform.extract source values,
        slots (slot + 1) operands⟩ ::
      partsIn (slot + 1) operands

/-- The same of several. -/
def partsIn (slot : Nat) : List Solid → List SceneLayer
  | [] => []
  | solid :: rest => parts slot solid ++ partsIn (slot + count solid) rest

end

theorem partsIn_append (others : List Solid) : ∀ (solids : List Solid) (slot : Nat),
    partsIn traits version slot (solids ++ others) =
      partsIn traits version slot solids ++ partsIn traits version (slot + countIn solids) others
  | [], _ => rfl
  | solid :: rest, slot => by
    rw [List.cons_append, partsIn, partsIn_append others rest, partsIn, countIn, Nat.add_assoc,
      List.append_assoc]

/-- The layers of the scene that distance layers become. -/
def sceneLayers (solids : List Solid) : List SceneLayer :=
  partsIn traits version 0 solids

/-- The scene that distance layers become. -/
def scene (solids : List Solid) : Scene :=
  .build (sceneLayers traits version solids) (slots 0 solids).reverse

end

end Solid

/-! ### Places and slots -/

section

variable {α : Type} {items : List α} {p : α → Bool}

theorem map_snd_filter_zipIdx (p : α → Bool) (start : Nat) : ∀ items : List α,
    ((items.zipIdx start).filter fun entry => p entry.1).map Prod.snd = items.findIdxs p start
  | [] => rfl
  | item :: rest => by
    rw [List.zipIdx_cons, List.findIdxs_cons, List.filter_cons]
    split
    · rw [List.map_cons, map_snd_filter_zipIdx p (start + 1) rest]
    · exact map_snd_filter_zipIdx p (start + 1) rest

theorem map_fst_filter_zipIdx (p : α → Bool) (start : Nat) : ∀ items : List α,
    ((items.zipIdx start).filter fun entry => p entry.1).map Prod.fst = items.filter p
  | [] => rfl
  | item :: rest => by
    rw [List.zipIdx_cons, List.filter_cons, List.filter_cons]
    split
    · rw [List.map_cons, map_fst_filter_zipIdx p (start + 1) rest]
    · exact map_fst_filter_zipIdx p (start + 1) rest

/-- Where an item stands among those like it: behind as many as come before it. -/
theorem idxOf?_findIdxs {place : Nat} {item : α} (there : items[place]? = some item)
    (one : p item = true) :
    (items.findIdxs p).idxOf? place = some ((items.take place).countP p) := by
  obtain ⟨inside, rfl⟩ := List.getElem?_eq_some_iff.mp there
  have split : items.findIdxs p = (items.take place).findIdxs p ++
      place :: (items.drop (place + 1)).findIdxs p (place + 1) := by
    have whole : items = items.take place ++ items.drop place := (List.take_append_drop _ _).symm
    conv_lhs => rw [whole]
    rw [List.findIdxs_append, List.drop_eq_getElem_cons inside, List.findIdxs_cons, if_pos one,
      List.length_take, Nat.min_eq_left (Nat.le_of_lt inside), Nat.zero_add]
  have length : ((items.take place).findIdxs p).length = (items.take place).countP p :=
    List.length_findIdxs
  have front : ∀ other ∈ (items.take place).findIdxs p, other ≠ place := by
    intro other among same
    have short := List.lt_add_of_mem_findIdxs other among
    rw [List.length_take] at short
    omega
  rw [split]
  refine List.idxOf?_eq_some_iff.mpr ⟨?_, ?_, ?_⟩
  · rw [List.length_append, length, List.length_cons]
    omega
  · rw [List.getElem_append_right (Nat.le_of_eq length)]
    simp only [length, Nat.sub_self, List.getElem_cons_zero]
  · intro j early
    rw [List.getElem_append_left (length ▸ early)]
    exact front _ (List.getElem_mem _)

end

/-- Layers that stand at a place among all layers, and behind it. -/
def Stands (placed : List PlacedLayer) (place : Nat) (part : List PlacedLayer) : Prop :=
  part <+: placed.drop place

namespace Stands

variable {placed part others : List PlacedLayer} {place : Nat} {first : PlacedLayer}

theorem whole (placed : List PlacedLayer) : Stands placed 0 placed :=
  List.prefix_rfl

theorem head (h : Stands placed place (first :: part)) : placed[place]? = some first :=
  getElem?_of_prefix_drop h

theorem tail (h : Stands placed place (first :: part)) : Stands placed (place + 1) part :=
  prefix_drop_succ h

theorem left (h : Stands placed place (part ++ others)) : Stands placed place part :=
  (List.prefix_append part others).trans h

theorem right (h : Stands placed place (part ++ others)) :
    Stands placed (place + part.length) others :=
  prefix_drop_add h

end Stands

/-- How many distance layers come before a place. -/
def slotAt (placed : List PlacedLayer) (place : Nat) : Nat :=
  (placed.take place).countP (·.layer.isDistance)

theorem Stands.slotAt {placed part : List PlacedLayer} {place : Nat}
    (h : Stands placed place part) :
    slotAt placed (place + part.length) =
      slotAt placed place + part.countP (·.layer.isDistance) := by
  obtain ⟨rest, same⟩ := h
  unfold Collage.slotAt
  rw [List.take_add, ← same, List.take_left, List.countP_append]

/-- The places of distance layers. -/
def distancePlaces (placed : List PlacedLayer) : List Nat :=
  placed.findIdxs (·.layer.isDistance)

/-- The slot of a distance layer at a place. -/
def slotOf? (placed : List PlacedLayer) (place : Nat) : Option Nat :=
  (distancePlaces placed).idxOf? place

section

variable {placed part : List PlacedLayer} {place : Nat} {first : PlacedLayer}

theorem slotOf?_distance (h : Stands placed place (first :: part))
    (distance : first.layer.isDistance = true) : slotOf? placed place = some (slotAt placed place) :=
  idxOf?_findIdxs h.head distance

theorem slotAt_distance (h : Stands placed place (first :: part))
    (distance : first.layer.isDistance = true) :
    slotAt placed (place + 1) = slotAt placed place + 1 := by
  have one : Stands placed place [first] := (List.prefix_append [first] part).trans h
  have counted := one.slotAt
  rwa [List.countP_singleton, if_pos distance] at counted

theorem slotAt_other (h : Stands placed place (first :: part))
    (other : first.layer.isDistance = false) : slotAt placed (place + 1) = slotAt placed place := by
  have one : Stands placed place [first] := (List.prefix_append [first] part).trans h
  have counted := one.slotAt
  rwa [List.countP_singleton, other, if_neg Bool.false_ne_true] at counted

end

namespace Layer

open Solid

/-! ### Counting -/

mutual

theorem countP_placedAt (parent : Option Nat) (place : Nat) : ∀ layer : Layer,
    (placedAt parent place layer).countP (·.layer.isDistance) = countIn (solids layer)
  | group head blend opacity children => by
    rw [placedAt, solids, List.countP_cons_of_neg Bool.false_ne_true, countP_placedIn]
  | code .. => by
    rw [placedAt, solids, countIn]
    rfl
  | distance head source values operands => by
    rw [placedAt, solids, List.countP_cons_of_pos rfl, countP_placedIn, countIn, count, countIn]
    omega

theorem countP_placedIn (inDistance : Bool) (parent place : Nat) : ∀ layers : List Layer,
    (placedIn inDistance parent place layers).countP (·.layer.isDistance) =
      countIn (solidsIn inDistance layers)
  | [] => by
    rw [placedIn, solidsIn, countIn]
    rfl
  | layer :: rest => by
    rw [placedIn, solidsIn, countIn_append]
    split
    · rw [List.countP_append, countP_placedAt, countP_placedIn]
    · rw [countP_placedIn, countIn, Nat.zero_add]

end

/-- Behind a layer and all it holds there are as many more slots as it takes. -/
theorem slotAt_placedAt {placed : List PlacedLayer} {parent : Option Nat} {place : Nat}
    {layer : Layer} (h : Stands placed place (placedAt parent place layer)) :
    slotAt placed (place + placeCount layer) = slotAt placed place + countIn (solids layer) := by
  rw [← length_placedAt parent place layer, h.slotAt, countP_placedAt]

/-! ### Slots of operands and roots -/

variable {placed : List PlacedLayer}

/-- What a distance layer combines has slots one behind the other. -/
theorem slots_childPlaces (parent : Nat) : ∀ (layers : List Layer) (place : Nat),
    Stands placed place (placedIn true parent place layers) →
    (childPlaces true place layers).filterMap (slotOf? placed) =
      slots (slotAt placed place) (solidsIn true layers)
  | [], _, _ => rfl
  | layer :: rest, place, stands => by
    cases layer with
    | group | code => exact slots_childPlaces parent rest place stands
    | distance head source values operands =>
      have fit : fits true (distance head source values operands) = true := rfl
      rw [placedIn, if_pos fit] at stands
      have others := stands.right
      rw [length_placedAt] at others
      have first := stands.left
      have slot := slotAt_placedAt first
      rw [placedAt] at first
      rw [childPlaces, if_pos fit, solidsIn, if_pos fit,
        List.filterMap_cons_some (slotOf?_distance first rfl),
        slots_childPlaces parent rest _ others, slot, slots_append, solids]
      rfl

mutual

theorem slots_sceneRootsAt (parent : Option Nat) : ∀ (layer : Layer) (place : Nat),
    Stands placed place (placedAt parent place layer) →
    (sceneRootsAt place layer).filterMap (slotOf? placed) =
      (slots (slotAt placed place) (solids layer)).reverse
  | group head blend opacity children, place, stands => by
    rw [placedAt] at stands
    rw [sceneRootsAt, solids, slots_sceneRootsIn place children _ stands.tail,
      slotAt_other stands rfl]
  | code .., place, stands => rfl
  | distance head source values operands, place, stands => by
    rw [placedAt] at stands
    rw [sceneRootsAt, solids, List.filterMap_cons_some (slotOf?_distance stands rfl)]
    rfl

theorem slots_sceneRootsIn (parent : Nat) : ∀ (layers : List Layer) (place : Nat),
    Stands placed place (placedIn false parent place layers) →
    (sceneRootsIn place layers).filterMap (slotOf? placed) =
      (slots (slotAt placed place) (solidsIn false layers)).reverse
  | [], _, _ => rfl
  | layer :: rest, place, stands => by
    have fit : fits false layer = true := rfl
    rw [placedIn, if_pos fit] at stands
    have others := stands.right
    rw [length_placedAt] at others
    rw [sceneRootsIn, solidsIn, if_pos fit, List.filterMap_append,
      slots_sceneRootsIn parent rest _ others, slots_sceneRootsAt _ layer _ stands.left,
      slotAt_placedAt stands.left, slots_append, List.reverse_append]

end

/-! ### Layers of the scene -/

section

variable (traits : DeviceTraits) (version : String)

/-- The layer of a scene that a distance layer of a document becomes. -/
def scenePart (placed : List PlacedLayer) (one : PlacedLayer) : SceneLayer :=
  ⟨one.layer.id, one.layer.source?.getD "",
    usableSignature traits version (one.layer.source?.getD ""),
    Uniform.extract (one.layer.source?.getD "") one.layer.values,
    one.children.filterMap (slotOf? placed)⟩

mutual

theorem sceneParts_placedAt (parent : Option Nat) : ∀ (layer : Layer) (place : Nat),
    Stands placed place (placedAt parent place layer) →
    ((placedAt parent place layer).filter (·.layer.isDistance)).map
        (scenePart traits version placed) =
      partsIn traits version (slotAt placed place) (solids layer)
  | group head blend opacity children, place, stands => by
    rw [placedAt] at stands ⊢
    rw [List.filter_cons_of_neg Bool.false_ne_true, solids,
      sceneParts_placedIn false place children _ stands.tail, slotAt_other stands rfl]
  | code .., place, stands => rfl
  | distance head source values operands, place, stands => by
    rw [placedAt] at stands ⊢
    rw [List.filter_cons_of_pos rfl, List.map_cons, solids,
      sceneParts_placedIn true place operands _ stands.tail, slotAt_distance stands rfl, partsIn,
      partsIn, List.append_nil, parts, scenePart]
    dsimp only
    rw [slots_childPlaces place operands _ stands.tail, slotAt_distance stands rfl]
    rfl

theorem sceneParts_placedIn (inDistance : Bool) (parent : Nat) :
    ∀ (layers : List Layer) (place : Nat),
    Stands placed place (placedIn inDistance parent place layers) →
    ((placedIn inDistance parent place layers).filter (·.layer.isDistance)).map
        (scenePart traits version placed) =
      partsIn traits version (slotAt placed place) (solidsIn inDistance layers)
  | [], _, _ => rfl
  | layer :: rest, place, stands => by
    rw [placedIn] at stands ⊢
    rw [solidsIn]
    by_cases fit : fits inDistance layer = true
    · rw [if_pos fit] at stands ⊢
      have others := stands.right
      rw [length_placedAt] at others
      rw [if_pos fit, List.filter_append, List.map_append,
        sceneParts_placedAt _ layer _ stands.left,
        sceneParts_placedIn inDistance parent rest _ others, slotAt_placedAt stands.left,
        partsIn_append]
    · rw [if_neg fit] at stands ⊢
      rw [if_neg fit, sceneParts_placedIn inDistance parent rest _ stands]
      rfl

end

end

/-! ### The scene -/

section

variable (traits : DeviceTraits) (version : String)

theorem scenePart_blueprint (placed : List PlacedLayer) {one : PlacedLayer}
    (distance : one.layer.isDistance = true) :
    (⟨(CompiledTree.blueprintDistance traits version values one).id, one.layer.source?.getD "",
      (match (CompiledTree.blueprintDistance traits version values one).kind with
        | .distance signature _ => signature.filter fun _ =>
          !(CompiledTree.blueprintDistance traits version values one).hasErrors
        | _ => none),
      (CompiledTree.blueprintDistance traits version values one).uniforms,
      one.children.filterMap (slotOf? placed)⟩ : SceneLayer) =
      scenePart traits version placed one := by
  obtain ⟨layer, parent, children⟩ := one
  cases layer with
  | group | code => cases distance
  | distance head source values operands =>
    unfold scenePart usableSignature CompiledTree.blueprintDistance
    dsimp only [source?, Option.getD_some]
    cases Signature.ofSource source with
    | error error => rfl
    | ok signature =>
      -- what is asked of the signature depends on it in one of the two only
      rw [Except.toOption, Option.filter_some]
      dsimp only
      rw [Option.filter_some]
      rfl

/-- The scene of a document, without the places of its layers. -/
def scene (document : Layer) : Scene :=
  Solid.scene traits version document.solids

/-- **The scene of a document is that of its solids**, if it needs one. -/
theorem buildScene_solids (document : Layer) :
    CompiledTree.buildScene document document.placed
        (document.placed.map (CompiledTree.blueprintDistance traits version values)) =
      if CompiledTree.wantsScene document.placed then
        some { document.scene traits version with
          bindings := (document.scene traits version).bindings.map fun b =>
            { b with layer := (distancePlaces document.placed).getD b.layer 0 } }
      else none := by
  let plan := CompiledTree.blueprintDistance traits version values
  let entries := document.placed.zipIdx.filter fun entry => entry.1.layer.isDistance
  let pair (entry : PlacedLayer × Nat) : (PlacedLayer × CompiledLayer) × Nat :=
    ((entry.1, plan entry.1), entry.2)
  have pairs : ((document.placed.zip (document.placed.map plan)).zipIdx.filter
      fun entry => entry.1.1.layer.isDistance) = entries.map pair := by
    rw [← List.map_prod_left_eq_zip, List.zipIdx_map, List.filter_map]
    rfl
  have places : (entries.map pair).map Prod.snd = distancePlaces document.placed := by
    rw [List.map_map]
    exact map_snd_filter_zipIdx (·.layer.isDistance) 0 document.placed
  have stands := Stands.whole document.placed
  have roots := slots_sceneRootsAt none document 0 stands
  have parts := sceneParts_placedAt traits version none document 0 stands
  have parts : (entries.map pair).map (fun entry =>
      (⟨entry.1.2.id, entry.1.1.layer.source?.getD "",
        (match entry.1.2.kind with
          | .distance signature _ => signature.filter fun _ => !entry.1.2.hasErrors
          | _ => none),
        entry.1.2.uniforms, entry.1.1.children.filterMap (slotOf? document.placed)⟩ :
          SceneLayer)) =
      Solid.sceneLayers traits version document.solids := by
    rw [List.map_map]
    refine Eq.trans ?_ parts
    have filtered := map_fst_filter_zipIdx (fun one : PlacedLayer => one.layer.isDistance) 0
      document.placed
    rw [placed] at filtered
    rw [← filtered, List.map_map]
    refine List.map_congr_left fun entry among => ?_
    exact scenePart_blueprint traits version document.placed (List.mem_filter.mp among).2
  by_cases wants : CompiledTree.wantsScene document.placed = true
  · have built : CompiledTree.buildScene document document.placed (document.placed.map plan) =
        let pairs := (document.placed.zip (document.placed.map plan)).zipIdx.filter
          fun entry => entry.1.1.layer.isDistance
        let places := pairs.map Prod.snd
        let scene := Scene.build (pairs.map fun entry =>
          ⟨entry.1.2.id, entry.1.1.layer.source?.getD "",
            (match entry.1.2.kind with
              | .distance signature _ => signature.filter fun _ => !entry.1.2.hasErrors
              | _ => none),
            entry.1.2.uniforms, entry.1.1.children.filterMap places.idxOf?⟩)
          (document.sceneRoots.filterMap places.idxOf?)
        some { scene with
          bindings := scene.bindings.map fun b => { b with layer := places.getD b.layer 0 } } := by
      unfold CompiledTree.buildScene
      exact if_pos wants
    rw [if_pos wants, built, pairs]
    dsimp only
    rw [places]
    have parts := parts
    have roots := roots
    unfold slotOf? at parts roots
    rw [parts]
    unfold sceneRoots
    rw [roots]
    rfl
  · unfold CompiledTree.buildScene
    rw [if_neg wants, if_neg wants]

/-- A slot of the scene belongs to the distance layer at its place. -/
theorem exists_distancePlace (document : Layer) {slot : Nat} {part : SceneLayer}
    (there : (Solid.sceneLayers traits version document.solids)[slot]? = some part) :
    ∃ one, document.placed[(distancePlaces document.placed).getD slot 0]? = some one ∧
      one.layer.isDistance = true ∧ part = scenePart traits version document.placed one := by
  have parts := sceneParts_placedAt traits version none document 0 (Stands.whole document.placed)
  have found : ((document.placed.filter (·.layer.isDistance)).map
      (scenePart traits version document.placed))[slot]? = some part :=
    (congrArg (·[slot]?) parts).trans there
  rw [List.getElem?_map] at found
  obtain ⟨one, among, rfl⟩ := Option.map_eq_some_iff.mp found
  obtain ⟨inside, rfl⟩ := List.getElem?_eq_some_iff.mp among
  refine ⟨_, ?_, (List.mem_filter.mp (List.getElem_mem inside)).2, rfl⟩
  have placed : slot < (distancePlaces document.placed).length := by
    rw [distancePlaces, List.length_findIdxs, List.countP_eq_length_filter]
    exact inside
  rw [List.getD_eq_getElem?_getD, List.getElem?_eq_getElem placed, Option.getD_some,
    List.getElem_filter_eq_getElem_getElem_findIdxs]
  exact List.getElem?_eq_getElem _

end

end Layer

/-- A uniform of a scene belongs to one of its layers. -/
theorem Scene.layer_lt_of_mem_bindings {layers : List SceneLayer} {roots : List Nat}
    {binding : SceneBinding} (h : binding ∈ (Scene.build layers roots).bindings) :
    binding.layer < layers.length := by
  obtain ⟨emitted, among, bound⟩ := List.mem_flatMap.mp h
  obtain ⟨node, -, rfl⟩ := List.mem_map.mp among
  unfold emitNode at bound
  cases owner : node.owner with
  | union index =>
    rw [owner] at bound
    cases bound
  | layer index =>
    rw [owner] at bound
    dsimp only at bound
    cases found : layers[index]? with
    | none =>
      rw [found] at bound
      cases bound
    | some layer =>
      rw [found] at bound
      obtain ⟨place, inside, rfl⟩ := List.mem_mapIdx.mp bound
      exact (List.getElem?_eq_some_iff.mp found).1

end Collage
