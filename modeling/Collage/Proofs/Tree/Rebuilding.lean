import Collage.Proofs.Tree.Blueprint
import Collage.Proofs.Tree.Workshop
import Mathlib.Data.List.Induction
import Mathlib.Data.Set.Function

/-!
# Compiling again

A document that is compiled with an earlier tree takes over the values of that tree, and
its programs where the source is the same.  `Layer.revalue` puts the values into the
document instead.  Places, roots and scenes do not depend on values, so the blueprint with
the values of the tree is that of the revalued document with its own
(`blueprint_revalue`); and as compiling goes by the blueprint either way, compiling again
gives what compiling anew gives, but for handles and locations (`recompile_eq_compile`).
-/

namespace Collage

open Device Collage.Action

/-! ### Documents with other values -/

namespace Layer

mutual

/-- A layer and all it holds with the values that are known of their ids, and else their own. -/
def revalue (values : String → Option (List ShaderValue)) : Layer → Layer
  | group head blend opacity children => group head blend opacity (revalueIn values children)
  | code language head blend opacity source stored =>
    code language head blend opacity source ((values head.id).getD stored)
  | distance head source stored operands =>
    distance head source ((values head.id).getD stored) (revalueIn values operands)

/-- Layers with the values that are known of their ids. -/
def revalueIn (values : String → Option (List ShaderValue)) : List Layer → List Layer
  | [] => []
  | layer :: rest => revalue values layer :: revalueIn values rest

end

variable (values : String → Option (List ShaderValue))

theorem isDistance_revalue (layer : Layer) : (layer.revalue values).isDistance = layer.isDistance := by
  cases layer <;> rw [revalue] <;> rfl

theorem fits_revalue (inDistance : Bool) (layer : Layer) :
    fits inDistance (layer.revalue values) = fits inDistance layer := by
  rw [fits, fits, isDistance_revalue]

mutual

theorem placeCount_revalue : ∀ layer : Layer, placeCount (layer.revalue values) = placeCount layer
  | group head blend opacity children => by
    rw [revalue, placeCount, placeCount, placeCountIn_revalue]
  | code .. => by rw [revalue, placeCount, placeCount]
  | distance head source stored operands => by
    rw [revalue, placeCount, placeCount, placeCountIn_revalue]

theorem placeCountIn_revalue (inDistance : Bool) :
    ∀ layers : List Layer, placeCountIn inDistance (revalueIn values layers) =
      placeCountIn inDistance layers
  | [] => by rw [revalueIn]
  | layer :: rest => by
    rw [revalueIn, placeCountIn, placeCountIn, fits_revalue, placeCount_revalue layer,
      placeCountIn_revalue inDistance rest]

end

theorem childPlaces_revalue (inDistance : Bool) (place : Nat) (layers : List Layer) :
    childPlaces inDistance place (revalueIn values layers) =
      childPlaces inDistance place layers := by
  induction layers generalizing place with
  | nil => rw [revalueIn]
  | cons layer rest ih =>
    rw [revalueIn, childPlaces, childPlaces, fits_revalue, placeCount_revalue, ih, ih]

end Layer

/-- A placed layer with other values. -/
def PlacedLayer.revalue (values : String → Option (List ShaderValue)) (placed : PlacedLayer) :
    PlacedLayer :=
  { placed with layer := placed.layer.revalue values }

namespace Layer

variable (values : String → Option (List ShaderValue))

mutual

theorem placedAt_revalue (parent : Option Nat) (place : Nat) : ∀ layer : Layer,
    placedAt parent place (layer.revalue values) =
      (placedAt parent place layer).map (PlacedLayer.revalue values)
  | group head blend opacity children => by
    rw [revalue, placedAt, placedAt, List.map_cons, childPlaces_revalue,
      placedIn_revalue false place (place + 1) children, PlacedLayer.revalue, revalue]
  | code .. => by
    rw [revalue, placedAt, placedAt, List.map_singleton, PlacedLayer.revalue, revalue]
  | distance head source stored operands => by
    rw [revalue, placedAt, placedAt, List.map_cons, childPlaces_revalue,
      placedIn_revalue true place (place + 1) operands, PlacedLayer.revalue, revalue]

theorem placedIn_revalue (inDistance : Bool) (parent place : Nat) : ∀ layers : List Layer,
    placedIn inDistance parent place (revalueIn values layers) =
      (placedIn inDistance parent place layers).map (PlacedLayer.revalue values)
  | [] => by rw [revalueIn, placedIn, List.map_nil]
  | layer :: rest => by
    rw [revalueIn, placedIn, placedIn, fits_revalue, placeCount_revalue,
      placedAt_revalue (some parent) place layer,
      placedIn_revalue inDistance parent place rest,
      placedIn_revalue inDistance parent (place + placeCount layer) rest]
    split
    · rw [List.map_append]
    · rfl

end

theorem placed_revalue (document : Layer) :
    (document.revalue values).placed = document.placed.map (PlacedLayer.revalue values) :=
  placedAt_revalue values none 0 document

mutual

theorem sceneRootsAt_revalue (place : Nat) : ∀ layer : Layer,
    sceneRootsAt place (layer.revalue values) = sceneRootsAt place layer
  | group head blend opacity children => by
    rw [revalue, sceneRootsAt, sceneRootsAt, sceneRootsIn_revalue (place + 1) children]
  | code .. => by rw [revalue, sceneRootsAt, sceneRootsAt]
  | distance .. => by rw [revalue, sceneRootsAt, sceneRootsAt]

theorem sceneRootsIn_revalue (place : Nat) : ∀ layers : List Layer,
    sceneRootsIn place (revalueIn values layers) = sceneRootsIn place layers
  | [] => by rw [revalueIn]
  | layer :: rest => by
    rw [revalueIn, sceneRootsIn, sceneRootsIn, placeCount_revalue,
      sceneRootsAt_revalue place layer, sceneRootsIn_revalue (place + placeCount layer) rest]

end

theorem sceneRoots_revalue (document : Layer) :
    (document.revalue values).sceneRoots = document.sceneRoots :=
  sceneRootsAt_revalue values 0 document

theorem source?_revalue (layer : Layer) : (layer.revalue values).source? = layer.source? := by
  cases layer <;> rw [revalue] <;> rfl

end Layer

namespace CompiledTree

/-! ### Blueprints of documents with other values -/

/-- The values that are known of the id of a layer, and else its own. -/
def knownValues (values : String → Option (List ShaderValue)) (layer : Layer) :
    List ShaderValue :=
  (values layer.id).getD layer.values

variable (traits : DeviceTraits) (version : String)
  (values : String → Option (List ShaderValue))

theorem blueprintDistance_revalue (placed : PlacedLayer) :
    blueprintDistance traits version Layer.values (placed.revalue values) =
      blueprintDistance traits version (knownValues values) placed := by
  obtain ⟨layer, parent, children⟩ := placed
  cases layer with
  | group => rw [PlacedLayer.revalue, Layer.revalue]; rfl
  | code language => cases language <;> rw [PlacedLayer.revalue, Layer.revalue] <;> rfl
  | distance => rw [PlacedLayer.revalue, Layer.revalue]; rfl

theorem blueprintCode_revalue (scene : Option Scene) (placed : PlacedLayer)
    (start : CompiledLayer) :
    blueprintCode traits version Layer.values scene (placed.revalue values, start) =
      blueprintCode traits version (knownValues values) scene (placed, start) := by
  obtain ⟨layer, parent, children⟩ := placed
  cases layer with
  | group => rw [PlacedLayer.revalue, Layer.revalue]; rfl
  | code language => cases language <;> rw [PlacedLayer.revalue, Layer.revalue] <;> rfl
  | distance => rw [PlacedLayer.revalue, Layer.revalue]; rfl

theorem wantsScene_revalue (placed : List PlacedLayer) :
    wantsScene (placed.map (PlacedLayer.revalue values)) = wantsScene placed := by
  unfold wantsScene
  rw [List.any_map]
  refine congrArg _ (funext fun ⟨layer, parent, children⟩ => ?_)
  rw [Function.comp_apply, PlacedLayer.revalue]
  cases layer with
  | group => rw [Layer.revalue]
  | code language => cases language <;> rw [Layer.revalue]
  | distance => rw [Layer.revalue]

theorem buildScene_revalue (document : Layer) (placed : List PlacedLayer)
    (layers : List CompiledLayer) :
    buildScene (document.revalue values) (placed.map (PlacedLayer.revalue values)) layers =
      buildScene document placed layers := by
  unfold buildScene
  rw [wantsScene_revalue, Layer.sceneRoots_revalue, List.zip_map_left, List.zipIdx_map,
    List.filter_map]
  simp only [List.map_map, Function.comp_def, Prod.map, PlacedLayer.revalue,
    Layer.isDistance_revalue, Layer.source?_revalue, id]

/-- **The blueprint with other values** is that of the document that has them. -/
theorem blueprint_revalue (document : Layer) :
    blueprint traits version Layer.values (document.revalue values) =
      blueprint traits version (knownValues values) document := by
  have first : (document.revalue values).placed.map
      (blueprintDistance traits version Layer.values) =
        document.placed.map (blueprintDistance traits version (knownValues values)) := by
    rw [Layer.placed_revalue, List.map_map]
    exact List.map_congr_left fun placed _ => blueprintDistance_revalue traits version values placed
  have last : ∀ (scene : Option Scene) (layers : List CompiledLayer),
      ((document.revalue values).placed.zip layers).map
          (blueprintCode traits version Layer.values scene) =
        (document.placed.zip layers).map
          (blueprintCode traits version (knownValues values) scene) := by
    intro scene layers
    rw [Layer.placed_revalue, List.zip_map_left, List.map_map]
    exact List.map_congr_left fun pair _ =>
      blueprintCode_revalue traits version values scene pair.1 pair.2
  unfold blueprint
  dsimp only
  rw [first, last, Layer.placed_revalue, buildScene_revalue]

/-! ### The values of an earlier tree -/

/-- The values of the last layer with an id. -/
def valuesOf? (tree : CompiledTree) (id : String) : Option (List ShaderValue) :=
  (tree.layers.reverse.find? (·.id = id)).map CompiledLayer.values

theorem get?_values (layers : List CompiledLayer) (id : String) :
    (layers.foldl (fun table layer => table.set layer.id layer.values) ({} : Table String _)).get?
        id = (layers.reverse.find? (·.id = id)).map CompiledLayer.values := by
  induction layers using List.reverseRec with
  | nil => rfl
  | append_singleton layers layer ih =>
    rw [List.foldl_append, List.foldl_cons, List.foldl_nil, List.reverse_append,
      List.reverse_singleton, List.singleton_append]
    by_cases here : layer.id = id
    · rw [here, Table.get?_set_self, List.find?_cons_of_pos (by simpa using here), Option.map_some]
    · rw [Table.get?_set_other _ _ (Ne.symm here), ih, List.find?_cons_of_neg (by simpa using here)]

/-- A layer starts from the values of the earlier tree if it had the layer. -/
theorem valuesFor_ofPrevious (tree : CompiledTree) (device : Device) :
    (Legacy.ofPrevious version (some tree) device).1.valuesFor = knownValues tree.valuesOf? := by
  have kept : (Legacy.ofTree version tree device).1.values =
      tree.layers.foldl (fun table layer => table.set layer.id layer.values) {} := by
    unfold Legacy.ofTree
    dsimp only
    split <;> rfl
  funext layer
  have same : Legacy.ofPrevious version (some tree) device = Legacy.ofTree version tree device := rfl
  rw [Legacy.valuesFor, same, kept, get?_values]
  rfl

theorem sources_blank (tree : CompiledTree) : tree.blank.sources = tree.sources := by
  have same : recorded? ∘ CompiledLayer.blank = recorded? := by
    funext ⟨_, _, _, _, _, _, _, _, _, kind⟩
    cases kind <;> rfl
  unfold sources blank
  dsimp only
  rw [List.filterMap_map, same]

theorem exists_of_map_ok {ε α β : Type} {f : α → β} {outcome : Except ε α} {value : β}
    (h : outcome.map f = .ok value) : ∃ before, outcome = .ok before ∧ f before = value := by
  cases outcome with
  | error failure => cases h
  | ok before => exact ⟨before, rfl, Except.ok.inj h⟩

theorem mem_sources {tree : CompiledTree} {program : Handle} {source : String}
    (inside : (program, source) ∈ tree.linked) : source ∈ tree.sources := by
  obtain ⟨layer, there, linked⟩ := List.mem_filterMap.mp inside
  refine List.mem_filterMap.mpr ⟨layer, there, ?_⟩
  obtain ⟨_, _, _, _, _, _, _, _, _, kind⟩ := layer
  cases kind with
  | shader shader =>
    obtain ⟨handle, -, same⟩ := Option.map_eq_some_iff.mp linked
    cases same
    rfl
  | group | distance | script => cases linked

end CompiledTree

/-! ### Compiling again and anew -/

/-- The fragment sources that the programs of a tree were linked from. -/
def Device.sourcesOf (device : Device) (tree : CompiledTree) : Set String :=
  {source | ∃ program ∈ tree.programs, device.linkedFrom.get? program = some source}

namespace Workshop

/-- **Compiling again gives what compiling anew gives.**  A steady device has come to a tree by
some history.  If no two of the sources involved have the same fingerprint, then compiling a
document with this tree as the earlier one, and compiling the document with the values of
the tree on any device that answers alike, end alike but for handles and locations; and
every program of the new tree was linked from the very source that the tree records. -/
theorem recompile_eq_compile {start fresh : Device} (tidy : start.Tidy)
    (steady : start.traits.Steady) (freshTidy : fresh.Tidy) (same : fresh.traits = start.traits)
    (calls : List TreeCall) {place : Nat} {tree : CompiledTree}
    (there : (run ⟨start, []⟩ calls).trees[place]? = some tree) (document : Layer)
    (version : String)
    (apart : ∀ new after,
      (CompiledTree.compile (document.revalue tree.valuesOf?) none version).runOn fresh =
        (.ok new, after) →
      Set.InjOn fingerprint
        ((run ⟨start, []⟩ calls).device.sourcesOf tree ∪ {source | source ∈ new.sources})) :
    let again :=
      (CompiledTree.compile document (some tree) version).runOn (run ⟨start, []⟩ calls).device
    let anew :=
      (CompiledTree.compile (document.revalue tree.valuesOf?) none version).runOn fresh
    again.1.map CompiledTree.blank = anew.1.map CompiledTree.blank ∧
      ∀ new, again.1 = .ok new → ∀ program source, (program, source) ∈ new.linked →
        again.2.linkedFrom.get? program = some source := by
  obtain ⟨estates, kept⟩ := (kept_start tidy).run calls
  generalize run ⟨start, []⟩ calls = workshop at there apart kept ⊢
  obtain ⟨owned, isOwned, -, holds⟩ := kept.split there
  have left : (Legacy.ofPrevious version (some tree) workshop.device).1.Left start.traits version
      _ _ owned (Legacy.ofPrevious version (some tree) workshop.device).2 :=
    Legacy.ofTree_left isOwned holds version
  have freshLeft : (Legacy.ofPrevious version none fresh).1.Left start.traits version
      fresh.shaders.entries fresh.linkedFrom.entries 0 (Legacy.ofPrevious version none fresh).2 :=
    ⟨rfl, same ▸ freshTidy⟩
  have anew := CompiledTree.compile_blueprint steady (document.revalue tree.valuesOf?) freshLeft
    fun _ _ _ _ _ inside => absurd inside (Multiset.notMem_zero _)
  have own : (Legacy.ofPrevious version none fresh).1.valuesFor = Layer.values := rfl
  rw [own, CompiledTree.blueprint_revalue] at anew
  -- the sources of what is owned are among those involved, and so are those of the blueprint
  have linked : ∀ entry ∈ owned, entry.2 ∈ workshop.device.sourcesOf tree := by
    intro entry inside
    refine ⟨entry.1, ?_, holds.get?_linkedFrom (Multiset.mem_add.mpr (.inl inside))⟩
    rw [← isOwned.programs_eq]
    exact List.mem_map.mpr ⟨entry, inside, rfl⟩
  have again := CompiledTree.compile_blueprint steady document left (by
    rw [CompiledTree.valuesFor_ofPrevious]
    intro plan planned text recorded entry inside collision
    rw [planned] at anew
    obtain ⟨new, ended, blank⟩ := CompiledTree.exists_of_map_ok anew
    rw [← CompiledTree.sources_blank, ← blank, CompiledTree.sources_blank] at recorded
    exact apart new _ (Prod.ext ended rfl) (.inl (linked entry inside)) (.inr recorded) collision)
  rw [CompiledTree.valuesFor_ofPrevious, ← anew] at again
  refine ⟨again, fun new ended program source recorded => ?_⟩
  obtain ⟨-, entries, newOwned, origin, newHolds⟩ :=
    Yields.of_ok (Prod.ext ended rfl) (CompiledTree.compile_yields document left)
  obtain ⟨entry, inside, backs⟩ := exists_of_mem_right newOwned.backed recorded
  rw [ended] at again
  obtain ⟨other, otherEnded, blank⟩ := CompiledTree.exists_of_map_ok again.symm
  have sources : ∀ text ∈ new.sources, text ∈ other.sources := by
    intro text inside
    rwa [← CompiledTree.sources_blank, blank, CompiledTree.sources_blank]
  have exact : entry.2 = source := by
    refine apart other _ (Prod.ext otherEnded rfl) ?_
      (.inr (sources _ (CompiledTree.mem_sources recorded))) backs.source
    exact (origin entry inside).imp (linked entry)
      fun new => sources _ (CompiledTree.mem_sources new)
  have found := newHolds.get?_linkedFrom (Multiset.mem_add.mpr (.inl inside))
  rwa [backs.program, exact] at found

theorem sources_blueprint_shader {traits : DeviceTraits} {version source : String}
    (works : traits.vertexRefusal? version = none)
    (plain : mentions source.toList "gSdf".toList = false)
    (known : Layer → List ShaderValue) (head : LayerHead) (values : List ShaderValue) :
    ∃ plan, CompiledTree.blueprint traits version known
        (.code .shader head .normal 1 source values) = .ok plan ∧
      plan.sources = [(CompiledTree.wrappedFor version none source).text] := by
  unfold CompiledTree.blueprint
  rw [works]
  refine ⟨_, rfl, ?_⟩
  unfold CompiledTree.sources
  dsimp only
  rw [CompiledTree.filterMap_spreadAudio CompiledTree.recorded? fun _ _ => rfl,
    CompiledTree.buildScene_of_plain plain]
  exact List.filterMap_cons_some (CompiledTree.recorded?_blueprintShader none source _ _)

/-- On a device without programs all that there are afterwards are those of the new tree. -/
theorem mem_sources_of_linkedFrom {device after : Device} {version : String} {document : Layer}
    {tree : CompiledTree}
    (left : (Legacy.ofPrevious version none device).1.Left {} version 0 0 0
      (Legacy.ofPrevious version none device).2)
    (ended : (CompiledTree.compile document none version).runOn device = (.ok tree, after))
    {program : Handle} {source : String}
    (found : after.linkedFrom.get? program = some source) : source ∈ tree.sources := by
  have yields := CompiledTree.compile_yields document left
  obtain ⟨-, entries, -, origin, holds⟩ := yields.of_ok ended
  have inside := holds.mem_of_get?_linkedFrom found
  rw [Multiset.add_zero] at inside
  exact CompiledTree.mem_sources ((origin _ inside).resolve_left (Multiset.notMem_zero _))

/-- A shader layer with one uniform. -/
def speedLayer (values : List ShaderValue) : Layer :=
  .code .shader ⟨"a", "", true⟩ .normal 1 "uniform float speed;" values

theorem revalue_speedLayer (known : String → Option (List ShaderValue)) (values : List ShaderValue) :
    (speedLayer values).revalue known = speedLayer ((known "a").getD values) := by
  rw [speedLayer, Layer.revalue, speedLayer]

theorem left_new (version : String) :
    (Legacy.ofPrevious version none ({} : Device)).1.Left {} version 0 0 0
      (Legacy.ofPrevious version none ({} : Device)).2 :=
  ⟨rfl, tidy_new {}⟩

/-- A new device compiles a shader layer that asks for no scene, and the tree records its one
source. -/
theorem compile_plain {source : String} (plain : mentions source.toList "gSdf".toList = false)
    (head : LayerHead) (values : List ShaderValue) :
    ∃ tree after,
      (CompiledTree.compile (.code .shader head .normal 1 source values) none "300 es").runOn
        ({} : Device) = (.ok tree, after) ∧
      tree.sources = [(CompiledTree.wrappedFor "300 es" none source).text] := by
  have works : ({} : DeviceTraits).vertexRefusal? "300 es" = none := rfl
  have planned := CompiledTree.compile_blueprint DeviceTraits.steady_new
    (.code .shader head .normal 1 source values)
    (left_new "300 es") fun _ _ _ _ _ inside => absurd inside (Multiset.notMem_zero _)
  obtain ⟨plan, same, one⟩ := sources_blueprint_shader works plain
    (Legacy.ofPrevious "300 es" none ({} : Device)).1.valuesFor head values
  rw [same] at planned
  obtain ⟨tree, ended, blank⟩ := CompiledTree.exists_of_map_ok planned
  refine ⟨tree, _, Prod.ext ended rfl, ?_⟩
  rw [← one, ← CompiledTree.sources_blank, blank, CompiledTree.sources_blank]

theorem compile_speedLayer (values : List ShaderValue) :
    ∃ tree after,
      (CompiledTree.compile (speedLayer values) none "300 es").runOn ({} : Device) =
        (.ok tree, after) ∧
      tree.sources = [(CompiledTree.wrappedFor "300 es" none "uniform float speed;").text] :=
  compile_plain (by decide) ⟨"a", "", true⟩ values

/-- A shader layer that is compiled again on a new device. -/
theorem recompile_eq_compile_shader :
    ∃ tree, (run ⟨{}, []⟩ [.compile (speedLayer []) none "300 es"]).trees[0]? = some tree ∧
      let again := (CompiledTree.compile (speedLayer []) (some tree) "300 es").runOn
        (run ⟨{}, []⟩ [.compile (speedLayer []) none "300 es"]).device
      let anew :=
        (CompiledTree.compile ((speedLayer []).revalue tree.valuesOf?) none "300 es").runOn {}
      again.1.map CompiledTree.blank = anew.1.map CompiledTree.blank ∧
        ∀ new, again.1 = .ok new → ∀ program source, (program, source) ∈ new.linked →
          again.2.linkedFrom.get? program = some source := by
  obtain ⟨tree, after, ended, one⟩ := compile_speedLayer []
  have ran : run ⟨{}, []⟩ [.compile (speedLayer []) none "300 es"] = ⟨after, [tree]⟩ := by
    rw [run_singleton]
    exact call_compile ended
  have there : (run ⟨{}, []⟩ [.compile (speedLayer []) none "300 es"]).trees[0]? = some tree := by
    rw [ran]
    rfl
  refine ⟨tree, there,
    recompile_eq_compile (tidy_new {}) DeviceTraits.steady_new (tidy_new {}) rfl _ there _ _ ?_⟩
  intro new later newEnded
  obtain ⟨other, last, otherEnded, otherOne⟩ := compile_speedLayer ((tree.valuesOf? "a").getD [])
  rw [revalue_speedLayer, otherEnded] at newEnded
  cases newEnded
  refine Set.Subsingleton.injOn (Set.subsingleton_of_subset_singleton (a :=
    (CompiledTree.wrappedFor "300 es" none "uniform float speed;").text) ?_) _
  rintro source (⟨program, -, found⟩ | recorded)
  · rw [ran] at found
    have recorded := mem_sources_of_linkedFrom (left_new "300 es") ended found
    rw [one] at recorded
    exact List.mem_singleton.mp recorded
  · have recorded : source ∈ new.sources := recorded
    rw [otherOne] at recorded
    exact List.mem_singleton.mp recorded

end Workshop
end Collage
