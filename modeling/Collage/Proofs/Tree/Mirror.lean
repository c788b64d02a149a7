import Collage.Proofs.Scene.Twins
import Collage.Proofs.Tree.Paths
import Collage.Proofs.Tree.Serving

/-!
# A compiled tree mirrors its document

The list of layers that a document is compiled to is the document over again: one layer for each
path that leaves nothing out, in the order of a walk, tied to its parent and its children by places
(`CompiledTree.Mirrors`).  The distance layers that stand in no other are those whose parent is no
distance layer (`Layer.sceneRoots_eq`), and what a scene binds are uniforms of distance layers that
one of its nodes shows (`buildScene_bindings`).
-/

namespace Collage
namespace Layer

variable {document : Layer}

/-! ### Parents and children -/

theorem exists_path {place : Nat} {placed : PlacedLayer}
    (there : document.placed[place]? = some placed) :
    ∃ path, document.paths[place]? = some path ∧ Standing document path placed :=
  CompiledTree.exists_getElem?_of_forall₂ document.standing_placed there

theorem standing_of_getElem? {place : Nat} {path : List Nat} {placed : PlacedLayer}
    (path_there : document.paths[place]? = some path)
    (there : document.placed[place]? = some placed) : Standing document path placed :=
  (CompiledTree.forall₂_iff_getElem?.mp document.standing_placed).2 place path placed path_there
    there

theorem place_eq {place other : Nat} {path : List Nat}
    (here : document.paths[place]? = some path) (there : document.paths[other]? = some path) :
    place = other := by
  obtain ⟨short, same⟩ := List.getElem?_eq_some_iff.mp here
  obtain ⟨short', same'⟩ := List.getElem?_eq_some_iff.mp there
  exact (document.nodup_paths.getElem_inj_iff).mp (same.trans same'.symm)

/-- The children of a placed layer are those that stand one step on. -/
theorem Standing.mem_children_iff {path : List Nat} {placed : PlacedLayer} {child : Nat}
    (standing : Standing document path placed) :
    child ∈ placed.children ↔ ∃ index, document.paths[child]? = some (path ++ [index]) := by
  constructor
  · intro inside
    have found := List.mem_map_of_mem (f := (document.paths[·]?)) inside
    rw [standing.children] at found
    obtain ⟨index, -, same⟩ := List.mem_map.mp found
    exact ⟨index, same.symm⟩
  · rintro ⟨index, found⟩
    obtain ⟨leads, kept⟩ := mem_paths_iff.mp (List.mem_of_getElem? found)
    rw [layerAt?_concat, standing.layer] at leads
    obtain ⟨inner, held⟩ := Option.isSome_iff_exists.mp leads
    have fit : fits placed.layer.isDistance inner = true := by
      by_contra unfit
      obtain ⟨distance, other⟩ := fits_eq_false_iff.mp (Bool.eq_false_of_not_eq_true unfit)
      exact kept ⟨path, index, placed.layer, inner, List.prefix_rfl, standing.layer, held, distance,
        other⟩
    have step : index ∈ placed.layer.children.findIdxs (fits placed.layer.isDistance) := by
      obtain ⟨short, rfl⟩ := List.getElem?_eq_some_iff.mp held
      exact (List.mem_findIdxs_iff_pos_getElem short).mpr fit
    have among := List.mem_map_of_mem (f := fun index => some (path ++ [index])) step
    rw [← standing.children] at among
    obtain ⟨other, inside, same⟩ := List.mem_map.mp among
    rwa [place_eq found same]

theorem Standing.parent_iff {path : List Nat} {placed : PlacedLayer} {holder : Nat}
    (standing : Standing document path placed) :
    placed.parent = some holder ↔
      ∃ above index, document.paths[holder]? = some above ∧ path = above ++ [index] := by
  have parent := standing.parent
  constructor
  · intro same
    rw [same, Option.map_some] at parent
    split at parent
    · cases parent
    · rename_i inner
      exact ⟨path.dropLast, path.getLast inner, Option.some.inj parent,
        (List.dropLast_concat_getLast inner).symm⟩
  · rintro ⟨above, index, found, rfl⟩
    rw [if_neg (List.concat_ne_nil _ _), List.dropLast_concat] at parent
    obtain ⟨other, same, found'⟩ := Option.map_eq_some_iff.mp parent
    rw [same, place_eq found' found]

/-- **A layer has a parent just when it is a child of it.** -/
theorem parent_iff_mem_children {holder child : Nat} :
    (∃ placed, document.placed[child]? = some placed ∧ placed.parent = some holder) ↔
      ∃ placed, document.placed[holder]? = some placed ∧ child ∈ placed.children := by
  have same := document.standing_placed.length_eq
  constructor
  · rintro ⟨placed, there, parent⟩
    obtain ⟨path, path_there, standing⟩ := exists_path there
    obtain ⟨above, index, found, rfl⟩ := standing.parent_iff.mp parent
    have short := same ▸ (List.getElem?_eq_some_iff.mp found).1
    have held := List.getElem?_eq_getElem short
    exact ⟨_, held, (standing_of_getElem? found held).mem_children_iff.mpr ⟨index, path_there⟩⟩
  · rintro ⟨holding, there, inside⟩
    obtain ⟨above, found, standing⟩ := exists_path there
    obtain ⟨index, path_there⟩ := standing.mem_children_iff.mp inside
    have short := same ▸ (List.getElem?_eq_some_iff.mp path_there).1
    have held := List.getElem?_eq_getElem short
    exact ⟨_, held,
      (standing_of_getElem? path_there held).parent_iff.mpr ⟨above, index, found, rfl⟩⟩

theorem Standing.holds_eq {path : List Nat} {placed : PlacedLayer}
    (standing : Standing document path placed) : placed.holds = placed.children := by
  obtain ⟨layer, parent, children⟩ := placed
  cases layer with
  | group | distance => rfl
  | code => exact (List.map_eq_nil_iff.mp standing.children).symm

theorem lt_of_mem_children {holder child : Nat} {placed : PlacedLayer}
    (there : document.placed[holder]? = some placed) (inside : child ∈ placed.children) :
    holder < child := by
  obtain ⟨path, -, standing⟩ := exists_path there
  rw [← standing.holds_eq] at inside
  obtain ⟨i, -, later, rfl, -⟩ := document.nested_placed.inside holder placed there child inside
  omega

/-! ### The roots of the scene -/

/-- Whether a layer is a distance layer that stands in no other. -/
def outermost (placed : List PlacedLayer) (one : PlacedLayer) : Bool :=
  one.layer.isDistance && !(one.parent.bind (placed[·]?)).any (·.layer.isDistance)

variable {placed : List PlacedLayer}

mutual

/-- What a distance layer combines is not outermost. -/
theorem outermost_placedAt {parent place : Nat} : ∀ {layer : Layer}, layer.isDistance = true →
    (placed[parent]?).any (·.layer.isDistance) = true →
    Stands placed place (placedAt (some parent) place layer) →
    ∀ one ∈ placedAt (some parent) place layer, outermost placed one = false
  | group .., other, _, _ => by cases other
  | code .., other, _, _ => by cases other
  | distance head source values operands, _, above, stands => by
    rw [placedAt] at stands ⊢
    refine List.forall_mem_cons.mpr ⟨?_, outermost_placedIn ?_ stands.tail⟩
    · rw [outermost, Option.bind_some, above]
      rfl
    · rw [stands.head]
      rfl

theorem outermost_placedIn {parent place : Nat} : ∀ {layers : List Layer},
    (placed[parent]?).any (·.layer.isDistance) = true →
    Stands placed place (placedIn true parent place layers) →
    ∀ one ∈ placedIn true parent place layers, outermost placed one = false
  | [], _, _ => by
    rw [placedIn]
    exact List.forall_mem_nil _
  | layer :: rest, above, stands => by
    rw [placedIn] at stands ⊢
    by_cases fit : fits true layer = true
    · rw [if_pos fit] at stands ⊢
      have behind := stands.right
      rw [length_placedAt] at behind
      exact List.forall_mem_append.mpr
        ⟨outermost_placedAt fit above stands.left, outermost_placedIn above behind⟩
    · rw [if_neg fit] at stands ⊢
      exact outermost_placedIn above stands

end

mutual

theorem sceneRootsAt_eq {parent : Option Nat} {place : Nat} : ∀ {layer : Layer},
    (parent.bind (placed[·]?)).any (·.layer.isDistance) = false →
    Stands placed place (placedAt parent place layer) →
    sceneRootsAt place layer =
      ((placedAt parent place layer).findIdxs (outermost placed) place).reverse
  | group head blend opacity children, _, stands => by
    rw [placedAt] at stands ⊢
    have first : outermost placed ⟨group head blend opacity children, parent,
        childPlaces false (place + 1) children⟩ = false := rfl
    rw [sceneRootsAt, List.findIdxs_cons, first, if_neg Bool.false_ne_true]
    exact sceneRootsIn_eq (by rw [stands.head]; rfl) stands.tail
  | code .., _, _ => rfl
  | distance head source values operands, above, stands => by
    rw [placedAt] at stands ⊢
    have first : outermost placed ⟨distance head source values operands, parent,
        childPlaces true (place + 1) operands⟩ = true := by
      rw [outermost, above]
      rfl
    have none : (placedIn true place (place + 1) operands).findIdxs (outermost placed)
        (place + 1) = [] :=
      List.findIdxs_eq_nil_iff.mpr (outermost_placedIn (by rw [stands.head]; rfl) stands.tail)
    rw [sceneRootsAt, List.findIdxs_cons, if_pos first, none, List.reverse_singleton]

theorem sceneRootsIn_eq {parent place : Nat} : ∀ {layers : List Layer},
    (placed[parent]?).any (·.layer.isDistance) = false →
    Stands placed place (placedIn false parent place layers) →
    sceneRootsIn place layers =
      ((placedIn false parent place layers).findIdxs (outermost placed) place).reverse
  | [], _, _ => rfl
  | layer :: rest, above, stands => by
    have fit : fits false layer = true := rfl
    rw [placedIn, if_pos fit] at stands ⊢
    have behind := stands.right
    rw [length_placedAt] at behind
    have here := @sceneRootsAt_eq (some parent) place layer above stands.left
    rw [sceneRootsIn, List.findIdxs_append, List.reverse_append, length_placedAt,
      sceneRootsIn_eq above behind, here]

end

/-- **The roots of a scene** are the distance layers that stand in no other, from back to front. -/
theorem sceneRoots_eq (document : Layer) :
    document.sceneRoots = (document.placed.findIdxs (outermost document.placed)).reverse :=
  sceneRootsAt_eq rfl (Stands.whole document.placed)

end Layer

/-! ### What a scene binds -/

/-- What is bound is a uniform of the layer that a node shows, under the name that it has there. -/
theorem Scene.of_mem_bindings {layers : List SceneLayer} {roots : List Nat}
    {binding : SceneBinding} (bound : binding ∈ (build layers roots).bindings) :
    ∃ node ∈ (build layers roots).graph.nodes, ∃ layer uniform,
      node.owner = .layer binding.layer ∧ layers[binding.layer]? = some layer ∧
      layer.uniforms[binding.uniform]? = some uniform ∧
      binding.name = Mangle.mangled uniform.name (Mangle.suffix node.id layer.id) := by
  obtain ⟨emitted, among, bound⟩ := List.mem_flatMap.mp bound
  obtain ⟨node, inside, rfl⟩ := List.mem_map.mp among
  obtain ⟨owner, layer, there⟩ := owner_of_mem_bindings bound
  refine ⟨node, inside, layer, ?_⟩
  rw [emitNode, owner] at bound
  dsimp only at bound
  rw [there] at bound
  obtain ⟨place, short, same⟩ := List.mem_mapIdx.mp bound
  obtain rfl : place = binding.uniform := congrArg SceneBinding.uniform same
  exact ⟨layer.uniforms[binding.uniform], owner, there, List.getElem?_eq_getElem short,
    (congrArg SceneBinding.name same).symm⟩

theorem getElem?_of_filter_zipIdx {α : Type} {p : α → Bool} {items : List α} {slot place : Nat}
    {item : α}
    (there : ((items.zipIdx).filter fun entry => p entry.1)[slot]? = some (item, place)) :
    items[place]? = some item ∧ p item = true ∧ (items.findIdxs p)[slot]? = some place := by
  obtain ⟨inside, fits⟩ := List.mem_filter.mp (List.mem_of_getElem? there)
  refine ⟨List.mem_zipIdx_iff_getElem?.mp inside, fits, ?_⟩
  rw [← map_snd_filter_zipIdx, List.getElem?_map, there]
  rfl

namespace CompiledTree

/-- **What a scene binds** are uniforms of the distance layers that its nodes show, under the names
that they have in these nodes. -/
theorem buildScene_bindings {document : Layer} {placed : List PlacedLayer}
    {layers : List CompiledLayer} (length : placed.length = layers.length) {scene : Scene}
    (built : buildScene document placed layers = some scene) {binding : SceneBinding}
    (bound : binding ∈ scene.bindings) :
    ∃ node ∈ scene.graph.nodes, ∃ slot layer uniform, node.owner = .layer slot ∧
      (distancePlaces placed)[slot]? = some binding.layer ∧
      layers[binding.layer]? = some layer ∧ layer.uniforms[binding.uniform]? = some uniform ∧
      binding.name = Mangle.mangled uniform.name (Mangle.suffix node.id layer.id) := by
  unfold buildScene at built
  split at built
  · cases built
    obtain ⟨inner, inside, rfl⟩ := List.mem_map.mp bound
    obtain ⟨node, among, part, uniform, owner, there, declared, name⟩ :=
      Scene.of_mem_bindings inside
    rw [List.getElem?_map] at there
    obtain ⟨⟨pair, place⟩, kept, rfl⟩ := Option.map_eq_some_iff.mp there
    obtain ⟨zipped, -, slot⟩ := getElem?_of_filter_zipIdx
      (p := fun pair : PlacedLayer × CompiledLayer => pair.1.layer.isDistance) kept
    have left : (placed.zip layers).map Prod.fst = placed := List.map_fst_zip length.le
    have right : (placed.zip layers).map Prod.snd = layers := List.map_snd_zip length.ge
    have places : (placed.zip layers).findIdxs (fun pair => pair.1.layer.isDistance) =
        distancePlaces placed := by
      rw [distancePlaces]
      conv_rhs => rw [← left, List.findIdxs_map]
      rfl
    have found : layers[place]? = some pair.2 := by
      rw [← right, List.getElem?_map, zipped]
      rfl
    refine ⟨node, among, inner.layer, pair.2, uniform, owner, ?_⟩
    dsimp only
    rw [List.getD_eq_getElem?_getD, List.getElem?_map, kept, Option.map_some, Option.getD_some]
    exact ⟨places ▸ slot, found, declared, name⟩
  · cases built

end CompiledTree

/-! ### What compiled layers keep of a document -/

/-- A kind without what building made of it. -/
def CompiledKind.outline : CompiledKind → CompiledKind
  | .shader _ => .shader {}
  | .distance _ children => .distance none children
  | other => other

/-- A layer without what building made of it. -/
def CompiledLayer.outline (layer : CompiledLayer) : CompiledLayer :=
  { layer with uniforms := [], errors := [], usesAudio := false, kind := layer.kind.outline }

theorem CompiledKind.of_outline {kind other : CompiledKind} (same : kind.outline = other) :
    match other with
    | .group children => kind = .group children
    | .shader _ => ∃ program, kind = .shader program
    | .distance _ children => ∃ signature, kind = .distance signature children
    | .script code => kind = .script code := by
  subst same
  cases kind with
  | group | script => rfl
  | shader program => exact ⟨program, rfl⟩
  | distance signature => exact ⟨signature, rfl⟩

namespace CompiledTree

variable {builder : ProgramBuilder} {legacy : Legacy} {document : Layer}

theorem outline_compileDistance (legacy : Legacy) (placed : PlacedLayer) (device : Device) :
    (compileDistance builder legacy placed device).1.outline = startLayer placed := by
  obtain ⟨layer, parent, children⟩ := placed
  cases layer with
  | group => rfl
  | code language => cases language <;> rfl
  | distance head source values operands =>
    obtain ⟨signature, errors, made⟩ := compileDistance_distance builder legacy head source
      values operands parent children device
    rw [made]
    rfl

theorem outline_compileCode (scene : Option Scene) {placed : PlacedLayer} {start : CompiledLayer}
    (same : start.outline = startLayer placed) (state : BuildState) :
    (compileCode builder legacy scene (placed, start) state).1.outline = startLayer placed := by
  obtain ⟨layer, parent, children⟩ := placed
  cases layer with
  | group | distance => exact same
  | code language head blend opacity source values =>
    cases language with
    | script => exact same
    | shader =>
      obtain ⟨uniforms, errors, program, made, -⟩ := compileShader_made scene
        (.code .shader head blend opacity source values) source start state
      have done : (doneShader start source uniforms errors program).outline =
          { start.outline with kind := .shader {} } := rfl
      rw [compileCode_shader, made, done, same]
      rfl

/-- **What the two passes leave**: a layer keeps what it has before anything is built, and the scene
is made of distance layers as they are in the tree. -/
theorem outlines_of_compile {previous : Option CompiledTree} {version : String}
    {device after : Device} {tree : CompiledTree}
    (compiled : (compile document previous version).runOn device = (.ok tree, after)) :
    List.Forall₂ (fun placed layer => layer.outline = startLayer placed) document.placed
      tree.layers ∧
    ∃ started, tree.scene = buildScene document document.placed started ∧
      document.placed.length = started.length ∧
      ∀ (place : Nat) (one : PlacedLayer) (start : CompiledLayer),
        document.placed[place]? = some one → started[place]? = some start →
        one.layer.isDistance = true →
        ∃ layer, tree.layers[place]? = some layer ∧ layer.id = start.id ∧
          layer.uniforms = start.uniforms := by
  obtain ⟨started, layers, scene, spread, firsts, lasts⟩ := compile_stages
    (fun placed layer => layer.outline = startLayer placed)
    (fun _ _ placed start layer => layer.outline = startLayer placed ∧
      (placed.layer.isDistance = true → layer = start)) compiled
    (fun _ placed state => outline_compileDistance _ placed state) (by
      intro builder scene placed start state same
      refine ⟨outline_compileCode scene same state, fun distance => ?_⟩
      obtain ⟨layer, parent, children⟩ := placed
      cases layer with
      | group | code => cases distance
      | distance => rfl)
  have placed : (document.placed.zip started).map Prod.fst = document.placed :=
    List.map_fst_zip firsts.length_eq.le
  constructor
  · have each : List.Forall₂ (fun placed outline => outline = startLayer placed)
        ((document.placed.zip started).map Prod.fst) (layers.map CompiledLayer.outline) :=
      List.forall₂_map_left_iff.mpr
        (List.forall₂_map_right_iff.mpr (lasts.imp fun _ _ both => both.1))
    rw [placed, ← map_spreadAudio CompiledLayer.outline fun _ _ => rfl, ← spread] at each
    exact List.forall₂_map_right_iff.mp each
  · refine ⟨started, scene, firsts.length_eq, fun place one start there here distance => ?_⟩
    have zipped : (document.placed.zip started)[place]? = some (one, start) :=
      List.getElem?_zip_eq_some.mpr ⟨there, here⟩
    have short := lasts.length_eq ▸ (List.getElem?_eq_some_iff.mp zipped).1
    have last := (forall₂_iff_getElem?.mp lasts).2 place _ _ zipped (List.getElem?_eq_getElem short)
    have view := map_spreadAudio (fun layer => (layer.id, layer.uniforms)) (fun _ _ => rfl) layers
    have found := congrArg (·[place]?) view
    rw [List.getElem?_map, List.getElem?_map, List.getElem?_eq_getElem short, last.2 distance,
      ← spread] at found
    obtain ⟨layer, inside, same⟩ := Option.map_eq_some_iff.mp found
    exact ⟨layer, inside, (Prod.mk.inj same).1, (Prod.mk.inj same).2⟩

/-! ### The mirror -/

/-- Whether a compiled layer says of itself what a layer of a document says; a distance layer says
nothing of blending. -/
def CompiledFrom (layer : Layer) (compiled : CompiledLayer) : Prop :=
  compiled.id = layer.id ∧ compiled.name = layer.name ∧ compiled.visible = layer.visible ∧
  match layer with
  | .group _ blend opacity _ => compiled.blend = blend ∧ compiled.opacity = opacity ∧
    ∃ children, compiled.kind = .group children
  | .code .shader _ blend opacity _ _ => compiled.blend = blend ∧ compiled.opacity = opacity ∧
    ∃ program, compiled.kind = .shader program
  | .code .script _ blend opacity source _ => compiled.blend = blend ∧ compiled.opacity = opacity ∧
    compiled.kind = .script source
  | .distance .. => compiled.blend = .normal ∧ compiled.opacity = 1 ∧
    ∃ signature children, compiled.kind = .distance signature children

theorem CompiledFrom.isDistance_eq {layer : Layer} {compiled : CompiledLayer}
    (made : CompiledFrom layer compiled) : compiled.isDistance = layer.isDistance := by
  obtain ⟨-, -, -, rest⟩ := made
  unfold CompiledLayer.isDistance
  cases layer with
  | group =>
    obtain ⟨-, -, _, kind⟩ := rest
    rw [kind]
    rfl
  | distance =>
    obtain ⟨-, -, _, _, kind⟩ := rest
    rw [kind]
    rfl
  | code language =>
    cases language with
    | shader =>
      obtain ⟨-, -, _, kind⟩ := rest
      rw [kind]
      rfl
    | script =>
      obtain ⟨-, -, kind⟩ := rest
      rw [kind]
      rfl

/-- What a placed layer was compiled to. -/
structure Made (placed : PlacedLayer) (compiled : CompiledLayer) : Prop where
  made : CompiledFrom placed.layer compiled
  parent : compiled.parent = placed.parent
  children : compiled.children = placed.children

/-- A layer with the outline of what it was before anything was built. -/
theorem made_of_outline {placed : PlacedLayer} {compiled : CompiledLayer}
    (holds : placed.holds = placed.children) (same : compiled.outline = startLayer placed) :
    Made placed compiled := by
  have kind := CompiledKind.of_outline (congrArg CompiledLayer.kind same)
  obtain ⟨layer, parent, children⟩ := placed
  have own : compiled.id = layer.id ∧ compiled.name = layer.name ∧
      compiled.visible = layer.visible ∧ compiled.parent = parent := by
    refine ⟨(congrArg (·.id) same).trans ?_, (congrArg (·.name) same).trans ?_,
      (congrArg (·.visible) same).trans ?_, (congrArg (·.parent) same).trans ?_⟩ <;>
    cases layer with
    | group | distance => rfl
    | code language => cases language <;> rfl
  obtain ⟨id, name, visible, above⟩ := own
  cases layer with
  | group =>
    have kind : compiled.kind = .group children := kind
    refine
      ⟨⟨id, name, visible, congrArg (·.blend) same, congrArg (·.opacity) same, _, kind⟩, above, ?_⟩
    rw [CompiledLayer.children, kind]
  | distance =>
    obtain ⟨signature, kind⟩ : ∃ signature, compiled.kind = .distance signature children := kind
    refine ⟨⟨id, name, visible, congrArg (·.blend) same, congrArg (·.opacity) same, _, _, kind⟩,
      above, ?_⟩
    rw [CompiledLayer.children, kind]
  | code language head blend opacity source values =>
    cases language with
    | shader =>
      obtain ⟨program, kind⟩ : ∃ program, compiled.kind = .shader program := kind
      refine ⟨⟨id, name, visible, congrArg (·.blend) same, congrArg (·.opacity) same, _, kind⟩,
        above, ?_⟩
      rw [CompiledLayer.children, kind]
      exact holds
    | script =>
      have kind : compiled.kind = .script source := kind
      refine ⟨⟨id, name, visible, congrArg (·.blend) same, congrArg (·.opacity) same, kind⟩,
        above, ?_⟩
      rw [CompiledLayer.children, kind]
      exact holds

theorem findIdxs_congr {α β : Type} {R : α → β → Prop} {p : α → Bool} {q : β → Bool} {as : List α}
    {bs : List β} (related : List.Forall₂ R as bs) (same : ∀ a b, R a b → p a = q b) :
    as.findIdxs p = bs.findIdxs q := by
  have same : as.map p = bs.map q := by
    rw [← List.forall₂_eq_eq_eq, List.forall₂_map_left_iff, List.forall₂_map_right_iff]
    exact related.imp same
  have found := congrArg (List.findIdxs id) same
  rwa [List.findIdxs_map, List.findIdxs_map] at found

theorem made_of_outlines {layers : List CompiledLayer}
    (outlines : List.Forall₂ (fun placed layer => layer.outline = startLayer placed) document.placed
      layers) : List.Forall₂ Made document.placed layers := by
  obtain ⟨length, each⟩ := forall₂_iff_getElem?.mp outlines
  refine forall₂_iff_getElem?.mpr ⟨length, fun place placed compiled there here => ?_⟩
  obtain ⟨path, -, standing⟩ := Layer.exists_path there
  exact made_of_outline standing.holds_eq (each place placed compiled there here)

section

variable {tree : CompiledTree} (each : List.Forall₂ Made document.placed tree.layers)

include each

theorem placed_of_made {place : Nat} {compiled : CompiledLayer}
    (here : tree.layer? place = some compiled) :
    ∃ placed, document.placed[place]? = some placed ∧ Made placed compiled :=
  exists_getElem?_of_forall₂ each here

theorem layer_of_made {place : Nat} {placed : PlacedLayer}
    (there : document.placed[place]? = some placed) :
    ∃ compiled, tree.layer? place = some compiled ∧ Made placed compiled :=
  exists_getElem?_of_forall₂ each.flip there

theorem parent_iff_of_made (holder child : Nat) :
    (∃ compiled, tree.layer? child = some compiled ∧ compiled.parent = some holder) ↔
      ∃ compiled, tree.layer? holder = some compiled ∧ child ∈ compiled.children := by
  constructor
  · rintro ⟨compiled, here, parent⟩
    obtain ⟨placed, there, made⟩ := placed_of_made each here
    obtain ⟨above, held, inside⟩ :=
      Layer.parent_iff_mem_children.mp ⟨placed, there, made.parent ▸ parent⟩
    obtain ⟨holding, here', made'⟩ := layer_of_made each held
    exact ⟨holding, here', made'.children ▸ inside⟩
  · rintro ⟨holding, here, inside⟩
    obtain ⟨above, held, made⟩ := placed_of_made each here
    obtain ⟨placed, there, parent⟩ :=
      Layer.parent_iff_mem_children.mpr ⟨above, held, made.children ▸ inside⟩
    obtain ⟨compiled, here', made'⟩ := layer_of_made each there
    exact ⟨compiled, here', made'.parent.trans parent⟩

theorem any_isDistance_of_made (place : Nat) : (document.placed[place]?).any (·.layer.isDistance) =
    (tree.layer? place).any (·.isDistance) := by
  cases here : tree.layer? place with
  | none =>
    have short := List.getElem?_eq_none_iff.mp here
    rw [List.getElem?_eq_none (each.length_eq ▸ short)]
    rfl
  | some compiled =>
    obtain ⟨placed, there, made⟩ := placed_of_made each here
    rw [there, Option.any_some, Option.any_some, made.made.isDistance_eq]

theorem sceneRoots_of_made : document.sceneRoots = (tree.layers.findIdxs fun layer =>
    layer.isDistance && !(layer.parent.bind tree.layer?).any (·.isDistance)).reverse := by
  rw [Layer.sceneRoots_eq]
  refine congrArg List.reverse (findIdxs_congr each fun placed compiled made => ?_)
  rw [Layer.outermost, made.made.isDistance_eq, made.parent]
  cases placed.parent with
  | none => rfl
  | some place => rw [Option.bind_some, Option.bind_some, any_isDistance_of_made each]

end

/-- What the scene of a compiled tree binds is a uniform of a distance layer that one of its nodes
shows, under the name that it has there. -/
theorem binding_of_compile {document : Layer} {previous : Option CompiledTree} {version : String}
    {device after : Device} {tree : CompiledTree}
    (compiled : (compile document previous version).runOn device = (.ok tree, after))
    {scene : Scene} (is : tree.scene = some scene) {binding : SceneBinding}
    (bound : binding ∈ scene.bindings) :
    ∃ node ∈ scene.graph.nodes, ∃ slot layer uniform, node.owner = .layer slot ∧
      (tree.layers.findIdxs (·.isDistance))[slot]? = some binding.layer ∧
      tree.layer? binding.layer = some layer ∧ layer.isDistance = true ∧
      layer.uniforms[binding.uniform]? = some uniform ∧
      binding.name = Mangle.mangled uniform.name (Mangle.suffix node.id layer.id) := by
  obtain ⟨outlines, started, built, length, kept⟩ := outlines_of_compile compiled
  have each := made_of_outlines outlines
  rw [is] at built
  obtain ⟨node, among, slot, start, uniform, owner, place, began, declared, name⟩ :=
    buildScene_bindings length built.symm bound
  have slots : distancePlaces document.placed = tree.layers.findIdxs (·.isDistance) :=
    findIdxs_congr each fun _ _ made => made.made.isDistance_eq.symm
  obtain ⟨short, distance⟩ :=
    List.mem_findIdxs_iff_exists_getElem_pos.mp (List.mem_of_getElem? place)
  obtain ⟨layer, here, id, uniforms⟩ :=
    kept _ _ start (List.getElem?_eq_getElem short) began distance
  obtain ⟨placed, there, made⟩ := placed_of_made each here
  cases (List.getElem?_eq_getElem short).symm.trans there
  exact ⟨node, among, slot, layer, uniform, owner, slots ▸ place, here,
    made.made.isDistance_eq.trans distance, uniforms ▸ declared, id ▸ name⟩

/-- Whether a tree has the layers of a document in the order of its paths, tied to each other as
these are, and the scene of its distance layers. -/
structure Mirrors (tree : CompiledTree) (document : Layer) : Prop where
  /-- at each place stands what the layer at its path was compiled to -/
  layers : List.Forall₂ (fun path compiled => ∃ layer, document.layerAt? path = some layer ∧
    CompiledFrom layer compiled) document.paths tree.layers
  /-- the children of a layer are those of the document that fit, in their order -/
  children : ∀ place path layer compiled, document.paths[place]? = some path →
    document.layerAt? path = some layer → tree.layer? place = some compiled →
    compiled.children.map (document.paths[·]?) =
      (layer.children.findIdxs (Layer.fits layer.isDistance)).map fun index =>
        some (path ++ [index])
  parent_iff : ∀ holder child,
    (∃ compiled, tree.layer? child = some compiled ∧ compiled.parent = some holder) ↔
      ∃ compiled, tree.layer? holder = some compiled ∧ child ∈ compiled.children
  parent_lt : ∀ child compiled holder, tree.layer? child = some compiled →
    compiled.parent = some holder → holder < child
  /-- the roots of the scene are the distance layers with no such parent, each once -/
  roots : document.sceneRoots = (tree.layers.findIdxs fun layer =>
    layer.isDistance && !(layer.parent.bind tree.layer?).any (·.isDistance)).reverse
  /-- what the scene binds is a uniform of a distance layer that one of its nodes shows -/
  bindings : ∀ scene ∈ tree.scene, ∀ binding ∈ scene.bindings,
    ∃ node ∈ scene.graph.nodes, ∃ slot layer uniform, node.owner = .layer slot ∧
      (tree.layers.findIdxs (·.isDistance))[slot]? = some binding.layer ∧
      tree.layer? binding.layer = some layer ∧ layer.isDistance = true ∧
      layer.uniforms[binding.uniform]? = some uniform ∧
      binding.name = Mangle.mangled uniform.name (Mangle.suffix node.id layer.id)

/-- **A compiled tree mirrors its document.**  The paths of a document, which are all that leave
nothing out, are in the order of a walk with the outermost layer first; and a tree that the document
is compiled to, with any earlier tree and on any device, has a layer for each of them. -/
theorem compile_mirrors {document : Layer} {previous : Option CompiledTree} {version : String}
    {device after : Device} {tree : CompiledTree}
    (compiled : (compile document previous version).runOn device = (.ok tree, after)) :
    document.paths.Pairwise (List.Lex (· < ·)) ∧ document.paths[rootPlace]? = some [] ∧
    (∀ path, path ∈ document.paths ↔
      (document.layerAt? path).isSome = true ∧ ¬ document.LeavesOut path) ∧
    tree.Mirrors document := by
  refine ⟨document.paths_pairwise, by rw [Layer.paths_eq]; rfl, fun _ => Layer.mem_paths_iff, ?_⟩
  have each := made_of_outlines (outlines_of_compile compiled).1
  constructor
  case layers =>
    refine forall₂_iff_getElem?.mpr ⟨document.standing_placed.length_eq.trans each.length_eq, ?_⟩
    intro place path compiled here there
    obtain ⟨placed, there, made⟩ := placed_of_made each there
    exact ⟨placed.layer, (Layer.standing_of_getElem? here there).layer, made.made⟩
  case children =>
    intro place path layer compiled here leads there
    obtain ⟨placed, there, made⟩ := placed_of_made each there
    have standing := Layer.standing_of_getElem? here there
    cases standing.layer.symm.trans leads
    exact made.children ▸ standing.children
  case parent_iff => exact parent_iff_of_made each
  case parent_lt =>
    intro child compiled holder here parent
    obtain ⟨holding, there, inside⟩ :=
      (parent_iff_of_made each holder child).mp ⟨compiled, here, parent⟩
    obtain ⟨placed, there, made⟩ := placed_of_made each there
    exact Layer.lt_of_mem_children there (made.children ▸ inside)
  case roots => exact sceneRoots_of_made each
  case bindings => exact fun scene is binding bound => binding_of_compile compiled is bound

/-- A document with layers that a distance layer leaves out, one of which holds another. -/
def nested : Layer :=
  .group ⟨"root", "", true⟩ .normal 1 [
    .code .shader ⟨"a", "", true⟩ .normal 1 "uniform float speed;" [],
    .distance ⟨"b", "", true⟩ "uniform float radius;" [] [
      .distance ⟨"c", "", true⟩ "" [] [],
      .code .shader ⟨"d", "", true⟩ .normal 1 "uniform float speed;" [],
      .group ⟨"e", "", true⟩ .normal 1 [.distance ⟨"f", "", true⟩ "" [] []]],
    .group ⟨"g", "", true⟩ .normal 1 [
      .distance ⟨"h", "", true⟩ "" [] [],
      .code .script ⟨"i", "", true⟩ .normal 1 "" []]]

/-- The layers that are left out have no path. -/
theorem compile_mirrors_nested :
    nested.paths = [[], [0], [1], [1, 0], [2], [2, 0], [2, 1]] ∧ nested.sceneRoots = [5, 2] ∧
    ∃ tree after, (compile nested none "300 es").runOn ({} : Device) = (.ok tree, after) ∧
      tree.Mirrors nested := by
  obtain ⟨tree, after, compiled⟩ := compile_new nested
  exact ⟨rfl, rfl, tree, after, compiled, (compile_mirrors compiled).2.2.2⟩

end CompiledTree
end Collage
