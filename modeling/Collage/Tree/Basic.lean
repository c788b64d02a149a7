import Collage.Frame.Textures
import Collage.Program.Build
import Collage.Scene.Emit

/-!
# Compiled trees

A compiled tree holds the layers of a document in one list, each layer before the
ones inside it and the root first; layers refer to each other by their places.
Layers that a distance layer cannot combine are left out with all they hold.
`Layer.placed` lists the layers of a document in this order, and `sceneRoots`
the distance layers that stand in no other.
-/

namespace Collage

/-- A uniform of a distance layer as a program keeps it that includes the scene. -/
structure SceneUniform where
  layer : Nat
  uniform : Nat
  location : Option Nat
  deriving Repr, DecidableEq, Inhabited

/-- What a shader layer became. -/
structure LayerProgram where
  /-- none when the code could not be built; the layer is then drawn red -/
  program : Option Handle := none
  /-- the complete fragment source -/
  source : String := ""
  builtins : BuiltinLocations := {}
  sceneUniforms : List SceneUniform := []
  usesScene : Bool := false
  deriving Repr, DecidableEq, Inhabited

/-- What a layer became, by its kind. -/
inductive CompiledKind
  | group (children : List Nat)
  | shader (program : LayerProgram)
  | distance (signature : Option Signature) (children : List Nat)
  | script (code : String)
  deriving Inhabited

/-- A layer of a compiled tree. -/
structure CompiledLayer where
  id : String
  name : String
  parent : Option Nat
  visible : Bool
  blend : BlendMode
  opacity : Float32
  uniforms : List Uniform := []
  errors : List Diagnostic := []
  usesAudio : Bool := false
  kind : CompiledKind
  deriving Inhabited

namespace CompiledLayer

/-- The places of the layers inside. -/
def children (layer : CompiledLayer) : List Nat :=
  match layer.kind with
  | .group children => children
  | .distance _ children => children
  | .shader _ | .script _ => []

/-- The program of a shader layer that could be built. -/
def program? (layer : CompiledLayer) : Option Handle :=
  match layer.kind with
  | .shader shader => shader.program
  | _ => none

/-- Whether the layer is a group. -/
def isGroup (layer : CompiledLayer) : Bool :=
  match layer.kind with
  | .group _ => true
  | _ => false

/-- Whether the layer is a distance layer. -/
def isDistance (layer : CompiledLayer) : Bool :=
  match layer.kind with
  | .distance .. => true
  | _ => false

/-- Whether something is so wrong that the code cannot be used. -/
def hasErrors (layer : CompiledLayer) : Bool :=
  layer.errors.any Diagnostic.isError

/-- The values of the uniforms. -/
def values (layer : CompiledLayer) : List ShaderValue :=
  layer.uniforms.map (·.value)

end CompiledLayer

/-- A compiled document.  It owns the programs of its layers and what they were
built with. -/
structure CompiledTree where
  layers : List CompiledLayer
  scene : Option Scene
  builder : ProgramBuilder
  deriving Inhabited

namespace CompiledTree

/-- The place of the root. -/
def rootPlace : Nat := 0

/-- The layer at a place. -/
def layer? (tree : CompiledTree) (place : Nat) : Option CompiledLayer :=
  tree.layers[place]?

/-- The place of the first layer with an id. -/
def find? (tree : CompiledTree) (id : String) : Option Nat :=
  tree.layers.findIdx? (·.id = id)

/-- All that is wrong, with the id of the layer. -/
def errors (tree : CompiledTree) : List (String × Diagnostic) :=
  tree.layers.flatMap fun layer => layer.errors.map fun error => (layer.id, error)

/-- Whether the code of a layer cannot be used. -/
def hasErrors (tree : CompiledTree) : Bool :=
  tree.layers.any CompiledLayer.hasErrors

/-- Whether the document listens to sound. -/
def usesAudio (tree : CompiledTree) : Bool :=
  (tree.layer? rootPlace).any (·.usesAudio)

/-- The ids of the layers. -/
def layerIds (tree : CompiledTree) : List String :=
  tree.layers.map (·.id)

/-- The textures that the uniforms show. -/
def textureKeys (tree : CompiledTree) : List TextureKey :=
  (tree.layers.flatMap fun layer =>
    layer.uniforms.filterMap fun uniform => TextureKey.ofValue? uniform.value.value).eraseDups

/-- The programs of the layers. -/
def programs (tree : CompiledTree) : List Handle :=
  tree.layers.filterMap CompiledLayer.program?

/-- Deletes all that the tree owns. -/
def destroy (tree : CompiledTree) (device : Device) : Device :=
  tree.builder.release (tree.programs.foldl (fun device program => device.deleteProgram program) device)

end CompiledTree

/-! ### Places -/

/-- A layer of a document with the places of its parent and of what it holds. -/
structure PlacedLayer where
  layer : Layer
  parent : Option Nat
  children : List Nat

namespace Layer

/-- Whether a layer can stand in a distance layer, or elsewhere. -/
def fits (inDistance : Bool) (layer : Layer) : Bool :=
  !inDistance || layer.isDistance

mutual

/-- How many places a layer takes with all it holds. -/
def placeCount : Layer → Nat
  | group _ _ _ children => 1 + placeCountIn false children
  | code .. => 1
  | distance _ _ _ operands => 1 + placeCountIn true operands

/-- How many places layers take. -/
def placeCountIn (inDistance : Bool) : List Layer → Nat
  | [] => 0
  | layer :: rest =>
    (if fits inDistance layer then placeCount layer else 0) + placeCountIn inDistance rest

end

/-- The places of layers, when the first of them is at `place`. -/
def childPlaces (inDistance : Bool) (place : Nat) : List Layer → List Nat
  | [] => []
  | layer :: rest =>
    if fits inDistance layer then
      place :: childPlaces inDistance (place + placeCount layer) rest
    else childPlaces inDistance place rest

mutual

/-- A layer at `place` and all it holds. -/
def placedAt (parent : Option Nat) (place : Nat) : Layer → List PlacedLayer
  | group head blend opacity children =>
    ⟨group head blend opacity children, parent, childPlaces false (place + 1) children⟩ ::
      placedIn false place (place + 1) children
  | code language head blend opacity source values =>
    [⟨code language head blend opacity source values, parent, []⟩]
  | distance head source values operands =>
    ⟨distance head source values operands, parent, childPlaces true (place + 1) operands⟩ ::
      placedIn true place (place + 1) operands

/-- Layers inside the one at `parent`, the first of them at `place`. -/
def placedIn (inDistance : Bool) (parent place : Nat) : List Layer → List PlacedLayer
  | [] => []
  | layer :: rest =>
    if fits inDistance layer then
      placedAt (some parent) place layer ++
        placedIn inDistance parent (place + placeCount layer) rest
    else placedIn inDistance parent place rest

end

/-- The layers of a document by their places. -/
def placed (document : Layer) : List PlacedLayer :=
  placedAt none 0 document

mutual

/-- The places of the distance layers that stand in no other, the lowest first,
when the layer is at `place`. -/
def sceneRootsAt (place : Nat) : Layer → List Nat
  | group _ _ _ children => sceneRootsIn (place + 1) children
  | code .. => []
  | distance .. => [place]

/-- The same of layers, when the first of them is at `place`. -/
def sceneRootsIn (place : Nat) : List Layer → List Nat
  | [] => []
  | layer :: rest => sceneRootsIn (place + placeCount layer) rest ++ sceneRootsAt place layer

end

/-- The places of the distance layers that stand in no other, the lowest first. -/
def sceneRoots (document : Layer) : List Nat :=
  sceneRootsAt 0 document

end Layer
end Collage
