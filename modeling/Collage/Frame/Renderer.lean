import Collage.Frame.Clock
import Collage.Frame.External
import Collage.Frame.Input
import Collage.Frame.Targets
import Collage.Program.Standing
import Collage.Tree.Basic

/-!
# The renderer

A renderer owns a device and all that is needed to draw frames besides the programs
of the document: targets, standing programs, textures, and what is remembered from
frame to frame.  `create` and `destroy` make all of this and give it back; `resize`
and `prune` change it between frames.
-/

namespace Collage

/-- What a renderer is made with. -/
structure RendererOptions where
  width : Nat := 1920
  height : Nat := 1080
  antiAlias : Nat := 1
  /-- how many requests of a script layer may be outstanding -/
  framesAhead : Nat := 2
  /-- whether the output is turned upside down -/
  flipOutput : Bool := false
  version : String := "300 es"
  audio : AudioSettings := {}
  deriving Repr, DecidableEq, Inhabited

/-- The pointer, in pixels of the output from the lower left corner. -/
structure Pointer where
  x : Float32 := 0
  y : Float32 := 0
  down : Bool := false
  deriving Repr, Inhabited

/-- What a frame did. -/
structure FrameStats where
  frame : Nat := 0
  time : Float := 0
  deltaTime : Float := 0
  /-- layers drawn with a program -/
  layersDrawn : Nat := 0
  /-- layers drawn red because they have no program -/
  failedLayers : Nat := 0
  externalUploads : Nat := 0
  externalRequests : Nat := 0
  deriving Repr, Inhabited

/-- A renderer that loads textures with an `ℓ`. -/
structure Renderer (ℓ : Type) where
  device : Device
  options : RendererOptions
  targets : RenderTargets
  programs : StandingPrograms
  clock : FrameClock := {}
  lastTime : FrameTime := {}
  input : InputState := {}
  levels : AudioLevels := {}
  /-- the texture that shows the sound -/
  spectrum : Handle
  textures : TextureCache := {}
  loader : ℓ
  external : ExternalLayers
  /-- what has been done of the frame that is being drawn -/
  stats : FrameStats := {}

namespace Renderer

/-! ### Parts of a renderer -/

section

variable {ℓ α : Type}

/-- A change of the device. -/
def changeDevice (change : Device → Device) : Action (Renderer ℓ) Unit :=
  modify fun renderer => { renderer with device := change renderer.device }

/-- An action on the targets. -/
def onTargets (action : Action RenderTargets.State α) : Action (Renderer ℓ) α :=
  Action.within (fun renderer => (renderer.device, renderer.targets))
    (fun renderer (device, targets) => { renderer with device, targets }) action

/-- An action on the layers that are drawn elsewhere. -/
def onExternal (action : Action ExternalLayers.State α) : Action (Renderer ℓ) α :=
  Action.within (fun renderer => (renderer.device, renderer.external))
    (fun renderer (device, external) => { renderer with device, external }) action

/-- An action on the textures. -/
def onTextures (action : Action (TextureCache.State ℓ) α) : Action (Renderer ℓ) α :=
  Action.within (fun renderer => ⟨renderer.device, renderer.loader, renderer.textures⟩)
    (fun renderer state =>
      { renderer with device := state.device, loader := state.loader, textures := state.cache })
    action

/-- A change of what is remembered of the input. -/
def onInput (change : StateM InputState α) : Action (Renderer ℓ) α :=
  liftM (changePart (fun renderer : Renderer ℓ => renderer.input)
    (fun renderer input => { renderer with input }) change)

end

/-! ### Making a renderer and giving it back -/

/-- Makes a renderer on a device. -/
def create {ℓ : Type} (options : RendererOptions) (loader : ℓ) : Action Device (Renderer ℓ) := do
  let programs ← StandingPrograms.create options.version
  let targets ← RenderTargets.create options.width options.height options.antiAlias
  let spectrum ← TextureCache.newTexture .linear .clamp
  modify fun device => device.uploadTexture spectrum spectrumSize 2 ({} : AudioFrame).bytes
  return {
    device := ← get
    options, targets, programs, spectrum, loader
    external := ExternalLayers.create options.framesAhead }

section

variable {ℓ : Type}

/-- Gives back all that the renderer owns; what is left is the device. -/
def destroy : Action (Renderer ℓ) Unit := do
  onTargets RenderTargets.delete
  modify fun renderer =>
    let (device, textures) := TextureCache.clear renderer.device renderer.textures
    let (device, external) := ExternalLayers.clear device renderer.external
    let device := device.deleteTexture renderer.spectrum
    { renderer with device := renderer.programs.release device, textures, external }

/-! ### Between frames -/

/-- Makes new targets for a size and deletes the old ones. -/
def rebuildTargets (width height : Nat) : Action (Renderer ℓ) Unit := do
  let renderer ← get
  let rebuilt ← Action.within Renderer.device (fun renderer device => { renderer with device })
    (RenderTargets.create width height renderer.options.antiAlias)
  let stale := renderer.targets
  modify fun renderer => { renderer with targets := rebuilt }
  Action.within (fun renderer => (renderer.device, stale))
    (fun renderer (device, _) => { renderer with device }) RenderTargets.delete

/-- Changes the size of the output.  Without anti-aliasing the targets stay the same
ones. -/
def resize (width height : Nat) : Action (Renderer ℓ) Unit := do
  let renderer ← get
  if renderer.targets.outputSize = (max width 1, max height 1) then return
  if renderer.targets.antiAlias = 1 then onTargets (RenderTargets.resize width height)
  else rebuildTargets width height
  modify fun renderer => { renderer with
    options := { renderer.options with width, height } }

/-- Forgets what belongs to layers or values that a tree does not have. -/
def prune (tree : CompiledTree) (renderer : Renderer ℓ) : Renderer ℓ :=
  let live := tree.layerIds
  let (device, external) := ExternalLayers.retain live renderer.device renderer.external
  let (device, textures) := TextureCache.retain tree.textureKeys device renderer.textures
  { renderer with device, external, textures, input := renderer.input.retainLayers live }

end

end Renderer
end Collage
