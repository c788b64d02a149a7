import Collage.Frame.Composite

/-!
# Frames and previews

`render` draws a frame of a compiled tree to the output.  Nothing of the pool
outlives a frame: what a failed frame still holds is taken back.  `previews` draws
single layers over a checkerboard with targets of their own, and `output` reads back
what the last frame left.
-/

namespace Collage

/-- What the host says about a frame. -/
structure FrameInput where
  /-- the time on the host's clock -/
  now : Float := 0
  /-- year, month, day and seconds since midnight -/
  date : List Float32 := [0, 0, 0, 0]
  pointer : Pointer := {}
  devices : InputDevices := {}
  /-- the last block of sound, if there is any -/
  audio : Option AudioFrame := none
  deriving Inhabited

namespace Renderer

variable {ℓ : Type}

/-! ### Reading back -/

/-- Reads a picture from what is drawn to. -/
def readPicture (width height : Nat) : Action (Renderer ℓ) Picture := do
  let renderer ← get
  let (bytes, device) := renderer.device.readPixels width height
  set { renderer with device }
  if bytes.length < 4 * (width * height) then
    throw (.device ⟨"read-back image", "pixel buffer does not hold " ++ toString width ++ "x" ++
      toString height ++ " RGBA texels"⟩)
  return Picture.ofBytesFromBottom width height bytes

/-- Reads the output. -/
def output : Action (Renderer ℓ) Picture := do
  let (width, height) := (← get).targets.outputSize
  changeDevice (·.bindFramebuffer none width height)
  readPicture width height

/-! ### Frames -/

section

variable [TextureLoader ℓ]

/-- Begins the next frame. -/
def beginFrame (input : FrameInput) : Action (Renderer ℓ) FrameContext := do
  let renderer ← get
  let (time, clock) := renderer.clock.advance input.now
  set { renderer with
    clock
    lastTime := time
    input := { renderer.input with frame := time.frame }
    stats := { frame := time.frame, time := time.time, deltaTime := time.delta } }
  return ⟨time, input.date, input.pointer, input.devices⟩

/-- Lets the levels follow the sound, and shows it to a tree that listens. -/
def hear (tree : CompiledTree) (elapsed : Float) (block : AudioFrame) (renderer : Renderer ℓ) :
    Renderer ℓ :=
  let levels := renderer.levels.follow renderer.options.audio block elapsed
  let device :=
    if tree.usesAudio then
      renderer.device.uploadTexture renderer.spectrum spectrumSize 2 block.bytes
    else renderer.device
  { renderer with levels, device }

/-- Looks for new textures. -/
def pollTextures (renderer : Renderer ℓ) : Renderer ℓ :=
  let state := TextureCache.poll ⟨renderer.device, renderer.loader, renderer.textures⟩
  { renderer with device := state.device, loader := state.loader, textures := state.cache }

/-- Draws a frame; a failure leaves targets in use. -/
def drawFrame (tree : CompiledTree) (input : FrameInput) : Action (Renderer ℓ) FrameStats := do
  let frame ← beginFrame input
  let uploads ← onExternal ExternalLayers.drain
  count fun stats => { stats with externalUploads := uploads }
  modify pollTextures
  match input.audio with
  | some block => modify (hear tree frame.time.delta block)
  | none => pure ()
  let start ← startTarget
  changeDevice (·.clear transparent)
  let read ← compositeTree tree frame start
  present read
  releaseTarget read
  return (← get).stats

/-- Draws a frame to the output. -/
def render (tree : CompiledTree) (input : FrameInput) : Action (Renderer ℓ) FrameStats :=
  fun renderer =>
    match drawFrame tree input renderer with
    | (.ok stats, renderer) => (.ok stats, renderer)
    | (.error failure, renderer) =>
      (.error failure, { renderer with targets := renderer.targets.reclaim.2 })

/-! ### Previews -/

/-- Draws the first layer with an id over a checkerboard, if it is a shader layer, and
reads it back. -/
def drawPreview (tree : CompiledTree) (frame : FrameContext) (id : String) :
    Action (Renderer ℓ) (String × Picture) := do
  match (tree.find? id).bind tree.layer? with
  | none => throw (.unknownLayer id)
  | some layer =>
    let start ← startTarget
    changeDevice (·.clear transparent)
    let board ← compositeCheckerboard frame start
    let read ←
      match layer.kind with
      | .shader shader => compositeShader tree frame layer shader 1 board
      | _ => pure board
    bindTarget read
    let (width, height) := (← get).targets.renderSize
    let picture ← (readPicture width height).followedBy (releaseTarget read)
    return (id, picture)

/-- Draws single layers over a checkerboard, in a size of their own. -/
def previews (tree : CompiledTree) (ids : List String) (width height : Nat)
    (date : List Float32) : Action (Renderer ℓ) (List (String × Picture)) := fun renderer =>
  match RenderTargets.create width height 1 renderer.device with
  | (.error failure, device) => (.error failure, { renderer with device })
  | (.ok pool, device) =>
    let frame : FrameContext := { time := renderer.lastTime, date }
    let (drawn, inner) :=
      (ids.mapM (drawPreview tree frame)) { renderer with device, targets := pool }
    let pool :=
      match drawn with
      | .ok _ => inner.targets
      | .error _ => inner.targets.reclaim.2
    let (deleted, device, _) := RenderTargets.delete (inner.device, pool)
    (drawn.bind fun pictures => deleted.map fun _ => pictures,
      { inner with device, targets := renderer.targets })

end

end Renderer
end Collage
