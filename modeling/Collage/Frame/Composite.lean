import Collage.Frame.Evaluate

/-!
# Compositing

Layers are drawn from the back to the front.  Each is drawn into a target of its own
while its program reads the target that holds the result so far; then the two change
places and the older one is released.  A group that passes through draws its layers
as if they stood in its place; any other group draws them into a target of its own,
which is then drawn like a texture.

The functions here take the target that holds the result so far and give the one
that holds it afterwards.
-/

namespace Collage
namespace Renderer

variable {ℓ : Type}

/-! ### Units and colours -/

/-- The unit of the result so far. -/
def previousUnit : Nat := 0

/-- The unit of the sound. -/
def spectrumUnit : Nat := 1

/-- The first unit that is free for textures of uniforms. -/
def firstFreeUnit : Nat := 2

/-- What targets start from. -/
def transparent : Color Float32 := ⟨0, 0, 0, 0⟩

/-- What a layer without a program is drawn as. -/
def failedColor : Color Float32 := ⟨1, 0, 0, 1⟩

/-! ### Targets -/

/-- A target of the pool. -/
def target (id : Nat) : Action (Renderer ℓ) RenderTarget := do
  match (← get).targets.targets[id]? with
  | some target => return target
  | none => throw (.unknownTarget id)

/-- Makes a target what is drawn to. -/
def bindTarget (id : Nat) : Action (Renderer ℓ) Unit := do
  let target ← target id
  changeDevice (·.bindFramebuffer (some target.framebuffer) target.width target.height)

/-- Takes a target from the pool and draws to it. -/
def startTarget : Action (Renderer ℓ) Nat := do
  let out ← onTargets RenderTargets.request
  bindTarget out
  return out

/-- Gives a target back to the pool. -/
def releaseTarget (id : Nat) : Action (Renderer ℓ) Unit := do
  match (← get).targets.release id with
  | .ok targets => modify fun renderer => { renderer with targets }
  | .error failure => throw failure

/-- Lets `out` hold the result instead of `read`. -/
def swapRead (read out : Nat) : Action (Renderer ℓ) Nat := do
  releaseTarget read
  return out

/-- Counts something of the frame. -/
def count (change : FrameStats → FrameStats) : Action (Renderer ℓ) Unit :=
  modify fun renderer => { renderer with stats := change renderer.stats }

/-! ### The uniforms that every layer has -/

/-- What a layer is given besides its own uniforms. -/
def builtinWrites (locations : BuiltinLocations) (frame : FrameContext) (renderer : Renderer ℓ)
    (blend : BlendMode) (opacity : Float32) : List (Option Nat × UniformData) :=
  let (width, height) := renderer.targets.renderSize
  let scale := Float32.nearest renderer.targets.antiAlias
  let levels := renderer.levels
  let pointer := frame.pointer
  [ (locations.resolution, .floats [Float32.nearest width, Float32.nearest height]),
    (locations.time, .floats [frame.time.time.narrow]),
    (locations.deltaTime, .floats [frame.time.delta.narrow]),
    (locations.frame, .ints [wrap32 frame.time.frame]),
    (locations.pointer,
      .floats [pointer.x * scale, pointer.y * scale, if pointer.down then 1 else 0, 0]),
    (locations.date, .floats frame.date),
    (locations.previousLayer, .ints [previousUnit]),
    (locations.blendMode, .ints [blend.code]),
    (locations.opacity, .floats [Float32.within 0 1 opacity]),
    (locations.audioVolume, .floats [levels.volume]),
    (locations.audioPeak, .floats [levels.peak]),
    (locations.audioTrough, .floats [levels.trough]),
    (locations.audioReactive, .floats [levels.reactive]),
    (locations.audioSpectrum, .ints [spectrumUnit]) ]

/-- Writes a value where there is a place for it. -/
def writeAt (device : Device) : Option Nat × UniformData → Device
  | (some location, value) => device.setUniform location value
  | (none, _) => device

/-- Gives the current program what every layer is given. -/
def setBuiltins (locations : BuiltinLocations) (frame : FrameContext) (previous : Handle)
    (blend : BlendMode) (opacity : Float32) : Action (Renderer ℓ) Unit := do
  let renderer ← get
  let writes := builtinWrites locations frame renderer blend opacity
  changeDevice fun device =>
    let device := (writes.foldl writeAt device).bindTexture previousUnit (some previous)
    if locations.audioSpectrum.isSome then device.bindTexture spectrumUnit (some renderer.spectrum)
    else device

/-- Draws with a program, after `prepare` has given it what else it needs. -/
def drawWith (program : Handle) (locations : BuiltinLocations) (frame : FrameContext)
    (blend : BlendMode) (opacity : Float32) (read : Nat) (prepare : Action (Renderer ℓ) Unit) :
    Action (Renderer ℓ) Unit := do
  changeDevice (·.useProgram program)
  let previous ← target read
  setBuiltins locations frame previous.texture blend opacity
  prepare
  changeDevice Device.draw

/-! ### One layer -/

/-- Composites a texture like a layer. -/
def compositeTexture (texture : Handle) (frame : FrameContext) (blend : BlendMode)
    (opacity : Float32) (read : Nat) : Action (Renderer ℓ) Nat := do
  let out ← startTarget
  let standing := (← get).programs.texture
  drawWith standing.program standing.builtins frame blend opacity read
    (changeDevice fun device =>
      (device.bindTexture firstFreeUnit (some texture)).setUniform standing.texture
        (.ints [firstFreeUnit]))
  swapRead read out

/-- Composites a checkerboard. -/
def compositeCheckerboard (frame : FrameContext) (read : Nat) : Action (Renderer ℓ) Nat := do
  let out ← startTarget
  let standing := (← get).programs.checkerboard
  drawWith standing.program standing.builtins frame .normal 1 read (pure ())
  swapRead read out

/-- A uniform that a program has a place for, and the layer it belongs to. -/
structure PlacedUniform where
  layer : String
  location : Nat
  uniform : Uniform

/-- The uniforms that the program of a layer has places for: its own, then those of
the scene. -/
def placedUniforms (tree : CompiledTree) (layer : CompiledLayer) (shader : LayerProgram) :
    List PlacedUniform :=
  (layer.uniforms.filterMap fun uniform =>
    uniform.location.map fun location => ⟨layer.id, location, uniform⟩) ++
  (shader.sceneUniforms.filterMap fun binding => do
    let location ← binding.location
    let owner ← tree.layer? binding.layer
    let uniform ← owner.uniforms[binding.uniform]?
    return ⟨owner.id, location, uniform⟩)

section

variable [TextureLoader ℓ]

/-- Gives the current program the values of uniforms; `unit` is the next free unit. -/
def writeUniforms (frame : FrameContext) : Nat → List PlacedUniform → Action (Renderer ℓ) Unit
  | _, [] => return
  | unit, placed :: rest => do
    let (data, unit) ← uniformData frame unit placed.layer placed.uniform
    match data with
    | some value => changeDevice (·.setUniform placed.location value)
    | none => pure ()
    writeUniforms frame unit rest

/-- Composites a shader layer. -/
def compositeShader (tree : CompiledTree) (frame : FrameContext) (layer : CompiledLayer)
    (shader : LayerProgram) (scale : Float32) (read : Nat) : Action (Renderer ℓ) Nat := do
  let out ← startTarget
  match shader.program with
  | none =>
    changeDevice (·.clear failedColor)
    count fun stats => { stats with failedLayers := stats.failedLayers + 1 }
  | some program =>
    drawWith program shader.builtins frame layer.blend (layer.opacity * scale) read
      (writeUniforms frame firstFreeUnit (placedUniforms tree layer shader))
    count fun stats => { stats with layersDrawn := stats.layersDrawn + 1 }
  swapRead read out

/-- The values of the uniforms of a layer, by their names. -/
def uniformValues (frame : FrameContext) (layer : CompiledLayer) :
    Action (Renderer ℓ) (List (String × Json)) :=
  layer.uniforms.mapM fun uniform => do
    return (uniform.name, (← evaluate frame layer.id uniform).toJson)

/-- Makes a request for a script layer, if it may be made. -/
def requestScript (frame : FrameContext) (layer : CompiledLayer) (code : String) :
    Action (Renderer ℓ) Unit := do
  if (← get).external.wantsRequest layer.id then
    let uniforms ← uniformValues frame layer
    let (width, height) := (← get).targets.outputSize
    let pointer := frame.pointer
    let globals : ExternalGlobals :=
      { time := frame.time.time
        deltaTime := frame.time.delta
        frame := frame.time.frame
        resolution := (width, height)
        pointer := [pointer.x, pointer.y, if pointer.down then 1 else 0] }
    modify fun renderer =>
      let (_, external) := renderer.external.request layer.id fun number =>
        { layer := layer.id, number, code, globals, uniforms, width, height }
      { renderer with external }
    count fun stats => { stats with externalRequests := stats.externalRequests + 1 }

/-- Makes a request for a script layer, and composites the last picture of it. -/
def compositeScript (frame : FrameContext) (layer : CompiledLayer) (code : String)
    (scale : Float32) (read : Nat) : Action (Renderer ℓ) Nat := do
  requestScript frame layer code
  match (← get).external.texture? layer.id with
  | none => return read
  | some texture =>
    count fun stats => { stats with layersDrawn := stats.layersDrawn + 1 }
    compositeTexture texture frame layer.blend (layer.opacity * scale) read

/-! ### All layers -/

/-- Composites layers one after another, the last one first. -/
def compositeEach (step : Nat → Nat → Action (Renderer ℓ) Nat) (read : Nat)
    (children : List Nat) : Action (Renderer ℓ) Nat :=
  children.reverse.foldlM step read

/-- Composites a group on its own: `inside` draws its layers onto a transparent
target. -/
def compositeIsolated (frame : FrameContext) (layer : CompiledLayer) (scale : Float32)
    (read : Nat) (inside : Nat → Action (Renderer ℓ) Nat) : Action (Renderer ℓ) Nat := do
  let start ← startTarget
  changeDevice (·.clear transparent)
  let isolated ← inside start
  let shown ← target isolated
  (compositeTexture shown.texture frame layer.blend (layer.opacity * scale) read).followedBy
    (releaseTarget isolated)

/-- Composites the layer at a place, given enough steps for how deep layers are
nested. -/
def compositeLayer (tree : CompiledTree) (frame : FrameContext) :
    Nat → Float32 → Nat → Nat → Action (Renderer ℓ) Nat
  | 0, _, read, _ => return read
  | steps + 1, scale, read, place => do
    match (tree.layer? place).filter (·.visible) with
    | none => return read
    | some layer =>
      match layer.kind with
      | .group children =>
        if layer.blend = .passThrough then
          compositeEach
            (compositeLayer tree frame steps (scale * Float32.within 0 1 layer.opacity)) read
            children
        else
          compositeIsolated frame layer scale read fun read =>
            compositeEach (compositeLayer tree frame steps 1) read children
      | .shader shader => compositeShader tree frame layer shader scale read
      | .script code => compositeScript frame layer code scale read
      | .distance .. => return read

/-- Composites a tree.  The layers of a group at the root are drawn whatever its blend
mode and opacity. -/
def compositeTree (tree : CompiledTree) (frame : FrameContext) (read : Nat) :
    Action (Renderer ℓ) Nat :=
  let step := compositeLayer tree frame tree.layers.length 1
  match (tree.layer? CompiledTree.rootPlace).filter (·.visible) with
  | some { kind := .group children, .. } => compositeEach step read children
  | _ => step read CompiledTree.rootPlace

end

/-! ### The output -/

/-- Copies a texture to what is drawn to. -/
def copyFrom (texture : Handle) : Action (Renderer ℓ) Unit :=
  changeDevice fun device => (device.bindTexture previousUnit (some texture)).draw

/-- Copies a texture down the ladder; gives the texture at its end. -/
def descend : Handle → List Nat → Action (Renderer ℓ) Handle
  | texture, [] => return texture
  | texture, rung :: rest => do
    bindTarget rung
    copyFrom texture
    let rung ← target rung
    descend rung.texture rest

/-- Shows a target: copies it down the ladder and to the output. -/
def present (read : Nat) : Action (Renderer ℓ) Unit := do
  let renderer ← get
  let copy := renderer.programs.copy
  changeDevice fun device =>
    (device.useProgram copy.program).setUniform copy.texture (.ints [previousUnit])
  let shown ← target read
  changeDevice (·.setUniform copy.flip (.ints [0]))
  let texture ← descend shown.texture renderer.targets.ladder
  let (width, height) := renderer.targets.outputSize
  changeDevice fun device =>
    let device := device.bindFramebuffer none width height
    let device := device.bindTexture previousUnit (some texture)
    let device := device.setUniform copy.flip (.ints [if renderer.options.flipOutput then 1 else 0])
    device.draw.bindTexture previousUnit none

end Renderer
end Collage
