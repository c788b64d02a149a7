import Collage.Proofs.Device.Canvas
import Collage.Frame.Composite
import Collage.Proofs.Frame.LayerTree

/-!
# Compositing pictures

What compositing means, without targets: a layer takes the picture below it and gives a
picture, and pictures never change.  What stays the same for a whole frame is a
`Studio`; what goes on from layer to layer is a `Memory`: the state of the input, the
requests that script layers have made, the values that programs keep, and the pictures
of samplers and gradients.

`Studio.paint` is the recursion on layers and `Studio.composed` the picture of a frame;
`Copying.output` says what becomes of it on the output.
-/

namespace Collage

/-! ### Values -/

namespace InputState

/-- The value that a uniform has without a curve. -/
def storedValue (frame : FrameContext) (layer : String) (uniform : Uniform) :
    StateM InputState FrameValue := do
  let key := inputKey layer uniform.name false
  match uniform.value.value with
  | .button bindings =>
    let state ← evaluateButton key bindings frame.devices frame.time.time
    return .button (state.toUniform frame.time.time)
  | .axis bindings =>
    let value ← evaluateAxis key bindings frame.devices
    return .float value
  | other => return .stored other

/-- The value of a uniform in a frame.  Only numbers follow curves. -/
def frameValue (frame : FrameContext) (levels : AudioLevels) (layer : String)
    (uniform : Uniform) : StateM InputState FrameValue := do
  match uniform.value.curve with
  | none => storedValue frame layer uniform
  | some curve =>
    let value ← curve.evaluate (inputKey layer uniform.name true)
      ⟨frame.time.time, levels, frame.devices⟩
    match uniform.value.value with
    | .float _ => return .float value
    | .int _ => return .int (value.integerPart .floor)
    | _ => storedValue frame layer uniform

end InputState

/-- What a program is given for a value that is no texture. -/
def FrameValue.data : FrameValue → Option UniformData
  | .float value => some (.floats [value.narrow])
  | .int value => some (.ints [wrap32 value])
  | .button components => some (.floats components)
  | .stored value =>
    match value with
    | .float value => some (.floats [value.narrow])
    | .int value | .choice value => some (.ints [wrap32 value])
    | .bool value => some (.ints [if value then 1 else 0])
    | .vector values => vectorData values
    | .intVector values => intVectorData values
    | .boolVector values => intVectorData (values.map fun value => if value then 1 else 0)
    | _ => none

/-- The key of a value that is a texture, and the picture that it shows first. -/
def FrameValue.picture? {ι : Type} (painter : Painter ι) : FrameValue → Option (TextureKey × ι)
  | .stored (.sampler descriptor) =>
    some (.sampler descriptor, painter.upload 1 1 [0, 0, 0, 0])
  | .stored (.gradient ramp) =>
    some (.gradient ramp.key,
      painter.upload TextureCache.gradientWidth 1 (TextureCache.gradientBytes ramp))
  | _ => none

/-! ### What pictures are made with -/

/-- What stays the same for all layers of a frame. -/
structure Studio (ι : Type) where
  painter : Painter ι
  tree : CompiledTree
  frame : FrameContext
  levels : AudioLevels
  /-- what every program is given besides the uniforms of its layer -/
  builtins : BuiltinLocations → BlendMode → Float32 → List (Option Nat × UniformData)
  size : Nat × Nat
  /-- the program that shows a picture as if it were a layer -/
  texture : TextureProgram
  /-- the picture of the sound -/
  spectrum : ι
  /-- the last pictures of the script layers -/
  scripts : String → Option ι
  /-- how many requests of a script layer may be outstanding -/
  requests : Nat

/-- What goes on from layer to layer. -/
structure Memory (ι : Type) where
  input : InputState
  /-- how many requests of a script layer are outstanding -/
  inFlight : String → Nat
  /-- the values that programs keep -/
  given : Handle → Nat → Option UniformData
  /-- the pictures of samplers and gradients -/
  pictures : TextureKey → Option ι

/-- The pictures that a program sees, by their units. -/
abbrev Units (ι : Type) := Nat → Option ι

namespace Memory

variable {ι : Type}

/-- A program is given a value where it has a place for it. -/
def give (program : Handle) (memory : Memory ι) : Option Nat × UniformData → Memory ι
  | (some location, value) =>
    { memory with
      given := Function.update memory.given program
        (Function.update (memory.given program) location (some value)) }
  | (none, _) => memory

/-- The value of a uniform. -/
def frameValue (frame : FrameContext) (levels : AudioLevels) (layer : String)
    (uniform : Uniform) : StateM (Memory ι) FrameValue :=
  changePart Memory.input (fun memory input => { memory with input })
    (InputState.frameValue frame levels layer uniform)

/-- The picture of a sampler or a gradient; what has none shows its first picture. -/
def picture (key : TextureKey) (first : ι) : StateM (Memory ι) ι := do
  match (← get).pictures key with
  | some picture => return picture
  | none =>
    modify fun memory =>
      { memory with pictures := Function.update memory.pictures key (some first) }
    return first

theorem picture_of_some {memory : Memory ι} {key : TextureKey} {picture : ι}
    (known : memory.pictures key = some picture) (first : ι) :
    (Memory.picture key first).run memory = (picture, memory) := by
  unfold Memory.picture
  simp only [StateT.run_bind, StateT.run_get, pure_bind, known]
  rfl

theorem picture_of_none {memory : Memory ι} {key : TextureKey}
    (unknown : memory.pictures key = none) (first : ι) :
    (Memory.picture key first).run memory =
      (first, { memory with pictures := Function.update memory.pictures key (some first) }) := by
  unfold Memory.picture
  simp only [StateT.run_bind, StateT.run_get, pure_bind, unknown]
  rfl

end Memory

namespace Studio

variable {ι : Type} (studio : Studio ι)

/-- Gives a program the value of a uniform; a picture is put into the next free unit.  Gives
the next free unit and what the program sees then. -/
def assign (program : Handle) (unit : Nat) (placed : Renderer.PlacedUniform) (units : Units ι) :
    StateM (Memory ι) (Nat × Units ι) := do
  let value ← Memory.frameValue studio.frame studio.levels placed.layer placed.uniform
  match value.picture? studio.painter with
  | some (key, first) =>
    let picture ← Memory.picture key first
    modify fun memory => memory.give program (some placed.location, .ints [unit])
    return (unit + 1, Function.update units unit (some picture))
  | none =>
    modify fun memory =>
      match value.data with
      | some data => memory.give program (some placed.location, data)
      | none => memory
    return (unit, units)

/-- Gives a program the values of uniforms. -/
def prepare (program : Handle) :
    Nat → List Renderer.PlacedUniform → Units ι → StateM (Memory ι) (Units ι)
  | _, [], units => return units
  | unit, placed :: rest, units => do
    let (unit, units) ← studio.assign program unit placed units
    prepare program unit rest units

section

variable {studio} {program : Handle} {unit : Nat} {placed : Renderer.PlacedUniform}
  {units : Units ι} {memory : Memory ι}

/-- A value that is a texture puts its picture into the next unit. -/
theorem assign_of_picture {key : TextureKey} {first : ι}
    (shown : ((Memory.frameValue studio.frame studio.levels placed.layer placed.uniform).run
      memory).1.picture? studio.painter = some (key, first)) :
    (studio.assign program unit placed units).run memory =
      let found := (Memory.picture key first).run
        ((Memory.frameValue studio.frame studio.levels placed.layer placed.uniform).run memory).2
      ((unit + 1, Function.update units unit (some found.1)),
        found.2.give program (some placed.location, .ints [unit])) := by
  unfold assign
  rw [StateT.run_bind]
  generalize (Memory.frameValue studio.frame studio.levels placed.layer placed.uniform).run memory =
    value at shown ⊢
  obtain ⟨value, later⟩ := value
  change StateT.run (match value.picture? studio.painter with
    | some (key, first) => _
    | none => _) later = _
  rw [shown]
  rfl

/-- Any other value is given to the program, if there is something to give. -/
theorem assign_of_data
    (plain : ((Memory.frameValue studio.frame studio.levels placed.layer placed.uniform).run
      memory).1.picture? studio.painter = none) :
    (studio.assign program unit placed units).run memory =
      let value := (Memory.frameValue studio.frame studio.levels placed.layer placed.uniform).run
        memory
      ((unit, units), match value.1.data with
        | some data => value.2.give program (some placed.location, data)
        | none => value.2) := by
  unfold assign
  rw [StateT.run_bind]
  generalize (Memory.frameValue studio.frame studio.levels placed.layer placed.uniform).run memory =
    value at plain ⊢
  obtain ⟨value, later⟩ := value
  change StateT.run (match value.picture? studio.painter with
    | some (key, first) => _
    | none => _) later = _
  rw [plain]
  rfl

end

/-- What a program sees before it is given anything else: the picture below, and the sound if
it listens. -/
def firstUnits (locations : BuiltinLocations) (below : ι) : Units ι :=
  let units : Units ι := Function.update (fun _ => none) Renderer.previousUnit (some below)
  if locations.audioSpectrum.isSome then
    Function.update units Renderer.spectrumUnit (some studio.spectrum)
  else units

/-- The picture that a program makes of the one below. -/
def run (program : Handle) (locations : BuiltinLocations) (blend : BlendMode) (opacity : Float32)
    (below : ι) (prepare : Units ι → StateM (Memory ι) (Units ι)) : StateM (Memory ι) ι := do
  modify fun memory => (studio.builtins locations blend opacity).foldl (Memory.give program) memory
  let units ← prepare (studio.firstUnits locations below)
  return studio.painter.draw program ((← get).given program) studio.size units

/-- A picture over the one below. -/
def overlay (picture : ι) (blend : BlendMode) (opacity : Float32) (below : ι) :
    StateM (Memory ι) ι :=
  studio.run studio.texture.program studio.texture.builtins blend opacity below fun units => do
    modify fun memory => memory.give studio.texture.program
      (some studio.texture.texture, .ints [Renderer.firstFreeUnit])
    return Function.update units Renderer.firstFreeUnit (some picture)

/-- A shader layer over the picture below; one without a program is red. -/
def shader (layer : CompiledLayer) (shader : LayerProgram) (scale : Float32) (below : ι) :
    StateM (Memory ι) ι :=
  match shader.program with
  | none => return studio.painter.fill Renderer.failedColor
  | some program =>
    studio.run program shader.builtins layer.blend (layer.opacity * scale) below
      (studio.prepare program Renderer.firstFreeUnit
        (Renderer.placedUniforms studio.tree layer shader))

/-- A script layer makes a request if it may: its uniforms have values then. -/
def request (layer : CompiledLayer) : StateM (Memory ι) Unit := do
  if (← get).inFlight layer.id < studio.requests then
    let _ ← layer.uniforms.mapM (Memory.frameValue studio.frame studio.levels layer.id)
    modify fun memory =>
      { memory with
        inFlight := Function.update memory.inFlight layer.id (memory.inFlight layer.id + 1) }

/-- A script layer over the picture below, if it has a picture. -/
def script (layer : CompiledLayer) (scale : Float32) (below : ι) : StateM (Memory ι) ι := do
  studio.request layer
  match studio.scripts layer.id with
  | none => return below
  | some picture => studio.overlay picture layer.blend (layer.opacity * scale) below

/-! ### Layers -/

mutual

/-- **A layer over the picture below.** -/
def paint : LayerTree → Float32 → ι → StateM (Memory ι) ι
  | .node layer inside, scale, below =>
    if layer.visible then
      match layer.kind with
      | .group _ =>
        if layer.blend = .passThrough then
          paintEach inside (scale * Float32.within 0 1 layer.opacity) below
        else do
          let picture ← paintEach inside 1 (studio.painter.fill Renderer.transparent)
          studio.overlay picture layer.blend (layer.opacity * scale) below
      | .shader shader => studio.shader layer shader scale below
      | .script _ => studio.script layer scale below
      | .distance .. => return below
    else return below

/-- Layers over the picture below, from the last to the first. -/
def paintEach : List LayerTree → Float32 → ι → StateM (Memory ι) ι
  | [], _, below => return below
  | layer :: rest, scale, below => do
    let below ← paintEach rest scale below
    paint layer scale below

end

/-- The picture of a frame: its layers over a transparent picture. -/
def composed : StateM (Memory ι) ι :=
  studio.paintEach studio.tree.drawn 1 (studio.painter.fill Renderer.transparent)

end Studio

/-! ### The output -/

/-- How the picture of a frame gets to the output. -/
structure Copying where
  program : CopyProgram
  /-- the sizes in which it is copied before -/
  ladder : List (Nat × Nat)
  size : Nat × Nat
  flip : Bool

/-- What a program makes of a picture that it copies in a size. -/
def Painter.copy {ι : Type} (painter : Painter ι) (program : Handle)
    (given : Nat → Option UniformData) (picture : ι) (size : Nat × Nat) : ι :=
  painter.draw program given size
    (Function.update (fun _ => none) Renderer.previousUnit (some picture))

namespace Copying

variable {ι : Type} (copying : Copying) (painter : Painter ι) (given : Nat → Option UniformData)

/-- What the program that copies has been given when it copies. -/
def values (flip : Bool) : Nat → Option UniformData :=
  Function.update (Function.update given copying.program.texture
    (some (.ints [Renderer.previousUnit]))) copying.program.flip
    (some (.ints [if flip then 1 else 0]))

/-- What the output shows: the picture, copied down the ladder and then once more. -/
def output (picture : ι) : ι :=
  painter.copy copying.program.program (copying.values given copying.flip)
    (copying.ladder.foldl
      (painter.copy copying.program.program (copying.values given false)) picture)
    copying.size

end Copying
end Collage
