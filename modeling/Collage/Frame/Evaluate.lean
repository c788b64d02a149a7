import Collage.Frame.Renderer

/-!
# Values of uniforms in a frame

`evaluate` says what value a uniform has in a frame, after curves and bindings;
`uniformData` turns it into what a program is given.  Textures are put into units of
their own, from the first free one on.
-/

namespace Collage

/-- What stays the same while a frame is drawn. -/
structure FrameContext where
  time : FrameTime := {}
  /-- year, month, day and seconds since midnight -/
  date : List Float32 := [0, 0, 0, 0]
  pointer : Pointer := {}
  devices : InputDevices := {}
  deriving Inhabited

/-- The value of a uniform in a frame. -/
inductive FrameValue
  | float (value : Float)
  | int (value : Int)
  | button (components : List Float32)
  | stored (value : Value)
  deriving Inhabited

namespace FrameValue

/-- The form in which the value is passed on. -/
def toJson : FrameValue → Json
  | float value => .ofDouble value
  | int value => .int value
  | button components => .array (components.map fun x => .ofDouble x.widen)
  | stored value => value.toJson

end FrameValue

/-- An integer in 32 bits; what is too large wraps around. -/
def wrap32 (value : Int) : Int :=
  Int.bmod value (twoPow 32)

/-- One to four numbers. -/
def vectorData (values : List Float) : Option UniformData :=
  if 1 ≤ values.length ∧ values.length ≤ 4 then some (.floats (values.map Float.narrow))
  else none

/-- One to four integers. -/
def intVectorData (values : List Int) : Option UniformData :=
  if 1 ≤ values.length ∧ values.length ≤ 4 then some (.ints (values.map wrap32)) else none

namespace Renderer

variable {ℓ : Type}

/-- The value of the curve that a uniform follows. -/
def evaluateCurve (frame : FrameContext) (layer : String) (uniform : Uniform) (curve : Curve) :
    Action (Renderer ℓ) Float := do
  let context : CurveContext := ⟨frame.time.time, (← get).levels, frame.devices⟩
  onInput (curve.evaluate (inputKey layer uniform.name true) context)

/-- The value that a uniform has without a curve. -/
def evaluateStored (frame : FrameContext) (layer : String) (uniform : Uniform) :
    Action (Renderer ℓ) FrameValue := do
  let key := inputKey layer uniform.name false
  match uniform.value.value with
  | .button bindings =>
    let state ← onInput (InputState.evaluateButton key bindings frame.devices frame.time.time)
    return .button (state.toUniform frame.time.time)
  | .axis bindings =>
    return .float (← onInput (InputState.evaluateAxis key bindings frame.devices))
  | other => return .stored other

/-- The value of a uniform in a frame.  Only numbers follow curves. -/
def evaluate (frame : FrameContext) (layer : String) (uniform : Uniform) :
    Action (Renderer ℓ) FrameValue := do
  match uniform.value.curve with
  | none => evaluateStored frame layer uniform
  | some curve =>
    let value ← evaluateCurve frame layer uniform curve
    match uniform.value.value with
    | .float _ => return .float value
    | .int _ => return .int (value.integerPart .floor)
    | _ => evaluateStored frame layer uniform

section

variable [TextureLoader ℓ]

/-- Puts a texture into a unit; gives what tells a program so, and the next unit. -/
def bindUnit (unit : Nat) (texture : Handle) : Action (Renderer ℓ) (Option UniformData × Nat) := do
  changeDevice (·.bindTexture unit (some texture))
  return (some (.ints [unit]), unit + 1)

/-- What a program is given for a value, if anything, and the next free unit. -/
def valueData (unit : Nat) : FrameValue → Action (Renderer ℓ) (Option UniformData × Nat)
  | .float value => return (some (.floats [value.narrow]), unit)
  | .int value => return (some (.ints [wrap32 value]), unit)
  | .button components => return (some (.floats components), unit)
  | .stored value =>
    match value with
    | .float value => return (some (.floats [value.narrow]), unit)
    | .int value | .choice value => return (some (.ints [wrap32 value]), unit)
    | .bool value => return (some (.ints [if value then 1 else 0]), unit)
    | .vector values => return (vectorData values, unit)
    | .intVector values => return (intVectorData values, unit)
    | .boolVector values =>
      return (intVectorData (values.map fun value => if value then 1 else 0), unit)
    | .sampler descriptor => do bindUnit unit (← onTextures (TextureCache.sampler descriptor))
    | .gradient ramp => do bindUnit unit (← onTextures (TextureCache.gradient ramp))
    | .button _ | .axis _ => return (none, unit)

/-- What a program is given for a uniform in a frame, if anything, and the next free
unit. -/
def uniformData (frame : FrameContext) (unit : Nat) (layer : String) (uniform : Uniform) :
    Action (Renderer ℓ) (Option UniformData × Nat) := do
  valueData unit (← evaluate frame layer uniform)

end

end Renderer
end Collage
