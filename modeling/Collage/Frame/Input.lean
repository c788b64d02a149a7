import Collage.Frame.Audio

/-!
# Buttons, axes and curves

Bindings name one input of each device.  `InputState` remembers what each key was
evaluated to last, so that it can tell when a button goes down or up; a key is
evaluated at most once a frame, and later evaluations in the same frame give the
same answer.
-/

namespace Collage

/-! ### Devices -/

/-- How a device sees one of its buttons. -/
structure ButtonSample where
  held : Bool := false
  touched : Bool := false
  /-- the pressure, zero for a button that has none -/
  value : Float := 0
  deriving Repr, Inhabited

/-- Whether the button counts as down. -/
def ButtonSample.down (sample : ButtonSample) : Bool :=
  sample.held || sample.touched

/-- What the devices show; a device and an input name a button or an axis. -/
structure InputDevices where
  buttons : Table (String × String) ButtonSample := {}
  axes : Table (String × String) Float := {}
  deriving Repr, Inhabited

namespace InputDevices

/-- A button goes down. -/
def press (devices : InputDevices) (device input : String) : InputDevices :=
  { devices with buttons := devices.buttons.set (device, input) { held := true } }

/-- A button is no longer there. -/
def lift (devices : InputDevices) (device input : String) : InputDevices :=
  { devices with buttons := devices.buttons.erase (device, input) }

/-- An axis moves. -/
def setAxis (devices : InputDevices) (device input : String) (value : Float) : InputDevices :=
  { devices with axes := devices.axes.set (device, input) value }

/-- The samples of the bound buttons that there are. -/
def samples (devices : InputDevices) (bindings : ButtonBindings) : List ButtonSample :=
  bindings.filterMap devices.buttons.get?

/-- Whether a bound button is down, and the greatest pressure. -/
def readButton (devices : InputDevices) (bindings : ButtonBindings) : Bool × Float :=
  let samples := devices.samples bindings
  (samples.any ButtonSample.down, samples.foldl (fun value s => Float.greater value s.value) 0)

/-- What one binding of an axis reads.  Of buttons, the only one that is down
counts; with none or several of them down the axis rests. -/
def readBinding (devices : InputDevices) (device : String) : AxisBinding → Option Float
  | .axis input => devices.axes.get? (device, input)
  | .buttons values otherwise =>
    let down := values.filter fun (input, _) =>
      (devices.buttons.get? (device, input)).any ButtonSample.down
    match down with
    | [(_, value)] => some value
    | _ => some otherwise

/-- Of two readings the one farther from zero, the earlier one of two that are
equally far. -/
def farther (best : Option Float) (reading : Float) : Option Float :=
  match best with
  | none => some reading
  | some current => if current.abs < reading.abs then some reading else best

/-- The reading farthest from zero among the bindings; zero when there is none. -/
def readAxis (devices : InputDevices) (bindings : AxisBindings) : Float :=
  let readings := bindings.filterMap fun (device, binding) => devices.readBinding device binding
  ((readings.filter Float.isFinite).foldl farther none).getD 0

end InputDevices

/-! ### Buttons over time -/

/-- A button in a frame: whether it is down, whether it went down or up since it
was last evaluated, its pressure, and when it last went down and up. -/
structure ButtonState where
  held : Bool := false
  triggered : Bool := false
  released : Bool := false
  value : Float := 0
  triggeredAt : Float := 0
  releasedAt : Float := 0
  deriving Repr, Inhabited

namespace ButtonState

/-- The state that follows. -/
def next (previous : ButtonState) (held : Bool) (value now : Float) : ButtonState :=
  let triggered := held && !previous.held
  let released := !held && previous.held
  { held, triggered, released, value
    triggeredAt := if triggered then now else previous.triggeredAt
    releasedAt := if released then now else previous.releasedAt }

/-- What a program sees: down, went down, went up, and the seconds since the button
last went down. -/
def toUniform (state : ButtonState) (now : Float) : List Float32 :=
  let mark (b : Bool) : Float32 := if b then 1 else 0
  [mark state.held, mark state.triggered, mark state.released,
    (Float.greater (now - state.triggeredAt) 0).narrow]

end ButtonState

/-- What is remembered of each key, with the frame in which it was evaluated. -/
structure InputState where
  frame : Nat := 0
  buttons : Table String (Nat × ButtonState) := {}
  axes : Table String (Nat × Float) := {}
  deriving Repr, Inhabited

/-- The key of a parameter, or of the curve that it follows. -/
def inputKey (layer parameter : String) (curve : Bool) : String :=
  layer ++ "\x00" ++ parameter ++ (if curve then "_curve" else "")

/-- The layer that a key belongs to: what stands before the first null. -/
def keyLayer (key : String) : String :=
  String.ofList (key.toList.takeWhile (· ≠ '\x00'))

namespace InputState

/-- What was last evaluated for the button of a key. -/
def button? (state : InputState) (key : String) : Option ButtonState :=
  (state.buttons.get? key).map (·.2)

/-- What was last evaluated for the axis of a key. -/
def axis? (state : InputState) (key : String) : Option Float :=
  (state.axes.get? key).map (·.2)

/-- The button of a key in this frame. -/
def evaluateButton (key : String) (bindings : ButtonBindings) (devices : InputDevices)
    (now : Float) : StateM InputState ButtonState := fun state =>
  match (state.buttons.get? key).filter (·.1 = state.frame) with
  | some (_, button) => (button, state)
  | none =>
    let (held, value) := devices.readButton bindings
    let button := ((state.button? key).getD {}).next held value now
    (button, { state with buttons := state.buttons.set key (state.frame, button) })

/-- The axis of a key in this frame. -/
def evaluateAxis (key : String) (bindings : AxisBindings) (devices : InputDevices) :
    StateM InputState Float := fun state =>
  match (state.axes.get? key).filter (·.1 = state.frame) with
  | some (_, value) => (value, state)
  | none =>
    let value := devices.readAxis bindings
    (value, { state with axes := state.axes.set key (state.frame, value) })

/-- Forgets the keys of layers other than `live`. -/
def retainLayers (live : List String) (state : InputState) : InputState :=
  { state with
    buttons := state.buttons.keep fun key => live.contains (keyLayer key)
    axes := state.axes.keep fun key => live.contains (keyLayer key) }

/-- How many buttons and axes are remembered. -/
def size (state : InputState) : Nat :=
  state.buttons.size + state.axes.size

end InputState

/-! ### Curves -/

/-- An input, kept between zero and one, spread from `min` to `max`. -/
def Curve.spread (curve : Curve) (input : Float) : Float :=
  let t := if input.isNaN then 0 else Float.within 0 1 input
  curve.min + (curve.max - curve.min) * t

/-- What a curve can follow in a frame. -/
structure CurveContext where
  time : Float := 0
  audio : AudioLevels := {}
  devices : InputDevices := {}
  deriving Inhabited

/-- The part of a number above the integer below it. -/
def aboveFloor (x : Float) : Float :=
  let part := if x.signed then -((-x) - (-x).floor) else x - x.floor
  if part < 0 then part + 1 else part

/-- The least step above one. -/
def shortestTurn : Float :=
  Float.ofBits (BinaryFormat.double.roundRatio 1 (twoPow 52)).toUInt64

/-- How far a turn of `duration` seconds has come; a turn that loops starts again
each time it is through. -/
def progress (time duration : Float) (looping : Bool) : Float :=
  let turns := time / Float.greater duration shortestTurn
  if looping then aboveFloor turns else turns

/-- The pressure of a button; one for a button that is down without pressure. -/
def ButtonState.pressure (state : ButtonState) : Float :=
  if 0 < state.value then state.value else if state.held then 1 else 0

/-- The value of a curve in this frame; `key` is the key of the curve. -/
def Curve.evaluate (curve : Curve) (key : String) (context : CurveContext) :
    StateM InputState Float := do
  let input ←
    match curve.input with
    | .time duration looping => pure (progress context.time duration looping)
    | .button bindings =>
      ButtonState.pressure <$>
        InputState.evaluateButton key bindings context.devices context.time
    | .axis bindings => InputState.evaluateAxis key bindings context.devices
    | .audioVolume => pure context.audio.volume.widen
    | .audioPeak => pure context.audio.peak.widen
    | .audioTrough => pure context.audio.trough.widen
    | .audioReactive => pure context.audio.reactive.widen
  return curve.spread input

end Collage
