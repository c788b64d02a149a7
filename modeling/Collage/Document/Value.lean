import Collage.Document.Gradient
import Collage.Json.Basic

/-!
# Parameter values

A layer stores a value for each parameter of its code, and a value may follow a
curve instead of staying fixed.  `Value` is one of eleven kinds; `ValueKind` is
the kind alone, with the length of a vector, and decides whether a stored value
fits a parameter.
-/

namespace Collage

/-- How a texture is read between its pixels. -/
inductive TextureFilter
  | linear
  | nearest
  deriving Repr, DecidableEq, Inhabited

/-- How a texture goes on beyond its edges. -/
inductive TextureWrap
  | clamp
  | repeated
  | mirror
  deriving Repr, DecidableEq, Inhabited

namespace TextureFilter

/-- All filters with their names. -/
def named : List (String × TextureFilter) :=
  [("linear", linear), ("nearest", nearest)]

/-- The name in documents. -/
def name : TextureFilter → String
  | linear => "linear"
  | nearest => "nearest"

end TextureFilter

namespace TextureWrap

/-- All ways to go on with their names. -/
def named : List (String × TextureWrap) :=
  [("clamp", clamp), ("repeat", repeated), ("mirror", mirror)]

/-- The name in documents. -/
def name : TextureWrap → String
  | clamp => "clamp"
  | repeated => "repeat"
  | mirror => "mirror"

end TextureWrap

/-- Where a texture comes from and how it is read. -/
structure TextureDescriptor where
  url : String
  filter : TextureFilter := .linear
  wrap : TextureWrap := .clamp
  deriving Repr, DecidableEq, Inhabited

/-- Which input of each device counts as the button, sorted by device. -/
abbrev ButtonBindings := List (String × String)

/-- What of a device counts as the axis: one of its axes, or buttons that each
select a value. -/
inductive AxisBinding
  | axis (name : String)
  | buttons (values : List (String × Float)) (otherwise : Float)
  deriving Repr, DecidableEq, BEq, Inhabited

/-- What of each device counts as the axis, sorted by device. -/
abbrev AxisBindings := List (String × AxisBinding)

/-- What a curve follows. -/
inductive CurveInput
  | time (duration : Float) (looping : Bool)
  | button (bindings : ButtonBindings)
  | axis (bindings : AxisBindings)
  | audioVolume
  | audioPeak
  | audioTrough
  | audioReactive
  deriving Repr, DecidableEq, BEq, Inhabited

/-- An input between zero and one, spread from `min` to `max`. -/
structure Curve where
  min : Float
  max : Float
  input : CurveInput
  deriving Repr, DecidableEq, BEq, Inhabited

namespace CurveInput

/-- Whether the input listens to sound. -/
def usesAudio : CurveInput → Bool
  | audioVolume | audioPeak | audioTrough | audioReactive => true
  | _ => false

end CurveInput

/-- Whether the curve listens to sound. -/
def Curve.usesAudio (curve : Curve) : Bool :=
  curve.input.usesAudio

/-- The value of a parameter. -/
inductive Value
  | float (value : Float)
  | int (value : Int)
  | vector (values : List Float)
  | intVector (values : List Int)
  | bool (value : Bool)
  | boolVector (values : List Bool)
  | choice (code : Int)
  | sampler (texture : TextureDescriptor)
  | gradient (gradient : Gradient Float32)
  | button (bindings : ButtonBindings)
  | axis (bindings : AxisBindings)
  deriving Repr, DecidableEq, BEq, Inhabited

/-- The kind of a value, with the length of a vector. -/
inductive ValueKind
  | float
  | int
  | vector (size : Nat)
  | intVector (size : Nat)
  | bool
  | boolVector (size : Nat)
  | choice
  | sampler
  | gradient
  | button
  | axis
  deriving Repr, DecidableEq, Inhabited

/-- The kind of a value. -/
def Value.kind : Value → ValueKind
  | .float _ => .float
  | .int _ => .int
  | .vector values => .vector values.length
  | .intVector values => .intVector values.length
  | .bool _ => .bool
  | .boolVector values => .boolVector values.length
  | .choice _ => .choice
  | .sampler _ => .sampler
  | .gradient _ => .gradient
  | .button _ => .button
  | .axis _ => .axis

/-- A named value, with the curve it follows if any. -/
structure ShaderValue where
  name : String
  value : Value
  curve : Option Curve := none
  deriving Repr, DecidableEq, BEq, Inhabited

/-- Whether the value listens to sound. -/
def ShaderValue.usesAudio (value : ShaderValue) : Bool :=
  value.curve.any Curve.usesAudio

end Collage
