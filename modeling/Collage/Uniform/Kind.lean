import Collage.Uniform.Metadata

/-!
# Kinds of uniforms

`UniformKind.classify` says what kind of parameter a declared uniform is, from
its type and its settings.  `coerce` reads any value as one of that kind,
falling back to the default wherever the value does not fit.
-/

namespace Collage

/-- Limits for whoever edits a number. -/
structure NumericRange where
  min : Option Float := none
  max : Option Float := none
  step : Option Float := none
  deriving Inhabited, Repr, BEq

/-- What kind of parameter a uniform is, with its default. -/
inductive UniformKind
  | float (default : Float) (range : NumericRange)
  | int (default : Int) (range : NumericRange)
  | vector (default : List Float) (range : NumericRange) (color : Bool)
  | intVector (default : List Int) (range : NumericRange)
  | bool (default : Bool)
  | boolVector (default : List Bool)
  | choice (options : EnumOptions) (default : Int)
  | sampler (default : TextureDescriptor)
  | gradient (default : Gradient Float32)
  | button (default : ButtonBindings)
  | axis (default : AxisBindings)
  deriving Inhabited, Repr, BEq

namespace UniformKind

/-! ### Values with structure -/

/-- One of several codes: a number that is one of them, or the name of one. -/
def coerceChoice (options : EnumOptions) (fallback : Int) (raw : Json) : Int :=
  let checked (code : Int) := if options.containsCode code then code else fallback
  match raw with
  | .int value => checked (Coercion.integer (.int value))
  | .double value => checked (Coercion.integer (.double value))
  | .single value => checked (Coercion.integer (.single value))
  | .string name => (options.codeOf? name).getD fallback
  | _ => fallback

/-- A texture by its address alone, or by its written form. -/
def coerceSampler (fallback : TextureDescriptor) : Json → TextureDescriptor
  | .string url => ⟨url, .linear, .clamp⟩
  | other => (TextureDescriptor.decode other).getD fallback

/-- A gradient in its short or its full written form, with at least one stop.  A
text that is no gradient gives the one from black to white. -/
def coerceGradient (fallback : Gradient Float32) : Json → Gradient Float32
  | .string shorthand => (Gradient.ofShorthand? shorthand).getD Gradient.standard
  | other => ((Gradient.decode other).filter (!·.stops.isEmpty)).getD fallback

/-! ### Classification -/

/-- How many components the type of a vector has. -/
def vectorSize (type : String) : Nat :=
  match type.toList.getLast? with
  | some '2' => 2
  | some '3' => 3
  | _ => 4

/-- The components that a vector starts from: zeros, but a colour is opaque. -/
def zeroVector (size : Nat) (color : Bool) : List Float :=
  if color ∧ size = 4 then [0, 0, 0, 1] else List.replicate size 0

/-- The kind of a uniform of a type; `none` when the type is not supported. -/
def classify (type : String) (settings : Metadata) : Option UniformKind :=
  let range : NumericRange := ⟨settings.min, settings.max, settings.step⟩
  let hinted (hint : String) : Bool := settings.hint = some hint
  let start := settings.default.getD .null
  match type with
  | "float" =>
    if hinted "axis" then some (.axis ((AxisBindings.decode start).getD []))
    else some (.float (Coercion.numberOrZero start) range)
  | "int" =>
    match settings.options.bind EnumOptions.ofJson? with
    | some options => some (.choice options (coerceChoice options options.firstCode start))
    | none => some (.int (Coercion.integer start) range)
  | "bool" => some (.bool (Coercion.boolean start))
  | "vec2" | "vec3" | "vec4" =>
    if type = "vec4" ∧ hinted "button" then
      some (.button ((ButtonBindings.decode start).getD []))
    else
      let color := hinted "color"
      let zeros := zeroVector (vectorSize type) color
      some (.vector (Coercion.components Coercion.numberOrZero zeros start) range color)
  | "ivec2" | "ivec3" | "ivec4" =>
    let zeros := List.replicate (vectorSize type) 0
    some (.intVector (Coercion.components Coercion.integer zeros start) range)
  | "bvec2" | "bvec3" | "bvec4" =>
    let zeros := List.replicate (vectorSize type) false
    some (.boolVector (Coercion.components Coercion.boolean zeros start))
  | "sampler2D" =>
    if hinted "gradient" then some (.gradient (coerceGradient Gradient.standard start))
    else some (.sampler (coerceSampler ⟨"", .linear, .clamp⟩ start))
  | _ => none

/-- The kind that values of the uniform have. -/
def valueKind : UniformKind → ValueKind
  | float .. => .float
  | int .. => .int
  | vector default .. => .vector default.length
  | intVector default .. => .intVector default.length
  | bool _ => .bool
  | boolVector default => .boolVector default.length
  | choice .. => .choice
  | sampler _ => .sampler
  | gradient _ => .gradient
  | button _ => .button
  | axis _ => .axis

/-- Whether a value of the uniform may follow a curve. -/
def acceptsCurve : UniformKind → Bool
  | float .. | int .. => true
  | _ => false

/-- The value that the uniform starts with. -/
def defaultValue : UniformKind → Value
  | float default _ => .float default
  | int default _ => .int default
  | vector default .. => .vector default
  | intVector default _ => .intVector default
  | bool default => .bool default
  | boolVector default => .boolVector default
  | choice _ default => .choice default
  | sampler default => .sampler default
  | gradient default => .gradient default
  | button default => .button default
  | axis default => .axis default

/-- Reads any value as one of the uniform, falling back to the default where it
does not fit. -/
def coerce (kind : UniformKind) (raw : Json) : Value :=
  match kind with
  | float .. => .float (Coercion.numberOrZero raw)
  | int .. => .int (Coercion.integer raw)
  | vector default .. => .vector (Coercion.components Coercion.numberOrZero default raw)
  | intVector default _ => .intVector (Coercion.components Coercion.integer default raw)
  | bool _ => .bool (Coercion.boolean raw)
  | boolVector default => .boolVector (Coercion.components Coercion.boolean default raw)
  | choice options default => .choice (coerceChoice options default raw)
  | sampler default => .sampler (coerceSampler default raw)
  | gradient default => .gradient (coerceGradient default raw)
  | button default => .button ((ButtonBindings.decode raw).getD default)
  | axis default => .axis ((AxisBindings.decode raw).getD default)

end UniformKind
end Collage
