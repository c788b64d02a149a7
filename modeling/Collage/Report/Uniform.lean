import Collage.Report.Basic
import Collage.Uniform.Extract

/-!
# Reports of uniforms

What an editor needs to know about the uniforms of a layer: their kinds with the
limits and defaults, their places in the code, and their values.
-/

namespace Collage

/-- The name of a shape, with the length of a vector. -/
def ValueKind.shape : ValueKind → String
  | .float => "Float"
  | .int => "Int"
  | .vector size => "Vector(" ++ toString size ++ ")"
  | .intVector size => "IntVector(" ++ toString size ++ ")"
  | .bool => "Bool"
  | .boolVector size => "BoolVector(" ++ toString size ++ ")"
  | .choice => "Enum"
  | .sampler => "Sampler"
  | .gradient => "Gradient"
  | .button => "Button"
  | .axis => "Axis"

instance : Reported NumericRange := ⟨fun range => [range.min, range.max, range.step]⟩

namespace UniformKind

/-- The name of the kind. -/
def label : UniformKind → String
  | float .. => "float"
  | int .. => "int"
  | vector .. => "vector"
  | intVector .. => "intVector"
  | bool _ => "bool"
  | boolVector _ => "boolVector"
  | choice .. => "enum"
  | sampler _ => "sampler"
  | gradient _ => "gradient"
  | button _ => "button"
  | axis _ => "axis"

/-- What else there is to say about the kind, the default first. -/
def details : UniformKind → List (String × Json)
  | float default range => [("default", default), ("range", range)]
  | int default range => [("default", default), ("range", range)]
  | vector default range color =>
    [("default", default), ("range", range), ("color", color)]
  | intVector default range => [("default", default), ("range", range)]
  | bool default => [("default", default)]
  | boolVector default => [("default", default)]
  | choice options default =>
    [("default", default), ("options", (options : List (String × Int)))]
  | sampler default => [("default", default)]
  | gradient default => [("default", default)]
  | button default => [("default", ButtonBindings.encode default)]
  | axis default => [("default", AxisBindings.encode default)]

instance : Reported UniformKind :=
  ⟨fun kind => reportParts (("kind", report kind.label) :: kind.details)⟩

end UniformKind

instance : Reported Uniform where
  report uniform := reportParts [
    ("name", uniform.name), ("glslType", uniform.type), ("kind", uniform.kind),
    ("raw", reportParts uniform.settings.raw), ("location", uniform.location),
    ("occurrences", uniform.occurrences), ("shaderValue", uniform.value)]

end Collage
