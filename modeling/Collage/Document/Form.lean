import Collage.Document.Layer
import Collage.Json.Printer
import Collage.Json.Reader
import Collage.Json.Shape

/-!
# The written form of documents

`encode` says how layers and values are written and `decode` how they are read;
each decoder stands beside its encoder.  `Layer.read` reads a whole text: it
looks at the root's own entries from left to right, so an unknown type of the
root counts before anything wrong further on, while the layers inside are taken
apart only after all of the text has been read.
-/

namespace Collage

open Json (recordFields objectFields splitTag tagIndex named orElse required optional listOf mapOf)

/-! ### Textures and gradients -/

namespace TextureDescriptor

/-- The written form. -/
def encode (texture : TextureDescriptor) : Json :=
  .object [("url", .string texture.url), ("filter", .string texture.filter.name),
    ("wrap", .string texture.wrap.name)]

/-- Reads the written form. -/
def decode (json : Json) : Option TextureDescriptor := do
  match ← recordFields ["url", "filter", "wrap"] json with
  | [url, filter, wrap] =>
    let url ← required Json.string? url
    let filter ← orElse .linear (named TextureFilter.named) filter
    let wrap ← orElse .clamp (named TextureWrap.named) wrap
    return ⟨url, filter, wrap⟩
  | _ => none

end TextureDescriptor

namespace GradientStop

/-- The written form. -/
def encode (stop : GradientStop Float32) : Json :=
  .object [("position", Json.ofSingle stop.position),
    ("color", .array (stop.color.toList.map Json.ofSingle))]

/-- Reads the written form. -/
def decode (json : Json) : Option (GradientStop Float32) := do
  match ← recordFields ["position", "color"] json with
  | [position, color] =>
    let position ← required Json.single? position
    let channels ← required (listOf Json.single?) color
    return ⟨position, ← Color.ofList? channels⟩
  | _ => none

end GradientStop

namespace Gradient

/-- The written form. -/
def encode (gradient : Gradient Float32) : Json :=
  .object [("stops", .array (gradient.stops.map GradientStop.encode))]

/-- Reads the written form. -/
def decode (json : Json) : Option (Gradient Float32) := do
  match ← recordFields ["stops"] json with
  | [stops] => return ⟨← required (listOf GradientStop.decode) stops⟩
  | _ => none

end Gradient

/-! ### Bindings and curves -/

namespace ButtonBindings

/-- The written form. -/
def encode (bindings : ButtonBindings) : Json :=
  .object (bindings.map fun (device, input) => (device, .string input))

/-- Reads the written form. -/
def decode (json : Json) : Option ButtonBindings :=
  mapOf Json.string? json

end ButtonBindings

namespace AxisBinding

/-- The written form. -/
def encode : AxisBinding → Json
  | axis name => .string name
  | buttons values otherwise =>
    .object [("buttons", .object (values.map fun (name, value) => (name, Json.ofDouble value))),
      ("default", Json.ofDouble otherwise)]

/-- Reads the written form. -/
def decode : Json → Option AxisBinding
  | .string name => some (axis name)
  | json => do
    match ← objectFields ["buttons", "default"] json with
    | [values, otherwise] =>
      let values ← required (mapOf Json.double?) values
      let otherwise ← orElse 0 Json.double? otherwise
      return buttons values otherwise
    | _ => none

end AxisBinding

namespace AxisBindings

/-- The written form. -/
def encode (bindings : AxisBindings) : Json :=
  .object (bindings.map fun (device, binding) => (device, binding.encode))

/-- Reads the written form. -/
def decode (json : Json) : Option AxisBindings :=
  mapOf AxisBinding.decode json

end AxisBindings

namespace CurveInput

/-- The names of the inputs. -/
def names : List String :=
  ["time", "button", "axis", "audioVolume", "audioPeak", "audioTrough", "audioReactive"]

/-- The written form. -/
def encode : CurveInput → Json
  | time duration looping =>
    .object [("source", .string "time"), ("duration", Json.ofDouble duration),
      ("repeat", .bool looping)]
  | button bindings =>
    .object [("source", .string "button"), ("bindings", ButtonBindings.encode bindings)]
  | axis bindings =>
    .object [("source", .string "axis"), ("bindings", AxisBindings.encode bindings)]
  | audioVolume => .object [("source", .string "audioVolume")]
  | audioPeak => .object [("source", .string "audioPeak")]
  | audioTrough => .object [("source", .string "audioTrough")]
  | audioReactive => .object [("source", .string "audioReactive")]

/-- An input without settings: an object, or an array with nothing left. -/
def bare (input : CurveInput) : Json → Option CurveInput
  | .object _ => some input
  | .array [] => some input
  | _ => none

/-- Reads the written form. -/
def decode (byNumber : Bool) (json : Json) : Option CurveInput := do
  let (tag, rest) ← splitTag "source" json
  match ← tagIndex byNumber names tag with
  | 0 =>
    match ← recordFields ["duration", "repeat"] rest with
    | [duration, looping] =>
      return time (← orElse 1 Json.double? duration) (← orElse true Json.bool? looping)
    | _ => none
  | 1 =>
    match ← recordFields ["bindings"] rest with
    | [bindings] => return button (← required ButtonBindings.decode bindings)
    | _ => none
  | 2 =>
    match ← recordFields ["bindings"] rest with
    | [bindings] => return axis (← required AxisBindings.decode bindings)
    | _ => none
  | 3 => bare audioVolume rest
  | 4 => bare audioPeak rest
  | 5 => bare audioTrough rest
  | _ => bare audioReactive rest

end CurveInput

namespace Curve

/-- The written form. -/
def encode (curve : Curve) : Json :=
  .object [("min", Json.ofDouble curve.min), ("max", Json.ofDouble curve.max),
    ("input", curve.input.encode)]

/-- Reads the written form. -/
def decode (byNumber : Bool) (json : Json) : Option Curve := do
  match ← recordFields ["min", "max", "input"] json with
  | [min, max, input] =>
    let min ← orElse 0 Json.double? min
    let max ← orElse 1 Json.double? max
    let input ← required (CurveInput.decode byNumber) input
    return ⟨min, max, input⟩
  | _ => none

end Curve

/-! ### Values -/

namespace Value

/-- The names of the kinds of values. -/
def typeNames : List String :=
  ["float", "int", "vector", "intVector", "bool", "boolVector", "enum", "sampler", "gradient",
    "button", "axis"]

/-- The name of the kind of a value. -/
def typeName : Value → String
  | float _ => "float"
  | int _ => "int"
  | vector _ => "vector"
  | intVector _ => "intVector"
  | bool _ => "bool"
  | boolVector _ => "boolVector"
  | choice _ => "enum"
  | sampler _ => "sampler"
  | gradient _ => "gradient"
  | button _ => "button"
  | axis _ => "axis"

/-- The written form without the name of its kind. -/
def encodePayload : Value → Json
  | float value => Json.ofDouble value
  | int value => .int value
  | vector values => .array (values.map Json.ofDouble)
  | intVector values => .array (values.map .int)
  | bool value => .bool value
  | boolVector values => .array (values.map .bool)
  | choice code => .int code
  | sampler texture => texture.encode
  | gradient ramp => ramp.encode
  | button bindings => ButtonBindings.encode bindings
  | axis bindings => AxisBindings.encode bindings

/-- The written form without the name of its kind, every number as a double. -/
def toJson (value : Value) : Json :=
  value.encodePayload.widened

/-- Reads the written form of a value of a known kind. -/
def decodePayload (index : Nat) (json : Json) : Option Value :=
  match index with
  | 0 => float <$> json.double?
  | 1 => int <$> json.int64?
  | 2 => vector <$> listOf Json.double? json
  | 3 => intVector <$> listOf Json.int64? json
  | 4 => bool <$> json.bool?
  | 5 => boolVector <$> listOf Json.bool? json
  | 6 => choice <$> json.int64?
  | 7 => sampler <$> TextureDescriptor.decode json
  | 8 => gradient <$> Gradient.decode json
  | 9 => button <$> ButtonBindings.decode json
  | _ => axis <$> AxisBindings.decode json

end Value

namespace ShaderValue

/-- The written form; a curve stands in it only when there is one. -/
def encode (value : ShaderValue) : Json :=
  .object ([("name", .string value.name), ("type", .string value.value.typeName),
    ("value", value.value.encodePayload)] ++
    (value.curve.map fun curve => ("curve", curve.encode)).toList)

/-- Reads the written form. -/
def decode (byNumber : Bool) (json : Json) : Option ShaderValue := do
  match ← objectFields ["name", "type", "value", "curve"] json with
  | [name, type, value, curve] =>
    let name ← required Json.string? name
    let index ← required (Json.nameIndex Value.typeNames) type
    let value ← required (Value.decodePayload index) value
    let curve ← optional (Curve.decode byNumber) curve
    return ⟨name, value, curve⟩
  | _ => none

end ShaderValue

namespace BlendMode

/-- Reads the written form. -/
def decode (json : Json) : Option BlendMode :=
  named (all.map fun mode => (mode.name, mode)) json

end BlendMode

/-! ### Layers -/

namespace Layer

/-- The name of the kind of a layer. -/
def typeName : Layer → String
  | group .. => "group"
  | code .shader .. => "shader"
  | distance .. => "sdf"
  | code .script .. => "javascript"

/-- The kinds of layers by name. -/
def typeNames : List String :=
  ["group", "shader", "sdf", "javascript"]

/-- The entries that all layers begin with. -/
def encodeHead (type : String) (head : LayerHead) : List (String × Json) :=
  [("type", .string type), ("id", .string head.id), ("name", .string head.name),
    ("visible", .bool head.visible)]

/-- How a layer combines with what lies below it. -/
def encodeBlend (blend : BlendMode) (opacity : Float32) : List (String × Json) :=
  [("blendMode", .string blend.name), ("opacity", Json.ofSingle opacity)]

/-- Code and stored values. -/
def encodeCode (source : String) (values : List ShaderValue) : List (String × Json) :=
  [("code", .string source), ("values", .array (values.map ShaderValue.encode))]

mutual

/-- The written form. -/
def encode : Layer → Json
  | group head blend opacity children =>
    .object (encodeHead "group" head ++ encodeBlend blend opacity ++
      [("layers", .array (encodeAll children))])
  | code .shader head blend opacity source values =>
    .object (encodeHead "shader" head ++ encodeBlend blend opacity ++ encodeCode source values)
  | code .script head blend opacity source values =>
    .object (encodeHead "javascript" head ++ encodeBlend blend opacity ++
      encodeCode source values)
  | distance head source values operands =>
    .object (encodeHead "sdf" head ++ encodeCode source values ++
      [("layers", .array (encodeAll operands))])

/-- The written form of each layer. -/
def encodeAll : List Layer → List Json
  | [] => []
  | layer :: rest => encode layer :: encodeAll rest

end

/-- The text of a document over several lines. -/
def pretty (document : Layer) : String :=
  document.encode.pretty

/-- Reads what every layer has. -/
def decodeHead (id name visible : Option Json) : Option LayerHead := do
  let id ← required Json.string? id
  let name ← orElse "" Json.string? name
  let visible ← orElse true Json.bool? visible
  return ⟨id, name, visible⟩

/-- Reads stored values. -/
def decodeValues (values : Option Json) : Option (List ShaderValue) :=
  orElse [] (listOf (ShaderValue.decode true)) values

/-- Reads the fields of a flat layer with code. -/
def decodeCode (language : CodeLanguage) (body : Json) : Option Layer := do
  match ← recordFields ["id", "name", "visible", "blendMode", "opacity", "code", "values"] body with
  | [id, name, visible, blend, opacity, source, values] =>
    let head ← decodeHead id name visible
    let blend ← orElse .normal BlendMode.decode blend
    let opacity ← orElse 1 Json.single? opacity
    let source ← orElse "" Json.string? source
    return code language head blend opacity source (← decodeValues values)
  | _ => none

/-- Reads the fields of a layer of a known kind; `inner` reads the layers in it.
The steps go down with the nesting. -/
def decodeBody (inner : Json → Option (List Layer)) (index : Nat) (body : Json) :
    Option Layer := do
  match index with
  | 0 =>
    match ← recordFields ["id", "name", "visible", "blendMode", "opacity", "layers"] body with
    | [id, name, visible, blend, opacity, layers] =>
      let head ← decodeHead id name visible
      let blend ← orElse .passThrough BlendMode.decode blend
      let opacity ← orElse 1 Json.single? opacity
      return group head blend opacity (← orElse [] inner layers)
    | _ => none
  | 1 => decodeCode .shader body
  | 2 =>
    match ← recordFields ["id", "name", "visible", "code", "values", "layers"] body with
    | [id, name, visible, source, values, layers] =>
      let head ← decodeHead id name visible
      let source ← orElse "" Json.string? source
      let values ← decodeValues values
      return distance head source values (← orElse [] inner layers)
    | _ => none
  | _ => decodeCode .script body

/-- Reads a layer inside another, given how deep it may go. -/
def decodeInner : Nat → Json → Option Layer
  | 0, _ => none
  | depth + 1, json => do
    let (tag, body) ← splitTag "type" json
    let index ← tagIndex true typeNames tag
    decodeBody (listOf (decodeInner depth)) index body

end Layer

mutual

/-- How deep arrays and objects are nested in a value. -/
def Json.depth : Json → Nat
  | .array items => depthOfItems items + 1
  | .object entries => depthOfEntries entries + 1
  | _ => 0

/-- The greatest depth of the items. -/
def Json.depthOfItems : List Json → Nat
  | [] => 0
  | item :: rest => max (Json.depth item) (depthOfItems rest)

/-- The greatest depth of the values of the entries. -/
def Json.depthOfEntries : List (String × Json) → Nat
  | [] => 0
  | (_, value) :: rest => max (Json.depth value) (depthOfEntries rest)

end

namespace Layer

/-- Reads the fields of a root of a known kind. -/
def decodeRoot (index : Nat) (body : Json) : Option Layer :=
  decodeBody (listOf (decodeInner (body.depth + 1))) index body

/-- Reads a document from its tree. -/
def decode (json : Json) : Option Layer := do
  let (tag, body) ← splitTag "type" json
  decodeRoot (← tagIndex false typeNames tag) body

/-! ### Reading a text -/

open Json (Fault)

/-- The type of a root at the front of a text.  An array or an object cannot be a
type, whatever follows its bracket. -/
def readTag (depth : Nat) (text : List Char) : Except Fault (Nat × List Char) := do
  match Json.skipSpace text with
  | '[' :: _ => throw .mismatched
  | '{' :: _ => throw .mismatched
  | text =>
    let (tag, rest) ← Json.readFront depth text
    match tagIndex false typeNames tag with
    | some index => return (index, rest)
    | none => throw .mismatched

/-- The entries of a root written as an object, with its type once it is known;
`seen` holds the other entries, last first. -/
def readRootEntries : Nat → Option Nat → Bool → List (String × Json) → List Char →
    Except Fault ((Nat × Json) × List Char)
  | 0, _, _, _, _ => .error .truncated
  | fuel + 1, index, first, seen, text => do
    -- the key alone settles a second type
    match ← Json.readKeyOnly first text with
    | (none, rest) =>
      match index with
      | some index => return ((index, .object seen.reverse), rest)
      | none => throw .mismatched
    | (some key, rest) =>
      if key = "type" then
        if index.isSome then throw .mismatched
        let rest ← Json.readColon rest
        let (index, rest) ← readTag (Json.depthLimit - 1) rest
        readRootEntries fuel (some index) false seen rest
      else
        let rest ← Json.readColon rest
        let (value, rest) ← Json.readFront (Json.depthLimit - 1) rest
        readRootEntries fuel index false ((key, value) :: seen) rest

/-- A root written as an array: its type, then its fields. -/
def readRootItems (text : List Char) : Except Fault ((Nat × Json) × List Char) := do
  match ← Json.readNext true text with
  | (false, _) => throw .mismatched
  | (true, rest) =>
    let (index, rest) ← readTag (Json.depthLimit - 1) rest
    let (items, rest) ←
      Json.readItems (Json.enoughFuel rest) (Json.depthLimit - 1) false [] rest
    return ((index, .array items), rest)

/-- Reads a document from a text. -/
def read (text : String) : Except Fault Layer := do
  let ((index, body), rest) ←
    match Json.skipSpace text.toList with
    | '{' :: rest => readRootEntries (Json.enoughFuel rest) none true [] rest
    | '[' :: rest => readRootItems rest
    | rest => do
      let _ ← Json.readFront Json.depthLimit rest
      throw .mismatched
  match decodeRoot index body with
  | none => throw .mismatched
  | some layer =>
    Json.expectEnd rest
    return layer

end Layer
end Collage
