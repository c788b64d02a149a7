import Collage.Document.Blend

/-!
# Fixed shader code

The pieces of code that generated programs are put together from: the built-in
uniforms, the blend modes, helper functions for layers, and the types and
functions that distance layers work with.  Each text is given line by line.
-/

namespace Collage

/-- Lines, each with its end. -/
def unlines (lines : List String) : String :=
  String.join (lines.map (· ++ "\n"))

theorem toList_unlines (texts : List String) :
    (unlines texts).toList = texts.flatMap fun line => line.toList ++ ['\n'] := by
  simp [unlines, String.toList_join, List.flatMap_map]

namespace ShaderLibrary

/-! ### Layers -/

/-- What every fragment program declares after its version. -/
def declarations : String :=
  unlines [
    "precision highp float;",
    "precision highp int;",
    "in vec2 gUv;",
    "out vec4 gFragColor;",
    "uniform vec2 gResolution;",
    "uniform float gTime;",
    "uniform float gDeltaTime;",
    "uniform int gFrame;",
    "uniform vec4 gPointer;",
    "uniform vec4 gDate;",
    "uniform sampler2D gPreviousLayer;",
    "uniform int gBlendMode;",
    "uniform float gOpacity;",
    "uniform float gAudioVolume;",
    "uniform float gAudioPeak;",
    "uniform float gAudioTrough;",
    "uniform float gAudioReactive;",
    "uniform sampler2D gAudioSpectrum;"]

/-- One constant for each blend mode. -/
def blendConstants : String :=
  unlines (BlendMode.all.map fun mode =>
    "#define " ++ mode.constantName ++ " " ++ toString mode.code)

/-- A pseudo-random number between zero and one for a point. -/
def hashFunction : String :=
  unlines [
    "float gHash(vec2 p) \x7b",
    "    return fract(sin(dot(p, vec2(12.9898, 78.233))) * 43758.5453);",
    "\x7d"]

/-- How a layer combines with what lies below it. -/
def blendFunctions : String :=
  unlines [
    "float gLuminance(vec3 c) \x7b",
    "    return dot(c, vec3(0.3, 0.59, 0.11));",
    "\x7d",
    "float gColorBurn(float s, float d) \x7b",
    "    if (d >= 1.0) return 1.0;",
    "    if (s <= 0.0) return 0.0;",
    "    return 1.0 - min(1.0, (1.0 - d) / s);",
    "\x7d",
    "float gColorDodge(float s, float d) \x7b",
    "    if (d <= 0.0) return 0.0;",
    "    if (s >= 1.0) return 1.0;",
    "    return min(1.0, d / (1.0 - s));",
    "\x7d",
    "float gSoftLight(float s, float d) \x7b",
    "    if (s <= 0.5) return d - (1.0 - 2.0 * s) * d * (1.0 - d);",
    "    float e = d <= 0.25 ? ((16.0 * d - 12.0) * d + 4.0) * d : sqrt(d);",
    "    return d + (2.0 * s - 1.0) * (e - d);",
    "\x7d",
    "float gHardLight(float s, float d) \x7b",
    "    return s <= 0.5 ? 2.0 * s * d : 1.0 - 2.0 * (1.0 - s) * (1.0 - d);",
    "\x7d",
    "float gVividLight(float s, float d) \x7b",
    "    return s <= 0.5 ? gColorBurn(2.0 * s, d) : gColorDodge(2.0 * (s - 0.5), d);",
    "\x7d",
    "float gPinLight(float s, float d) \x7b",
    "    return s <= 0.5 ? min(d, 2.0 * s) : max(d, 2.0 * (s - 0.5));",
    "\x7d",
    "float gDivide(float s, float d) \x7b",
    "    return s <= 0.0 ? (d > 0.0 ? 1.0 : 0.0) : min(1.0, d / s);",
    "\x7d",
    "float gBlendChannel(int mode, float s, float d) \x7b",
    "    if (mode == gBlendDarken) return min(s, d);",
    "    if (mode == gBlendMultiply) return s * d;",
    "    if (mode == gBlendColorBurn) return gColorBurn(s, d);",
    "    if (mode == gBlendLinearBurn) return max(s + d - 1.0, 0.0);",
    "    if (mode == gBlendLighten) return max(s, d);",
    "    if (mode == gBlendScreen) return s + d - s * d;",
    "    if (mode == gBlendColorDodge) return gColorDodge(s, d);",
    "    if (mode == gBlendLinearDodge) return min(s + d, 1.0);",
    "    if (mode == gBlendOverlay) return gHardLight(d, s);",
    "    if (mode == gBlendSoftLight) return gSoftLight(s, d);",
    "    if (mode == gBlendHardLight) return gHardLight(s, d);",
    "    if (mode == gBlendVividLight) return gVividLight(s, d);",
    "    if (mode == gBlendLinearLight) return clamp(d + 2.0 * s - 1.0, 0.0, 1.0);",
    "    if (mode == gBlendPinLight) return gPinLight(s, d);",
    "    if (mode == gBlendHardMix) return gVividLight(s, d) < 0.5 ? 0.0 : 1.0;",
    "    if (mode == gBlendDifference) return abs(d - s);",
    "    if (mode == gBlendExclusion) return s + d - 2.0 * s * d;",
    "    if (mode == gBlendSubtract) return max(d - s, 0.0);",
    "    if (mode == gBlendDivide) return gDivide(s, d);",
    "    return s;",
    "\x7d",
    "vec3 gBlendColor(int mode, vec3 s, vec3 d) \x7b",
    "    if (mode == gBlendDarkerColor) return gLuminance(s) < gLuminance(d) ? s : d;",
    "    if (mode == gBlendLighterColor) return gLuminance(s) > gLuminance(d) ? s : d;",
    "    return vec3(gBlendChannel(mode, s.r, d.r), gBlendChannel(mode, s.g, d.g), gBlendChannel(mode, s.b, d.b));",
    "\x7d",
    "vec4 gBlend(vec4 source, vec4 destination, int mode, float opacity) \x7b",
    "    float sourceAlpha = clamp(source.a * opacity, 0.0, 1.0);",
    "    if (mode == gBlendPassThrough || mode == gBlendOverwrite) return vec4(source.rgb, sourceAlpha);",
    "    if (mode == gBlendMask) return vec4(destination.rgb, min(destination.a, sourceAlpha));",
    "    if (mode == gBlendNone) return destination;",
    "    if (mode == gBlendDissolve) return gHash(gl_FragCoord.xy) < sourceAlpha ? vec4(source.rgb, 1.0) : destination;",
    "    float alpha = sourceAlpha + destination.a * (1.0 - sourceAlpha);",
    "    if (alpha <= 0.0) return vec4(0.0);",
    "    vec3 blended = clamp(gBlendColor(mode, source.rgb, destination.rgb), 0.0, 1.0);",
    "    vec3 below = destination.rgb * destination.a * (1.0 - sourceAlpha);",
    "    vec3 straight = (source.rgb * sourceAlpha + below) / alpha;",
    "    vec3 aware = (blended * sourceAlpha + below) / alpha;",
    "    return vec4(mix(straight, aware, destination.a), alpha);",
    "\x7d"]

/-- Gradients and sound. -/
def helpers : String :=
  unlines [
    "vec4 gSampleGradient(sampler2D gradient, float t) \x7b",
    "    return texture(gradient, vec2(clamp(t, 0.0, 1.0), 0.5));",
    "\x7d",
    "float gAudioFrequency(float x) \x7b",
    "    return texture(gAudioSpectrum, vec2(clamp(x, 0.0, 1.0), 0.25)).r;",
    "\x7d",
    "float gAudioWaveform(float x) \x7b",
    "    return texture(gAudioSpectrum, vec2(clamp(x, 0.0, 1.0), 0.75)).r * 2.0 - 1.0;",
    "\x7d"]

/-- What draws a layer. -/
def footer : String :=
  unlines [
    "void main() \x7b",
    "    gFragColor = gBlend(render(gUv), texture(gPreviousLayer, gUv), gBlendMode, gOpacity);",
    "\x7d"]

/-! ### Programs of the compositor -/

/-- A vertex shader for one triangle that covers everything. -/
def vertex (version : String) : String :=
  unlines [
    "#version " ++ version,
    "out vec2 gUv;",
    "void main() \x7b",
    "    vec2 position = vec2(float((gl_VertexID << 1) & 2), float(gl_VertexID & 2)) * 2.0 - 1.0;",
    "    gUv = position * 0.5 + 0.5;",
    "    gl_Position = vec4(position, 0.0, 1.0);",
    "\x7d"]

/-- A fragment shader that copies a texture, upside down if asked to. -/
def copy (version : String) : String :=
  unlines [
    "#version " ++ version,
    "precision highp float;",
    "in vec2 gUv;",
    "out vec4 gFragColor;",
    "uniform sampler2D gTexture;",
    "uniform int gFlipY;",
    "void main() \x7b",
    "    vec2 uv = gUv;",
    "    if (gFlipY != 0) \x7b",
    "        uv.y = 1.0 - uv.y;",
    "    \x7d",
    "    gFragColor = texture(gTexture, uv);",
    "\x7d"]

/-- A layer that shows a checkerboard. -/
def checkerboard : String :=
  unlines [
    "vec4 render(vec2 uv) \x7b",
    "    vec2 cell = floor(uv * gResolution / 8.0);",
    "    float odd = mod(cell.x + cell.y, 2.0);",
    "    return vec4(vec3(mix(0.8, 1.0, odd)), 1.0);",
    "\x7d"]

/-- A layer that shows a texture. -/
def texture : String :=
  unlines [
    "uniform sampler2D gTexture;",
    "vec4 render(vec2 uv) \x7b",
    "    return texture(gTexture, uv);",
    "\x7d"]

/-! ### Distance layers -/

/-- The most operands a layer or a union takes. -/
def maxOperands : Nat := 16

/-- What all distance layers share. -/
def distancePrelude : String :=
  unlines [
    "#define gSdfMaxChildren 16",
    "struct gSdfContext \x7b",
    "    vec3 position;",
    "\x7d;",
    "struct gSdfResult \x7b",
    "    float distance;",
    "    vec4 color;",
    "\x7d;",
    "struct gSdf \x7b",
    "    int id;",
    "\x7d;",
    "struct gSdfVariadic \x7b",
    "    int count;",
    "    int ids[gSdfMaxChildren];",
    "\x7d;",
    "gSdfResult gSdfEmpty() \x7b",
    "    return gSdfResult(1e20, vec4(0.0));",
    "\x7d",
    "gSdfResult gSdfUnion(gSdfResult a, gSdfResult b) \x7b",
    "    return a.distance <= b.distance ? a : b;",
    "\x7d",
    "gSdf gSdfChild(gSdfVariadic children, int index) \x7b",
    "    return gSdf(children.ids[index]);",
    "\x7d"]

/-- How a distance layer on its own sees its operands: as empty. -/
def standaloneDispatch : String :=
  unlines [
    "gSdfResult gSdfMap(inout gSdfContext context, gSdf node) \x7b",
    "    return gSdfEmpty();",
    "\x7d"]

/-- The layer that stands for a union: the nearest operand wins. -/
def unionLayer : String :=
  unlines [
    "gSdfResult map(inout gSdfContext context, gSdfVariadic children) \x7b",
    "    gSdfResult result = gSdfEmpty();",
    "    for (int i = 0; i < gSdfMaxChildren; i++) \x7b",
    "        if (i >= children.count) \x7b",
    "            break;",
    "        \x7d",
    "        result = gSdfUnion(result, gSdfMap(context, gSdfChild(children, i)));",
    "    \x7d",
    "    return result;",
    "\x7d"]

end ShaderLibrary
end Collage
