import Collage.Program.Build
import Collage.Program.Wrapped

/-!
# Standing programs

Three programs are there whatever the document says: one copies a texture to the
output, one shows a texture as if it were a layer, and one draws a checkerboard.
Nothing can be drawn without them, so a failure to build any of them is fatal.
-/

namespace Collage

/-- Copies a texture, upside down if asked to. -/
structure CopyProgram where
  program : Handle
  texture : Nat
  flip : Nat
  deriving Repr, DecidableEq, Inhabited

/-- Shows a texture as a layer. -/
structure TextureProgram where
  program : Handle
  texture : Nat
  builtins : BuiltinLocations
  deriving Repr, DecidableEq, Inhabited

/-- Draws a checkerboard as a layer. -/
structure CheckerboardProgram where
  program : Handle
  builtins : BuiltinLocations
  deriving Repr, DecidableEq, Inhabited

/-- The three programs and what they were built with. -/
structure StandingPrograms where
  builder : ProgramBuilder
  copy : CopyProgram
  texture : TextureProgram
  checkerboard : CheckerboardProgram
  deriving Repr, DecidableEq, Inhabited

namespace StandingPrograms

/-- The uniforms of a program that is drawn as a layer; it needs those that
compositing needs. -/
def layerLocations (program : Handle) (name : String) : Action Device BuiltinLocations := do
  let _ ← requiredLocation program name "gPreviousLayer"
  let _ ← requiredLocation program name "gBlendMode"
  let _ ← requiredLocation program name "gOpacity"
  BuiltinLocations.resolve program

/-- Builds the program that copies. -/
def createCopy (builder : ProgramBuilder) : Action Device CopyProgram := do
  let program ← builder.buildNamed "copy" (ShaderLibrary.copy builder.version)
  let texture ← requiredLocation program "copy" "gTexture"
  let flip ← requiredLocation program "copy" "gFlipY"
  return ⟨program, texture, flip⟩

/-- Builds a program from the code of a layer. -/
def createLayer (builder : ProgramBuilder) (name code : String) : Action Device Handle :=
  builder.buildNamed name (WrappedSource.layer builder.version code none).text

/-- Builds the program that shows a texture. -/
def createTexture (builder : ProgramBuilder) : Action Device TextureProgram := do
  let program ← createLayer builder "custom-texture" ShaderLibrary.texture
  let texture ← requiredLocation program "custom-texture" "gTexture"
  return ⟨program, texture, ← layerLocations program "custom-texture"⟩

/-- Builds the program that draws a checkerboard. -/
def createCheckerboard (builder : ProgramBuilder) : Action Device CheckerboardProgram := do
  let program ← createLayer builder "checkerboard" ShaderLibrary.checkerboard
  return ⟨program, ← layerLocations program "checkerboard"⟩

/-- Builds all of them. -/
def create (version : String) : Action Device StandingPrograms := do
  let builder ← ProgramBuilder.create version
  let copy ← createCopy builder
  let texture ← createTexture builder
  let checkerboard ← createCheckerboard builder
  return ⟨builder, copy, texture, checkerboard⟩

/-- Deletes all of them. -/
def release (programs : StandingPrograms) (device : Device) : Device :=
  let device := device.deleteProgram programs.copy.program
  let device := device.deleteProgram programs.texture.program
  let device := device.deleteProgram programs.checkerboard.program
  programs.builder.release device

end StandingPrograms
end Collage
