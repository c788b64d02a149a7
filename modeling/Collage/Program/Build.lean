import Collage.Device.Basic
import Collage.Program.Library

/-!
# Building programs on a device

All programs share one vertex shader, which a `ProgramBuilder` holds.  `build`
leaves nothing but the program behind: the fragment shader is deleted whether the
program links or not.
-/

namespace Collage

/-- What programs of a language version are built with. -/
structure ProgramBuilder where
  version : String
  vertex : Handle
  deriving Repr, DecidableEq, Inhabited

namespace ProgramBuilder

/-- Compiles the vertex shader; a failure is fatal. -/
def create (version : String) : Action Device ProgramBuilder := fun device =>
  match device.createShader .vertex (ShaderLibrary.vertex version) with
  | (.ok vertex, device) => (.ok ⟨version, vertex⟩, device)
  | (.error log, device) => (.error (.builtinShader "fullscreen vertex" log), device)

/-- Compiles and links a fragment source; gives the program, or the log. -/
def build (builder : ProgramBuilder) (fragment : String) (device : Device) :
    Except String Handle × Device :=
  match device.createShader .fragment fragment with
  | (.error log, device) => (.error log, device)
  | (.ok shader, device) =>
    let (linked, device) := device.linkProgram builder.vertex shader
    (linked, device.deleteShader shader)

/-- Builds a program that nothing works without. -/
def buildNamed (builder : ProgramBuilder) (name fragment : String) : Action Device Handle :=
  fun device =>
    match builder.build fragment device with
    | (.ok program, device) => (.ok program, device)
    | (.error log, device) => (.error (.builtinShader name log), device)

/-- Deletes the vertex shader. -/
def release (builder : ProgramBuilder) (device : Device) : Device :=
  device.deleteShader builder.vertex

end ProgramBuilder

/-- Where a program keeps the uniforms that every layer has; none for those that
the device has removed. -/
structure BuiltinLocations where
  resolution : Option Nat := none
  time : Option Nat := none
  deltaTime : Option Nat := none
  frame : Option Nat := none
  pointer : Option Nat := none
  date : Option Nat := none
  previousLayer : Option Nat := none
  blendMode : Option Nat := none
  opacity : Option Nat := none
  audioVolume : Option Nat := none
  audioPeak : Option Nat := none
  audioTrough : Option Nat := none
  audioReactive : Option Nat := none
  audioSpectrum : Option Nat := none
  deriving Repr, DecidableEq, Inhabited

namespace BuiltinLocations

/-- Looks all of them up. -/
def resolve (program : Handle) : StateM Device BuiltinLocations := do
  let find (name : String) : StateM Device (Option Nat) := Device.uniformLocation program name
  return {
    resolution := ← find "gResolution"
    time := ← find "gTime"
    deltaTime := ← find "gDeltaTime"
    frame := ← find "gFrame"
    pointer := ← find "gPointer"
    date := ← find "gDate"
    previousLayer := ← find "gPreviousLayer"
    blendMode := ← find "gBlendMode"
    opacity := ← find "gOpacity"
    audioVolume := ← find "gAudioVolume"
    audioPeak := ← find "gAudioPeak"
    audioTrough := ← find "gAudioTrough"
    audioReactive := ← find "gAudioReactive"
    audioSpectrum := ← find "gAudioSpectrum" }

end BuiltinLocations

/-- Where a program keeps a uniform that it cannot work without. -/
def requiredLocation (program : Handle) (name uniform : String) : Action Device Nat :=
  fun device =>
    match device.uniformLocation program uniform with
    | (some location, device) => (.ok location, device)
    | (none, device) => (.error (.missingUniform name uniform), device)

end Collage
