import Collage.Frame.Input
import Collage.Frame.Targets
import Collage.Frame.Textures
import Collage.Report.Basic

/-!
# Reports of devices

What was asked of a device and what it holds.  The objects of a table are deleted
or refreshed one after another in no order that matters, so a run of such calls is
listed by handle.
-/

namespace Collage

instance : Reported UniformData where
  report
    | .floats [x] => reportList ["float", x]
    | .floats values => reportList ["vec" ++ toString values.length, values]
    | .ints [x] => reportList ["int", x]
    | .ints values => reportList ["ivec" ++ toString values.length, values]

/-- The checksum of bytes: for each byte, combine it with the sum by exclusive or
and multiply by a prime, in 64 bits. -/
def checksum (bytes : List UInt8) : UInt64 :=
  bytes.foldl (fun sum byte => (sum ^^^ byte.toUInt64) * 0x100000001b3) 0xcbf29ce484222325

/-- Bytes as hexadecimal digits. -/
def hexBytes (bytes : List Nat) : String :=
  String.ofList (bytes.flatMap hexByte)

/-- A checksum as hexadecimal digits. -/
def checksumText (bytes : List UInt8) : String :=
  hexBytes ((List.range 8).map fun place => (checksum bytes).toNat / twoPow (8 * (7 - place)) % 256)

/-- Bytes as they are listed: in full when there are few of them, and otherwise by
their checksum. -/
def listedBytes (bytes : List UInt8) : String :=
  if bytes.length ≤ 64 then hexBytes (bytes.map UInt8.toNat)
  else "fnv:" ++ checksumText bytes

/-- A written value as it is listed; that of the date is different every time and is
left out. -/
def listedValue (name : String) (value : UniformData) : Json :=
  if name = "gDate" then .null else report value

instance : Reported DeviceEvent where
  report
    | .createShader stage handle => reportList ["createShader", stage.name, handle]
    | .deleteShader handle => reportList ["deleteShader", handle]
    | .linkProgram vertex fragment handle =>
      reportList ["linkProgram", vertex, fragment, handle]
    | .deleteProgram handle => reportList ["deleteProgram", handle]
    | .useProgram handle => reportList ["useProgram", handle]
    | .setUniform location name value =>
      reportList ["set", location, name, listedValue name value]
    | .createTexture handle filter wrap =>
      reportList ["createTexture", handle, filter.name, wrap.name]
    | .upload texture width height bytes =>
      reportList ["upload", texture, width, height, bytes.length, listedBytes bytes]
    | .deleteTexture handle => reportList ["deleteTexture", handle]
    | .createFramebuffer width height handles =>
      reportList ["createFramebuffer", width, height, handles]
    | .resizeFramebuffer handle width height =>
      reportList ["resizeFramebuffer", handle, width, height]
    | .deleteFramebuffer handle => reportList ["deleteFramebuffer", handle]
    | .bindFramebuffer handle width height =>
      reportList ["bindFramebuffer", handle, width, height]
    | .bindTexture unit texture => reportList ["bindTexture", unit, texture]
    | .clear color => reportList ["clear", color]
    | .draw => reportList ["draw"]
    | .readPixels width height => reportList ["readPixels", width, height]

namespace DeviceEvent

/-- The sorts of calls whose runs are listed by handle. -/
inductive RunSort
  | deletedTextures
  | deletedPrograms
  | uploads
  deriving DecidableEq

/-- The sort of run that a call belongs to, and its handle. -/
def run? : DeviceEvent → Option (RunSort × Handle)
  | deleteTexture handle => some (.deletedTextures, handle)
  | deleteProgram handle => some (.deletedPrograms, handle)
  | upload texture .. => some (.uploads, texture)
  | _ => none

/-- Whether two calls belong to the same run when they follow each other. -/
def sameRun (a b : DeviceEvent) : Bool :=
  a.run?.isSome && a.run?.map (·.1) = b.run?.map (·.1)

/-- Whether a call is listed no later than another one of its run. -/
def listedBefore (a b : DeviceEvent) : Bool :=
  (a.run?.map (·.2)).getD 0 ≤ (b.run?.map (·.2)).getD 0

end DeviceEvent

namespace Device

/-- All calls, the oldest first, runs by handle. -/
def listedEvents (device : Device) : List DeviceEvent :=
  (device.events.reverse.splitBy DeviceEvent.sameRun).flatMap fun run =>
    run.mergeSort DeviceEvent.listedBefore

/-- How many objects of each sort there are. -/
def counts (device : Device) : Json :=
  reportParts [
    ("shaders", device.shaders.size), ("programs", device.programs.size),
    ("textures", device.textures.size), ("framebuffers", device.framebuffers.size)]

end Device

instance : Reported DeviceStats where
  report stats := reportParts [
    ("shaders", stats.shadersCompiled), ("linked", stats.programsLinked),
    ("draws", stats.draws), ("clears", stats.clears), ("writes", stats.uniformWrites),
    ("uploads", stats.textureUploads), ("framebuffers", stats.framebuffersCreated)]

/-- A picture as runs of equal pixels. -/
instance : Reported Picture where
  report picture :=
    let runs := picture.pixels.splitBy fun a b => a = b
    reportParts [("width", picture.width), ("height", picture.height),
      ("runs", runs.map fun run =>
        reportList [hexBytes ((run.head?.map Color.toList).getD [] |>.map UInt8.toNat),
          run.length])]

/-- The number of holders; minus one for a permanent target. -/
def TargetUse.count : TargetUse → Int
  | .permanent => -1
  | .held count => count

instance : Reported RenderTarget where
  report target := reportList [target.framebuffer, target.texture, target.width,
    target.height, target.use.count, decide (target.use = .permanent)]

instance : Reported RenderTargets where
  report pool := reportParts [
    ("output", pool.outputSize), ("render", pool.renderSize), ("antiAlias", pool.antiAlias),
    ("ladder", pool.ladder), ("len", pool.size), ("empty", decide (pool.size = 0)),
    ("unused", pool.unused.length), ("targets", pool.targets)]

instance : Reported AudioLevels where
  report levels := reportParts [
    ("volume", levels.volume), ("peak", levels.peak), ("trough", levels.trough),
    ("reactive", levels.reactive)]

/-- A button in a frame, as a program sees it at a time. -/
def ButtonState.reportAt (now : Float) (button : ButtonState) : Json :=
  reportParts [
    ("held", button.held), ("triggered", button.triggered), ("released", button.released),
    ("value", button.value), ("triggeredAt", button.triggeredAt),
    ("releasedAt", button.releasedAt), ("uniform", button.toUniform now)]

end Collage
