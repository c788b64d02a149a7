import Collage.Document.Value
import Collage.Failure
import Collage.Shader.Declaration
import Collage.Table

/-!
# A graphics device

`Device` stands for a graphics device without a screen.  It knows which shaders,
programs, textures and framebuffers exist, which values programs were given, and
with what colour a framebuffer was last cleared; and it writes down every call in
`events`, the newest first.  All objects take their handles from one counter.

A program is the list of uniforms that its fragment shader declares.  Building
one fails where the source has an error line, where it matches one of the rules that
the device was made with, or where the device refuses it for another reason, and
creating a texture or a framebuffer fails when the device is out of memory.
-/

namespace Collage

/-- The number of an object of the device. -/
abbrev Handle := Nat

/-- A value written to a uniform: one to four numbers of one sort. -/
inductive UniformData
  | floats (values : List Float32)
  | ints (values : List Int)
  deriving Repr, DecidableEq, Inhabited

/-- A stage of a program. -/
inductive ShaderStage
  | vertex
  | fragment
  deriving Repr, DecidableEq, Inhabited

/-- The name of a stage. -/
def ShaderStage.name : ShaderStage → String
  | .vertex => "vertex"
  | .fragment => "fragment"

/-- A call of the device. -/
inductive DeviceEvent
  | createShader (stage : ShaderStage) (handle : Option Handle)
  | deleteShader (handle : Handle)
  | linkProgram (vertex fragment : Handle) (handle : Option Handle)
  | deleteProgram (handle : Handle)
  | useProgram (handle : Handle)
  | setUniform (location : Nat) (name : String) (value : UniformData)
  | createTexture (handle : Handle) (filter : TextureFilter) (wrap : TextureWrap)
  | upload (texture : Handle) (width height : Nat) (bytes : List UInt8)
  | deleteTexture (handle : Handle)
  | createFramebuffer (width height : Nat) (handles : Option (Handle × Handle))
  | resizeFramebuffer (handle : Handle) (width height : Nat)
  | deleteFramebuffer (handle : Handle)
  | bindFramebuffer (handle : Option Handle) (width height : Nat)
  | bindTexture (unit : Nat) (texture : Option Handle)
  | clear (color : Color Float32)
  | draw
  | readPixels (width height : Nat)
  deriving Repr, DecidableEq, Inhabited

/-- A compiled shader: its stage, its source and the uniforms it declares. -/
structure ShaderObject where
  stage : ShaderStage
  source : String
  uniforms : List String
  deriving Repr, DecidableEq, Inhabited

/-- A framebuffer: its texture and the colour it was last cleared with. -/
structure FramebufferObject where
  texture : Handle
  fill : Color UInt8
  deriving Repr, DecidableEq, Inhabited

/-- How often each sort of call was made. -/
structure DeviceStats where
  shadersCompiled : Nat := 0
  programsLinked : Nat := 0
  draws : Nat := 0
  clears : Nat := 0
  uniformWrites : Nat := 0
  textureUploads : Nat := 0
  framebuffersCreated : Nat := 0
  deriving Repr, DecidableEq, Inhabited

/-- What reading pixels gives. -/
inductive Readback
  /-- the colour that was last cleared with -/
  | filled
  /-- bytes that depend on their place only -/
  | pattern
  /-- one byte too few -/
  | short
  deriving Repr, DecidableEq, Inhabited

/-- How a device behaves.  The rules of failures pair what they look for with the
log they give; whether memory runs out, or a source is refused besides, may depend on
how many objects of that sort were asked for before. -/
structure DeviceTraits where
  maxDimension : Nat := 8192
  /-- fragment sources that contain a text fail to compile -/
  compileFailures : List (String × String) := []
  /-- programs that declare a uniform fail to link -/
  linkFailures : List (String × String) := []
  /-- all vertex shaders fail to compile -/
  vertexFailure : Option String := none
  /-- uniforms that no program has a location for -/
  hiddenUniforms : List String := []
  /-- the log with which a source of a stage is refused all the same -/
  shaderRefusal : Nat → ShaderStage → String → Option String := fun _ _ _ => none
  /-- the log with which a vertex and a fragment source are not linked all the same -/
  linkRefusal : Nat → String → String → Option String := fun _ _ _ => none
  /-- whether a uniform is removed from the program of a fragment source -/
  removesUniform : String → String → Bool := fun _ _ => false
  texturesExhausted : Nat → Bool := fun _ => false
  framebuffersExhausted : Nat → Bool := fun _ => false
  readback : Readback := .filled

/-- A graphics device. -/
structure Device where
  traits : DeviceTraits := {}
  nextHandle : Handle := 1
  shaders : Table Handle ShaderObject := {}
  programs : Table Handle (List String) := {}
  /-- the fragment sources that programs were linked from -/
  linkedFrom : Table Handle String := {}
  /-- programs and names in the order in which they were first looked up -/
  locations : List (Handle × String) := []
  textures : Table Handle Unit := {}
  framebuffers : Table Handle FramebufferObject := {}
  bound : Option Handle := none
  outputFill : Color UInt8 := Color.constant 0
  currentProgram : Option Handle := none
  uniformValues : Table (Handle × String) UniformData := {}
  stats : DeviceStats := {}
  linksAsked : Nat := 0
  texturesAsked : Nat := 0
  framebuffersAsked : Nat := 0
  /-- all calls, the newest first -/
  events : List DeviceEvent := []

namespace Device

/-- Writes a call down. -/
def log (event : DeviceEvent) (d : Device) : Device :=
  { d with events := event :: d.events }

/-- The next handle. -/
def allocate (d : Device) : Handle × Device :=
  (d.nextHandle, { d with nextHandle := d.nextHandle + 1 })

/-! ### Shaders and programs -/

/-- The first error line of a source, as a driver's log would give it. -/
def errorLine? (source : List Char) : Option String :=
  ((lines source).zipIdx 1).findSome? fun (line, number) =>
    (withoutStart? "#error".toList (trimStart line)).map fun message =>
      "ERROR: 0:" ++ toString number ++ ": '#error' : " ++ String.ofList (trim message)

/-- Why a fragment source does not compile. -/
def compileLog? (traits : DeviceTraits) (source : List Char) : Option String :=
  (errorLine? source).orElse fun _ =>
    (traits.compileFailures.find? fun rule => occursIn rule.1.toList source).map (·.2)

/-- Why the source of a stage does not compile when `asked` others came before. -/
def shaderLog? (traits : DeviceTraits) (asked : Nat) (stage : ShaderStage) (source : String) :
    Option String :=
  (traits.shaderRefusal asked stage source).orElse fun _ =>
    if stage = .fragment then compileLog? traits source.toList else none

/-- The names that a source declares as uniforms, each once. -/
def declaredUniforms (source : List Char) : List String :=
  ((uniformDeclarations source).map (·.name)).eraseDups

/-- Compiles a shader; gives its handle, or the log. -/
def createShader (stage : ShaderStage) (source : String) (d : Device) :
    Except String Handle × Device :=
  match stage, d.traits.vertexFailure with
  | .vertex, some log => (.error log, d)
  | _, _ =>
    let asked := d.stats.shadersCompiled
    let d := { d with stats.shadersCompiled := asked + 1 }
    match shaderLog? d.traits asked stage source with
    | some log => (.error log, d.log (.createShader stage none))
    | none =>
      let (handle, d) := d.allocate
      let object : ShaderObject := ⟨stage, source, declaredUniforms source.toList⟩
      let d := { d with shaders := d.shaders.set handle object }
      (.ok handle, d.log (.createShader stage (some handle)))

/-- Deletes a shader. -/
def deleteShader (handle : Handle) (d : Device) : Device :=
  { d with shaders := d.shaders.erase handle }.log (.deleteShader handle)

/-- Why two shaders do not become a program when `asked` others came before. -/
def linkLog? (traits : DeviceTraits) (asked : Nat) (vertex fragment : ShaderObject) :
    Option String :=
  (traits.linkRefusal asked vertex.source fragment.source).orElse fun _ =>
    (traits.linkFailures.find? fun rule => fragment.uniforms.contains rule.1).map (·.2)

/-- The fragment shader of the program that two shaders become, or why they do not. -/
def linkOutcome (vertex fragment : Handle) (d : Device) : Except String ShaderObject :=
  match (d.shaders.get? fragment).filter (·.stage = .fragment) with
  | none => .error "fragment shader handle is not a compiled fragment shader"
  | some shader =>
    match (d.shaders.get? vertex).filter (·.stage = .vertex) with
    | none => .error "vertex shader handle is not a compiled vertex shader"
    | some above =>
      match linkLog? d.traits d.linksAsked above shader with
      | some log => .error log
      | none => .ok shader

/-- Links a program; gives its handle, or the log. -/
def linkProgram (vertex fragment : Handle) (d : Device) : Except String Handle × Device :=
  let outcome := d.linkOutcome vertex fragment
  let d := { d with linksAsked := d.linksAsked + 1 }
  match outcome with
  | .error log => (.error log, d.log (.linkProgram vertex fragment none))
  | .ok shader =>
    let (handle, d) := d.allocate
    let d := { d with
      programs := d.programs.set handle shader.uniforms
      linkedFrom := d.linkedFrom.set handle shader.source
      stats.programsLinked := d.stats.programsLinked + 1 }
    (.ok handle, d.log (.linkProgram vertex fragment (some handle)))

/-- Deletes a program and the values it was given. -/
def deleteProgram (handle : Handle) (d : Device) : Device :=
  { d with
    programs := d.programs.erase handle
    linkedFrom := d.linkedFrom.erase handle
    uniformValues := d.uniformValues.keep (·.1 ≠ handle)
    currentProgram := d.currentProgram.filter (· ≠ handle) }.log (.deleteProgram handle)

/-- Whether a program has a uniform that the device has not removed. -/
def keepsUniform (program : Handle) (name : String) (d : Device) : Bool :=
  !d.traits.hiddenUniforms.contains name &&
    (d.programs.get? program).any (·.contains name) &&
    !(d.linkedFrom.get? program).any (d.traits.removesUniform · name)

/-- Where a program keeps a uniform; `none` when it has none of that name. -/
def uniformLocation (program : Handle) (name : String) (d : Device) : Option Nat × Device :=
  if !d.keepsUniform program name then (none, d)
  else
    match d.locations.idxOf? (program, name) with
    | some index => (some index, d)
    | none => (some d.locations.length, { d with locations := d.locations ++ [(program, name)] })

/-- Makes a program the current one. -/
def useProgram (handle : Handle) (d : Device) : Device :=
  { d with currentProgram := some handle }.log (.useProgram handle)

/-- Writes a uniform.  The value is kept when the location belongs to the current
program. -/
def setUniform (location : Nat) (value : UniformData) (d : Device) : Device :=
  let d := { d with stats.uniformWrites := d.stats.uniformWrites + 1 }
  match d.locations[location]? with
  | none => d.log (.setUniform location "" value)
  | some (owner, name) =>
    let d :=
      if d.currentProgram = some owner then
        { d with uniformValues := d.uniformValues.set (owner, name) value }
      else d
    d.log (.setUniform location name value)

/-- The last value that a program was given for a name. -/
def uniformValue? (d : Device) (program : Handle) (name : String) : Option UniformData :=
  d.uniformValues.get? (program, name)

/-! ### Textures and framebuffers -/

/-- Creates a texture, unless memory has run out. -/
def createTexture (filter : TextureFilter) (wrap : TextureWrap) (d : Device) :
    Except DeviceFailure Handle × Device :=
  let asked := d.texturesAsked
  let d := { d with texturesAsked := asked + 1 }
  if d.traits.texturesExhausted asked then (.error ⟨"texture", "out of memory"⟩, d)
  else
    let (handle, d) := d.allocate
    let d := { d with textures := d.textures.set handle () }
    (.ok handle, d.log (.createTexture handle filter wrap))

/-- Replaces what a texture shows, bottom row first. -/
def uploadTexture (texture : Handle) (width height : Nat) (bytes : List UInt8) (d : Device) :
    Device :=
  { d with stats.textureUploads := d.stats.textureUploads + 1 }.log
    (.upload texture width height bytes)

/-- Deletes a texture. -/
def deleteTexture (handle : Handle) (d : Device) : Device :=
  { d with textures := d.textures.erase handle }.log (.deleteTexture handle)

/-- Creates a framebuffer and its texture, unless memory has run out or the size
is not supported. -/
def createFramebuffer (width height : Nat) (d : Device) :
    Except DeviceFailure (Handle × Handle) × Device :=
  let asked := d.framebuffersAsked
  let d := { d with framebuffersAsked := asked + 1 }
  if d.traits.framebuffersExhausted asked then (.error ⟨"framebuffer", "out of memory"⟩, d)
  else if width = 0 ∨ height = 0 ∨ d.traits.maxDimension < width ∨ d.traits.maxDimension < height
  then
    (.error ⟨"framebuffer",
        toString width ++ "x" ++ toString height ++ " exceeds the supported texture size"⟩,
      d.log (.createFramebuffer width height none))
  else
    let (texture, d) := d.allocate
    let (framebuffer, d) := d.allocate
    let d := { d with
      textures := d.textures.set texture ()
      framebuffers := d.framebuffers.set framebuffer ⟨texture, Color.constant 0⟩
      stats.framebuffersCreated := d.stats.framebuffersCreated + 1 }
    (.ok (framebuffer, texture), d.log (.createFramebuffer width height (some (framebuffer, texture))))

/-- Gives a framebuffer another size.  Its texture exists from then on, even if it
had been deleted. -/
def resizeFramebuffer (handle : Handle) (width height : Nat) (d : Device) : Device :=
  let d :=
    match d.framebuffers.get? handle with
    | some target => { d with textures := d.textures.set target.texture () }
    | none => d
  d.log (.resizeFramebuffer handle width height)

/-- Deletes a framebuffer and its texture. -/
def deleteFramebuffer (handle : Handle) (d : Device) : Device :=
  let d :=
    match d.framebuffers.get? handle with
    | some target =>
      { d with
        framebuffers := d.framebuffers.erase handle
        textures := d.textures.erase target.texture }
    | none => d
  { d with bound := d.bound.filter (· ≠ handle) }.log (.deleteFramebuffer handle)

/-- Makes a framebuffer, or the output, what is drawn to. -/
def bindFramebuffer (handle : Option Handle) (width height : Nat) (d : Device) : Device :=
  { d with bound := handle }.log (.bindFramebuffer handle width height)

/-- Puts a texture into a unit. -/
def bindTexture (unit : Nat) (texture : Option Handle) (d : Device) : Device :=
  d.log (.bindTexture unit texture)

/-! ### Drawing -/

/-- A channel as a byte. -/
def byteOf (x : Float32) : UInt8 :=
  ((Float32.within 0 1 x * 255).integerPart .nearest 0 255).toNat.toUInt8

/-- Fills what is drawn to with a colour. -/
def clear (color : Color Float32) (d : Device) : Device :=
  let fill := color.map byteOf
  let d := { d with stats.clears := d.stats.clears + 1 }
  let d :=
    match d.bound.bind fun handle => (d.framebuffers.get? handle).map fun t => (handle, t) with
    | some (handle, target) =>
      { d with framebuffers := d.framebuffers.set handle { target with fill := fill } }
    | none => { d with outputFill := fill }
  d.log (.clear color)

/-- Draws with the current program. -/
def draw (d : Device) : Device :=
  { d with stats.draws := d.stats.draws + 1 }.log .draw

/-- The colour that what is drawn to was last cleared with. -/
def boundFill (d : Device) : Color UInt8 :=
  match d.bound.bind d.framebuffers.get? with
  | some target => target.fill
  | none => d.outputFill

/-- Reads pixels from what is drawn to, bottom row first. -/
def readPixels (width height : Nat) (d : Device) : List UInt8 × Device :=
  let size := width * height
  let bytes :=
    match d.traits.readback with
    | .filled => (List.replicate size d.boundFill.toList).flatten
    | .pattern => (List.range (4 * size)).map fun i => ((7 * i + 3) % 251).toUInt8
    | .short => List.replicate (4 * size - 1) 9
  (bytes, d.log (.readPixels width height))

end Device
end Collage
