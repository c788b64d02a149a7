import Collage.Fingerprint
import Collage.Program.Wrapped
import Collage.Tree.Basic

/-!
# Compiling documents

Distance layers are built on their own first, so that their errors show on their
own lines; then all of them become one scene; then shader layers are built, with
the scene in front of those that use it.  What is wrong with a layer's code is
kept with the layer.

A tree that was compiled before passes on the values of its uniforms and the
programs whose source has not changed, which their fingerprints tell; what it owned
besides is deleted.
-/

namespace Collage

/-! ### What an earlier tree leaves -/

/-- What an earlier tree leaves to the next one. -/
structure Legacy where
  /-- the values of the uniforms, by the ids of the layers -/
  values : Table String (List ShaderValue) := {}
  /-- the programs, by the fingerprints of their sources -/
  programs : Table UInt64 Handle := {}
  builder : Option ProgramBuilder := none

namespace Legacy

/-- Keeps the program of a layer; an earlier one of the same fingerprint is deleted. -/
def keepProgram (kept : Table UInt64 Handle × Device) (layer : CompiledLayer) :
    Table UInt64 Handle × Device :=
  match layer.kind with
  | .shader ⟨some program, source, _, _, _⟩ =>
    let key := fingerprint source
    let device :=
      match kept.1.get? key with
      | some older => kept.2.deleteProgram older
      | none => kept.2
    (kept.1.set key program, device)
  | _ => kept

/-- Deletes the programs of a table. -/
def deletePrograms (programs : Table UInt64 Handle) (device : Device) : Device :=
  programs.values.foldl (fun device program => device.deleteProgram program) device

/-- What a tree leaves to one of a language version.  Programs of another version
are of no use. -/
def ofTree (version : String) (tree : CompiledTree) (device : Device) : Legacy × Device :=
  let values := tree.layers.foldl (fun t layer => t.set layer.id layer.values) {}
  let (programs, device) := tree.layers.foldl keepProgram ({}, device)
  if tree.builder.version = version then (⟨values, programs, some tree.builder⟩, device)
  else (⟨values, {}, none⟩, tree.builder.release (deletePrograms programs device))

/-- What an earlier tree leaves, if there is one. -/
def ofPrevious (version : String) (previous : Option CompiledTree) (device : Device) :
    Legacy × Device :=
  match previous with
  | some tree => ofTree version tree device
  | none => ({}, device)

/-- The values that a layer starts from: those of the earlier tree if it had the
layer, and otherwise those of the document. -/
def valuesFor (legacy : Legacy) (layer : Layer) : List ShaderValue :=
  (legacy.values.get? layer.id).getD layer.values

end Legacy

/-! ### The passes -/

namespace CompiledTree

/-- A layer before anything is built. -/
def startLayer (placed : PlacedLayer) : CompiledLayer :=
  let head := placed.layer.head
  let start (blend : BlendMode) (opacity : Float32) (kind : CompiledKind) : CompiledLayer :=
    { id := head.id, name := head.name, parent := placed.parent, visible := head.visible
      blend, opacity, kind }
  match placed.layer with
  | .group _ blend opacity _ => start blend opacity (.group placed.children)
  | .code .shader _ blend opacity _ _ => start blend opacity (.shader {})
  | .code .script _ blend opacity source _ => start blend opacity (.script source)
  | .distance .. => start .normal 1 (.distance none placed.children)

/-- What is wrong with code that a device rejects; at least one error. -/
def failureDiagnostics (wrapped : WrappedSource) (log : String) : List Diagnostic :=
  let found := wrapped.diagnostics log
  if found.any Diagnostic.isError then found
  else found ++ [⟨0, "shader failed to compile", .error⟩]

/-- Whether code or the values of its uniforms listen to sound. -/
def listens (source : String) (uniforms : List Uniform) : Bool :=
  mentions source.toList "gAudio".toList || uniforms.any (·.value.usesAudio)

/-- What is wrong with a distance layer, built on its own. -/
def distanceErrors (builder : ProgramBuilder) (source : String) (signature : Signature) :
    StateM Device (List Diagnostic) := fun device =>
  let wrapped := WrappedSource.standalone builder.version source (some signature.arity)
  match builder.build wrapped.text device with
  | (.ok program, device) => ([], device.deleteProgram program)
  | (.error log, device) => (failureDiagnostics wrapped log, device)

/-- The first pass: distance layers. -/
def compileDistance (builder : ProgramBuilder) (legacy : Legacy) (placed : PlacedLayer) :
    StateM Device CompiledLayer := do
  let start := startLayer placed
  match placed.layer with
  | .distance _ source _ _ =>
    let (signature, errors) ←
      match Signature.ofSource source with
      | .ok signature => do pure (some signature, ← distanceErrors builder source signature)
      | .error error => pure (none, [error])
    let uniforms := Uniform.extract source (legacy.valuesFor placed.layer)
    return { start with
      kind := .distance signature placed.children
      errors
      uniforms
      usesAudio := listens source uniforms }
  | _ => return start

/-- Whether the document needs a scene: it has distance layers, or code that asks
for one. -/
def wantsScene (placed : List PlacedLayer) : Bool :=
  placed.any fun p =>
    match p.layer with
    | .distance .. => true
    | .code .shader _ _ _ source _ => mentions source.toList "gSdf".toList
    | _ => false

/-- The scene of the distance layers, when one is needed.  Layers with errors take
no part. -/
def buildScene (document : Layer) (placed : List PlacedLayer) (layers : List CompiledLayer) :
    Option Scene :=
  if wantsScene placed then
    let pairs := (placed.zip layers).zipIdx.filter fun ((p, _), _) => p.layer.isDistance
    let places := pairs.map (·.2)
    let slots (among : List Nat) : List Nat := among.filterMap places.idxOf?
    let sceneLayers := pairs.map fun ((p, layer), _) =>
      let signature :=
        match layer.kind with
        | .distance signature _ => signature.filter fun _ => !layer.hasErrors
        | _ => none
      (⟨layer.id, p.layer.source?.getD "", signature, layer.uniforms, slots p.children⟩ :
        SceneLayer)
    let scene := Scene.build sceneLayers (slots document.sceneRoots)
    some { scene with
      bindings := scene.bindings.map fun b => { b with layer := places.getD b.layer 0 } }
  else none

/-- The state of the last pass: a device, and the programs of the earlier tree
that have not been used again. -/
abbrev BuildState := Device × Table UInt64 Handle

/-- The program of a source: one of the earlier tree, or a new one. -/
def programFor (builder : ProgramBuilder) (wrapped : WrappedSource) :
    StateM BuildState (Except (List Diagnostic) Handle) := fun (device, spare) =>
  let key := fingerprint wrapped.text
  match spare.get? key with
  | some program => (.ok program, device, spare.erase key)
  | none =>
    match builder.build wrapped.text device with
    | (.ok program, device) => (.ok program, device, spare)
    | (.error log, device) => (.error (failureDiagnostics wrapped log), device, spare)

/-- Looks up where a program keeps uniforms. -/
def locate (program : Handle) (uniforms : List Uniform) : StateM Device (List Uniform) :=
  uniforms.mapM fun u => do
    return { u with location := ← Device.uniformLocation program u.name }

/-- Looks up where a program keeps the uniforms of the scene. -/
def locateScene (program : Handle) (scene : Scene) : StateM Device (List SceneUniform) :=
  scene.bindings.mapM fun b => do
    return ⟨b.layer, b.uniform, ← Device.uniformLocation program b.name⟩

/-- Looks up where a program keeps all that it may be given. -/
def locateAll (program : Handle) (uniforms : List Uniform) (included : Option Scene) :
    StateM Device (List Uniform × BuiltinLocations × List SceneUniform) := fun device =>
  let (uniforms, device) := locate program uniforms device
  let (builtins, device) := BuiltinLocations.resolve program device
  match included with
  | some scene =>
    let (sceneUniforms, device) := locateScene program scene device
    ((uniforms, builtins, sceneUniforms), device)
  | none => ((uniforms, builtins, []), device)

/-- The scene that code includes, if it asks for one. -/
def includedScene (scene : Option Scene) (source : String) : Option Scene :=
  scene.filter fun _ => mentions source.toList "gSdf".toList

/-- A shader layer of which all is known. -/
def doneShader (start : CompiledLayer) (source : String) (uniforms : List Uniform)
    (errors : List Diagnostic) (program : LayerProgram) : CompiledLayer :=
  { start with
    uniforms
    errors
    usesAudio := listens source uniforms
    kind := .shader program }

/-- A shader layer of the last pass. -/
def compileShader (builder : ProgramBuilder) (legacy : Legacy) (scene : Option Scene)
    (layer : Layer) (source : String) (start : CompiledLayer) :
    StateM BuildState CompiledLayer := fun state =>
  let included := includedScene scene source
  let wrapped := WrappedSource.layer builder.version source (included.map (·.code))
  let uniforms := Uniform.extract source (legacy.valuesFor layer)
  match programFor builder wrapped state with
  | (.error errors, state) =>
    (doneShader start source uniforms errors
      { source := wrapped.text, usesScene := included.isSome }, state)
  | (.ok program, device, spare) =>
    let ((uniforms, builtins, sceneUniforms), device) :=
      locateAll program uniforms included device
    (doneShader start source uniforms []
      ⟨some program, wrapped.text, builtins, sceneUniforms, included.isSome⟩, device, spare)

/-- The last pass: shader and script layers. -/
def compileCode (builder : ProgramBuilder) (legacy : Legacy) (scene : Option Scene)
    (pair : PlacedLayer × CompiledLayer) : StateM BuildState CompiledLayer :=
  let (placed, start) := pair
  match placed.layer with
  | .code .shader _ _ _ source _ =>
    compileShader builder legacy scene placed.layer source start
  | .code .script _ _ _ source _ =>
    let uniforms := Uniform.extract source (legacy.valuesFor placed.layer)
    pure { start with uniforms, usesAudio := listens source uniforms }
  | _ => pure start

/-- The last pass over all layers; programs that were not used again are deleted. -/
def compileCodes (builder : ProgramBuilder) (legacy : Legacy) (scene : Option Scene)
    (pairs : List (PlacedLayer × CompiledLayer)) : StateM Device (List CompiledLayer) :=
  fun device =>
    let (layers, device, spare) :=
      (pairs.mapM (compileCode builder legacy scene)).run (device, legacy.programs)
    (layers, Legacy.deletePrograms spare device)

/-! ### Sound -/

/-- Whether a layer listens to sound, given the layers behind it in the list. -/
def listensWith (sceneAudio : Bool) (place : Nat) (layer : CompiledLayer)
    (behind : List CompiledLayer) : Bool :=
  let throughScene :=
    match layer.kind with
    | .shader shader => shader.usesScene && sceneAudio
    | _ => false
  let throughChild := layer.children.any fun child =>
    (behind[child - (place + 1)]?).any (·.usesAudio)
  layer.usesAudio || throughScene || throughChild

/-- Spreads listening from layers to those that hold them, from `place` on. -/
def spreadAudioFrom (sceneAudio : Bool) : Nat → List CompiledLayer → List CompiledLayer
  | _, [] => []
  | place, layer :: rest =>
    let behind := spreadAudioFrom sceneAudio (place + 1) rest
    { layer with usesAudio := listensWith sceneAudio place layer behind } :: behind

/-- Spreads listening: a shader that includes a scene listens when a layer of the
scene does, and a layer listens when one inside it does. -/
def spreadAudio (layers : List CompiledLayer) : List CompiledLayer :=
  let sceneAudio := layers.any fun layer => layer.isDistance && layer.usesAudio
  spreadAudioFrom sceneAudio 0 layers

/-! ### The whole -/

/-- What programs are built with: what the earlier tree used, or something new. -/
def builderFor (version : String) : Option ProgramBuilder → Action Device ProgramBuilder
  | some builder => pure builder
  | none => ProgramBuilder.create version

/-- Compiles a document for a language version.  The earlier tree is used up, also
when this fails. -/
def compile (document : Layer) (previous : Option CompiledTree) (version : String) :
    Action Device CompiledTree := do
  let legacy ← modifyGet (Legacy.ofPrevious version previous)
  let builder ← builderFor version legacy.builder
  let placed := document.placed
  let layers ← liftM (placed.mapM (compileDistance builder legacy))
  let scene := buildScene document placed layers
  let layers ← liftM (compileCodes builder legacy scene (placed.zip layers))
  return ⟨spreadAudio layers, scene, builder⟩

end CompiledTree
end Collage
