import Collage.Proofs.Tree.Ownership

/-!
# Blueprints of compiled trees

On a device whose answers depend on sources only (`Steady`), compiling has a result that
can be told without the device: the `blueprint` of a document.  It asks `refusal?` where
compiling builds a program and `located` where it looks up a location, and its only
handles and locations are zero.  `blank` puts zero in their places in a compiled tree, so
that trees can be compared whose programs have other handles.

`compile_blueprint` says that compiling gives the blueprint, with an earlier tree or
without: what is left of an earlier tree changes nothing, as long as no program that is left
was linked from another source with the fingerprint of a source of the document.
-/

namespace Collage

open Device Collage.Action

/-! ### Devices that go by the source -/

namespace DeviceTraits

/-- What is refused depends on the sources and not on what was asked for before. -/
structure Steady (traits : DeviceTraits) : Prop where
  shader : ∀ asked stage source,
    traits.shaderRefusal asked stage source = traits.shaderRefusal 0 stage source
  link : ∀ asked vertex fragment,
    traits.linkRefusal asked vertex fragment = traits.linkRefusal 0 vertex fragment

theorem steady_new : ({} : DeviceTraits).Steady :=
  ⟨fun _ _ _ => rfl, fun _ _ _ => rfl⟩

/-- Why a steady device does not compile the vertex shader of a version. -/
def vertexRefusal? (traits : DeviceTraits) (version : String) : Option String :=
  traits.vertexFailure.orElse fun _ => shaderLog? traits 0 .vertex (ShaderLibrary.vertex version)

/-- Why a steady device makes no program of a fragment source. -/
def refusal? (traits : DeviceTraits) (version source : String) : Option String :=
  (shaderLog? traits 0 .fragment source).orElse fun _ =>
    linkLog? traits 0 (vertexObject version) (fragmentObject source)

/-- Whether the program of a fragment source has a uniform. -/
def keeps (traits : DeviceTraits) (source name : String) : Bool :=
  !traits.hiddenUniforms.contains name && (declaredUniforms source.toList).contains name &&
    !traits.removesUniform source name

/-- Where the program of a fragment source keeps a uniform: somewhere or nowhere. -/
def located (traits : DeviceTraits) (source name : String) : Option Nat :=
  if traits.keeps source name then some 0 else none

variable {traits : DeviceTraits}

theorem Steady.shaderLog?_eq (steady : traits.Steady) (asked : Nat) (stage : ShaderStage)
    (source : String) : shaderLog? traits asked stage source = shaderLog? traits 0 stage source := by
  unfold shaderLog?
  rw [steady.shader]

theorem Steady.linkLog?_eq (steady : traits.Steady) (asked : Nat) (vertex fragment : ShaderObject) :
    linkLog? traits asked vertex fragment = linkLog? traits 0 vertex fragment := by
  unfold linkLog?
  rw [steady.link]

theorem Steady.vertexRefusal?_eq_none (steady : traits.Steady) {version : String}
    (supported : traits.Supports version) : traits.vertexRefusal? version = none := by
  obtain ⟨works, asked, compiles⟩ := supported
  rw [steady.shaderLog?_eq] at compiles
  rw [vertexRefusal?, works, compiles]
  rfl

theorem Steady.refusal?_eq_none (steady : traits.Steady) {version source : String}
    (accepted : traits.Accepts version source) : traits.refusal? version source = none := by
  obtain ⟨⟨asked, compiles⟩, askedLink, links⟩ := accepted
  rw [steady.shaderLog?_eq] at compiles
  rw [steady.linkLog?_eq] at links
  rw [refusal?, compiles, links]
  rfl

theorem Steady.vertexRefusal?_eq_some (steady : traits.Steady) {version log : String}
    (lacks : traits.Lacks version log) : traits.vertexRefusal? version = some log := by
  rcases lacks with broken | ⟨works, asked, refused⟩
  · rw [vertexRefusal?, broken]
    rfl
  · rw [steady.shaderLog?_eq] at refused
    rw [vertexRefusal?, works, refused]
    rfl

theorem Steady.refusal?_eq_some (steady : traits.Steady) {version source log : String}
    (refuses : traits.Refuses version source log) : traits.refusal? version source = some log := by
  rcases refuses with ⟨asked, refused⟩ | ⟨⟨asked, compiles⟩, askedLink, refused⟩
  · rw [steady.shaderLog?_eq] at refused
    rw [refusal?, refused]
    rfl
  · rw [steady.shaderLog?_eq] at compiles
    rw [steady.linkLog?_eq] at refused
    rw [refusal?, compiles, refused]
    rfl

end DeviceTraits

/-! ### Trees without handles -/

/-- Zero in the place of a handle or a location. -/
def blank : Option Nat → Option Nat :=
  Option.map fun _ => 0

/-- A uniform without its location. -/
def Uniform.blank (uniform : Uniform) : Uniform :=
  { uniform with location := Collage.blank uniform.location }

/-- A uniform of a scene without its location. -/
def SceneUniform.blank (uniform : SceneUniform) : SceneUniform :=
  { uniform with location := Collage.blank uniform.location }

namespace BuiltinLocations

/-- Every location by what is known of its name. -/
def byName (find : String → Option Nat) : BuiltinLocations where
  resolution := find "gResolution"
  time := find "gTime"
  deltaTime := find "gDeltaTime"
  frame := find "gFrame"
  pointer := find "gPointer"
  date := find "gDate"
  previousLayer := find "gPreviousLayer"
  blendMode := find "gBlendMode"
  opacity := find "gOpacity"
  audioVolume := find "gAudioVolume"
  audioPeak := find "gAudioPeak"
  audioTrough := find "gAudioTrough"
  audioReactive := find "gAudioReactive"
  audioSpectrum := find "gAudioSpectrum"

/-- Locations of which only is known whether they exist. -/
def blank (locations : BuiltinLocations) : BuiltinLocations where
  resolution := Collage.blank locations.resolution
  time := Collage.blank locations.time
  deltaTime := Collage.blank locations.deltaTime
  frame := Collage.blank locations.frame
  pointer := Collage.blank locations.pointer
  date := Collage.blank locations.date
  previousLayer := Collage.blank locations.previousLayer
  blendMode := Collage.blank locations.blendMode
  opacity := Collage.blank locations.opacity
  audioVolume := Collage.blank locations.audioVolume
  audioPeak := Collage.blank locations.audioPeak
  audioTrough := Collage.blank locations.audioTrough
  audioReactive := Collage.blank locations.audioReactive
  audioSpectrum := Collage.blank locations.audioSpectrum

end BuiltinLocations

/-- What a shader layer became, without handles and locations. -/
def LayerProgram.blank (shader : LayerProgram) : LayerProgram :=
  { shader with
    program := Collage.blank shader.program
    builtins := shader.builtins.blank
    sceneUniforms := shader.sceneUniforms.map SceneUniform.blank }

/-- The kind of a layer without handles and locations. -/
def CompiledKind.blank : CompiledKind → CompiledKind
  | .shader built => .shader built.blank
  | other => other

/-- A layer without handles and locations. -/
def CompiledLayer.blank (layer : CompiledLayer) : CompiledLayer :=
  { layer with uniforms := layer.uniforms.map Uniform.blank, kind := layer.kind.blank }

namespace CompiledTree

/-- A tree without handles and locations. -/
def blank (tree : CompiledTree) : CompiledTree :=
  { tree with
    layers := tree.layers.map CompiledLayer.blank
    builder := { tree.builder with vertex := 0 } }

/-- The complete source that a shader layer records, with a program or without. -/
def recorded? (layer : CompiledLayer) : Option String :=
  match layer.kind with
  | .shader shader => some shader.source
  | _ => none

/-- The complete sources that the shader layers of a tree record. -/
def sources (tree : CompiledTree) : List String :=
  tree.layers.filterMap recorded?

/-! ### The blueprint -/

variable (traits : DeviceTraits) (version : String)

/-- What is wrong with a distance layer. -/
def blueprintErrors (source : String) (signature : Signature) : List Diagnostic :=
  let wrapped := WrappedSource.standalone version source (some signature.arity)
  match traits.refusal? version wrapped.text with
  | some log => failureDiagnostics wrapped log
  | none => []

variable {traits version} in
theorem blueprintErrors_of_accepted {source : String} {signature : Signature}
    (accepted : traits.refusal? version
      (WrappedSource.standalone version source (some signature.arity)).text = none) :
    blueprintErrors traits version source signature = [] := by
  rw [blueprintErrors, accepted]

/-- The first pass: distance layers. -/
def blueprintDistance (values : Layer → List ShaderValue) (placed : PlacedLayer) :
    CompiledLayer :=
  let start := startLayer placed
  match placed.layer with
  | .distance _ source _ _ =>
    let (signature, errors) :=
      match Signature.ofSource source with
      | .ok signature => (some signature, blueprintErrors traits version source signature)
      | .error error => (none, [error])
    let uniforms := Uniform.extract source (values placed.layer)
    { start with
      kind := .distance signature placed.children
      errors
      uniforms
      usesAudio := listens source uniforms }
  | _ => start

/-- The program of a source that a device does not refuse. -/
def blueprintProgram (text : String) (included : Option Scene) : LayerProgram where
  program := some 0
  source := text
  builtins := .byName (traits.located text)
  sceneUniforms := (included.map (·.bindings)).getD [] |>.map fun b =>
    ⟨b.layer, b.uniform, traits.located text b.name⟩
  usesScene := included.isSome

/-- A shader layer. -/
def blueprintShader (scene : Option Scene) (source : String) (values : List ShaderValue)
    (start : CompiledLayer) : CompiledLayer :=
  let included := includedScene scene source
  let wrapped := wrappedFor version scene source
  let uniforms := Uniform.extract source values
  match traits.refusal? version wrapped.text with
  | some log =>
    doneShader start source uniforms (failureDiagnostics wrapped log)
      { source := wrapped.text, usesScene := included.isSome }
  | none =>
    doneShader start source
      (uniforms.map fun u => { u with location := traits.located wrapped.text u.name }) []
      (blueprintProgram traits wrapped.text included)

/-- The last pass: shader and script layers. -/
def blueprintCode (values : Layer → List ShaderValue) (scene : Option Scene)
    (pair : PlacedLayer × CompiledLayer) : CompiledLayer :=
  let (placed, start) := pair
  match placed.layer with
  | .code .shader _ _ _ source _ =>
    blueprintShader traits version scene source (values placed.layer) start
  | .code .script _ _ _ source _ =>
    let uniforms := Uniform.extract source (values placed.layer)
    { start with uniforms, usesAudio := listens source uniforms }
  | _ => start

/-- What compiling gives on a steady device, told without the device. -/
def blueprint (values : Layer → List ShaderValue) (document : Layer) :
    Except Failure CompiledTree :=
  match traits.vertexRefusal? version with
  | some log => .error (.builtinShader "fullscreen vertex" log)
  | none =>
    let placed := document.placed
    let layers := placed.map (blueprintDistance traits version values)
    let scene := buildScene document placed layers
    let layers := (placed.zip layers).map (blueprintCode traits version values scene)
    .ok ⟨spreadAudio layers, scene, ⟨version, 0⟩⟩

theorem buildScene_of_plain {source : String}
    (plain : mentions source.toList "gSdf".toList = false) (head : LayerHead) (blend : BlendMode)
    (opacity : Float32) (values : List ShaderValue) (layers : List CompiledLayer) :
    buildScene (.code .shader head blend opacity source values)
      (Layer.code .shader head blend opacity source values).placed layers = none := by
  unfold buildScene
  rw [if_neg]
  have placed : (Layer.code .shader head blend opacity source values).placed =
      [⟨.code .shader head blend opacity source values, none, []⟩] := rfl
  simp only [placed, wantsScene, List.any_cons, List.any_nil, plain]
  decide

end CompiledTree

/-! ### Sound and blanks -/

namespace CompiledTree

theorem listensWith_blank (sceneAudio : Bool) (place : Nat) (layer : CompiledLayer)
    (behind : List CompiledLayer) :
    listensWith sceneAudio place layer.blank (behind.map CompiledLayer.blank) =
      listensWith sceneAudio place layer behind := by
  have audible : ∀ child : Nat,
      ((behind.map CompiledLayer.blank)[child]?).any (·.usesAudio) =
        (behind[child]?).any (·.usesAudio) := by
    intro child
    rw [List.getElem?_map, Option.any_map]
    rfl
  unfold listensWith
  simp only [audible]
  obtain ⟨_, _, _, _, _, _, _, _, _, kind⟩ := layer
  cases kind <;> rfl

theorem spreadAudioFrom_blank (sceneAudio : Bool) (place : Nat) (layers : List CompiledLayer) :
    spreadAudioFrom sceneAudio place (layers.map CompiledLayer.blank) =
      (spreadAudioFrom sceneAudio place layers).map CompiledLayer.blank := by
  induction layers generalizing place with
  | nil => rfl
  | cons layer rest ih =>
    rw [List.map_cons, spreadAudioFrom, spreadAudioFrom, ih, List.map_cons, listensWith_blank]
    rfl

/-- Sound spreads the same without handles. -/
theorem spreadAudio_blank (layers : List CompiledLayer) :
    spreadAudio (layers.map CompiledLayer.blank) = (spreadAudio layers).map CompiledLayer.blank := by
  have same : ∀ layer : CompiledLayer, layer.blank.isDistance = layer.isDistance := by
    rintro ⟨_, _, _, _, _, _, _, _, _, kind⟩
    cases kind <;> rfl
  have audible : ((fun layer : CompiledLayer => layer.isDistance && layer.usesAudio) ∘
      CompiledLayer.blank) = fun layer => layer.isDistance && layer.usesAudio :=
    funext fun layer => congrArg (· && layer.usesAudio) (same layer)
  unfold spreadAudio
  rw [spreadAudioFrom_blank, List.any_map, audible]

end CompiledTree

/-! ### Blanks of what is done -/

namespace CompiledTree

theorem doneShader_blank (start : CompiledLayer) (source : String) (uniforms : List Uniform)
    (errors : List Diagnostic) (program : LayerProgram) :
    (doneShader start source uniforms errors program).blank =
      doneShader start source (uniforms.map Uniform.blank) errors program.blank := by
  have audible : listens source (uniforms.map Uniform.blank) = listens source uniforms := by
    unfold listens
    rw [List.any_map]
    rfl
  unfold doneShader
  rw [audible]
  rfl

theorem blank_located (traits : DeviceTraits) (source name : String) :
    Collage.blank (traits.located source name) = traits.located source name := by
  unfold DeviceTraits.located
  cases traits.keeps source name <;> rfl

theorem blueprintProgram_blank (traits : DeviceTraits) (text : String)
    (included : Option Scene) :
    (blueprintProgram traits text included).blank = blueprintProgram traits text included := by
  unfold blueprintProgram LayerProgram.blank BuiltinLocations.blank BuiltinLocations.byName
  simp only [blank_located, List.map_map, Function.comp_def, SceneUniform.blank]
  rfl

theorem map_located_blank (traits : DeviceTraits) (source : String) (uniforms : List Uniform) :
    (uniforms.map fun u => { u with location := traits.located source u.name }).map
        Uniform.blank =
      uniforms.map fun u => { u with location := traits.located source u.name } := by
  rw [List.map_map]
  refine List.map_congr_left fun u _ => ?_
  rw [Function.comp_apply, Uniform.blank, blank_located]

end CompiledTree

/-! ### Looking up locations -/

variable {traits : DeviceTraits} {shaders : Multiset (Handle × ShaderObject)}
  {programs : Multiset (Handle × String)} {device later : Device}

/-- Whatever the device of a ledger is like, an action gives a value with a property, and leaves
the ledger as it was. -/
def Finds {α : Type} (traits : DeviceTraits) (shaders : Multiset (Handle × ShaderObject))
    (programs : Multiset (Handle × String)) (action : StateM Device α) (P : α → Prop) : Prop :=
  ∀ device, Holds traits shaders programs device →
    P (action device).1 ∧ Holds traits shaders programs (action device).2

namespace Finds

variable {α β : Type} {P : α → Prop} {Q : β → Prop}

theorem pure {value : α} (h : P value) :
    Finds traits shaders programs (Pure.pure value : StateM Device α) P :=
  fun _ holds => ⟨h, holds⟩

theorem bind {action : StateM Device α} {next : α → StateM Device β}
    (h : Finds traits shaders programs action P)
    (rest : ∀ value, P value → Finds traits shaders programs (next value) Q) :
    Finds traits shaders programs (action >>= next) Q := by
  intro device holds
  obtain ⟨found, holds⟩ := h device holds
  exact rest _ found _ holds

/-- Looking up a location of a program finds what its source says. -/
theorem uniformLocation {program : Handle} {source : String} (there : (program, source) ∈ programs)
    (name : String) :
    Finds traits shaders programs (Device.uniformLocation program name)
      fun location => blank location = traits.located source name := by
  intro device holds
  refine ⟨?_, holds.uniformLocation program name⟩
  have keeps : device.keepsUniform program name = traits.keeps source name := by
    rw [keepsUniform, holds.get?_program there, holds.get?_linkedFrom there, holds.behaves]
    rfl
  unfold Device.uniformLocation DeviceTraits.located
  rw [← keeps]
  cases device.keepsUniform program name with
  | false => rfl
  | true =>
    simp only [Bool.not_true, Bool.false_eq_true, if_false, if_true]
    cases device.locations.idxOf? (program, name) <;> rfl

theorem mapM {ι : Type} {step : ι → StateM Device α} {plan : ι → β} {view : α → β}
    (each : ∀ item, Finds traits shaders programs (step item) fun value => view value = plan item) :
    ∀ items : List ι, Finds traits shaders programs (items.mapM step)
      fun values => values.map view = items.map plan
  | [] => pure rfl
  | item :: rest => by
    rw [List.mapM_cons]
    refine (each item).bind fun value found => ?_
    refine (mapM each rest).bind fun values others => ?_
    exact pure (by rw [List.map_cons, List.map_cons, found, others])

end Finds

theorem BuiltinLocations.resolve_finds {program : Handle} {source : String}
    (there : (program, source) ∈ programs) :
    Finds traits shaders programs (resolve program)
      fun locations => locations.blank = byName (traits.located source) := by
  unfold resolve
  iterate 14
    refine (Finds.uniformLocation there _).bind fun _ _ => ?_
  refine Finds.pure ?_
  simp only [blank, byName, *]

namespace CompiledTree

theorem locate_finds {program : Handle} {source : String} (there : (program, source) ∈ programs)
    (uniforms : List Uniform) :
    Finds traits shaders programs (locate program uniforms) fun found =>
      found.map Uniform.blank =
        uniforms.map fun u => { u with location := traits.located source u.name } := by
  refine Finds.mapM (fun uniform => ?_) uniforms
  refine (Finds.uniformLocation there uniform.name).bind fun location found => Finds.pure ?_
  rw [Uniform.blank, found]

theorem locateScene_finds {program : Handle} {source : String}
    (there : (program, source) ∈ programs) (scene : Scene) :
    Finds traits shaders programs (locateScene program scene) fun found =>
      found.map SceneUniform.blank =
        scene.bindings.map fun b => ⟨b.layer, b.uniform, traits.located source b.name⟩ := by
  refine Finds.mapM (fun binding => ?_) scene.bindings
  refine (Finds.uniformLocation there binding.name).bind fun location found => Finds.pure ?_
  rw [SceneUniform.blank, found]

theorem locateAll_finds {program : Handle} {source : String}
    (there : (program, source) ∈ programs) (uniforms : List Uniform) (included : Option Scene) :
    Finds traits shaders programs (locateAll program uniforms included) fun found =>
      found.1.map Uniform.blank =
          uniforms.map (fun u => { u with location := traits.located source u.name }) ∧
        found.2.1.blank = .byName (traits.located source) ∧
        found.2.2.map SceneUniform.blank =
          (blueprintProgram traits source included).sceneUniforms := by
  intro device holds
  unfold locateAll
  obtain ⟨own, holds⟩ := locate_finds there uniforms device holds
  revert own holds
  cases locate program uniforms device with
  | mk uniforms mid =>
    intro own holds
    obtain ⟨builtins, holds⟩ := BuiltinLocations.resolve_finds there mid holds
    revert builtins holds
    dsimp only
    cases BuiltinLocations.resolve program mid with
    | mk locations last =>
      intro builtins holds
      cases included with
      | none => exact ⟨⟨own, builtins, rfl⟩, holds⟩
      | some scene =>
        obtain ⟨bindings, holds⟩ := locateScene_finds there scene last holds
        exact ⟨⟨own, builtins, bindings⟩, holds⟩

/-! ### Compiling by the blueprint -/

variable {builder : ProgramBuilder} {owned : Multiset (Handle × String)}

theorem distanceErrors_blueprint (steady : traits.Steady) (there : builder.entry ∈ shaders)
    (h : Holds traits shaders programs device) (source : String) (signature : Signature) :
    (distanceErrors builder source signature device).1 =
      blueprintErrors traits builder.version source signature := by
  unfold distanceErrors blueprintErrors
  generalize WrappedSource.standalone builder.version source (some signature.arity) = wrapped
  dsimp only
  cases built : builder.build wrapped.text device with
  | mk outcome later =>
    cases outcome with
    | error log =>
      rw [steady.refusal?_eq_some (ProgramBuilder.build_error h there built).1]
    | ok program =>
      rw [steady.refusal?_eq_none (ProgramBuilder.build_ok h there built).1]

theorem compileDistance_blueprint (legacy : Legacy) (steady : traits.Steady)
    (there : builder.entry ∈ shaders) (h : Holds traits shaders programs device)
    (placed : PlacedLayer) :
    (compileDistance builder legacy placed device).1 =
      blueprintDistance traits builder.version legacy.valuesFor placed := by
  obtain ⟨layer, parent, children⟩ := placed
  cases layer with
  | group head blend opacity inside => rfl
  | code language head blend opacity source values => rfl
  | distance head source values operands =>
    unfold compileDistance blueprintDistance
    dsimp only
    cases Signature.ofSource source with
    | error error => rfl
    | ok signature =>
      dsimp only
      rw [← distanceErrors_blueprint steady there h source signature]
      rfl

/-- **The first pass** goes by the blueprint. -/
theorem compileDistances_blueprint (legacy : Legacy) (steady : traits.Steady)
    (there : builder.entry ∈ shaders) (h : Holds traits shaders programs device)
    (placed : List PlacedLayer) :
    ((placed.mapM (compileDistance builder legacy) :
        StateM Device (List CompiledLayer)) device).1 =
      placed.map (blueprintDistance traits builder.version legacy.valuesFor) := by
  refine (mapM_invariant (compileDistance builder legacy) (fun seen layers device =>
    layers = seen.map (blueprintDistance traits builder.version legacy.valuesFor) ∧
      Holds traits shaders programs device) placed [] [] device ?_ ⟨rfl, h⟩).1
  rintro placed - seen layers device ⟨rfl, holds⟩
  refine ⟨?_, (compileDistance_holds legacy there holds placed).2⟩
  rw [compileDistance_blueprint legacy steady there holds, List.map_append]
  rfl

/-- No program that is owned was linked from another source with the fingerprint of `text`. -/
def Apart (owned : Multiset (Handle × String)) (text : String) : Prop :=
  ∀ entry ∈ owned, fingerprint entry.2 = fingerprint text → entry.2 = text

theorem compileShader_blueprint (legacy : Legacy) (steady : traits.Steady)
    (there : builder.entry ∈ shaders) {layers : List CompiledLayer} {state : BuildState}
    {entries : List (Handle × String)} {kept : Multiset (Handle × String)}
    (h : Reached traits builder.version shaders programs owned layers state entries kept)
    (scene : Option Scene) (layer : Layer) {source : String} (start : CompiledLayer)
    (apart : Apart owned (wrappedFor builder.version scene source).text) :
    (compileShader builder legacy scene layer source start state).1.blank =
      (blueprintShader traits builder.version scene source (legacy.valuesFor layer) start).blank := by
  obtain ⟨device, table⟩ := state
  unfold blueprintShader
  dsimp only
  obtain ⟨errors, ⟨later, spare⟩, failed, made⟩ |
      ⟨program, later, spare, found, built, located, made⟩ :=
    compileShader_cases builder legacy scene layer source start (device, table)
  · obtain ⟨⟨log, refused, rfl⟩, -, -⟩ := programFor_error there h.holds failed
    rw [made, steady.refusal?_eq_some refused]
  · obtain ⟨linkedFrom, others, -, backs, origin, -, holds⟩ :=
      programFor_ok there h.spare h.holds built
    obtain rfl : linkedFrom = (wrappedFor builder.version scene source).text :=
      origin.elim (fun old => apart _ (Multiset.mem_of_le h.among old) backs.source) id
    have known := (locateAll_finds
      (Multiset.mem_add.mpr (.inr (Multiset.mem_cons_self _ _)))
      (Uniform.extract source (legacy.valuesFor layer)) (includedScene scene source) later
      holds).1
    rw [located] at known
    obtain ⟨own, fixed, bindings⟩ := known
    rw [made, steady.refusal?_eq_none backs.accepted]
    dsimp only at own fixed bindings ⊢
    rw [doneShader_blank, doneShader_blank, blueprintProgram_blank, map_located_blank, own,
      LayerProgram.blank, fixed, bindings]
    rfl

theorem recorded?_blueprintShader (scene : Option Scene) (source : String)
    (values : List ShaderValue) (start : CompiledLayer) :
    recorded? (blueprintShader traits version scene source values start) =
      some (wrappedFor version scene source).text := by
  unfold blueprintShader
  dsimp only
  cases traits.refusal? version (wrappedFor version scene source).text <;> rfl

theorem compileCode_blueprint (legacy : Legacy) (steady : traits.Steady)
    (there : builder.entry ∈ shaders) {layers : List CompiledLayer} {state : BuildState}
    {entries : List (Handle × String)} {kept : Multiset (Handle × String)}
    (h : Reached traits builder.version shaders programs owned layers state entries kept)
    (scene : Option Scene) (pair : PlacedLayer × CompiledLayer)
    (apart : ∀ text ∈ recorded? (blueprintCode traits builder.version legacy.valuesFor scene pair),
      Apart owned text) :
    (compileCode builder legacy scene pair state).1.blank =
      (blueprintCode traits builder.version legacy.valuesFor scene pair).blank := by
  obtain ⟨⟨layer, parent, children⟩, start⟩ := pair
  cases layer with
  | group head blend opacity inside => rfl
  | distance head source values operands => rfl
  | code language head blend opacity source values =>
    cases language with
    | script => rfl
    | shader =>
      have plan : blueprintCode traits builder.version legacy.valuesFor scene
          (⟨.code .shader head blend opacity source values, parent, children⟩, start) =
        blueprintShader traits builder.version scene source
          (legacy.valuesFor (.code .shader head blend opacity source values)) start := rfl
      rw [plan, recorded?_blueprintShader] at apart
      rw [plan, compileCode_shader]
      exact compileShader_blueprint legacy steady there h scene _ start (apart _ rfl)

/-- **The last pass** goes by the blueprint. -/
theorem compileCodes_blueprint (legacy : Legacy) (steady : traits.Steady)
    (there : builder.entry ∈ shaders) {kept : Multiset (Handle × String)} (among : kept ≤ owned)
    (spare : Legacy.Spare traits builder.version kept legacy.programs)
    (h : Holds traits shaders (kept + programs) device) (scene : Option Scene)
    (pairs : List (PlacedLayer × CompiledLayer)) (plain : ∀ pair ∈ pairs, pair.2.linked? = none)
    (apart : ∀ pair ∈ pairs,
      ∀ text ∈ recorded? (blueprintCode traits builder.version legacy.valuesFor scene pair),
        Apart owned text) :
    (compileCodes builder legacy scene pairs device).1.map CompiledLayer.blank =
      (pairs.map (blueprintCode traits builder.version legacy.valuesFor scene)).map
        CompiledLayer.blank := by
  have passed := mapM_invariant (compileCode builder legacy scene) (fun seen layers state =>
    (∃ entries kept,
      Reached traits builder.version shaders programs owned layers state entries kept) ∧
    layers.map CompiledLayer.blank =
      (seen.map (blueprintCode traits builder.version legacy.valuesFor scene)).map
        CompiledLayer.blank)
    pairs [] [] (device, legacy.programs) ?_
    ⟨⟨[], kept, .nil, List.forall_mem_nil _, spare, among, by simpa using h⟩, rfl⟩
  · exact passed.2
  · rintro ⟨placed, start⟩ inside seen layers state ⟨⟨entries, kept, reached⟩, same⟩
    refine ⟨compileCode_reached there reached scene placed (plain _ inside), ?_⟩
    rw [List.map_append, same, List.map_append, List.map_append]
    refine congrArg _ ?_
    rw [List.map_singleton, List.map_singleton, List.map_singleton,
      compileCode_blueprint legacy steady there reached scene _ (apart _ inside)]

/-- **Compiling goes by the blueprint**, whatever is left of an earlier tree. -/
theorem compile_blueprint (steady : traits.Steady) (document : Layer)
    {previous : Option CompiledTree}
    (left : (Legacy.ofPrevious version previous device).1.Left traits version shaders programs
      owned (Legacy.ofPrevious version previous device).2)
    (apart : ∀ plan, blueprint traits version
        (Legacy.ofPrevious version previous device).1.valuesFor document = .ok plan →
      ∀ text ∈ plan.sources, Apart owned text) :
    ((compile document previous version).runOn device).1.map blank =
      (blueprint traits version (Legacy.ofPrevious version previous device).1.valuesFor
        document).map blank := by
  have built := builderFor_yields left
  unfold Yields at built
  rw [compile_eq]
  generalize Legacy.ofPrevious version previous device = given at built apart ⊢
  obtain ⟨legacy, device⟩ := given
  dsimp only at built apart ⊢
  unfold blueprint at apart ⊢
  cases made : (builderFor version legacy.builder).runOn device with
  | mk outcome mid =>
    rw [made] at built
    cases outcome with
    | error failure =>
      obtain ⟨-, log, lacks, rfl⟩ := built
      rw [steady.vertexRefusal?_eq_some lacks]
    | ok builder =>
      obtain ⟨rfl, supported, kept, among, spare, holds⟩ := built
      rw [steady.vertexRefusal?_eq_none supported] at apart ⊢
      have there : builder.entry ∈ builder.entry ::ₘ shaders := Multiset.mem_cons_self _ _
      have first := compileDistances_blueprint legacy steady there holds document.placed
      obtain ⟨plain, holds⟩ := compileDistances_holds legacy there holds document.placed
      dsimp only at apart ⊢
      revert first plain holds
      cases (document.placed.mapM (compileDistance builder legacy) :
          StateM Device (List CompiledLayer)) mid with
      | mk layers last =>
        intro first plain holds
        dsimp only at first plain holds ⊢
        rw [← first] at apart ⊢
        have apart := apart _ rfl
        unfold sources at apart
        dsimp only at apart
        have codes := compileCodes_blueprint legacy steady there among spare holds
          (buildScene document document.placed layers) (document.placed.zip layers)
          (fun pair inside => plain pair.2 (List.of_mem_zip inside).2) ?_
        · revert codes
          cases compileCodes builder legacy (buildScene document document.placed layers)
              (document.placed.zip layers) last with
          | mk final device =>
            intro codes
            simp only [Except.map, Except.ok.injEq]
            unfold blank
            dsimp only at codes ⊢
            rw [← spreadAudio_blank, codes, spreadAudio_blank]
        · intro pair inside text recorded
          refine apart text ?_
          rw [filterMap_spreadAudio recorded? fun _ _ => rfl, List.filterMap_map]
          exact List.mem_filterMap.mpr ⟨pair, inside, recorded⟩

end CompiledTree
end Collage
