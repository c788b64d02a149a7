import Collage.Proofs.Device.Words
import Collage.Proofs.Frame.Pieces
import Collage.Proofs.Tree.Backstage
import Collage.Proofs.Tree.Blueprint

/-!
# Where a compiled tree says that uniforms are

A device never forgets a location, and where it says that a program keeps a uniform, the uniform has
that name.  So the locations that a layer keeps in a compiled tree are those of the uniforms which
they are kept for (`Located`): this is so when its program has been built, and stays so while the
layers behind it are compiled (`compileCodes_located`).
-/

namespace Collage

open Collage.Action

/-- A place where a program keeps a uniform, if it has it, is known under the name. -/
def Found (locations : List (Handle × String)) (program : Handle) (slot : Option Nat)
    (name : String) : Prop :=
  ∀ location ∈ slot, locations[location]? = some (program, name)

theorem Found.mono {locations more : List (Handle × String)} (grows : locations <+: more)
    {program : Handle} {slot : Option Nat} {name : String}
    (found : Found locations program slot name) : Found more program slot name := by
  intro location inside
  obtain ⟨rest, rfl⟩ := grows
  have there := found location inside
  rwa [List.getElem?_append_left (List.getElem?_eq_some_iff.mp there).1]

/-- The names of the uniforms that every layer has, in the order of their slots. -/
def BuiltinLocations.names : List String :=
  ["gResolution", "gTime", "gDeltaTime", "gFrame", "gPointer", "gDate", "gPreviousLayer",
    "gBlendMode", "gOpacity", "gAudioVolume", "gAudioPeak", "gAudioTrough", "gAudioReactive",
    "gAudioSpectrum"]

/-! ### Looking up -/

/-- An action that forgets no location, with what it gives and the locations known then. -/
def LooksUp {α : Type} (action : StateM Device α)
    (P : List (Handle × String) → α → Prop) : Prop :=
  ∀ device, device.locations <+: (action device).2.locations ∧
    P (action device).2.locations (action device).1

namespace LooksUp

variable {α β : Type} {P : List (Handle × String) → α → Prop}
  {Q : List (Handle × String) → β → Prop}

theorem bind {action : StateM Device α} {next : α → StateM Device β} (h : LooksUp action P)
    (stays : ∀ (locations more : List (Handle × String)) value, locations <+: more →
      P locations value → P more value)
    (rest : ∀ value, LooksUp (next value) fun locations last => P locations value → Q locations last) :
    LooksUp (action >>= next) Q := by
  intro device
  obtain ⟨grows, found⟩ := h device
  obtain ⟨grows', others⟩ := rest (action device).1 (action device).2
  exact ⟨grows.trans grows', others (stays _ _ _ grows' found)⟩

theorem pure {value : α} (h : ∀ locations, P locations value) :
    LooksUp (Pure.pure value : StateM Device α) P :=
  fun device => ⟨List.prefix_rfl, h device.locations⟩

/-- A location that is looked up is known under the name. -/
theorem uniformLocation (program : Handle) (name : String) :
    LooksUp (Device.uniformLocation program name)
      fun locations slot => Found locations program slot name := by
  intro device
  unfold Device.uniformLocation
  split
  · exact ⟨List.prefix_rfl, fun _ none => absurd none (Option.not_mem_none _)⟩
  · cases known : device.locations.idxOf? (program, name) with
    | none =>
      refine ⟨List.prefix_append _ _, ?_⟩
      rintro _ ⟨⟩
      exact List.getElem?_concat_length
    | some place =>
      refine ⟨List.prefix_rfl, ?_⟩
      rintro _ ⟨⟩
      obtain ⟨there, same, -⟩ := List.idxOf?_eq_some_iff.mp known
      exact List.getElem?_eq_some_iff.mpr ⟨there, same⟩

/-- What is looked up for each of several items. -/
theorem mapM {ι : Type} {step : ι → StateM Device α} {R : List (Handle × String) → ι → α → Prop}
    (stays : ∀ (locations more : List (Handle × String)) item value, locations <+: more →
      R locations item value → R more item value)
    (each : ∀ item, LooksUp (step item) fun locations => R locations item) :
    ∀ items : List ι, LooksUp (items.mapM step)
      fun locations values => List.Forall₂ (R locations) items values
  | [] => pure fun _ => .nil
  | item :: rest => by
    rw [List.mapM_cons]
    refine (each item).bind (fun _ _ _ => stays _ _ _ _) fun value => ?_
    refine (mapM stays each rest).bind
      (fun _ _ _ grows found => found.imp fun _ _ => stays _ _ _ _ grows) fun values => ?_
    exact pure fun _ others first => .cons first others

end LooksUp

/-- Places of uniforms that every layer has. -/
def BuiltinLocations.Found (locations : List (Handle × String)) (program : Handle)
    (builtins : BuiltinLocations) : Prop :=
  List.Forall₂ (Collage.Found locations program) builtins.slots names

theorem BuiltinLocations.resolve_looksUp (program : Handle) :
    LooksUp (resolve program) fun locations builtins => builtins.Found locations program := by
  have stays : ∀ name (locations more : List (Handle × String)) (slot : Option Nat),
      locations <+: more → Collage.Found locations program slot name →
      Collage.Found more program slot name := fun _ _ _ _ grows found => found.mono grows
  unfold resolve
  iterate 14
    refine (LooksUp.uniformLocation program _).bind (stays _) fun _ => ?_
  refine LooksUp.pure fun locations => ?_
  unfold BuiltinLocations.Found slots names
  intros
  repeat' constructor
  all_goals assumption

namespace CompiledTree

/-- A uniform of a scene at its place. -/
structure SceneFound (locations : List (Handle × String)) (program : Handle)
    (binding : SceneBinding) (found : SceneUniform) : Prop where
  layer : found.layer = binding.layer
  uniform : found.uniform = binding.uniform
  place : Found locations program found.location binding.name

theorem SceneFound.mono {locations more : List (Handle × String)} (grows : locations <+: more)
    {program : Handle} {binding : SceneBinding} {found : SceneUniform}
    (h : SceneFound locations program binding found) : SceneFound more program binding found :=
  ⟨h.layer, h.uniform, h.place.mono grows⟩

/-- Where a program keeps what it may be given is known. -/
structure AllFound (locations : List (Handle × String)) (program : Handle)
    (bindings : List SceneBinding) (uniforms : List Uniform) (builtins : BuiltinLocations)
    (sceneUniforms : List SceneUniform) : Prop where
  own : ∀ uniform ∈ uniforms, Found locations program uniform.location uniform.name
  builtins : builtins.Found locations program
  scene : List.Forall₂ (SceneFound locations program) bindings sceneUniforms

theorem AllFound.mono {locations more : List (Handle × String)} (grows : locations <+: more)
    {program : Handle} {bindings : List SceneBinding} {uniforms : List Uniform}
    {builtins : BuiltinLocations} {sceneUniforms : List SceneUniform}
    (h : AllFound locations program bindings uniforms builtins sceneUniforms) :
    AllFound more program bindings uniforms builtins sceneUniforms :=
  ⟨fun uniform inside => (h.own uniform inside).mono grows,
    h.builtins.imp fun _ _ => Found.mono grows, h.scene.imp fun _ _ => SceneFound.mono grows⟩

theorem locate_looksUp (program : Handle) (uniforms : List Uniform) :
    LooksUp (locate program uniforms) fun locations found =>
      ∀ uniform ∈ found, Found locations program uniform.location uniform.name := by
  have each : LooksUp (locate program uniforms) fun locations found =>
      List.Forall₂ (fun _ uniform => Found locations program uniform.location uniform.name)
        uniforms found := by
    refine LooksUp.mapM (fun _ _ _ _ grows found => found.mono grows) (fun uniform => ?_) uniforms
    refine (LooksUp.uniformLocation program uniform.name).bind
      (fun _ _ _ grows found => found.mono grows) fun location => ?_
    exact LooksUp.pure fun _ found => found
  intro device
  obtain ⟨grows, found⟩ := each device
  refine ⟨grows, fun uniform inside => ?_⟩
  obtain ⟨_, _, place⟩ := exists_of_mem_right found inside
  exact place

theorem locateScene_looksUp (program : Handle) (scene : Scene) :
    LooksUp (locateScene program scene) fun locations found =>
      List.Forall₂ (SceneFound locations program) scene.bindings found := by
  refine LooksUp.mapM (fun _ _ _ _ grows found => found.mono grows) (fun binding => ?_) _
  refine (LooksUp.uniformLocation program binding.name).bind
    (fun _ _ _ grows found => found.mono grows) fun location => ?_
  exact LooksUp.pure fun _ found => ⟨rfl, rfl, found⟩

/-- The bindings of the scene that a program includes. -/
def includedBindings (included : Option Scene) : List SceneBinding :=
  (included.map (·.bindings)).getD []

theorem locateAll_looksUp (program : Handle) (uniforms : List Uniform) (included : Option Scene) :
    LooksUp (locateAll program uniforms included) fun locations found =>
      AllFound locations program (includedBindings included) found.1 found.2.1 found.2.2 := by
  intro device
  obtain ⟨grows, own⟩ := locate_looksUp program uniforms device
  unfold locateAll
  revert grows own
  cases locate program uniforms device with
  | mk uniforms mid =>
    intro grows own
    obtain ⟨grows', builtins⟩ := BuiltinLocations.resolve_looksUp program mid
    revert grows' builtins
    dsimp only at grows own ⊢
    cases BuiltinLocations.resolve program mid with
    | mk builtins last =>
      intro grows' builtins
      have stays := fun uniform inside => (own uniform inside).mono grows'
      cases included with
      | none => exact ⟨grows.trans grows', stays, builtins, .nil⟩
      | some scene =>
        obtain ⟨grows'', found⟩ := locateScene_looksUp program scene last
        refine ⟨(grows.trans grows').trans grows'', fun uniform inside => ?_, ?_, found⟩
        · exact (stays uniform inside).mono grows''
        · exact builtins.imp fun _ _ => Found.mono grows''

/-! ### Layers -/

/-- The locations that a layer keeps are those of its uniforms, if it is a shader layer with a
program and includes these bindings of a scene. -/
def Located (locations : List (Handle × String)) (bindings : List SceneBinding)
    (layer : CompiledLayer) : Prop :=
  match layer.kind with
  | .shader shader => ∀ program ∈ shader.program,
      AllFound locations program (if shader.usesScene then bindings else []) layer.uniforms
        shader.builtins shader.sceneUniforms
  | _ => True

theorem Located.mono {locations more : List (Handle × String)} (grows : locations <+: more)
    {bindings : List SceneBinding} {layer : CompiledLayer} (h : Located locations bindings layer) :
    Located more bindings layer := by
  obtain ⟨_, _, _, _, _, _, _, _, _, kind⟩ := layer
  cases kind with
  | shader shader => exact fun program built => (h program built).mono grows
  | group | distance | script => trivial

theorem Located.of_plain (locations : List (Handle × String)) (bindings : List SceneBinding)
    {layer : CompiledLayer} (plain : layer.linked? = none) : Located locations bindings layer := by
  obtain ⟨_, _, _, _, _, _, _, _, _, kind⟩ := layer
  cases kind with
  | shader shader =>
    rintro program built
    obtain ⟨_, _, _, _, _⟩ := shader
    cases built
    cases plain
  | group | distance | script => trivial

theorem located_spreadAudio {locations : List (Handle × String)} {bindings : List SceneBinding}
    {layers : List CompiledLayer} (located : ∀ layer ∈ layers, Located locations bindings layer) :
    ∀ layer ∈ spreadAudio layers, Located locations bindings layer := by
  intro layer inside
  have same := map_spreadAudio (Located locations bindings) (fun _ _ => rfl) layers
  obtain ⟨one, among, view⟩ := List.mem_map.mp (same ▸ List.mem_map_of_mem inside)
  exact view ▸ located one among

theorem includedBindings_eq (scene : Option Scene) (source : String) :
    (if (includedScene scene source).isSome then includedBindings scene else []) =
      includedBindings (includedScene scene source) := by
  unfold includedScene
  cases scene with
  | none => rfl
  | some scene =>
    rw [Option.filter_some]
    cases mentions source.toList "gSdf".toList <;> rfl

variable {builder : ProgramBuilder} {legacy : Legacy} {scene : Option Scene}

theorem compileShader_located (layer : Layer) (source : String) (start : CompiledLayer)
    (state : BuildState) :
    Located (compileShader builder legacy scene layer source start state).2.1.locations
      (includedBindings scene) (compileShader builder legacy scene layer source start state).1 := by
  obtain ⟨errors, after, failed, made⟩ | ⟨program, later, spare, found, built, located, made⟩ :=
    compileShader_cases builder legacy scene layer source start state
  · rw [made]
    exact .of_plain _ _ rfl
  · have known := (locateAll_looksUp program (Uniform.extract source (legacy.valuesFor layer))
      (includedScene scene source) later).2
    rw [located] at known
    rw [made]
    rintro _ ⟨⟩
    dsimp only
    rw [includedBindings_eq]
    exact known

theorem compileCode_located (pair : PlacedLayer × CompiledLayer) (plain : pair.2.linked? = none)
    (state : BuildState) :
    Located (compileCode builder legacy scene pair state).2.1.locations (includedBindings scene)
      (compileCode builder legacy scene pair state).1 := by
  obtain ⟨⟨layer, parent, children⟩, start⟩ := pair
  cases layer with
  | group => exact .of_plain _ _ plain
  | distance => exact .of_plain _ _ plain
  | code language head blend opacity source values =>
    cases language with
    | shader =>
      rw [compileCode_shader]
      exact compileShader_located _ source start state
    | script => exact .of_plain _ _ plain

/-- **The last pass** keeps locations that are known. -/
theorem compileCodes_located (pairs : List (PlacedLayer × CompiledLayer))
    (plain : ∀ pair ∈ pairs, pair.2.linked? = none) (device : Device) :
    ∀ layer ∈ (compileCodes builder legacy scene pairs device).1,
      Located (compileCodes builder legacy scene pairs device).2.locations
        (includedBindings scene) layer := by
  have passed := mapM_invariant (compileCode builder legacy scene)
    (fun _ layers state => ∀ layer ∈ layers,
      Located state.1.locations (includedBindings scene) layer)
    pairs [] [] (device, legacy.programs) ?_ (List.forall_mem_nil _)
  · intro layer inside
    exact (passed layer inside).mono (Legacy.deletePrograms_backstage _ _).locations
  · intro pair inside _ layers state located layer among
    rcases List.mem_append.mp among with old | new
    · exact (located layer old).mono (compileCode_backstage pair state).locations
    · obtain rfl := List.mem_singleton.mp new
      exact compileCode_located pair (plain pair inside) state

/-- **The locations that a compiled tree keeps are those of its uniforms.** -/
theorem compile_located {traits : DeviceTraits} {version : String}
    {shaders : Multiset (Handle × ShaderObject)} {programs owned : Multiset (Handle × String)}
    {device : Device} (document : Layer) {previous : Option CompiledTree}
    (left : (Legacy.ofPrevious version previous device).1.Left traits version shaders programs
      owned (Legacy.ofPrevious version previous device).2) :
    (compile document previous version).Yields device
      (fun tree later => ∀ layer ∈ tree.layers,
        Located later.locations (includedBindings tree.scene) layer)
      fun _ _ => True := by
  refine compile_by_passes ((builderFor_yields left).mono (fun _ _ => id) fun _ _ _ => trivial) ?_
  rintro builder mid ⟨-, -, kept, -, -, holds⟩
  have plain := (compileDistances_holds (Legacy.ofPrevious version previous device).1
    (Multiset.mem_cons_self _ _) holds document.placed).1
  exact located_spreadAudio (compileCodes_located _
    (fun pair inside => plain pair.2 (List.of_mem_zip inside).2) _)

end CompiledTree
end Collage
