import Collage.Proofs.Frame.Passes
import Collage.Proofs.Frame.Typing
import Collage.Proofs.Tree.Hiding
import Collage.Proofs.Tree.Mirror

/-!
# Texture units of a draw

A shader layer is drawn with the uniforms of its own and those of the scene for which its program
has a place.  Each is given once, and one that shows a texture has a unit of its own: the first free
one, after the units of what every layer is given and of the uniforms before it.

No uniform is left out: what a program keeps of a scene stands in the tree
(`CompiledTree.Resolves`), and values fit (`Uniform.Typed`).

`Device.wires` are the calls that say what is drawn with what.  Creating and uploading textures are
none of them: as in `Device.canvas`, it is assumed of a device that these leave its units alone.
What is said here of units is what the device is told; on a device that empties its current unit
when a texture is created or uploaded, the unit that was filled last need not keep its texture
until the draw.
-/

namespace Collage

open Collage.Action

/-! ### The uniforms of a scene are there -/

namespace CompiledTree

/-- What a layer may be given of a scene are uniforms that the scene binds. -/
def BoundBy (scene : Option Scene) (layer : CompiledLayer) : Prop :=
  ∀ shader, layer.kind = .shader shader → ∀ uniform ∈ shader.sceneUniforms,
    ∃ included, scene = some included ∧ ∃ binding ∈ included.bindings,
      uniform.layer = binding.layer ∧ uniform.uniform = binding.uniform

theorem boundBy_of_kind {scene : Option Scene} {layer : CompiledLayer}
    (other : ∀ shader, layer.kind = .shader shader → shader.sceneUniforms = []) :
    BoundBy scene layer := by
  intro shader kind uniform inside
  rw [other shader kind] at inside
  cases inside

theorem compileDistance_boundBy (builder : ProgramBuilder) (legacy : Legacy) (placed : PlacedLayer)
    (device : Device) : BoundBy none (compileDistance builder legacy placed device).1 := by
  obtain ⟨layer, parent, children⟩ := placed
  refine boundBy_of_kind fun shader kind => ?_
  cases layer with
  | group => cases kind
  | code language head blend opacity source values =>
    cases language with
    | shader =>
      cases kind
      rfl
    | script => cases kind
  | distance head source values operands =>
    obtain ⟨signature, errors, made⟩ := compileDistance_distance builder legacy head source
      values operands parent children device
    rw [made] at kind
    cases kind

theorem BoundBy.of_none {scene : Option Scene} {layer : CompiledLayer} (h : BoundBy none layer) :
    BoundBy scene layer := by
  intro shader kind uniform inside
  obtain ⟨_, none, _⟩ := h shader kind uniform inside
  cases none

theorem exists_of_mem_includedBindings {scene : Option Scene} {source : String}
    {binding : SceneBinding} (inside : binding ∈ includedBindings (includedScene scene source)) :
    ∃ included, scene = some included ∧ binding ∈ included.bindings := by
  unfold includedScene at inside
  cases scene with
  | none => cases inside
  | some scene =>
    rw [Option.filter_some] at inside
    split at inside
    · exact ⟨scene, rfl, inside⟩
    · cases inside

variable {builder : ProgramBuilder} {legacy : Legacy} {scene : Option Scene}

theorem compileShader_boundBy (layer : Layer) (source : String) (start : CompiledLayer)
    (state : BuildState) :
    BoundBy scene (compileShader builder legacy scene layer source start state).1 := by
  obtain ⟨errors, after, failed, made⟩ | ⟨program, later, spare, found, built, located, made⟩ :=
    compileShader_cases builder legacy scene layer source start state
  · rw [made]
    refine boundBy_of_kind fun shader kind => ?_
    cases kind
    rfl
  · have known := (locateAll_looksUp program (Uniform.extract source (legacy.valuesFor layer))
      (includedScene scene source) later).2
    rw [located] at known
    rw [made]
    intro shader kind uniform inside
    cases kind
    obtain ⟨binding, among, same⟩ := exists_of_mem_right known.scene inside
    obtain ⟨included, is, bound⟩ := exists_of_mem_includedBindings among
    exact ⟨included, is, binding, bound, same.layer, same.uniform⟩

theorem compileCode_boundBy (placed : PlacedLayer) {start : CompiledLayer}
    (plain : BoundBy none start) (state : BuildState) :
    BoundBy scene (compileCode builder legacy scene (placed, start) state).1 := by
  obtain ⟨layer, parent, children⟩ := placed
  cases layer with
  | group => exact plain.of_none
  | distance => exact plain.of_none
  | code language head blend opacity source values =>
    cases language with
    | script => exact plain.of_none
    | shader =>
      rw [compileCode_shader]
      exact compileShader_boundBy _ source start state

/-- Whether what shader layers may be given of a scene stands in the tree. -/
def Resolves (tree : CompiledTree) : Prop :=
  ∀ layer ∈ tree.layers, ∀ shader, layer.kind = .shader shader → ∀ uniform ∈ shader.sceneUniforms,
    ∃ owner, tree.layer? uniform.layer = some owner ∧ uniform.uniform < owner.uniforms.length

/-- **A compiled tree has the uniforms of its scene.** -/
theorem resolves_of_compile {document : Layer} {previous : Option CompiledTree} {version : String}
    {device after : Device} {tree : CompiledTree}
    (compiled : (compile document previous version).runOn device = (.ok tree, after)) :
    tree.Resolves := by
  obtain ⟨started, layers, -, spread, each⟩ := compile_passes (fun _ start => BoundBy none start)
    (fun _ scene _ layer => BoundBy scene layer) compiled
    (fun builder placed state => compileDistance_boundBy builder _ placed state)
    (fun builder scene placed start state plain => compileCode_boundBy placed plain state)
  intro layer inside shader kind uniform among
  have bound : BoundBy tree.scene layer := by
    have same := map_spreadAudio (BoundBy tree.scene) (fun _ _ => rfl) layers
    rw [← spread] at same
    obtain ⟨one, there, view⟩ := List.mem_map.mp (same ▸ List.mem_map_of_mem inside)
    obtain ⟨_, _, bound⟩ := exists_of_mem_right each there
    exact view ▸ bound
  obtain ⟨scene, is, binding, there, place, index⟩ := bound shader kind uniform among
  obtain ⟨_, _, _, owner, _, _, _, found, _, declared, _⟩ := binding_of_compile compiled is there
  rw [← place] at found
  rw [← index] at declared
  exact ⟨owner, found, (List.getElem?_eq_some_iff.mp declared).1⟩

theorem length_editUniform? {value : ShaderValue} :
    ∀ {uniforms edited : List Uniform}, editUniform? value uniforms = some edited →
      edited.length = uniforms.length
  | [], _, done => by cases done
  | uniform :: rest, edited, done => by
    unfold editUniform? at done
    split at done
    · cases done
      rfl
    · obtain ⟨after, later, rfl⟩ := Option.map_eq_some_iff.mp done
      exact congrArg Nat.succ (length_editUniform? later)

/-- What a layer has besides the values of its uniforms. -/
def outlay (layer : CompiledLayer) : CompiledKind × Nat :=
  (layer.kind, layer.uniforms.length)

/-- Editing changes no kind and no number of uniforms. -/
theorem outlay_setValue {tree edited : CompiledTree} {id : String} {value : ShaderValue}
    {known : Bool} (done : tree.setValue id value = .ok (known, edited)) :
    edited.layers.map outlay = tree.layers.map outlay := by
  unfold setValue at done
  split at done
  · cases done
  · rename_i place _
    split at done
    · cases done
      rfl
    · rename_i uniforms found
      cases done
      obtain ⟨layer, there, found⟩ := Option.bind_eq_some_iff.mp found
      refine List.ext_getElem? fun n => ?_
      rw [List.getElem?_map, List.getElem?_map, List.getElem?_modify]
      by_cases here : place = n
      · subst here
        rw [show tree.layers[place]? = some layer from there]
        simp [outlay, length_editUniform? found]
      · simp [here]

theorem Resolves.setValue {tree edited : CompiledTree} (resolves : tree.Resolves) {id : String}
    {value : ShaderValue} {known : Bool} (done : tree.setValue id value = .ok (known, edited)) :
    edited.Resolves := by
  have same := outlay_setValue done
  have sameAt : ∀ place, (edited.layer? place).map outlay = (tree.layer? place).map outlay := by
    intro place
    have here := congrArg (·[place]?) same
    rwa [List.getElem?_map, List.getElem?_map] at here
  intro layer inside shader kind uniform among
  obtain ⟨old, there, view⟩ := List.mem_map.mp (same ▸ List.mem_map_of_mem inside)
  obtain ⟨sameKind, -⟩ := Prod.mk.inj view
  obtain ⟨owner, found, short⟩ := resolves old there shader (sameKind.trans kind) uniform among
  have here := sameAt uniform.layer
  rw [found] at here
  obtain ⟨other, found', view⟩ := Option.map_eq_some_iff.mp here
  obtain ⟨-, length⟩ := Prod.mk.inj view
  exact ⟨other, found', length ▸ short⟩

theorem Arises.resolves {tree : CompiledTree} (arises : tree.Arises) : tree.Resolves := by
  induction arises with
  | compiled ended => exact resolves_of_compile ended
  | edited _ done ih => exact ih.setValue done

end CompiledTree

namespace Renderer

/-! ### Uniforms with a place -/

/-- **No uniform with a place is left out**, of a layer or of the scene. -/
theorem location_placedUniforms {tree : CompiledTree} (resolves : tree.Resolves)
    {layer : CompiledLayer} (inside : layer ∈ tree.layers) {shader : LayerProgram}
    (kind : layer.kind = .shader shader) :
    (placedUniforms tree layer shader).map PlacedUniform.location =
      layer.uniforms.filterMap Uniform.location ++
        shader.sceneUniforms.filterMap SceneUniform.location := by
  unfold placedUniforms
  rw [List.map_append, List.map_filterMap, List.map_filterMap]
  refine congrArg₂ _ ?_ ?_
  · refine List.filterMap_congr fun uniform _ => ?_
    cases uniform.location <;> rfl
  · refine List.filterMap_congr fun uniform among => ?_
    obtain ⟨owner, found, short⟩ := resolves layer inside shader kind uniform among
    cases uniform.location with
    | none => rfl
    | some location =>
      dsimp only [Option.bind_eq_bind]
      rw [found, Option.bind_some, Option.bind_some, List.getElem?_eq_getElem short]
      rfl

theorem typed_placedUniforms {tree : CompiledTree} (arises : tree.Arises) {layer : CompiledLayer}
    (inside : layer ∈ tree.layers) (shader : LayerProgram) :
    ∀ placed ∈ placedUniforms tree layer shader, placed.uniform.Typed := by
  intro placed among
  rcases List.mem_append.mp among with own | scene
  · obtain ⟨uniform, there, found⟩ := List.mem_filterMap.mp own
    obtain ⟨location, -, rfl⟩ := Option.map_eq_some_iff.mp found
    exact arises.typed inside there
  · obtain ⟨binding, there, found⟩ := List.mem_filterMap.mp scene
    obtain ⟨location, -, found⟩ := Option.bind_eq_some_iff.mp found
    obtain ⟨owner, is, found⟩ := Option.bind_eq_some_iff.mp found
    obtain ⟨uniform, has, same⟩ := Option.bind_eq_some_iff.mp found
    cases same
    exact arises.typed (List.mem_of_getElem? is) (List.mem_of_getElem? has)

end Renderer

/-! ### What a device is told to draw with -/

/-- Whether a call says what is drawn with what: chooses a program, gives it a value, puts a texture
into a unit, or draws. -/
def DeviceEvent.isWire : DeviceEvent → Bool
  | useProgram _ | setUniform _ _ _ | bindTexture _ _ | draw => true
  | _ => false

/-- The place that a call writes to, and the value. -/
def DeviceEvent.written? : DeviceEvent → Option (Nat × UniformData)
  | setUniform location _ value => some (location, value)
  | _ => none

/-- The unit that a call puts a texture into, and the texture. -/
def DeviceEvent.bound? : DeviceEvent → Option (Nat × Option Handle)
  | bindTexture unit texture => some (unit, texture)
  | _ => none

/-- Whether a call gives a value or a texture. -/
def DeviceEvent.gives (event : DeviceEvent) : Bool :=
  event.written?.isSome || event.bound?.isSome

namespace Device

/-- The calls that say what is drawn with what, the newest first. -/
def wires (device : Device) : List DeviceEvent :=
  device.events.filter DeviceEvent.isWire

theorem wires_setUniform (device : Device) (location : Nat) (value : UniformData) :
    (device.setUniform location value).wires =
      .setUniform location (device.nameAt location) value :: device.wires := by
  unfold setUniform nameAt
  dsimp only
  cases device.locations[location]? with
  | none => rfl
  | some entry =>
    dsimp only
    split <;> rfl

theorem wires_createTexture (device : Device) (filter : TextureFilter) (wrap : TextureWrap) :
    (device.createTexture filter wrap).2.wires = device.wires := by
  unfold createTexture
  dsimp only
  split <;> rfl

theorem wires_createFramebuffer (device : Device) (width height : Nat) :
    (device.createFramebuffer width height).2.wires = device.wires := by
  unfold createFramebuffer
  dsimp only
  split
  · rfl
  · split <;> rfl

end Device

theorem Sets.written {writes : List (Nat × UniformData)} {news : List DeviceEvent}
    (h : Sets writes news) : news.filterMap DeviceEvent.written? = writes ∧
      news.filterMap DeviceEvent.bound? = [] ∧ ∀ event ∈ news, event.gives = true := by
  induction h with
  | nil => exact ⟨rfl, rfl, List.forall_mem_nil _⟩
  | cons first _ ih =>
    obtain ⟨name, rfl⟩ := first
    obtain ⟨written, bound, gives⟩ := ih
    exact ⟨congrArg _ written, bound, List.forall_mem_cons.mpr ⟨rfl, gives⟩⟩

/-- Between two states of a pool its device was not told what to draw with. -/
def RenderTargets.Unwired (before after : State) : Prop :=
  after.1.wires = before.1.wires

theorem RenderTargets.request_unwired : Keeps Unwired request := by
  rintro ⟨device, pool⟩
  unfold request
  refine Yields.get ?_
  dsimp only
  split
  · exact Yields.throw rfl
  split
  · exact Yields.modify (Yields.pure rfl)
  · have same := device.wires_createFramebuffer pool.renderSize.1 pool.renderSize.2
    refine (Yields.within (newFramebuffer_yields _ _ device)).bind ?_ ?_
    · rintro ⟨framebuffer, texture⟩ _ ⟨later, created, rfl⟩
      rw [created] at same
      exact Yields.modify (Yields.pure same)
    · rintro _ _ ⟨later, ⟨cause, failed, -⟩, rfl⟩
      rw [failed] at same
      exact same

namespace Renderer

variable {ℓ : Type} {α : Type} {frame : FrameContext} {news more : List DeviceEvent}

/-- Between two states of a renderer its device was told what to draw with, the oldest call first,
and the textures that it knew are still there. -/
structure Wired (news : List DeviceEvent) (before after : Renderer ℓ) : Prop where
  wires : after.device.wires = news.reverse ++ before.device.wires
  spectrum : after.spectrum = before.spectrum
  known : ∀ key entry, before.textures.get? key = some entry → after.textures.get? key = some entry

/-- Between two states of a renderer nothing was told. -/
abbrev Idle (before after : Renderer ℓ) : Prop :=
  Wired [] before after

theorem Wired.trans {a b c : Renderer ℓ} (h : Wired news a b) (h' : Wired more b c) :
    Wired (news ++ more) a c :=
  ⟨by rw [h'.wires, h.wires, List.reverse_append, List.append_assoc],
    h'.spectrum.trans h.spectrum,
    fun key entry there => h'.known key entry (h.known key entry there)⟩

theorem Wired.idle {a b c : Renderer ℓ} (h : Wired news a b) (h' : Idle b c) : Wired news a c :=
  List.append_nil news ▸ h.trans h'

theorem Wired.of_device {before : Renderer ℓ} {device : Device}
    (wires : device.wires = news.reverse ++ before.device.wires) :
    Wired news before { before with device } :=
  ⟨wires, rfl, fun _ _ => id⟩

instance : Std.Refl (@Idle ℓ) := ⟨fun _ => .of_device rfl⟩

instance : IsTrans (Renderer ℓ) Idle := ⟨fun _ _ _ h h' => h.trans h'⟩

/-! ### What tells nothing -/

theorem tracksPool_idle : TracksPool (@Idle ℓ) fun _ => Idle where
  toTraces := Keeps.traces
  unable _ _ _ := .of_device rfl
  stats _ _ := ⟨rfl, rfl, fun _ _ => id⟩
  framebuffer _ _ _ _ := .of_device rfl
  request := Keeps.within RenderTargets.request_unwired fun _ _ same => ⟨same, rfl, fun _ _ => id⟩
  release _ _ _ _ := ⟨rfl, rfl, fun _ _ => id⟩

/-! ### What every layer is given -/

theorem writeAt_wires : ∀ (writes : List (Option Nat × UniformData)) (device : Device),
    ∃ news, Sets (writes.filterMap placedWrite) news ∧
      (writes.foldl writeAt device).wires = news.reverse ++ device.wires
  | [], device => ⟨[], .nil, rfl⟩
  | (none, _) :: rest, device => writeAt_wires rest device
  | (some location, value) :: rest, device => by
    obtain ⟨news, sets, wires⟩ := writeAt_wires rest (device.setUniform location value)
    refine ⟨.setUniform location (device.nameAt location) value :: news, .cons ⟨_, rfl⟩ sets, ?_⟩
    rw [List.reverse_cons, List.append_assoc, List.singleton_append, ← device.wires_setUniform]
    exact wires

/-- The textures that every layer is given, with their units: the result so far, and the sound where
the program has a place for it. -/
def builtinBinds (locations : BuiltinLocations) (previous spectrum : Handle) :
    List (Nat × Option Handle) :=
  (previousUnit, some previous) ::
    if locations.audioSpectrum.isSome then [(spectrumUnit, some spectrum)] else []

theorem setBuiltins_wired (locations : BuiltinLocations) (frame : FrameContext)
    (previous : Handle) (blend : BlendMode) (opacity : Float32) (renderer : Renderer ℓ)
    {failed : Failure → Renderer ℓ → Prop} :
    (setBuiltins locations frame previous blend opacity : Action (Renderer ℓ) Unit).Yields renderer
      (fun _ after => ∃ news, Wired news renderer after ∧
        news.filterMap DeviceEvent.written? =
          (builtinWrites locations frame renderer blend opacity).filterMap placedWrite ∧
        news.filterMap DeviceEvent.bound? = builtinBinds locations previous renderer.spectrum ∧
        ∀ event ∈ news, event.gives = true) failed := by
  obtain ⟨news, sets, wires⟩ :=
    writeAt_wires (builtinWrites locations frame renderer blend opacity) renderer.device
  obtain ⟨written, bound, gives⟩ := sets.written
  let binds := (builtinBinds locations previous renderer.spectrum).map fun bind =>
    DeviceEvent.bindTexture bind.1 bind.2
  refine Yields.get (Yields.modified ⟨news ++ binds, .of_device ?_, ?_, ?_, ?_⟩)
  · dsimp only [binds, builtinBinds]
    rw [List.reverse_append, List.append_assoc, ← wires]
    split <;> rfl
  · rw [List.filterMap_append, written, List.filterMap_map]
    exact List.append_right_eq_self.mpr (List.filterMap_eq_nil_iff.mpr fun _ _ => rfl)
  · rw [List.filterMap_append, bound, List.filterMap_map]
    exact List.filterMap_some
  · refine List.forall_mem_append.mpr ⟨gives, fun event inside => ?_⟩
    obtain ⟨bind, -, rfl⟩ := List.mem_map.mp inside
    rfl

/-! ### What a uniform is given -/

/-- What a program is given for a uniform: data, and for a texture the unit that it is put into. -/
structure Given where
  placed : PlacedUniform
  data : UniformData
  bound : Option (Nat × Handle) := none

/-- The write of what is given. -/
def Given.write (given : Given) : Nat × UniformData :=
  (given.placed.location, given.data)

/-- Whether what is given is of the type of the uniform; a sampler or a gradient is given by the
unit that its texture is put into, and nothing else is put into a unit. -/
structure Given.Right (after : Renderer ℓ) (given : Given) : Prop where
  type : given.data.OfType given.placed.uniform.type
  plain : TextureKey.ofValue? given.placed.uniform.value.value = none → given.bound = none
  texture : ∀ key, TextureKey.ofValue? given.placed.uniform.value.value = some key →
    ∃ unit texture ready, given.bound = some (unit, texture) ∧ given.data = .ints [unit] ∧
      after.textures.get? key = some ⟨texture, ready⟩

theorem Given.Right.later {mid after : Renderer ℓ} {given : Given} (h : given.Right mid)
    (wired : Wired news mid after) : given.Right after := by
  refine ⟨h.type, h.plain, fun key is => ?_⟩
  obtain ⟨unit, texture, ready, bound, data, there⟩ := h.texture key is
  exact ⟨unit, texture, ready, bound, data, wired.known _ _ there⟩

/-- The texture that a value in a frame shows. -/
def key? : FrameValue → Option TextureKey
  | .stored value => TextureKey.ofValue? value
  | _ => none

/-- A texture is not bent. -/
theorem key?_frameValue (frame : FrameContext) (levels : AudioLevels) (layer : String)
    (uniform : Uniform) (input : InputState) :
    key? (InputState.frameValue frame levels layer uniform input).1 =
      TextureKey.ofValue? uniform.value.value := by
  have stored : ∀ input, key? (InputState.storedValue frame layer uniform input).1 =
      TextureKey.ofValue? uniform.value.value := by
    intro input
    unfold InputState.storedValue
    cases uniform.value.value <;> rfl
  unfold InputState.frameValue
  cases uniform.value.curve with
  | none => exact stored input
  | some curve =>
    cases shown : uniform.value.value with
    | float | int => rfl
    | _ => exact (stored _).trans (congrArg TextureKey.ofValue? shown)

theorem found_wired {key : TextureKey} {width height : Nat} {bytes : List UInt8}
    {renderer : Renderer ℓ} {texture : Handle} {state : TextureCache.State ℓ}
    (found : TextureCache.Found key width height bytes
      ⟨renderer.device, renderer.loader, renderer.textures⟩ texture state) :
    Idle renderer { renderer with
        device := state.device, loader := state.loader, textures := state.cache } ∧
      ∃ ready, state.cache.get? key = some ⟨texture, ready⟩ := by
  cases found with
  | @known entry there => exact ⟨⟨rfl, rfl, fun _ _ => id⟩, entry.ready, there⟩
  | @made filter wrap texture later loader ready absent created =>
    have same := renderer.device.wires_createTexture filter wrap
    dsimp only at created absent
    rw [created] at same
    refine ⟨⟨same, rfl, fun other entry there => ?_⟩, ready, Table.get?_set_self _ _ _⟩
    have apart : other ≠ key := fun is => by
      rw [is, absent] at there
      cases there
    exact (Table.get?_set_other _ _ apart).trans there

/-- A texture that is looked for is put into the unit. -/
theorem bindUnit_wired {find : Action (TextureCache.State ℓ) Handle} {key : TextureKey}
    {width height : Nat} {bytes : List UInt8}
    (found : ∀ state, find.Yields state (TextureCache.Found key width height bytes state)
      (TextureCache.Failed key state)) (unit : Nat) (renderer : Renderer ℓ) :
    (do bindUnit unit (← onTextures find) : Action (Renderer ℓ) _).Yields renderer
      (fun pair after => ∃ texture ready, pair = (some (.ints [unit]), unit + 1) ∧
        after.textures.get? key = some ⟨texture, ready⟩ ∧
        Wired [.bindTexture unit (some texture)] renderer after)
      fun _ => Idle renderer := by
  refine (Yields.within (found _)).bind ?_ ?_
  · rintro texture _ ⟨state, there, rfl⟩
    obtain ⟨idle, ready, known⟩ := found_wired there
    let mid : Renderer ℓ := { renderer with
      device := state.device, loader := state.loader, textures := state.cache }
    have told : Wired [.bindTexture unit (some texture)] mid
        { mid with device := mid.device.bindTexture unit texture } := .of_device rfl
    exact Yields.modify (Yields.pure ⟨texture, ready, rfl, known, idle.trans told⟩)
  · rintro _ _ ⟨_, ⟨_, filter, wrap, cause, later, refused, _, rfl⟩, rfl⟩
    have same := renderer.device.wires_createTexture filter wrap
    dsimp only at refused
    rw [refused] at same
    exact ⟨same, rfl, fun _ _ => id⟩

variable [TextureLoader ℓ]

/-- What is told for a value, and the next free unit. -/
theorem valueData_wired (unit : Nat) (value : FrameValue) (renderer : Renderer ℓ) :
    (valueData unit value : Action (Renderer ℓ) _).Yields renderer
      (fun pair after =>
        (key? value = none ∧ pair.2 = unit ∧ Idle renderer after) ∨
        ∃ key texture ready, key? value = some key ∧ pair = (some (.ints [unit]), unit + 1) ∧
          after.textures.get? key = some ⟨texture, ready⟩ ∧
          Wired [.bindTexture unit (some texture)] renderer after)
      fun _ => Idle renderer := by
  have idle : Idle renderer renderer := .of_device rfl
  cases value with
  | float | int | button => exact Yields.pure (.inl ⟨rfl, rfl, idle⟩)
  | stored value =>
    cases value with
    | sampler descriptor =>
      refine (bindUnit_wired (TextureCache.sampler_yields descriptor) unit renderer).mono ?_
        fun _ _ => id
      rintro pair after ⟨texture, ready, told⟩
      exact .inr ⟨.sampler descriptor, texture, ready, rfl, told⟩
    | gradient ramp =>
      refine (bindUnit_wired (TextureCache.gradient_yields ramp) unit renderer).mono ?_
        fun _ _ => id
      rintro pair after ⟨texture, ready, told⟩
      exact .inr ⟨.gradient ramp.key, texture, ready, rfl, told⟩
    | _ => exact Yields.pure (.inl ⟨rfl, rfl, idle⟩)

/-- What is told before a uniform is written, and the next free unit: nothing, or a texture is put
into the unit. -/
inductive Prepares (unit : Nat) : Option (Nat × Handle) → List DeviceEvent → Nat → Prop
  | plain : Prepares unit none [] unit
  | texture (texture : Handle) :
      Prepares unit (some (unit, texture)) [.bindTexture unit (some texture)] (unit + 1)

/-- **One uniform is given what is right for it.** -/
theorem uniformData_wired (placed : PlacedUniform) (typed : placed.uniform.Typed) (unit : Nat)
    (renderer : Renderer ℓ) :
    (uniformData frame unit placed.layer placed.uniform : Action (Renderer ℓ) _).Yields renderer
      (fun pair after => ∃ (given : Given) (news : List DeviceEvent),
        given.placed = placed ∧ given.Right after ∧
        pair.1 = some given.data ∧ Prepares unit given.bound news pair.2 ∧
        Wired news renderer after)
      fun _ => Idle renderer := by
  refine (evaluate_yields frame placed.layer placed.uniform renderer).bind ?_
    fun _ _ failed => failed
  rintro value mid ⟨rfl, same⟩
  have idle : Idle renderer mid := same ▸ ⟨rfl, rfl, fun _ _ => id⟩
  have shown := key?_frameValue frame renderer.levels placed.layer placed.uniform renderer.input
  refine ((valueData_wired unit _ mid).and (valueData_typed
    (UniformKind.ofType_classify typed.classified)
    (typed.suits frame renderer.levels placed.layer renderer.input) unit mid)).mono ?_
    fun _ after failed => idle.trans failed.1
  rintro pair after ⟨⟨plain, next, still⟩ | ⟨key, texture, ready, is, rfl, there, told⟩, fits⟩
  · obtain ⟨data, same, type, -⟩ := fits
    refine ⟨⟨placed, data, none⟩, [], rfl, ⟨type, fun _ => rfl, fun key is => ?_⟩, same,
      next ▸ .plain, idle.trans still⟩
    cases plain.symm.trans (shown.trans is)
  · obtain ⟨data, same, type, -⟩ := fits
    obtain rfl := Option.some.inj same
    refine ⟨⟨placed, .ints [unit], (unit, texture)⟩, _, rfl, ⟨type, fun plain => ?_, ?_⟩, rfl,
      .texture texture, idle.trans told⟩
    · cases plain.symm.trans (shown.symm.trans is)
    · intro other also
      obtain rfl := Option.some.inj (is.symm.trans (shown.trans also))
      exact ⟨unit, texture, ready, rfl, rfl, there⟩

/-- Calls that give a program uniforms in their order, the textures in units from `unit` on. -/
structure Gives (unit : Nat) (givens : List Given) (news : List DeviceEvent) : Prop where
  written : news.filterMap DeviceEvent.written? = givens.map Given.write
  bound : news.filterMap DeviceEvent.bound? =
    (givens.filterMap Given.bound).map fun bind => (bind.1, some bind.2)
  units : (givens.filterMap Given.bound).map Prod.fst =
    List.range' unit (givens.filterMap Given.bound).length
  only : ∀ event ∈ news, event.gives = true

theorem Gives.nil (unit : Nat) : Gives unit [] [] :=
  ⟨rfl, rfl, rfl, List.forall_mem_nil _⟩

/-- A uniform is given, and then the others from the next free unit on. -/
theorem Gives.cons {unit next : Nat} {given : Given} {givens : List Given}
    (prepares : Prepares unit given.bound news next) (name : String)
    (h : Gives next givens more) : Gives unit (given :: givens)
      (news ++ .setUniform given.placed.location name given.data :: more) := by
  obtain ⟨placed, data, bound⟩ := given
  cases prepares with
  | plain => exact ⟨congrArg _ h.written, h.bound, h.units, List.forall_mem_cons.mpr ⟨rfl, h.only⟩⟩
  | texture texture =>
    refine ⟨congrArg _ h.written, congrArg _ h.bound, ?_, ?_⟩
    · exact (congrArg (unit :: ·) h.units).trans List.range'_succ.symm
    · exact List.forall_mem_cons.mpr ⟨rfl, List.forall_mem_cons.mpr ⟨rfl, h.only⟩⟩

theorem Prepares.gives {unit next : Nat} {bound : Option (Nat × Handle)}
    (prepares : Prepares unit bound news next) : ∀ event ∈ news, event.gives = true := by
  cases prepares with
  | plain => exact List.forall_mem_nil _
  | texture => exact List.forall_mem_singleton.mpr rfl

/-- **Uniforms are given in their order**, each once, and every texture has the next unit. -/
theorem writeUniforms_gives : ∀ (placed : List PlacedUniform) (unit : Nat) (renderer : Renderer ℓ),
    (∀ one ∈ placed, one.uniform.Typed) →
    (writeUniforms frame unit placed : Action (Renderer ℓ) Unit).Yields renderer
      (fun _ after => ∃ givens news, givens.map Given.placed = placed ∧
        (∀ given ∈ givens, given.Right after) ∧ Wired news renderer after ∧ Gives unit givens news)
      fun _ after => ∃ news, Wired news renderer after ∧ ∀ event ∈ news, event.gives = true
  | [], unit, renderer, _ =>
    Yields.pure ⟨[], [], rfl, List.forall_mem_nil _, .of_device rfl, .nil unit⟩
  | one :: rest, unit, renderer, typed => by
    obtain ⟨first, others⟩ := List.forall_mem_cons.mp typed
    unfold writeUniforms
    refine (uniformData_wired one first unit renderer).bind ?_ ?_
    · rintro ⟨_, next⟩ mid ⟨given, news, rfl, right, rfl, prepares, told⟩
      -- the value is written, and the others follow
      let written := mid.device.setUniform given.placed.location given.data
      have writes : Wired [_] mid { mid with device := written } :=
        .of_device (mid.device.wires_setUniform given.placed.location given.data)
      have begun := told.trans writes
      refine Yields.modify ((writeUniforms_gives rest next _ others).mono ?_ ?_)
      · rintro _ after ⟨givens, more, rfl, rights, then_, gives⟩
        refine ⟨given :: givens, _, rfl, ?_, begun.trans then_, ?_⟩
        · exact List.forall_mem_cons.mpr ⟨right.later (writes.trans then_), rights⟩
        · rw [List.append_assoc]
          exact gives.cons prepares _
      · rintro _ after ⟨more, then_, gives⟩
        refine ⟨_, begun.trans then_, List.forall_mem_append.mpr ⟨?_, gives⟩⟩
        exact List.forall_mem_append.mpr ⟨prepares.gives, List.forall_mem_singleton.mpr rfl⟩
    · exact fun _ after idle => ⟨[], idle, List.forall_mem_nil _⟩

/-! ### Draws -/

/-- Calls that draw with a program, once and at the end.  First of all the program is chosen; each
uniform is written once, after what every layer is given, and each texture is put into a unit of its
own: the units of `builtinBinds`, and then those from the first free one on. -/
structure Supplied (program : Handle) (builtins : List (Nat × UniformData))
    (binds : List (Nat × Option Handle)) (placed : List PlacedUniform) (after : Renderer ℓ)
    (news : List DeviceEvent) : Prop where
  once : ∃ given, news = .useProgram program :: (given ++ [.draw]) ∧
    ∀ event ∈ given, event.gives = true
  given : ∃ givens : List Given, givens.map Given.placed = placed ∧
    (∀ given ∈ givens, given.Right after) ∧
    news.filterMap DeviceEvent.written? = builtins ++ givens.map Given.write ∧
    news.filterMap DeviceEvent.bound? =
      binds ++ (givens.filterMap Given.bound).map (fun bind => (bind.1, some bind.2)) ∧
    (givens.filterMap Given.bound).map Prod.fst =
      List.range' firstFreeUnit (givens.filterMap Given.bound).length
  apart : ((news.filterMap DeviceEvent.bound?).map Prod.fst).Nodup

/-- The units that every layer is given are apart from those from the first free one on. -/
theorem nodup_units (locations : BuiltinLocations) (previous spectrum : Handle) (count : Nat) :
    ((builtinBinds locations previous spectrum).map Prod.fst ++
      List.range' firstFreeUnit count).Nodup := by
  have free : ∀ unit ∈ List.range' firstFreeUnit count, firstFreeUnit ≤ unit := fun unit inside =>
    (List.mem_range'_1.mp inside).1
  have builtin : ((builtinBinds locations previous spectrum).map Prod.fst).Nodup ∧
      ∀ unit ∈ (builtinBinds locations previous spectrum).map Prod.fst, unit < firstFreeUnit := by
    unfold builtinBinds
    split
    · show [previousUnit, spectrumUnit].Nodup ∧ ∀ unit ∈ [previousUnit, spectrumUnit], _
      decide
    · show [previousUnit].Nodup ∧ ∀ unit ∈ [previousUnit], _
      decide
  refine List.nodup_append.mpr
    ⟨builtin.1, List.nodup_range', fun unit inside other among same => ?_⟩
  exact absurd (free other among) (same ▸ Nat.not_le.mpr (builtin.2 unit inside))

omit [TextureLoader ℓ] in
/-- What every layer is given, and then the uniforms. -/
theorem Gives.supplied {program : Handle} {builtins : List (Nat × UniformData)}
    {locations : BuiltinLocations} {previous spectrum : Handle} {givens : List Given}
    {after : Renderer ℓ} (written : news.filterMap DeviceEvent.written? = builtins)
    (bound : news.filterMap DeviceEvent.bound? = builtinBinds locations previous spectrum)
    (only : ∀ event ∈ news, event.gives = true) (rights : ∀ given ∈ givens, given.Right after)
    (h : Gives firstFreeUnit givens more) :
    Supplied program builtins (builtinBinds locations previous spectrum)
      (givens.map Given.placed) after (.useProgram program :: (news ++ more ++ [.draw])) := by
  have allWritten : (DeviceEvent.useProgram program :: (news ++ more ++ [.draw])).filterMap
      DeviceEvent.written? = builtins ++ givens.map Given.write := by
    rw [← written, ← h.written, ← List.filterMap_append]
    exact List.filterMap_append.trans (List.append_nil _)
  have allBound : (DeviceEvent.useProgram program :: (news ++ more ++ [.draw])).filterMap
      DeviceEvent.bound? = builtinBinds locations previous spectrum ++
        (givens.filterMap Given.bound).map fun bind => (bind.1, some bind.2) := by
    rw [← bound, ← h.bound, ← List.filterMap_append]
    exact List.filterMap_append.trans (List.append_nil _)
  refine ⟨⟨news ++ more, rfl, List.forall_mem_append.mpr ⟨only, h.only⟩⟩,
    ⟨givens, rfl, rights, allWritten, allBound, h.units⟩, ?_⟩
  rw [allBound, List.map_append, List.map_map]
  show (_ ++ (givens.filterMap Given.bound).map Prod.fst).Nodup
  rw [h.units]
  exact nodup_units locations previous spectrum _

omit [TextureLoader ℓ] in
theorem draw_notMem (only : ∀ event ∈ news, event.gives = true) : DeviceEvent.draw ∉ news :=
  fun inside => Bool.false_ne_true (only _ inside)

/-- **A program that draws is supplied.**  Where it fails nothing was drawn. -/
theorem drawWith_supplied (program : Handle) (locations : BuiltinLocations) (blend : BlendMode)
    (opacity : Float32) (read : Nat) {placed : List PlacedUniform}
    (typed : ∀ one ∈ placed, one.uniform.Typed) (renderer : Renderer ℓ) :
    (drawWith program locations frame blend opacity read
      (writeUniforms frame firstFreeUnit placed)).Yields renderer
      (fun _ after => ∃ news, Wired news renderer after ∧
        ∃ (given : Renderer ℓ) (previous : Handle),
          Supplied program
            ((builtinWrites locations frame given blend opacity).filterMap placedWrite)
            (builtinBinds locations previous renderer.spectrum) placed after news)
      fun _ after => ∃ news, Wired news renderer after ∧ .draw ∉ news := by
  unfold drawWith
  refine Yields.modify ?_
  have chosen : Wired [.useProgram program] renderer
      { renderer with device := renderer.device.useProgram program } := .of_device rfl
  refine (tracksPool_idle.target read _).bind (fun previous given idle => ?_) ?_
  · refine (setBuiltins_wired locations frame previous.texture blend opacity given).bind ?_
      fun _ _ never => never
    rintro _ mid ⟨news, told, written, bound, gives⟩
    have begun := (chosen.idle idle).trans told
    refine (writeUniforms_gives placed firstFreeUnit mid typed).bind ?_ ?_
    · rintro _ ready ⟨givens, more, places, rights, then_, own⟩
      have drawn : Wired [.draw] ready { ready with device := ready.device.draw } := .of_device rfl
      refine Yields.modified ⟨_, (begun.trans then_).trans drawn, given, previous.texture, ?_⟩
      have spectrum : given.spectrum = renderer.spectrum := idle.spectrum
      rw [← spectrum, ← places]
      exact own.supplied written bound gives fun one inside => (rights one inside).later drawn
    · rintro _ after ⟨more, then_, also⟩
      refine ⟨_, begun.trans then_, List.not_mem_cons_of_ne_of_not_mem nofun ?_⟩
      exact draw_notMem (List.forall_mem_append.mpr ⟨gives, also⟩)
  · rintro _ after idle
    exact ⟨_, chosen.idle idle, List.not_mem_cons_of_ne_of_not_mem nofun List.not_mem_nil⟩

omit [TextureLoader ℓ] in
theorem Supplied.later {program : Handle} {builtins : List (Nat × UniformData)}
    {binds : List (Nat × Option Handle)} {placed : List PlacedUniform} {mid after : Renderer ℓ}
    (h : Supplied program builtins binds placed mid news) (wired : Wired more mid after) :
    Supplied program builtins binds placed after news := by
  obtain ⟨givens, places, rights, given⟩ := h.given
  exact ⟨h.once, ⟨givens, places, fun one inside => (rights one inside).later wired, given⟩,
    h.apart⟩

/-- Whether a shader layer was drawn with all that it is to be given. -/
def DrawsSupplied (tree : CompiledTree) (frame : FrameContext) (layer : CompiledLayer)
    (shader : LayerProgram) (program : Handle) (opacity : Float32) (before after : Renderer ℓ)
    (news : List DeviceEvent) : Prop :=
  ∃ (given : Renderer ℓ) (previous : Handle), Supplied program
    ((builtinWrites shader.builtins frame given layer.blend opacity).filterMap placedWrite)
    (builtinBinds shader.builtins previous before.spectrum) (placedUniforms tree layer shader) after
    news

/-- **Texture units never clash within a draw.**  A shader layer of a tree that was compiled and
edited is drawn with every uniform that its program has a place for, of its own and of the scene,
each written once; and every texture has a unit of its own.  This is so in any frame and in any
state of the renderer; where it fails nothing was drawn, or all was drawn in this way before. -/
theorem compositeShader_supplied {tree : CompiledTree} (arises : tree.Arises)
    {layer : CompiledLayer} (inside : layer ∈ tree.layers) {shader : LayerProgram}
    (kind : layer.kind = .shader shader) {program : Handle} (built : shader.program = some program)
    (frame : FrameContext) (scale : Float32) (read : Nat) (renderer : Renderer ℓ) :
    (placedUniforms tree layer shader).map PlacedUniform.location =
      layer.uniforms.filterMap Uniform.location ++
        shader.sceneUniforms.filterMap SceneUniform.location ∧
    (compositeShader tree frame layer shader scale read).Yields renderer
      (fun _ after => ∃ news, Wired news renderer after ∧
        DrawsSupplied tree frame layer shader program (layer.opacity * scale) renderer after news)
      fun _ after => ∃ news, Wired news renderer after ∧ (.draw ∉ news ∨
        DrawsSupplied tree frame layer shader program (layer.opacity * scale) renderer after
          news) := by
  refine ⟨location_placedUniforms arises.resolves inside kind, ?_⟩
  rw [compositeShader_eq]
  refine (tracksPool_idle.startTarget renderer).bind (fun out begun idle => ?_) fun _ after idle =>
    ⟨[], idle, .inl List.not_mem_nil⟩
  have drawn : (drawShader tree frame layer shader scale read).Yields begun
      (fun _ after => ∃ news, Wired news begun after ∧
        DrawsSupplied tree frame layer shader program (layer.opacity * scale) begun after news)
      fun _ after => ∃ news, Wired news begun after ∧ .draw ∉ news := by
    unfold drawShader
    rw [built]
    refine (drawWith_supplied program shader.builtins layer.blend (layer.opacity * scale) read
      (typed_placedUniforms arises inside shader) begun).bind ?_ fun _ _ failed => failed
    rintro _ mid ⟨news, told, given, previous, supplied⟩
    have counts : Idle mid { mid with stats.layersDrawn := mid.stats.layersDrawn + 1 } :=
      ⟨rfl, rfl, fun _ _ => id⟩
    exact Yields.modified ⟨news, told.idle counts, given, previous, supplied.later counts⟩
  have since : ∀ {news : List DeviceEvent} {after : Renderer ℓ}, Wired news begun after →
      Wired news renderer after := fun told => idle.trans told
  refine drawn.bind ?_ fun _ after failed => ?_
  · rintro _ mid ⟨news, told, given, previous, supplied⟩
    rw [show begun.spectrum = renderer.spectrum from idle.spectrum] at supplied
    refine (tracksPool_idle.swapRead read out mid).mono ?_ ?_
    · exact fun _ after still =>
        ⟨news, (since told).idle still, given, previous, supplied.later still⟩
    · exact fun _ after still =>
        ⟨news, (since told).idle still, .inr ⟨given, previous, supplied.later still⟩⟩
  · obtain ⟨news, told, nothing⟩ := failed
    exact ⟨news, since told, .inl nothing⟩

/-! ### Two textures -/

/-- A device that accepts a shader layer without a scene builds its program, and the uniforms of the
layer are those of its code, with the places that the program has for them. -/
theorem exists_layer_of_accepted {traits : DeviceTraits}
    {shaders : Multiset (Handle × ShaderObject)} {programs : Multiset (Handle × String)}
    {device after : Device} (holds : device.Holds traits shaders programs)
    (steady : traits.Steady) {version source : String} {tree : CompiledTree}
    (plain : mentions source.toList "gSdf".toList = false)
    (accepted : traits.refusal? version (CompiledTree.wrappedFor version none source).text = none)
    (compiled : (CompiledTree.compile (CompiledTree.shaderOf source) none version).runOn device =
      (.ok tree, after)) :
    ∃ layer ∈ tree.layers, ∃ shader program, layer.kind = .shader shader ∧
      shader.program = some program ∧ shader.sceneUniforms = [] ∧
      layer.uniforms.map Uniform.blank = (Uniform.extract source []).map fun uniform =>
        { uniform with
          location := traits.located (CompiledTree.wrappedFor version none source).text
            uniform.name } := by
  obtain ⟨-, layers, -⟩ := (CompiledTree.compile_planned holds steady _).of_ok compiled
  obtain ⟨layer, single, view⟩ := List.map_eq_singleton_iff.mp layers
  have noScene : CompiledTree.plannedScene traits version (CompiledTree.shaderOf source) = none :=
    CompiledTree.buildScene_of_plain plain _ _ _ _ _
  obtain ⟨-, -, -, -, shader, kind, made⟩ := CompiledTree.Portrays.bare_shader view
  rw [noScene, accepted] at made
  obtain ⟨built, uniforms⟩ := made
  obtain ⟨program, is, -⟩ := Option.map_eq_some_iff.mp (congrArg LayerProgram.program built)
  have scene : shader.sceneUniforms = [] :=
    List.map_eq_nil_iff.mp (congrArg LayerProgram.sceneUniforms built)
  exact
    ⟨layer, single ▸ List.mem_singleton_self layer, shader, program, kind, is, scene, uniforms⟩

theorem names_of_located {layer : String} {uniforms others : List Uniform}
    (each : List.Forall₂ (fun other uniform => uniform.location.isSome = true ∧
      (other.name, other.type) = (uniform.name, uniform.type)) others uniforms) :
    (uniforms.filterMap fun uniform => uniform.location.map fun location =>
        (⟨layer, location, uniform⟩ : PlacedUniform)).map
          (fun one => (one.uniform.name, one.uniform.type)) =
      others.map fun uniform => (uniform.name, uniform.type) := by
  induction each with
  | nil => rfl
  | cons both _ ih =>
    obtain ⟨location, is⟩ := Option.isSome_iff_exists.mp both.1
    rw [List.filterMap_cons, is, Option.map_some, List.map_cons, List.map_cons, ih, both.2]

/-- A uniform that a program keeps has a place. -/
theorem placed_of_keeps {traits : DeviceTraits} {text : String} {declared uniform : Uniform}
    (keeps : traits.keeps text declared.name = true)
    (same : { declared with location := traits.located text declared.name } = uniform.blank) :
    uniform.location.isSome = true ∧
      (declared.name, declared.type) = (uniform.name, uniform.type) := by
  have location := congrArg Uniform.location same
  have name := congrArg Uniform.name same
  have type := congrArg Uniform.type same
  dsimp only [Uniform.blank] at location name type
  rw [DeviceTraits.located, if_pos keeps] at location
  obtain ⟨place, is, -⟩ := Option.map_eq_some_iff.mp location.symm
  exact ⟨is ▸ rfl, Prod.ext name type⟩

/-- A layer of which every uniform is kept has a place for each. -/
theorem exists_placedUniforms {source : String}
    (plain : mentions source.toList "gSdf".toList = false)
    (accepted : ({} : DeviceTraits).refusal? "300 es"
      (CompiledTree.wrappedFor "300 es" none source).text = none)
    (keeps : ∀ uniform ∈ Uniform.extract source [], ({} : DeviceTraits).keeps
      (CompiledTree.wrappedFor "300 es" none source).text uniform.name = true) :
    ∃ tree after, (CompiledTree.compile (CompiledTree.shaderOf source) none "300 es").runOn
        ({} : Device) = (.ok tree, after) ∧
      ∃ layer ∈ tree.layers, ∃ shader program, layer.kind = .shader shader ∧
        shader.program = some program ∧
        (placedUniforms tree layer shader).map (fun one => (one.uniform.name, one.uniform.type)) =
          (Uniform.extract source []).map fun uniform => (uniform.name, uniform.type) := by
  obtain ⟨tree, after, compiled⟩ := CompiledTree.compile_new (CompiledTree.shaderOf source)
  obtain ⟨layer, inside, shader, program, kind, built, scene, uniforms⟩ :=
    exists_layer_of_accepted (Device.tidy_new {}) DeviceTraits.steady_new plain accepted compiled
  refine ⟨tree, after, compiled, layer, inside, shader, program, kind, built, ?_⟩
  unfold placedUniforms
  rw [scene, List.filterMap_nil, List.append_nil]
  refine names_of_located ((CompiledTree.Portrays.forall₂_of_map_eq uniforms.symm).imp ?_)
  rintro declared uniform ⟨inside, same⟩
  exact placed_of_keeps (keeps declared inside) same

section

set_option maxRecDepth 100000

/-- Code that shows two textures. -/
def pictures : String :=
  "uniform sampler2D first;uniform sampler2D second;"

theorem builds_pictures : Buildable ["first", "second"]
    (CompiledTree.wrappedFor "300 es" none pictures).text.toList := by
  apply WrittenOut.builds_layer
  · unfold CompiledTree.wrappedFor WrappedSource.layer WrappedSource.assemble
    simp only [String.append_assoc]
    apply WrittenOut.append writtenHeader.2
    apply WrittenOut.append (.of_characters [])
    apply WrittenOut.append (.endLine (.of_characters _))
    repeat apply WrittenOut.unlines_cons (.of_characters _)
    exact WrittenOut.unlines_nil
  · decide +kernel
  · decide +kernel

theorem extract_pictures : (Uniform.extract pictures []).map (fun u => (u.name, u.type)) =
    [("first", "sampler2D"), ("second", "sampler2D")] := by
  have written : WrittenOut pictures _ := .of_characters _
  rw [WrittenOut] at written
  rw [Uniform.extract, written]
  decide +kernel

end

theorem keeps_pictures : ∀ uniform ∈ Uniform.extract pictures [], ({} : DeviceTraits).keeps
    (CompiledTree.wrappedFor "300 es" none pictures).text uniform.name = true := by
  intro uniform inside
  have there : (uniform.name, uniform.type) ∈ [("first", "sampler2D"), ("second", "sampler2D")] :=
    extract_pictures ▸ List.mem_map_of_mem inside
  have known : uniform.name ∈ ["first", "second"] := List.mem_map_of_mem (f := Prod.fst) there
  exact (builds_pictures.built "300 es").2 _ known

/-- The two textures of a layer have the units two and three. -/
theorem compositeShader_supplied_pictures :
    ∃ tree after, (CompiledTree.compile (CompiledTree.shaderOf pictures) none "300 es").runOn
        ({} : Device) = (.ok tree, after) ∧
      ∃ layer ∈ tree.layers, ∃ shader program, layer.kind = .shader shader ∧
        shader.program = some program ∧
        (placedUniforms tree layer shader).map (fun one => (one.uniform.name, one.uniform.type)) =
          [("first", "sampler2D"), ("second", "sampler2D")] ∧
        ∀ (frame : FrameContext) (scale : Float32) (read : Nat) (renderer : Renderer NoLoader),
          (placedUniforms tree layer shader).map PlacedUniform.location =
            layer.uniforms.filterMap Uniform.location ++
              shader.sceneUniforms.filterMap SceneUniform.location ∧
          (compositeShader tree frame layer shader scale read).Yields renderer
            (fun _ after => ∃ news, Wired news renderer after ∧
              DrawsSupplied tree frame layer shader program (layer.opacity * scale) renderer after
                news)
            fun _ after => ∃ news, Wired news renderer after ∧ (.draw ∉ news ∨
              DrawsSupplied tree frame layer shader program (layer.opacity * scale) renderer after
                news) := by
  have plain : mentions pictures.toList "gSdf".toList = false := by decide
  obtain ⟨tree, after, compiled, layer, inside, shader, program, kind, built, names⟩ :=
    exists_placedUniforms plain (builds_pictures.built "300 es").1 keeps_pictures
  rw [extract_pictures] at names
  exact ⟨tree, after, compiled, layer, inside, shader, program, kind, built, names,
    fun frame scale read renderer =>
      compositeShader_supplied (.compiled compiled) inside kind built frame scale read renderer⟩

end Renderer
end Collage
