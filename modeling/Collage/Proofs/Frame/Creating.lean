import Collage.Proofs.Device.Programs
import Collage.Proofs.Frame.Leftovers
import Collage.Proofs.Program.Standing

/-!
# A renderer can be created

On a device that is `Obliging`, that is, refuses nothing, hides no uniform and has memory for
textures, the standing programs can be built, and so a renderer without anti-aliasing can be
created (`create_succeeds`).  The new device is one (`obliging_new`).
-/

namespace Collage

open Collage.Action

/-- A device that refuses nothing, hides no uniform and has memory for textures. -/
structure DeviceTraits.Obliging (traits : DeviceTraits) : Prop where
  vertex : traits.vertexFailure = none
  compiles : traits.compileFailures = []
  links : traits.linkFailures = []
  shaders : ∀ asked stage source, traits.shaderRefusal asked stage source = none
  programs : ∀ asked vertex fragment, traits.linkRefusal asked vertex fragment = none
  shown : traits.hiddenUniforms = []
  uniforms : ∀ source name, traits.removesUniform source name = false
  textures : ∀ asked, traits.texturesExhausted asked = false

namespace DeviceTraits

variable {traits : DeviceTraits}

theorem obliging_new : ({} : DeviceTraits).Obliging :=
  ⟨rfl, rfl, rfl, fun _ _ _ => rfl, fun _ _ _ => rfl, rfl, fun _ _ => rfl, fun _ => rfl⟩

theorem Obliging.not_lacks (obliging : traits.Obliging) (version log : String) :
    ¬ traits.Lacks version log := by
  rintro (failed | ⟨-, asked, refused⟩)
  · rw [obliging.vertex] at failed
    cases failed
  · rw [Device.shaderLog?, obliging.shaders] at refused
    cases refused

theorem Obliging.not_refuses (obliging : traits.Obliging) {source : String}
    (accepted : Device.errorLine? source.toList = none) (version log : String) :
    ¬ traits.Refuses version source log := by
  rintro (⟨asked, refused⟩ | ⟨-, asked, refused⟩)
  · rw [Device.shaderLog?, obliging.shaders, Device.compileLog?, obliging.compiles,
      accepted] at refused
    cases refused
  · rw [Device.linkLog?, obliging.programs, obliging.links] at refused
    cases refused

end DeviceTraits

variable {traits : DeviceTraits} {shaders : Multiset (Handle × ShaderObject)}
  {programs : Multiset (Handle × String)} {device : Device}

/-- An action that cannot fail where there are these shaders and programs. -/
abbrev Succeeds (traits : DeviceTraits) (shaders : Multiset (Handle × ShaderObject)) {α : Type}
    (programs : α → Multiset (Handle × String)) (action : Action Device α) (device : Device) :
    Prop :=
  action.Yields device (fun value later => Device.Holds traits shaders (programs value) later)
    fun _ _ => False

theorem buildNamed_succeeds (obliging : traits.Obliging)
    (h : Device.Holds traits shaders programs device) {builder : ProgramBuilder}
    (there : builder.entry ∈ shaders) (name : String) {source : String}
    (accepted : Device.errorLine? source.toList = none) :
    Succeeds traits shaders (fun program => (program, source) ::ₘ programs)
      (builder.buildNamed name source) device := by
  unfold Succeeds Yields runOn ExceptT.run ProgramBuilder.buildNamed
  cases built : builder.build source device with
  | mk outcome later =>
    cases outcome with
    | error log =>
      exact obliging.not_refuses accepted _ _ (ProgramBuilder.build_error h there built).1
    | ok program => exact (ProgramBuilder.build_ok h there built).2

theorem requiredLocation_succeeds (obliging : traits.Obliging)
    (h : Device.Holds traits shaders programs device) {program : Handle} {source : String}
    (inside : (program, source) ∈ programs) (name : String) {uniform : String}
    (declared : uniform ∈ Device.declaredUniforms source.toList) :
    Succeeds traits shaders (fun _ => programs) (requiredLocation program name uniform) device := by
  have kept := h.uniformLocation program uniform
  have keeps : device.keepsUniform program uniform = true := by
    unfold Device.keepsUniform
    rw [h.behaves, obliging.shown, h.get?_program inside, h.get?_linkedFrom inside]
    simp [obliging.uniforms, declared]
  have found : ∃ location later,
      device.uniformLocation program uniform = (some location, later) := by
    unfold Device.uniformLocation
    rw [keeps]
    cases device.locations.idxOf? (program, uniform) with
    | none => exact ⟨_, _, rfl⟩
    | some location => exact ⟨_, _, rfl⟩
  obtain ⟨location, later, found⟩ := found
  rw [found] at kept
  unfold Succeeds Yields runOn ExceptT.run requiredLocation
  rw [found]
  exact kept

namespace StandingPrograms

/-- A layer that declares what compositing needs can be drawn. -/
theorem layerLocations_succeeds (obliging : traits.Obliging)
    (h : Device.Holds traits shaders programs device) {program : Handle} {source : String}
    (inside : (program, source) ∈ programs) (name : String)
    (declared : ∀ uniform ∈ ["gPreviousLayer", "gBlendMode", "gOpacity"],
      uniform ∈ Device.declaredUniforms source.toList) :
    Succeeds traits shaders (fun _ => programs) (layerLocations program name) device := by
  unfold layerLocations
  refine Yields.bind (requiredLocation_succeeds obliging h inside name (declared _ (by simp))) ?_
    fun _ _ => id
  intro _ _ h
  refine Yields.bind (requiredLocation_succeeds obliging h inside name (declared _ (by simp))) ?_
    fun _ _ => id
  intro _ _ h
  refine Yields.bind (requiredLocation_succeeds obliging h inside name (declared _ (by simp))) ?_
    fun _ _ => id
  intro _ later h
  have kept := BuiltinLocations.resolve_holds program later h
  generalize BuiltinLocations.resolve program = resolved at kept ⊢
  exact Yields.lift kept

section

variable {builder : ProgramBuilder}

theorem createCopy_succeeds (obliging : traits.Obliging)
    (h : Device.Holds traits shaders programs device) (there : builder.entry ∈ shaders)
    (version : builder.version = "300 es") :
    (createCopy builder).Yields device
      (fun _ later => ∃ programs, Device.Holds traits shaders programs later)
      fun _ _ => False := by
  have builds := version ▸ builds_copy
  unfold createCopy
  generalize ShaderLibrary.copy builder.version = source at builds ⊢
  refine Yields.bind (buildNamed_succeeds obliging h there "copy" builds.accepted) ?_ fun _ _ => id
  intro program _ h
  have inside : (program, source) ∈ (program, source) ::ₘ programs := Multiset.mem_cons_self _ _
  refine Yields.bind (requiredLocation_succeeds obliging h inside "copy"
    (builds.declared _ (by simp))) ?_ fun _ _ => id
  intro texture _ h
  refine Yields.bind (requiredLocation_succeeds obliging h inside "copy"
    (builds.declared _ (by simp))) ?_ fun _ _ => id
  intro flip _ h
  exact Yields.pure ⟨_, h⟩

theorem createTexture_succeeds (obliging : traits.Obliging)
    (h : Device.Holds traits shaders programs device) (there : builder.entry ∈ shaders)
    (version : builder.version = "300 es") :
    (createTexture builder).Yields device
      (fun _ later => ∃ programs, Device.Holds traits shaders programs later)
      fun _ _ => False := by
  have builds := version ▸ WrappedSource.builds_layers.1
  unfold createTexture createLayer
  generalize (WrappedSource.layer builder.version ShaderLibrary.texture none).text = source at builds ⊢
  refine Yields.bind (buildNamed_succeeds obliging h there "custom-texture" builds.accepted) ?_
    fun _ _ => id
  intro program _ h
  have inside : (program, source) ∈ (program, source) ::ₘ programs := Multiset.mem_cons_self _ _
  refine Yields.bind (requiredLocation_succeeds obliging h inside "custom-texture"
    (builds.declared _ (by simp))) ?_ fun _ _ => id
  intro texture _ h
  refine Yields.bind (layerLocations_succeeds obliging h inside "custom-texture"
    fun uniform known => builds.declared _ (List.mem_cons_of_mem _ known)) ?_ fun _ _ => id
  intro builtins _ h
  exact Yields.pure ⟨_, h⟩

theorem createCheckerboard_succeeds (obliging : traits.Obliging)
    (h : Device.Holds traits shaders programs device) (there : builder.entry ∈ shaders)
    (version : builder.version = "300 es") :
    (createCheckerboard builder).Yields device
      (fun _ later => ∃ programs, Device.Holds traits shaders programs later)
      fun _ _ => False := by
  have builds := version ▸ WrappedSource.builds_layers.2
  unfold createCheckerboard createLayer
  generalize (WrappedSource.layer builder.version ShaderLibrary.checkerboard none).text = source
    at builds ⊢
  refine Yields.bind (buildNamed_succeeds obliging h there "checkerboard" builds.accepted) ?_
    fun _ _ => id
  intro program _ h
  have inside : (program, source) ∈ (program, source) ::ₘ programs := Multiset.mem_cons_self _ _
  refine Yields.bind (layerLocations_succeeds obliging h inside "checkerboard" builds.declared) ?_
    fun _ _ => id
  intro builtins _ h
  exact Yields.pure ⟨_, h⟩

end

/-- **The standing programs can be built** on an obliging device. -/
theorem create_succeeds (obliging : traits.Obliging)
    (h : Device.Holds traits shaders programs device) :
    (create "300 es").Yields device
      (fun _ later => ∃ shaders programs, Device.Holds traits shaders programs later)
      fun _ _ => False := by
  unfold create
  refine (ProgramBuilder.create_yields h "300 es").bind ?_
    fun _ _ ⟨_, log, lacks, _⟩ => obliging.not_lacks _ _ lacks
  rintro builder _ ⟨version, -, h⟩
  have there : builder.entry ∈ builder.entry ::ₘ shaders := Multiset.mem_cons_self _ _
  refine (createCopy_succeeds obliging h there version).bind ?_ fun _ _ => id
  rintro copy _ ⟨_, h⟩
  refine (createTexture_succeeds obliging h there version).bind ?_ fun _ _ => id
  rintro texture _ ⟨_, h⟩
  refine (createCheckerboard_succeeds obliging h there version).bind ?_ fun _ _ => id
  rintro checkerboard _ ⟨_, h⟩
  exact Yields.pure ⟨_, _, h⟩

end StandingPrograms

/-- **A renderer without anti-aliasing can be created** on an obliging device. -/
theorem Renderer.create_succeeds {ℓ : Type} (options : RendererOptions)
    (version : options.version = "300 es") (antiAlias : options.antiAlias = 1) (loader : ℓ)
    (obliging : traits.Obliging) (h : Device.Holds traits shaders programs device) :
    ∃ renderer later, (create options loader).runOn device = (.ok renderer, later) := by
  have standing := StandingPrograms.create_succeeds obliging h
  have created : (create options loader).Yields device (fun _ _ => True) fun _ _ => False := by
    rw [← version] at standing
    have pool : ∀ built, (∃ shaders programs, Device.Holds traits shaders programs built) →
        (RenderTargets.create options.width options.height options.antiAlias).Yields built
          (fun _ laid => laid.traits.texturesExhausted laid.texturesAsked = false)
          fun _ _ => False := by
      rintro built ⟨_, _, h⟩
      have memory : built.traits.texturesExhausted built.texturesAsked = false :=
        h.behaves ▸ obliging.textures built.texturesAsked
      unfold Yields
      rw [antiAlias, RenderTargets.create_one]
      exact memory
    refine create_by_parts standing (fun _ built held => pool built held) ?_
      fun _ _ _ _ _ _ _ => trivial
    intro programs targets laid memory cause later failed
    unfold Device.createTexture at failed
    dsimp only at failed
    rw [memory] at failed
    cases failed
  unfold Yields at created
  cases ran : (create options loader).runOn device with
  | mk outcome later =>
    rw [ran] at created
    cases outcome with
    | error failure => exact created.elim
    | ok renderer => exact ⟨renderer, later, rfl⟩

end Collage
