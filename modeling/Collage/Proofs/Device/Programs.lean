import Collage.Program.Standing
import Collage.Proofs.Device.Framebuffers
import Collage.Proofs.Device.Ledger
import Collage.Proofs.Device.Orders
import Collage.Proofs.Frame.Outcome

/-!
# Building programs

Shaders and programs have nothing to do with textures and framebuffers, nothing is drawn with them
yet, and a location that was looked up stays known: every call about them goes on `Backstage`, and
so does all that builds programs with these calls, whether it fails or not.

The standing programs are three programs and a vertex shader in the ledger of the device
(`create_adds`), and they take these with them when they are released (`release_holds`).
-/

namespace Collage

open Collage.Action

namespace Device

/-- Between two states of a device textures and framebuffers were left alone, nothing was told
that is drawn, and no location was forgotten. -/
structure Backstage (before after : Device) : Prop where
  traits : after.traits = before.traits
  textures : after.textures = before.textures
  texturesAsked : after.texturesAsked = before.texturesAsked
  framebuffers : after.framebuffers = before.framebuffers
  asked : after.framebuffersAsked = before.framebuffersAsked
  handles : before.nextHandle ≤ after.nextHandle
  attached : after.attached = before.attached
  orders : after.orders = before.orders
  locations : before.locations <+: after.locations

namespace Backstage

theorem refl (device : Device) : Backstage device device :=
  ⟨rfl, rfl, rfl, rfl, rfl, Nat.le_refl _, rfl, rfl, List.prefix_rfl⟩

theorem trans {a b c : Device} (h : Backstage a b) (h' : Backstage b c) : Backstage a c :=
  ⟨h'.traits.trans h.traits, h'.textures.trans h.textures,
    h'.texturesAsked.trans h.texturesAsked, h'.framebuffers.trans h.framebuffers,
    h'.asked.trans h.asked, Nat.le_trans h.handles h'.handles, h'.attached.trans h.attached,
    h'.orders.trans h.orders, h.locations.trans h'.locations⟩

theorem calm {before after : Device} (h : Backstage before after) : Calm before after :=
  ⟨congrArg Table.keys h.framebuffers, h.asked, h.handles, h.attached⟩

theorem foldl {α : Type} {step : Device → α → Device}
    (same : ∀ device item, Backstage device (step device item)) :
    ∀ (items : List α) (device : Device), Backstage device (items.foldl step device)
  | [], device => refl device
  | item :: rest, device => (same device item).trans (foldl same rest (step device item))

end Backstage

instance : Std.Refl Backstage := ⟨Backstage.refl⟩

instance : IsTrans Device Backstage := ⟨fun _ _ _ => Backstage.trans⟩

variable (device : Device)

/-! ### Calls -/

theorem backstage_createShader (stage : ShaderStage) (source : String) :
    Backstage device (device.createShader stage source).2 := by
  unfold createShader
  dsimp only
  split
  · exact .refl device
  · split
    · exact ⟨rfl, rfl, rfl, rfl, rfl, Nat.le_refl _, rfl, rfl, List.prefix_rfl⟩
    · exact ⟨rfl, rfl, rfl, rfl, rfl, Nat.le_succ _, rfl, rfl, List.prefix_rfl⟩

theorem backstage_deleteShader (handle : Handle) : Backstage device (device.deleteShader handle) :=
  ⟨rfl, rfl, rfl, rfl, rfl, Nat.le_refl _, rfl, rfl, List.prefix_rfl⟩

theorem backstage_linkProgram (vertex fragment : Handle) :
    Backstage device (device.linkProgram vertex fragment).2 := by
  unfold linkProgram
  dsimp only
  split
  · exact ⟨rfl, rfl, rfl, rfl, rfl, Nat.le_refl _, rfl, rfl, List.prefix_rfl⟩
  · exact ⟨rfl, rfl, rfl, rfl, rfl, Nat.le_succ _, rfl, rfl, List.prefix_rfl⟩

theorem backstage_deleteProgram (handle : Handle) : Backstage device (device.deleteProgram handle) :=
  ⟨rfl, rfl, rfl, rfl, rfl, Nat.le_refl _, rfl, rfl, List.prefix_rfl⟩

theorem backstage_uniformLocation (program : Handle) (name : String) :
    Backstage device (device.uniformLocation program name).2 := by
  unfold uniformLocation
  split
  · exact .refl device
  · split
    · exact .refl device
    · exact ⟨rfl, rfl, rfl, rfl, rfl, Nat.le_refl _, rfl, rfl, List.prefix_append _ _⟩

end Device

/-! ### Programs -/

theorem requiredLocation_backstage (program : Handle) (name uniform : String) :
    Keeps Device.Backstage (requiredLocation program name uniform) := by
  intro device
  have same := device.backstage_uniformLocation program uniform
  unfold Yields runOn ExceptT.run requiredLocation
  revert same
  cases device.uniformLocation program uniform with
  | mk location later => cases location <;> exact id

namespace ProgramBuilder

theorem create_backstage (version : String) : Keeps Device.Backstage (create version) := by
  intro device
  have same := device.backstage_createShader .vertex (ShaderLibrary.vertex version)
  unfold Yields runOn ExceptT.run create
  revert same
  cases device.createShader .vertex (ShaderLibrary.vertex version) with
  | mk vertex later => cases vertex <;> exact id

theorem build_backstage (builder : ProgramBuilder) (fragment : String) (device : Device) :
    Device.Backstage device (builder.build fragment device).2 := by
  have compiled := device.backstage_createShader .fragment fragment
  unfold build
  revert compiled
  cases device.createShader .fragment fragment with
  | mk outcome later =>
    intro compiled
    cases outcome with
    | error log => exact compiled
    | ok shader =>
      exact (compiled.trans (later.backstage_linkProgram builder.vertex shader)).trans
        (Device.backstage_deleteShader _ shader)

theorem buildNamed_backstage (builder : ProgramBuilder) (name fragment : String) :
    Keeps Device.Backstage (builder.buildNamed name fragment) := by
  intro device
  have same := builder.build_backstage fragment device
  unfold Yields runOn ExceptT.run buildNamed
  revert same
  cases builder.build fragment device with
  | mk outcome later => cases outcome <;> exact id

end ProgramBuilder

theorem lookUp_backstage {α : Type} {next : Option Nat → StateM Device α}
    (same : ∀ location device, Device.Backstage device (next location device).2) (program : Handle)
    (name : String) (device : Device) :
    Device.Backstage device ((do next (← Device.uniformLocation program name) : StateM Device α)
      device).2 :=
  (device.backstage_uniformLocation program name).trans (same _ _)

theorem BuiltinLocations.resolve_backstage (program : Handle) (device : Device) :
    Device.Backstage device (resolve program device).2 := by
  unfold resolve
  revert device
  iterate 14
    refine lookUp_backstage (fun _ => ?_) program _
  exact Device.Backstage.refl

namespace StandingPrograms

theorem layerLocations_backstage (program : Handle) (name : String) (device : Device) :
    Device.Backstage device ((layerLocations program name).runOn device).2 := by
  refine Keeps.after_iff.mp ?_ device
  unfold layerLocations
  refine Keeps.bind (requiredLocation_backstage program name _) fun _ => ?_
  refine Keeps.bind (requiredLocation_backstage program name _) fun _ => ?_
  refine Keeps.bind (requiredLocation_backstage program name _) fun _ => ?_
  refine Keeps.lift ?_
  exact BuiltinLocations.resolve_backstage program

theorem createCopy_backstage (builder : ProgramBuilder) (device : Device) :
    Device.Backstage device ((createCopy builder).runOn device).2 := by
  unfold createCopy
  -- which source it is does not matter, and it is long
  generalize ShaderLibrary.copy builder.version = source
  refine Keeps.after_iff.mp ?_ device
  refine Keeps.bind (builder.buildNamed_backstage _ _) fun program => ?_
  refine Keeps.bind (requiredLocation_backstage program _ _) fun texture => ?_
  exact Keeps.bind (requiredLocation_backstage program _ _) fun flip => Keeps.pure _

theorem createTexture_backstage (builder : ProgramBuilder) (device : Device) :
    Device.Backstage device ((createTexture builder).runOn device).2 := by
  unfold createTexture createLayer
  generalize WrappedSource.text _ = source
  refine Keeps.after_iff.mp ?_ device
  refine Keeps.bind (builder.buildNamed_backstage _ _) fun program => ?_
  refine Keeps.bind (requiredLocation_backstage program _ _) fun texture => ?_
  refine Keeps.bind (Keeps.after_iff.mpr ?_) fun builtins => Keeps.pure _
  exact layerLocations_backstage program _

theorem createCheckerboard_backstage (builder : ProgramBuilder) (device : Device) :
    Device.Backstage device ((createCheckerboard builder).runOn device).2 := by
  unfold createCheckerboard createLayer
  generalize WrappedSource.text _ = source
  refine Keeps.after_iff.mp ?_ device
  refine Keeps.bind (builder.buildNamed_backstage _ _) fun program => ?_
  refine Keeps.bind (Keeps.after_iff.mpr ?_) fun builtins => Keeps.pure _
  exact layerLocations_backstage program _

/-- **The standing programs are built backstage.** -/
theorem create_backstage (version : String) (device : Device) :
    Device.Backstage device ((create version).runOn device).2 := by
  have copy := createCopy_backstage
  have texture := createTexture_backstage
  have checkerboard := createCheckerboard_backstage
  unfold create
  generalize createCopy = copied at copy ⊢
  generalize createTexture = textured at texture ⊢
  generalize createCheckerboard = checkered at checkerboard ⊢
  refine Keeps.after_iff.mp ?_ device
  refine Keeps.bind (ProgramBuilder.create_backstage version) fun builder => ?_
  refine Keeps.bind (Keeps.after_iff.mpr (copy builder)) fun _ => ?_
  refine Keeps.bind (Keeps.after_iff.mpr (texture builder)) fun _ => ?_
  exact Keeps.bind (Keeps.after_iff.mpr (checkerboard builder)) fun _ => Keeps.pure _

theorem release_backstage (standing : StandingPrograms) (device : Device) :
    Device.Backstage device (standing.release device) :=
  (((device.backstage_deleteProgram _).trans (Device.backstage_deleteProgram _ _)).trans
    (Device.backstage_deleteProgram _ _)).trans (Device.backstage_deleteShader _ _)

/-! ### The standing programs in the ledger -/

section

variable {traits : DeviceTraits} {shaders : Multiset (Handle × ShaderObject)}
  {programs : Multiset (Handle × String)} {device : Device}

/-- If an action ends well, there are these shaders and programs afterwards. -/
abbrev Adds (traits : DeviceTraits) (shaders : Multiset (Handle × ShaderObject)) {α : Type}
    (programs : α → Multiset (Handle × String)) (action : Action Device α) (device : Device) : Prop :=
  action.Yields device (fun value later => Device.Holds traits shaders (programs value) later)
    fun _ _ => True

theorem requiredLocation_adds (h : Device.Holds traits shaders programs device) (program : Handle)
    (name uniform : String) :
    Adds traits shaders (fun _ => programs) (requiredLocation program name uniform) device := by
  have holds := h.uniformLocation program uniform
  unfold Adds Yields runOn ExceptT.run requiredLocation
  revert holds
  cases device.uniformLocation program uniform with
  | mk location later =>
    cases location with
    | none => exact fun _ => trivial
    | some location => exact id

theorem buildNamed_adds (h : Device.Holds traits shaders programs device) {builder : ProgramBuilder}
    (there : builder.entry ∈ shaders) (name source : String) :
    Adds traits shaders (fun program => (program, source) ::ₘ programs)
      (builder.buildNamed name source) device := by
  unfold Adds Yields runOn ExceptT.run ProgramBuilder.buildNamed
  cases built : builder.build source device with
  | mk outcome later =>
    cases outcome with
    | error log => exact trivial
    | ok program => exact (ProgramBuilder.build_ok h there built).2

theorem layerLocations_adds (h : Device.Holds traits shaders programs device) (program : Handle)
    (name : String) :
    Adds traits shaders (fun _ => programs) (layerLocations program name) device := by
  unfold layerLocations
  refine Yields.bind (requiredLocation_adds h program name _) ?_ fun _ _ => id
  intro _ _ h
  refine Yields.bind (requiredLocation_adds h program name _) ?_ fun _ _ => id
  intro _ _ h
  refine Yields.bind (requiredLocation_adds h program name _) ?_ fun _ _ => id
  intro _ later h
  have kept := BuiltinLocations.resolve_holds program later h
  -- there are many locations, and which ones does not matter
  generalize BuiltinLocations.resolve program = resolved at kept ⊢
  exact Yields.lift kept

theorem createCopy_adds (h : Device.Holds traits shaders programs device) {builder : ProgramBuilder}
    (there : builder.entry ∈ shaders) :
    (createCopy builder).Yields device
      (fun copy later => ∃ source,
        Device.Holds traits shaders ((copy.program, source) ::ₘ programs) later)
      fun _ _ => True := by
  unfold createCopy
  refine Yields.bind (buildNamed_adds h there _ _) ?_ fun _ _ => id
  intro program _ h
  refine Yields.bind (requiredLocation_adds h program _ _) ?_ fun _ _ => id
  intro texture _ h
  refine Yields.bind (requiredLocation_adds h program _ _) ?_ fun _ _ => id
  intro flip _ h
  exact Yields.pure ⟨_, h⟩

theorem createTexture_adds (h : Device.Holds traits shaders programs device)
    {builder : ProgramBuilder} (there : builder.entry ∈ shaders) :
    (createTexture builder).Yields device
      (fun texture later => ∃ source,
        Device.Holds traits shaders ((texture.program, source) ::ₘ programs) later)
      fun _ _ => True := by
  unfold createTexture createLayer
  refine Yields.bind (buildNamed_adds h there _ _) ?_ fun _ _ => id
  intro program _ h
  refine Yields.bind (requiredLocation_adds h program _ _) ?_ fun _ _ => id
  intro texture _ h
  refine Yields.bind (layerLocations_adds h program _) ?_ fun _ _ => id
  intro builtins _ h
  exact Yields.pure ⟨_, h⟩

theorem createCheckerboard_adds (h : Device.Holds traits shaders programs device)
    {builder : ProgramBuilder} (there : builder.entry ∈ shaders) :
    (createCheckerboard builder).Yields device
      (fun checkerboard later => ∃ source,
        Device.Holds traits shaders ((checkerboard.program, source) ::ₘ programs) later)
      fun _ _ => True := by
  unfold createCheckerboard createLayer
  refine Yields.bind (buildNamed_adds h there _ _) ?_ fun _ _ => id
  intro program _ h
  refine Yields.bind (layerLocations_adds h program _) ?_ fun _ _ => id
  intro builtins _ h
  exact Yields.pure ⟨_, h⟩

/-- The handles of the standing programs. -/
def handles (standing : StandingPrograms) : List Handle :=
  [standing.copy.program, standing.texture.program, standing.checkerboard.program]

/-- **The standing programs are three programs more in the ledger**, and a vertex shader. -/
theorem create_adds (h : Device.Holds traits shaders programs device) (version : String) :
    (create version).Yields device
      (fun standing later => ∃ entries : List (Handle × String),
        entries.map Prod.fst = standing.handles ∧
        Device.Holds traits (standing.builder.entry ::ₘ shaders)
          ((entries : Multiset (Handle × String)) + programs) later)
      fun _ _ => True := by
  unfold create
  refine (ProgramBuilder.create_yields h version).bind ?_ fun _ _ _ => trivial
  rintro builder _ ⟨-, -, h⟩
  have there : builder.entry ∈ builder.entry ::ₘ shaders := Multiset.mem_cons_self _ _
  refine (createCopy_adds h there).bind ?_ fun _ _ => id
  rintro copy _ ⟨first, h⟩
  refine (createTexture_adds h there).bind ?_ fun _ _ => id
  rintro texture _ ⟨second, h⟩
  refine (createCheckerboard_adds h there).bind ?_ fun _ _ => id
  rintro checkerboard _ ⟨third, h⟩
  refine Yields.pure ⟨[(copy.program, first), (texture.program, second),
    (checkerboard.program, third)], rfl, ?_⟩
  have moved : (checkerboard.program, third) ::ₘ (texture.program, second) ::ₘ
      (copy.program, first) ::ₘ programs = ([(copy.program, first), (texture.program, second),
        (checkerboard.program, third)] : List (Handle × String)) + programs := by
    simp only [← Multiset.cons_coe, Multiset.cons_add, Multiset.coe_nil, Multiset.zero_add]
    rw [Multiset.cons_swap (checkerboard.program, third) (texture.program, second),
      Multiset.cons_swap (checkerboard.program, third) (copy.program, first),
      Multiset.cons_swap (texture.program, second) (copy.program, first)]
  exact moved ▸ h

theorem release_holds {standing : StandingPrograms} {entries : List (Handle × String)}
    (same : entries.map Prod.fst = standing.handles)
    (h : Device.Holds traits (standing.builder.entry ::ₘ shaders)
      ((entries : Multiset (Handle × String)) + programs) device) :
    Device.Holds traits shaders programs (standing.release device) := by
  have deleted := h.deleteAll
  rw [same] at deleted
  exact deleted.deleteShader

end

end StandingPrograms
end Collage
