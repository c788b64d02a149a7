import Collage.Proofs.Frame.Pool
import Collage.Proofs.Frame.Tracking

/-!
# What leaves the targets alone

Of all that happens in a frame only four actions touch the pool: taking a target,
giving one back, and what is done at the end of a frame or of previews.  Everything
else is quiet: it leaves the pool as it is, its calls of the device are calm, and what
it adds to the other textures is made on the way, also where it fails.
-/

namespace Collage

namespace TextureCache

open Collage.Action

variable {ℓ : Type}

/-- The textures of a cache. -/
def handles (cache : TextureCache) : List Handle :=
  cache.values.map (·.texture)

/-- Between two states of a cache the device was calm, and new textures were made. -/
structure Calm (before after : State ℓ) : Prop where
  calm : Device.Calm before.device after.device
  gains : before.device.Gains after.device before.cache.handles after.cache.handles

theorem Calm.refl (state : State ℓ) : Calm state state :=
  ⟨.refl _, .refl _⟩

theorem Calm.trans {a b c : State ℓ} (h : Calm a b) (h' : Calm b c) : Calm a c :=
  ⟨h.calm.trans h'.calm, .trans h.calm.onward h'.calm.onward h.gains h'.gains⟩

theorem Found.calm {key : TextureKey} {width height : Nat} {bytes : List UInt8}
    {state after : State ℓ} {texture : Handle}
    (found : Found key width height bytes state texture after) : Calm state after := by
  cases found with
  | known there => exact .refl _
  | made loader ready absent created =>
    obtain ⟨calm, made⟩ := Device.made_createTexture created
    refine ⟨calm.trans (Device.calm_uploadTexture _ _ _ _ _), fun other inside => ?_⟩
    obtain ⟨entry, there, rfl⟩ := List.mem_map.mp inside
    rcases Table.mem_values_set there with rfl | there
    · exact .inr ⟨made.new, made.given⟩
    · exact .inl (List.mem_map_of_mem there)

theorem Failed.calm {key : TextureKey} {state after : State ℓ} {failure : Failure}
    (h : Failed key state failure after) : Calm state after := by
  obtain ⟨-, filter, wrap, cause, later, failed, _, rfl⟩ := h
  have calm := state.device.calm_createTexture filter wrap
  rw [failed] at calm
  exact ⟨calm, .refl _⟩

variable [TextureLoader ℓ]

theorem handles_modify (cache : TextureCache) (key : TextureKey) (ready : Bool) :
    handles (cache.modify key fun entry => { entry with ready }) = handles cache :=
  Table.map_values_modify (f := fun entry : CachedTexture => { entry with ready })
    (fun _ => rfl) cache key

theorem poll_calm (state : State ℓ) : Calm state (poll state) := by
  refine poll_leads _ Calm.refl Calm.trans (fun state key _ ready => ⟨.refl _, ?_⟩)
    (fun state key _ ready _ _ _ _ => ⟨Device.calm_uploadTexture _ _ _ _ _, ?_⟩) state
  all_goals
    rw [handles_modify]
    exact .refl _

end TextureCache

namespace ExternalLayers

open Collage.Action

/-- The textures that show layers. -/
def handles (layers : ExternalLayers) : List Handle :=
  layers.states.values.filterMap (·.texture)

/-- Between two states of the layers the device was calm, and new textures were made. -/
structure Calm (before after : State) : Prop where
  calm : Device.Calm before.1 after.1
  gains : before.1.Gains after.1 before.2.handles after.2.handles

theorem Calm.refl (state : State) : Calm state state :=
  ⟨.refl _, .refl _⟩

theorem Calm.trans {a b c : State} (h : Calm a b) (h' : Calm b c) : Calm a c :=
  ⟨h.calm.trans h'.calm, .trans h.calm.onward h'.calm.onward h.gains h'.gains⟩

instance : Std.Refl Calm := ⟨Calm.refl⟩

instance : IsTrans State Calm := ⟨fun _ _ _ => Calm.trans⟩

theorem mem_handles {layers : ExternalLayers} {layer : String} {state : ExternalState}
    {texture : Handle} (found : layers.states.get? layer = some state)
    (same : state.texture = some texture) : texture ∈ layers.handles :=
  List.mem_filterMap.mpr ⟨state, Table.mem_values_of_get? found, same⟩

theorem mem_handles_of_texture? {layers : ExternalLayers} {layer : String} {texture : Handle}
    (known : layers.texture? layer = some texture) : texture ∈ layers.handles := by
  obtain ⟨state, found, same⟩ := Option.bind_eq_some_iff.mp known
  exact mem_handles found same

theorem setState_calm {layers : ExternalLayers} {device later : Device} {layer : String}
    {state : ExternalState} (calm : Device.Calm device later)
    (known : ∀ texture, state.texture = some texture →
      texture ∈ layers.handles ∨ device.Made later texture) :
    Calm (device, layers) (later, { layers with states := layers.states.set layer state }) := by
  refine ⟨calm, fun texture inside => ?_⟩
  obtain ⟨other, there, same⟩ := List.mem_filterMap.mp inside
  rcases Table.mem_values_set there with rfl | there
  · exact known texture same
  · exact .inl (List.mem_filterMap.mpr ⟨other, there, same⟩)

/-- A request changes no texture. -/
theorem request_gains (device later : Device) (layers : ExternalLayers) (layer : String)
    (make : Nat → ExternalRequest) :
    device.Gains later layers.handles (layers.request layer make).2.handles := by
  unfold request
  split
  · intro texture inside
    obtain ⟨other, there, same⟩ := List.mem_filterMap.mp inside
    rcases Table.mem_values_set there with rfl | there
    · cases found : layers.states.get? layer with
      | none =>
        rw [stateOf, found] at same
        cases same
      | some state =>
        rw [stateOf, found] at same
        exact .inl (mem_handles found same)
    · exact .inl (List.mem_filterMap.mpr ⟨other, there, same⟩)
  · exact .refl _

/-- Taking what has come back leaves the device calm. -/
theorem tracksDrain_calm : TracksDrain Calm fun _ => Calm where
  toTraces := Keeps.traces
  waits _ _ := ⟨.refl _, .refl _⟩
  same device _ _ _ same := setState_calm (.refl device) fun _ chosen =>
    .inl (mem_handles_of_texture? (same ▸ chosen))
  shown _ _ _ _ _ _ _ _ known same := setState_calm (Device.calm_uploadTexture _ _ _ _ _)
    fun _ chosen => .inl (mem_handles_of_texture? (known.trans (same.symm.trans chosen)))
  made _ created := by
    obtain ⟨calm, made⟩ := Device.made_createTexture created
    refine setState_calm calm fun texture chosen => ?_
    cases chosen
    exact .inr made
  refused := by
    intro device later layers cause filter wrap failed
    have calm := device.calm_createTexture filter wrap
    rw [failed] at calm
    exact ⟨calm, .refl _⟩

theorem drain_onlyDevice : OnlyDevice drain :=
  TracksDrain.drain
    { refl := fun _ => trivial, trans := fun _ _ => trivial, behind := fun _ => trivial
      carry := fun _ ofDevice => ofDevice, settle := fun ofDevice _ => ofDevice
      waits := fun _ _ => trivial, same := fun _ _ _ _ _ => trivial
      shown := fun _ _ _ _ _ _ _ _ _ _ => trivial, made := fun _ _ => trivial
      refused := fun _ _ _ _ _ => ⟨_, rfl⟩ }

end ExternalLayers

namespace Renderer

open Collage.Action

variable {ℓ : Type}

/-- The textures of a renderer besides those of its targets. -/
def others (renderer : Renderer ℓ) : List Handle :=
  renderer.spectrum :: (renderer.textures.handles ++ renderer.external.handles)

/-- Between two states of a renderer the targets stayed as they were, the device was calm,
and new textures were made. -/
structure Rests (before after : Renderer ℓ) : Prop where
  targets : after.targets = before.targets
  calm : Device.Calm before.device after.device
  gains : before.device.Gains after.device before.others after.others

theorem Rests.refl (renderer : Renderer ℓ) : Rests renderer renderer :=
  ⟨rfl, .refl _, .refl _⟩

theorem Rests.trans {a b c : Renderer ℓ} (h : Rests a b) (h' : Rests b c) : Rests a c :=
  ⟨h'.targets.trans h.targets, h.calm.trans h'.calm,
    .trans h.calm.onward h'.calm.onward h.gains h'.gains⟩

instance : Std.Refl (@Rests ℓ) := ⟨Rests.refl⟩

instance : IsTrans (Renderer ℓ) Rests := ⟨fun _ _ _ => Rests.trans⟩

/-- No texture is shared between targets, or by a target and something else. -/
def Apart (renderer : Renderer ℓ) : Prop :=
  renderer.targets.Apart renderer.device renderer.others

theorem Rests.apart {before after : Renderer ℓ} (h : Rests before after) (apart : before.Apart) :
    after.Apart :=
  RenderTargets.Apart.onward apart h.calm.onward (by rw [h.targets]) h.gains

/-- An action that leaves the targets alone. -/
abbrev Quiet {α : Type} (action : Action (Renderer ℓ) α) : Prop :=
  Keeps Rests action

/-! ### Creating -/

/-- **A renderer is created part by part**: the standing programs, a pool, and the texture that
shows the sound. -/
theorem create_by_parts {options : RendererOptions} {loader : ℓ} {device : Device}
    {standing : StandingPrograms → Device → Prop}
    {pool : StandingPrograms → RenderTargets → Device → Prop} {ok : Renderer ℓ → Device → Prop}
    {failed : Failure → Device → Prop}
    (programs : (StandingPrograms.create options.version).Yields device standing failed)
    (targets : ∀ programs built, standing programs built →
      (RenderTargets.create options.width options.height options.antiAlias).Yields built
        (pool programs) failed)
    (lost : ∀ programs targets laid, pool programs targets laid → ∀ cause later,
      laid.createTexture .linear .clamp = (.error cause, later) → failed (.device cause) later)
    (whole : ∀ programs targets laid, pool programs targets laid → ∀ spectrum made,
      laid.createTexture .linear .clamp = (.ok spectrum, made) →
        let device := made.uploadTexture spectrum spectrumSize 2 ({} : AudioFrame).bytes
        ok { device, options, targets, programs, spectrum, loader
             external := ExternalLayers.create options.framesAhead } device) :
    (create options loader).Yields device ok failed := by
  unfold create
  refine programs.bind (fun programs built first => ?_) fun _ _ => id
  refine (targets programs built first).bind (fun targets laid second => ?_) fun _ _ => id
  refine (TextureCache.newTexture_yields _ _ laid).bind (fun spectrum made created => ?_) ?_
  · exact Yields.modify (Yields.get (Yields.pure
      (whole programs targets laid second spectrum made created)))
  · rintro _ later ⟨cause, refused, rfl⟩
    exact lost programs targets laid second cause later refused

/-! ### Frames -/

theorem Rests.of_calm {before : Renderer ℓ} {device : Device}
    (calm : Device.Calm before.device device) : Rests before { before with device } :=
  ⟨rfl, calm, .refl _⟩

/-- **Values, textures and calls that draw leave the targets alone.** -/
theorem tracks_rests : TracksDrawing (@Rests ℓ) (fun _ => Rests) fun _ => True where
  toTraces := Keeps.traces
  unable _ renderer _ := .refl renderer
  stats _ _ := ⟨rfl, .refl _, .refl _⟩
  framebuffer _ _ _ _ := .of_calm (Device.calm_bindFramebuffer _ _ _ _)
  input _ _ _ _ _ := ⟨rfl, .refl _, .refl _⟩
  found found := ⟨rfl, found.calm.calm, .cons (found.calm.gains.append (.refl _))⟩
  refused failed := ⟨rfl, failed.calm.calm, .cons (failed.calm.gains.append (.refl _))⟩
  unit _ _ _ := .of_calm (Device.calm_bindTexture _ _ _)
  program _ _ := .of_calm (Device.calm_useProgram _ _)
  value _ _ _ := .of_calm (Device.calm_setUniform _ _ _)
  clear _ _ := .of_calm (Device.calm_clear _ _)
  draw _ := .of_calm (Device.calm_draw _)

theorem pixels_rests (renderer : Renderer ℓ) (width height : Nat) :
    Rests renderer { renderer with device := (renderer.device.readPixels width height).2 } :=
  .of_calm (Device.calm_readPixels _ _ _)

theorem output_quiet : Quiet (output : Action (Renderer ℓ) Picture) :=
  tracks_rests.output pixels_rests

theorem requestScript_quiet (frame : FrameContext) (layer : CompiledLayer) (code : String) :
    Quiet (requestScript frame layer code : Action (Renderer ℓ) Unit) :=
  tracks_rests.requestScript (fun _ => trivial) (fun _ _ _ => ⟨rfl, .refl _,
    .cons (.append (.refl _) (ExternalLayers.request_gains _ _ _ _ _))⟩) frame layer code

variable [TextureLoader ℓ]

/-- What is done before layers are drawn leaves the targets alone. -/
theorem tracksFrame_rests : TracksFrame (@Rests ℓ) fun _ => Rests where
  toTracksDrawing := tracks_rests
  asked _ _ _ := ⟨rfl, .refl _,
    .cons (.append (.refl _) (ExternalLayers.request_gains _ _ _ _ _))⟩
  begun _ _ _ _ _ := ⟨rfl, .refl _, .refl _⟩
  drained := Keeps.within ExternalLayers.tracksDrain_calm.drain fun _ _ calm =>
    ⟨rfl, calm.calm, .cons (.append (.refl _) calm.gains)⟩
  polled renderer := by
    have calm := TextureCache.poll_calm ⟨renderer.device, renderer.loader, renderer.textures⟩
    exact ⟨rfl, calm.calm, .cons (calm.gains.append (.refl _))⟩
  heard tree _ _ renderer := by
    refine ⟨rfl, ?_, .refl _⟩
    unfold hear
    dsimp only
    split
    · exact Device.calm_uploadTexture _ _ _ _ _
    · exact .refl _

theorem prepareFrame_onlyDevice (tree : CompiledTree) (input : FrameInput) :
    OnlyDevice (prepareFrame tree input : Action (Renderer ℓ) FrameContext) := by
  unfold prepareFrame
  refine OnlyDevice.bind (fun _ => trivial) fun frame => ?_
  refine OnlyDevice.bind (OnlyDevice.within ExternalLayers.drain_onlyDevice) fun uploads => ?_
  refine OnlyDevice.bind (OnlyDevice.modify _) fun _ => ?_
  refine OnlyDevice.bind (OnlyDevice.modify _) fun _ => ?_
  cases input.audio with
  | none => exact OnlyDevice.pure frame
  | some block => exact OnlyDevice.bind (OnlyDevice.modify _) fun _ => OnlyDevice.pure frame

end Renderer
end Collage
