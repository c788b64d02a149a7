import Collage.Frame.Render
import Collage.Proofs.Device.Words
import Collage.Proofs.Frame.Composing
import Collage.Proofs.Frame.Inputs
import Collage.Proofs.Frame.Outcome

/-!
# Following what is done in frames

Everything that is done in frames and previews is put together from few things: calls of the
device, targets that are taken and given back, values that are evaluated, textures that are looked
for, and requests for script layers.  A relation between states of a renderer that goes on from
action to action and holds of each of these holds of all that is made of them.

`Tracks R lost` says that `R` goes on and holds of what changes next to nothing, and `lost` says
what is known where an action has failed.  `TracksPool`, `TracksValues`, `TracksDrawing` and
`TracksFrame` add what is needed for taking targets, for values, for drawing, and for frames.
Modules with such a relation say so once, and have it of frames (`TracksFrame.drawFrame`) and of
previews (`TracksDrawing.drawPreview`).
-/

namespace Collage

open Collage.Action

namespace TextureCache

variable {ℓ : Type}

/-! ### Looking for textures -/

theorem newTexture_yields (filter : TextureFilter) (wrap : TextureWrap) (device : Device) :
    (newTexture filter wrap).Yields device
      (fun texture later => device.createTexture filter wrap = (.ok texture, later))
      fun failure later => ∃ cause,
        device.createTexture filter wrap = (.error cause, later) ∧ failure = .device cause := by
  unfold Yields runOn newTexture
  cases created : device.createTexture filter wrap with
  | mk outcome later => cases outcome <;> simp [ExceptT.run, created]

/-- What looking for a texture leads to: it is there, or it is made, shows something and is
kept. -/
inductive Found (key : TextureKey) (width height : Nat) (bytes : List UInt8) (state : State ℓ) :
    Handle → State ℓ → Prop
  | known {entry : CachedTexture} : state.cache.get? key = some entry →
      Found key width height bytes state entry.texture state
  | made {filter : TextureFilter} {wrap : TextureWrap} {texture : Handle} {later : Device}
      (loader : ℓ) (ready : Bool) : state.cache.get? key = none →
      state.device.createTexture filter wrap = (.ok texture, later) →
      Found key width height bytes state texture
        { device := later.uploadTexture texture width height bytes, loader
          cache := state.cache.set key ⟨texture, ready⟩ }

/-- A texture is not there, and the device could not create it. -/
def Failed (key : TextureKey) (state : State ℓ) (failure : Failure) (after : State ℓ) : Prop :=
  state.cache.get? key = none ∧
    ∃ filter wrap cause later, state.device.createTexture filter wrap = (.error cause, later) ∧
      failure = .device cause ∧ after = { state with device := later }

theorem gradient_yields (ramp : Gradient Float32) (state : State ℓ) :
    (gradient ramp : Action (State ℓ) Handle).Yields state
      (Found (.gradient ramp.key) gradientWidth 1 (gradientBytes ramp) state)
      (Failed (.gradient ramp.key) state) := by
  unfold gradient
  refine Yields.get ?_
  cases found : state.cache.get? (.gradient ramp.key) with
  | some entry => exact Yields.pure (.known found)
  | none =>
    refine Yields.bind (Yields.within (newTexture_yields _ _ _)) ?_ ?_
    · rintro texture _ ⟨later, created, rfl⟩
      exact Yields.modify (Yields.pure (.made state.loader true found created))
    · rintro failure _ ⟨later, ⟨cause, failed, same⟩, rfl⟩
      exact ⟨found, _, _, cause, later, failed, same, rfl⟩

theorem sampler_yields [TextureLoader ℓ] (descriptor : TextureDescriptor) (state : State ℓ) :
    (sampler descriptor : Action (State ℓ) Handle).Yields state
      (Found (.sampler descriptor) 1 1 [0, 0, 0, 0] state)
      (Failed (.sampler descriptor) state) := by
  unfold sampler
  refine Yields.get ?_
  cases found : state.cache.get? (.sampler descriptor) with
  | some entry => exact Yields.pure (.known found)
  | none =>
    refine Yields.bind (Yields.within (newTexture_yields _ _ _)) ?_ ?_
    · rintro texture _ ⟨later, created, rfl⟩
      exact Yields.modify (Yields.pure (.made _ false found created))
    · rintro failure _ ⟨later, ⟨cause, failed, same⟩, rfl⟩
      exact ⟨found, _, _, cause, later, failed, same, rfl⟩

theorem Found.tells {key : TextureKey} {width height : Nat} {bytes : List UInt8}
    {state after : State ℓ} {texture : Handle}
    (found : Found key width height bytes state texture after) :
    Device.Silent state.device after.device := by
  cases found with
  | known there => exact .refl _
  | made loader ready absent created =>
    rename_i filter wrap later
    have told := state.device.tells_createTexture filter wrap
    rw [created] at told
    exact told.silent_trans (later.tells_uploadTexture _ _ _ _)

theorem Failed.tells {key : TextureKey} {state after : State ℓ} {failure : Failure}
    (failed : Failed key state failure after) : Device.Silent state.device after.device := by
  obtain ⟨-, filter, wrap, cause, later, refused, -, rfl⟩ := failed
  have told := state.device.tells_createTexture filter wrap
  rwa [refused] at told

/-- What holds where a picture is uploaded and where none is there holds of looking for new
textures. -/
theorem poll_leads [TextureLoader ℓ] (R : State ℓ → State ℓ → Prop) (refl : ∀ state, R state state)
    (trans : ∀ {a b c}, R a b → R b c → R a c)
    (waits : ∀ state key loader ready, R state
      { state with loader, cache := state.cache.modify key fun entry => { entry with ready } })
    (shows : ∀ state key loader ready texture width height bytes, R state
      { device := state.device.uploadTexture texture width height bytes, loader
        cache := state.cache.modify key fun entry => { entry with ready } })
    (state : State ℓ) : R state (poll state) := by
  have each : ∀ state key entry, R state (pollEntry state key entry) := by
    intro state key entry
    unfold pollEntry
    split
    · exact refl state
    · dsimp only
      split
      · exact shows _ _ _ _ _ _ _ _
      · exact waits _ _ _ _
  unfold poll
  generalize state.cache.entries = entries
  induction entries generalizing state with
  | nil => exact refl state
  | cons entry rest ih => exact trans (each state entry.1 entry.2) (ih _)

/-- Looking for new textures leaves the keys as they are. -/
theorem poll_hushed [TextureLoader ℓ] (state : State ℓ) :
    Device.Hushed state.device (poll state).device ∧
      ∀ key, ((poll state).cache.get? key).isSome = (state.cache.get? key).isSome := by
  have kept : ∀ (cache : TextureCache) key ready asked,
      ((cache.modify key fun entry => { entry with ready }).get? asked).isSome =
        (cache.get? asked).isSome :=
    fun cache key _ asked => Table.isSome_get?_modify cache key _ asked
  refine poll_leads (fun before after => Device.Hushed before.device after.device ∧
    ∀ key, (after.cache.get? key).isSome = (before.cache.get? key).isSome) ?_ ?_ ?_ ?_ state
  · exact fun state => ⟨.refl _, fun _ => rfl⟩
  · exact fun h h' => ⟨h.1.trans h'.1, fun key => (h'.2 key).trans (h.2 key)⟩
  · exact fun state key _ ready => ⟨.refl _, kept _ key ready⟩
  · exact fun state key _ ready _ _ _ _ =>
      ⟨state.device.hushed_uploadTexture _ _ _ _, kept _ key ready⟩

end TextureCache

/-! ### Results for script layers -/

namespace ExternalLayers

/-- Relations between states of the layers and their device that go on from action to action, and
hold where results are taken and shown. -/
structure TracksDrain (R : State → State → Prop) (lost : Failure → State → State → Prop) : Prop
    extends Traces R lost where
  waits : ∀ state waiting, R state (state.1, { state.2 with waiting })
  same : ∀ (device : Device) (layers : ExternalLayers) {layer : String} {state : ExternalState},
    state.texture = layers.texture? layer →
    R (device, layers) (device, { layers with states := layers.states.set layer state })
  shown : ∀ (device : Device) (layers : ExternalLayers) {layer : String} {state : ExternalState}
    {texture : Handle} (width height : Nat) (bytes : List UInt8),
    layers.texture? layer = some texture → state.texture = some texture →
    R (device, layers) (device.uploadTexture texture width height bytes,
      { layers with states := layers.states.set layer state })
  made : ∀ {device later : Device} {layers : ExternalLayers} {layer : String}
    {state : ExternalState} {texture : Handle} {filter : TextureFilter} {wrap : TextureWrap},
    layers.texture? layer = none → device.createTexture filter wrap = (.ok texture, later) →
    R (device, layers) (later, { layers with
      states := layers.states.set layer { state with texture := some texture } })
  refused : ∀ {device later : Device} (layers : ExternalLayers) {cause : DeviceFailure}
    {filter : TextureFilter} {wrap : TextureWrap},
    device.createTexture filter wrap = (.error cause, later) →
    lost (.device cause) (device, layers) (later, layers)

namespace TracksDrain

variable {R : State → State → Prop} {lost : Failure → State → State → Prop}
  (h : TracksDrain R lost)

include h

/-- The texture of a layer is there, or it is created and is the layer's from then on. -/
theorem textureFor {layer : String} {state : ExternalState} (device : Device)
    {layers : ExternalLayers} (known : state.texture = layers.texture? layer) :
    (textureFor layer state).Yields (device, layers)
      (fun texture after => R (device, layers) after ∧ after.2.texture? layer = some texture)
      fun failure after => lost failure (device, layers) after := by
  unfold ExternalLayers.textureFor
  cases same : state.texture with
  | some texture => exact Yields.pure ⟨h.refl _, known ▸ same⟩
  | none =>
    refine Yields.bind (Yields.within (TextureCache.newTexture_yields _ _ device)) ?_ ?_
    · rintro texture _ ⟨later, created, rfl⟩
      refine Yields.modify (Yields.pure ⟨h.made (known ▸ same) created, ?_⟩)
      dsimp only [texture?]
      rw [Table.get?_set_self]
      rfl
    · rintro failure _ ⟨later, ⟨cause, failed, rfl⟩, rfl⟩
      exact h.refused layers failed

theorem apply (result : ExternalResult) : Leads R lost (apply result) := by
  rintro ⟨device, layers⟩
  unfold ExternalLayers.apply
  refine Yields.get ?_
  dsimp only
  cases found : layers.states.get? result.layer with
  | none => exact Yields.pure (h.refl _)
  | some state =>
    dsimp only
    have first : R (device, layers) (device, { layers with
        states := layers.states.set result.layer { state with inFlight := state.inFlight - 1 } }) :=
      h.same device layers (by rw [texture?, found]; rfl)
    refine Yields.modify ?_
    dsimp only
    split
    · exact Yields.pure first
    · refine (h.textureFor device ?_).bind ?_ fun _ _ failed => h.carry first failed
      · dsimp only [texture?]
        rw [Table.get?_set_self]
        rfl
      · rintro texture ⟨later, changed⟩ ⟨second, known⟩
        exact Yields.modify (Yields.modify (Yields.pure
          (h.trans (h.trans first second) (h.shown later changed _ _ _ known rfl))))

/-- **What holds of its parts holds of taking all that has come back.** -/
theorem drain : Leads R lost drain := by
  have all : ∀ results : List ExternalResult, Leads R lost (drainAll results) := by
    intro results
    induction results with
    | nil => exact h.pure 0
    | cons result rest ih =>
      exact h.bind (Leads.modify fun state => h.waits state rest) fun _ =>
        h.bind (h.apply result) fun shown => h.bind ih fun _ => h.pure _
  exact Leads.get fun state => all state.2.waiting

end TracksDrain
end ExternalLayers

/-- Where a target cannot be given back, this is not the device's fault. -/
theorem RenderTargets.not_ofDevice_of_release {pool : RenderTargets} {id : Nat} {failure : Failure}
    (refused : pool.release id = .error failure) : ¬ failure.OfDevice := by
  rintro ⟨cause, rfl⟩
  unfold release holders at refused
  cases found : pool.targets[id]? with
  | none =>
    rw [found] at refused
    cases refused
  | some target =>
    obtain ⟨_, _, _, _, use⟩ := target
    rw [found] at refused
    rcases use with _ | _ | _ <;> cases refused

/-- What is given back is used otherwise and may be free, and nothing else changes. -/
theorem RenderTargets.eq_of_release {pool targets : RenderTargets} {id : Nat}
    (released : pool.release id = .ok targets) :
    ∃ use unused, targets = { pool.withUse id use with unused } := by
  unfold release at released
  cases holders : pool.holders id with
  | error failure =>
    rw [holders] at released
    cases released
  | ok count =>
    rw [holders] at released
    cases released
    split
    · exact ⟨_, _, rfl⟩
    · exact ⟨_, _, rfl⟩

namespace Renderer

variable {ℓ : Type}

/-! ### How frames are put together -/

theorem onInput_yields {α : Type} (change : StateM InputState α) (renderer : Renderer ℓ)
    {failed : Failure → Renderer ℓ → Prop} :
    (onInput change : Action (Renderer ℓ) α).Yields renderer
      (fun value after => value = (change renderer.input).1 ∧
        after = { renderer with input := (change renderer.input).2 }) failed :=
  ⟨rfl, rfl⟩

theorem evaluateStored_yields (frame : FrameContext) (layer : String) (uniform : Uniform)
    (renderer : Renderer ℓ) {failed : Failure → Renderer ℓ → Prop} :
    (evaluateStored frame layer uniform : Action (Renderer ℓ) FrameValue).Yields renderer
      (fun value after =>
        value = (InputState.storedValue frame layer uniform renderer.input).1 ∧
        after = { renderer with
          input := (InputState.storedValue frame layer uniform renderer.input).2 }) failed := by
  unfold evaluateStored InputState.storedValue
  dsimp only
  cases uniform.value.value with
  | button bindings => exact ⟨rfl, rfl⟩
  | axis bindings => exact ⟨rfl, rfl⟩
  | _ => exact ⟨rfl, rfl⟩

/-- The value of a uniform is that of the input. -/
theorem evaluate_yields (frame : FrameContext) (layer : String) (uniform : Uniform)
    (renderer : Renderer ℓ) {failed : Failure → Renderer ℓ → Prop} :
    (evaluate frame layer uniform : Action (Renderer ℓ) FrameValue).Yields renderer
      (fun value after =>
        value = (InputState.frameValue frame renderer.levels layer uniform renderer.input).1 ∧
        after = { renderer with
          input := (InputState.frameValue frame renderer.levels layer uniform renderer.input).2 })
      failed := by
  unfold evaluate InputState.frameValue
  cases uniform.value.curve with
  | none => exact evaluateStored_yields frame layer uniform renderer
  | some curve =>
    dsimp only
    unfold evaluateCurve
    refine Yields.bind (Yields.get (onInput_yields _ renderer)) ?_ fun _ _ failed => failed
    rintro value after ⟨rfl, rfl⟩
    cases uniform.value.value with
    | float => exact ⟨rfl, rfl⟩
    | int => exact ⟨rfl, rfl⟩
    | _ => exact evaluateStored_yields frame layer uniform _

/-- The target of a frame is presented and given back. -/
def finishFrame (read : Nat) : Action (Renderer ℓ) FrameStats := do
  present read
  releaseTarget read
  return (← get).stats

/-- Reads a target that is held and gives it back. -/
def readTarget (read : Nat) : Action (Renderer ℓ) Picture := do
  bindTarget read
  let (width, height) := (← get).targets.renderSize
  (readPicture width height).followedBy (releaseTarget read)

section

variable [TextureLoader ℓ]

/-- What a shader layer draws to the target that was taken for it. -/
def drawShader (tree : CompiledTree) (frame : FrameContext) (layer : CompiledLayer)
    (shader : LayerProgram) (scale : Float32) (read : Nat) : Action (Renderer ℓ) Unit :=
  match shader.program with
  | none => do
    changeDevice (·.clear failedColor)
    count fun stats => { stats with failedLayers := stats.failedLayers + 1 }
  | some program => do
    drawWith program shader.builtins frame layer.blend (layer.opacity * scale) read
      (writeUniforms frame firstFreeUnit (placedUniforms tree layer shader))
    count fun stats => { stats with layersDrawn := stats.layersDrawn + 1 }

theorem compositeShader_eq (tree : CompiledTree) (frame : FrameContext) (layer : CompiledLayer)
    (shader : LayerProgram) (scale : Float32) (read : Nat) :
    (compositeShader tree frame layer shader scale read : Action (Renderer ℓ) Nat) =
      startTarget >>= fun out =>
        drawShader tree frame layer shader scale read >>= fun _ => swapRead read out := by
  unfold compositeShader drawShader
  cases shader.program <;> simp only [bind_assoc]

/-- All that is done before layers are drawn. -/
def prepareFrame (tree : CompiledTree) (input : FrameInput) : Action (Renderer ℓ) FrameContext := do
  let frame ← beginFrame input
  let uploads ← onExternal ExternalLayers.drain
  count fun stats => { stats with externalUploads := uploads }
  modify pollTextures
  match input.audio with
  | some block => modify (hear tree frame.time.delta block)
  | none => pure ()
  return frame

/-- The layers of a frame, drawn onto a transparent target. -/
def composeFrame (tree : CompiledTree) (frame : FrameContext) : Action (Renderer ℓ) Nat := do
  let start ← startTarget
  changeDevice (·.clear transparent)
  compositeTree tree frame start

theorem drawFrame_eq (tree : CompiledTree) (input : FrameInput) :
    (drawFrame tree input : Action (Renderer ℓ) FrameStats) =
      prepareFrame tree input >>= fun frame => composeFrame tree frame >>= finishFrame := by
  unfold drawFrame prepareFrame composeFrame finishFrame
  cases input.audio <;> simp only [bind_assoc, pure_bind]

/-- The layer of a preview over a checkerboard. -/
def composePreview (tree : CompiledTree) (frame : FrameContext) (layer : CompiledLayer) :
    Action (Renderer ℓ) Nat := do
  let start ← startTarget
  changeDevice (·.clear transparent)
  let board ← compositeCheckerboard frame start
  match layer.kind with
  | .shader shader => compositeShader tree frame layer shader 1 board
  | _ => pure board

theorem drawPreview_eq (tree : CompiledTree) (frame : FrameContext) (id : String) :
    (drawPreview tree frame id : Action (Renderer ℓ) (String × Picture)) =
      match (tree.find? id).bind tree.layer? with
      | none => throw (.unknownLayer id)
      | some layer => composePreview tree frame layer >>= fun read =>
          readTarget read >>= fun picture => pure (id, picture) := by
  unfold drawPreview composePreview readTarget
  cases (tree.find? id).bind tree.layer? with
  | none => rfl
  | some layer =>
    dsimp only
    cases layer.kind <;> simp only [bind_assoc, pure_bind]

end

/-! ### What a relation has to hold of -/

variable {R : Renderer ℓ → Renderer ℓ → Prop} {lost : Failure → Renderer ℓ → Renderer ℓ → Prop}
  {reads : InputKey → Prop}

/-- A relation that goes on from action to action, and holds where stats are changed or a
framebuffer is bound; a failure that is not the device's is lost where nothing was done. -/
structure Tracks (R : Renderer ℓ → Renderer ℓ → Prop)
    (lost : Failure → Renderer ℓ → Renderer ℓ → Prop) : Prop extends Traces R lost where
  unable : ∀ failure renderer, ¬ failure.OfDevice → lost failure renderer renderer
  stats : ∀ renderer stats, R renderer { renderer with stats }
  framebuffer : ∀ renderer handle width height,
    R renderer { renderer with device := renderer.device.bindFramebuffer handle width height }

/-- It also holds where targets are taken and given back. -/
structure TracksPool (R : Renderer ℓ → Renderer ℓ → Prop)
    (lost : Failure → Renderer ℓ → Renderer ℓ → Prop) : Prop extends Tracks R lost where
  request : Leads R lost (onTargets RenderTargets.request)
  release : ∀ renderer id targets, renderer.targets.release id = .ok targets →
    R renderer { renderer with targets }

/-- It also holds where values are evaluated that read keys of `reads` only, and where textures are
looked for and bound. -/
structure TracksValues (R : Renderer ℓ → Renderer ℓ → Prop)
    (lost : Failure → Renderer ℓ → Renderer ℓ → Prop) (reads : InputKey → Prop) : Prop
    extends Tracks R lost where
  input : ∀ renderer frame layer uniform, (∀ key ∈ Uniform.inputs layer uniform, reads key) →
    R renderer { renderer with
      input := (InputState.frameValue frame renderer.levels layer uniform renderer.input).2 }
  found : ∀ {renderer key width height bytes texture} {changed : TextureCache.State ℓ},
    TextureCache.Found key width height bytes
      ⟨renderer.device, renderer.loader, renderer.textures⟩ texture changed →
    R renderer { renderer with
      device := changed.device, loader := changed.loader, textures := changed.cache }
  refused : ∀ {renderer key failure} {changed : TextureCache.State ℓ},
    TextureCache.Failed key ⟨renderer.device, renderer.loader, renderer.textures⟩ failure
      changed →
    lost failure renderer { renderer with
      device := changed.device, loader := changed.loader, textures := changed.cache }
  unit : ∀ renderer unit texture,
    R renderer { renderer with device := renderer.device.bindTexture unit texture }

/-- It also holds of the calls that draw. -/
structure TracksDrawing (R : Renderer ℓ → Renderer ℓ → Prop)
    (lost : Failure → Renderer ℓ → Renderer ℓ → Prop) (reads : InputKey → Prop) : Prop
    extends TracksValues R lost reads where
  program : ∀ renderer program,
    R renderer { renderer with device := renderer.device.useProgram program }
  value : ∀ renderer location value,
    R renderer { renderer with device := renderer.device.setUniform location value }
  clear : ∀ renderer color, R renderer { renderer with device := renderer.device.clear color }
  draw : ∀ renderer, R renderer { renderer with device := renderer.device.draw }

/-- It also holds where requests are made for script layers, whatever they read, and of what is
done before layers are drawn. -/
structure TracksFrame [TextureLoader ℓ] (R : Renderer ℓ → Renderer ℓ → Prop)
    (lost : Failure → Renderer ℓ → Renderer ℓ → Prop) : Prop
    extends TracksDrawing R lost fun _ => True where
  asked : ∀ renderer layer make,
    R renderer { renderer with external := (renderer.external.request layer make).2 }
  begun : ∀ renderer clock lastTime frame stats, R renderer { renderer with
    clock, lastTime, stats, input := { renderer.input with frame } }
  drained : Leads R lost (onExternal ExternalLayers.drain)
  polled : ∀ renderer, R renderer (pollTextures renderer)
  heard : ∀ tree elapsed block renderer, R renderer (hear tree elapsed block renderer)

/-! ### Targets -/

namespace Tracks

variable (h : Tracks R lost)

include h

theorem count (change : FrameStats → FrameStats) : Leads R lost (count change) :=
  Leads.modify fun renderer => h.stats renderer _

theorem target (id : Nat) : Leads R lost (target id) := by
  unfold Renderer.target
  refine Leads.get fun renderer => ?_
  split
  · exact h.pure _
  · exact fun state => h.unable _ state fun ⟨_, same⟩ => nomatch same

theorem bindTarget (id : Nat) : Leads R lost (bindTarget id) :=
  h.bind (h.target id) fun _ => Leads.modify fun renderer => h.framebuffer renderer _ _ _

end Tracks

namespace TracksPool

variable (h : TracksPool R lost)

include h

theorem startTarget : Leads R lost startTarget :=
  h.bind h.request fun out => h.bind (h.bindTarget out) fun _ => h.pure _

theorem releaseTarget (id : Nat) : Leads R lost (releaseTarget id) := by
  intro renderer
  unfold Renderer.releaseTarget
  refine Yields.get ?_
  split
  · next targets released => exact Yields.modified (h.release renderer id targets released)
  · next failure refused =>
    exact Yields.throw (h.unable failure renderer (RenderTargets.not_ofDevice_of_release refused))

theorem swapRead (read out : Nat) : Leads R lost (swapRead read out) :=
  h.bind (h.releaseTarget read) fun _ => h.pure _

end TracksPool

/-! ### Values -/

namespace TracksValues

variable (h : TracksValues R lost reads)

include h

theorem evaluate (frame : FrameContext) {layer : String} {uniform : Uniform}
    (inside : ∀ key ∈ uniform.inputs layer, reads key) :
    Leads R lost (evaluate frame layer uniform) := by
  intro renderer
  refine (evaluate_yields frame layer uniform renderer).mono ?_ fun _ _ => id
  rintro _ _ ⟨_, rfl⟩
  exact h.input renderer frame layer uniform inside

theorem requestScript (all : ∀ key, reads key)
    (asked : ∀ (renderer : Renderer ℓ) layer make,
      R renderer { renderer with external := (renderer.external.request layer make).2 })
    (frame : FrameContext) (layer : CompiledLayer) (code : String) :
    Leads R lost (requestScript frame layer code) := by
  have values : Leads R lost (uniformValues frame layer) :=
    h.mapM (fun uniform => h.bind (h.evaluate frame fun key _ => all key) fun _ => h.pure _)
      layer.uniforms
  unfold Renderer.requestScript
  refine Leads.get fun renderer => ?_
  split
  · refine h.bind values fun uniforms => Leads.get fun current => ?_
    refine h.bind (Leads.modify fun renderer => ?_) fun _ => h.count _
    split
    next external same =>
      rw [show external = _ from (congrArg Prod.snd same).symm]
      exact asked renderer layer.id _
  · exact h.pure _

theorem onTextures {action : Action (TextureCache.State ℓ) Handle} {key : TextureKey}
    {width height : Nat} {bytes : List UInt8}
    (yields : ∀ state, action.Yields state (TextureCache.Found key width height bytes state)
      (TextureCache.Failed key state)) : Leads R lost (onTextures action) := by
  refine fun renderer => (Yields.within (yields _)).mono ?_ ?_
  · rintro _ _ ⟨changed, found, rfl⟩
    exact h.found found
  · rintro _ _ ⟨changed, failed, rfl⟩
    exact h.refused failed

theorem bindUnit (unit : Nat) (texture : Handle) : Leads R lost (bindUnit unit texture) :=
  h.bind (Leads.modify fun renderer => h.unit renderer unit (some texture)) fun _ => h.pure _

theorem valueData [TextureLoader ℓ] (unit : Nat) (value : FrameValue) :
    Leads R lost (valueData unit value) := by
  unfold Renderer.valueData
  split
  · exact h.pure _
  · exact h.pure _
  · exact h.pure _
  · split
    all_goals first
      | exact h.pure _
      | exact h.bind (h.onTextures (TextureCache.sampler_yields _)) (h.bindUnit unit)
      | exact h.bind (h.onTextures (TextureCache.gradient_yields _)) (h.bindUnit unit)

theorem uniformData [TextureLoader ℓ] (frame : FrameContext) (unit : Nat) {layer : String}
    {uniform : Uniform} (inside : ∀ key ∈ uniform.inputs layer, reads key) :
    Leads R lost (uniformData frame unit layer uniform) :=
  h.bind (h.evaluate frame inside) fun value => h.valueData unit value

theorem writeUniforms [TextureLoader ℓ]
    (value : ∀ (renderer : Renderer ℓ) location value,
      R renderer { renderer with device := renderer.device.setUniform location value })
    (frame : FrameContext) :
    ∀ (placed : List PlacedUniform) (unit : Nat), (∀ key ∈ placedInputs placed, reads key) →
      Leads R lost (writeUniforms frame unit placed)
  | [], _, _ => h.pure _
  | placed :: rest, unit, inside => by
    unfold placedInputs at inside
    rw [List.flatMap_cons, List.forall_mem_append] at inside
    have others := fun unit => writeUniforms value frame rest unit inside.2
    unfold Renderer.writeUniforms
    refine h.bind (h.uniformData frame unit inside.1) ?_
    rintro ⟨data, next⟩
    cases data with
    | none => exact others next
    | some data =>
      exact h.bind (Leads.modify fun renderer => value renderer _ data) fun _ => others next

end TracksValues

/-! ### Drawing -/

namespace TracksDrawing

variable (h : TracksDrawing R lost reads)

include h

theorem filled (color : Color Float32) : Leads R lost (changeDevice (·.clear color)) :=
  Leads.modify fun renderer => h.clear renderer color

theorem setBuiltins (locations : BuiltinLocations) (frame : FrameContext) (previous : Handle)
    (blend : BlendMode) (opacity : Float32) :
    Leads R lost (setBuiltins locations frame previous blend opacity) := by
  have written : ∀ (writes : List (Option Nat × UniformData)) (renderer : Renderer ℓ),
      R renderer { renderer with device := writes.foldl writeAt renderer.device } := by
    intro writes
    induction writes with
    | nil => exact fun renderer => h.refl renderer
    | cons write rest ih =>
      intro renderer
      obtain ⟨location, value⟩ := write
      cases location with
      | none => exact ih renderer
      | some location => exact h.trans (h.value renderer location value) (ih _)
  refine Leads.get fun current => Leads.modify fun renderer => ?_
  have bound := h.trans (written (builtinWrites locations frame current blend opacity) renderer)
    (h.unit _ previousUnit (some previous))
  dsimp only
  split
  · exact h.trans bound (h.unit _ spectrumUnit (some current.spectrum))
  · exact bound

theorem drawWith (program : Handle) (locations : BuiltinLocations) (frame : FrameContext)
    (blend : BlendMode) (opacity : Float32) (read : Nat) {prepare : Action (Renderer ℓ) Unit}
    (prepared : Leads R lost prepare) :
    Leads R lost (drawWith program locations frame blend opacity read prepare) := by
  refine h.bind (Leads.modify fun renderer => h.program renderer program) fun _ => ?_
  refine h.bind (h.target read) fun previous => ?_
  refine h.bind (h.setBuiltins locations frame previous.texture blend opacity) fun _ => ?_
  exact h.bind prepared fun _ => Leads.modify fun renderer => h.draw renderer

theorem drawShader [TextureLoader ℓ] (tree : CompiledTree) (frame : FrameContext)
    (layer : CompiledLayer) (shader : LayerProgram) (scale : Float32) (read : Nat)
    (inside : ∀ key ∈ shaderInputs tree layer shader, reads key) :
    Leads R lost (drawShader tree frame layer shader scale read) := by
  unfold shaderInputs at inside
  unfold Renderer.drawShader
  cases found : shader.program with
  | none =>
    exact h.bind (h.filled failedColor) fun _ => h.count _
  | some program =>
    rw [found] at inside
    exact h.bind (h.drawWith _ _ _ _ _ _ (h.writeUniforms h.value frame _ _ inside))
      fun _ => h.count _

theorem descend : ∀ (rungs : List Nat) (texture : Handle), Leads R lost (descend texture rungs)
  | [], _ => h.pure _
  | rung :: rest, texture => by
    refine h.bind (h.bindTarget rung) fun _ => ?_
    refine h.bind (Leads.modify fun renderer => ?_) fun _ => ?_
    · exact h.trans (h.unit renderer _ _) (h.draw _)
    · exact h.bind (h.target rung) fun _ => descend rest _

theorem present (read : Nat) : Leads R lost (present read) := by
  refine Leads.get fun current => h.bind (Leads.modify fun renderer => ?_) fun _ => ?_
  · exact h.trans (h.program renderer _) (h.value _ _ _)
  refine h.bind (h.target read) fun shown => ?_
  refine h.bind (Leads.modify fun renderer => h.value renderer _ _) fun _ => ?_
  refine h.bind (h.descend _ _) fun texture => Leads.modify fun renderer => ?_
  have bound := h.trans (h.framebuffer renderer none current.targets.width current.targets.height)
    (h.unit _ previousUnit (some texture))
  exact h.trans bound (h.trans (h.value _ _ _) (h.trans (h.draw _) (h.unit _ previousUnit none)))

variable (pool : TracksPool R lost)

include pool

theorem compositeTexture (texture : Handle) (frame : FrameContext) (blend : BlendMode)
    (opacity : Float32) (read : Nat) :
    Leads R lost (compositeTexture texture frame blend opacity read) := by
  refine h.bind pool.startTarget fun out => Leads.get fun current => ?_
  refine h.bind (h.drawWith _ _ _ _ _ _ (Leads.modify fun renderer => ?_)) fun _ =>
    pool.swapRead read out
  exact h.trans (h.unit renderer _ _) (h.value _ _ _)

theorem compositeCheckerboard (frame : FrameContext) (read : Nat) :
    Leads R lost (compositeCheckerboard frame read) := by
  refine h.bind pool.startTarget fun out => Leads.get fun current => ?_
  exact h.bind (h.drawWith _ _ _ _ _ _ (h.pure _)) fun _ => pool.swapRead read out

theorem compositeIsolated (frame : FrameContext) (layer : CompiledLayer) (scale : Float32)
    (read : Nat) {inside : Nat → Action (Renderer ℓ) Nat}
    (drawn : ∀ read, Leads R lost (inside read)) :
    Leads R lost (compositeIsolated frame layer scale read inside) := by
  refine h.bind pool.startTarget fun start => ?_
  refine h.bind (h.filled transparent) fun _ => ?_
  refine h.bind (drawn start) fun isolated => h.bind (h.target isolated) fun shown => ?_
  exact h.followedBy (h.compositeTexture pool _ _ _ _ _) (pool.releaseTarget isolated)

variable [TextureLoader ℓ]

theorem compositeShader (tree : CompiledTree) (frame : FrameContext) (layer : CompiledLayer)
    (shader : LayerProgram) (scale : Float32) (read : Nat)
    (inside : ∀ key ∈ shaderInputs tree layer shader, reads key) :
    Leads R lost (compositeShader tree frame layer shader scale read) := by
  rw [compositeShader_eq]
  exact h.bind pool.startTarget fun out =>
    h.bind (h.drawShader tree frame layer shader scale read inside) fun _ => pool.swapRead read out

theorem composePreview (tree : CompiledTree) (frame : FrameContext) (layer : CompiledLayer)
    (inside : ∀ key ∈ layer.shaderInputs tree, reads key) :
    Leads R lost (composePreview tree frame layer) := by
  unfold CompiledLayer.shaderInputs at inside
  unfold Renderer.composePreview
  refine h.bind pool.startTarget fun start => ?_
  refine h.bind (h.filled transparent) fun _ => ?_
  refine h.bind (h.compositeCheckerboard pool frame start) fun board => ?_
  cases kind : layer.kind with
  | shader shader =>
    rw [kind] at inside
    exact h.compositeShader pool tree frame layer shader 1 board inside
  | _ => exact h.pure board

end TracksDrawing

/-! ### Frames -/

namespace TracksFrame

variable [TextureLoader ℓ] (h : TracksFrame R lost)

include h

theorem prepareFrame (tree : CompiledTree) (input : FrameInput) :
    Leads R lost (prepareFrame tree input) := by
  unfold Renderer.prepareFrame
  refine h.bind (fun renderer => Yields.get (Yields.set (Yields.pure (h.begun renderer _ _ _ _))))
    fun frame => ?_
  refine h.bind h.drained fun uploads => h.bind (h.count _) fun _ => ?_
  refine h.bind (Leads.modify h.polled) fun _ => ?_
  cases input.audio with
  | none => exact h.pure frame
  | some block => exact h.bind (Leads.modify (h.heard tree _ block)) fun _ => h.pure frame

variable (pool : TracksPool R lost)

include pool

theorem compositeScript (frame : FrameContext) (layer : CompiledLayer) (code : String)
    (scale : Float32) (read : Nat) :
    Leads R lost (compositeScript frame layer code scale read) := by
  refine h.bind (h.requestScript (fun _ => trivial) h.asked frame layer code) fun _ => ?_
  refine Leads.get fun current => ?_
  split
  · exact h.pure _
  · exact h.bind (h.count _) fun _ => h.compositeTexture pool _ _ _ _ _

theorem composing (tree : CompiledTree) (frame : FrameContext) :
    Composing tree frame fun _ _ (draw : Nat → Action (Renderer ℓ) Nat) =>
      ∀ read, Leads R lost (draw read) where
  nothing := h.pure
  hidden _ := h.pure
  distance _ _ := h.pure
  shader _ _ read := h.compositeShader pool tree frame _ _ _ read fun _ _ => trivial
  script _ _ := h.compositeScript pool frame _ _ _
  through _ _ _ inside := inside
  isolated _ _ _ inside read := h.compositeIsolated pool frame _ _ read inside
  followed rest first read := h.bind (rest read) first

theorem composeFrame (tree : CompiledTree) (frame : FrameContext) :
    Leads R lost (composeFrame tree frame) := by
  refine h.bind pool.startTarget fun start => ?_
  refine h.bind (h.filled transparent) fun _ => ?_
  exact (h.composing pool tree frame).drawn start

/-- **What holds of its parts holds of drawing a frame.** -/
theorem drawFrame (tree : CompiledTree) (input : FrameInput) :
    Leads R lost (drawFrame tree input) := by
  rw [drawFrame_eq]
  refine h.bind (h.prepareFrame tree input) fun frame => ?_
  refine h.bind (h.composeFrame pool tree frame) fun read => ?_
  refine h.bind (h.present read) fun _ => h.bind (pool.releaseTarget read) fun _ => ?_
  exact Leads.get fun _ => h.pure _

end TracksFrame

/-! ### Reading back -/

/-- A relation that holds where pixels are read, however that ends. -/
theorem readPicture_keeps
    (pixels : ∀ (renderer : Renderer ℓ) width height,
      R renderer { renderer with device := (renderer.device.readPixels width height).2 })
    (width height : Nat) : Keeps R (readPicture width height) := by
  intro renderer
  have read := pixels renderer width height
  unfold readPicture
  refine Yields.get ?_
  revert read
  cases renderer.device.readPixels width height with
  | mk bytes device =>
    intro read
    refine Yields.set ?_
    dsimp only
    split
    · exact read
    · exact read

namespace TracksDrawing

variable (h : TracksDrawing R (fun _ => R) reads)
  (pixels : ∀ (renderer : Renderer ℓ) width height,
    R renderer { renderer with device := (renderer.device.readPixels width height).2 })

include h pixels

theorem output : Keeps R (output : Action (Renderer ℓ) Picture) :=
  Leads.get fun _ => h.bind (Leads.modify fun renderer => h.framebuffer renderer none _ _)
    fun _ => readPicture_keeps pixels _ _

variable (pool : TracksPool R fun _ => R)

include pool

theorem readTarget (read : Nat) : Keeps R (readTarget read : Action (Renderer ℓ) Picture) :=
  h.bind (h.bindTarget read) fun _ => Leads.get fun _ =>
    h.followedBy (readPicture_keeps pixels _ _) (pool.releaseTarget read)

/-- **What holds of its parts holds of a preview**, if it reads the keys of all layers with a
program. -/
theorem drawPreview [TextureLoader ℓ] (tree : CompiledTree) (frame : FrameContext)
    (inside : ∀ layer ∈ tree.layers, ∀ key ∈ layer.shaderInputs tree, reads key) (id : String) :
    Keeps R (drawPreview tree frame id : Action (Renderer ℓ) (String × Picture)) := by
  rw [drawPreview_eq]
  cases found : (tree.find? id).bind tree.layer? with
  | none => exact fun renderer => h.refl renderer
  | some layer =>
    obtain ⟨place, _, there⟩ := Option.bind_eq_some_iff.mp found
    have own := inside layer (List.mem_of_getElem? there)
    refine h.bind (h.composePreview pool tree frame layer own) fun read => ?_
    exact h.bind (h.readTarget pixels pool read) fun _ => h.pure _

end TracksDrawing

end Renderer
end Collage
