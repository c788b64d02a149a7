import Collage.Proofs.Device.Words
import Collage.Proofs.Frame.Balance

/-!
# Frames fail where the device refuses

A device refuses a texture or a framebuffer when it has no memory left, and a framebuffer also when
it has no `Room` for one of that size.  `Device.Declined size before after` says that it has done so
between two states.  Whatever is done in a frame, a failure of the device comes from such a refusal
(`render_faults`): it is only textures, the pool and script layers that ask for something, and the
rest follows by the rules of `Tracks`.
-/

namespace Collage

open Collage.Action

/-- Whether a device has room for a framebuffer. -/
def RenderTargets.Room (traits : DeviceTraits) (size : Nat × Nat) : Prop :=
  (0 < size.1 ∧ size.1 ≤ traits.maxDimension) ∧ (0 < size.2 ∧ size.2 ≤ traits.maxDimension)

namespace Device

/-- Between two states a device behaved in one way, and was perhaps asked for more. -/
structure Asks (before after : Device) : Prop where
  traits : after.traits = before.traits
  textures : before.texturesAsked ≤ after.texturesAsked
  framebuffers : before.framebuffersAsked ≤ after.framebuffersAsked

/-- Between two states a device refused a texture, or a framebuffer of a size. -/
inductive Declined (size : Nat × Nat) (before after : Device) : Prop
  | texture (asked : Nat) : before.texturesAsked ≤ asked → asked < after.texturesAsked →
      before.traits.texturesExhausted asked = true → Declined size before after
  | framebuffer (asked : Nat) : before.framebuffersAsked ≤ asked →
      asked < after.framebuffersAsked →
      (before.traits.framebuffersExhausted asked = true ∨
        ¬ RenderTargets.Room before.traits size) → Declined size before after

theorem Asks.refl (device : Device) : Asks device device :=
  ⟨rfl, Nat.le_refl _, Nat.le_refl _⟩

theorem Asks.trans {a b c : Device} (h : Asks a b) (h' : Asks b c) : Asks a c :=
  ⟨h'.traits.trans h.traits, Nat.le_trans h.textures h'.textures,
    Nat.le_trans h.framebuffers h'.framebuffers⟩

theorem Recites.asks {words : List Word} {before after : Device}
    (h : Recites before.lexicon words before after) : Asks before after := by
  obtain ⟨_, told, _⟩ := h.tells
  exact ⟨told.traits, Nat.le_of_eq h.textures.symm, Nat.le_of_eq h.framebuffers.symm⟩

theorem Hushed.asks {before after : Device} (h : Hushed before after) : Asks before after :=
  Recites.asks h.recites

theorem Declined.mono {size : Nat × Nat} {a b c d : Device} (before : Asks a b)
    (h : Declined size b c) (after : Asks c d) : Declined size a d := by
  cases h with
  | texture asked first last exhausted =>
    exact .texture asked (Nat.le_trans before.textures first)
      (Nat.lt_of_lt_of_le last after.textures) (before.traits ▸ exhausted)
  | framebuffer asked first last refused =>
    exact .framebuffer asked (Nat.le_trans before.framebuffers first)
      (Nat.lt_of_lt_of_le last after.framebuffers) (before.traits ▸ refused)

theorem not_declined_of_ample {size : Nat × Nat} {before after : Device}
    (ample : before.traits.Ample) (room : RenderTargets.Room before.traits size) :
    ¬ Declined size before after := by
  rintro (⟨asked, _, _, exhausted⟩ | ⟨asked, _, _, exhausted | full⟩)
  · simp [ample.textures] at exhausted
  · simp [ample.framebuffers] at exhausted
  · exact full room

variable {before after : Device}

theorem asks_of_createTexture {filter : TextureFilter} {wrap : TextureWrap}
    {result : Except DeviceFailure Handle}
    (asked : before.createTexture filter wrap = (result, after)) : Asks before after := by
  obtain rfl : _ = after := congrArg Prod.snd asked
  unfold createTexture
  dsimp only
  split <;> exact ⟨rfl, Nat.le_succ _, Nat.le_refl _⟩

theorem asks_of_createFramebuffer {width height : Nat}
    {result : Except DeviceFailure (Handle × Handle)}
    (asked : before.createFramebuffer width height = (result, after)) : Asks before after := by
  obtain rfl : _ = after := congrArg Prod.snd asked
  unfold createFramebuffer
  dsimp only
  split
  · exact ⟨rfl, Nat.le_refl _, Nat.le_succ _⟩
  · split <;> exact ⟨rfl, Nat.le_refl _, Nat.le_succ _⟩

/-- If an action fails because of the device, the device refused something. -/
def Blames (size : Nat × Nat) (failure : Failure) (before after : Device) : Prop :=
  Asks before after ∧ (failure.OfDevice → Declined size before after)

theorem blames_of_createTexture {filter : TextureFilter} {wrap : TextureWrap}
    {cause : DeviceFailure} (failed : before.createTexture filter wrap = (.error cause, after))
    (size : Nat × Nat) : Blames size (.device cause) before after := by
  refine ⟨asks_of_createTexture failed, fun _ => ?_⟩
  unfold createTexture at failed
  dsimp only at failed
  split at failed
  · next exhausted =>
    cases failed
    exact .texture _ (Nat.le_refl _) (Nat.lt_succ_self _) exhausted
  · cases failed

theorem blames_of_createFramebuffer {size : Nat × Nat} {cause : DeviceFailure}
    (failed : before.createFramebuffer size.1 size.2 = (.error cause, after)) :
    Blames size (.device cause) before after := by
  refine ⟨asks_of_createFramebuffer failed, fun _ => ?_⟩
  unfold createFramebuffer at failed
  dsimp only at failed
  split at failed
  · next exhausted =>
    cases failed
    exact .framebuffer _ (Nat.le_refl _) (Nat.lt_succ_self _) (.inl exhausted)
  · split at failed
    · next full =>
      cases failed
      refine .framebuffer _ (Nat.le_refl _) (Nat.lt_succ_self _) (.inr fun room => ?_)
      unfold RenderTargets.Room at room
      omega
    · cases failed

theorem traces_asks (size : Nat × Nat) : Traces Asks (Blames size) where
  refl := .refl
  trans := .trans
  behind := And.left
  carry before failed :=
    ⟨before.trans failed.1, fun ofDevice => (failed.2 ofDevice).mono before (.refl _)⟩
  settle failed after :=
    ⟨failed.1.trans after, fun ofDevice => (failed.2 ofDevice).mono (.refl _) after⟩

end Device

/-! ### What is asked for -/

theorem TextureCache.Found.asks {ℓ : Type} {key : TextureKey} {width height : Nat}
    {bytes : List UInt8} {state after : TextureCache.State ℓ} {texture : Handle}
    (found : TextureCache.Found key width height bytes state texture after) :
    Device.Asks state.device after.device := by
  cases found with
  | known there => exact .refl _
  | made loader ready absent created =>
    exact (Device.asks_of_createTexture created).trans
      (Device.hushed_uploadTexture _ _ _ _ _).asks

theorem ExternalLayers.tracksDrain_asks (size : Nat × Nat) :
    ExternalLayers.TracksDrain (fun before after => Device.Asks before.1 after.1)
      fun failure before after => Device.Blames size failure before.1 after.1 where
  refl _ := .refl _
  trans := .trans
  behind := And.left
  carry := (Device.traces_asks size).carry
  settle := (Device.traces_asks size).settle
  waits _ _ := .refl _
  same _ _ _ _ _ := .refl _
  shown device _ _ _ _ _ _ _ _ _ := (device.hushed_uploadTexture _ _ _ _).asks
  made _ created := Device.asks_of_createTexture created
  refused _ _ _ _ failed := Device.blames_of_createTexture failed size

namespace Renderer

variable {ℓ : Type}

/-- Between two states the device of a renderer was asked for textures, and for framebuffers of one
size. -/
structure Asks (before after : Renderer ℓ) : Prop where
  device : Device.Asks before.device after.device
  size : after.targets.renderSize = before.targets.renderSize

/-- If a failure is the device's, the device refused a texture or a target. -/
structure Blames (failure : Failure) (before after : Renderer ℓ) : Prop where
  device : Device.Blames before.targets.renderSize failure before.device after.device
  size : after.targets.renderSize = before.targets.renderSize

theorem traces_asks : Traces (@Asks ℓ) Blames where
  refl _ := ⟨.refl _, rfl⟩
  trans h h' := ⟨h.device.trans h'.device, h'.size.trans h.size⟩
  behind h := ⟨h.device.1, h.size⟩
  carry h failed :=
    ⟨(Device.traces_asks _).carry h.device (h.size ▸ failed.device), failed.size.trans h.size⟩
  settle failed h :=
    ⟨(Device.traces_asks _).settle failed.device h.device, h.size.trans failed.size⟩

theorem Asks.of_recites {before : Renderer ℓ} {device : Device} {words : List Word}
    (recites : Device.Recites before.device.lexicon words before.device device) :
    Asks before { before with device } :=
  ⟨recites.asks, rfl⟩

/-- A target is free, or the device is asked for one. -/
theorem request_asks : Leads (@Asks ℓ) Blames (onTargets RenderTargets.request) := by
  intro renderer
  cases alive : renderer.targets.deleted with
  | true =>
    -- a pool that was deleted fails without asking the device
    refine (onTargets_yields (RenderTargets.request_deleted renderer.device alive)).mono
      (fun _ _ ⟨_, never, _⟩ => never.elim) ?_
    rintro _ _ ⟨_, ⟨rfl, rfl⟩, rfl⟩
    exact ⟨⟨.refl _, fun ⟨_, other⟩ => nomatch other⟩, rfl⟩
  | false =>
    refine (onTargets_yields (RenderTargets.request_yields renderer.device alive)).mono ?_ ?_
    · rintro id _ ⟨changed, handout, rfl⟩
      cases handout with
      | again free => exact ⟨.refl _, rfl⟩
      | grown full created => exact ⟨Device.asks_of_createFramebuffer created, rfl⟩
    · rintro _ _ ⟨_, ⟨_, cause, later, failed, rfl, rfl⟩, rfl⟩
      exact ⟨Device.blames_of_createFramebuffer failed, rfl⟩

theorem tracksPool_asks : TracksPool (@Asks ℓ) Blames where
  toTraces := traces_asks
  unable _ _ plain := ⟨⟨.refl _, fun ofDevice => absurd ofDevice plain⟩, rfl⟩
  stats _ _ := ⟨.refl _, rfl⟩
  framebuffer _ _ _ _ := ⟨(Device.hushed_bindFramebuffer _ _ _ _).asks, rfl⟩
  request := request_asks
  release _ _ _ released := by
    obtain ⟨use, unused, rfl⟩ := RenderTargets.eq_of_release released
    exact ⟨.refl _, rfl⟩

theorem tracksDrawing_asks : TracksDrawing (@Asks ℓ) Blames fun _ => True where
  toTracks := tracksPool_asks.toTracks
  input _ _ _ _ _ := ⟨.refl _, rfl⟩
  found found := ⟨found.asks, rfl⟩
  refused := by
    rintro renderer _ _ _ ⟨_, filter, wrap, cause, later, failed, rfl, rfl⟩
    exact ⟨Device.blames_of_createTexture failed _, rfl⟩
  unit _ _ _ := ⟨(Device.hushed_bindTexture _ _ _).asks, rfl⟩
  program renderer _ := .of_recites (renderer.device.recites_useProgram _)
  value renderer _ _ := .of_recites (renderer.device.recites_setUniform _ _)
  clear renderer _ := .of_recites (renderer.device.recites_clear _)
  draw renderer := .of_recites renderer.device.recites_draw

variable [TextureLoader ℓ]

theorem tracksFrame_asks : TracksFrame (@Asks ℓ) Blames where
  toTracksDrawing := tracksDrawing_asks
  asked _ _ _ := ⟨.refl _, rfl⟩
  begun _ _ _ _ _ := ⟨.refl _, rfl⟩
  drained renderer := by
    have drain := ExternalLayers.tracksDrain_asks renderer.targets.renderSize
    refine (Yields.within (drain.drain _)).mono ?_ ?_
    · rintro _ _ ⟨changed, asks, rfl⟩
      exact ⟨asks, rfl⟩
    · rintro _ _ ⟨changed, blames, rfl⟩
      exact ⟨blames, rfl⟩
  polled renderer :=
    ⟨(TextureCache.poll_hushed ⟨renderer.device, renderer.loader, renderer.textures⟩).1.asks, rfl⟩
  heard tree _ _ renderer := by
    refine ⟨?_, rfl⟩
    unfold hear
    dsimp only
    split
    · exact (Device.hushed_uploadTexture _ _ _ _ _).asks
    · exact .refl _

/-- **A frame fails because of the device only where the device refused something.** -/
theorem render_faults (tree : CompiledTree) (input : FrameInput) :
    Leads (@Asks ℓ) Blames (render tree input) := by
  intro renderer
  refine render_yields (tracksFrame_asks.drawFrame tracksPool_asks tree input renderer) ?_
  exact fun _ _ failed => ⟨failed.device, failed.size⟩

theorem ample_bare : bare.device.traits.Ample :=
  ⟨fun _ => rfl, fun _ => rfl⟩

theorem room_bare : RenderTargets.Room bare.device.traits bare.targets.renderSize := by
  unfold RenderTargets.Room
  decide

end Renderer
end Collage
