import Collage.Command.Run
import Collage.Proofs.Frame.Creating
import Collage.Proofs.Frame.Layout
import Collage.Proofs.Frame.Refusals
import Collage.Proofs.Tree.Workshop

/-!
# Settings and the limit of the device

Settings that are accepted (`Settings.Accepted`) need not fit the device that they ask for: their
size is compared with their limit only if they say both sides and the limit (`Settings.Explicit`),
but an output is drawn with standards for what they do not say.

The first target of a new renderer can be created just if both sides of the output are within the
limit, since anti-aliasing is lowered until it fits (`RenderTargets.size_fits_iff`); otherwise
no tree can be drawn (`Renderer.drawable_iff`).
-/

namespace Collage

open Collage.Action

/-! ### Accepted settings -/

namespace Settings

variable {settings : Settings}

/-- What is asked of settings. -/
structure Accepted (settings : Settings) : Prop where
  version : settings.version = 1
  width : settings.render.width ≠ some 0
  height : settings.render.height ≠ some 0
  limit : settings.render.maxDimension ≠ some 0
  framesAhead : settings.render.framesAhead ≠ some 0
  shaderVersion : ∀ version ∈ settings.render.shaderVersion, isFilledLine version = true
  size : ∀ width ∈ settings.render.width, ∀ height ∈ settings.render.height,
    ∀ limit ∈ settings.render.maxDimension, width ≤ limit ∧ height ≤ limit

theorem refuseIf_eq_ok_iff {condition : Bool} {error : SettingsError} :
    refuseIf condition error = .ok () ↔ condition = false := by
  cases condition <;> simp [refuseIf]

theorem refuseIf_bind_eq_ok_iff {condition : Bool} {error : SettingsError}
    {rest : Unit → Except SettingsError Unit} :
    (refuseIf condition error >>= rest) = .ok () ↔ condition = false ∧ rest () = .ok () := by
  cases condition <;> simp [refuseIf, bind, Except.bind]

theorem checkSize_eq_ok_iff {width height limit : Option Nat} :
    checkSize width height limit = .ok () ↔
      ∀ w ∈ width, ∀ h ∈ height, ∀ highest ∈ limit, w ≤ highest ∧ h ≤ highest := by
  unfold checkSize
  split
  · simp [refuseIf_eq_ok_iff]
  · next other =>
    refine iff_of_true rfl fun w isWidth h isHeight highest isLimit => ?_
    exact absurd isLimit (other w h highest isWidth isHeight)

/-- **Which settings are accepted.** -/
theorem check_eq_ok_iff : settings.check = .ok () ↔ settings.Accepted := by
  have filled : settings.render.shaderVersion.any (fun version => !isFilledLine version) = false ↔
      ∀ version ∈ settings.render.shaderVersion, isFilledLine version = true := by
    cases settings.render.shaderVersion <;> simp
  unfold check
  simp only [refuseIf_bind_eq_ok_iff, checkSize_eq_ok_iff, decide_eq_false_iff_not, not_not, filled]
  exact ⟨fun ⟨version, width, height, limit, framesAhead, shaderVersion, size⟩ =>
      ⟨version, width, height, limit, framesAhead, shaderVersion, size⟩,
    fun h => ⟨h.version, h.width, h.height, h.limit, h.framesAhead, h.shaderVersion, h.size⟩⟩

/-- Whether the output is within the limit of the device, with standards for what is not said. -/
def Fits (settings : Settings) : Prop :=
  settings.options.width ≤ settings.maxDimension ∧ settings.options.height ≤ settings.maxDimension

/-- Whether both sides of the output and the limit are said. -/
def Explicit (settings : Settings) : Prop :=
  settings.render.width.isSome ∧ settings.render.height.isSome ∧
    settings.render.maxDimension.isSome

theorem Accepted.sides_pos (h : settings.Accepted) :
    0 < settings.options.width ∧ 0 < settings.options.height := by
  have said : ∀ {side : Option Nat} {standard : Nat}, side ≠ some 0 → 0 < standard →
      0 < side.getD standard := by
    rintro (_ | side) standard some above
    · exact above
    · exact Nat.pos_of_ne_zero fun none => some (congrArg _ none)
  exact ⟨said h.width (by decide), said h.height (by decide)⟩

/-- **What is said in full is compared.** -/
theorem Accepted.fits (h : settings.Accepted) (explicit : settings.Explicit) : settings.Fits := by
  obtain ⟨wide, high, limited⟩ := explicit
  obtain ⟨width, isWidth⟩ := Option.isSome_iff_exists.mp wide
  obtain ⟨height, isHeight⟩ := Option.isSome_iff_exists.mp high
  obtain ⟨limit, isLimit⟩ := Option.isSome_iff_exists.mp limited
  have size := h.size width isWidth height isHeight limit isLimit
  rwa [Fits, options, maxDimension, isWidth, isHeight, isLimit]

theorem raiseLevel_antiAlias_pos (settings : Settings) :
    0 < RenderTargets.raiseLevel settings.options.antiAlias RenderTargets.endless 1 := by
  have each : ∀ asked : Option AntiAliasSetting,
      0 < RenderTargets.raiseLevel ((asked.map AntiAliasSetting.samples).getD 1)
        RenderTargets.endless 1 := by
    rintro (_ | setting)
    · decide
    · cases setting <;> decide
  exact each settings.render.antiAlias

end Settings

namespace RenderTargets

variable {width height : Nat}

theorem lowerLevel_pos (longest maxDimension : Nat) : ∀ (steps : Nat) {level : Nat}, 0 < level →
    0 < lowerLevel longest maxDimension steps level
  | 0, _, above => above
  | steps + 1, level, above => by
    rw [lowerLevel]
    split
    · exact lowerLevel_pos longest maxDimension steps (by omega)
    · exact above

/-- **Targets fit a device if the output does**, whatever level of anti-aliasing is asked for. -/
theorem size_fits_iff {requested maxDimension : Nat} (wide : 0 < width) (high : 0 < height)
    (raised : 0 < raiseLevel requested endless 1) :
    let size := (Layout.of (width, height)
      (achievableAntiAlias width height requested maxDimension)).size
    (0 < size.1 ∧ size.1 ≤ maxDimension) ∧ (0 < size.2 ∧ size.2 ≤ maxDimension) ↔
      width ≤ maxDimension ∧ height ≤ maxDimension := by
  have above : 0 < achievableAntiAlias width height requested maxDimension :=
    lowerLevel_pos _ _ 33 raised
  have fits := @achievableAntiAlias_fits width height requested maxDimension
  generalize achievableAntiAlias width height requested maxDimension = level at above fits ⊢
  have longest : ∀ side ≤ max (max width height) 1, 1 < level → side * level ≤ maxDimension :=
    fun side small more => Nat.le_trans (Nat.mul_le_mul_right _ small) (fits more)
  have single : ∀ side, side ≤ side * level := fun side => Nat.le_mul_of_pos_right side above
  rw [Layout.of, Nat.max_eq_left wide, Nat.max_eq_left high]
  dsimp only
  constructor
  · rintro ⟨⟨-, first⟩, -, second⟩
    exact ⟨Nat.le_trans (single width) first, Nat.le_trans (single height) second⟩
  · rintro ⟨first, second⟩
    refine ⟨⟨Nat.mul_pos wide above, ?_⟩, Nat.mul_pos high above, ?_⟩
    all_goals
      rcases Nat.lt_or_ge 1 level with more | one
      · exact longest _ (by omega) more
      · obtain rfl : level = 1 := by omega
        rwa [Nat.mul_one]

theorem create_laddered (width height antiAlias : Nat) (device : Device) :
    (create width height antiAlias).Yields device (fun pool _ => Laddered pool)
      fun _ _ => True := by
  unfold create
  exact Yields.get ((buildLadder_laddered 32 _ device
    ⟨rfl, rfl, rfl, List.forall_mem_nil _⟩).mono (fun _ _ laid => laid.1) fun _ _ _ => trivial)

/-- What a device says when a framebuffer is too large. -/
def oversize (size : Nat × Nat) : DeviceFailure :=
  ⟨"framebuffer",
    toString size.1 ++ "x" ++ toString size.2 ++ " exceeds the supported texture size"⟩

/-- **A pool without free targets hands one out just if there is room for it**, on a device with
memory. -/
theorem Laddered.request {pool : RenderTargets} {device : Device} (h : pool.Laddered)
    (memory : ∀ asked, device.traits.framebuffersExhausted asked = false) :
    RenderTargets.request.Yields (device, pool)
      (fun id after => Room device.traits pool.renderSize ∧ after.2.targets[id]?.isSome)
      fun failure _ => ¬ Room device.traits pool.renderSize ∧
        failure = .device (oversize pool.renderSize) := by
  have outcome : ∀ size : Nat × Nat, (Room device.traits size ∧
        ∃ handles, (device.createFramebuffer size.1 size.2).1 = .ok handles) ∨
      ¬ Room device.traits size ∧
        (device.createFramebuffer size.1 size.2).1 = .error (oversize size) := by
    intro size
    unfold Room Device.createFramebuffer
    dsimp only
    rw [memory]
    split
    · next exhausted => cases exhausted
    · split
      · exact .inr ⟨by omega, rfl⟩
      · exact .inl ⟨by omega, _, rfl⟩
  refine (request_yields device h.alive).mono ?_ ?_
  · rintro id after handed
    cases handed with
    | again free => simp [h.unused] at free
    | grown _ created =>
      rcases outcome pool.renderSize with ⟨room, -⟩ | ⟨-, refused⟩
      · exact ⟨room, by simp⟩
      · rw [created] at refused
        cases refused
  · rintro failure after ⟨-, cause, later, failed, rfl, -⟩
    rcases outcome pool.renderSize with ⟨-, handles, created⟩ | ⟨full, refused⟩
    · rw [failed] at created
      cases created
    · rw [failed] at refused
      cases refused
      exact ⟨full, rfl⟩

end RenderTargets

/-! ### The first frame -/

namespace Renderer

variable {ℓ : Type}

/-- A renderer that has drawn nothing yet, on a device that behaves in a certain way. -/
structure Unused (traits : DeviceTraits) (renderer : Renderer ℓ) : Prop where
  traits : renderer.device.traits = traits
  laddered : renderer.targets.Laddered
  waiting : renderer.external.waiting = []

/-- **A renderer that is made** has drawn nothing, and its pool is laid out for its options. -/
theorem create_unused (options : RendererOptions) (loader : ℓ) (device : Device) :
    (create options loader).Yields device
      (fun renderer _ => renderer.Unused device.traits ∧
        renderer.targets.Laid (options.width, options.height)
          (RenderTargets.achievableAntiAlias options.width options.height options.antiAlias
            device.traits.maxDimension))
      fun _ _ => True := by
  have standing : (StandingPrograms.create options.version).Yields device
      (fun _ built => Device.Backstage device built) fun _ _ => True :=
    Yields.of_after (StandingPrograms.create_backstage options.version device)
  have pool : ∀ built, Device.Backstage device built →
      (RenderTargets.create options.width options.height options.antiAlias).Yields built
        (fun targets later => targets.Laddered ∧ targets.Laid (options.width, options.height)
          (RenderTargets.achievableAntiAlias options.width options.height options.antiAlias
            device.traits.maxDimension) ∧ later.traits = device.traits) fun _ _ => True := by
    intro built same
    rw [← same.traits]
    refine ((RenderTargets.create_laddered _ _ _ built).and
      ((RenderTargets.create_layout _ _ _ built).and
        (RenderTargets.create_silent _ _ _ built))).mono ?_ fun _ _ _ => trivial
    rintro targets later ⟨laddered, laid, silent⟩
    exact ⟨laddered, laid, silent.traits⟩
  refine create_by_parts standing (fun _ built same => pool built same)
    (fun _ _ _ _ _ _ _ => trivial) ?_
  rintro programs targets later ⟨laddered, laid, same⟩ spectrum last created
  have kept := (later.tells_createTexture .linear .clamp).traits
  rw [created] at kept
  exact ⟨⟨kept.trans same, laddered, rfl⟩, laid⟩

theorem bindTarget_succeeds {id : Nat} {renderer : Renderer ℓ}
    (there : renderer.targets.targets[id]?.isSome) :
    (bindTarget id : Action (Renderer ℓ) Unit).Yields renderer (fun _ _ => True)
      fun _ _ => False := by
  obtain ⟨target, found⟩ := Option.isSome_iff_exists.mp there
  have known : (Renderer.target id : Action (Renderer ℓ) RenderTarget).Yields renderer
      (fun _ _ => True) fun _ _ => False := by
    unfold Renderer.target
    refine Yields.get ?_
    rw [found]
    exact Yields.pure trivial
  exact known.bind (fun _ _ _ => Yields.modified trivial) fun _ _ => False.elim

theorem unused_of_create {options : RendererOptions} {loader : ℓ} {device later : Device}
    {renderer : Renderer ℓ}
    (created : (create options loader).runOn device = (.ok renderer, later)) :
    renderer.Unused device.traits ∧
      renderer.targets.renderSize = (Layout.of (options.width, options.height)
        (RenderTargets.achievableAntiAlias options.width options.height options.antiAlias
          device.traits.maxDimension)).size := by
  have made := Yields.of_ok created (create_unused options loader device)
  exact ⟨made.1, congrArg Layout.size made.2.layout⟩

/-- **The first target can be created just if there is room for it.** -/
theorem Unused.startTarget {traits : DeviceTraits} {renderer : Renderer ℓ}
    (h : renderer.Unused traits)
    (memory : ∀ asked, traits.framebuffersExhausted asked = false) :
    (Renderer.startTarget : Action (Renderer ℓ) Nat).Yields renderer
      (fun _ _ => RenderTargets.Room traits renderer.targets.renderSize)
      fun failure _ => ¬ RenderTargets.Room traits renderer.targets.renderSize ∧
        failure = .device (RenderTargets.oversize renderer.targets.renderSize) := by
  have requested : RenderTargets.request.Yields (renderer.device, renderer.targets) _ _ :=
    h.laddered.request (by rwa [h.traits])
  rw [h.traits] at requested
  unfold Renderer.startTarget
  refine Yields.bind (Yields.within requested) ?_ fun _ _ ⟨_, failed, _⟩ => failed
  rintro out _ ⟨⟨device, pool⟩, ⟨room, there⟩, rfl⟩
  exact (bindTarget_succeeds there).bind (fun _ _ _ => Yields.pure room) fun _ _ => False.elim

section

variable [TextureLoader ℓ] {traits : DeviceTraits} {renderer : Renderer ℓ}

/-- Nothing fails before layers are drawn for the first time. -/
theorem Unused.prepareFrame (h : renderer.Unused traits) (tree : CompiledTree)
    (input : FrameInput) :
    (Renderer.prepareFrame tree input : Action (Renderer ℓ) FrameContext).Yields renderer
      (fun _ after => after.Unused traits ∧ after.targets = renderer.targets)
      fun _ _ => False := by
  have begun : (beginFrame input : Action (Renderer ℓ) FrameContext).Yields renderer
      (fun _ after => after.Unused traits ∧ after.targets = renderer.targets)
      fun _ _ => False := by
    unfold beginFrame
    exact Yields.get (Yields.set (Yields.pure ⟨⟨h.traits, h.laddered, h.waiting⟩, rfl⟩))
  have drained : ∀ renderer : Renderer ℓ, renderer.external.waiting = [] →
      (onExternal ExternalLayers.drain : Action (Renderer ℓ) Nat).Yields renderer
        (fun _ after => after = renderer) fun _ _ => False := by
    intro renderer none
    have silent : ExternalLayers.drain.Yields (renderer.device, renderer.external)
        (fun _ after => after = (renderer.device, renderer.external)) fun _ _ => False := by
      unfold ExternalLayers.drain
      refine Yields.get ?_
      rw [none]
      exact Yields.pure rfl
    refine Yields.mono (Yields.within silent) ?_ fun _ _ ⟨_, failed, _⟩ => failed
    rintro _ _ ⟨_, rfl, rfl⟩
    rfl
  have polled : ∀ renderer : Renderer ℓ, (pollTextures renderer).device.traits =
      renderer.device.traits := by
    intro renderer
    exact (TextureCache.poll_hushed
      ⟨renderer.device, renderer.loader, renderer.textures⟩).1.silent.traits
  unfold Renderer.prepareFrame
  refine begun.bind ?_ fun _ _ => id
  rintro frame begun ⟨h, same⟩
  refine (drained begun h.waiting).bind ?_ fun _ _ => id
  rintro uploads _ rfl
  refine Yields.modify (Yields.modify ?_)
  cases input.audio with
  | none => exact Yields.pure ⟨⟨(polled _).trans h.traits, h.laddered, h.waiting⟩, same⟩
  | some block =>
    refine Yields.modify (Yields.pure ⟨⟨?_, h.laddered, h.waiting⟩, same⟩)
    unfold hear
    dsimp only
    split
    · exact (Device.tells_uploadTexture _ _ _ _ _).traits.trans ((polled _).trans h.traits)
    · exact (polled _).trans h.traits

/-- Without room for the first target no frame is drawn. -/
theorem Unused.render (h : renderer.Unused traits)
    (memory : ∀ asked, traits.framebuffersExhausted asked = false)
    (full : ¬ RenderTargets.Room traits renderer.targets.renderSize) (tree : CompiledTree)
    (input : FrameInput) :
    ((Renderer.render tree input).runOn renderer).1 =
      .error (.device (RenderTargets.oversize renderer.targets.renderSize)) := by
  have drawn : (drawFrame tree input : Action (Renderer ℓ) FrameStats).Yields renderer
      (fun _ _ => False) fun failure _ =>
        failure = .device (RenderTargets.oversize renderer.targets.renderSize) := by
    rw [drawFrame_eq]
    refine (h.prepareFrame tree input).bind ?_ fun _ _ => False.elim
    rintro frame prepared ⟨h, same⟩
    rw [← same] at full ⊢
    unfold composeFrame
    refine Yields.bind (Yields.bind (h.startTarget memory) (fun _ _ room => absurd room full)
      fun _ _ failed => failed.2) (fun _ _ => False.elim) fun _ _ => id
  have rendered : Yields _ _ (fun _ _ => False) fun failure _ =>
      failure = .device (RenderTargets.oversize renderer.targets.renderSize) :=
    render_yields drawn fun _ _ refused => refused
  unfold Yields at rendered
  revert rendered
  cases (Renderer.render tree input).runOn renderer with
  | mk outcome after =>
    cases outcome with
    | ok stats => exact False.elim
    | error failure => exact congrArg Except.error

/-- **What accepted settings can be drawn with.**  A renderer that was made with them on the device
that they ask for can create its first target just if the output fits; so it does if both sides and
the limit are said.  If the output does not fit, no tree is drawn. -/
theorem drawable_iff {settings : Settings} (accepted : settings.check = .ok ()) {loader : ℓ}
    {later : Device}
    (created : (create settings.options loader).runOn settings.device = (.ok renderer, later)) :
    ((∃ target after, (startTarget : Action (Renderer ℓ) Nat).runOn renderer = (.ok target, after)) ↔
        settings.Fits) ∧
      (settings.Explicit → settings.Fits) ∧
      (¬ settings.Fits → ∀ tree input, ∃ size, ((render tree input).runOn renderer).1 =
        .error (.device (RenderTargets.oversize size))) := by
  have accepted := Settings.check_eq_ok_iff.mp accepted
  obtain ⟨unused, drawn⟩ := unused_of_create created
  obtain ⟨wide, high⟩ := accepted.sides_pos
  have room : RenderTargets.Room settings.device.traits renderer.targets.renderSize ↔
      settings.Fits := by
    rw [drawn]
    exact RenderTargets.size_fits_iff wide high settings.raiseLevel_antiAlias_pos
  have memory : ∀ asked, settings.device.traits.framebuffersExhausted asked = false := fun _ => rfl
  refine ⟨?_, accepted.fits, fun full tree input =>
    ⟨_, unused.render memory (fun fits => full (room.mp fits)) tree input⟩⟩
  have started := unused.startTarget memory
  rw [room] at started
  constructor
  · rintro ⟨target, after, same⟩
    have fits := Yields.of_ok same started
    exact fits
  · intro fits
    cases ran : (startTarget : Action (Renderer ℓ) Nat).runOn renderer with
    | mk outcome after =>
      cases outcome with
      | ok target => exact ⟨target, after, rfl⟩
      | error failure =>
        have failed := Yields.of_error ran started
        exact absurd fits failed.1

end

/-- A renderer can be made with settings that say nothing of anti-aliasing and shaders. -/
theorem exists_created {settings : Settings} (plain : settings.render.antiAlias = none)
    (standard : settings.render.shaderVersion = none) :
    ∃ (renderer : Renderer NoLoader) (later : Device),
      (create settings.options NoLoader.mk).runOn settings.device = (.ok renderer, later) := by
  have version : settings.options.version = "300 es" := by
    rw [Settings.options, standard]
    rfl
  have antiAlias : settings.options.antiAlias = 1 := by
    rw [Settings.options, plain]
    rfl
  have obliging : settings.device.traits.Obliging :=
    ⟨rfl, rfl, rfl, fun _ _ _ => rfl, fun _ _ _ => rfl, rfl, fun _ _ => rfl, fun _ => rfl⟩
  exact create_succeeds settings.options version antiAlias NoLoader.mk obliging
    (Device.tidy_new settings.device.traits)

/-- Settings that say both sides and the limit. -/
def snug : Settings :=
  { render := { width := some 64, height := some 32, maxDimension := some 64 } }

theorem drawable_iff_snug : ∃ (renderer : Renderer NoLoader) (later : Device),
    snug.check = .ok () ∧
    (create snug.options NoLoader.mk).runOn snug.device = (.ok renderer, later) ∧
    ((∃ target after, (startTarget : Action (Renderer NoLoader) Nat).runOn renderer =
        (.ok target, after)) ↔ snug.Fits) ∧
      (snug.Explicit → snug.Fits) ∧
      (¬ snug.Fits → ∀ tree input, ∃ size, ((render tree input).runOn renderer).1 =
        .error (.device (RenderTargets.oversize size))) := by
  obtain ⟨renderer, later, created⟩ := @exists_created snug rfl rfl
  exact ⟨renderer, later, rfl, created, drawable_iff rfl created⟩

/-- Settings that leave the height to the standards. -/
def cramped : Settings :=
  { render := { width := some 4096, maxDimension := some 2048 } }

/-- **Accepted settings with which nothing can be drawn**: the width is above the limit, and is not
compared with it because the height is not said. -/
theorem exists_undrawable : ∃ (renderer : Renderer NoLoader) (later : Device),
    cramped.check = .ok () ∧ cramped.maxDimension < cramped.options.width ∧
    (create cramped.options NoLoader.mk).runOn cramped.device = (.ok renderer, later) ∧
    ∀ tree input, ((render tree input).runOn renderer).1 =
      .error (.device (RenderTargets.oversize (4096, 1080))) := by
  obtain ⟨renderer, later, created⟩ := @exists_created cramped rfl rfl
  obtain ⟨unused, drawn⟩ := unused_of_create created
  have drawn : renderer.targets.renderSize = (4096, 1080) := drawn.trans (by decide)
  refine ⟨renderer, later, rfl, by decide, created, fun tree input => ?_⟩
  rw [← drawn]
  refine unused.render (fun _ => rfl) ?_ tree input
  rw [drawn]
  exact fun room => absurd room.1.2 (by decide)

end Renderer
end Collage
