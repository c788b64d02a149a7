import Collage.Proofs.Frame.Layout
import Collage.Proofs.Frame.Reached

/-!
# Another size that could not be had

A ladder is made rung by rung, and the device can refuse any of them.  The rungs that were
granted before stay on the device, although no pool has them (`Device.Refused`): when the first
`n` framebuffers that are asked for are granted and the next is not, the call fails and there are
`n` framebuffers more than before (`RenderTargets.buildLadder_granted`).

`half_built` says so of a pool that is made and of a renderer that gets another size.  The
renderer itself, its pool and its options with it, is what it was, and so are the framebuffers and
textures if nothing was granted, and only then.  `exists_half_built` is a renderer for which
something was.
-/

namespace Collage

namespace Device

/-- The same framebuffers and the same textures are there before and after. -/
structure SameImages (before after : Device) : Prop where
  framebuffers : ∀ handle, handle ∈ after.framebuffers.keys ↔ handle ∈ before.framebuffers.keys
  textures : ∀ handle, handle ∈ after.textures.keys ↔ handle ∈ before.textures.keys

/-- Framebuffers with their textures were created, the first ones that were asked for, and they
are there besides what there was. -/
structure Lasting (before : Device) (made : List (Handle × Handle)) (after : Device) : Prop where
  granted : ∀ index < made.length,
    before.traits.framebuffersExhausted (before.framebuffersAsked + index) = false
  framebuffers : after.framebuffers.keys = before.framebuffers.keys ++ made.map Prod.fst
  textures : ∀ handle, handle ∈ after.textures.keys ↔
    handle ∈ before.textures.keys ∨ handle ∈ made.map Prod.snd
  fresh : after.Fresh

/-- All framebuffers that were asked for were created. -/
structure Granted (before : Device) (made : List (Handle × Handle)) (after : Device) : Prop
    extends Lasting before made after where
  traits : after.traits = before.traits
  asked : after.framebuffersAsked = before.framebuffersAsked + made.length

/-- Some framebuffers were created, and the next that was asked for was refused. -/
structure Refused (before : Device) (made : List (Handle × Handle)) (after : Device) : Prop
    extends Lasting before made after where
  refused : before.traits.framebuffersExhausted (before.framebuffersAsked + made.length) = true

variable {a b c : Device} {made more : List (Handle × Handle)}

theorem Granted.refl (fresh : a.Fresh) : Granted a [] a :=
  ⟨⟨nofun, (List.append_nil _).symm, fun _ => (or_iff_left List.not_mem_nil).symm, fresh⟩, rfl, rfl⟩

theorem Granted.lasting (h : Granted a made b) (h' : Lasting b more c) :
    Lasting a (made ++ more) c where
  granted index below := by
    rcases Nat.lt_or_ge index made.length with early | late
    · exact h.granted index early
    · have second := h'.granted (index - made.length) (by
        rw [List.length_append] at below
        omega)
      rwa [h.traits, h.asked, Nat.add_assoc, Nat.add_sub_cancel' late] at second
  framebuffers := by rw [h'.framebuffers, h.framebuffers, List.map_append, List.append_assoc]
  textures handle := by
    rw [h'.textures, h.textures, List.map_append, List.mem_append, or_assoc]
  fresh := h'.fresh

theorem Granted.trans (h : Granted a made b) (h' : Granted b more c) :
    Granted a (made ++ more) c where
  toLasting := h.lasting h'.toLasting
  traits := h'.traits.trans h.traits
  asked := by rw [h'.asked, h.asked, List.length_append, Nat.add_assoc]

theorem Granted.refused (h : Granted a made b) (h' : Refused b more c) :
    Refused a (made ++ more) c where
  toLasting := h.lasting h'.toLasting
  refused := by
    have refused := h'.refused
    rwa [h.traits, h.asked, Nat.add_assoc, ← List.length_append] at refused

/-- **What there is has stayed the same just if nothing was granted.** -/
theorem Refused.sameImages_iff (h : Refused a made b) :
    SameImages a b ↔ a.traits.framebuffersExhausted a.framebuffersAsked = true := by
  constructor
  · intro same
    cases made with
    | nil => exact h.refused
    | cons canvas rest =>
      -- the first that was created was not there
      have once := h.fresh.once
      rw [h.framebuffers, List.map_cons] at once
      have new := (List.nodup_append.mp once).2.2
      have there : canvas.1 ∈ b.framebuffers.keys := by
        rw [h.framebuffers, List.map_cons]
        exact List.mem_append_right _ List.mem_cons_self
      exact absurd rfl (new _ ((same.framebuffers _).mp there) _ List.mem_cons_self)
  · intro exhausted
    cases made with
    | nil =>
      exact ⟨fun handle => by rw [h.framebuffers, List.map_nil, List.append_nil],
        fun handle => (h.textures handle).trans (or_iff_left List.not_mem_nil)⟩
    | cons canvas rest =>
      have granted := h.granted 0 (Nat.succ_pos _)
      rw [Nat.add_zero, exhausted] at granted
      cases granted

end Device

namespace RenderTargets

open Collage.Action

/-! ### A ladder that is not finished -/

/-- A framebuffer that fits is created, or refused for want of memory. -/
theorem newFramebuffer_granted {width height : Nat} {device : Device} (fresh : device.Fresh)
    (wide : 0 < width ∧ width ≤ device.traits.maxDimension)
    (high : 0 < height ∧ height ≤ device.traits.maxDimension) :
    (newFramebuffer width height).Yields device
      (fun canvas later => device.Granted [canvas] later)
      fun _ later => device.Refused [] later := by
  refine (newFramebuffer_yields width height device).mono ?_ ?_
  · rintro ⟨framebuffer, texture⟩ later created
    obtain ⟨freshLater, keys⟩ := Device.createFramebuffer_fresh fresh created
    have granted : device.traits.framebuffersExhausted device.framebuffersAsked = false := by
      unfold Device.createFramebuffer at created
      dsimp only at created
      split at created
      · cases created
      · next memory => exact Bool.eq_false_of_not_eq_true memory
    obtain ⟨rfl, rfl, rfl⟩ := Device.createFramebuffer_ok created
    refine ⟨⟨fun index below => ?_, keys, fun handle => ?_, freshLater⟩, rfl, rfl⟩
    · rwa [Nat.lt_one_iff.mp below]
    · rw [List.map_singleton, List.mem_singleton]
      exact Table.mem_keys_set
  · rintro _ later ⟨cause, failed, -⟩
    unfold Device.createFramebuffer at failed
    dsimp only at failed
    split at failed
    · next exhausted =>
      cases failed
      exact ⟨⟨nofun, (List.append_nil _).symm, fun _ => (or_iff_left List.not_mem_nil).symm,
        ⟨fresh.once, fresh.below⟩⟩, exhausted⟩
    · rw [if_neg (by omega)] at failed
      cases failed

/-- **Rungs are created until one is refused**, and those before it stay. -/
theorem buildLadder_granted : ∀ (steps factor : Nat) {pool : RenderTargets} {device : Device},
    device.Fresh → 0 < pool.width ∧ pool.width * factor ≤ device.traits.maxDimension →
    0 < pool.height ∧ pool.height * factor ≤ device.traits.maxDimension →
    (buildLadder steps factor pool).Yields device
      (fun built later => ∃ made, built.handles = pool.handles ++ made ∧ device.Granted made later)
      fun _ later => ∃ made, made.length < (halvings steps factor).length ∧
        device.Refused made later
  | 0, _, _, _, fresh, _, _ => Yields.pure ⟨[], (List.append_nil _).symm, .refl fresh⟩
  | steps + 1, factor, pool, device, fresh, wide, high => by
    unfold buildLadder
    rw [halvings]
    split
    · exact Yields.pure ⟨[], (List.append_nil _).symm, .refl fresh⟩
    · have half : ∀ {side most : Nat}, side * factor ≤ most → side * (factor / 2) ≤ most :=
        fun fits => Nat.le_trans (Nat.mul_le_mul_left _ (Nat.div_le_self factor 2)) fits
      have some : 0 < factor := by omega
      refine (newFramebuffer_granted fresh ⟨Nat.mul_pos wide.1 some, wide.2⟩
        ⟨Nat.mul_pos high.1 some, high.2⟩).bind ?_ ?_
      · rintro ⟨framebuffer, texture⟩ later first
        rw [← first.traits] at wide high
        refine Yields.mono (buildLadder_granted steps (factor / 2) first.fresh
          ⟨wide.1, half wide.2⟩ ⟨high.1, half high.2⟩) ?_ ?_
        · rintro built last ⟨made, handles, rest⟩
          refine ⟨(framebuffer, texture) :: made, ?_, first.trans rest⟩
          rw [handles, RenderTargets.handles, List.map_append, List.append_assoc]
          rfl
        · rintro _ last ⟨made, fewer, rest⟩
          exact ⟨(framebuffer, texture) :: made, Nat.succ_lt_succ fewer, first.refused rest⟩
      · rintro _ later refused
        exact ⟨[], Nat.succ_pos _, refused⟩

end RenderTargets

/-- What a device is left with when a ladder of so many rungs was not finished: of the rungs the
first ones, all that were granted before one was refused. -/
structure Device.HalfBuilt (rungs : Nat) (before after : Device) : Prop where
  left : ∃ made, made.length < rungs ∧ before.Refused made after
  /-- what there is has stayed the same just if the first rung was refused -/
  clean : before.SameImages after ↔
    before.traits.framebuffersExhausted before.framebuffersAsked = true

namespace RenderTargets

open Collage.Action

/-- **A pool that could not be made leaves the rungs behind that it had.** -/
theorem create_halfBuilt (width height antiAlias : Nat) {device : Device} (fresh : device.Fresh) :
    (create width height antiAlias).Yields device
      (fun pool later => device.Granted pool.handles later)
      fun _ later => device.HalfBuilt (Layout.of (width, height)
        (achievableAntiAlias width height antiAlias device.traits.maxDimension)).rungs.length
        later := by
  refine create_by_ladder fun level is wide high => ?_
  rw [← is]
  refine Yields.mono (buildLadder_granted 32 (level / 2) fresh wide high) ?_ ?_
  · rintro pool later ⟨made, handles, granted⟩
    rwa [handles]
  · rintro _ later ⟨made, fewer, refused⟩
    refine ⟨⟨made, ?_, refused⟩, refused.sameImages_iff⟩
    rwa [Layout.of, List.length_map]

theorem resize_succeeds (width height : Nat) (device : Device) {pool : RenderTargets}
    (alive : pool.deleted = false) (single : pool.antiAlias = 1) :
    (resize width height).Yields (device, pool) (fun _ _ => True) fun _ _ => False := by
  unfold resize
  refine Yields.get ?_
  dsimp only
  rw [if_neg (by simp [alive]), if_neg (by simp [single])]
  exact Yields.modified trivial

end RenderTargets

namespace Renderer

open Collage.Action

variable {ℓ : Type} {renderer : Renderer ℓ}

/-- What a renderer is like that could not get another size: of the ladder that it was to get some
rungs can be left on its device, and else it is what it was. -/
structure HalfBuilt (size : Nat × Nat) (before after : Renderer ℓ) : Prop where
  same : after = { before with device := after.device }
  device : before.device.HalfBuilt (Layout.of size (before.levelFor size)).rungs.length after.device

theorem rebuildTargets_halfBuilt (width height : Nat) (sound : renderer.Sound) :
    (rebuildTargets width height : Action (Renderer ℓ) Unit).Yields renderer (fun _ _ => True)
      fun _ after => HalfBuilt (width, height) renderer after := by
  unfold rebuildTargets
  refine Yields.get (Yields.bind (Yields.within (RenderTargets.create_halfBuilt width height
    renderer.options.antiAlias sound.fresh)) ?_ ?_)
  · rintro rebuilt _ ⟨later, -, rfl⟩
    -- nothing of the old pool is in use, so that it can be deleted
    have deleted : RenderTargets.delete.Yields (later, renderer.targets) (fun _ _ => True)
        fun _ _ => False :=
      (RenderTargets.delete_yields later sound.idle).mono (fun _ _ _ => trivial) fun _ _ => id
    refine Yields.modify (Yields.mono (Yields.within deleted) (fun _ _ _ => trivial) ?_)
    exact fun _ _ ⟨_, never, _⟩ => never.elim
  · rintro _ _ ⟨later, left, rfl⟩
    exact ⟨rfl, left⟩

/-- **A renderer that could not get another size.** -/
theorem resize_halfBuilt (width height : Nat) (sound : renderer.Sound) :
    (resize width height : Action (Renderer ℓ) Unit).Yields renderer (fun _ _ => True)
      fun _ after => HalfBuilt (width, height) renderer after := by
  unfold resize
  refine Yields.get ?_
  split
  · exact Yields.pure trivial
  · split
    · next single =>
      exact (onTargets_yields (RenderTargets.resize_succeeds width height renderer.device
        sound.idle.alive single)).bind (fun _ _ _ => Yields.modified trivial)
        fun _ _ ⟨_, never, _⟩ => never.elim
    · exact (rebuildTargets_halfBuilt width height sound).bind
        (fun _ _ _ => Yields.modified trivial) fun _ _ failed => failed

/-- **A pool that cannot be made, and a size that cannot be had, leave the rungs behind that were
granted** before one was refused.  Nothing is left just if the first rung was refused; the pool of
the renderer and its options are what they were in any case. -/
theorem half_built (sound : renderer.Sound) {device : Device} (fresh : device.Fresh)
    (width height antiAlias : Nat) :
    (RenderTargets.create width height antiAlias).Yields device
        (fun pool later => device.Granted pool.handles later)
        (fun _ later => device.HalfBuilt (Layout.of (width, height)
          (RenderTargets.achievableAntiAlias width height antiAlias
            device.traits.maxDimension)).rungs.length later) ∧
      (resize width height : Action (Renderer ℓ) Unit).Yields renderer (fun _ _ => True)
        fun _ after => HalfBuilt (width, height) renderer after :=
  ⟨RenderTargets.create_halfBuilt width height antiAlias fresh, resize_halfBuilt width height sound⟩

/-- A renderer at the level two, the highest that fits where sides have at most sixty-four pixels,
on a device that grants the first framebuffer and refuses the second. -/
def sparing : Renderer NoLoader where
  device :=
    { traits := { maxDimension := 64, framebuffersExhausted := fun asked => asked == 1 } }
  options := { width := 32, height := 32, antiAlias := 8 }
  targets := { width := 32, height := 32, antiAlias := 2 }
  programs := default
  spectrum := 0
  loader := {}
  external := ExternalLayers.create 2

theorem sparing_sound : sparing.Sound :=
  sound_of_empty rfl rfl (by decide)

theorem half_built_sparing :
    (sparing.Sound ∧ sparing.device.Fresh) ∧
      (RenderTargets.create 8 8 8).Yields sparing.device
        (fun pool later => sparing.device.Granted pool.handles later)
        (fun _ later => sparing.device.HalfBuilt (Layout.of (8, 8)
          (RenderTargets.achievableAntiAlias 8 8 8
            sparing.device.traits.maxDimension)).rungs.length later) ∧
      (resize 8 8 : Action (Renderer NoLoader) Unit).Yields sparing (fun _ _ => True)
        fun _ after => HalfBuilt (8, 8) sparing after :=
  ⟨⟨sparing_sound, sparing_sound.fresh⟩, half_built sparing_sound sparing_sound.fresh 8 8 8⟩

/-- **A rung can be left behind**, by a pool that cannot be made and by a renderer that cannot get
another size. -/
theorem exists_half_built : sparing.Sound ∧
    (∃ failure later, (RenderTargets.create 8 8 8).runOn sparing.device = (.error failure, later) ∧
      ¬ sparing.device.SameImages later) ∧
    ∃ failure after, (resize 8 8 : Action (Renderer NoLoader) Unit).runOn sparing =
      (.error failure, after) ∧ ¬ sparing.device.SameImages after.device := by
  have gained : ∀ device : Device, 2 ∈ device.framebuffers.keys →
      ¬ sparing.device.SameImages device := fun device inside same =>
    absurd ((same.framebuffers 2).mp inside) (by decide)
  have failed : ((RenderTargets.create 8 8 8).runOn sparing.device).1.toOption = none := by
    decide +kernel
  have refused : ((resize 8 8 : Action (Renderer NoLoader) Unit).runOn sparing).1.toOption =
      none := by
    decide +kernel
  obtain ⟨failure, failed⟩ := runOn_eq_error failed
  obtain ⟨refusal, refused⟩ := runOn_eq_error refused
  exact ⟨sparing_sound, ⟨failure, _, failed, gained _ (by decide +kernel)⟩,
    refusal, _, refused, gained _ (by decide +kernel)⟩

end Renderer
end Collage
