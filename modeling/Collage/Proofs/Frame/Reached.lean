import Collage.Proofs.Device.Programs
import Collage.Proofs.Frame.Leftovers

/-!
# The renderers that there are

`Reached` says how a renderer comes about: it is created on a device, and then frames and
previews are drawn with it in any order, each of which may fail, and between them its output
is read, it gets another size, it forgets what a tree does not have, pictures and loaders are
handed to it, and its device is used for programs.  Each of these leaves a renderer sound
(`Reached.sound`, by induction on what was done).
-/

namespace Collage
namespace Renderer

open Collage.Action

variable {ℓ : Type} {renderer : Renderer ℓ}

theorem Rests.sound {before after : Renderer ℓ} (h : Rests before after) (sound : before.Sound) :
    after.Sound :=
  ⟨h.targets ▸ sound.idle, h.calm.fresh sound.fresh, h.apart sound.apart⟩

/-! ### Creating -/

/-- **A renderer is sound when it is created.** -/
theorem create_sound {options : RendererOptions} {loader : ℓ} {device later : Device}
    (fresh : device.Fresh)
    (created : (create options loader).runOn device = (.ok renderer, later)) :
    renderer.Sound := by
  have images : (StandingPrograms.create options.version).Yields device
      (fun _ built => Device.Backstage device built) fun _ _ => True :=
    Yields.of_after (StandingPrograms.create_backstage options.version device)
  have pool : ∀ built, Device.Backstage device built →
      (RenderTargets.create options.width options.height options.antiAlias).Yields built
        (fun targets laid => ∃ built, RenderTargets.Begun built [] targets laid) fun _ _ => True :=
    fun built same => (RenderTargets.create_yields _ _ _ (same.calm.fresh fresh)
      (List.forall_mem_nil _)).mono (fun _ _ begun => ⟨built, begun⟩) fun _ _ _ => trivial
  suffices sound : Yields _ device (fun (renderer : Renderer ℓ) _ => renderer.Sound)
    fun _ _ => True from Yields.of_ok created sound
  refine create_by_parts images (fun _ built same => pool built same)
    (fun _ _ _ _ _ _ _ => trivial) ?_
  rintro programs targets laid ⟨built, begun⟩ spectrum made created
  obtain ⟨quiet, new⟩ := Device.made_createTexture created
  have uploaded := quiet.trans
    (made.calm_uploadTexture spectrum spectrumSize 2 ({} : AudioFrame).bytes)
  refine ⟨begun.idle, uploaded.fresh begun.fresh, ?_⟩
  refine RenderTargets.Apart.onward begun.apart uploaded.onward rfl fun texture inside => ?_
  cases List.mem_singleton.mp inside
  exact .inr ⟨new.new, new.given⟩

/-! ### Forgetting -/

theorem prune_rests (tree : CompiledTree) (renderer : Renderer ℓ) :
    Rests renderer (prune tree renderer) := by
  have kept : ∀ {κ α : Type} [DecidableEq κ] (table : Table κ α) (live : κ → Bool) value,
      value ∈ (table.keep live).values → value ∈ table.values :=
    fun table live value inside => (table.values_keep_sublist live).subset inside
  refine ⟨rfl, ?_, .cons (.append (fun texture inside => ?_) fun texture inside => ?_)⟩
  · have external : Device.Calm renderer.device
        (ExternalLayers.retain tree.layerIds renderer.device renderer.external).1 :=
      Device.Calm.foldl (fun device texture => device.calm_deleteTexture texture) _ _
    exact external.trans (Device.Calm.foldl (fun device _ => device.calm_deleteTexture _) _ _)
  · obtain ⟨entry, there, same⟩ := List.mem_map.mp inside
    exact .inl (List.mem_map.mpr ⟨entry, kept _ _ _ there, same⟩)
  · obtain ⟨state, there, same⟩ := List.mem_filterMap.mp inside
    exact .inl (List.mem_filterMap.mpr ⟨state, kept _ _ _ there, same⟩)

/-! ### Another size -/

theorem rebuildTargets_sound (width height : Nat) (sound : renderer.Sound) :
    (rebuildTargets width height : Action (Renderer ℓ) Unit).Yields renderer
      (fun _ after => after.Sound) fun _ after => after.Sound := by
  have deletes : ∀ current : Renderer ℓ,
      (Action.within (fun current => (current.device, renderer.targets))
        (fun current changed => { current with device := changed.1 }) RenderTargets.delete :
          Action (Renderer ℓ) Unit).Yields current
        (fun _ after => ∃ changed : RenderTargets.State,
          (Device.Onward current.device changed.1 ∧ changed.1.framebuffers.keys =
            current.device.framebuffers.keys.filter (· ∉ renderer.targets.framebuffers)) ∧
          after = { current with device := changed.1 })
        fun _ after => ∃ changed : RenderTargets.State, False ∧
          after = { current with device := changed.1 } :=
    fun current => Yields.within (RenderTargets.delete_yields current.device sound.idle)
  unfold rebuildTargets
  refine Yields.get (Yields.bind (Yields.within (RenderTargets.create_yields width height
    renderer.options.antiAlias sound.fresh sound.apart.given)) ?_ ?_)
  · rintro rebuilt _ ⟨later, begun, rfl⟩
    refine Yields.modify ((deletes _).mono ?_ fun _ _ ⟨_, never, _⟩ => never.elim)
    rintro _ _ ⟨_, ⟨onward, keys⟩, rfl⟩
    exact ⟨begun.idle, RenderTargets.fresh_of_filter begun.fresh onward keys,
      RenderTargets.Apart.onward begun.apart onward rfl (.refl _)⟩
  · rintro _ _ ⟨later, ⟨fresh, onward⟩, rfl⟩
    exact ⟨sound.idle, fresh, RenderTargets.Apart.onward sound.apart onward rfl (.refl _)⟩

/-- **A renderer that gets another size is sound**, also if it could not. -/
theorem resize_sound (width height : Nat) (sound : renderer.Sound) :
    (resize width height : Action (Renderer ℓ) Unit).Yields renderer
      (fun _ after => after.Sound) fun _ after => after.Sound := by
  have inPlace : (onTargets (RenderTargets.resize width height) : Action (Renderer ℓ) Unit).Yields
      renderer (fun _ after => after.Sound) fun _ after => after.Sound := by
    refine (onTargets_yields (RenderTargets.resize_yields width height renderer.device
      renderer.targets)).mono ?_ ?_
    · rintro _ _ ⟨⟨device, targets⟩, ⟨single, calm, rfl⟩, rfl⟩
      exact ⟨sound.idle.resized single _ _, calm.fresh sound.fresh,
        RenderTargets.Apart.onward sound.apart calm.onward
          (RenderTargets.handles_resized _ _ _) (.refl _)⟩
    · rintro _ _ ⟨_, rfl, rfl⟩
      exact sound
  unfold resize
  refine Yields.get ?_
  split
  · exact Yields.pure sound
  · split
    · exact inPlace.bind (fun _ _ sound => Yields.modified ⟨sound.idle, sound.fresh, sound.apart⟩)
        fun _ _ sound => sound
    · exact (rebuildTargets_sound width height sound).bind
        (fun _ _ sound => Yields.modified ⟨sound.idle, sound.fresh, sound.apart⟩)
        fun _ _ sound => sound

/-! ### All together -/

section

variable [TextureLoader ℓ]

/-- The renderers that can be reached. -/
inductive Reached : Renderer ℓ → Prop
  | created {options : RendererOptions} {loader : ℓ} {device later : Device}
      {renderer : Renderer ℓ} : device.Fresh →
      (create options loader).runOn device = (.ok renderer, later) → Reached renderer
  | rendered {renderer : Renderer ℓ} (tree : CompiledTree) (input : FrameInput) :
      Reached renderer → Reached ((render tree input).runOn renderer).2
  | previewed {renderer : Renderer ℓ} (tree : CompiledTree) (ids : List String)
      (width height : Nat) (date : List Float32) :
      Reached renderer → Reached ((previews tree ids width height date).runOn renderer).2
  | read {renderer : Renderer ℓ} : Reached renderer → Reached (output.runOn renderer).2
  | resized {renderer : Renderer ℓ} (width height : Nat) :
      Reached renderer → Reached ((resize width height).runOn renderer).2
  | pruned {renderer : Renderer ℓ} (tree : CompiledTree) :
      Reached renderer → Reached (prune tree renderer)
  | connected {renderer : Renderer ℓ} :
      Reached renderer → Reached { renderer with external := renderer.external.connect }
  | delivered {renderer : Renderer ℓ} (result : ExternalResult) :
      Reached renderer → Reached { renderer with external := renderer.external.deliver result }
  | loaded {renderer : Renderer ℓ} (loader : ℓ) :
      Reached renderer → Reached { renderer with loader }
  /-- as when documents are compiled on the device -/
  | programmed {renderer : Renderer ℓ} {device : Device} :
      Reached renderer → Device.Calm renderer.device device → Reached { renderer with device }

/-- **Every renderer that can be reached is sound.** -/
theorem Reached.sound (h : Reached renderer) : renderer.Sound := by
  induction h with
  | created fresh created => exact create_sound fresh created
  | rendered tree input _ ih => exact render_sound tree input ih
  | previewed tree ids width height date _ ih =>
    exact (previews_spare tree ids width height date ih.fresh).sound ih
  | read _ ih => exact (Keeps.after_iff.mp output_quiet _).sound ih
  | resized width height _ ih => exact Yields.after_iff.mp (resize_sound width height ih)
  | pruned tree _ ih => exact (prune_rests tree _).sound ih
  | connected _ ih => exact ⟨ih.idle, ih.fresh, ih.apart⟩
  | delivered result _ ih =>
    refine ⟨ih.idle, ih.fresh, RenderTargets.Apart.onward ih.apart (.refl _) rfl
      (.cons (.append (.refl _) ?_))⟩
    unfold ExternalLayers.deliver
    split <;> exact .refl _
  | loaded loader _ ih => exact ⟨ih.idle, ih.fresh, ih.apart⟩
  | programmed _ calm ih =>
    exact ⟨ih.idle, calm.fresh ih.fresh,
      RenderTargets.Apart.onward ih.apart calm.onward rfl (.refl _)⟩

end

end Renderer
end Collage
