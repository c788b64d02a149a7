import Collage.Proofs.Frame.Belongings
import Collage.Proofs.Frame.Drawing
import Collage.Proofs.Frame.Reached
import Collage.Proofs.Tree.Backstage

/-!
# Nothing is lost while drawing

`Owns stock renderer` says that there is on the device of a renderer what it owns, a stock
besides, and nothing else.  Everything that is done in frames, in previews and between them is
`Accountable`: whether it fails or not, and whatever the device refuses, what there was besides
has stayed.  Only another size must be reached (`resize_owns`), since a ladder that is half
built is given up.

What frames are made of acts either on the pool, the textures of uniforms or those of script
layers, or makes calls that create and delete nothing (`Device.SameStock`); so frames and previews
are accountable by the rules of `Tracks`.
-/

namespace Collage
namespace Renderer

open Collage.Action

variable {ℓ α : Type} {stock : Stock} {renderer : Renderer ℓ}

/-- On the device of a renderer there is a stock, what the renderer owns, and nothing else. -/
def Owns (stock : Stock) (renderer : Renderer ℓ) : Prop :=
  renderer.device.Stocked
    ((stock.addTextures renderer.others).addCanvases renderer.targets.handles)

/-- Between two states of a renderer what there was besides has stayed, and its programs are
those that it had. -/
structure Accountable (before after : Renderer ℓ) : Prop where
  owns : ∀ stock, before.Owns stock → after.Owns stock
  programs : after.programs = before.programs

theorem Accountable.refl (renderer : Renderer ℓ) : Accountable renderer renderer :=
  ⟨fun _ => id, rfl⟩

instance : Std.Refl (@Accountable ℓ) := ⟨Accountable.refl⟩

instance : IsTrans (Renderer ℓ) Accountable :=
  ⟨fun _ _ _ h h' => ⟨fun stock owns => h'.owns stock (h.owns stock owns),
    h'.programs.trans h.programs⟩⟩

theorem Accountable.of_same {before after : Renderer ℓ}
    (same : Device.SameStock before.device after.device) (others : after.others.Perm before.others)
    (targets : after.targets.handles = before.targets.handles)
    (programs : after.programs = before.programs) : Accountable before after := by
  refine ⟨fun stock owns => ?_, programs⟩
  unfold Owns
  rw [Stock.addTextures_perm stock others, targets]
  exact owns.of_same same

/-! ### Parts -/

theorem onTargets_accountable {action : Action RenderTargets.State α}
    (h : Keeps RenderTargets.Accountable action) :
    Keeps Accountable (onTargets action : Action (Renderer ℓ) α) :=
  Keeps.within h fun renderer _ accountable =>
    ⟨fun stock owns => accountable (stock.addTextures renderer.others) owns, rfl⟩

theorem owns_iff_textures : renderer.Owns stock ↔ renderer.device.Stocked
    (((stock.addTextures (renderer.spectrum :: renderer.external.handles)).addCanvases
      renderer.targets.handles).addTextures renderer.textures.handles) := by
  rw [Owns, Stock.addCanvases_addTextures, ← Stock.addTextures_append,
    Stock.addTextures_perm stock List.perm_middle]
  rfl

theorem owns_iff_external : renderer.Owns stock ↔ renderer.device.Stocked
    (((stock.addTextures (renderer.spectrum :: renderer.textures.handles)).addCanvases
      renderer.targets.handles).addTextures renderer.external.handles) := by
  rw [Owns, Stock.addCanvases_addTextures, ← Stock.addTextures_append,
    Stock.addTextures_perm stock List.perm_append_comm]
  rfl

theorem owns_iff_targets : renderer.Owns stock ↔ renderer.device.Stocked
    ((stock.addCanvases renderer.targets.handles).addTextures renderer.others) := by
  rw [Owns, Stock.addCanvases_addTextures]

theorem Accountable.of_textures {state : TextureCache.State ℓ}
    (h : TextureCache.Accountable ⟨renderer.device, renderer.loader, renderer.textures⟩ state) :
    Accountable renderer { renderer with
      device := state.device, loader := state.loader, textures := state.cache } := by
  refine ⟨fun stock owns => ?_, rfl⟩
  rw [owns_iff_textures] at owns ⊢
  exact h _ owns

/-! ### Frames -/

theorem Accountable.of_device {before : Renderer ℓ} {device : Device}
    (same : Device.SameStock before.device device) : Accountable before { before with device } :=
  .of_same same (.refl _) rfl rfl

theorem tracksPool_accountable : TracksPool (@Accountable ℓ) fun _ => Accountable where
  toTraces := Keeps.traces
  unable _ renderer _ := .refl renderer
  stats _ _ := .of_same (.refl _) (.refl _) rfl rfl
  framebuffer _ _ _ _ := .of_device (Device.sameStock_bindFramebuffer _ _ _ _)
  request := onTargets_accountable RenderTargets.request_accountable
  release _ _ _ released :=
    .of_same (.refl _) (.refl _) (RenderTargets.handles_release released) rfl

theorem tracksDrawing_accountable :
    TracksDrawing (@Accountable ℓ) (fun _ => Accountable) fun _ => True where
  toTracks := tracksPool_accountable.toTracks
  input _ _ _ _ _ := .of_same (.refl _) (.refl _) rfl rfl
  found found := .of_textures found.accountable
  refused failed := .of_textures failed.accountable
  unit _ _ _ := .of_device (Device.sameStock_bindTexture _ _ _)
  program _ _ := .of_device (Device.sameStock_useProgram _ _)
  value _ _ _ := .of_device (Device.sameStock_setUniform _ _ _)
  clear _ _ := .of_device (Device.sameStock_clear _ _)
  draw _ := .of_device (Device.sameStock_draw _)

theorem pixels_accountable (renderer : Renderer ℓ) (width height : Nat) :
    Accountable renderer
      { renderer with device := (renderer.device.readPixels width height).2 } :=
  .of_device (Device.sameStock_readPixels _ _ _)

theorem output_accountable : Keeps Accountable (output : Action (Renderer ℓ) Picture) :=
  tracksDrawing_accountable.output pixels_accountable

/-- A pool that was there for a while is deleted behind what was done with it, and what the
first pool owns was beside the stock meanwhile. -/
theorem Accountable.of_inner {before inner : Renderer ℓ} {own pool : RenderTargets}
    (empty : own.handles = []) (accountable : Accountable { before with targets := own } inner)
    (same : pool.handles = inner.targets.handles) (idle : pool.Idle) :
    Accountable before { inner with
      device := (RenderTargets.delete.runOn (inner.device, pool)).2.1
      targets := before.targets } := by
  refine ⟨fun stock owns => ?_, accountable.programs⟩
  have within : Owns (stock.addCanvases before.targets.handles)
      { before with targets := own } := by
    rw [Owns, empty, Stock.addCanvases_nil]
    exact owns_iff_targets.mp owns
  have later := accountable.owns _ within
  rw [Owns, ← same] at later
  exact owns_iff_targets.mpr (Yields.after_iff.mp (RenderTargets.delete_stocked idle later))

section

variable [TextureLoader ℓ]

theorem tracksFrame_accountable : TracksFrame (@Accountable ℓ) fun _ => Accountable where
  toTracksDrawing := tracksDrawing_accountable
  asked renderer layer _ := .of_same (.refl _)
    (((renderer.external.handles_request layer _).append_left _).cons _) rfl rfl
  begun _ _ _ _ _ := .of_same (.refl _) (.refl _) rfl rfl
  drained := by
    refine Keeps.within ExternalLayers.tracksDrain_accountable.drain
      fun renderer changed accountable => ⟨fun stock owns => ?_, rfl⟩
    rw [owns_iff_external] at owns ⊢
    exact accountable _ owns
  polled _ := .of_textures (TextureCache.poll_accountable _)
  heard tree _ _ _ := by
    refine .of_same ?_ (.refl _) rfl rfl
    unfold hear
    dsimp only
    split
    · exact Device.sameStock_uploadTexture _ _ _ _ _
    · exact .refl _

/-- **A frame is accountable**, whether it fails or not. -/
theorem render_accountable (tree : CompiledTree) (input : FrameInput) :
    Keeps Accountable (render tree input : Action (Renderer ℓ) FrameStats) := by
  intro renderer
  refine render_yields (tracksFrame_accountable.drawFrame tracksPool_accountable tree input renderer)
    fun _ after before => IsTrans.trans _ _ _ before ?_
  exact .of_same (.refl _) (.refl _) (RenderTargets.handles_reclaim _) rfl

/-! ### Previews -/

/-- **Previews are accountable**: their own pool is deleted behind them. -/
theorem previews_accountable (tree : CompiledTree) (ids : List String) (width height : Nat)
    (date : List Float32) :
    Keeps Accountable (previews tree ids width height date :
      Action (Renderer ℓ) (List (String × Picture))) := by
  intro renderer
  have balanced := drawPreviews_balanced tree { time := renderer.lastTime, date } ids
    { renderer with targets := { width := max width 1, height := max height 1, antiAlias := 1 } }
    RenderTargets.idle_empty
  have accountable := Keeps.mapM (tracksDrawing_accountable.drawPreview pixels_accountable
    tracksPool_accountable tree { time := renderer.lastTime, date } fun _ _ _ _ => trivial) ids
    { renderer with targets := { width := max width 1, height := max height 1, antiAlias := 1 } }
  refine previews_yields (balanced.and accountable) ?_ ?_
  · rintro pictures inner ⟨balance, same⟩
    have owned := Accountable.of_inner rfl same rfl balance.holding
    exact ⟨owned, fun _ => owned⟩
  · rintro failure inner ⟨⟨held, balance⟩, same⟩
    exact .of_inner rfl same (RenderTargets.handles_reclaim _) balance.holding.reclaim

end

/-! ### Between frames -/

/-- What is forgotten is deleted. -/
theorem prune_accountable (tree : CompiledTree) (renderer : Renderer ℓ) :
    Accountable renderer (prune tree renderer) := by
  have external : Accountable renderer { renderer with
      device := (ExternalLayers.retain tree.layerIds renderer.device renderer.external).1
      external := (ExternalLayers.retain tree.layerIds renderer.device renderer.external).2 } := by
    refine ⟨fun stock owns => ?_, rfl⟩
    rw [owns_iff_external] at owns ⊢
    exact ExternalLayers.retain_stocked tree.layerIds renderer.external owns
  refine IsTrans.trans _ _ _ external ⟨fun stock owns => ?_, rfl⟩
  rw [owns_iff_textures] at owns ⊢
  exact TextureCache.retain_stocked tree.textureKeys renderer.textures owns

/-- Where targets of another size could be made, the old ones are there no more. -/
theorem rebuildTargets_owns (width height : Nat) (idle : renderer.targets.Idle)
    (owns : renderer.Owns stock) :
    (rebuildTargets width height : Action (Renderer ℓ) Unit).Yields renderer
      (fun _ after => after.Owns stock ∧ after.programs = renderer.programs) fun _ _ => True := by
  unfold rebuildTargets
  have created := RenderTargets.create_stocked owns width height renderer.options.antiAlias
  refine Yields.get (Yields.bind (Yields.within created) ?_ fun _ _ _ => trivial)
  rintro rebuilt _ ⟨later, stocked, rfl⟩
  -- both pools are there, and the old one is the last part of what there is
  have both : later.Stocked (((stock.addTextures renderer.others).addCanvases
      rebuilt.handles).addCanvases renderer.targets.handles) := by
    rwa [← Stock.addCanvases_append, Stock.addCanvases_perm _ List.perm_append_comm,
      Stock.addCanvases_append]
  have deleted : RenderTargets.delete.Yields (later, renderer.targets)
      (fun _ after => after.1.Stocked _) fun _ _ => True := RenderTargets.delete_stocked idle both
  refine Yields.modify ?_
  refine Yields.mono (Yields.within deleted) ?_ fun _ _ _ => trivial
  rintro _ _ ⟨_, left, rfl⟩
  exact ⟨left, rfl⟩

/-- **A renderer that gets another size is accountable**, if it gets it. -/
theorem resize_owns (width height : Nat) (idle : renderer.targets.Idle)
    (owns : renderer.Owns stock) :
    (resize width height : Action (Renderer ℓ) Unit).Yields renderer
      (fun _ after => after.Owns stock ∧ after.programs = renderer.programs) fun _ _ => True := by
  have inPlace : (onTargets (RenderTargets.resize width height) : Action (Renderer ℓ) Unit).Yields
      renderer (fun _ after => after.Owns stock ∧ after.programs = renderer.programs)
      fun _ _ => True :=
    (onTargets_accountable (RenderTargets.resize_accountable width height) renderer).mono
      (fun _ _ accountable => ⟨accountable.owns stock owns, accountable.programs⟩)
      fun _ _ _ => trivial
  unfold resize
  refine Yields.get ?_
  split
  · exact Yields.pure ⟨owns, rfl⟩
  · split
    · exact inPlace.bind (fun _ _ kept => Yields.modified kept) fun _ _ _ => trivial
    · exact (rebuildTargets_owns width height idle owns).bind
        (fun _ _ kept => Yields.modified kept) fun _ _ _ => trivial

end Renderer
end Collage
