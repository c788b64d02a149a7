import Collage.Proofs.Frame.Presenting
import Collage.Proofs.Frame.Refusals
import Collage.Proofs.Frame.Requests

/-!
# Compositing targets is compositing pictures

`Paints studio step sketch` says that a step on targets does what a step on pictures
does: the target that holds the result so far is replaced by one that shows the picture
which `sketch` makes of its picture, and all other targets that are held keep theirs.
Only the device can fail.  As steps one after another do what pictures one after another
do (`Paints.comp`), and a group on its own is composited like one picture
(`compositeIsolated_paints`), this carries over from layers to trees by the rules of
`Composing` (`composing_paints`).

`render_composes` says it of frames: whatever free targets show, the target that is
presented shows the picture `Studio.composed`, and the output shows what `Copying.output`
makes of it; a frame that fails does so where the device refused something.  The renderer has to be
sound, as all are that there are (`Reached.sound`).
-/

namespace Collage
namespace Renderer

open Collage.Action

variable {ℓ ι : Type} {studio : Studio ι} {renderer : Renderer ℓ} {views : List (Handle × ι)}
  {held : List (Nat × ι)} {memory : Memory ι} {read : Nat} {below : ι}

/-- A step on targets does what a step on pictures does. -/
def Paints (studio : Studio ι) (step : Nat → Action (Renderer ℓ) Nat)
    (sketch : ι → StateM (Memory ι) ι) : Prop :=
  ∀ ⦃renderer read below held memory⦄, Stage studio renderer ((read, below) :: held) memory →
    (step read).Yields renderer
      (fun out after => Stage studio after ((out, ((sketch below).run memory).1) :: held)
        ((sketch below).run memory).2)
      fun failure _ => failure.OfDevice

namespace Paints

variable {step next : Nat → Action (Renderer ℓ) Nat} {sketch other : ι → StateM (Memory ι) ι}

theorem skip : Paints studio (pure : Nat → Action (Renderer ℓ) Nat) pure :=
  fun _ _ _ _ _ h => Yields.pure h

/-- **Steps one after another.** -/
theorem comp (h : Paints studio step sketch) (h' : Paints studio next other) :
    Paints studio (fun read => step read >>= next) fun below => sketch below >>= other :=
  fun _ _ _ _ _ stage => (h stage).bind (fun _ _ stage => h' stage) fun _ _ failed => failed

end Paints

/-! ### One layer -/

/-- **A picture that is drawn over the one below takes its place.** -/
theorem redraw_stage (h : Stage studio renderer ((read, below) :: held) memory)
    (seen : ∀ view ∈ views, renderer.Bystander ((read, below) :: held) view.1 ∧
      (renderer.device.canvas studio.painter).shown view.1 = view.2)
    {draw : Nat → Action (Renderer ℓ) Unit} {result : ι × Memory ι}
    {failed : Failure → Renderer ℓ → Prop}
    (drawn : ∀ {out taken}, Ready studio taken out views ((read, below) :: held) memory →
      (draw out).Yields taken
        (fun _ after => Stage studio after ((out, result.1) :: (read, below) :: held) result.2)
        failed)
    (none : ∀ failure after, failure.OfDevice ∧ after.targets = renderer.targets →
      failed failure after) :
    (startTarget >>= fun out => draw out >>= fun _ => swapRead read out :
      Action (Renderer ℓ) Nat).Yields renderer
      (fun out after => Stage studio after ((out, result.1) :: held) result.2) failed := by
  refine (startTarget_ready h seen).bind (fun out taken ready => ?_) none
  refine (drawn ready).bind (fun _ after stage => ?_) fun _ _ failed => failed
  have swapped := stage.perm (List.Perm.swap _ _ _)
  exact (releaseTarget_stage swapped).bind (fun _ _ stage => Yields.pure stage)
    fun _ _ failed => failed

/-- What compositing a texture draws to the target that was taken for it. -/
def drawTexture (texture : Handle) (frame : FrameContext) (blend : BlendMode) (opacity : Float32)
    (read : Nat) : Action (Renderer ℓ) Unit := do
  let standing := (← get).programs.texture
  drawWith standing.program standing.builtins frame blend opacity read
    (changeDevice fun device =>
      (device.bindTexture firstFreeUnit (some texture)).setUniform standing.texture
        (.ints [firstFreeUnit]))

theorem compositeTexture_eq (texture : Handle) (frame : FrameContext) (blend : BlendMode)
    (opacity : Float32) (read : Nat) :
    (compositeTexture texture frame blend opacity read : Action (Renderer ℓ) Nat) =
      startTarget >>= fun out => drawTexture texture frame blend opacity read >>= fun _ =>
        swapRead read out := by
  unfold compositeTexture drawTexture
  simp only [bind_assoc]

theorem drawTexture_stage {out : Nat} {texture : Handle} {picture : ι}
    (h : Ready studio renderer out [(texture, picture)] held memory) (inside : (read, below) ∈ held)
    (blend : BlendMode) (opacity : Float32) {failed : Failure → Renderer ℓ → Prop} :
    (drawTexture texture studio.frame blend opacity read : Action (Renderer ℓ) Unit).Yields renderer
      (fun _ after => Stage studio after
        ((out, ((studio.overlay picture blend opacity below).run memory).1) :: held)
        ((studio.overlay picture blend opacity below).run memory).2) failed := by
  obtain ⟨stale, stage⟩ := h.stage
  have standing : renderer.programs.texture = studio.texture := congrArg Studio.texture stage.same
  unfold drawTexture
  refine Yields.get ?_
  dsimp only
  rw [standing]
  refine drawWith_stage h inside studio.texture.program studio.texture.builtins blend opacity
    _ ?_
  intro units memory renderer drawing
  exact Yields.modified ((drawing.bindTexture (drawing.views _ List.mem_cons_self)
    firstFreeUnit).setUniform _ _)

/-- A texture that shows a picture is composited as the picture is.  Where the device fails, the
targets are as they were. -/
theorem compositeTexture_stage (h : Stage studio renderer ((read, below) :: held) memory)
    {texture : Handle} (bystander : renderer.Bystander ((read, below) :: held) texture)
    {picture : ι} (shows : (renderer.device.canvas studio.painter).shown texture = picture)
    (blend : BlendMode) (opacity : Float32) :
    (compositeTexture texture studio.frame blend opacity read : Action (Renderer ℓ) Nat).Yields
      renderer
      (fun out after => Stage studio after
        ((out, ((studio.overlay picture blend opacity below).run memory).1) :: held)
        ((studio.overlay picture blend opacity below).run memory).2)
      fun failure after => failure.OfDevice ∧ after.targets = renderer.targets := by
  have seen : ∀ view ∈ [(texture, picture)], renderer.Bystander ((read, below) :: held) view.1 ∧
      (renderer.device.canvas studio.painter).shown view.1 = view.2 := by
    intro view inside
    cases List.mem_singleton.mp inside
    exact ⟨bystander, shows⟩
  rw [compositeTexture_eq]
  exact redraw_stage h seen (fun ready => drawTexture_stage ready List.mem_cons_self blend opacity)
    fun _ _ failed => failed

section

variable [TextureLoader ℓ]

theorem compositeShader_paints (layer : CompiledLayer) (shader : LayerProgram) (scale : Float32) :
    Paints studio
      (compositeShader studio.tree studio.frame layer shader scale : Nat → Action (Renderer ℓ) Nat)
      (studio.shader layer shader scale) := by
  intro renderer read below held memory h
  rw [compositeShader_eq]
  refine redraw_stage h (List.forall_mem_nil _) (fun {out taken} ready => ?_)
    fun _ _ failed => failed.1
  unfold drawShader Studio.shader
  cases shader.program with
  | none =>
    exact Yields.modify (count_stage (ready.clear failedColor) _)
  | some program =>
    refine Yields.bind (drawWith_stage ready List.mem_cons_self program shader.builtins layer.blend
      (layer.opacity * scale) (studio.prepare program firstFreeUnit
        (placedUniforms studio.tree layer shader)) ?_) ?_ fun _ _ failed => failed
    · intro units memory renderer drawing
      exact writeUniforms_drawing _ _ drawing
    · exact fun _ _ stage => count_stage stage _

end

/-- A texture of the renderer that is no target's is a bystander. -/
theorem Stage.bystander_other (h : Stage studio renderer held memory) {texture : Handle}
    (other : texture ∈ renderer.others) : renderer.Bystander held texture :=
  ⟨RenderTargets.Apart.given h.apart texture other,
    fun _ _ found same => absurd same.symm (h.apart.ne_other found other)⟩

theorem Stage.bystander_held (h : Stage studio renderer held memory) {id : Nat} {picture : ι}
    (inside : (id, picture) ∈ held) {target : RenderTarget}
    (found : renderer.targets.targets[id]? = some target) :
    renderer.Bystander held target.texture := by
  refine ⟨(RenderTargets.Apart.below h.apart _ (mem_handles found)).2,
    fun other shared there same => ?_⟩
  have again := h.apart.eq_of_texture there found same
  exact again ▸ List.mem_map_of_mem inside

theorem compositeScript_paints (layer : CompiledLayer) (code : String) (scale : Float32) :
    Paints studio
      (compositeScript studio.frame layer code scale : Nat → Action (Renderer ℓ) Nat)
      (studio.script layer scale) := by
  intro renderer read below held memory h
  have run : (studio.script layer scale below).run memory =
      (studio.scripts layer.id).elim (below, ((studio.request layer).run memory).2) fun picture =>
        (studio.overlay picture layer.blend (layer.opacity * scale) below).run
          ((studio.request layer).run memory).2 := by
    unfold Studio.script
    rw [StateT.run_bind]
    cases studio.scripts layer.id <;> rfl
  rw [run]
  unfold compositeScript
  refine (requestScript_stage h layer code).bind ?_ fun _ _ failed => failed
  intro _ asked stage
  refine Yields.get ?_
  have scripts : (asked.external.texture? layer.id).map (asked.device.canvas studio.painter).shown =
      studio.scripts layer.id := congrFun (congrArg Studio.scripts stage.same) layer.id
  rw [← scripts]
  cases found : asked.external.texture? layer.id with
  | none => exact Yields.pure stage
  | some texture =>
    refine Yields.modify ?_
    have counted := stage.of_stats { asked.stats with layersDrawn := asked.stats.layersDrawn + 1 }
    exact (compositeTexture_stage counted (counted.bystander_other (script_mem_others found)) rfl
      layer.blend (layer.opacity * scale)).mono (fun _ _ stage => stage) fun _ _ failed => failed.1

/-! ### Groups -/

/-- A picture in a target that is held is composited, and the target is given back. -/
theorem compositeHeld_stage {isolated : Nat} {picture : ι}
    (h : Stage studio renderer ((read, below) :: (isolated, picture) :: held) memory)
    {shown : RenderTarget} (found : renderer.targets.targets[isolated]? = some shown)
    (blend : BlendMode) (opacity : Float32) :
    ((compositeTexture shown.texture studio.frame blend opacity read).followedBy
        (releaseTarget isolated) : Action (Renderer ℓ) Nat).Yields renderer
      (fun out after => Stage studio after
        ((out, ((studio.overlay picture blend opacity below).run memory).1) :: held)
        ((studio.overlay picture blend opacity below).run memory).2)
      fun failure _ => failure.OfDevice := by
  have inside : (isolated, picture) ∈ (read, below) :: (isolated, picture) :: held :=
    List.mem_cons_of_mem _ List.mem_cons_self
  obtain ⟨target, there, shows⟩ := h.shows _ inside
  rw [found] at there
  cases there
  refine Yields.followedBy
    (compositeTexture_stage h (h.bystander_held inside found) shows blend opacity) ?_ ?_
  · intro out after stage
    exact releaseTarget_stage (stage.perm (List.Perm.swap _ _ _))
  · -- nothing else than the device can fail now: the target is held, and can be given back
    rintro failure after ⟨device, same⟩
    have taken : renderer.targets.Holding (isolated :: read :: held.map (·.1)) :=
      h.holding.perm (List.Perm.swap _ _ _)
    rw [← same] at taken
    exact (releaseTarget_balanced taken 0).mono (fun _ _ _ => device) fun _ _ failed => failed

/-- **A group on its own is composited like one picture**, that of its layers over a transparent
one. -/
theorem compositeIsolated_paints (layer : CompiledLayer) (scale : Float32)
    {inside : Nat → Action (Renderer ℓ) Nat} {sketch : ι → StateM (Memory ι) ι}
    (h : Paints studio inside sketch) :
    Paints studio (fun read => compositeIsolated studio.frame layer scale read inside)
      fun below => sketch (studio.painter.fill transparent) >>= fun picture =>
        studio.overlay picture layer.blend (layer.opacity * scale) below := by
  intro renderer read below held memory stage
  refine (startTarget_ready stage (List.forall_mem_nil _)).bind ?_ fun _ _ failed => failed.1
  intro start taken ready
  refine Yields.modify ?_
  -- the target is cleared before its layers are drawn, so nothing of what it showed is left
  refine (h (ready.clear transparent)).bind ?_ fun _ _ failed => failed
  intro isolated drawn stage
  obtain ⟨shown, found, _⟩ := stage.shows _ List.mem_cons_self
  refine target_yields found ?_
  exact compositeHeld_stage (stage.perm (List.Perm.swap _ _ _)) found layer.blend
    (layer.opacity * scale)

/-! ### All layers -/

/-- One layer alone is the layer: what is done behind it is `pure`. -/
theorem Paints.single {step : Nat → Action (Renderer ℓ) Nat} {view : LayerTree} {scale : Float32}
    (h : Paints studio step fun below => studio.paint view scale below) :
    Paints studio step (studio.paintEach [view] scale) :=
  h

section

variable [TextureLoader ℓ]

/-- **Layers paint what their trees do.** -/
theorem composing_paints : Composing studio.tree studio.frame
    fun scale views (draw : Nat → Action (Renderer ℓ) Nat) =>
      Paints studio draw (studio.paintEach views scale) where
  nothing := @fun _ => Paints.skip
  hidden hidden := by
    refine Paints.single ?_
    simp only [Studio.paint, hidden]
    exact Paints.skip
  distance visible kind := by
    refine Paints.single ?_
    simp only [Studio.paint, visible, kind, if_true]
    exact Paints.skip
  shader visible kind := by
    refine Paints.single ?_
    simp only [Studio.paint, visible, kind, if_true]
    exact compositeShader_paints _ _ _
  script visible kind := by
    refine Paints.single ?_
    simp only [Studio.paint, visible, kind, if_true]
    exact compositeScript_paints _ _ _
  through visible kind through painted := by
    refine Paints.single ?_
    simp only [Studio.paint, visible, kind, through, if_true]
    exact painted
  isolated visible kind alone painted := by
    refine Paints.single ?_
    simp only [Studio.paint, visible, kind, alone, if_true, if_false]
    exact compositeIsolated_paints _ _ painted
  followed rest first := rest.comp first

theorem compositeTree_paints : Paints studio
    (compositeTree studio.tree studio.frame : Nat → Action (Renderer ℓ) Nat)
    (studio.paintEach studio.tree.drawn 1) :=
  composing_paints.drawn

end

/-! ### Frames -/

theorem Rests.stage {before : Renderer ℓ} (h : Rests before renderer) (sound : before.Sound)
    (painter : Painter ι) (tree : CompiledTree) (frame : FrameContext) :
    Stage (renderer.studio painter tree frame) renderer [] (renderer.memory painter) :=
  ⟨h.targets ▸ sound.idle, h.apart sound.apart, List.forall_mem_nil _, rfl, rfl⟩

/-- **Finishing a frame shows its picture on the output**, and cannot fail. -/
theorem finishFrame_output {picture : ι} (h : Stage studio renderer [(read, picture)] memory)
    {failed : Failure → Renderer ℓ → Prop} :
    (finishFrame read : Action (Renderer ℓ) FrameStats).Yields renderer
      (fun _ after => (after.device.canvas studio.painter).output =
        some (renderer.copying.output studio.painter
          (memory.given renderer.programs.copy.program) picture)) failed := by
  have shown : (present read : Action (Renderer ℓ) Unit).Yields renderer _ fun _ _ => False :=
    present_output h.holding h.apart (h.shows _ List.mem_cons_self)
  unfold finishFrame
  refine (shown.and (tracks_rests.present read renderer)).bind ?_ fun _ _ never => never.1.elim
  rintro _ after ⟨output, rests⟩
  have holding : after.targets.Holding [read] := by
    rw [rests.targets]
    exact h.holding
  obtain ⟨targets, released, _⟩ := holding.release
  refine (releaseTarget_yields released).bind ?_ fun _ _ failed => failed
  rintro _ _ rfl
  refine Yields.get (Yields.pure ?_)
  rw [output, ← h.recalls]
  rfl

section

variable [TextureLoader ℓ]

/-- **Composing a frame composes its picture**, whatever the free targets show. -/
theorem composeFrame_stage (h : Stage studio renderer [] memory) :
    (composeFrame studio.tree studio.frame : Action (Renderer ℓ) Nat).Yields renderer
      (fun read after => Stage studio after [(read, (studio.composed.run memory).1)]
        (studio.composed.run memory).2)
      fun failure _ => failure.OfDevice := by
  unfold composeFrame
  refine (startTarget_ready h (List.forall_mem_nil _)).bind ?_ fun _ _ failed => failed.1
  intro start taken ready
  exact Yields.modify (compositeTree_paints (ready.clear transparent))

/-- A frame that was drawn, taken apart: it was prepared, composed on a target and finished.
The target shows the picture that compositing pictures gives, and the output shows what
copying makes of it. -/
structure Drawn (painter : Painter ι) (tree : CompiledTree) (input : FrameInput)
    (renderer : Renderer ℓ) (stats : FrameStats) (after : Renderer ℓ) (frame : FrameContext)
    (prepared : Renderer ℓ) (read : Nat) (composed : Renderer ℓ) : Prop where
  prepares : (prepareFrame tree input).runOn renderer = (.ok frame, prepared)
  composes : (composeFrame tree frame).runOn prepared = (.ok read, composed)
  finishes : (finishFrame read).runOn composed = (.ok stats, after)
  shows : composed.Shows painter read
    ((prepared.studio painter tree frame).composed.run (prepared.memory painter)).1
  output : (after.device.canvas painter).output =
    some (composed.copying.output painter
      (((prepared.studio painter tree frame).composed.run (prepared.memory painter)).2.given
        composed.programs.copy.program)
      ((prepared.studio painter tree frame).composed.run (prepared.memory painter)).1)

/-- Frames show pictures, unless the device refuses a texture or a target; one that never runs out
of memory and has room for targets refuses nothing. -/
structure Composes (renderer : Renderer ℓ) (painter : Painter ι) (tree : CompiledTree)
    (input : FrameInput) : Prop where
  drawn : ∀ stats after, (render tree input).runOn renderer = (.ok stats, after) →
    ∃ frame prepared read composed,
      Drawn painter tree input renderer stats after frame prepared read composed
  failed : ∀ failure after, (render tree input).runOn renderer = (.error failure, after) →
    failure.OfDevice ∧
      Device.Declined renderer.targets.renderSize renderer.device after.device
  succeeds : renderer.device.traits.Ample →
    RenderTargets.Room renderer.device.traits renderer.targets.renderSize →
    ∃ stats after, (render tree input).runOn renderer = (.ok stats, after)

theorem drawFrame_draws (sound : renderer.Sound) (painter : Painter ι) (tree : CompiledTree)
    (input : FrameInput) :
    (drawFrame tree input : Action (Renderer ℓ) FrameStats).Yields renderer
      (fun stats after => ∃ frame prepared read composed,
        Drawn painter tree input renderer stats after frame prepared read composed)
      fun failure _ => failure.OfDevice := by
  rw [drawFrame_eq]
  refine ((prepareFrame_onlyDevice tree input renderer).and
    (tracksFrame_rests.prepareFrame tree input renderer)).ran.bind ?_ fun _ _ failed => failed.1
  rintro frame prepared ⟨prepares, _, rests⟩
  refine (composeFrame_stage (rests.stage sound painter tree frame)).ran.bind ?_
    fun _ _ failed => failed
  rintro read composed ⟨composes, stage⟩
  refine (finishFrame_output stage).ran.mono ?_ fun _ _ failed => failed
  rintro stats after ⟨finishes, output⟩
  exact ⟨frame, prepared, read, composed, prepares, composes, finishes,
    stage.shows _ List.mem_cons_self, output⟩

/-- **Compositing targets is compositing pictures.**  Whatever free targets show, and however
they are listed, the target that a frame presents shows the picture of its tree, unless the
device refuses something. -/
theorem render_composes (sound : renderer.Sound) (painter : Painter ι) (tree : CompiledTree)
    (input : FrameInput) : renderer.Composes painter tree input := by
  have draws : Yields _ _ _ fun failure _ => failure.OfDevice :=
    render_yields (drawFrame_draws sound painter tree input) fun _ _ failed => failed
  have faults := render_faults tree input renderer
  have failed : ∀ failure after, (render tree input).runOn renderer = (.error failure, after) →
      failure.OfDevice ∧
        Device.Declined renderer.targets.renderSize renderer.device after.device := by
    intro failure after rendered
    have ofDevice := Yields.of_error rendered draws
    exact ⟨ofDevice, (Yields.of_error rendered faults).device.2 ofDevice⟩
  refine ⟨fun _ _ rendered => Yields.of_ok rendered draws, failed, fun ample room => ?_⟩
  cases rendered : (render tree input).runOn renderer with
  | mk result after =>
    cases result with
    | ok stats => exact ⟨stats, after, rfl⟩
    | error failure =>
      exact absurd (failed failure after rendered).2 (Device.not_declined_of_ample ample room)

end

/-- Pictures of one color; programs show what is below. -/
def flat : Painter (Color Float32) where
  unknown _ := failedColor
  fill color := color
  upload _ _ _ := transparent
  draw _ _ _ units := (units previousUnit).getD transparent

theorem render_composes_bare : bare.Sound ∧ bare.Composes flat veiled {} ∧
    ∃ stats after frame prepared read composed,
      Drawn flat veiled {} bare stats after frame prepared read composed := by
  have composes := render_composes bare_sound flat veiled {}
  obtain ⟨stats, after, rendered⟩ := composes.succeeds ample_bare room_bare
  exact ⟨bare_sound, composes, stats, after, composes.drawn stats after rendered⟩

end Renderer
end Collage
