import Collage.Proofs.Frame.Balance
import Collage.Proofs.Frame.Reference

/-!
# Targets that show pictures

`Stage studio renderer held memory` ties a renderer to the compositing of pictures: the
targets of `held` are in use and show the pictures that stand beside them, and all that
pictures are made with is what `studio` and `memory` say.  Free targets may show
anything.  While something is drawn, `Drawing` says besides what is drawn to, with which
program, and what the program sees.

Here are the steps that everything else is made of: taking a target (`startTarget_ready`),
taking up a program and giving it values and textures (`Ready.useProgram`,
`Drawing.setUniform`, `Drawing.bindTexture`), drawing and filling (`Drawing.draw`,
`Ready.clear`), and giving a target back (`releaseTarget_stage`).
-/

namespace Collage

namespace Renderer

open Collage.Action
open RenderTargets (Holding UsedAs)

variable {ℓ ι : Type}

/-! ### What pictures are made with -/

section

variable (painter : Painter ι)

/-- What stays the same while layers are drawn. -/
def studio (tree : CompiledTree) (frame : FrameContext) (renderer : Renderer ℓ) : Studio ι where
  painter
  tree
  frame
  levels := renderer.levels
  builtins locations blend opacity := builtinWrites locations frame renderer blend opacity
  size := renderer.targets.renderSize
  texture := renderer.programs.texture
  spectrum := (renderer.device.canvas painter).shown renderer.spectrum
  scripts id := (renderer.external.texture? id).map (renderer.device.canvas painter).shown
  requests := if renderer.external.connected then renderer.external.framesAhead else 0

/-- What goes on from layer to layer. -/
def memory (renderer : Renderer ℓ) : Memory ι where
  input := renderer.input
  inFlight id := (renderer.external.stateOf id).inFlight
  given := (renderer.device.canvas painter).given
  pictures key :=
    (renderer.textures.get? key).map fun entry =>
      (renderer.device.canvas painter).shown entry.texture

/-- A target shows a picture. -/
def Shows (renderer : Renderer ℓ) (id : Nat) (picture : ι) : Prop :=
  ∃ target, renderer.targets.targets[id]? = some target ∧
    (renderer.device.canvas painter).shown target.texture = picture

end

/-- The targets of `held` show pictures, and pictures are made with what `studio` and `memory`
say. -/
structure Stage (studio : Studio ι) (renderer : Renderer ℓ) (held : List (Nat × ι))
    (memory : Memory ι) : Prop where
  holding : renderer.targets.Holding (held.map (·.1))
  apart : renderer.Apart
  shows : ∀ entry ∈ held, renderer.Shows studio.painter entry.1 entry.2
  same : renderer.studio studio.painter studio.tree studio.frame = studio
  recalls : renderer.memory studio.painter = memory

/-- A target was taken for a picture and is drawn to; textures of `views` can be seen. -/
structure Ready (studio : Studio ι) (renderer : Renderer ℓ) (out : Nat) (views : List (Handle × ι))
    (held : List (Nat × ι)) (memory : Memory ι) : Prop where
  stage : ∃ stale, Stage studio renderer ((out, stale) :: held) memory
  goal : ∃ target, renderer.targets.targets[out]? = some target ∧
    (renderer.device.canvas studio.painter).goal = some target.texture
  size : (renderer.device.canvas studio.painter).size = studio.size
  views : ∀ view ∈ views, renderer.device.Sees studio.painter view.1 view.2

/-- A program draws to a target and sees pictures in its units. -/
structure Drawing (studio : Studio ι) (renderer : Renderer ℓ) (out : Nat) (program : Handle)
    (units : Units ι) (views : List (Handle × ι)) (held : List (Nat × ι)) (memory : Memory ι) : Prop
    extends Ready studio renderer out views held memory where
  program : (renderer.device.canvas studio.painter).program = some program
  sight : (renderer.device.canvas studio.painter).sight = units
  given : ∀ unit texture, (renderer.device.canvas studio.painter).units unit = some texture →
    texture < renderer.device.nextHandle

/-! ### Changes of the device -/

section

variable {painter : Painter ι} {renderer : Renderer ℓ} {device : Device}

theorem spectrum_mem_others : renderer.spectrum ∈ renderer.others :=
  List.mem_cons_self

theorem texture_mem_others {key : TextureKey} {entry : CachedTexture}
    (found : renderer.textures.get? key = some entry) : entry.texture ∈ renderer.others :=
  List.mem_cons_of_mem _ (List.mem_append_left _
    (List.mem_map_of_mem (Table.mem_values_of_get? found)))

theorem script_mem_others {layer : String} {texture : Handle}
    (found : renderer.external.texture? layer = some texture) : texture ∈ renderer.others := by
  obtain ⟨state, there, same⟩ := Option.bind_eq_some_iff.mp found
  exact List.mem_cons_of_mem _ (List.mem_append_right _ (ExternalLayers.mem_handles there same))

/-- Where the textures besides those of the targets show the same, pictures are made with the
same. -/
theorem studio_device (tree : CompiledTree) (frame : FrameContext)
    (shown : ∀ texture ∈ renderer.others,
      (device.canvas painter).shown texture = (renderer.device.canvas painter).shown texture) :
    studio painter tree frame { renderer with device } = studio painter tree frame renderer := by
  have spectrum := shown _ spectrum_mem_others
  have scripts : (fun id => (renderer.external.texture? id).map (device.canvas painter).shown) =
      fun id => (renderer.external.texture? id).map (renderer.device.canvas painter).shown := by
    funext id
    cases found : renderer.external.texture? id with
    | none => rfl
    | some texture => exact congrArg some (shown texture (script_mem_others found))
  unfold studio
  dsimp only
  rw [spectrum, scripts]
  rfl

theorem memory_device (shown : ∀ texture ∈ renderer.others,
      (device.canvas painter).shown texture = (renderer.device.canvas painter).shown texture) :
    memory painter { renderer with device } =
      { renderer.memory painter with given := (device.canvas painter).given } := by
  have pictures : (fun key => (renderer.textures.get? key).map fun entry =>
        (device.canvas painter).shown entry.texture) =
      fun key => (renderer.textures.get? key).map fun entry =>
        (renderer.device.canvas painter).shown entry.texture := by
    funext key
    cases found : renderer.textures.get? key with
    | none => rfl
    | some entry => exact congrArg some (shown entry.texture (texture_mem_others found))
  unfold memory
  dsimp only
  rw [pictures]

end

variable {studio : Studio ι} {renderer : Renderer ℓ} {out : Nat} {held : List (Nat × ι)}
  {views : List (Handle × ι)} {memory : Memory ι} {program : Handle} {units : Units ι}
  {device : Device}

theorem Stage.of_shown (h : Stage studio renderer held memory)
    (calm : Device.Calm renderer.device device)
    (shown : (device.canvas studio.painter).shown = (renderer.device.canvas studio.painter).shown) :
    Stage studio { renderer with device } held
      { memory with given := (device.canvas studio.painter).given } where
  holding := h.holding
  apart := RenderTargets.Apart.onward h.apart calm.onward rfl (.refl _)
  shows entry inside := by
    obtain ⟨target, found, shows⟩ := h.shows entry inside
    refine ⟨target, found, ?_⟩
    rw [← shows]
    exact congrFun shown target.texture
  same := (studio_device studio.tree studio.frame fun texture _ => congrFun shown texture).trans
    h.same
  recalls := by
    rw [memory_device fun texture _ => congrFun shown texture, h.recalls]

theorem mem_handles {id : Nat} {target : RenderTarget}
    (found : renderer.targets.targets[id]? = some target) :
    (target.framebuffer, target.texture) ∈ renderer.targets.handles :=
  List.mem_map_of_mem (List.mem_of_getElem? found)

theorem Apart.eq_of_texture {id other : Nat} {target shared : RenderTarget} (h : renderer.Apart)
    (found : renderer.targets.targets[id]? = some target)
    (found' : renderer.targets.targets[other]? = some shared)
    (same : target.texture = shared.texture) : id = other := by
  have equal : (renderer.targets.handles.map (·.2))[id]? =
      (renderer.targets.handles.map (·.2))[other]? := by
    simp only [RenderTargets.handles, List.getElem?_map, found, found', Option.map_some, same]
  refine (List.getElem?_inj ?_ (RenderTargets.Apart.once h)).mp equal
  rw [List.length_map, RenderTargets.handles, List.length_map]
  exact (List.getElem?_eq_some_iff.mp found).1

theorem Apart.ne_other {id : Nat} {target : RenderTarget} {texture : Handle} (h : renderer.Apart)
    (found : renderer.targets.targets[id]? = some target) (other : texture ∈ renderer.others) :
    texture ≠ target.texture :=
  fun same => RenderTargets.Apart.other h _ (mem_handles found) (same ▸ other)

theorem Stage.ne_held {stale : ι} (h : Stage studio renderer ((out, stale) :: held) memory)
    {target shared : RenderTarget} (found : renderer.targets.targets[out]? = some target)
    {entry : Nat × ι} (inside : entry ∈ held)
    (there : renderer.targets.targets[entry.1]? = some shared) :
    shared.texture ≠ target.texture := by
  intro same
  have again := h.apart.eq_of_texture there found same
  have once := (List.nodup_append.mp h.holding.once).1
  rw [List.map_cons, List.nodup_cons] at once
  have taken : entry.1 ∈ held.map (·.1) := List.mem_map_of_mem inside
  exact once.1 (again ▸ taken)

/-- Painting a target that is held changes its picture only. -/
theorem Stage.paint {stale picture : ι} {target : RenderTarget}
    (h : Stage studio renderer ((out, stale) :: held) memory)
    (found : renderer.targets.targets[out]? = some target)
    (calm : Device.Calm renderer.device device)
    (painted : device.canvas studio.painter =
      (renderer.device.canvas studio.painter).put target.texture picture) :
    Stage studio { renderer with device } ((out, picture) :: held) memory := by
  have shown : (device.canvas studio.painter).shown =
      Function.update (renderer.device.canvas studio.painter).shown target.texture picture := by
    rw [painted, Canvas.put]
  have given : (device.canvas studio.painter).given =
      (renderer.device.canvas studio.painter).given := by
    rw [painted, Canvas.put]
  have others : ∀ texture ∈ renderer.others, (device.canvas studio.painter).shown texture =
      (renderer.device.canvas studio.painter).shown texture := by
    intro texture inside
    rw [shown, Function.update_of_ne (h.apart.ne_other found inside)]
  refine ⟨h.holding, RenderTargets.Apart.onward h.apart calm.onward rfl (.refl _), ?_,
    (studio_device _ _ others).trans h.same, ?_⟩
  · intro entry inside
    rcases List.mem_cons.mp inside with rfl | inside
    · refine ⟨target, found, ?_⟩
      change (device.canvas studio.painter).shown target.texture = picture
      rw [shown, Function.update_self]
    · obtain ⟨other, there, shows⟩ := h.shows entry (List.mem_cons_of_mem _ inside)
      refine ⟨other, there, ?_⟩
      change (device.canvas studio.painter).shown other.texture = entry.2
      rw [shown, Function.update_of_ne (h.ne_held found inside there), shows]
  · rw [memory_device others, given, ← h.recalls]
    rfl

/-! ### Changes of the targets -/

/-- Taking a target or giving one back changes nothing that pictures are made with. -/
theorem Stage.of_targets {targets : RenderTargets} {others : List (Nat × ι)}
    (h : Stage studio renderer held memory)
    (shown : (device.canvas studio.painter).shown = (renderer.device.canvas studio.painter).shown)
    (given : (device.canvas studio.painter).given = (renderer.device.canvas studio.painter).given)
    (size : targets.renderSize = renderer.targets.renderSize)
    (level : targets.antiAlias = renderer.targets.antiAlias)
    (holding : targets.Holding (others.map (·.1))) (apart : targets.Apart device renderer.others)
    (shows : ∀ entry ∈ others, ∃ target, targets.targets[entry.1]? = some target ∧
      (renderer.device.canvas studio.painter).shown target.texture = entry.2) :
    Stage studio { renderer with device, targets } others memory := by
  refine ⟨holding, apart, fun entry inside => ?_, ?_, ?_⟩
  · obtain ⟨target, found, shows⟩ := shows entry inside
    exact ⟨target, found, (congrFun shown target.texture).trans shows⟩
  · have same := (studio_device studio.tree studio.frame fun texture _ =>
      congrFun shown texture).trans h.same
    rw [← same]
    unfold Renderer.studio builtinWrites
    dsimp only
    rw [size, level]
  · have recalls := (memory_device fun texture _ => congrFun shown texture).trans
      (congrArg (fun memory : Memory ι =>
        { memory with given := (device.canvas studio.painter).given }) h.recalls)
    rw [given, ← h.recalls] at recalls
    rw [← h.recalls]
    exact recalls

/-- A texture that belongs to no target, or to one that is held. -/
structure Bystander (renderer : Renderer ℓ) (held : List (Nat × ι)) (texture : Handle) : Prop where
  given : texture < renderer.device.nextHandle
  held : ∀ id target, renderer.targets.targets[id]? = some target → target.texture = texture →
    id ∈ held.map (·.1)

section

open RenderTargets (Handout)

variable {later : Device} {changed : RenderTargets}

theorem canvas_handout (painter : Painter ι) {targets : RenderTargets} {device : Device}
    (handout : Handout device targets out (later, changed)) :
    (later.canvas painter).shown = (device.canvas painter).shown ∧
      (later.canvas painter).given = (device.canvas painter).given := by
  rcases handout.handles_eq with ⟨rfl, _⟩ | ⟨_, _, _, created, _⟩
  · exact ⟨rfl, rfl⟩
  · rw [device.canvas_createFramebuffer painter created]
    exact ⟨rfl, rfl⟩

theorem Stage.of_handout (h : Stage studio renderer held memory)
    (handout : Handout renderer.device renderer.targets out (later, changed)) :
    ∃ stale, Stage studio { renderer with device := later, targets := changed }
      ((out, stale) :: held) memory := by
  have holding := handout.holding h.holding
  have grew := (handout.grew h.holding).1
  obtain ⟨target, found, _⟩ := holding.taken out List.mem_cons_self
  obtain ⟨shown, given⟩ := canvas_handout studio.painter handout
  have sizes : changed.renderSize = renderer.targets.renderSize ∧
      changed.antiAlias = renderer.targets.antiAlias := by
    cases handout <;> exact ⟨rfl, rfl⟩
  refine ⟨(renderer.device.canvas studio.painter).shown target.texture,
    h.of_targets shown given sizes.1 sizes.2 holding (grew.apart _ h.apart) ?_⟩
  intro entry inside
  rcases List.mem_cons.mp inside with rfl | inside
  · exact ⟨target, found, rfl⟩
  · obtain ⟨before, there, shows⟩ := h.shows entry inside
    obtain ⟨after, there', same⟩ := RenderTargets.texture_of_handles
      (handout.kept (List.getElem?_eq_some_iff.mp there).1) there
    exact ⟨after, there', by rw [same, shows]⟩

theorem Bystander.ne_handout {texture : Handle} (h : renderer.Bystander held texture)
    (holding : renderer.targets.Holding (held.map (·.1)))
    (handout : Handout renderer.device renderer.targets out (later, changed))
    {target : RenderTarget} (found : changed.targets[out]? = some target) :
    target.texture ≠ texture := by
  rintro rfl
  rcases handout.texture found with ⟨before, there, same⟩ | new
  · have once := (List.nodup_append.mp (handout.holding holding).once).1
    exact (List.nodup_cons.mp once).1 (h.held out before there same)
  · exact Nat.not_lt_of_le new h.given

end

theorem request_stage (h : Stage studio renderer held memory) :
    (onTargets RenderTargets.request : Action (Renderer ℓ) Nat).Yields renderer
      (fun out after => (∃ stale, Stage studio after ((out, stale) :: held) memory) ∧
        (after.device.canvas studio.painter).shown = (renderer.device.canvas studio.painter).shown ∧
        ∀ texture, renderer.Bystander held texture → texture < after.device.nextHandle ∧
          ∀ target, after.targets.targets[out]? = some target → target.texture ≠ texture)
      fun failure after => failure.OfDevice ∧ after.targets = renderer.targets := by
  refine (onTargets_yields
    (RenderTargets.request_yields renderer.device h.holding.alive)).mono ?_ ?_
  · rintro out _ ⟨⟨later, changed⟩, handout, rfl⟩
    have onward : Device.Onward renderer.device later := (handout.grew h.holding).1.onward
    refine ⟨h.of_handout handout, (canvas_handout studio.painter handout).1, ?_⟩
    intro texture bystander
    exact ⟨Nat.lt_of_lt_of_le bystander.given onward.handles,
      fun target found => bystander.ne_handout h.holding handout found⟩
  · rintro failure _ ⟨_, ⟨_, cause, _, _, same, rfl⟩, rfl⟩
    exact ⟨⟨cause, same⟩, rfl⟩

theorem target_yields {id : Nat} {found : RenderTarget}
    (there : renderer.targets.targets[id]? = some found) {α : Type}
    {next : RenderTarget → Action (Renderer ℓ) α} {ok : α → Renderer ℓ → Prop}
    {failed : Failure → Renderer ℓ → Prop} (rest : (next found).Yields renderer ok failed) :
    (target id >>= next).Yields renderer ok failed := by
  have found : (target id : Action (Renderer ℓ) RenderTarget).Yields renderer
      (fun value after => value = found ∧ after = renderer) failed := by
    unfold target
    refine Yields.get ?_
    rw [there]
    exact Yields.pure ⟨rfl, rfl⟩
  refine found.bind ?_ fun _ _ failed => failed
  rintro _ _ ⟨rfl, rfl⟩
  exact rest

theorem bindTarget_yields (renderer : Renderer ℓ) {id : Nat} {found : RenderTarget}
    (there : renderer.targets.targets[id]? = some found)
    {failed : Failure → Renderer ℓ → Prop} :
    (bindTarget id : Action (Renderer ℓ) Unit).Yields renderer
      (fun _ after => after = { renderer with
        device :=
          renderer.device.bindFramebuffer (some found.framebuffer) found.width found.height })
      failed := by
  unfold bindTarget
  exact target_yields there (Yields.modified rfl)

theorem bindTarget_ready {stale : ι} (h : Stage studio renderer ((out, stale) :: held) memory)
    (seen : ∀ view ∈ views, (renderer.device.canvas studio.painter).shown view.1 = view.2 ∧
      view.1 < renderer.device.nextHandle ∧ ∀ target, renderer.targets.targets[out]? = some target →
        target.texture ≠ view.1) {failed : Failure → Renderer ℓ → Prop} :
    (bindTarget out : Action (Renderer ℓ) Unit).Yields renderer
      (fun _ after => Ready studio after out views held memory) failed := by
  obtain ⟨found, there, use⟩ := h.holding.taken out List.mem_cons_self
  have size := h.holding.sized out found there (by rw [use]; exact TargetUse.noConfusion)
  have attached : (renderer.device.canvas studio.painter).attached found.framebuffer =
      some found.texture := by
    rw [Device.attached_canvas]
    exact RenderTargets.Apart.attached h.apart _ (mem_handles there)
  have stage := h.of_shown (renderer.device.calm_bindFramebuffer
    (some found.framebuffer) found.width found.height) rfl
  refine (bindTarget_yields renderer there).mono ?_ fun _ _ failed => failed
  rintro _ _ rfl
  refine ⟨⟨stale, ?_⟩, ⟨_, there, attached⟩, ?_, fun view inside => ?_⟩
  · rw [← h.recalls] at stage ⊢
    exact stage
  · rw [← h.same]
    exact size
  · obtain ⟨shown, given, other⟩ := seen view inside
    exact ⟨shown, fun same => other _ there (Option.some.inj (attached.symm.trans same)), given⟩

/-- **A target is taken and drawn to**, and bystanders can be seen.  Where the device fails, the
targets are as they were. -/
theorem startTarget_ready (h : Stage studio renderer held memory)
    (seen : ∀ view ∈ views, renderer.Bystander held view.1 ∧
      (renderer.device.canvas studio.painter).shown view.1 = view.2) :
    (startTarget : Action (Renderer ℓ) Nat).Yields renderer
      (fun out after => Ready studio after out views held memory)
      fun failure after => failure.OfDevice ∧ after.targets = renderer.targets := by
  refine (request_stage h).bind ?_ fun _ _ failed => failed
  rintro out taken ⟨⟨stale, stage⟩, shown, apart⟩
  refine (bindTarget_ready stage fun view inside => ?_).bind
    (fun _ after ready => Yields.pure ready) fun _ _ failed => failed
  obtain ⟨bystander, shows⟩ := seen view inside
  exact ⟨by rw [shown, shows], apart view.1 bystander⟩

theorem Stage.perm {others : List (Nat × ι)} (h : Stage studio renderer held memory)
    (same : held.Perm others) : Stage studio renderer others memory :=
  ⟨h.holding.perm (same.map _), h.apart,
    fun entry inside => h.shows entry (same.mem_iff.mpr inside), h.same, h.recalls⟩

theorem releaseTarget_stage {id : Nat} {picture : ι}
    (h : Stage studio renderer ((id, picture) :: held) memory)
    {failed : Failure → Renderer ℓ → Prop} :
    (releaseTarget id : Action (Renderer ℓ) Unit).Yields renderer
      (fun _ after => Stage studio after held memory) failed := by
  obtain ⟨changed, released, holding, same⟩ := h.holding.release
  refine (releaseTarget_yields released).mono ?_ fun _ _ failed => failed
  rintro _ _ rfl
  have handles : changed.handles = renderer.targets.handles := by
    rw [same]
    exact RenderTargets.handles_withUse _ _ _
  refine h.of_targets rfl rfl (by rw [same]; rfl) (by rw [same]; rfl) holding
    (RenderTargets.Apart.onward h.apart (.refl _) handles (.refl _)) fun entry inside => ?_
  obtain ⟨target, found, shows⟩ := h.shows entry (List.mem_cons_of_mem _ inside)
  obtain ⟨after, there, same⟩ := RenderTargets.texture_of_handles (by rw [handles]) found
  exact ⟨after, there, by rw [same, shows]⟩

/-! ### Calls while something is drawn -/

theorem Ready.memory_given (h : Ready studio renderer out views held memory) :
    { memory with given := (renderer.device.canvas studio.painter).given } = memory := by
  obtain ⟨stale, stage⟩ := h.stage
  rw [← stage.recalls]
  rfl

theorem Ready.drawing (h : Ready studio renderer out views held memory)
    (calm : Device.Calm renderer.device device)
    {given : Handle → Nat → Option UniformData} {handles : Nat → Option Handle}
    (changed : device.canvas studio.painter = { renderer.device.canvas studio.painter with
      program := some program, given, units := handles })
    (sight : Canvas.sight { renderer.device.canvas studio.painter with units := handles } = units)
    (below : ∀ unit texture, handles unit = some texture → texture < renderer.device.nextHandle) :
    Drawing studio { renderer with device } out program units views held { memory with given } := by
  obtain ⟨⟨stale, stage⟩, ⟨target, found, goal⟩, size, sees⟩ := h
  have next := stage.of_shown calm (by rw [changed])
  rw [changed] at next
  refine ⟨⟨⟨stale, next⟩, ⟨target, found, ?_⟩, ?_, fun view inside => ?_⟩, ?_, ?_, ?_⟩
  · exact (congrArg Canvas.goal changed).trans goal
  · exact (congrArg Canvas.size changed).trans size
  · obtain ⟨shown, other, given⟩ := sees view inside
    refine ⟨?_, ?_, Nat.lt_of_lt_of_le given calm.handles⟩
    · exact (congrFun (congrArg Canvas.shown changed) view.1).trans shown
    · exact fun same => other ((congrArg Canvas.goal changed).symm.trans same)
  · exact congrArg Canvas.program changed
  · exact (congrArg Canvas.sight changed).trans sight
  · intro unit texture seen
    refine Nat.lt_of_lt_of_le (below unit texture ?_) calm.handles
    exact (congrFun (congrArg Canvas.units changed) unit).symm.trans seen

/-- A program that is taken up sees nothing yet. -/
theorem Ready.useProgram (h : Ready studio renderer out views held memory) (program : Handle) :
    Drawing studio { renderer with device := renderer.device.useProgram program } out program
      (fun _ => none) views held memory := by
  rw [← h.memory_given]
  exact h.drawing (renderer.device.calm_useProgram program) rfl rfl
    fun unit texture seen => by cases seen

theorem Drawing.setUniform (h : Drawing studio renderer out program units views held memory)
    (location : Nat) (value : UniformData) :
    Drawing studio { renderer with device := renderer.device.setUniform location value } out
      program units views held (memory.give program (some location, value)) := by
  refine h.drawing (renderer.device.calm_setUniform location value) ?_ h.sight h.given
  rw [Device.canvas_setUniform, Canvas.give_of_program _ h.program, ← h.program, ← h.memory_given]
  rfl

theorem Drawing.bindTexture (h : Drawing studio renderer out program units views held memory)
    {texture : Handle} {picture : ι} (sees : renderer.device.Sees studio.painter texture picture)
    (unit : Nat) :
    Drawing studio { renderer with device := renderer.device.bindTexture unit (some texture) } out
      program (Function.update units unit (some picture)) views held memory := by
  have sight := Canvas.sight_update _ sees.other unit
  rw [h.sight, sees.shown] at sight
  rw [← h.memory_given]
  refine h.drawing (renderer.device.calm_bindTexture unit (some texture)) ?_ sight ?_
  · rw [← h.program]
    rfl
  · intro place other seen
    by_cases same : place = unit
    · subst same
      rw [Function.update_self] at seen
      cases seen
      exact sees.given
    · rw [Function.update_of_ne same] at seen
      exact h.given place other seen

/-- A target that is held is not what is drawn to. -/
theorem Drawing.sees_held (h : Drawing studio renderer out program units views held memory)
    {id : Nat} {picture : ι} (inside : (id, picture) ∈ held) {target : RenderTarget}
    (found : renderer.targets.targets[id]? = some target) :
    renderer.device.Sees studio.painter target.texture picture := by
  obtain ⟨⟨stale, stage⟩, ⟨goal, there, drawn⟩, _, _⟩ := h.toReady
  obtain ⟨_, found', shows⟩ := stage.shows _ (List.mem_cons_of_mem _ inside)
  rw [found] at found'
  cases found'
  refine ⟨shows, ?_, (RenderTargets.Apart.below stage.apart _ (mem_handles found)).2⟩
  rw [drawn]
  exact fun same => stage.ne_held there inside found (Option.some.inj same).symm

/-! ### Painting -/

theorem Ready.paint (h : Ready studio renderer out views held memory) {picture : ι}
    (calm : Device.Calm renderer.device device)
    (painted : device.canvas studio.painter =
      (renderer.device.canvas studio.painter).paint picture) :
    Stage studio { renderer with device } ((out, picture) :: held) memory := by
  obtain ⟨⟨stale, stage⟩, ⟨target, found, goal⟩, _, _⟩ := h
  rw [Canvas.paint_of_goal _ goal] at painted
  exact stage.paint found calm painted

theorem Ready.clear (h : Ready studio renderer out views held memory) (color : Color Float32) :
    Stage studio { renderer with device := renderer.device.clear color }
      ((out, studio.painter.fill color) :: held) memory :=
  h.paint (renderer.device.calm_clear color) (renderer.device.canvas_clear studio.painter color)

theorem Drawing.draw (h : Drawing studio renderer out program units views held memory) :
    Stage studio { renderer with device := renderer.device.draw }
      ((out, studio.painter.draw program (memory.given program) studio.size units) :: held)
      memory := by
  refine h.paint renderer.device.calm_draw ?_
  rw [Device.canvas_draw _ _ h.program, h.sight, h.size, ← h.memory_given]

/-! ### Textures of values -/

theorem Ready.sees_other (h : Ready studio renderer out views held memory) {texture : Handle}
    (other : texture ∈ renderer.others) : renderer.device.Sees studio.painter texture
      ((renderer.device.canvas studio.painter).shown texture) := by
  obtain ⟨⟨stale, stage⟩, ⟨target, found, goal⟩, _, _⟩ := h
  refine ⟨rfl, ?_, RenderTargets.Apart.given stage.apart texture other⟩
  rw [goal]
  exact fun same => stage.apart.ne_other found other (Option.some.inj same).symm

/-- A texture that shows a picture and is kept by a key is the picture of that key; the other
pictures stay. -/
theorem memory_of_made {key : TextureKey} {texture : Handle} {picture : ι} {loader : ℓ}
    {ready : Bool}
    (changed : device.canvas studio.painter =
      (renderer.device.canvas studio.painter).put texture picture)
    (others : ∀ other ∈ renderer.others, (device.canvas studio.painter).shown other =
      (renderer.device.canvas studio.painter).shown other) :
    ({ renderer with
        device, loader, textures := renderer.textures.set key ⟨texture, ready⟩ } :
      Renderer ℓ).memory studio.painter =
      { renderer.memory studio.painter with
        pictures := Function.update (renderer.memory studio.painter).pictures key
          (some picture) } := by
  have given : (device.canvas studio.painter).given =
      (renderer.device.canvas studio.painter).given := by rw [changed, Canvas.put]
  have pictures : (fun other => ((renderer.textures.set key ⟨texture, ready⟩).get? other).map
        fun entry => (device.canvas studio.painter).shown entry.texture) =
      Function.update (renderer.memory studio.painter).pictures key (some picture) := by
    funext other
    by_cases same : other = key
    · subst same
      rw [Table.get?_set_self, Function.update_self, Option.map_some, changed]
      exact congrArg some (Canvas.shown_put_self ..)
    · rw [Table.get?_set_other _ _ same, Function.update_of_ne same]
      change _ = (renderer.textures.get? other).map _
      cases found : renderer.textures.get? other with
      | none => rfl
      | some entry => exact congrArg some (others _ (texture_mem_others found))
  unfold Renderer.memory at pictures ⊢
  dsimp only at pictures ⊢
  rw [given, pictures]

/-- A texture that is made and shows a picture is that of its key from then on. -/
theorem Stage.of_made (h : Stage studio renderer held memory) {key : TextureKey} {texture : Handle}
    {picture : ι} {loader : ℓ} {ready : Bool}
    (calm : TextureCache.Calm ⟨renderer.device, renderer.loader, renderer.textures⟩
      ⟨device, loader, renderer.textures.set key ⟨texture, ready⟩⟩)
    (new : renderer.device.nextHandle ≤ texture)
    (changed : device.canvas studio.painter =
      (renderer.device.canvas studio.painter).put texture picture) :
    Stage studio { renderer with
        device, loader, textures := renderer.textures.set key ⟨texture, ready⟩ } held
      { memory with pictures := Function.update memory.pictures key (some picture) } := by
  have old : ∀ other < renderer.device.nextHandle, (device.canvas studio.painter).shown other =
      (renderer.device.canvas studio.painter).shown other := by
    intro other below
    rw [changed]
    exact Canvas.shown_put_of_ne _ (Nat.ne_of_lt (Nat.lt_of_lt_of_le below new)) picture
  have others : ∀ other ∈ renderer.others, (device.canvas studio.painter).shown other =
      (renderer.device.canvas studio.painter).shown other :=
    fun other inside => old other (RenderTargets.Apart.given h.apart other inside)
  refine ⟨h.holding, RenderTargets.Apart.onward h.apart calm.calm.onward rfl
    (.cons (calm.gains.append (.refl _))), ?_, (studio_device _ _ others).trans h.same, ?_⟩
  · intro entry inside
    obtain ⟨target, found, shows⟩ := h.shows entry inside
    refine ⟨target, found, ?_⟩
    rw [← shows]
    exact old _ (RenderTargets.Apart.below h.apart _ (mem_handles found)).2
  · rw [← h.recalls]
    exact memory_of_made changed others

/-- While something is drawn, such a texture is a new one: it is in no unit and not drawn to. -/
theorem Drawing.of_made (h : Drawing studio renderer out program units views held memory)
    {key : TextureKey} {texture : Handle} {picture : ι} {loader : ℓ} {ready : Bool}
    (calm : TextureCache.Calm ⟨renderer.device, renderer.loader, renderer.textures⟩
      ⟨device, loader, renderer.textures.set key ⟨texture, ready⟩⟩)
    (made : renderer.device.Made device texture)
    (changed : device.canvas studio.painter =
      (renderer.device.canvas studio.painter).put texture picture) :
    Drawing studio { renderer with
        device, loader, textures := renderer.textures.set key ⟨texture, ready⟩ }
      out program units views held
      { memory with pictures := Function.update memory.pictures key (some picture) } ∧
    device.Sees studio.painter texture picture := by
  obtain ⟨stale, stage⟩ := h.stage
  obtain ⟨target, found, drawn⟩ := h.goal
  have ne : ∀ other < renderer.device.nextHandle, other ≠ texture :=
    fun other below => Nat.ne_of_lt (Nat.lt_of_lt_of_le below made.new)
  have goal : (device.canvas studio.painter).goal =
      (renderer.device.canvas studio.painter).goal := by
    rw [changed]
    rfl
  have away : (device.canvas studio.painter).goal ≠ some texture := by
    rw [goal, drawn]
    exact fun same => ne _ (RenderTargets.Apart.below stage.apart _ (mem_handles found)).2
      (Option.some.inj same)
  refine ⟨⟨⟨⟨stale, stage.of_made calm made.new changed⟩, ⟨target, found, goal.trans drawn⟩, ?_,
    fun view inside => ?_⟩, ?_, ?_, fun unit other seen => ?_⟩, ?_, away, made.given⟩
  · exact (congrArg Canvas.size changed).trans h.size
  · obtain ⟨shown, other, given⟩ := h.views view inside
    refine ⟨?_, fun same => other (goal.symm.trans same),
      Nat.lt_of_lt_of_le given calm.calm.handles⟩
    dsimp only
    rw [changed, Canvas.shown_put_of_ne _ (ne _ given), shown]
  · exact (congrArg Canvas.program changed).trans h.program
  · dsimp only
    rw [changed, Canvas.sight_put, h.sight]
    exact fun unit inside => ne texture (h.given unit texture inside) rfl
  · refine Nat.lt_of_lt_of_le (h.given unit other ?_) calm.calm.handles
    exact (congrFun (congrArg Canvas.units changed) unit).symm.trans seen
  · rw [changed, Canvas.shown_put_self]

/-- **What looks for the texture of a sampler or a gradient finds its picture.** -/
theorem Drawing.of_found (h : Drawing studio renderer out program units views held memory)
    {key : TextureKey} {width height : Nat} {bytes : List UInt8} {texture : Handle}
    {after : TextureCache.State ℓ}
    (found : TextureCache.Found key width height bytes
      ⟨renderer.device, renderer.loader, renderer.textures⟩ texture after) :
    Drawing studio { renderer with
        device := after.device, loader := after.loader, textures := after.cache }
      out program units views held
      ((Memory.picture key (studio.painter.upload width height bytes)).run memory).2 ∧
    after.device.Sees studio.painter texture
      ((Memory.picture key (studio.painter.upload width height bytes)).run memory).1 := by
  have calm := found.calm
  obtain ⟨stale, stage⟩ := h.stage
  cases found with
  | @known entry found =>
    have known : memory.pictures key =
        some ((renderer.device.canvas studio.painter).shown entry.texture) := by
      rw [← stage.recalls]
      exact congrArg (Option.map _) found
    rw [Memory.picture_of_some known]
    exact ⟨h, h.sees_other (texture_mem_others found)⟩
  | @made filter wrap _ later loader ready absent created =>
    have unknown : memory.pictures key = none := by
      rw [← stage.recalls]
      exact congrArg (Option.map _) absent
    rw [Memory.picture_of_none unknown]
    have changed : (later.uploadTexture texture width height bytes).canvas studio.painter =
        (renderer.device.canvas studio.painter).put texture
          (studio.painter.upload width height bytes) := by
      rw [← renderer.device.canvas_createTexture studio.painter created]
      rfl
    have made := (Device.made_createTexture created).2
    exact h.of_made calm ⟨made.new, made.given⟩ changed

end Renderer
end Collage
