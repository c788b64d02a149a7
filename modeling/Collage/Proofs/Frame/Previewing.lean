import Collage.Proofs.Frame.Alike
import Collage.Proofs.Frame.Leftovers
import Collage.Proofs.Frame.Refusals

/-!
# Previews between frames

Previews have a pool of their own, but they share the device with frames and what is remembered
of the input.  `Undisturbed reads before after` says that nothing else that frames depend on
changed, and of the input only keys of `reads` that had not been evaluated in this frame.  All
that previews do leaves a renderer undisturbed (`previews_undisturbed`).

So previews are harmless where the keys that they read are fresh, and this they are after a
frame that ended well: `records_filter` says that frames give the same stats and tell the device
the same values, if the previews between them are left out.  Before the first frame previews are
not harmless (`records_disturbed`): they evaluate buttons without any devices, and as they do so
in the frame with number zero, the first frame takes the buttons to be evaluated.
-/

namespace Collage

open Collage.Action

namespace Renderer

open LayerTree

variable {ℓ : Type} {reads : List InputKey}

/-- Between two states of a renderer nothing changed that a frame depends on, but what is
remembered of some keys of `reads` that were not fresh. -/
structure Undisturbed (reads : List InputKey) (before after : Renderer ℓ) : Prop where
  device : Device.Follows before.device after.device
  options : after.options = before.options
  programs : after.programs = before.programs
  clock : after.clock = before.clock
  levels : after.levels = before.levels
  external : after.external = before.external
  frame : after.input.frame = before.input.frame
  others : ∀ key ∉ reads, after.input.lookup key = before.input.lookup key
  fresh : ∀ key, before.input.Fresh key → after.input.lookup key = before.input.lookup key

theorem Undisturbed.refl (renderer : Renderer ℓ) : Undisturbed reads renderer renderer :=
  ⟨.refl _, rfl, rfl, rfl, rfl, rfl, rfl, fun _ _ => rfl, fun _ _ => rfl⟩

theorem Undisturbed.trans {a b c : Renderer ℓ} (h : Undisturbed reads a b)
    (h' : Undisturbed reads b c) : Undisturbed reads a c where
  device := h.device.trans h'.device
  options := h'.options.trans h.options
  programs := h'.programs.trans h.programs
  clock := h'.clock.trans h.clock
  levels := h'.levels.trans h.levels
  external := h'.external.trans h.external
  frame := h'.frame.trans h.frame
  others key outside := (h'.others key outside).trans (h.others key outside)
  fresh key known := (h'.fresh key (known.congr h.frame (h.fresh key known))).trans
    (h.fresh key known)

instance : Std.Refl (@Undisturbed ℓ reads) := ⟨Undisturbed.refl⟩

instance : IsTrans (Renderer ℓ) (Undisturbed reads) := ⟨fun _ _ _ => Undisturbed.trans⟩

theorem Undisturbed.of_device {before : Renderer ℓ} {device : Device}
    (follows : Device.Follows before.device device) (targets : RenderTargets)
    (textures : TextureCache) (loader : ℓ) (stats : FrameStats) :
    Undisturbed reads before { before with device, targets, textures, loader, stats } :=
  { Undisturbed.refl before with device := follows }

theorem Undisturbed.tell {before : Renderer ℓ} {device : Device} {news : List DeviceEvent}
    (told : Device.Tells news before.device device) :
    Undisturbed reads before { before with device } :=
  .of_device told.follows _ _ _ _

theorem tracksPool_undisturbed :
    TracksPool (@Undisturbed ℓ reads) fun _ => Undisturbed reads where
  toTraces := Keeps.traces
  unable _ renderer _ := .refl renderer
  stats _ _ := .of_device (.refl _) _ _ _ _
  framebuffer _ _ _ _ := .tell (Device.tells_bindFramebuffer _ _ _ _)
  request := Keeps.within RenderTargets.request_silent fun _ _ silent =>
    .of_device silent.follows _ _ _ _
  release _ _ _ _ := .of_device (.refl _) _ _ _ _

theorem tracksDrawing_undisturbed :
    TracksDrawing (@Undisturbed ℓ reads) (fun _ => Undisturbed reads) (· ∈ reads) where
  toTracks := tracksPool_undisturbed.toTracks
  input renderer frame layer uniform inside := by
    have value := InputState.reads_frameValue frame renderer.levels layer uniform
    exact ⟨.refl _, rfl, rfl, rfl, rfl, rfl, value.frame _,
      fun key outside => value.others _ key fun known => outside (inside key known),
      fun _ => value.kept⟩
  found found := .of_device found.tells.follows _ _ _ _
  refused failed := .of_device failed.tells.follows _ _ _ _
  unit _ _ _ := .tell (Device.tells_bindTexture _ _ _)
  program _ _ := .tell (Device.tells_useProgram _ _)
  value _ _ _ := .tell (Device.tells_setUniform _ _ _)
  clear _ _ := .tell (Device.tells_clear _ _)
  draw _ := .tell (Device.tells_draw _)

section

variable [TextureLoader ℓ]

/-! ### Previews -/

/-- The keys that previews may read: those of all layers with a program, shown or not. -/
def previewInputs (tree : CompiledTree) : List InputKey :=
  tree.layers.flatMap (·.shaderInputs tree)

theorem drawPreview_undisturbed (tree : CompiledTree) (frame : FrameContext) (id : String) :
    Keeps (Undisturbed (previewInputs tree))
      (drawPreview tree frame id : Action (Renderer ℓ) (String × Picture)) := by
  refine tracksDrawing_undisturbed.drawPreview
    (fun _ _ _ => .tell (Device.tells_readPixels _ _ _)) tracksPool_undisturbed tree frame ?_ id
  exact fun layer inside key read => List.mem_flatMap.mpr ⟨layer, inside, read⟩

/-- **Previews disturb nothing but keys that are not fresh**, whether they can be drawn or not. -/
theorem previews_undisturbed (tree : CompiledTree) (ids : List String) (width height : Nat)
    (date : List Float32) (renderer : Renderer ℓ) :
    Undisturbed (previewInputs tree) renderer
      ((previews tree ids width height date).runOn renderer).2 := by
  have harmless := Keeps.mapM
    (@drawPreview_undisturbed ℓ _ tree { time := renderer.lastTime, date }) ids
  have deleted : ∀ (inner : Renderer ℓ) pool, Undisturbed (previewInputs tree) { renderer with
      targets := { width := max width 1, height := max height 1, antiAlias := 1 } } inner →
      Undisturbed (previewInputs tree) renderer { inner with
        device := (RenderTargets.delete.runOn (inner.device, pool)).2.1
        targets := renderer.targets } := by
    intro inner pool drawn
    have silent := Keeps.after_iff.mp RenderTargets.delete_silent (inner.device, pool)
    exact Undisturbed.trans ⟨drawn.device, drawn.options, drawn.programs, drawn.clock, drawn.levels,
      drawn.external, drawn.frame, drawn.others, drawn.fresh⟩ (.of_device silent.follows _ _ _ _)
  refine Yields.after_iff.mp (previews_yields (harmless _) ?_ ?_)
  · exact fun _ inner drawn => ⟨deleted inner _ drawn, fun _ => deleted inner _ drawn⟩
  · exact fun _ inner drawn => deleted inner _ drawn

theorem targets_previews (tree : CompiledTree) (ids : List String) (width height : Nat)
    (date : List Float32) (renderer : Renderer ℓ) :
    ((previews tree ids width height date).runOn renderer).2.targets = renderer.targets := by
  unfold runOn ExceptT.run previews
  split <;> rfl

/-- Renderers stay alike where what previews read is fresh, or is read by no frame. -/
theorem Alike.previewed {keys : List InputKey} {first second : Renderer ℓ}
    (h : Alike keys first second) {tree : CompiledTree}
    (fresh : ∀ key ∈ previewInputs tree, key ∈ keys → first.input.Fresh key) (ids : List String)
    (width height : Nat) (date : List Float32) :
    Alike keys ((previews tree ids width height date).runOn first).2 second := by
  have undisturbed := previews_undisturbed tree ids width height date first
  have targets := targets_previews tree ids width height date first
  generalize ((previews tree ids width height date).runOn first).2 = after at undisturbed targets
  obtain ⟨news, told⟩ := undisturbed.device
  have device : Device.Alike after.device second.device :=
    ⟨told.traits.trans h.device.traits, h.device.ample, told.locations.trans h.device.locations⟩
  have lookup : ∀ key ∈ keys, after.input.lookup key = second.input.lookup key := by
    intro key known
    refine Eq.trans ?_ (h.input.lookup key known)
    by_cases read : key ∈ previewInputs tree
    · exact undisturbed.fresh key (fresh key read known)
    · exact undisturbed.others key read
  exact
    { device := ⟨device, [], rfl, rfl⟩
      options := undisturbed.options.trans h.options
      programs := undisturbed.programs.trans h.programs
      shares := ⟨fun _ _ => rfl, fun _ _ => rfl⟩
      clock := undisturbed.clock.trans h.clock
      levels := undisturbed.levels.trans h.levels
      targets := targets ▸ h.targets
      external := undisturbed.external ▸ h.external
      input := ⟨undisturbed.frame.trans h.input.frame, lookup⟩
      textures := trivial }

/-! ### What a host asks for -/

/-- What a host asks a renderer for. -/
inductive Call
  | frame (input : FrameInput)
  | previews (ids : List String) (width height : Nat) (date : List Float32)

/-- Whether a frame is asked for. -/
def Call.isFrame : Call → Bool
  | frame _ => true
  | previews .. => false

/-- What a frame came to: the stats or the failure, what the device was told to draw, with all
values of uniforms, the newest first, and the requests for scripts so far. -/
structure FrameRecord where
  result : Except Failure FrameStats
  told : List DeviceEvent
  submitted : List ExternalRequest

/-- What a frame comes to, and the renderer after it. -/
def recorded (tree : CompiledTree) (input : FrameInput) (renderer : Renderer ℓ) :
    FrameRecord × Renderer ℓ :=
  let (result, after) := (render tree input).runOn renderer
  let count := after.device.orders.length - renderer.device.orders.length
  (⟨result, after.device.orders.take count, after.external.submitted⟩, after)

/-- What the frames come to that are asked for. -/
def records (tree : CompiledTree) : List Call → Renderer ℓ → List FrameRecord
  | [], _ => []
  | .frame input :: rest, renderer =>
    (recorded tree input renderer).1 :: records tree rest (recorded tree input renderer).2
  | .previews ids width height date :: rest, renderer =>
    records tree rest ((previews tree ids width height date).runOn renderer).2

/-- The keys that frames may read. -/
def frameInputs (tree : CompiledTree) : List InputKey :=
  sureInputs tree tree.drawn ++ scriptInputs tree.drawn

/-- Previews read nothing that frames read. -/
def Separate (tree : CompiledTree) : Prop :=
  ∀ key ∈ previewInputs tree, key ∉ frameInputs tree

/-- What a layer with a program reads and a script that is shown as well, frames read in any
case. -/
def Unmixed (tree : CompiledTree) : Prop :=
  ∀ key ∈ previewInputs tree, key ∈ scriptInputs tree.drawn → key ∈ sureInputs tree tree.drawn

/-- Previews are asked for after a frame only, and only if the last one ended well, unless they
read nothing that frames read.  Here `drawn` says whether there is such a frame. -/
def Timely (tree : CompiledTree) : Bool → List Call → Renderer ℓ → Prop
  | _, [], _ => True
  | _, .frame input :: rest, renderer =>
    Timely tree (recorded tree input renderer).1.result.isOk rest (recorded tree input renderer).2
  | drawn, .previews ids width height date :: rest, renderer =>
    (drawn = true ∨ Separate tree) ∧
      Timely tree drawn rest ((previews tree ids width height date).runOn renderer).2

theorem watched_frameInputs {tree : CompiledTree} :
    Watched (frameInputs tree) tree tree.drawn :=
  ⟨fun _ => List.mem_append_left _, fun _ => List.mem_append_right _⟩

/-- Renderers that are alike record the same frame, and are alike after it. -/
theorem recorded_together {keys : List InputKey} {first second : Renderer ℓ}
    (h : Alike keys first second) {tree : CompiledTree} (watched : Watched keys tree tree.drawn)
    (input : FrameInput) :
    (recorded tree input first).1 = (recorded tree input second).1 ∧
    Alike keys (recorded tree input first).2 (recorded tree input second).2 ∧
    ((recorded tree input first).1.result.isOk →
      ∀ key ∈ sureInputs tree tree.drawn, (recorded tree input first).2.input.Fresh key) := by
  have rendered := render_together h watched input
  have newest : ∀ news said : List DeviceEvent,
      (news ++ said).take ((news ++ said).length - said.length) = news := by
    intro news said
    rw [List.length_append, Nat.add_sub_cancel, List.take_left]
  unfold recorded
  unfold Together at rendered
  generalize (render tree input).runOn first = left at rendered ⊢
  generalize (render tree input).runOn second = right at rendered ⊢
  obtain ⟨result, after⟩ := left
  obtain ⟨result', later⟩ := right
  cases result with
  | ok stats =>
    cases result' with
    | ok stats' =>
      obtain ⟨rfl, abreast⟩ := rendered
      obtain ⟨news, told, told'⟩ := abreast.device.told
      dsimp only at told told' ⊢
      rw [told, told', newest, newest, abreast.external.submitted]
      exact ⟨rfl, abreast.alike, fun _ => abreast.fresh⟩
    | error failure => exact rendered.elim
  | error failure =>
    cases result' with
    | ok stats' => exact rendered.elim
    | error failure' =>
      obtain ⟨rfl, abreast⟩ := rendered
      obtain ⟨news, told, told'⟩ := abreast.device.told
      dsimp only at told told' ⊢
      rw [told, told', newest, newest, abreast.external.submitted]
      exact ⟨rfl, abreast.alike, fun good => by cases good⟩

/-- Renderers that are alike record the same, with previews and without. -/
theorem records_alike {tree : CompiledTree} (unmixed : Unmixed tree) :
    ∀ (calls : List Call) {drawn : Bool} {first second : Renderer ℓ},
      Alike (frameInputs tree) first second →
      (drawn = true → ∀ key ∈ sureInputs tree tree.drawn, first.input.Fresh key) →
      Timely tree drawn calls first →
      records tree calls first = records tree (calls.filter Call.isFrame) second
  | [], _, _, _, _, _, _ => rfl
  | .frame input :: rest, drawn, first, second, alike, fresh, timely => by
    obtain ⟨same, alike, fresh⟩ := recorded_together alike watched_frameInputs input
    change _ :: _ = _ :: _
    rw [same, records_alike unmixed rest alike fresh timely]
  | .previews ids width height date :: rest, drawn, first, second, alike, fresh, timely => by
    obtain ⟨allowed, timely⟩ := timely
    have read : ∀ key ∈ previewInputs tree, key ∈ frameInputs tree → first.input.Fresh key := by
      intro key read known
      rcases allowed with good | separate
      · rcases List.mem_append.mp known with sure | script
        · exact fresh good key sure
        · exact fresh good key (unmixed key read script)
      · exact absurd known (separate key read)
    have still := previews_undisturbed tree ids width height date first
    refine records_alike unmixed rest (alike.previewed read ids width height date)
      (fun good key sure => ?_) timely
    exact (fresh good key sure).congr still.frame (still.fresh key (fresh good key sure))

/-- **Previews after frames do not disturb the frames that follow.**  Where memory is never
exhausted, frames give the same stats, tell the device the same, draw by draw and value by value,
and make the same requests, when all previews are left out, if these came after a frame that ended
well or read nothing that frames read. -/
theorem records_filter {renderer : Renderer ℓ} (ample : renderer.device.traits.Ample)
    {tree : CompiledTree} (unmixed : Unmixed tree) {calls : List Call}
    (timely : Timely tree false calls renderer) :
    records tree calls renderer = records tree (calls.filter Call.isFrame) renderer :=
  records_alike unmixed calls (.refl ample)
    (fun never => by cases never) timely

end

/-- A layer whose program is given a button, that of the space bar. -/
def jumping : CompiledTree where
  layers :=
    [⟨"root", "", none, true, .normal, 1, [], [], false, .group [1]⟩,
      ⟨"hero", "", some 0, true, .normal, 1,
        [⟨"jump", "vec4", .button [], {}, some 3, [],
          ⟨"jump", .button [("keyboard", "Space")], none⟩⟩],
        [], false, .shader { program := some 7 }⟩]
  scene := none
  builder := ⟨"300 es", 0⟩

/-- A frame in which the space bar is down. -/
def spaceDown : FrameInput :=
  { now := 1, devices := InputDevices.press {} "keyboard" "Space" }

/-- Previews of the layer. -/
def heroPreviews : Call :=
  .previews ["hero"] 1 1 [0, 0, 0, 0]

theorem records_filter_jumping :
    records jumping [.frame spaceDown, heroPreviews, .frame spaceDown] bare =
      records jumping [.frame spaceDown, .frame spaceDown] bare := by
  have unmixed : Unmixed jumping := by
    unfold Unmixed
    decide +kernel
  have good : (recorded jumping spaceDown bare).1.result.isOk = true := by decide +kernel
  have timely : Timely jumping false [.frame spaceDown, heroPreviews, .frame spaceDown] bare :=
    ⟨.inl good, trivial⟩
  exact records_filter ample_bare unmixed timely

/-- **Previews before the first frame disturb it**: the button that is down in the frame reads as
up, as it was evaluated for the previews, without devices. -/
theorem records_disturbed :
    records jumping [heroPreviews, .frame spaceDown] bare ≠
      records jumping [.frame spaceDown] bare := by
  intro same
  have told := congrArg (List.map FrameRecord.told) same
  revert told
  decide +kernel

end Renderer
end Collage
