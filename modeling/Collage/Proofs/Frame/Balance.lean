import Collage.Proofs.Frame.Composing
import Collage.Proofs.Frame.Pool
import Collage.Proofs.Frame.Quiet

/-!
# No frame strands a target

Whatever is drawn, and wherever it fails, the targets in use are known: `Balanced need`
says of a step that lets one target take the place of another as the one that holds the
result, that it holds no other target afterwards, that the pool grew by no more than the
step needs, and that a failure leaves each target held once at most.  Steps one after
another need as much as the one that needs most (`Balanced.comp`), and a group on its own
needs one more than its layers (`compositeIsolated_balanced`); so a tree needs what
`LayerTree.need` says (`composing_balanced`, the rules of `Composing`).

`render_balanced` puts a frame together: nothing is in use after it.  So a renderer that is
`Sound` before a frame is sound after it (`render_sound`).
-/

namespace Collage
namespace Renderer

open Collage.Action
open RenderTargets (Holding Grew)

variable {ℓ : Type}

/-- The device and the pool. -/
def pool (renderer : Renderer ℓ) : RenderTargets.State :=
  (renderer.device, renderer.targets)

/-- The targets that are held after something, and how far the pool has grown by it. -/
structure Balance (limit : Nat) (before : Renderer ℓ) (held : List Nat) (after : Renderer ℓ) :
    Prop where
  holding : after.targets.Holding held
  grew : Grew limit before.pool after.pool
  gains : before.device.Gains after.device before.others after.others
  apart : before.Apart → after.Apart

/-- Something has failed, and targets may still be held. -/
def Stranded (limit : Nat) (before after : Renderer ℓ) : Prop :=
  ∃ held, Balance limit before held after

namespace Balance

variable {limit : Nat} {a b c : Renderer ℓ} {held others : List Nat}

theorem refl (h : a.targets.Holding held) (limit : Nat) : Balance limit a held a :=
  ⟨h, .refl limit a.pool, .refl _, id⟩

theorem trans (h : Balance limit a held b) (h' : Balance limit b others c) :
    Balance limit a others c :=
  ⟨h'.holding, h.grew.trans h'.grew, .trans h.grew.onward h'.grew.onward h.gains h'.gains,
    fun apart => h'.apart (h.apart apart)⟩

theorem mono {more : Nat} (h : Balance limit a held b) (le : limit ≤ more) :
    Balance more a held b :=
  ⟨h.holding, h.grew.mono le, h.gains, h.apart⟩

theorem perm (h : Balance limit a held b) (same : held.Perm others) : Balance limit a others b :=
  ⟨h.holding.perm same, h.grew, h.gains, h.apart⟩

theorem stranded (h : Balance limit a held b) : Stranded limit a b :=
  ⟨held, h⟩

theorem before_stranded (h : Balance limit a held b) (h' : Stranded limit b c) :
    Stranded limit a c := by
  obtain ⟨others, h'⟩ := h'
  exact ⟨others, h.trans h'⟩

end Balance

theorem Stranded.mono {limit more : Nat} {before after : Renderer ℓ}
    (h : Stranded limit before after) (le : limit ≤ more) : Stranded more before after := by
  obtain ⟨held, h⟩ := h
  exact ⟨held, h.mono le⟩

theorem Rests.balance {before after : Renderer ℓ} {held : List Nat} (h : Rests before after)
    (holding : before.targets.Holding held) (limit : Nat) : Balance limit before held after := by
  refine ⟨h.targets ▸ holding, .of_calm h.calm ?_ ?_ limit, h.gains, h.apart⟩
  · rw [h.targets]
  · rw [h.targets]

theorem Balance.of_grew {limit : Nat} {before : Renderer ℓ} {device : Device}
    {targets : RenderTargets} {held : List Nat} (holding : targets.Holding held)
    (grew : Grew limit before.pool (device, targets)) :
    Balance limit before held { before with device, targets } :=
  ⟨holding, grew, .refl _, grew.apart before.others⟩

/-- What holds of a renderer between frames: no target is in use, handles to come are no
framebuffers yet, and no texture is shared. -/
structure Sound (renderer : Renderer ℓ) : Prop where
  idle : renderer.targets.Idle
  fresh : renderer.device.Fresh
  apart : renderer.Apart

theorem Balance.sound {limit : Nat} {before after : Renderer ℓ} (h : Balance limit before [] after)
    (sound : before.Sound) : after.Sound :=
  ⟨h.holding, (h.grew.added sound.fresh).1, h.apart sound.apart⟩

theorem sound_of_empty {renderer : Renderer ℓ} {width height antiAlias : Nat}
    (targets : renderer.targets = { width, height, antiAlias })
    (device : renderer.device.framebuffers.keys = [])
    (given : ∀ texture ∈ renderer.others, texture < renderer.device.nextHandle) :
    renderer.Sound where
  idle := targets ▸ RenderTargets.idle_empty
  fresh := ⟨device ▸ List.nodup_nil, fun _ inside => absurd (device ▸ inside) List.not_mem_nil⟩
  apart := by
    have none : renderer.targets.handles = [] := by rw [targets]; rfl
    refine ⟨given, ?_, ?_, ?_, ?_⟩
    all_goals simp [none]

/-- A renderer before its first frame. -/
def bare : Renderer NoLoader where
  device := {}
  options := { width := 1, height := 1 }
  targets := { width := 1, height := 1, antiAlias := 1 }
  programs := default
  spectrum := 0
  loader := {}
  external := ExternalLayers.create 2

theorem bare_sound : bare.Sound :=
  sound_of_empty rfl rfl (by decide)

/-- A layer over a group that is drawn on its own, in which a layer lies over another. -/
def veiled : CompiledTree where
  layers :=
    [⟨"root", "", none, true, .normal, 1, [], [], false, .group [1, 2]⟩,
      ⟨"veil", "", some 0, true, .normal, 1, [], [], false, .shader { program := some 1 }⟩,
      ⟨"group", "", some 0, true, .multiply, 1, [], [], false, .group [3, 4]⟩,
      ⟨"over", "", some 2, true, .normal, 1, [], [], false, .shader { program := some 2 }⟩,
      ⟨"under", "", some 2, true, .normal, 1, [], [], false, .shader {}⟩]
  scene := none
  builder := ⟨"300 es", 0⟩

/-! ### Taking a target and giving it back -/

variable {renderer : Renderer ℓ} {held : List Nat}

theorem onTargets_yields {α : Type} {action : Action RenderTargets.State α}
    {good : α → RenderTargets.State → Prop} {bad : Failure → RenderTargets.State → Prop}
    (h : action.Yields renderer.pool good bad) :
    (onTargets action).Yields renderer
      (fun value after => ∃ changed : RenderTargets.State, good value changed ∧
        after = { renderer with device := changed.1, targets := changed.2 })
      (fun failure after => ∃ changed : RenderTargets.State, bad failure changed ∧
        after = { renderer with device := changed.1, targets := changed.2 }) := by
  unfold onTargets
  exact Yields.within h

theorem request_balanced (h : renderer.targets.Holding held) :
    (onTargets RenderTargets.request : Action (Renderer ℓ) Nat).Yields renderer
      (fun out after => Balance (held.length + 1) renderer (out :: held) after ∧
        held.length + 1 ≤ after.targets.size)
      (fun _ after => Stranded (held.length + 1) renderer after) := by
  refine (onTargets_yields (RenderTargets.request_yields renderer.device h.alive)).mono ?_ ?_
  · rintro out _ ⟨⟨later, changed⟩, handout, rfl⟩
    obtain ⟨grew, room⟩ := handout.grew h
    exact ⟨.of_grew (handout.holding h) grew, room⟩
  · rintro _ _ ⟨_, ⟨full, cause, later, failed, rfl, rfl⟩, rfl⟩
    exact ⟨held, .of_grew h (RenderTargets.grew_of_error h full failed)⟩

theorem startTarget_balanced (h : renderer.targets.Holding held) :
    (startTarget : Action (Renderer ℓ) Nat).Yields renderer
      (fun out after => Balance (held.length + 1) renderer (out :: held) after ∧
        held.length + 1 ≤ after.targets.size)
      (fun _ after => Stranded (held.length + 1) renderer after) := by
  refine (request_balanced h).bind (fun out taken ⟨balance, room⟩ => ?_) fun _ _ failed => failed
  refine (tracks_rests.bindTarget out taken).bind (fun _ after rests => ?_) fun _ after rests => ?_
  · refine Yields.pure ⟨balance.trans (rests.balance balance.holding _), ?_⟩
    rw [rests.targets]
    exact room
  · exact (balance.trans (rests.balance balance.holding _)).stranded

theorem releaseTarget_yields {id : Nat} {targets : RenderTargets}
    (released : renderer.targets.release id = .ok targets)
    {failed : Failure → Renderer ℓ → Prop} :
    (releaseTarget id : Action (Renderer ℓ) Unit).Yields renderer
      (fun _ after => after = { renderer with targets }) failed := by
  unfold releaseTarget
  refine Yields.get ?_
  rw [released]
  exact Yields.modified rfl

theorem releaseTarget_balanced {id : Nat} (h : renderer.targets.Holding (id :: held))
    (limit : Nat) {failed : Failure → Renderer ℓ → Prop} :
    (releaseTarget id : Action (Renderer ℓ) Unit).Yields renderer
      (fun _ after => Balance limit renderer held after) failed := by
  obtain ⟨changed, released, holding, grew⟩ := h.release_grew limit
  refine (releaseTarget_yields released).mono ?_ fun _ _ failed => failed
  rintro _ _ rfl
  exact .of_grew holding grew

/-- Any target may be tried to be given back. -/
theorem releaseTarget_stranded (h : renderer.targets.Holding held) (id limit : Nat) :
    (releaseTarget id : Action (Renderer ℓ) Unit).Yields renderer
      (fun _ after => Stranded limit renderer after)
      (fun _ after => Stranded limit renderer after) := by
  by_cases inside : id ∈ held
  · have first := h.perm (List.perm_cons_erase inside)
    refine (releaseTarget_balanced first limit).mono ?_ fun _ _ failed => failed
    exact fun _ _ balance => balance.stranded
  · obtain ⟨failure, refused⟩ := h.release_error inside
    unfold releaseTarget
    refine Yields.get ?_
    rw [refused]
    exact (Balance.refl h limit).stranded

/-! ### Steps that replace the result -/

/-- A step lets one target take the place of another and needs `need` targets besides; if
`sure`, the pool has room for them afterwards. -/
def Balanced (need : Nat) (sure : Prop) (step : Nat → Action (Renderer ℓ) Nat) : Prop :=
  ∀ renderer read rest, renderer.targets.Holding (read :: rest) →
    (step read).Yields renderer
      (fun out after => Balance (rest.length + 1 + need) renderer (out :: rest) after ∧
        (sure → rest.length + 1 + need ≤ after.targets.size))
      (fun _ after => Stranded (rest.length + 1 + need) renderer after)

namespace Balanced

variable {need more : Nat} {sure sure' : Prop} {step next : Nat → Action (Renderer ℓ) Nat}

theorem skip (sure : Prop) : Balanced 0 sure (pure : Nat → Action (Renderer ℓ) Nat) := by
  intro renderer read rest h
  refine Yields.pure ⟨.refl h _, fun _ => ?_⟩
  rw [h.size_eq, List.length_cons]
  omega

theorem mono_sure (h : Balanced need sure step) (implies : sure' → sure) :
    Balanced need sure' step := by
  intro renderer read rest holding
  refine (h renderer read rest holding).mono ?_ fun _ _ failed => failed
  exact fun _ _ ⟨balance, room⟩ => ⟨balance, fun known => room (implies known)⟩

theorem mono_need (h : Balanced need sure step) (le : need ≤ more) : Balanced more False step := by
  intro renderer read rest holding
  refine (h renderer read rest holding).mono ?_ fun _ _ failed => failed.mono (by omega)
  exact fun _ _ ⟨balance, _⟩ => ⟨balance.mono (by omega), False.elim⟩

theorem get {step : Renderer ℓ → Nat → Action (Renderer ℓ) Nat}
    (h : ∀ renderer, Balanced need sure (step renderer)) :
    Balanced need sure (fun read => MonadState.get >>= fun renderer => step renderer read) :=
  fun renderer read rest holding => h renderer renderer read rest holding

/-- **Two steps need as much as the one that needs more.** -/
theorem comp (h : Balanced need sure step) (h' : Balanced more sure' next) :
    Balanced (max need more) (sure ∧ sure') (fun read => step read >>= next) := by
  intro renderer read rest holding
  have le : rest.length + 1 + need ≤ rest.length + 1 + max need more := by omega
  have le' : rest.length + 1 + more ≤ rest.length + 1 + max need more := by omega
  refine (h renderer read rest holding).bind (fun mid between ⟨first, room⟩ => ?_)
    fun _ _ failed => failed.mono le
  refine (h' between mid rest first.holding).mono (fun out after ⟨second, room'⟩ => ?_)
    fun _ _ failed => (first.mono le).before_stranded (failed.mono le')
  refine ⟨(first.mono le).trans (second.mono le'), fun known => ?_⟩
  have one := room known.1
  have two := room' known.2
  have grown : between.targets.size ≤ after.targets.size := second.grew.larger
  omega

theorem after_quiet {α : Type} {quiet : Action (Renderer ℓ) α} (calm : Quiet quiet)
    {step : α → Nat → Action (Renderer ℓ) Nat} (h : ∀ value, Balanced need sure (step value)) :
    Balanced need sure (fun read => quiet >>= fun value => step value read) := by
  intro renderer read rest holding
  refine (calm renderer).bind (fun value between rests => ?_)
    fun _ after rests => (rests.balance holding _).stranded
  have first := rests.balance holding (rest.length + 1 + need)
  refine (h value between read rest first.holding).mono ?_ fun _ _ => first.before_stranded
  exact fun out after ⟨second, room⟩ => ⟨first.trans second, room⟩

end Balanced

/-- **Drawing the result anew needs one target**: a new one is taken, something is drawn to it,
and the old one is given back. -/
theorem redraw_balanced {draw : Nat → Nat → Action (Renderer ℓ) Unit}
    (quiet : ∀ read out, Quiet (draw read out)) (sure : Prop) :
    Balanced 1 sure fun read =>
      startTarget >>= fun out => draw read out >>= fun _ => swapRead read out := by
  intro renderer read rest holding
  refine (startTarget_balanced holding).bind (fun out taken ⟨first, room⟩ => ?_)
    fun _ _ failed => failed
  refine (quiet read out taken).bind (fun _ drawn rests => ?_) fun _ after rests => ?_
  · have second := first.trans (rests.balance first.holding _)
    have swapped : Balance (rest.length + 1 + 1) renderer (read :: out :: rest) drawn :=
      second.perm (List.Perm.swap read out rest)
    refine (releaseTarget_balanced swapped.holding (rest.length + 1 + 1)).bind
      (fun _ after last => ?_) fun _ _ failed => failed
    refine Yields.pure ⟨swapped.trans last, fun _ => ?_⟩
    have grown : drawn.targets.size ≤ after.targets.size := last.grew.larger
    rw [rests.targets] at grown
    rw [List.length_cons] at room
    omega
  · exact (first.trans (rests.balance first.holding _)).stranded

/-! ### One layer -/

theorem compositeTexture_balanced (texture : Handle) (frame : FrameContext) (blend : BlendMode)
    (opacity : Float32) (sure : Prop) :
    Balanced 1 sure
      (compositeTexture texture frame blend opacity : Nat → Action (Renderer ℓ) Nat) :=
  redraw_balanced (fun read _ => Keeps.get fun _ =>
    tracks_rests.drawWith _ _ frame blend opacity read (Leads.modify fun _ =>
      .of_calm ((Device.calm_bindTexture _ _ _).trans (Device.calm_setUniform _ _ _)))) sure

theorem compositeCheckerboard_balanced (frame : FrameContext) (sure : Prop) :
    Balanced 1 sure (compositeCheckerboard frame : Nat → Action (Renderer ℓ) Nat) :=
  redraw_balanced (fun read _ => Keeps.get fun _ =>
    tracks_rests.drawWith _ _ frame .normal 1 read (Keeps.pure ())) sure

theorem compositeScript_balanced (frame : FrameContext) (layer : CompiledLayer) (code : String)
    (scale : Float32) :
    Balanced 1 False (compositeScript frame layer code scale : Nat → Action (Renderer ℓ) Nat) := by
  refine Balanced.after_quiet (requestScript_quiet frame layer code) fun _ => ?_
  refine Balanced.get fun renderer => ?_
  cases renderer.external.texture? layer.id with
  | none => exact (Balanced.skip False).mono_need (Nat.zero_le 1)
  | some texture =>
    exact Balanced.after_quiet (tracks_rests.count _) fun _ =>
      compositeTexture_balanced texture frame layer.blend _ False

/-! ### Groups -/

/-- Drawing a target that is held and giving it back leaves what else is held. -/
theorem compositeHeld_balanced (texture : Handle) (frame : FrameContext) (blend : BlendMode)
    (opacity : Float32) {read isolated : Nat} {rest : List Nat}
    (holding : renderer.targets.Holding (read :: isolated :: rest)) :
    ((compositeTexture texture frame blend opacity read).followedBy
        (releaseTarget isolated) : Action (Renderer ℓ) Nat).Yields renderer
      (fun out after => Balance (rest.length + 3) renderer (out :: rest) after ∧
        rest.length + 3 ≤ after.targets.size)
      (fun _ after => Stranded (rest.length + 3) renderer after) := by
  refine Yields.followedBy
    (compositeTexture_balanced texture frame blend opacity True renderer read _ holding) ?_ ?_
  · rintro out composited ⟨first, room⟩
    have swapped := first.perm (List.Perm.swap isolated out rest)
    refine (releaseTarget_balanced swapped.holding (rest.length + 3)).mono ?_
      fun _ _ failed => failed
    intro _ after second
    have grown : composited.targets.size ≤ after.targets.size := second.grew.larger
    exact ⟨swapped.trans second, Nat.le_trans (room trivial) grown⟩
  · rintro failure composited ⟨held, first⟩
    refine (releaseTarget_stranded first.holding isolated (rest.length + 3)).mono ?_ ?_
    · exact fun _ _ => first.before_stranded
    · exact fun _ _ => first.before_stranded

/-- **A group on its own needs one target more than its layers**, and at least two. -/
theorem compositeIsolated_balanced (frame : FrameContext) (layer : CompiledLayer)
    (scale : Float32) {inside : Nat → Action (Renderer ℓ) Nat} {need : Nat} {sure : Prop}
    (h : Balanced need sure inside) :
    Balanced (max (need + 1) 2) sure fun read =>
      compositeIsolated frame layer scale read inside := by
  intro renderer read rest holding
  have le : (read :: rest).length + 1 ≤ rest.length + 1 + max (need + 1) 2 := by
    rw [List.length_cons]
    omega
  have leInside : (read :: rest).length + 1 + need ≤ rest.length + 1 + max (need + 1) 2 := by
    rw [List.length_cons]
    omega
  have leDraw : rest.length + 3 ≤ rest.length + 1 + max (need + 1) 2 := by omega
  refine (startTarget_balanced holding).bind (fun start taken ⟨first, _⟩ => ?_)
    fun _ _ failed => failed.mono le
  have first := first.mono le
  refine (tracks_rests.filled transparent taken).bind (fun _ cleared rests => ?_)
    fun _ after rests => (first.trans (rests.balance first.holding _)).stranded
  have second := first.trans (rests.balance first.holding _)
  refine (h cleared start (read :: rest) second.holding).bind
    (fun isolated drawn ⟨third, room⟩ => ?_)
    fun _ _ failed => second.before_stranded (failed.mono leInside)
  have third := second.trans (third.mono leInside)
  refine (tracks_rests.target isolated drawn).bind (fun shown found rests => ?_)
    fun _ after rests => (third.trans (rests.balance third.holding _)).stranded
  have fourth := (third.trans (rests.balance third.holding _)).perm
    (List.Perm.swap read isolated rest)
  refine (compositeHeld_balanced shown.texture frame layer.blend _ fourth.holding).mono
    (fun out after ⟨fifth, room'⟩ => ?_)
    fun _ _ failed => fourth.before_stranded (failed.mono leDraw)
  refine ⟨fourth.trans (fifth.mono leDraw), fun known => ?_⟩
  have one := room known
  have grown : found.targets.size ≤ after.targets.size := fifth.grew.larger
  rw [rests.targets] at grown
  rw [List.length_cons] at one
  omega

section

variable [TextureLoader ℓ]

theorem compositeShader_balanced (tree : CompiledTree) (frame : FrameContext)
    (layer : CompiledLayer) (shader : LayerProgram) (scale : Float32) (sure : Prop) :
    Balanced 1 sure
      (compositeShader tree frame layer shader scale : Nat → Action (Renderer ℓ) Nat) := by
  rw [show (compositeShader tree frame layer shader scale : Nat → Action (Renderer ℓ) Nat) = _
    from funext (compositeShader_eq tree frame layer shader scale)]
  exact redraw_balanced (fun read _ => tracks_rests.drawShader tree frame layer shader scale read
    fun _ _ => trivial) sure

end

/-! ### All layers -/

open LayerTree

section

variable [TextureLoader ℓ]

/-- **Layers are balanced as their trees say.** -/
theorem composing_balanced (tree : CompiledTree) (frame : FrameContext) :
    Composing tree frame fun _ views (draw : Nat → Action (Renderer ℓ) Nat) =>
      Balanced (needIn views) (ScriptlessIn views) draw where
  nothing := .skip _
  hidden hidden := by
    rw [needIn_singleton, need, if_neg (Bool.eq_false_iff.mp hidden)]
    exact .skip _
  distance visible kind := by
    rw [needIn_singleton, need, if_pos visible, kind]
    exact .skip _
  shader visible kind := by
    rw [needIn_singleton, need, if_pos visible, kind]
    exact compositeShader_balanced tree frame _ _ _ _
  script visible kind := by
    rw [needIn_singleton, need, if_pos visible, kind]
    exact (compositeScript_balanced frame _ _ _).mono_sure fun known => known.1.1 _ kind
  through visible kind through inside := by
    rw [needIn_singleton, need, if_pos visible, kind]
    dsimp only
    rw [if_pos through]
    exact inside.mono_sure fun known => known.1.2
  isolated visible kind alone inside := by
    rw [needIn_singleton, need, if_pos visible, kind]
    dsimp only
    rw [if_neg alone]
    exact (compositeIsolated_balanced frame _ _ inside).mono_sure fun known => known.1.2
  followed rest first := by
    rw [needIn_singleton] at first
    rw [needIn, Nat.max_comm]
    exact (rest.comp first).mono_sure fun known => ⟨known.2, known.1, trivial⟩

theorem compositeTree_balanced (tree : CompiledTree) (frame : FrameContext) :
    Balanced (needIn tree.drawn) (ScriptlessIn tree.drawn)
      (compositeTree tree frame : Nat → Action (Renderer ℓ) Nat) :=
  (composing_balanced tree frame).drawn

/-! ### Frames -/

/-- Composing a frame holds one target, that of the result. -/
theorem composeFrame_balanced (tree : CompiledTree) (frame : FrameContext)
    (idle : renderer.targets.Idle) :
    (composeFrame tree frame : Action (Renderer ℓ) Nat).Yields renderer
      (fun read after => Balance (needIn tree.drawn + 1) renderer [read] after ∧
        (ScriptlessIn tree.drawn → needIn tree.drawn + 1 ≤ after.targets.size))
      (fun _ after => Stranded (needIn tree.drawn + 1) renderer after) := by
  have le : ([] : List Nat).length + 1 ≤ needIn tree.drawn + 1 := by
    rw [List.length_nil]
    omega
  have same : ([] : List Nat).length + 1 + needIn tree.drawn = needIn tree.drawn + 1 := by
    rw [List.length_nil]
    omega
  refine (startTarget_balanced idle).bind (fun start taken ⟨first, _⟩ => ?_)
    fun _ _ failed => failed.mono le
  have first := first.mono le
  refine (tracks_rests.filled transparent taken).bind (fun _ cleared rests => ?_)
    fun _ after rests => (first.trans (rests.balance first.holding _)).stranded
  have second := first.trans (rests.balance first.holding _)
  have composed := compositeTree_balanced tree frame cleared start [] second.holding
  rw [same] at composed
  refine composed.mono (fun read after ⟨third, room⟩ => ?_)
    fun _ _ failed => second.before_stranded failed
  exact ⟨second.trans third, room⟩

/-- A frame holds nothing at its end; where it fails, its targets are known. -/
theorem drawFrame_balanced (tree : CompiledTree) (input : FrameInput)
    (idle : renderer.targets.Idle) :
    (drawFrame tree input : Action (Renderer ℓ) FrameStats).Yields renderer
      (fun _ after => Balance (needIn tree.drawn + 1) renderer [] after ∧
        (ScriptlessIn tree.drawn → needIn tree.drawn + 1 ≤ after.targets.size))
      (fun _ after => Stranded (needIn tree.drawn + 1) renderer after) := by
  rw [drawFrame_eq]
  refine (tracksFrame_rests.prepareFrame tree input renderer).bind (fun frame prepared rests => ?_)
    fun _ after rests => (rests.balance idle _).stranded
  have first := rests.balance idle (needIn tree.drawn + 1)
  refine (composeFrame_balanced tree frame first.holding).bind
    (fun read composed ⟨second, room⟩ => ?_) fun _ _ => first.before_stranded
  have second := first.trans second
  unfold finishFrame
  refine (tracks_rests.present read composed).bind (fun _ shown rests => ?_)
    fun _ after rests => (second.trans (rests.balance second.holding _)).stranded
  have third := second.trans (rests.balance second.holding _)
  refine (releaseTarget_balanced third.holding (needIn tree.drawn + 1)).bind
    (fun _ after last => ?_) fun _ _ failed => failed
  refine Yields.get (Yields.pure ⟨third.trans last, fun known => ?_⟩)
  have grown : shown.targets.size ≤ after.targets.size := last.grew.larger
  rw [rests.targets] at grown
  exact Nat.le_trans (room known) grown

theorem runOn_render (tree : CompiledTree) (input : FrameInput) (renderer : Renderer ℓ) :
    (render tree input).runOn renderer =
      match (drawFrame tree input).runOn renderer with
      | (.ok stats, after) => (.ok stats, after)
      | (.error failure, after) =>
        (.error failure, { after with targets := after.targets.reclaim.2 }) :=
  rfl

/-- A frame does what drawing it does, and takes back what a failure has left in use. -/
theorem render_yields {tree : CompiledTree} {input : FrameInput}
    {ok : FrameStats → Renderer ℓ → Prop} {failed failed' : Failure → Renderer ℓ → Prop}
    (drawn : (drawFrame tree input : Action (Renderer ℓ) FrameStats).Yields renderer ok failed)
    (reclaimed : ∀ failure after, failed failure after →
      failed' failure { after with targets := after.targets.reclaim.2 }) :
    (render tree input : Action (Renderer ℓ) FrameStats).Yields renderer ok failed' := by
  unfold Yields at drawn ⊢
  rw [runOn_render]
  cases outcome : (drawFrame tree input).runOn renderer with
  | mk result after =>
    rw [outcome] at drawn
    cases result with
    | ok stats => exact drawn
    | error failure => exact reclaimed failure after drawn

/-- **Nothing is in use after a frame**, whether it failed or not. -/
theorem render_balanced (tree : CompiledTree) (input : FrameInput)
    (idle : renderer.targets.Idle) :
    (render tree input : Action (Renderer ℓ) FrameStats).Yields renderer
      (fun _ after => Balance (needIn tree.drawn + 1) renderer [] after ∧
        (ScriptlessIn tree.drawn → needIn tree.drawn + 1 ≤ after.targets.size))
      (fun _ after => Balance (needIn tree.drawn + 1) renderer [] after) := by
  refine render_yields (drawFrame_balanced tree input idle) ?_
  rintro failure after ⟨held, balance⟩
  exact balance.trans (.of_grew balance.holding.reclaim (balance.holding.reclaim_grew _))

/-- **A frame leaves a renderer sound**, whether it failed or not. -/
theorem render_sound (tree : CompiledTree) (input : FrameInput) (sound : renderer.Sound) :
    ((render tree input).runOn renderer).2.Sound :=
  Yields.after_iff.mp ((render_balanced tree input sound.idle).mono
    (fun _ _ balance => balance.1.sound sound) fun _ _ balance => balance.sound sound)

end

end Renderer
end Collage
