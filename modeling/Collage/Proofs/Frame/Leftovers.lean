import Collage.Proofs.Frame.Balance
import Collage.Proofs.Frame.Lifetime

/-!
# What frames and previews leave behind

Previews are drawn with a pool of their own that is deleted at the end.  The pool of the
frames is not touched by them, and as every framebuffer that they made belongs to a target
of their pool (`Grew.added`), the device has the framebuffers afterwards that it had before
(`previews_spare`), whether the previews could be drawn or not.

`strands_nothing` says this of previews and of frames: after a frame, failed or not, each
target but those of the ladder is free and stands in the list of free targets once, and
the pool is no larger than it was or than layers lie isolated in each other.
-/

namespace Collage

namespace RenderTargets

theorem achievableAntiAlias_one (width height maxDimension : Nat) :
    achievableAntiAlias width height 1 maxDimension = 1 := by
  have raised : raiseLevel 1 endless 1 = 1 := by decide
  rw [achievableAntiAlias, raised, lowerLevel, if_neg (by omega)]

theorem buildLadder_of_lt (steps : Nat) {factor : Nat} (low : factor < 2) (pool : RenderTargets) :
    buildLadder steps factor pool = pure pool := by
  cases steps with
  | zero => rfl
  | succ steps =>
    unfold buildLadder
    dsimp only
    rw [if_pos low]

theorem create_one (width height : Nat) (device : Device) :
    (create width height 1).runOn device =
      (.ok { width := max width 1, height := max height 1, antiAlias := 1 }, device) := by
  change (buildLadder 32 (achievableAntiAlias width height 1 device.traits.maxDimension / 2)
    { width := max width 1, height := max height 1,
      antiAlias := achievableAntiAlias width height 1 device.traits.maxDimension }).runOn device = _
  rw [achievableAntiAlias_one, buildLadder_of_lt 32 (by decide)]
  rfl

/-- A pool that began without targets takes its framebuffers with it when it is deleted. -/
theorem keys_delete {limit : Nat} {device later : Device} {start pool : RenderTargets}
    (grew : Grew limit (device, start) (later, pool)) (fresh : device.Fresh)
    (empty : start.framebuffers = []) (idle : pool.Idle) :
    (delete.runOn (later, pool)).2.1.framebuffers.keys = device.framebuffers.keys := by
  rw [(delete_after later idle).2]
  obtain ⟨freshLater, new, keys, same⟩ := grew.added fresh
  rw [empty, List.nil_append] at same
  have once := freshLater.once
  rw [keys] at once
  have apart := (List.nodup_append.mp once).2.2
  dsimp only at keys same
  rw [keys, same, List.filter_append]
  have kept : device.framebuffers.keys.filter (· ∉ new) = device.framebuffers.keys :=
    List.filter_eq_self.mpr fun key inside => by
      simpa using fun again => apart key inside key again rfl
  have gone : new.filter (· ∉ new) = [] :=
    List.filter_eq_nil_iff.mpr fun key inside => by simpa using inside
  rw [kept, gone, List.append_nil]

end RenderTargets

namespace Renderer

open Collage.Action
open RenderTargets (Holding Grew)
open LayerTree

variable {ℓ : Type} {renderer : Renderer ℓ}

theorem readTarget_balanced {read : Nat} (holding : renderer.targets.Holding [read]) :
    (readTarget read : Action (Renderer ℓ) Picture).Yields renderer
      (fun _ after => Balance 2 renderer [] after) (fun _ after => Stranded 2 renderer after) := by
  refine (tracks_rests.bindTarget read renderer).bind (fun _ bound rests => ?_)
    fun _ after rests => (rests.balance holding _).stranded
  have first := rests.balance holding 2
  refine Yields.get (Yields.followedBy (readPicture_keeps pixels_rests _ _ bound) ?_ ?_)
  · intro picture after rests
    have second := first.trans (rests.balance first.holding _)
    exact (releaseTarget_balanced second.holding 2).mono (fun _ _ => second.trans)
      fun _ _ failed => failed
  · intro failure after rests
    have second := first.trans (rests.balance first.holding _)
    exact (releaseTarget_balanced second.holding 2).mono
      (fun _ _ last => (second.trans last).stranded) fun _ _ failed => failed

/-! ### Previews -/

/-- What previews leave of a renderer: its pool, the framebuffers of the device, and textures
besides those of the pool that were there or were made. -/
structure Spares (before after : Renderer ℓ) : Prop where
  targets : after.targets = before.targets
  keys : after.device.framebuffers.keys = before.device.framebuffers.keys
  onward : Device.Onward before.device after.device
  gains : before.device.Gains after.device before.others after.others

theorem spares_of_grew {limit : Nat} {before inner : Renderer ℓ} {own pool : RenderTargets}
    (grew : Grew limit (before.device, own) (inner.device, pool)) (empty : own.framebuffers = [])
    (fresh : before.device.Fresh) (idle : pool.Idle)
    (gains : before.device.Gains inner.device before.others inner.others) :
    Spares before { inner with
      device := (RenderTargets.delete.runOn (inner.device, pool)).2.1
      targets := before.targets } := by
  have onward := (RenderTargets.delete_after inner.device idle).1
  exact ⟨rfl, RenderTargets.keys_delete grew fresh empty idle, grew.onward.trans onward,
    .trans grew.onward onward gains (.refl _)⟩

theorem Spares.sound {before after : Renderer ℓ} (h : Spares before after)
    (sound : before.Sound) : after.Sound := by
  refine ⟨h.targets ▸ sound.idle, ⟨h.keys ▸ sound.fresh.once, fun handle inside => ?_⟩, ?_⟩
  · rw [h.keys] at inside
    exact Nat.lt_of_lt_of_le (sound.fresh.below handle inside) h.onward.handles
  · exact RenderTargets.Apart.onward sound.apart h.onward (by rw [h.targets]) h.gains

section

variable [TextureLoader ℓ]

theorem composePreview_balanced (tree : CompiledTree) (frame : FrameContext)
    (layer : CompiledLayer) (idle : renderer.targets.Idle) :
    (composePreview tree frame layer : Action (Renderer ℓ) Nat).Yields renderer
      (fun read after => Balance 2 renderer [read] after)
      (fun _ after => Stranded 2 renderer after) := by
  refine (startTarget_balanced idle).bind (fun start taken ⟨first, _⟩ => ?_)
    fun _ _ failed => failed.mono (Nat.le_succ 1)
  have first := first.mono (Nat.le_succ 1)
  refine (tracks_rests.filled transparent taken).bind (fun _ cleared rests => ?_)
    fun _ after rests => (first.trans (rests.balance first.holding _)).stranded
  have second := first.trans (rests.balance first.holding _)
  refine (compositeCheckerboard_balanced frame True cleared start [] second.holding).bind
    (fun board drawn ⟨third, _⟩ => ?_) fun _ _ => second.before_stranded
  have third := second.trans third
  split
  · exact (compositeShader_balanced tree frame layer _ 1 True drawn board [] third.holding).mono
      (fun read after ⟨last, _⟩ => third.trans last) fun _ _ => third.before_stranded
  · exact Yields.pure third

theorem drawPreview_balanced (tree : CompiledTree) (frame : FrameContext) (id : String)
    (idle : renderer.targets.Idle) :
    (drawPreview tree frame id : Action (Renderer ℓ) (String × Picture)).Yields renderer
      (fun _ after => Balance 2 renderer [] after) (fun _ after => Stranded 2 renderer after) := by
  rw [drawPreview_eq]
  split
  · exact Yields.throw (Balance.refl idle 2).stranded
  · refine (composePreview_balanced tree frame _ idle).bind (fun read composed first => ?_)
      fun _ _ failed => failed
    refine (readTarget_balanced first.holding).bind (fun picture after second => ?_)
      fun _ _ => first.before_stranded
    exact Yields.pure (first.trans second)

theorem drawPreviews_balanced (tree : CompiledTree) (frame : FrameContext) :
    ∀ (ids : List String) (renderer : Renderer ℓ), renderer.targets.Idle →
      (ids.mapM (drawPreview tree frame) : Action (Renderer ℓ) _).Yields renderer
        (fun _ after => Balance 2 renderer [] after)
        (fun _ after => Stranded 2 renderer after)
  | [], renderer, idle => Yields.pure (.refl idle 2)
  | id :: rest, renderer, idle => by
    rw [List.mapM_cons]
    refine (drawPreview_balanced tree frame id idle).bind (fun picture drawn first => ?_)
      fun _ _ failed => failed
    refine (drawPreviews_balanced tree frame rest drawn first.holding).bind
      (fun pictures after second => ?_) fun _ _ => first.before_stranded
    exact Yields.pure (first.trans second)

/-- **Previews do what drawing them does**, with a pool of their own that is deleted behind them,
whether drawing failed or not. -/
theorem previews_yields {tree : CompiledTree} {ids : List String} {width height : Nat}
    {date : List Float32} {ok good : List (String × Picture) → Renderer ℓ → Prop}
    {failed bad : Failure → Renderer ℓ → Prop}
    (drawn : (ids.mapM (drawPreview tree { time := renderer.lastTime, date }) :
      Action (Renderer ℓ) _).Yields
        { renderer with targets := { width := max width 1, height := max height 1, antiAlias := 1 } }
        ok failed)
    (ends : ∀ pictures (inner : Renderer ℓ), ok pictures inner →
      let after := { inner with
        device := (RenderTargets.delete.runOn (inner.device, inner.targets)).2.1
        targets := renderer.targets }
      good pictures after ∧ ∀ failure, bad failure after)
    (fails : ∀ failure (inner : Renderer ℓ), failed failure inner → bad failure { inner with
      device := (RenderTargets.delete.runOn (inner.device, inner.targets.reclaim.2)).2.1
      targets := renderer.targets }) :
    (previews tree ids width height date).Yields renderer good bad := by
  have created := RenderTargets.create_one width height renderer.device
  unfold Yields at drawn ⊢
  unfold runOn ExceptT.run at created drawn ends fails ⊢
  unfold previews
  rw [created]
  dsimp only
  revert drawn
  cases List.mapM (drawPreview tree { time := renderer.lastTime, date }) ids { renderer with
      targets := { width := max width 1, height := max height 1, antiAlias := 1 } } with
  | mk result inner =>
    intro drawn
    cases result with
    | error failure => exact fails failure inner drawn
    | ok pictures =>
      have both := ends pictures inner drawn
      revert both
      dsimp only
      generalize RenderTargets.delete (inner.device, inner.targets) = deleted
      obtain ⟨_ | _, _⟩ := deleted
      · exact fun both => both.2 _
      · exact fun both => both.1

/-- **Previews leave the pool and the framebuffers as they were**, also where they fail. -/
theorem previews_spare (tree : CompiledTree) (ids : List String) (width height : Nat)
    (date : List Float32) (fresh : renderer.device.Fresh) :
    Spares renderer ((previews tree ids width height date).runOn renderer).2 := by
  refine Yields.after_iff.mp (previews_yields (drawPreviews_balanced tree
    { time := renderer.lastTime, date } ids { renderer with targets := _ }
    RenderTargets.idle_empty) ?_ ?_)
  · intro pictures inner balance
    have spared : Spares renderer _ :=
      spares_of_grew balance.grew rfl fresh balance.holding balance.gains
    exact ⟨spared, fun _ => spared⟩
  · rintro failure inner ⟨held, balance⟩
    exact spares_of_grew (balance.grew.trans (balance.holding.reclaim_grew 2)) rfl fresh
      balance.holding.reclaim balance.gains

/-- What a renderer is like after frames of a tree, and after previews. -/
structure StrandsNothing (renderer : Renderer ℓ) (tree : CompiledTree) : Prop where
  /-- after a frame all targets but those of the ladder are free -/
  free : ∀ input id target,
    let after := ((render tree input).runOn renderer).2
    after.targets.targets[id]? = some target → id ∉ after.targets.ladder →
      target.use = .held 0 ∧ after.targets.unused.count id = 1
  /-- two targets are enough, and one for each group that is drawn on its own in others -/
  bounded : ∀ input, ((render tree input).runOn renderer).2.targets.size ≤
    max renderer.targets.size (2 + isolationIn tree.drawn)
  /-- without scripts, a frame after one that did not fail asks for no targets -/
  settled : (∀ layer ∈ tree.layers, ∀ code, layer.kind ≠ .script code) →
    ∀ input again stats, ((render tree input).runOn renderer).1 = .ok stats →
      let first := ((render tree input).runOn renderer).2
      let second := ((render tree again).runOn first).2
      second.targets.size = first.targets.size ∧
        second.device.framebuffersAsked = first.device.framebuffersAsked
  /-- previews leave the pool and the number of framebuffers -/
  previews : ∀ ids width height date,
    let after := ((previews tree ids width height date).runOn renderer).2
    after.targets = renderer.targets ∧
      after.device.framebuffers.size = renderer.device.framebuffers.size

theorem free_of_idle {pool : RenderTargets} (idle : pool.Idle) {id : Nat} {target : RenderTarget}
    (found : pool.targets[id]? = some target) (outside : id ∉ pool.ladder) :
    target.use = .held 0 ∧ pool.unused.count id = 1 := by
  have inside := (List.getElem?_eq_some_iff.mp found).1
  have free : id ∈ pool.unused := (idle.known id).mpr ⟨inside, outside⟩
  obtain ⟨same, there, use⟩ := idle.free id free
  rw [found] at there
  cases there
  exact ⟨use, List.count_eq_one_of_mem idle.once free⟩

/-- **No frame strands a target, and previews leave the pool alone.**  The renderer has to be
sound, as all are that there are (`Reached.sound`). -/
theorem strands_nothing (sound : renderer.Sound) (tree : CompiledTree) :
    renderer.StrandsNothing tree := by
  obtain ⟨idle, fresh, _⟩ := sound
  have drawn : ∀ (renderer : Renderer ℓ), renderer.targets.Idle → ∀ input,
      Balance (needIn tree.drawn + 1) renderer [] ((render tree input).runOn renderer).2 :=
    fun renderer idle input => Yields.after_iff.mp
      ((render_balanced tree input idle).mono (fun _ _ good => good.1) fun _ _ failed => failed)
  refine { free := ?_, bounded := ?_, settled := ?_, previews := ?_ }
  · intro input id target after found outside
    exact free_of_idle (drawn renderer idle input).holding found outside
  · intro input
    have bounded : _ ≤ max renderer.targets.size _ := (drawn renderer idle input).grew.bounded
    have need := needIn_le tree.drawn
    refine Nat.le_trans bounded ?_
    omega
  · intro free input again stats succeeded
    have first := render_balanced tree input idle
    unfold Yields at first
    generalize (render tree input).runOn renderer = outcome at first succeeded ⊢
    obtain ⟨result, middle⟩ := outcome
    dsimp only at succeeded
    subst succeeded
    have room := first.2 (CompiledTree.drawn_scriptless free)
    have second := drawn middle first.1.holding again
    have larger : middle.targets.size ≤ _ := second.grew.larger
    have bounded : _ ≤ max middle.targets.size _ := second.grew.bounded
    rw [Nat.max_eq_left room] at bounded
    exact ⟨Nat.le_antisymm bounded larger, second.grew.content room⟩
  · intro ids width height date
    have spares := previews_spare tree ids width height date fresh
    refine ⟨spares.targets, ?_⟩
    have lengths := congrArg List.length spares.keys
    simpa only [Table.keys, Table.size, List.length_map] using lengths

end

theorem strands_nothing_bare : bare.Sound ∧ bare.StrandsNothing veiled :=
  ⟨bare_sound, strands_nothing bare_sound veiled⟩

end Renderer
end Collage
