import Collage.Frame.Renderer
import Collage.Proofs.Device.Orders
import Collage.Proofs.Frame.Balance
import Collage.Proofs.Frame.Together

/-!
# Pools and script layers without handles

Nothing that a frame does depends on which handles textures and framebuffers have.  A target, a
pool or what is known of a script layer is `blank` when its handles are taken out of it.

Here are the actions of pools and of script layers that differ in handles only, on devices that are
`Device.Companions`, and what a frame does with a pool.
-/

namespace Collage

open Collage.Action

/-- A target without its handles. -/
def RenderTarget.blank (target : RenderTarget) : RenderTarget :=
  { target with framebuffer := 0, texture := 0 }

/-- A relation of devices that goes on where both are asked for the same and told nothing that is
drawn: both create a framebuffer or neither does, and so with textures. -/
structure Device.Companions (R : Device → Device → Prop) : Prop where
  framebuffer : ∀ {left right}, R left right → ∀ width height,
    R (left.createFramebuffer width height).2 (right.createFramebuffer width height).2 ∧
      Device.SameOutcome (left.createFramebuffer width height).1
        (right.createFramebuffer width height).1
  texture : ∀ {left right}, R left right → ∀ filter filter' wrap wrap',
    R (left.createTexture filter wrap).2 (right.createTexture filter' wrap').2 ∧
      Device.SameOutcome (left.createTexture filter wrap).1
        (right.createTexture filter' wrap').1
  hushed : ∀ {left right after later}, R left right → Device.Hushed left after →
    Device.Hushed right later → R after later

namespace Device.Companions

variable {R : Device → Device → Prop} {left right : Device} (companions : Companions R)
  (h : R left right)

include companions h

theorem newFramebuffer (width height : Nat) :
    Together (RenderTargets.newFramebuffer width height)
      (RenderTargets.newFramebuffer width height) left right (fun _ _ => R) R := by
  have created := companions.framebuffer h width height
  unfold Together runOn ExceptT.run RenderTargets.newFramebuffer
  revert created
  generalize left.createFramebuffer width height = first
  generalize right.createFramebuffer width height = second
  obtain ⟨result, after⟩ := first
  obtain ⟨result', later⟩ := second
  rintro ⟨related, ⟨handles, handles', rfl, rfl⟩ | ⟨failure, rfl, rfl⟩⟩
  · exact related
  · exact ⟨rfl, related⟩

theorem newTexture (filter : TextureFilter) (wrap : TextureWrap) :
    Together (TextureCache.newTexture filter wrap) (TextureCache.newTexture filter wrap)
      left right (fun _ _ => R) R := by
  have created := companions.texture h filter filter wrap wrap
  unfold Together runOn ExceptT.run TextureCache.newTexture
  revert created
  generalize left.createTexture filter wrap = first
  generalize right.createTexture filter wrap = second
  obtain ⟨result, after⟩ := first
  obtain ⟨result', later⟩ := second
  rintro ⟨related, ⟨texture, texture', rfl, rfl⟩ | ⟨failure, rfl, rfl⟩⟩
  · exact related
  · exact ⟨rfl, related⟩

theorem bindFramebuffer (handle handle' : Option Handle) (width width' height height' : Nat) :
    R (left.bindFramebuffer handle width height) (right.bindFramebuffer handle' width' height') :=
  companions.hushed h (left.hushed_bindFramebuffer handle width height)
    (right.hushed_bindFramebuffer handle' width' height')

theorem bindTexture (unit : Nat) (texture texture' : Option Handle) :
    R (left.bindTexture unit texture) (right.bindTexture unit texture') :=
  companions.hushed h (left.hushed_bindTexture unit texture)
    (right.hushed_bindTexture unit texture')

theorem upload (texture texture' : Handle) (width height : Nat) (bytes : List UInt8) :
    R (left.uploadTexture texture width height bytes)
      (right.uploadTexture texture' width height bytes) :=
  companions.hushed h (left.hushed_uploadTexture texture width height bytes)
    (right.hushed_uploadTexture texture' width height bytes)

end Device.Companions

namespace RenderTargets

/-- A pool without handles. -/
def blank (pool : RenderTargets) : RenderTargets :=
  { pool with targets := pool.targets.map RenderTarget.blank }

section

variable (pool : RenderTargets)

theorem blank_add (target : RenderTarget) :
    ({ pool with targets := pool.targets ++ [target] } : RenderTargets).blank =
      { pool.blank with targets := pool.blank.targets ++ [target.blank] } := by
  unfold blank
  dsimp only
  rw [List.map_append, List.map_singleton]

theorem blank_withUse (id : Nat) (use : TargetUse) :
    (pool.withUse id use).blank = pool.blank.withUse id use := by
  have targets : (pool.targets.modify id fun target => { target with use := use }).map
      RenderTarget.blank =
      (pool.targets.map RenderTarget.blank).modify id fun target => { target with use := use } := by
    refine List.ext_getElem? fun place => ?_
    rw [List.getElem?_map, List.getElem?_modify, List.getElem?_modify, List.getElem?_map]
    cases pool.targets[place]? with
    | none => rfl
    | some target =>
      dsimp only [Option.map_eq_map, Option.map_some]
      split <;> rfl
  unfold blank withUse
  dsimp only
  rw [targets]

theorem holders_blank (id : Nat) : pool.blank.holders id = pool.holders id := by
  unfold holders blank
  dsimp only
  rw [List.getElem?_map]
  cases pool.targets[id]? <;> rfl

theorem blank_release (id : Nat) : (pool.release id).map blank = pool.blank.release id := by
  unfold release
  rw [holders_blank]
  cases pool.holders id with
  | error failure => rfl
  | ok count =>
    change Except.ok _ = Except.ok _
    rw [← blank_withUse]
    split <;> rfl

theorem blank_reclaim : pool.reclaim.2.blank = pool.blank.reclaim.2 := by
  have inUse : pool.blank.inUse = pool.inUse := by
    unfold inUse blank
    dsimp only
    rw [List.length_map]
    refine List.filter_congr fun id _ => ?_
    rw [List.getElem?_map]
    cases pool.targets[id]? with
    | none => rfl
    | some target =>
      obtain ⟨_, _, _, _, use⟩ := target
      rcases use with _ | _ | _ <;> rfl
  unfold reclaim
  dsimp only
  rw [inUse]
  unfold blank
  dsimp only
  rw [List.map_map, List.map_map]
  congr 1
  refine List.map_congr_left fun target _ => ?_
  obtain ⟨_, _, _, _, use⟩ := target
  cases use <;> rfl

end

/-! ### Devices and pools -/

variable {device other : Device} {pool pool' : RenderTargets}

/-- **Pools that differ in handles only** hand out the same targets, if their devices go
together. -/
theorem request_companions {R : Device → Device → Prop} (companions : Device.Companions R)
    (related : R device other) (same : pool.blank = pool'.blank) :
    Together request request (device, pool) (other, pool')
      (fun out out' after later =>
        out = out' ∧ R after.1 later.1 ∧ after.2.blank = later.2.blank)
      (fun after later => R after.1 later.1 ∧ after.2.blank = later.2.blank) := by
  have deleted : pool.blank.deleted = pool'.blank.deleted := congrArg _ same
  have unused : pool.blank.unused = pool'.blank.unused := congrArg _ same
  have size : pool.blank.renderSize = pool'.blank.renderSize := congrArg _ same
  have length : pool.blank.targets.length = pool'.blank.targets.length :=
    congrArg (fun pool => pool.targets.length) same
  change pool.deleted = pool'.deleted at deleted
  change pool.unused = pool'.unused at unused
  change pool.renderSize = pool'.renderSize at size
  unfold blank at length
  dsimp only at length
  rw [List.length_map, List.length_map] at length
  unfold request
  refine Together.get ?_
  dsimp only
  rw [deleted, unused, size, length]
  split
  · exact Together.throw _ ⟨related, same⟩
  split
  · rename_i id _
    refine Together.modify (Together.pure ⟨rfl, related, ?_⟩)
    have used := congrArg (fun pool : RenderTargets =>
      { pool.withUse id (.held 1) with unused := pool.unused.dropLast }) same
    dsimp only at used
    rw [← blank_withUse, ← blank_withUse] at used
    exact used
  · let create : Action State (Handle × Handle) :=
      Action.within Prod.fst (fun state device => (device, state.2))
        (newFramebuffer pool'.renderSize.1 pool'.renderSize.2)
    have created : Together create create (device, pool) (other, pool')
        (fun _ _ after later => R after.1 later.1 ∧ after.2 = pool ∧ later.2 = pool')
        (fun after later => R after.1 later.1 ∧ after.2.blank = later.2.blank) :=
      Together.within (companions.newFramebuffer related _ _)
        (fun _ _ _ _ related => ⟨related, rfl, rfl⟩) fun _ _ related => ⟨related, same⟩
    refine created.bind ?_
    rintro handles handles' ⟨after, _⟩ ⟨later, _⟩ ⟨related, rfl, rfl⟩
    refine Together.modify (Together.pure ⟨rfl, related, ?_⟩)
    dsimp only
    rw [blank_add, blank_add, same]
    rfl

end RenderTargets

/-! ### Script layers -/

/-- What is known of a script layer without the handle of its texture. -/
def ExternalState.blank (state : ExternalState) : ExternalState :=
  { state with texture := state.texture.map fun _ => 0 }

namespace ExternalState

variable {state other : ExternalState}

theorem inFlight_eq (same : state.blank = other.blank) : state.inFlight = other.inFlight := by
  have equal : state.blank.inFlight = other.blank.inFlight := congrArg _ same
  exact equal

theorem lastApplied_eq (same : state.blank = other.blank) :
    state.lastApplied = other.lastApplied := by
  have equal : state.blank.lastApplied = other.blank.lastApplied := congrArg _ same
  exact equal

/-- Both have a texture, or neither has. -/
theorem texture_cases (same : state.blank = other.blank) :
    (state.texture = none ∧ other.texture = none) ∨
    ∃ texture texture', state.texture = some texture ∧ other.texture = some texture' := by
  have equal : state.blank.texture = other.blank.texture := congrArg _ same
  unfold blank at equal
  dsimp only at equal
  cases found : state.texture <;> cases there : other.texture <;> rw [found, there] at equal
  · exact .inl ⟨rfl, rfl⟩
  · cases equal
  · cases equal
  · exact .inr ⟨_, _, rfl, rfl⟩

end ExternalState

namespace ExternalLayers

/-- Layers that differ in handles only. -/
structure Alike (layers other : ExternalLayers) : Prop where
  framesAhead : layers.framesAhead = other.framesAhead
  connected : layers.connected = other.connected
  submitted : layers.submitted = other.submitted
  waiting : layers.waiting = other.waiting
  requests : layers.requests = other.requests
  states : ∀ layer, (layers.states.get? layer).map ExternalState.blank =
    (other.states.get? layer).map ExternalState.blank

theorem Alike.refl (layers : ExternalLayers) : Alike layers layers :=
  ⟨rfl, rfl, rfl, rfl, rfl, fun _ => rfl⟩

variable {layers other : ExternalLayers} {state state' : ExternalState}

theorem Alike.set (h : Alike layers other) (layer : String) (same : state.blank = state'.blank) :
    Alike { layers with states := layers.states.set layer state }
      { other with states := other.states.set layer state' } := by
  refine { h with states := fun asked => ?_ }
  dsimp only
  by_cases own : asked = layer
  · rw [own, Table.get?_set_self, Table.get?_set_self, Option.map_some, Option.map_some, same]
  · rw [Table.get?_set_other _ _ own, Table.get?_set_other _ _ own]
    exact h.states asked

theorem Alike.known (h : Alike layers other) (layer : String) :
    (layers.states.get? layer = none ∧ other.states.get? layer = none) ∨
    ∃ state state', layers.states.get? layer = some state ∧
      other.states.get? layer = some state' ∧ state.blank = state'.blank := by
  have same := h.states layer
  cases found : layers.states.get? layer <;> cases there : other.states.get? layer <;>
    rw [found, there] at same
  · exact .inl ⟨rfl, rfl⟩
  · cases same
  · cases same
  · exact .inr ⟨_, _, rfl, rfl, Option.some_inj.mp same⟩

theorem Alike.stateOf (h : Alike layers other) (layer : String) :
    (layers.stateOf layer).blank = (other.stateOf layer).blank := by
  unfold ExternalLayers.stateOf
  obtain ⟨found, there⟩ | ⟨_, _, found, there, same⟩ := h.known layer
  · rw [found, there]
  · rw [found, there]
    exact same


theorem Alike.wantsRequest (h : Alike layers other) (layer : String) :
    layers.wantsRequest layer = other.wantsRequest layer := by
  unfold ExternalLayers.wantsRequest
  rw [h.connected, h.framesAhead, ExternalState.inFlight_eq (h.stateOf layer)]

theorem Alike.texture? (h : Alike layers other) (layer : String) :
    (layers.texture? layer = none ∧ other.texture? layer = none) ∨
    ∃ texture texture', layers.texture? layer = some texture ∧
      other.texture? layer = some texture' := by
  unfold ExternalLayers.texture?
  obtain ⟨found, there⟩ | ⟨state, state', found, there, same⟩ := h.known layer
  · rw [found, there]
    exact .inl ⟨rfl, rfl⟩
  · rw [found, there, Option.bind_some, Option.bind_some]
    exact ExternalState.texture_cases same

theorem Alike.request (h : Alike layers other) (layer : String) (make : Nat → ExternalRequest) :
    Alike (layers.request layer make).2 (other.request layer make).2 := by
  unfold ExternalLayers.request
  rw [h.wantsRequest]
  split
  · have blank : ExternalState.blank
        { layers.stateOf layer with inFlight := (layers.stateOf layer).inFlight + 1 } =
        ExternalState.blank
          { other.stateOf layer with inFlight := (other.stateOf layer).inFlight + 1 } :=
      congrArg (fun state : ExternalState => { state with inFlight := state.inFlight + 1 })
        (h.stateOf layer)
    dsimp only
    rw [h.requests, h.submitted]
    exact { h.set layer blank with submitted := rfl, requests := rfl }
  · exact h

/-! ### Results of scripts -/

section

variable {R : Device → Device → Prop} {pair pair' : State}

/-- Two that differ in handles only, on devices that go together. -/
structure Paired (R : Device → Device → Prop) (pair pair' : State) : Prop where
  device : R pair.1 pair'.1
  layers : Alike pair.2 pair'.2

theorem Paired.set (h : Paired R pair pair') (layer : String) (same : state.blank = state'.blank) :
    Paired R (pair.1, { pair.2 with states := pair.2.states.set layer state })
      (pair'.1, { pair'.2 with states := pair'.2.states.set layer state' }) :=
  ⟨h.device, h.layers.set layer same⟩

variable (companions : Device.Companions R)

include companions

theorem textureFor_companions (h : Paired R pair pair') (layer : String)
    (same : state.blank = state'.blank) :
    Together (textureFor layer state) (textureFor layer state') pair pair'
      (fun _ _ => Paired R) (Paired R) := by
  unfold textureFor
  obtain ⟨found, there⟩ | ⟨texture, texture', found, there⟩ := ExternalState.texture_cases same
  · rw [found, there]
    dsimp only
    let create : Action State Handle := Action.within Prod.fst (fun pair device => (device, pair.2))
      (TextureCache.newTexture .linear .clamp)
    have created : Together create create pair pair' (fun _ _ => Paired R) (Paired R) :=
      Together.within (companions.newTexture h.device .linear .clamp)
        (fun _ _ _ _ device => ⟨device, h.layers⟩) fun _ _ device => ⟨device, h.layers⟩
    refine created.bind fun texture texture' after later beside => ?_
    refine Together.modify (Together.pure ⟨beside.device, beside.layers.set layer ?_⟩)
    unfold ExternalState.blank
    dsimp only
    rw [ExternalState.inFlight_eq same, ExternalState.lastApplied_eq same]
    rfl
  · rw [found, there]
    exact Together.pure h

/-- **A result is shown by both**, or by neither. -/
theorem apply_companions (h : Paired R pair pair') (result : ExternalResult) :
    Together (apply result) (apply result) pair pair'
      (fun shown shown' after later => shown = shown' ∧ Paired R after later) (Paired R) := by
  unfold apply
  refine Together.get ?_
  obtain ⟨found, there⟩ | ⟨state, state', found, there, same⟩ := h.layers.known result.layer
  · rw [found, there]
    exact Together.pure ⟨rfl, h⟩
  · rw [found, there]
    have fewer : ExternalState.blank { state with inFlight := state.inFlight - 1 } =
        ExternalState.blank { state' with inFlight := state'.inFlight - 1 } :=
      congrArg (fun state : ExternalState => { state with inFlight := state.inFlight - 1 }) same
    have first := h.set result.layer fewer
    have last := ExternalState.lastApplied_eq same
    refine Together.modify ?_
    dsimp only
    by_cases old : result.number ≤ state.lastApplied
    · rw [if_pos old, if_pos (last ▸ old)]
      exact Together.pure ⟨rfl, first⟩
    · rw [if_neg old, if_neg (last ▸ old)]
      refine (textureFor_companions companions first result.layer fewer).bind ?_
      intro texture texture' after later beside
      refine Together.modify (Together.modify (Together.pure ⟨rfl, ?_, ?_⟩))
      · exact companions.upload beside.device _ _ _ _ _
      · refine beside.layers.set result.layer ?_
        unfold ExternalState.blank
        dsimp only
        rw [ExternalState.inFlight_eq same]
        rfl

theorem drainAll_companions : ∀ (results : List ExternalResult) {pair pair' : State},
    Paired R pair pair' →
    Together (drainAll results) (drainAll results) pair pair'
      (fun shown shown' after later => shown = shown' ∧ Paired R after later) (Paired R)
  | [], _, _, h => Together.pure ⟨rfl, h⟩
  | result :: rest, pair, pair', h => by
    have left : Paired R (pair.1, { pair.2 with waiting := rest })
        (pair'.1, { pair'.2 with waiting := rest }) := ⟨h.device, { h.layers with waiting := rfl }⟩
    unfold drainAll
    refine Together.modify ?_
    refine (apply_companions companions left result).bind ?_
    rintro shown _ after later ⟨rfl, beside⟩
    refine (drainAll_companions rest beside).bind ?_
    rintro others _ _ _ ⟨rfl, beside⟩
    exact Together.pure ⟨rfl, beside⟩

/-- **Results that have come back are shown by both**, if their devices go together. -/
theorem drain_companions (h : Paired R pair pair') :
    Together drain drain pair pair'
      (fun shown shown' after later => shown = shown' ∧ Paired R after later) (Paired R) := by
  refine Together.get ?_
  rw [h.layers.waiting]
  exact drainAll_companions companions _ h

end

end ExternalLayers

/-! ### Renderers with pools that are alike -/

namespace Renderer

variable {ℓ : Type} {first second : Renderer ℓ}

/-- Both have the target, and it differs in handles only, or neither has. -/
theorem target_together (same : first.targets.blank = second.targets.blank) (id : Nat) :
    Together (target id) (target id) first second
      (fun target target' after later =>
        target.blank = target'.blank ∧ after = first ∧ later = second)
      fun after later => after = first ∧ later = second := by
  have same : (first.targets.targets[id]?).map RenderTarget.blank =
      (second.targets.targets[id]?).map RenderTarget.blank := by
    have same := congrArg (fun pool : RenderTargets => pool.targets[id]?) same
    unfold RenderTargets.blank at same
    dsimp only at same
    rwa [List.getElem?_map, List.getElem?_map] at same
  unfold target
  refine Together.get ?_
  cases found : first.targets.targets[id]? <;> cases there : second.targets.targets[id]? <;>
    rw [found, there] at same
  · exact Together.throw _ ⟨rfl, rfl⟩
  · cases same
  · cases same
  · exact Together.pure ⟨Option.some_inj.mp same, rfl, rfl⟩

/-- Both give the target back, and the pools stay alike, or neither does. -/
theorem releaseTarget_together (same : first.targets.blank = second.targets.blank) (id : Nat) :
    Together (releaseTarget id) (releaseTarget id) first second
      (fun _ _ after later => ∃ pool pool' : RenderTargets, pool.blank = pool'.blank ∧
        after = { first with targets := pool } ∧ later = { second with targets := pool' })
      fun after later => after = first ∧ later = second := by
  have same : (first.targets.release id).map RenderTargets.blank =
      (second.targets.release id).map RenderTargets.blank := by
    rw [RenderTargets.blank_release, RenderTargets.blank_release, same]
  unfold releaseTarget
  refine Together.get ?_
  cases released : first.targets.release id <;> cases released' : second.targets.release id <;>
    rw [released, released'] at same
  · cases same
    exact Together.throw _ ⟨rfl, rfl⟩
  · cases same
  · cases same
  · exact Together.modified ⟨_, _, Except.ok.inj same, rfl, rfl⟩

/-- Two frames end alike if drawing them does, and what a failure has left in use is taken back on
both sides. -/
theorem render_together_of_draw [TextureLoader ℓ] {tree tree' : CompiledTree} {input : FrameInput}
    {ok : FrameStats → FrameStats → Renderer ℓ → Renderer ℓ → Prop}
    {failed : Renderer ℓ → Renderer ℓ → Prop}
    (drawn : Together (drawFrame tree input) (drawFrame tree' input) first second ok failed)
    (reclaimed : ∀ after later, failed after later →
      failed { after with targets := after.targets.reclaim.2 }
        { later with targets := later.targets.reclaim.2 }) :
    Together (render tree input) (render tree' input) first second ok failed := by
  unfold Together at drawn ⊢
  rw [runOn_render, runOn_render]
  generalize (drawFrame tree input).runOn first = left at drawn ⊢
  generalize (drawFrame tree' input).runOn second = right at drawn ⊢
  obtain ⟨result, after⟩ := left
  obtain ⟨result', later⟩ := right
  cases result <;> cases result'
  · exact ⟨drawn.1, reclaimed after later drawn.2⟩
  · exact drawn
  · exact drawn
  · exact drawn

end Renderer
end Collage
