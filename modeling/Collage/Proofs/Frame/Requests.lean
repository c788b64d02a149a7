import Collage.Proofs.Frame.Drawing

/-!
# Requests of script layers

A script layer that is drawn may make a request.  That changes no picture: the values of
its uniforms are taken from the input (`uniformValues_stage`), and one more request is
outstanding then (`requestScript_stage`).
-/

namespace Collage

namespace ExternalLayers

variable {layers : ExternalLayers} {layer : String}

theorem inFlight_request (wanted : layers.wantsRequest layer = true)
    (make : Nat → ExternalRequest) :
    (fun id => ((layers.request layer make).2.stateOf id).inFlight) =
      Function.update (fun id => (layers.stateOf id).inFlight) layer
        ((layers.stateOf layer).inFlight + 1) := by
  funext id
  unfold request
  rw [if_pos wanted]
  by_cases same : id = layer
  · subst same
    rw [Function.update_self, stateOf, Table.get?_set_self]
    rfl
  · rw [Function.update_of_ne same, stateOf, Table.get?_set_other _ _ same]
    rfl

theorem texture?_request (layers : ExternalLayers) (layer : String) (make : Nat → ExternalRequest)
    (id : String) : (layers.request layer make).2.texture? id = layers.texture? id := by
  unfold request
  split
  · by_cases same : id = layer
    · subst same
      rw [texture?, texture?, Table.get?_set_self, stateOf]
      cases layers.states.get? id <;> rfl
    · rw [texture?, texture?, Table.get?_set_other _ _ same]
  · rfl

theorem connected_request (layers : ExternalLayers) (layer : String)
    (make : Nat → ExternalRequest) :
    (layers.request layer make).2.connected = layers.connected ∧
      (layers.request layer make).2.framesAhead = layers.framesAhead := by
  unfold request
  split <;> exact ⟨rfl, rfl⟩

end ExternalLayers

theorem Memory.inFlight_mapM {ι : Type} (frame : FrameContext) (levels : AudioLevels)
    (layer : String) : ∀ (uniforms : List Uniform) (memory : Memory ι),
      ((uniforms.mapM (Memory.frameValue frame levels layer)).run memory).2.inFlight =
        memory.inFlight
  | [], _ => rfl
  | uniform :: rest, memory => by
    rw [List.mapM_cons]
    exact inFlight_mapM frame levels layer rest _

namespace Renderer

open Collage.Action

variable {ℓ ι : Type} {studio : Studio ι} {renderer : Renderer ℓ} {held : List (Nat × ι)}
  {memory : Memory ι}

/-- The values of uniforms for a request. -/
theorem uniformValues_stage (layer : String) : ∀ (uniforms : List Uniform) {memory : Memory ι}
    {renderer : Renderer ℓ}, Stage studio renderer held memory →
    ∀ {failed : Failure → Renderer ℓ → Prop},
    (uniforms.mapM fun uniform => do
        return (uniform.name, (← evaluate studio.frame layer uniform).toJson) :
      Action (Renderer ℓ) (List (String × Json))).Yields renderer
      (fun _ after => Stage studio after held
        ((uniforms.mapM (Memory.frameValue studio.frame studio.levels layer)).run memory).2) failed
  | [], _, _, h, _ => Yields.pure h
  | uniform :: rest, memory, renderer, h, failed => by
    have step : ((uniform :: rest).mapM (Memory.frameValue studio.frame studio.levels layer)).run
        memory = (((Memory.frameValue studio.frame studio.levels layer uniform).run memory).1 ::
          ((rest.mapM (Memory.frameValue studio.frame studio.levels layer)).run
            ((Memory.frameValue studio.frame studio.levels layer uniform).run memory).2).1,
          ((rest.mapM (Memory.frameValue studio.frame studio.levels layer)).run
            ((Memory.frameValue studio.frame studio.levels layer uniform).run memory).2).2) := by
      rw [List.mapM_cons]
      rfl
    have first : (do return (uniform.name, (← evaluate studio.frame layer uniform).toJson) :
        Action (Renderer ℓ) (String × Json)).Yields renderer
        (fun _ after => after = { renderer with input :=
          (InputState.frameValue studio.frame renderer.levels layer uniform renderer.input).2 })
        failed :=
      (evaluate_yields _ _ _ renderer).bind (fun _ _ same => Yields.pure same.2)
        fun _ _ failed => failed
    rw [List.mapM_cons, step, h.frameValue_eq]
    refine first.bind ?_ fun _ _ failed => failed
    rintro _ _ rfl
    exact (uniformValues_stage layer rest (h.of_input _)).bind (fun _ _ stage => Yields.pure stage)
      fun _ _ failed => failed

theorem Stage.wants_iff (h : Stage studio renderer held memory) (layer : String) :
    renderer.external.wantsRequest layer = true ↔ memory.inFlight layer < studio.requests := by
  have outstanding : (renderer.external.stateOf layer).inFlight = memory.inFlight layer :=
    congrFun (congrArg Memory.inFlight h.recalls) layer
  have requests : (if renderer.external.connected then renderer.external.framesAhead else 0) =
      studio.requests := congrArg Studio.requests h.same
  rw [← requests, ← outstanding, ExternalLayers.wantsRequest]
  cases renderer.external.connected <;> simp

theorem Stage.of_request (h : Stage studio renderer held memory) {layer : String}
    (wanted : renderer.external.wantsRequest layer = true) (make : Nat → ExternalRequest) :
    Stage studio { renderer with external := (renderer.external.request layer make).2 } held
      { memory with
        inFlight := Function.update memory.inFlight layer (memory.inFlight layer + 1) } := by
  refine ⟨h.holding, RenderTargets.Apart.onward h.apart (.refl _) rfl
    (.cons (.append (.refl _) (ExternalLayers.request_gains _ _ _ _ _))), h.shows, ?_, ?_⟩
  · rw [← h.same]
    have scripts := funext (renderer.external.texture?_request layer make)
    obtain ⟨connected, ahead⟩ := renderer.external.connected_request layer make
    unfold Renderer.studio
    dsimp only
    rw [connected, ahead, scripts]
    rfl
  · rw [← h.recalls]
    have inFlight := ExternalLayers.inFlight_request wanted make
    unfold Renderer.memory
    dsimp only
    rw [inFlight]

/-- **A script layer makes a request if it may.** -/
theorem requestScript_stage (h : Stage studio renderer held memory) (layer : CompiledLayer)
    (code : String) {failed : Failure → Renderer ℓ → Prop} :
    (requestScript studio.frame layer code : Action (Renderer ℓ) Unit).Yields renderer
      (fun _ after => Stage studio after held ((studio.request layer).run memory).2) failed := by
  have run : (studio.request layer).run memory =
      if memory.inFlight layer.id < studio.requests then
        let later := ((layer.uniforms.mapM
          (Memory.frameValue studio.frame studio.levels layer.id)).run memory).2
        ((), { later with
          inFlight := Function.update later.inFlight layer.id (later.inFlight layer.id + 1) })
      else ((), memory) := by
    change StateT.run (if memory.inFlight layer.id < studio.requests then _ else _) memory = _
    split <;> rfl
  rw [run]
  unfold requestScript
  refine Yields.get ?_
  have wants := h.wants_iff layer.id
  by_cases wanted : renderer.external.wantsRequest layer.id = true
  · rw [if_pos wanted, if_pos (wants.mp wanted)]
    refine (uniformValues_stage layer.id layer.uniforms h).bind ?_ fun _ _ failed => failed
    intro values after stage
    have again : after.external.wantsRequest layer.id = true := by
      refine (stage.wants_iff layer.id).mpr ?_
      rw [Memory.inFlight_mapM]
      exact wants.mp wanted
    refine Yields.get (Yields.modify ?_)
    split
    next made external requested =>
      obtain rfl := congrArg Prod.snd requested
      exact count_stage (stage.of_request again _) _
  · rw [if_neg wanted, if_neg fun may => wanted (wants.mpr may)]
    exact Yields.pure h

end Renderer
end Collage
