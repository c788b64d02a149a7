import Collage.Proofs.Frame.Stage

/-!
# Drawing a layer

What a program is given, and what it draws then.  Each action that prepares a program
does to the device what the compositing of pictures does to its memory: the values of
uniforms (`uniformData_drawing`, `writeUniforms_drawing`), the values
that every layer is given (`setBuiltins_drawing`), and with both the drawing itself
(`drawWith_stage`).
-/

namespace Collage
namespace Renderer

open Collage.Action

variable {ℓ ι : Type} {studio : Studio ι} {renderer : Renderer ℓ} {out : Nat} {program : Handle}
  {units : Units ι} {views : List (Handle × ι)} {held : List (Nat × ι)} {memory : Memory ι}

/-! ### Values -/

theorem Stage.of_stats (h : Stage studio renderer held memory) (stats : FrameStats) :
    Stage studio { renderer with stats } held memory :=
  ⟨h.holding, h.apart, h.shows, h.same, h.recalls⟩

theorem count_stage (h : Stage studio renderer held memory) (change : FrameStats → FrameStats)
    {failed : Failure → Renderer ℓ → Prop} :
    (count change : Action (Renderer ℓ) Unit).Yields renderer
      (fun _ after => Stage studio after held memory) failed :=
  Yields.modified (h.of_stats _)

theorem Stage.of_input (h : Stage studio renderer held memory) (input : InputState) :
    Stage studio { renderer with input } held { memory with input } :=
  ⟨h.holding, h.apart, h.shows, h.same, by rw [← h.recalls]; rfl⟩

theorem Drawing.of_input (h : Drawing studio renderer out program units views held memory)
    (input : InputState) :
    Drawing studio { renderer with input } out program units views held { memory with input } := by
  obtain ⟨stale, stage⟩ := h.stage
  exact ⟨⟨⟨stale, stage.of_input input⟩, h.goal, h.size, h.views⟩, h.program, h.sight, h.given⟩

theorem Stage.frameValue_eq (h : Stage studio renderer held memory) (layer : String)
    (uniform : Uniform) :
    (Memory.frameValue studio.frame studio.levels layer uniform).run memory =
      ((InputState.frameValue studio.frame renderer.levels layer uniform renderer.input).1,
        { memory with input :=
          (InputState.frameValue studio.frame renderer.levels layer uniform
            renderer.input).2 }) := by
  have levels : renderer.levels = studio.levels := congrArg Studio.levels h.same
  have input : renderer.input = memory.input := congrArg Memory.input h.recalls
  rw [levels, input]
  rfl

theorem onTextures_drawing (h : Drawing studio renderer out program units views held memory)
    {action : Action (TextureCache.State ℓ) Handle} {key : TextureKey} {width height : Nat}
    {bytes : List UInt8}
    (found : ∀ state, action.Yields state (TextureCache.Found key width height bytes state)
      (TextureCache.Failed key state)) :
    (onTextures action).Yields renderer
      (fun texture after =>
        Drawing studio after out program units views held
          ((Memory.picture key (studio.painter.upload width height bytes)).run memory).2 ∧
        after.device.Sees studio.painter texture
          ((Memory.picture key (studio.painter.upload width height bytes)).run memory).1)
      fun failure _ => failure.OfDevice := by
  unfold onTextures
  refine (Yields.within (found _)).mono ?_ ?_
  · rintro texture _ ⟨changed, found, rfl⟩
    exact h.of_found found
  · rintro failure _ ⟨_, ⟨_, _, _, cause, _, _, same, _⟩, _⟩
    exact ⟨cause, same⟩

section

variable [TextureLoader ℓ]

theorem valueData_of_data {painter : Painter ι} {value : FrameValue}
    (plain : value.picture? painter = none) (unit : Nat) :
    (valueData unit value : Action (Renderer ℓ) _) = pure (value.data, unit) := by
  cases value with
  | stored value =>
    cases value with
    | sampler descriptor => cases plain
    | gradient ramp => cases plain
    | _ => rfl
  | _ => rfl

/-- A value that is a texture puts its picture into the next unit. -/
theorem valueData_drawing (h : Drawing studio renderer out program units views held memory)
    {value : FrameValue} {key : TextureKey} {first : ι}
    (shown : value.picture? studio.painter = some (key, first)) (unit : Nat) :
    (valueData unit value : Action (Renderer ℓ) _).Yields renderer
      (fun pair after => pair = (some (.ints [unit]), unit + 1) ∧
        Drawing studio after out program
          (Function.update units unit (some ((Memory.picture key first).run memory).1)) views held
          ((Memory.picture key first).run memory).2)
      fun failure _ => failure.OfDevice := by
  cases value with
  | stored value =>
    cases value with
    | sampler descriptor =>
      cases shown
      refine (onTextures_drawing h (TextureCache.sampler_yields descriptor)).bind ?_
        fun _ _ failed => failed
      rintro texture after ⟨drawing, sees⟩
      exact Yields.modify (Yields.pure ⟨rfl, drawing.bindTexture sees unit⟩)
    | gradient ramp =>
      cases shown
      refine (onTextures_drawing h (TextureCache.gradient_yields ramp)).bind ?_
        fun _ _ failed => failed
      rintro texture after ⟨drawing, sees⟩
      exact Yields.modify (Yields.pure ⟨rfl, drawing.bindTexture sees unit⟩)
    | _ => cases shown
  | _ => cases shown

section

variable {layer : String} {uniform : Uniform}

/-- A uniform that is a texture puts its picture into the next unit. -/
theorem uniformData_of_picture (h : Drawing studio renderer out program units views held memory)
    {key : TextureKey} {first : ι}
    (shown : ((Memory.frameValue studio.frame studio.levels layer uniform).run
      memory).1.picture? studio.painter = some (key, first)) (unit : Nat) :
    (uniformData studio.frame unit layer uniform : Action (Renderer ℓ) _).Yields renderer
      (fun pair after =>
        let found := (Memory.picture key first).run
          ((Memory.frameValue studio.frame studio.levels layer uniform).run memory).2
        pair = (some (.ints [unit]), unit + 1) ∧
        Drawing studio after out program (Function.update units unit (some found.1)) views held
          found.2)
      fun failure _ => failure.OfDevice := by
  obtain ⟨stale, stage⟩ := h.stage
  rw [stage.frameValue_eq] at shown ⊢
  refine (evaluate_yields studio.frame layer uniform renderer).bind ?_ fun _ _ failed => failed
  rintro value after ⟨rfl, rfl⟩
  exact valueData_drawing (h.of_input _) shown unit

/-- Any other uniform leaves the units. -/
theorem uniformData_of_data (h : Drawing studio renderer out program units views held memory)
    (plain : ((Memory.frameValue studio.frame studio.levels layer uniform).run
      memory).1.picture? studio.painter = none) (unit : Nat) :
    (uniformData studio.frame unit layer uniform : Action (Renderer ℓ) _).Yields renderer
      (fun pair after =>
        let value := (Memory.frameValue studio.frame studio.levels layer uniform).run memory
        pair = (value.1.data, unit) ∧
        Drawing studio after out program units views held value.2)
      fun failure _ => failure.OfDevice := by
  obtain ⟨stale, stage⟩ := h.stage
  rw [stage.frameValue_eq] at plain ⊢
  refine (evaluate_yields studio.frame layer uniform renderer).bind ?_ fun _ _ failed => failed
  rintro value after ⟨rfl, rfl⟩
  rw [valueData_of_data plain]
  exact Yields.pure ⟨rfl, h.of_input _⟩

end

/-- **Uniforms are given their values one after another.** -/
theorem writeUniforms_drawing : ∀ (uniforms : List PlacedUniform) (unit : Nat) {units : Units ι}
    {memory : Memory ι} {renderer : Renderer ℓ},
    Drawing studio renderer out program units views held memory →
    (writeUniforms studio.frame unit uniforms : Action (Renderer ℓ) Unit).Yields renderer
      (fun _ after => Drawing studio after out program
        ((studio.prepare program unit uniforms units).run memory).1 views held
        ((studio.prepare program unit uniforms units).run memory).2)
      fun failure _ => failure.OfDevice
  | [], _, _, _, _, h => Yields.pure h
  | placed :: rest, unit, units, memory, renderer, h => by
    have step : (studio.prepare program unit (placed :: rest) units).run memory =
        (studio.prepare program ((studio.assign program unit placed units).run memory).1.1 rest
          ((studio.assign program unit placed units).run memory).1.2).run
          ((studio.assign program unit placed units).run memory).2 := rfl
    rw [step]
    unfold writeUniforms
    cases shown : ((Memory.frameValue studio.frame studio.levels placed.layer placed.uniform).run
        memory).1.picture? studio.painter with
    | some pair =>
      obtain ⟨key, first⟩ := pair
      rw [Studio.assign_of_picture shown]
      refine (uniformData_of_picture h shown unit).bind ?_ fun _ _ failed => failed
      rintro _ after ⟨rfl, drawing⟩
      exact Yields.modify (writeUniforms_drawing rest _ (drawing.setUniform placed.location _))
    | none =>
      rw [Studio.assign_of_data shown]
      refine (uniformData_of_data h shown unit).bind ?_ fun _ _ failed => failed
      rintro _ after ⟨rfl, drawing⟩
      dsimp only at drawing ⊢
      cases ((Memory.frameValue studio.frame studio.levels placed.layer placed.uniform).run
          memory).1.data with
      | none => exact writeUniforms_drawing rest unit drawing
      | some value =>
        exact Yields.modify
          (writeUniforms_drawing rest _ (drawing.setUniform placed.location value))

end

/-! ### Programs -/

theorem Drawing.writeAll : ∀ (writes : List (Option Nat × UniformData)) {memory : Memory ι}
    {renderer : Renderer ℓ}, Drawing studio renderer out program units views held memory →
    Drawing studio { renderer with device := writes.foldl writeAt renderer.device } out program
      units views held (writes.foldl (Memory.give program) memory)
  | [], _, _, h => h
  | (none, _) :: rest, _, _, h => Drawing.writeAll rest h
  | (some location, value) :: rest, _, _, h => Drawing.writeAll rest (h.setUniform location value)

/-- What every layer is given: values, the picture below, and the sound if it listens. -/
theorem setBuiltins_drawing
    (h : Drawing studio renderer out program (fun _ => none) views held memory) {read : Nat}
    {below : ι} (inside : (read, below) ∈ held) {previous : RenderTarget}
    (found : renderer.targets.targets[read]? = some previous)
    (locations : BuiltinLocations) (blend : BlendMode) (opacity : Float32)
    {failed : Failure → Renderer ℓ → Prop} :
    (setBuiltins locations studio.frame previous.texture blend opacity :
      Action (Renderer ℓ) Unit).Yields renderer
      (fun _ after => Drawing studio after out program (studio.firstUnits locations below) views
        held ((studio.builtins locations blend opacity).foldl (Memory.give program) memory))
      failed := by
  obtain ⟨stale, stage⟩ := h.stage
  have writes : builtinWrites locations studio.frame renderer blend opacity =
      studio.builtins locations blend opacity :=
    congrFun (congrFun (congrFun (congrArg Studio.builtins stage.same) locations) blend) opacity
  have given := h.writeAll (studio.builtins locations blend opacity)
  have first := given.bindTexture (given.sees_held inside found) previousUnit
  unfold setBuiltins
  refine Yields.get ?_
  dsimp only
  rw [writes]
  refine Yields.modified ?_
  unfold Studio.firstUnits
  dsimp only
  split
  · obtain ⟨stale, stage⟩ := first.stage
    have sees := first.sees_other spectrum_mem_others
    have spectrum : _ = studio.spectrum := congrArg Studio.spectrum stage.same
    exact first.bindTexture (spectrum ▸ sees) spectrumUnit
  · exact first

/-- **A program draws a picture over the one below.** -/
theorem drawWith_stage (h : Ready studio renderer out views held memory) {read : Nat} {below : ι}
    (inside : (read, below) ∈ held) (program : Handle) (locations : BuiltinLocations)
    (blend : BlendMode) (opacity : Float32) {prepare : Action (Renderer ℓ) Unit}
    (sketch : Units ι → StateM (Memory ι) (Units ι)) {failed : Failure → Renderer ℓ → Prop}
    (prepared : ∀ {units memory renderer},
      Drawing studio renderer out program units views held memory →
      prepare.Yields renderer
        (fun _ after => Drawing studio after out program ((sketch units).run memory).1 views held
          ((sketch units).run memory).2) failed) :
    (drawWith program locations studio.frame blend opacity read prepare).Yields renderer
      (fun _ after => Stage studio after
        ((out, ((studio.run program locations blend opacity below sketch).run memory).1) :: held)
        ((studio.run program locations blend opacity below sketch).run memory).2) failed := by
  obtain ⟨stale, stage⟩ := h.stage
  obtain ⟨previous, found, _⟩ := stage.shows _ (List.mem_cons_of_mem _ inside)
  have drawing := h.useProgram program
  unfold drawWith
  refine Yields.modify ?_
  refine target_yields (by exact found) ?_
  refine (setBuiltins_drawing drawing inside found locations blend opacity).bind ?_
    fun _ _ failed => failed
  intro _ given drawing
  refine (prepared drawing).bind ?_ fun _ _ failed => failed
  intro _ ready drawing
  exact Yields.modified drawing.draw

end Renderer
end Collage
