import Collage.Proofs.Frame.Stage

/-!
# What the output shows

At the end of a frame a target is presented: the picture that it shows is copied from
rung to rung of the ladder, each time in the size of the rung, and then to the output.
`Copies` says what stays the same on the way down, `copyFrom_copies` is one rung and
`descend_copies` all of them.  `present_output` puts the output on top: it shows what
`Copying.output` says, and nothing of this can fail.
-/

namespace Collage
namespace Renderer

open Collage.Action

variable {ℓ ι : Type} {painter : Painter ι} {renderer : Renderer ℓ} {device : Device}

/-- The size of a target. -/
def sizeOf (renderer : Renderer ℓ) (id : Nat) : Nat × Nat :=
  match renderer.targets.targets[id]? with
  | some target => (target.width, target.height)
  | none => (0, 0)

/-- How the pictures of a renderer get to the output. -/
def copying (renderer : Renderer ℓ) : Copying where
  program := renderer.programs.copy
  ladder := renderer.targets.ladder.map renderer.sizeOf
  size := renderer.targets.outputSize
  flip := renderer.options.flipOutput

/-- A texture that shows a picture is about to be copied by a program that has been given some
values. -/
structure Copies (painter : Painter ι) (renderer : Renderer ℓ) (program : Handle)
    (given : Nat → Option UniformData) (texture : Handle) (picture : ι) : Prop where
  apart : renderer.Apart
  current : (renderer.device.canvas painter).program = some program
  values : (renderer.device.canvas painter).given program = given
  /-- the program sees nothing but what it copies -/
  units : ∀ unit, unit ≠ previousUnit → (renderer.device.canvas painter).units unit = none
  shows : (renderer.device.canvas painter).shown texture = picture

variable {program : Handle} {given : Nat → Option UniformData} {texture : Handle} {picture : ι}

namespace Copies

variable (h : Copies painter renderer program given texture picture)

include h

theorem draw {framebuffer : Option Handle} {size : Nat × Nat}
    (ready : device.canvas painter = { renderer.device.canvas painter with
      bound := framebuffer
      size
      units := Function.update (renderer.device.canvas painter).units previousUnit (some texture) })
    (other : (device.canvas painter).goal ≠ some texture) :
    device.draw.canvas painter =
      (device.canvas painter).paint (painter.copy program given picture size) := by
  have current : (device.canvas painter).program = some program := by
    rw [ready]
    exact h.current
  have sight : (device.canvas painter).sight =
      Function.update (fun _ => none) previousUnit (some picture) := by
    rw [ready] at other ⊢
    refine (Canvas.sight_update { renderer.device.canvas painter with bound := framebuffer, size }
      other previousUnit).trans ?_
    funext unit
    by_cases same : unit = previousUnit
    · subst same
      rw [Function.update_self, Function.update_self]
      exact congrArg some h.shows
    · have empty : (renderer.device.canvas painter).units unit = none := h.units unit same
      rw [Function.update_of_ne same, Function.update_of_ne same, Canvas.sight]
      dsimp only
      rw [empty]
      rfl
  have values : (device.canvas painter).given program = given := by
    rw [ready]
    exact h.values
  have drawn : (device.canvas painter).size = size := by rw [ready]
  rw [Device.canvas_draw _ _ current, sight, values, drawn]
  rfl

theorem setUniform (location : Nat) (value : UniformData) :
    Copies painter { renderer with device := renderer.device.setUniform location value } program
      (Function.update given location (some value)) texture picture := by
  have calm := renderer.device.calm_setUniform location value
  have changed : (renderer.device.setUniform location value).canvas painter =
      { renderer.device.canvas painter with
        given := Function.update (renderer.device.canvas painter).given program
          (Function.update ((renderer.device.canvas painter).given program) location
            (some value)) } := by
    rw [Device.canvas_setUniform, Canvas.give_of_program _ h.current]
  refine ⟨RenderTargets.Apart.onward h.apart calm.onward rfl (.refl _), ?_, ?_, ?_, ?_⟩
  · exact (congrArg Canvas.program changed).trans h.current
  · rw [changed, ← h.values]
    exact Function.update_self ..
  · exact fun unit away => (congrFun (congrArg Canvas.units changed) unit).trans (h.units unit away)
  · exact (congrFun (congrArg Canvas.shown changed) texture).trans h.shows

/-- **One rung**: the picture is copied to the texture of the rung. -/
theorem rung {id : Nat} {target : RenderTarget}
    (found : renderer.targets.targets[id]? = some target) (other : target.texture ≠ texture) :
    Copies painter { renderer with
        device := ((renderer.device.bindFramebuffer (some target.framebuffer) target.width
          target.height).bindTexture previousUnit (some texture)).draw }
      program given target.texture
      (painter.copy program given picture (target.width, target.height)) := by
  have attached : (renderer.device.canvas painter).attached target.framebuffer =
      some target.texture := by
    rw [Device.attached_canvas]
    exact RenderTargets.Apart.attached h.apart _ (mem_handles found)
  have calm := ((renderer.device.calm_bindFramebuffer (some target.framebuffer) target.width
    target.height).trans (Device.calm_bindTexture _ previousUnit (some texture))).trans
      (Device.calm_draw _)
  generalize bound : (renderer.device.bindFramebuffer (some target.framebuffer) target.width
    target.height).bindTexture previousUnit (some texture) = device at calm ⊢
  have ready : device.canvas painter = { renderer.device.canvas painter with
      bound := some target.framebuffer
      size := (target.width, target.height)
      units := Function.update (renderer.device.canvas painter).units previousUnit
        (some texture) } := by
    rw [← bound]
    rfl
  have goal : (device.canvas painter).goal = some target.texture := by
    rw [ready]
    exact attached
  have drawn := h.draw ready (by rw [goal]; exact fun same => other (Option.some.inj same))
  rw [Canvas.paint_of_goal _ goal, ready] at drawn
  refine ⟨RenderTargets.Apart.onward h.apart calm.onward rfl (.refl _), ?_, ?_, ?_, ?_⟩
  · exact (congrArg Canvas.program drawn).trans h.current
  · exact (congrFun (congrArg Canvas.given drawn) program).trans h.values
  · intro unit away
    refine (congrFun (congrArg Canvas.units drawn) unit).trans ?_
    exact (Function.update_of_ne away ..).trans (h.units unit away)
  · refine (congrFun (congrArg Canvas.shown drawn) target.texture).trans ?_
    exact Function.update_self ..

/-- **The last copy** is what the output shows. -/
theorem shown_output (width height location : Nat) (value : UniformData) :
    ((((renderer.device.bindFramebuffer none width height).bindTexture previousUnit
        (some texture)).setUniform location value).draw.canvas painter).output =
      some (painter.copy program (Function.update given location (some value)) picture
        (width, height)) := by
  generalize bound : ((renderer.device.bindFramebuffer none width height).bindTexture previousUnit
    (some texture)).setUniform location value = device
  have ready : device.canvas painter =
      { (renderer.device.setUniform location value).canvas painter with
        bound := none
        size := (width, height)
        units := Function.update
          ((renderer.device.setUniform location value).canvas painter).units previousUnit
          (some texture) } := by
    rw [← bound, Device.canvas_setUniform, Device.canvas_setUniform,
      Canvas.give_of_program _ h.current]
    exact Canvas.give_of_program { renderer.device.canvas painter with
        bound := none
        size := (width, height)
        units :=
          Function.update (renderer.device.canvas painter).units previousUnit (some texture) }
      h.current location value
  have away : (device.canvas painter).goal ≠ some texture := by
    rw [ready]
    intro same
    cases same
  rw [(h.setUniform location value).draw ready away, ready]
  rfl

end Copies

/-- **Down the ladder** the picture is copied in the size of each rung. -/
theorem descend_copies : ∀ (rungs : List Nat) {renderer : Renderer ℓ} {texture : Handle}
    {picture : ι}, Copies painter renderer program given texture picture → rungs.Nodup →
    (∀ id ∈ rungs, ∃ target, renderer.targets.targets[id]? = some target ∧
      target.texture ≠ texture) → ∀ {failed : Failure → Renderer ℓ → Prop},
    (descend texture rungs : Action (Renderer ℓ) Handle).Yields renderer
      (fun last after => after = { renderer with device := after.device } ∧
        Copies painter after program given last
          ((rungs.map renderer.sizeOf).foldl (painter.copy program given) picture)) failed
  | [], _, _, _, h, _, _, _ => Yields.pure ⟨rfl, h⟩
  | id :: rest, renderer, texture, picture, h, once, rungs, failed => by
    obtain ⟨target, found, other⟩ := rungs id List.mem_cons_self
    have size : renderer.sizeOf id = (target.width, target.height) := by rw [sizeOf, found]
    rw [List.map_cons, List.foldl_cons, size]
    unfold descend
    refine (bindTarget_yields renderer found).bind ?_ fun _ _ failed => failed
    rintro _ _ rfl
    refine Yields.modify ?_
    refine target_yields (by exact found) ?_
    refine (descend_copies rest (h.rung found other) (List.nodup_cons.mp once).2 ?_).mono
      (fun last after done => done) fun _ _ failed => failed
    intro next inside
    obtain ⟨lower, there, _⟩ := rungs next (List.mem_cons_of_mem _ inside)
    refine ⟨lower, there, fun same => ?_⟩
    have again := h.apart.eq_of_texture there found same
    exact (List.nodup_cons.mp once).1 (again ▸ inside)

/-- **The output shows the picture of the target that is presented**, as it is copied. -/
theorem present_output {read : Nat} (holding : renderer.targets.Holding [read])
    (apart : renderer.Apart) (shows : renderer.Shows painter read picture)
    {failed : Failure → Renderer ℓ → Prop} :
    (present read : Action (Renderer ℓ) Unit).Yields renderer
      (fun _ after => (after.device.canvas painter).output =
        some (renderer.copying.output painter
          ((renderer.device.canvas painter).given renderer.programs.copy.program) picture))
      failed := by
  obtain ⟨target, found, shown⟩ := shows
  unfold present
  refine Yields.get (Yields.modify ?_)
  refine target_yields (by exact found) ?_
  refine Yields.modify ?_
  dsimp only
  have used : Copies painter { renderer with
        device := renderer.device.useProgram renderer.programs.copy.program }
      renderer.programs.copy.program
      ((renderer.device.canvas painter).given renderer.programs.copy.program) target.texture
      picture :=
    ⟨RenderTargets.Apart.onward apart (renderer.device.calm_useProgram _).onward rfl (.refl _), rfl,
      rfl, fun _ _ => rfl, shown⟩
  have start := (used.setUniform renderer.programs.copy.texture (.ints [previousUnit])).setUniform
    renderer.programs.copy.flip (.ints [0])
  refine (descend_copies renderer.targets.ladder start holding.ladder ?_).bind ?_
    fun _ _ failed => failed
  · intro id inside
    obtain ⟨rung, there, use⟩ := holding.rungs id inside
    refine ⟨rung, there, fun same => ?_⟩
    have again := apart.eq_of_texture there found same
    cases (again ▸ holding.rungs id inside).unique (holding.taken read List.mem_cons_self)
  rintro last after ⟨same, copies⟩
  refine Yields.modified ?_
  have output := copies.shown_output renderer.targets.outputSize.1 renderer.targets.outputSize.2
    renderer.programs.copy.flip (.ints [if renderer.options.flipOutput then 1 else 0])
  rw [Function.update_idem] at output
  exact output

end Renderer
end Collage
