import Collage.Proofs.Device.Framebuffers
import Mathlib.Logic.Function.Basic

/-!
# What a device shows

A device writes its calls down and does not say what textures show.  Here a `Painter`
says what pictures there are and what programs make of them, and `Device.canvas` follows
the calls of a device: which picture each texture shows, what is drawn to, and what the
current program was given.

* What a texture shows before something was drawn or uploaded to it is unknown, that is,
  any picture.
* Programs keep what they are given (`Canvas.given`).
* A program sees the units that were filled after it was taken up; what earlier programs
  left in other units is none of its pictures.  A texture that is drawn to cannot be seen
  (`Canvas.sight`).
* Filling and drawing replace the picture of what is drawn to (`Canvas.paint`).

It is assumed of a device that only `bindTexture` fills and empties units: that creating a
texture or a framebuffer and uploading a picture leave all units as they are.  A device that
puts a texture into its current unit while it creates it or uploads to it, and empties the unit
afterwards, does not keep to this: a texture that is created in the middle of a draw then takes
away what the draw has put there last.  What is said here of pictures does not hold of such a
device.
-/

namespace Collage

/-- Pictures, and how they come about. -/
structure Painter (ι : Type) where
  /-- what a texture shows to which nothing was drawn yet -/
  unknown : Handle → ι
  fill : Color Float32 → ι
  /-- a picture of a width and a height, bottom row first -/
  upload : Nat → Nat → List UInt8 → ι
  /-- what a program draws: it has been given values, and it sees pictures in units -/
  draw : Handle → (Nat → Option UniformData) → Nat × Nat → (Nat → Option ι) → ι

/-- What textures show, and what is drawn with. -/
structure Canvas (ι : Type) where
  shown : Handle → ι
  /-- what the output shows, if anything was drawn to it -/
  output : Option ι := none
  /-- the textures that framebuffers draw to -/
  attached : Handle → Option Handle := fun _ => none
  bound : Option Handle := none
  /-- the size of what is drawn -/
  size : Nat × Nat := (0, 0)
  program : Option Handle := none
  /-- what programs have been given at their locations -/
  given : Handle → Nat → Option UniformData := fun _ _ => none
  /-- the textures in units since the current program was taken up -/
  units : Nat → Option Handle := fun _ => none

namespace Canvas

variable {ι : Type}

/-- The texture that is drawn to. -/
def goal (canvas : Canvas ι) : Option Handle :=
  canvas.bound.bind canvas.attached

/-- What the current program sees. -/
def sight (canvas : Canvas ι) (unit : Nat) : Option ι :=
  ((canvas.units unit).filter fun texture => canvas.goal ≠ some texture).map canvas.shown

/-- A texture shows another picture. -/
def put (canvas : Canvas ι) (texture : Handle) (picture : ι) : Canvas ι :=
  { canvas with shown := Function.update canvas.shown texture picture }

/-- A picture replaces that of what is drawn to. -/
def paint (canvas : Canvas ι) (picture : ι) : Canvas ι :=
  match canvas.bound with
  | none => { canvas with output := some picture }
  | some framebuffer =>
    match canvas.attached framebuffer with
    | some texture => canvas.put texture picture
    | none => canvas

/-- Gives the current program a value. -/
def give (canvas : Canvas ι) (location : Nat) (value : UniformData) : Canvas ι :=
  match canvas.program with
  | some program =>
    { canvas with
      given := Function.update canvas.given program
        (Function.update (canvas.given program) location (some value)) }
  | none => canvas

/-- What a call does. -/
def step (painter : Painter ι) (canvas : Canvas ι) : DeviceEvent → Canvas ι
  | .createFramebuffer _ _ (some (framebuffer, texture)) =>
    { canvas with attached := Function.update canvas.attached framebuffer (some texture) }
  | .upload texture width height bytes => canvas.put texture (painter.upload width height bytes)
  | .bindFramebuffer framebuffer width height =>
    { canvas with bound := framebuffer, size := (width, height) }
  | .bindTexture unit texture => { canvas with units := Function.update canvas.units unit texture }
  | .useProgram program => { canvas with program := some program, units := fun _ => none }
  | .setUniform location _ value => canvas.give location value
  | .clear color => canvas.paint (painter.fill color)
  | .draw =>
    match canvas.program with
    | some program =>
      canvas.paint (painter.draw program (canvas.given program) canvas.size canvas.sight)
    | none => canvas
  | _ => canvas

/-! ### What stays the same -/

section

variable (painter : Painter ι) (canvas : Canvas ι)

theorem attached_paint (picture : ι) : (canvas.paint picture).attached = canvas.attached := by
  unfold paint
  split
  · rfl
  · split <;> rfl

theorem attached_give (location : Nat) (value : UniformData) :
    (canvas.give location value).attached = canvas.attached := by
  unfold give
  split <;> rfl

theorem attached_draw : (canvas.step painter .draw).attached = canvas.attached := by
  unfold step
  dsimp only
  split
  · exact attached_paint _ _
  · rfl

theorem give_of_program {program : Handle} (current : canvas.program = some program)
    (location : Nat) (value : UniformData) :
    canvas.give location value = { canvas with
      given := Function.update canvas.given program
        (Function.update (canvas.given program) location (some value)) } := by
  unfold give
  split
  · next other same =>
    rw [current] at same
    cases same
    rfl
  · next none =>
    rw [current] at none
    cases none

theorem paint_of_goal {texture : Handle} (goal : canvas.goal = some texture) (picture : ι) :
    canvas.paint picture = canvas.put texture picture := by
  obtain ⟨framebuffer, bound, attached⟩ := Option.bind_eq_some_iff.mp goal
  unfold paint
  rw [bound]
  dsimp only
  rw [attached]

theorem shown_put_self (texture : Handle) (picture : ι) :
    (canvas.put texture picture).shown texture = picture :=
  Function.update_self ..

theorem shown_put_of_ne {texture other : Handle} (different : other ≠ texture) (picture : ι) :
    (canvas.put texture picture).shown other = canvas.shown other :=
  Function.update_of_ne different ..

/-- A texture that is in no unit may show something else. -/
theorem sight_put {texture : Handle} (away : ∀ unit, canvas.units unit ≠ some texture)
    (picture : ι) : (canvas.put texture picture).sight = canvas.sight := by
  funext unit
  have same : ((canvas.units unit).filter fun other => canvas.goal ≠ some other).map
        (canvas.put texture picture).shown =
      ((canvas.units unit).filter fun other => canvas.goal ≠ some other).map canvas.shown := by
    refine Option.map_congr fun other inside => canvas.shown_put_of_ne ?_ picture
    rintro rfl
    exact away unit (Option.mem_filter_iff.mp inside).1
  exact same

/-- A texture that is not drawn to can be seen in the unit into which it is put. -/
theorem sight_update {texture : Handle} (other : canvas.goal ≠ some texture) (unit : Nat) :
    Canvas.sight { canvas with units := Function.update canvas.units unit (some texture) } =
      Function.update canvas.sight unit (some (canvas.shown texture)) := by
  funext place
  by_cases same : place = unit
  · subst same
    have kept : decide (canvas.goal ≠ some texture) = true := decide_eq_true other
    simp only [sight, Function.update_self, Option.filter_some]
    change Option.map canvas.shown (if decide (canvas.goal ≠ some texture) = true then _ else _) = _
    rw [if_pos kept, Option.map_some]
  · simp only [sight, Function.update_of_ne same]
    rfl

end

end Canvas

namespace Device

variable {ι : Type} (painter : Painter ι)

/-- What a device shows after its calls, the newest of which is the first. -/
def canvas (device : Device) : Canvas ι :=
  device.events.foldr (fun event canvas => canvas.step painter event)
    { shown := painter.unknown }

/-- A texture that is not drawn to shows a picture. -/
structure Sees (device : Device) (texture : Handle) (picture : ι) : Prop where
  shown : (device.canvas painter).shown texture = picture
  other : (device.canvas painter).goal ≠ some texture
  given : texture < device.nextHandle

/-- What framebuffers draw to is what they were created with. -/
theorem attached_canvas (device : Device) : (device.canvas painter).attached = device.attached := by
  funext handle
  unfold canvas attached
  induction device.events with
  | nil => rfl
  | cons event earlier ih =>
    rw [List.foldr_cons]
    generalize earlier.foldr (fun event canvas => canvas.step painter event)
      ({ shown := painter.unknown } : Canvas ι) = canvas at ih
    cases event with
    | createFramebuffer width height handles =>
      cases handles with
      | none => exact ih
      | some handles =>
        obtain ⟨framebuffer, texture⟩ := handles
        by_cases same : framebuffer = handle
        · subst same
          exact (Function.update_self ..).trans (if_pos rfl).symm
        · exact (Function.update_of_ne (Ne.symm same) ..).trans (ih.trans (if_neg same).symm)
    | setUniform location name value =>
      exact (congrFun (canvas.attached_give location value) handle).trans ih
    | clear color => exact (congrFun (canvas.attached_paint _) handle).trans ih
    | draw => exact (congrFun (canvas.attached_draw painter) handle).trans ih
    | _ => exact ih

/-! ### What calls do -/

section

variable (device : Device)

theorem canvas_setUniform (location : Nat) (value : UniformData) :
    (device.setUniform location value).canvas painter =
      (device.canvas painter).give location value := by
  unfold setUniform
  dsimp only
  split
  · rfl
  · split <;> rfl

theorem canvas_clear (color : Color Float32) :
    (device.clear color).canvas painter = (device.canvas painter).paint (painter.fill color) := by
  unfold clear
  dsimp only
  split <;> rfl

theorem canvas_draw {program : Handle}
    (current : (device.canvas painter).program = some program) :
    device.draw.canvas painter = (device.canvas painter).paint
      (painter.draw program ((device.canvas painter).given program) (device.canvas painter).size
        (device.canvas painter).sight) := by
  have drawn : device.draw.canvas painter = (device.canvas painter).step painter .draw := rfl
  rw [drawn, Canvas.step, current]

theorem canvas_createTexture {later : Device} {filter : TextureFilter} {wrap : TextureWrap}
    {texture : Handle} (h : device.createTexture filter wrap = (.ok texture, later)) :
    later.canvas painter = device.canvas painter := by
  obtain ⟨rfl, rfl⟩ := createTexture_ok h
  rfl

theorem canvas_createFramebuffer {later : Device} {width height : Nat}
    {framebuffer texture : Handle}
    (h : device.createFramebuffer width height = (.ok (framebuffer, texture), later)) :
    later.canvas painter = { device.canvas painter with
      attached :=
        Function.update (device.canvas painter).attached framebuffer (some texture) } := by
  obtain ⟨rfl, rfl, rfl⟩ := createFramebuffer_ok h
  rfl

end

end Device
end Collage
