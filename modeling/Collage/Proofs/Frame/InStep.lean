import Collage.Proofs.Device.Programs
import Collage.Proofs.Frame.Blank
import Collage.Proofs.Frame.Pieces

/-!
# Two frames in step

Two frames are compared on a `Course`.  It says what their devices have in common while both draw,
which programs and locations mean the same, and what both remember of the input and of textures; its
laws are what calls of devices, evaluations and looking for textures have to keep of that.

Renderers that differ in handles only, and in what the course leaves open, are `Beside` each other
between frames, and `Abreast` while frames are drawn.  `InStep course more rel left right` says that
two actions on renderers that are abreast end alike: with values that belong together by `rel`, or
with the same failure.  They leave the renderers abreast, and if they end well, the keys of `more`
are fresh.

Whatever a frame is made of is in step with itself, and with what differs from it in what the course
says means the same.  So frames are in step if compositing their trees is (`render_inStep`).
-/

namespace Collage

open Collage.Action

/-- The locations that the standing programs keep. -/
def StandingPrograms.locations (standing : StandingPrograms) : List Nat :=
  [standing.copy.texture, standing.copy.flip, standing.texture.texture] ++
    standing.texture.builtins.slots.filterMap id

/-- What two frames are compared by. -/
structure Course (ℓ : Type) where
  /-- what devices have in common -/
  device : Device → Device → Prop
  /-- programs that mean the same -/
  program : Handle → Handle → Prop
  /-- locations that mean the same -/
  location : Nat → Nat → Prop
  /-- the keys that may be read -/
  watched : InputKey → Prop
  /-- what both remember of the input -/
  input : InputState → InputState → Prop
  /-- what both remember of textures -/
  cached : TextureCache → TextureCache → Prop
  companions : Device.Companions device
  useProgram : ∀ {left right}, device left right → ∀ {handle handle'}, program handle handle' →
    device (left.useProgram handle) (right.useProgram handle')
  setUniform : ∀ {left right}, device left right → ∀ {place place'}, location place place' →
    ∀ value, device (left.setUniform place value) (right.setUniform place' value)
  clear : ∀ {left right}, device left right → ∀ color, device (left.clear color) (right.clear color)
  draw : ∀ {left right}, device left right → device left.draw right.draw
  begins : ∀ {left right}, input left right →
    ∀ frame, input { left with frame } { right with frame }
  reads : ∀ {left right}, input left right → ∀ {α : Type} {keys} {change : StateM InputState α},
    InputState.Reads keys change → (∀ key ∈ keys, watched key) →
    (change.run left).1 = (change.run right).1 ∧ input (change.run left).2 (change.run right).2
  polls : ∀ {left right after later}, cached left right →
    (∀ key, (after.get? key).isSome = (left.get? key).isSome) →
    (∀ key, (later.get? key).isSome = (right.get? key).isSome) → cached after later
  looks : ∀ {key width height bytes} {action : Action (TextureCache.State ℓ) Handle},
    (∀ state, action.Yields state (TextureCache.Found key width height bytes state)
      (TextureCache.Failed key state)) →
    ∀ (state other : TextureCache.State ℓ), device state.device other.device →
      cached state.cache other.cache →
      Together action action state other
        (fun _ _ after later =>
          device after.device later.device ∧ cached after.cache later.cache)
        fun after later => device after.device later.device ∧ cached after.cache later.cache

namespace Course

variable {ℓ : Type} (course : Course ℓ)

/-- The standing programs mean the same on both devices. -/
structure Shares (standing : StandingPrograms) : Prop where
  programs : ∀ program ∈ standing.handles, course.program program program
  locations : ∀ location ∈ standing.locations, course.location location location

/-- Two programs keep the same uniforms of those that every layer has. -/
def SamePlaces (locations locations' : BuiltinLocations) : Prop :=
  List.Forall₂ (Option.Rel course.location) locations.slots locations'.slots

/-- A value is written for uniforms that mean the same. -/
def SameWrite (write write' : Option Nat × UniformData) : Prop :=
  Option.Rel course.location write.1 write'.1 ∧ write.2 = write'.2

/-- Two uniforms of one layer mean the same and differ in their place only. -/
structure SameUniform (placed placed' : Renderer.PlacedUniform) : Prop where
  layer : placed.layer = placed'.layer
  location : course.location placed.location placed'.location
  uniform : placed.uniform.unplaced = placed'.uniform.unplaced

/-- Two layers have programs that mean the same and are given the same. -/
structure SameProgram (tree tree' : CompiledTree) (layer layer' : CompiledLayer)
    (shader shader' : LayerProgram) (program program' : Handle) : Prop where
  program : course.program program program'
  builtins : course.SamePlaces shader.builtins shader'.builtins
  uniforms : List.Forall₂ course.SameUniform (Renderer.placedUniforms tree layer shader)
    (Renderer.placedUniforms tree' layer' shader')

variable {course}

theorem samePlaces_self {locations : BuiltinLocations}
    (same : ∀ location, some location ∈ locations.slots → course.location location location) :
    course.SamePlaces locations locations := by
  refine List.forall₂_same.mpr fun slot inside => ?_
  cases slot with
  | none => exact .none
  | some location => exact .some (same location inside)

theorem Shares.builtins {standing : StandingPrograms} (h : course.Shares standing) :
    course.SamePlaces standing.texture.builtins standing.texture.builtins :=
  samePlaces_self fun location inside => h.locations location (List.mem_append_right _
    (List.mem_filterMap.mpr ⟨_, inside, rfl⟩))

/-- Values are written one after another. -/
theorem writeAt {writes writes' : List (Option Nat × UniformData)}
    (same : List.Forall₂ course.SameWrite writes writes') {left right : Device}
    (related : course.device left right) :
    course.device (writes.foldl Renderer.writeAt left) (writes'.foldl Renderer.writeAt right) := by
  induction same generalizing left right with
  | nil => exact related
  | @cons write write' _ _ one _ ih =>
    obtain ⟨place, value⟩ := write
    obtain ⟨place', value'⟩ := write'
    obtain ⟨places, rfl⟩ : _ ∧ value = value' := one
    cases places with
    | none => exact ih related
    | some location => exact ih (course.setUniform related location value)

end Course

namespace Renderer

variable {ℓ α β γ δ : Type}

/-! ### Renderers on a course -/

/-- Between frames two renderers differ in handles only, and in what a course leaves open. -/
structure Beside (course : Course ℓ) (left right : Renderer ℓ) : Prop where
  device : course.device left.device right.device
  options : left.options = right.options
  programs : left.programs = right.programs
  shares : course.Shares left.programs
  clock : left.clock = right.clock
  levels : left.levels = right.levels
  targets : left.targets.blank = right.targets.blank
  external : left.external.Alike right.external
  input : course.input left.input right.input
  textures : course.cached left.textures right.textures

/-- While two frames are drawn, the renderers do not differ in the stats either; the keys of `done`
are fresh. -/
structure Abreast (course : Course ℓ) (done : List InputKey) (left right : Renderer ℓ) : Prop
    extends Beside course left right where
  stats : left.stats = right.stats
  fresh : ∀ key ∈ done, left.input.Fresh key

variable {course : Course ℓ} {done more : List InputKey} {first second : Renderer ℓ}

theorem Abreast.mono {fewer : List InputKey} (h : Abreast course done first second)
    (inside : ∀ key ∈ fewer, key ∈ done) : Abreast course fewer first second :=
  { h with fresh := fun key known => h.fresh key (inside key known) }

theorem Abreast.start (h : Abreast course done first second) : Abreast course [] first second :=
  h.mono fun _ inside => absurd inside List.not_mem_nil

theorem Beside.pool_eq (h : Beside course first second) (view : RenderTargets → α)
    (plain : ∀ pool : RenderTargets, view pool.blank = view pool) :
    view first.targets = view second.targets := by
  rw [← plain, h.targets, plain]

/-- Two actions that do the same on renderers that are abreast; afterwards `more` is fresh. -/
def InStep (course : Course ℓ) (more : List InputKey) (rel : α → β → Prop)
    (left : Action (Renderer ℓ) α) (right : Action (Renderer ℓ) β) : Prop :=
  ∀ ⦃done first second⦄, Abreast course done first second →
    Together left right first second
      (fun a b after later => rel a b ∧ Abreast course (more ++ done) after later)
      (Abreast course [])

namespace InStep

variable {rel : α → β → Prop} {rel' : γ → δ → Prop} {left : Action (Renderer ℓ) α}
  {right : Action (Renderer ℓ) β}

theorem pure {a : α} {b : β} (h : rel a b) :
    InStep course [] rel (Pure.pure a : Action (Renderer ℓ) α) (Pure.pure b) :=
  fun _ _ _ abreast => Together.pure ⟨h, abreast⟩

/-- **One action after another**: what both read is fresh in the end. -/
theorem bind {others : List InputKey} {next : α → Action (Renderer ℓ) γ}
    {next' : β → Action (Renderer ℓ) δ} (h : InStep course more rel left right)
    (rest : ∀ a b, rel a b → InStep course others rel' (next a) (next' b)) :
    InStep course (more ++ others) rel' (left >>= next) (right >>= next') := by
  intro done first second abreast
  refine (h abreast).bind fun a b after later ⟨related, abreast⟩ => ?_
  refine (rest a b related abreast).mono (fun c d final final' ⟨related, abreast⟩ => ?_)
    fun _ _ abreast => abreast
  -- what the first one read is fresh still, only listed behind what the second one read
  refine ⟨related, abreast.mono fun key inside => ?_⟩
  simp only [List.mem_append] at inside ⊢
  tauto

theorem weaken {fewer : List InputKey} (h : InStep course more rel left right)
    (inside : ∀ key ∈ fewer, key ∈ more) : InStep course fewer rel left right :=
  fun _ _ _ abreast => (h abreast).mono (fun _ _ _ _ ⟨related, abreast⟩ =>
    ⟨related, abreast.mono fun key known => by
      rcases List.mem_append.mp known with known | known
      · exact List.mem_append_left _ (inside key known)
      · exact List.mem_append_right _ known⟩) fun _ _ abreast => abreast

theorem andThen {next : α → Action (Renderer ℓ) γ} {next' : β → Action (Renderer ℓ) δ}
    (h : InStep course [] rel left right)
    (rest : ∀ a b, rel a b → InStep course more rel' (next a) (next' b)) :
    InStep course more rel' (left >>= next) (right >>= next') :=
  h.bind rest

theorem before {next : α → Action (Renderer ℓ) γ} {next' : β → Action (Renderer ℓ) δ}
    (h : InStep course more rel left right)
    (rest : ∀ a b, rel a b → InStep course [] rel' (next a) (next' b)) :
    InStep course more rel' (left >>= next) (right >>= next') := by
  have both := h.bind rest
  rwa [List.append_nil] at both

theorem get {next : Renderer ℓ → Action (Renderer ℓ) γ} {next' : Renderer ℓ → Action (Renderer ℓ) δ}
    (rest : ∀ {done first second}, Abreast course done first second →
      InStep course more rel' (next first) (next' second)) :
    InStep course more rel' (MonadState.get >>= next) (MonadState.get >>= next') :=
  fun _ _ _ abreast => Together.get (rest abreast abreast)

theorem modify {change change' : Renderer ℓ → Renderer ℓ}
    (h : ∀ {done first second}, Abreast course done first second →
      Abreast course done (change first) (change' second)) :
    InStep course [] Eq
      (MonadState.modifyGet fun current => (PUnit.unit, change current) : Action (Renderer ℓ) PUnit)
      (MonadState.modifyGet fun current => (PUnit.unit, change' current)) :=
  fun _ _ _ abreast => Together.modified ⟨rfl, h abreast⟩

theorem mapM {ι : Type} {step : ι → Action (Renderer ℓ) α} {items : List ι}
    (h : ∀ item ∈ items, InStep course [] Eq (step item) (step item)) :
    InStep course [] Eq (items.mapM step) (items.mapM step) :=
  fun _ _ _ abreast => Together.mapM (fun item inside _ _ abreast => h item inside abreast) abreast

theorem followedBy {last last' : Action (Renderer ℓ) Unit} (h : InStep course [] rel left right)
    (ends : InStep course [] (fun _ _ => True) last last') :
    InStep course [] rel (left.followedBy last) (right.followedBy last') := by
  intro done first second abreast
  refine (h abreast).followedBy (fun a b after later ⟨related, abreast⟩ => ?_)
    fun after later abreast => ?_
  · exact (ends abreast).mono (fun _ _ _ _ ⟨_, abreast⟩ => ⟨related, abreast⟩)
      fun _ _ abreast => abreast
  · exact (ends abreast).mono (fun _ _ _ _ ⟨_, abreast⟩ => abreast) fun _ _ abreast => abreast

end InStep

theorem changeDevice_inStep {change change' : Device → Device}
    (h : ∀ {left right : Device}, course.device left right →
      course.device (change left) (change' right)) :
    InStep course [] Eq (changeDevice change : Action (Renderer ℓ) Unit) (changeDevice change') :=
  .modify fun abreast => { abreast with device := h abreast.device }

theorem count_inStep (change : FrameStats → FrameStats) :
    InStep course [] Eq (count change : Action (Renderer ℓ) Unit) (count change) :=
  .modify fun abreast => { abreast with stats := congrArg change abreast.stats }

/-! ### Targets -/

theorem target_inStep (id : Nat) : InStep course []
    (fun target target' : RenderTarget => target.blank = target'.blank)
    (target id : Action (Renderer ℓ) RenderTarget) (target id) := by
  intro done first second abreast
  refine (target_together abreast.targets id).mono ?_ ?_
  · rintro target target' _ _ ⟨same, rfl, rfl⟩
    exact ⟨same, abreast⟩
  · rintro _ _ ⟨rfl, rfl⟩
    exact abreast.start

theorem bindTarget_inStep (id : Nat) : InStep course [] Eq
    (bindTarget id : Action (Renderer ℓ) Unit) (bindTarget id) :=
  (target_inStep id).andThen fun _ _ _ => changeDevice_inStep fun related =>
    course.companions.bindFramebuffer related _ _ _ _ _ _

theorem startTarget_inStep : InStep course [] Eq
    (startTarget : Action (Renderer ℓ) Nat) startTarget := by
  have request : InStep course [] Eq (onTargets RenderTargets.request : Action (Renderer ℓ) Nat)
      (onTargets RenderTargets.request) := by
    intro done first second abreast
    refine Together.within
      (RenderTargets.request_companions course.companions abreast.device abreast.targets) ?_ ?_
    · rintro out _ changed changed' ⟨rfl, device, targets⟩
      exact ⟨rfl, { abreast with device, targets }⟩
    · rintro changed changed' ⟨device, targets⟩
      exact { abreast.start with device, targets }
  refine request.andThen ?_
  rintro out _ rfl
  exact (bindTarget_inStep out).andThen fun _ _ _ => .pure rfl

theorem releaseTarget_inStep (id : Nat) : InStep course [] (fun _ _ => True)
    (releaseTarget id : Action (Renderer ℓ) Unit) (releaseTarget id) := by
  intro done first second abreast
  refine (releaseTarget_together abreast.targets id).mono ?_ ?_
  · rintro _ _ _ _ ⟨pool, pool', same, rfl, rfl⟩
    exact ⟨trivial, { abreast with targets := same }⟩
  · rintro _ _ ⟨rfl, rfl⟩
    exact abreast.start

theorem swapRead_inStep (read out : Nat) : InStep course [] Eq
    (swapRead read out : Action (Renderer ℓ) Nat) (swapRead read out) :=
  (releaseTarget_inStep read).andThen fun _ _ _ => .pure rfl

/-! ### Drawing with a program -/

theorem Beside.builtinWrites (h : Beside course first second)
    {locations locations' : BuiltinLocations} (places : course.SamePlaces locations locations') (frame : FrameContext) (blend : BlendMode)
    (opacity : Float32) :
    List.Forall₂ course.SameWrite (builtinWrites locations frame first blend opacity)
      (builtinWrites locations' frame second blend opacity) := by
  have renderSize := h.pool_eq RenderTargets.renderSize fun _ => rfl
  have antiAlias := h.pool_eq RenderTargets.antiAlias fun _ => rfl
  unfold Course.SamePlaces at places
  unfold Renderer.builtinWrites
  rw [renderSize, antiAlias, h.levels]
  simp only [BuiltinLocations.slots, List.forall₂_cons] at places
  simp only [List.forall₂_cons, List.forall₂_nil_left_iff, Course.SameWrite, places, and_self]

/-- What every layer is given does not depend on the handle of what is below it. -/
theorem setBuiltins_inStep {locations locations' : BuiltinLocations}
    (places : course.SamePlaces locations locations') (frame : FrameContext)
    (previous previous' : Handle) (blend : BlendMode) (opacity : Float32) :
    InStep course [] Eq
      (setBuiltins locations frame previous blend opacity : Action (Renderer ℓ) Unit)
      (setBuiltins locations' frame previous' blend opacity) := by
  refine InStep.get fun abreast => ?_
  have writes := abreast.builtinWrites places frame blend opacity
  refine changeDevice_inStep fun related => ?_
  have sound : ∀ (listens : Bool) (texture : Handle) (device : Device), Device.Hushed device
      (if listens then device.bindTexture spectrumUnit (some texture) else device) := by
    intro listens texture device
    cases listens
    · exact .refl device
    · exact device.hushed_bindTexture _ _
  exact course.companions.hushed
    (course.companions.bindTexture (Course.writeAt writes related) previousUnit (some previous)
      (some previous')) (sound _ _ _) (sound _ _ _)

theorem drawWith_inStep {program program' : Handle} (same : course.program program program')
    {locations locations' : BuiltinLocations} (places : course.SamePlaces locations locations')
    (frame : FrameContext) (blend : BlendMode) (opacity : Float32) (read : Nat)
    {prepare prepare' : Action (Renderer ℓ) Unit} (h : InStep course more Eq prepare prepare') :
    InStep course more Eq (drawWith program locations frame blend opacity read prepare)
      (drawWith program' locations' frame blend opacity read prepare') := by
  refine (changeDevice_inStep fun related => course.useProgram related same).andThen fun _ _ _ => ?_
  refine (target_inStep read).andThen fun previous previous' _ => ?_
  refine (setBuiltins_inStep places _ _ _ _ _).andThen fun _ _ _ => ?_
  exact h.before fun _ _ _ => changeDevice_inStep course.draw

theorem compositeTexture_inStep (texture texture' : Handle) (frame : FrameContext)
    (blend : BlendMode) (opacity : Float32) (read : Nat) :
    InStep course [] Eq
      (compositeTexture texture frame blend opacity read : Action (Renderer ℓ) Nat)
      (compositeTexture texture' frame blend opacity read) := by
  refine startTarget_inStep.andThen ?_
  rintro out _ rfl
  refine InStep.get fun abreast => ?_
  have shares := abreast.shares
  dsimp only
  rw [← abreast.programs]
  generalize Renderer.programs _ = standing at shares
  have program := shares.programs standing.texture.program (by simp [StandingPrograms.handles])
  have place := shares.locations standing.texture.texture (by simp [StandingPrograms.locations])
  refine (drawWith_inStep program shares.builtins _ _ _ _
    (changeDevice_inStep fun related => ?_)).andThen fun _ _ _ => swapRead_inStep read out
  exact course.setUniform (course.companions.bindTexture related _ _ _) place _

/-! ### Values -/

/-- A uniform has the same value on both. -/
theorem evaluate_inStep (frame : FrameContext) (layer : String) (uniform : Uniform)
    (inside : ∀ key ∈ uniform.inputs layer, course.watched key) :
    InStep course (uniform.inputs layer) Eq
      (evaluate frame layer uniform : Action (Renderer ℓ) FrameValue)
      (evaluate frame layer uniform) := by
  intro done first second abreast
  have reads := InputState.reads_frameValue frame first.levels layer uniform
  obtain ⟨value, input⟩ := course.reads abreast.input reads inside
  refine Together.of_sure (evaluate_yields frame layer uniform first)
    (evaluate_yields frame layer uniform second) ?_
  rintro _ _ _ _ ⟨rfl, rfl⟩ ⟨rfl, rfl⟩
  rw [← abreast.levels]
  refine ⟨value, { abreast with levels := rfl, input, fresh := fun key known => ?_ }⟩
  rcases List.mem_append.mp known with known | known
  · exact reads.fresh first.input key known
  · exact reads.stays (abreast.fresh key known)

theorem bindUnit_inStep (unit : Nat) (texture texture' : Handle) : InStep course [] Eq
    (bindUnit unit texture : Action (Renderer ℓ) _) (bindUnit unit texture') :=
  (changeDevice_inStep fun related => course.companions.bindTexture related _ _ _).andThen
    fun _ _ _ => .pure rfl

/-- A texture is there or can be created on both, or on neither. -/
theorem onTextures_inStep {action : Action (TextureCache.State ℓ) Handle} {key : TextureKey}
    {width height : Nat} {bytes : List UInt8}
    (found : ∀ state, action.Yields state (TextureCache.Found key width height bytes state)
      (TextureCache.Failed key state)) :
    InStep course [] (fun _ _ => True) (onTextures action) (onTextures action) := by
  intro done first second abreast
  have looked := course.looks found ⟨first.device, first.loader, first.textures⟩
    ⟨second.device, second.loader, second.textures⟩ abreast.device abreast.textures
  refine Together.within looked ?_ ?_
  · exact fun _ _ _ _ ⟨device, textures⟩ => ⟨trivial, { abreast with device, textures }⟩
  · exact fun _ _ ⟨device, textures⟩ => { abreast.start with device, textures }

section

variable [TextureLoader ℓ]

theorem valueData_inStep (unit : Nat) (value : FrameValue) : InStep course [] Eq
    (valueData unit value : Action (Renderer ℓ) _) (valueData unit value) := by
  unfold valueData
  split
  · exact .pure rfl
  · exact .pure rfl
  · exact .pure rfl
  · split
    all_goals first
      | exact .pure rfl
      | exact (onTextures_inStep (TextureCache.sampler_yields _)).andThen
          fun _ _ _ => bindUnit_inStep unit _ _
      | exact (onTextures_inStep (TextureCache.gradient_yields _)).andThen
          fun _ _ _ => bindUnit_inStep unit _ _

/-- What a program is given for a uniform does not depend on where the uniform is placed. -/
theorem uniformData_inStep (frame : FrameContext) (unit : Nat) (layer : String)
    {uniform uniform' : Uniform} (same : uniform.unplaced = uniform'.unplaced)
    (inside : ∀ key ∈ uniform.inputs layer, course.watched key) :
    InStep course (uniform.inputs layer) Eq
      (uniformData frame unit layer uniform : Action (Renderer ℓ) _)
      (uniformData frame unit layer uniform') := by
  change InStep course _ Eq (uniformData frame unit layer uniform : Action (Renderer ℓ) _)
    (uniformData frame unit layer uniform'.unplaced)
  rw [← same]
  refine (evaluate_inStep frame layer uniform inside).before ?_
  rintro value _ rfl
  exact valueData_inStep unit value

/-- **Programs are given the same values.** -/
theorem writeUniforms_inStep (frame : FrameContext) {placed placed' : List PlacedUniform}
    (same : List.Forall₂ course.SameUniform placed placed')
    (inside : ∀ key ∈ placedInputs placed, course.watched key) (unit : Nat) :
    InStep course (placedInputs placed) Eq
      (writeUniforms frame unit placed : Action (Renderer ℓ) Unit)
      (writeUniforms frame unit placed') := by
  induction same generalizing unit with
  | nil => exact .pure rfl
  | @cons placed placed' rest rest' one _ ih =>
    obtain ⟨layer, location, uniform⟩ := placed
    obtain ⟨layer', location', uniform'⟩ := placed'
    obtain ⟨rfl, place, bare⟩ := one
    unfold placedInputs at inside ⊢ ih
    rw [List.flatMap_cons] at inside ⊢
    have others := ih fun key known => inside key (List.mem_append_right _ known)
    unfold writeUniforms
    refine (uniformData_inStep frame unit layer bare
      fun key known => inside key (List.mem_append_left _ known)).bind ?_
    rintro ⟨data, next⟩ _ rfl
    cases data with
    | none => exact others next
    | some value =>
      exact (changeDevice_inStep fun related => course.setUniform related place value).andThen
        fun _ _ _ => others next

/-! ### One layer -/

/-- A layer with a program reads its keys. -/
theorem compositeShader_inStep (frame : FrameContext) {tree tree' : CompiledTree}
    {layer layer' : CompiledLayer} {shader shader' : LayerProgram}
    (blend : layer.blend = layer'.blend) (opacity : layer.opacity = layer'.opacity)
    (same : Option.Rel (course.SameProgram tree tree' layer layer' shader shader') shader.program
      shader'.program)
    (inside : ∀ key ∈ shaderInputs tree layer shader, course.watched key) (scale : Float32)
    (read : Nat) :
    InStep course (shaderInputs tree layer shader) Eq
      (compositeShader tree frame layer shader scale read : Action (Renderer ℓ) Nat)
      (compositeShader tree' frame layer' shader' scale read) := by
  have drawn : InStep course (shaderInputs tree layer shader) Eq
      (drawShader tree frame layer shader scale read : Action (Renderer ℓ) Unit)
      (drawShader tree' frame layer' shader' scale read) := by
    unfold shaderInputs at inside ⊢
    unfold drawShader
    rw [blend, opacity]
    generalize shader.program = built at same inside
    generalize shader'.program = built' at same
    cases same with
    | none =>
      exact (changeDevice_inStep fun related => course.clear related _).andThen
        fun _ _ _ => count_inStep _
    | some means =>
      -- only the uniforms read keys, so all that is done around them comes before or behind
      exact (drawWith_inStep means.program means.builtins _ _ _ _
        (writeUniforms_inStep frame means.uniforms inside _)).before fun _ _ _ => count_inStep _
  rw [compositeShader_eq, compositeShader_eq]
  refine startTarget_inStep.andThen ?_
  rintro out _ rfl
  exact drawn.before fun _ _ _ => swapRead_inStep read out

end

section

variable {layer layer' : CompiledLayer}

theorem uniformValues_inStep (frame : FrameContext) (id : layer.id = layer'.id)
    (uniforms : layer.uniforms.map Uniform.unplaced = layer'.uniforms.map Uniform.unplaced)
    (inside : ∀ key ∈ layer.uniforms.flatMap (·.inputs layer.id), course.watched key) :
    InStep course [] Eq (uniformValues frame layer : Action (Renderer ℓ) _)
      (uniformValues frame layer') := by
  have bare : ∀ layer : CompiledLayer, (uniformValues frame layer : Action (Renderer ℓ) _) =
      (layer.uniforms.map Uniform.unplaced).mapM fun uniform => do
        return (uniform.name, (← evaluate frame layer.id uniform).toJson) := by
    intro layer
    rw [List.mapM_map]
    rfl
  rw [bare, bare, ← id, ← uniforms]
  refine InStep.mapM fun uniform listed => ?_
  obtain ⟨placed, there, rfl⟩ := List.mem_map.mp listed
  have value := @evaluate_inStep ℓ course frame layer.id placed.unplaced fun key known =>
    inside key (List.mem_flatMap.mpr ⟨placed, there, known⟩)
  refine (value.weaken fun _ none => absurd none List.not_mem_nil).andThen ?_
  rintro value _ rfl
  exact .pure rfl

/-- The same requests are made. -/
theorem requestScript_inStep (frame : FrameContext) (code : String) (id : layer.id = layer'.id)
    (uniforms : layer.uniforms.map Uniform.unplaced = layer'.uniforms.map Uniform.unplaced)
    (inside : ∀ key ∈ layer.uniforms.flatMap (·.inputs layer.id), course.watched key) :
    InStep course [] Eq (requestScript frame layer code : Action (Renderer ℓ) Unit)
      (requestScript frame layer' code) := by
  refine InStep.get fun abreast => ?_
  rw [← id, abreast.external.wantsRequest]
  split
  · refine (uniformValues_inStep frame id uniforms inside).andThen ?_
    rintro uniforms _ rfl
    refine InStep.get fun abreast => ?_
    rw [abreast.pool_eq RenderTargets.outputSize fun _ => rfl]
    intro done first second abreast
    exact Together.modify (count_inStep _ { abreast with
      external := abreast.external.request _ _ })
  · exact .pure rfl

theorem compositeScript_inStep (frame : FrameContext) (code : String) (id : layer.id = layer'.id)
    (blend : layer.blend = layer'.blend) (opacity : layer.opacity = layer'.opacity)
    (uniforms : layer.uniforms.map Uniform.unplaced = layer'.uniforms.map Uniform.unplaced)
    (inside : ∀ key ∈ layer.uniforms.flatMap (·.inputs layer.id), course.watched key)
    (scale : Float32) (read : Nat) :
    InStep course [] Eq (compositeScript frame layer code scale read : Action (Renderer ℓ) Nat)
      (compositeScript frame layer' code scale read) := by
  refine (requestScript_inStep frame code id uniforms inside).andThen fun _ _ _ => ?_
  refine InStep.get fun abreast => ?_
  rw [← id, blend, opacity]
  obtain ⟨found, there⟩ | ⟨texture, texture', found, there⟩ := abreast.external.texture? layer.id
  · rw [found, there]
    exact .pure rfl
  · rw [found, there]
    exact (count_inStep _).andThen fun _ _ _ => compositeTexture_inStep _ _ _ _ _ _

/-- A group on its own reads what its layers read. -/
theorem compositeIsolated_inStep (frame : FrameContext) (blend : layer.blend = layer'.blend)
    (opacity : layer.opacity = layer'.opacity) (scale : Float32) (read : Nat)
    {inside inside' : Nat → Action (Renderer ℓ) Nat}
    (h : ∀ start, InStep course more Eq (inside start) (inside' start)) :
    InStep course more Eq (compositeIsolated frame layer scale read inside)
      (compositeIsolated frame layer' scale read inside') := by
  unfold compositeIsolated
  rw [blend, opacity]
  refine startTarget_inStep.andThen ?_
  rintro start _ rfl
  refine (changeDevice_inStep fun related => course.clear related _).andThen fun _ _ _ => ?_
  refine (h start).before ?_
  rintro isolated _ rfl
  refine (target_inStep isolated).andThen fun shown shown' _ => ?_
  exact (compositeTexture_inStep _ _ _ _ _ _).followedBy (releaseTarget_inStep isolated)

end

/-! ### The output -/

theorem descend_inStep : ∀ (rungs : List Nat) (texture texture' : Handle),
    InStep course [] (fun _ _ => True) (descend texture rungs : Action (Renderer ℓ) Handle)
      (descend texture' rungs)
  | [], _, _ => .pure trivial
  | rung :: rest, texture, texture' => by
    refine (bindTarget_inStep rung).andThen fun _ _ _ => ?_
    refine (changeDevice_inStep fun related => ?_).andThen fun _ _ _ => ?_
    · exact course.draw (course.companions.bindTexture related previousUnit _ _)
    · exact (target_inStep rung).andThen fun shown shown' _ => descend_inStep rest _ _

theorem present_inStep (read : Nat) :
    InStep course [] Eq (present read : Action (Renderer ℓ) Unit) (present read) := by
  refine InStep.get fun abreast => ?_
  have shares := abreast.shares
  dsimp only
  rw [← abreast.programs, ← abreast.options, abreast.pool_eq RenderTargets.outputSize fun _ => rfl,
    abreast.pool_eq RenderTargets.ladder fun _ => rfl]
  generalize RenderTargets.outputSize _ = size
  generalize Renderer.programs _ = standing at shares
  have program := shares.programs standing.copy.program (by simp [StandingPrograms.handles])
  have texture := shares.locations standing.copy.texture (by simp [StandingPrograms.locations])
  have flip := shares.locations standing.copy.flip (by simp [StandingPrograms.locations])
  refine (changeDevice_inStep fun related => ?_).andThen fun _ _ _ => ?_
  · exact course.setUniform (course.useProgram related program) texture _
  refine (target_inStep read).andThen fun shown shown' _ => ?_
  refine (changeDevice_inStep fun related => course.setUniform related flip _).andThen
    fun _ _ _ => ?_
  refine (descend_inStep _ _ _).andThen fun last last' _ => ?_
  refine changeDevice_inStep fun related => ?_
  have bound := course.companions.bindTexture
    (course.companions.bindFramebuffer related none none size.1 size.1 size.2 size.2) previousUnit
    (some last) (some last')
  exact course.companions.bindTexture (course.draw (course.setUniform bound flip _)) _ _ _

theorem finishFrame_inStep (read : Nat) :
    InStep course [] Eq (finishFrame read : Action (Renderer ℓ) FrameStats) (finishFrame read) := by
  refine (present_inStep read).andThen fun _ _ _ => ?_
  refine (releaseTarget_inStep read).andThen fun _ _ _ => ?_
  exact InStep.get fun abreast => .pure abreast.stats

/-! ### Frames -/

theorem drain_inStep : InStep course [] Eq
    (onExternal ExternalLayers.drain : Action (Renderer ℓ) Nat)
    (onExternal ExternalLayers.drain) := by
  intro done first second abreast
  have pair : ExternalLayers.Paired course.device (first.device, first.external)
      (second.device, second.external) := ⟨abreast.device, abreast.external⟩
  refine Together.within (ExternalLayers.drain_companions course.companions pair) ?_ ?_
  · rintro shown _ changed changed' ⟨rfl, device, external⟩
    exact ⟨rfl, { abreast with device, external }⟩
  · rintro changed changed' ⟨device, external⟩
    exact { abreast.start with device, external }

/-- Both hear the same, even if only one tree listens. -/
theorem Abreast.hear (h : Abreast course done first second) (tree tree' : CompiledTree)
    (elapsed : Float) (block : AudioFrame) :
    Abreast course done (hear tree elapsed block first) (hear tree' elapsed block second) := by
  have levels : first.levels.follow first.options.audio block elapsed =
      second.levels.follow second.options.audio block elapsed := by rw [h.levels, h.options]
  have heard : ∀ (tree : CompiledTree) (renderer : Renderer ℓ),
      Device.Hushed renderer.device (Renderer.hear tree elapsed block renderer).device := by
    intro tree renderer
    unfold Renderer.hear
    dsimp only
    split
    · exact Device.hushed_uploadTexture _ _ _ _ _
    · exact .refl _
  exact { h with
    device := course.companions.hushed h.device (heard tree first) (heard tree' second)
    levels }

theorem Beside.beginFrame (h : Beside course first second) (input : FrameInput) :
    Together (beginFrame input) (beginFrame input) first second
      (fun frame frame' after later => frame = frame' ∧ Abreast course [] after later)
      (Abreast course []) := by
  unfold Renderer.beginFrame
  refine Together.get ?_
  rw [h.clock]
  exact Together.set (Together.pure ⟨rfl, { h with
    clock := rfl, stats := rfl, input := course.begins h.input _
    fresh := fun _ none => absurd none List.not_mem_nil }⟩)

section

variable [TextureLoader ℓ] {tree tree' : CompiledTree}

theorem Abreast.pollTextures (h : Abreast course done first second) :
    Abreast course done (pollTextures first) (pollTextures second) := by
  obtain ⟨hushed, keys⟩ :=
    TextureCache.poll_hushed ⟨first.device, first.loader, first.textures⟩
  obtain ⟨hushed', keys'⟩ :=
    TextureCache.poll_hushed ⟨second.device, second.loader, second.textures⟩
  exact { h with
    device := course.companions.hushed h.device hushed hushed'
    textures := course.polls h.textures keys keys' }

/-- **What is done before layers are drawn** is done on both alike, whatever the trees are. -/
theorem Beside.prepareFrame (h : Beside course first second) (tree tree' : CompiledTree)
    (input : FrameInput) :
    Together (prepareFrame tree input) (prepareFrame tree' input) first second
      (fun frame frame' after later => frame = frame' ∧ Abreast course [] after later)
      (Abreast course []) := by
  unfold Renderer.prepareFrame
  refine (h.beginFrame input).bind ?_
  rintro frame _ began began' ⟨rfl, abreast⟩
  refine (show InStep _ [] Eq _ _ from ?_) abreast
  refine drain_inStep.andThen ?_
  rintro uploads _ rfl
  refine (count_inStep _).andThen fun _ _ _ => ?_
  refine (InStep.modify Abreast.pollTextures).andThen fun _ _ _ => ?_
  cases input.audio with
  | none => exact .pure rfl
  | some block =>
    exact (InStep.modify fun abreast => abreast.hear tree tree' _ block).andThen
      fun _ _ _ => .pure rfl

theorem composeFrame_inStep {frame : FrameContext}
    (composited : ∀ read, InStep course more Eq
      (compositeTree tree frame read : Action (Renderer ℓ) Nat) (compositeTree tree' frame read)) :
    InStep course more Eq (composeFrame tree frame : Action (Renderer ℓ) Nat)
      (composeFrame tree' frame) := by
  refine startTarget_inStep.andThen ?_
  rintro start _ rfl
  exact (changeDevice_inStep fun related => course.clear related _).andThen
    fun _ _ _ => composited start

/-- **Frames of trees that are composited in step** give the same stats, or fail in the same way. -/
theorem render_inStep (h : Beside course first second)
    (composited : ∀ frame read, InStep course more Eq
      (compositeTree tree frame read : Action (Renderer ℓ) Nat) (compositeTree tree' frame read))
    (input : FrameInput) :
    Together (render tree input) (render tree' input) first second
      (fun stats stats' after later => stats = stats' ∧ Abreast course more after later)
      (Abreast course []) := by
  have composed : ∀ frame, InStep course more Eq
      (composeFrame tree frame >>= finishFrame : Action (Renderer ℓ) FrameStats)
      (composeFrame tree' frame >>= finishFrame) := by
    intro frame
    refine (composeFrame_inStep (composited frame)).before ?_
    rintro read _ rfl
    exact finishFrame_inStep read
  have drawn : Together (drawFrame tree input) (drawFrame tree' input) first second
      (fun stats stats' after later => stats = stats' ∧ Abreast course more after later)
      (Abreast course []) := by
    rw [drawFrame_eq, drawFrame_eq]
    refine (h.prepareFrame tree tree' input).bind ?_
    rintro frame _ prepared prepared' ⟨rfl, abreast⟩
    refine (composed frame abreast).mono ?_ fun _ _ abreast => abreast
    rintro stats stats' after later ⟨same, abreast⟩
    exact ⟨same, abreast.mono fun _ => List.mem_append_left _⟩
  -- where both fail, both take back the same targets
  refine render_together_of_draw drawn fun after later abreast => { abreast with targets := ?_ }
  rw [RenderTargets.blank_reclaim, RenderTargets.blank_reclaim, abreast.targets]

end

end Renderer
end Collage
