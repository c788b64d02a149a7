import Collage.Proofs.Frame.Opacity
import Collage.Proofs.Frame.Previewing
import Collage.Proofs.Frame.Refinement

/-!
# Passes

From one moment at which a program is chosen to the next a device is told a pass: a program,
and the values that are written for it.  Compositing makes a pass for each layer that has
something to be drawn with, in the order of `CompiledTree.composited`, and each pass begins
with what every layer is given (`Begins`); if it fails, the passes up to then are those of the
first layers.

So the opacity that is written for a layer is the formula of `effectiveOpacity`, and in exact
arithmetic it is the product of what each layer on the way says, but for layers that say more
than one (`opacities_written`).
-/

namespace Collage

open Collage.Action LayerTree

/-! ### Passes of a device -/

/-- What is written while a program is the current one. -/
structure Pass where
  program : Handle
  writes : List (Nat × UniformData)
  deriving DecidableEq

/-- What is written before the next program is chosen. -/
def firstWrites : List DeviceEvent → List (Nat × UniformData)
  | .useProgram _ :: _ => []
  | .setUniform location _ value :: rest => (location, value) :: firstWrites rest
  | _ :: rest => firstWrites rest
  | [] => []

/-- The passes that begin in calls, the oldest first. -/
def passes : List DeviceEvent → List Pass
  | .useProgram program :: rest => ⟨program, firstWrites rest⟩ :: passes rest
  | _ :: rest => passes rest
  | [] => []

theorem firstWrites_append {news more : List DeviceEvent} (quiet : firstWrites more = []) :
    firstWrites (news ++ more) = firstWrites news := by
  induction news with
  | nil => exact quiet
  | cons event rest ih => cases event <;> simp [firstWrites, ih]

theorem passes_append {news more : List DeviceEvent} (quiet : firstWrites more = []) :
    passes (news ++ more) = passes news ++ passes more := by
  induction news with
  | nil => rfl
  | cons event rest ih => cases event <;> simp [passes, ih, firstWrites_append quiet]

/-- Calls that write values and do nothing else. -/
def Sets (writes : List (Nat × UniformData)) (news : List DeviceEvent) : Prop :=
  List.Forall₂ (fun write event => ∃ name, event = .setUniform write.1 name write.2) writes news

theorem Sets.firstWrites {writes : List (Nat × UniformData)} {news : List DeviceEvent}
    (h : Sets writes news) (rest : List DeviceEvent) :
    firstWrites (news ++ rest) = writes ++ Collage.firstWrites rest := by
  induction h with
  | nil => rfl
  | cons first _ ih =>
    obtain ⟨name, rfl⟩ := first
    rw [List.cons_append, Collage.firstWrites, ih]
    rfl

theorem Sets.passes {writes : List (Nat × UniformData)} {news : List DeviceEvent}
    (h : Sets writes news) (rest : List DeviceEvent) :
    passes (news ++ rest) = Collage.passes rest := by
  induction h with
  | nil => rfl
  | cons first _ ih =>
    obtain ⟨name, rfl⟩ := first
    exact ih

/-- A value with a place to write it to. -/
def placedWrite (write : Option Nat × UniformData) : Option (Nat × UniformData) :=
  write.1.map (·, write.2)

namespace Renderer

variable {ℓ : Type} {α β : Type} {frame : FrameContext}

/-- What compositing relies on besides its layers: the program that shows a texture, and the
textures of script layers. -/
structure Scenery where
  texture : TextureProgram
  pictures : String → Option Handle

/-- The scenery of a renderer. -/
def scenery (renderer : Renderer ℓ) : Scenery :=
  ⟨renderer.programs.texture, renderer.external.texture?⟩

/-- Between two states of a renderer the device was told to do something, the oldest call
first, in the same scenery. -/
structure Told (news : List DeviceEvent) (before after : Renderer ℓ) : Prop where
  orders : after.device.orders = news.reverse ++ before.device.orders
  scenery : after.scenery = before.scenery

theorem Told.trans {a b c : Renderer ℓ} {news more : List DeviceEvent} (h : Told news a b)
    (h' : Told more b c) : Told (news ++ more) a c :=
  ⟨by rw [h'.orders, h.orders, List.reverse_append, List.append_assoc],
    h'.scenery.trans h.scenery⟩

theorem Told.of_device {before : Renderer ℓ} {device : Device} {news : List DeviceEvent}
    (tells : Device.Tells news.reverse before.device device) :
    Told news before { before with device } :=
  ⟨tells.orders, rfl⟩

/-- Between two states nothing was told that is drawn. -/
def Silent (before after : Renderer ℓ) : Prop :=
  Told [] before after

theorem Silent.of_device {before : Renderer ℓ} {device : Device}
    (silent : Device.Silent before.device device) (targets : RenderTargets)
    (textures : TextureCache) (loader : ℓ) :
    Silent before { before with device, targets, textures, loader } :=
  ⟨silent.orders, rfl⟩

instance : Std.Refl (@Silent ℓ) := ⟨fun _ => ⟨rfl, rfl⟩⟩

instance : IsTrans (Renderer ℓ) Silent := ⟨fun _ _ _ h h' => h.trans h'⟩

/-- Between two states nothing was told but values. -/
def Writes (before after : Renderer ℓ) : Prop :=
  ∃ writes news, Sets writes news ∧ Told news before after

theorem Silent.writes {before after : Renderer ℓ} (h : Silent before after) :
    Writes before after :=
  ⟨[], [], .nil, h⟩

instance : Std.Refl (@Writes ℓ) := ⟨fun _ => Silent.writes ⟨rfl, rfl⟩⟩

instance : IsTrans (Renderer ℓ) Writes where
  trans := by
    rintro a b c ⟨writes, news, sets, told⟩ ⟨others, more, also, then_⟩
    exact ⟨writes ++ others, news ++ more, List.rel_append sets also, told.trans then_⟩

/-! ### What tells nothing -/

theorem tracksPool_silent : TracksPool (@Silent ℓ) fun _ => Silent where
  toTraces := Keeps.traces
  unable _ _ _ := ⟨rfl, rfl⟩
  stats _ _ := ⟨rfl, rfl⟩
  framebuffer _ _ _ _ := .of_device (Device.tells_bindFramebuffer _ _ _ _) _ _ _
  request := Keeps.within RenderTargets.request_silent fun _ _ silent => .of_device silent _ _ _
  release _ _ _ _ := ⟨rfl, rfl⟩

theorem tracksValues_silent : TracksValues (@Silent ℓ) (fun _ => Silent) fun _ => True where
  toTracks := tracksPool_silent.toTracks
  input _ _ _ _ _ := ⟨rfl, rfl⟩
  found found := .of_device found.tells _ _ _
  refused failed := .of_device failed.tells _ _ _
  unit _ _ _ := .of_device (Device.tells_bindTexture _ _ _) _ _ _

theorem requestScript_silent (frame : FrameContext) (layer : CompiledLayer) (code : String) :
    Keeps Silent (requestScript frame layer code : Action (Renderer ℓ) Unit) := by
  refine tracksValues_silent.requestScript (fun _ => trivial) ?_ frame layer code
  exact fun renderer id make =>
    ⟨rfl, congrArg (Scenery.mk _) (funext (renderer.external.texture?_request id make))⟩

/-- Uniforms are given values, and nothing else is told. -/
theorem writeUniforms_writes [TextureLoader ℓ] (frame : FrameContext) (placed : List PlacedUniform)
    (unit : Nat) : Keeps Writes (writeUniforms frame unit placed : Action (Renderer ℓ) Unit) := by
  have tracks : TracksValues (@Writes ℓ) (fun _ => Writes) fun _ => True :=
    { toTraces := Keeps.traces
      unable := fun failure renderer plain =>
        (tracksValues_silent.unable failure renderer plain).writes
      stats := fun renderer stats => (tracksValues_silent.stats renderer stats).writes
      framebuffer := fun renderer handle width height =>
        (tracksValues_silent.framebuffer renderer handle width height).writes
      input := fun renderer frame layer uniform inside =>
        (tracksValues_silent.input renderer frame layer uniform inside).writes
      found := fun found => (tracksValues_silent.found found).writes
      refused := fun failed => (tracksValues_silent.refused failed).writes
      unit := fun renderer unit texture => (tracksValues_silent.unit renderer unit texture).writes }
  refine tracks.writeUniforms (fun renderer location value => ?_) frame placed unit
    fun _ _ => trivial
  exact ⟨[(location, value)], _, .cons ⟨_, rfl⟩ .nil,
    .of_device (renderer.device.tells_setUniform location value)⟩

/-! ### What every layer is given -/

theorem writeAt_tells : ∀ (writes : List (Option Nat × UniformData)) (device : Device),
    ∃ news, Sets (writes.filterMap placedWrite) news ∧
      Device.Tells news.reverse device (writes.foldl writeAt device)
  | [], device => ⟨[], .nil, .refl device⟩
  | (none, _) :: rest, device => writeAt_tells rest device
  | (some location, value) :: rest, device => by
    obtain ⟨news, sets, tells⟩ := writeAt_tells rest (device.setUniform location value)
    refine ⟨.setUniform location (device.nameAt location) value :: news, .cons ⟨_, rfl⟩ sets, ?_⟩
    rw [List.reverse_cons]
    exact (device.tells_setUniform location value).trans tells

theorem setBuiltins_yields (locations : BuiltinLocations) (frame : FrameContext)
    (previous : Handle) (blend : BlendMode) (opacity : Float32) (renderer : Renderer ℓ)
    {failed : Failure → Renderer ℓ → Prop} :
    (setBuiltins locations frame previous blend opacity : Action (Renderer ℓ) Unit).Yields renderer
      (fun _ after => ∃ news,
        Sets ((builtinWrites locations frame renderer blend opacity).filterMap placedWrite) news ∧
        Told news renderer after) failed := by
  obtain ⟨news, sets, tells⟩ :=
    writeAt_tells (builtinWrites locations frame renderer blend opacity) renderer.device
  refine Yields.get (Yields.modified ⟨news, sets, .of_device ?_⟩)
  have bound := tells.trans (Device.tells_bindTexture _ previousUnit (some previous))
  dsimp only
  split
  · exact bound.trans (Device.tells_bindTexture _ spectrumUnit (some renderer.spectrum))
  · exact bound

/-! ### Passes of layers -/

/-- How a layer is drawn over those below: with what program, blend mode and opacity. -/
structure Overlay where
  program : Handle
  locations : BuiltinLocations
  blend : BlendMode
  opacity : Float32

/-- A pass that begins with what every layer is given. -/
structure Begins (frame : FrameContext) (overlay : Overlay) (pass : Pass) : Prop where
  program : pass.program = overlay.program
  writes : ∃ (ℓ : Type) (renderer : Renderer ℓ) (opacity : Float32)
    (own : List (Nat × UniformData)), clamped opacity = overlay.opacity ∧
      pass.writes =
        (builtinWrites overlay.locations frame renderer overlay.blend opacity).filterMap
          placedWrite ++ own

/-- A pass that was begun, if perhaps no further than its program. -/
def Starts (frame : FrameContext) (overlay : Overlay) (pass : Pass) : Prop :=
  pass = ⟨overlay.program, []⟩ ∨ Begins frame overlay pass

/-- Calls that draw layers, a pass each. -/
structure Draws (frame : FrameContext) (overlays : List Overlay) (news : List DeviceEvent) :
    Prop where
  first : firstWrites news = []
  passes : List.Forall₂ (Begins frame) overlays (passes news)

/-- Calls that draw the first of some layers, the last of them perhaps not to the end. -/
structure Breaks (frame : FrameContext) (overlays : List Overlay) (news : List DeviceEvent) :
    Prop where
  first : firstWrites news = []
  passes : ∃ some, some <+: overlays ∧ List.Forall₂ (Starts frame) some (Collage.passes news)

variable {overlays others : List Overlay} {news more : List DeviceEvent}

theorem Draws.nothing : Draws frame [] [] :=
  ⟨rfl, .nil⟩

theorem Breaks.nothing : Breaks frame overlays [] :=
  ⟨rfl, [], List.nil_prefix, .nil⟩

theorem Draws.append (h : Draws frame overlays news) (h' : Draws frame others more) :
    Draws frame (overlays ++ others) (news ++ more) :=
  ⟨(firstWrites_append h'.first).trans h.first,
    passes_append h'.first ▸ List.rel_append h.passes h'.passes⟩

theorem Draws.breaks (h : Draws frame overlays news) (h' : Breaks frame others more) :
    Breaks frame (overlays ++ others) (news ++ more) := by
  obtain ⟨some, first, starts⟩ := h'.passes
  refine ⟨(firstWrites_append h'.first).trans h.first, overlays ++ some,
    (List.prefix_append_right_inj overlays).mpr first, ?_⟩
  rw [passes_append h'.first]
  exact List.rel_append (h.passes.imp fun _ _ begins => .inr begins) starts

theorem Draws.complete (h : Draws frame overlays news) : Breaks frame overlays news :=
  ⟨h.first, overlays, List.prefix_rfl, h.passes.imp fun _ _ begins => .inr begins⟩

theorem Breaks.append (h : Breaks frame overlays news) (others : List Overlay) :
    Breaks frame (overlays ++ others) news := by
  obtain ⟨some, first, starts⟩ := h.passes
  exact ⟨h.first, some, first.trans (List.prefix_append overlays others), starts⟩

/-- An action that draws layers, which depend on the scenery. -/
def Passes (frame : FrameContext) (overlays : Scenery → List Overlay)
    (action : Action (Renderer ℓ) α) : Prop :=
  ∀ renderer, action.Yields renderer
    (fun _ after => ∃ news, Told news renderer after ∧ Draws frame (overlays renderer.scenery) news)
    fun _ after => ∃ news, Told news renderer after ∧ Breaks frame (overlays renderer.scenery) news

namespace Passes

variable {first second : Scenery → List Overlay} {action : Action (Renderer ℓ) α}

theorem of_silent (h : Keeps Silent action) : Passes frame (fun _ => []) action :=
  fun renderer => (h renderer).mono (fun _ _ silent => ⟨[], silent, .nothing⟩)
    fun _ _ silent => ⟨[], silent, .nothing⟩

theorem of_calm {change : Device → Device} (told : ∀ device, Device.Tells news device (change device))
    (first : firstWrites news.reverse = []) (none : Collage.passes news.reverse = []) :
    Passes frame (fun _ => []) (changeDevice change : Action (Renderer ℓ) Unit) := by
  refine fun renderer => Yields.modified ⟨news.reverse, .of_device ?_, first, none ▸ .nil⟩
  rw [List.reverse_reverse]
  exact told renderer.device

/-- **Layers one after another.** -/
theorem bind {next : α → Action (Renderer ℓ) β} (h : Passes frame first action)
    (rest : ∀ value, Passes frame second (next value)) :
    Passes frame (fun scenery => first scenery ++ second scenery) (action >>= next) := by
  intro renderer
  refine (h renderer).bind (fun value mid => ?_) ?_
  · rintro ⟨news, told, draws⟩
    have goes := rest value mid
    rw [told.scenery] at goes
    refine goes.mono ?_ ?_
    · rintro _ after ⟨more, also, draws'⟩
      exact ⟨news ++ more, told.trans also, draws.append draws'⟩
    · rintro _ after ⟨more, also, breaks⟩
      exact ⟨news ++ more, told.trans also, draws.breaks breaks⟩
  · rintro _ after ⟨news, told, breaks⟩
    exact ⟨news, told, breaks.append _⟩

theorem after_silent {next : α → Action (Renderer ℓ) β} (h : Keeps Silent action)
    (rest : ∀ value, Passes frame second (next value)) : Passes frame second (action >>= next) :=
  (of_silent h).bind rest

theorem before_silent {next : α → Action (Renderer ℓ) β} (h : Passes frame first action)
    (rest : ∀ value, Keeps Silent (next value)) : Passes frame first (action >>= next) := by
  have quiet : ∀ value, Passes frame (fun _ => []) (next value) := fun value => of_silent (rest value)
  have both := h.bind quiet
  simpa only [List.append_nil] using both

theorem followedBy {last : Action (Renderer ℓ) Unit} (h : Passes frame first action)
    (ends : Keeps Silent last) : Passes frame first (action.followedBy last) := by
  intro renderer
  refine (h renderer).followedBy ?_ ?_
  · rintro _ after ⟨news, told, draws⟩
    have on : ∀ final, Silent after final → Told news renderer final := fun final silent =>
      List.append_nil news ▸ told.trans silent
    exact (ends after).mono (fun _ final silent => ⟨news, on final silent, draws⟩)
      fun _ final silent => ⟨news, on final silent, draws.complete⟩
  · rintro _ after ⟨news, told, breaks⟩
    have on : ∀ final, Silent after final → Told news renderer final := fun final silent =>
      List.append_nil news ▸ told.trans silent
    exact (ends after).mono (fun _ final silent => ⟨news, on final silent, breaks⟩)
      fun _ final silent => ⟨news, on final silent, breaks⟩

theorem get {next : Renderer ℓ → Action (Renderer ℓ) α}
    (rest : ∀ before, (next before).Yields before
      (fun _ after => ∃ news, Told news before after ∧ Draws frame (first before.scenery) news)
      fun _ after => ∃ news, Told news before after ∧ Breaks frame (first before.scenery) news) :
    Passes frame first (MonadState.get >>= next) :=
  fun before => rest before

end Passes

/-! ### Layers -/

theorem Sets.draws {program : Handle} {locations : BuiltinLocations} {renderer : Renderer ℓ}
    {blend : BlendMode} {opacity : Float32} {own : List (Nat × UniformData)}
    (h : Sets ((builtinWrites locations frame renderer blend opacity).filterMap placedWrite ++ own)
      news) (rest : List DeviceEvent) (last : firstWrites rest = []) (only : passes rest = []) :
    Draws frame [⟨program, locations, blend, clamped opacity⟩]
      (.useProgram program :: (news ++ rest)) := by
  refine ⟨rfl, ?_⟩
  rw [passes, h.passes, h.firstWrites, last, only, List.append_nil]
  exact .cons ⟨rfl, ℓ, renderer, opacity, own, rfl, rfl⟩ .nil

/-- **A program that draws makes one pass**, which begins with what every layer is given. -/
theorem drawWith_passes (program : Handle) (locations : BuiltinLocations) (blend : BlendMode)
    (opacity : Float32) (read : Nat) {prepare : Action (Renderer ℓ) Unit}
    (h : Keeps Writes prepare) :
    Passes frame (fun _ => [⟨program, locations, blend, clamped opacity⟩])
      (drawWith program locations frame blend opacity read prepare) := by
  intro renderer
  unfold drawWith
  refine Yields.modify ?_
  have chosen : Told [.useProgram program] renderer
      { renderer with device := renderer.device.useProgram program } :=
    .of_device (renderer.device.tells_useProgram program)
  refine (tracksPool_silent.target read _).bind (fun previous given silent => ?_) ?_
  · -- the program is chosen, and what every layer is given comes next
    have begun := chosen.trans silent
    refine (setBuiltins_yields locations frame previous.texture blend opacity given).bind ?_
      fun _ _ never => never
    rintro _ mid ⟨news, sets, told⟩
    refine (h mid).bind ?_ ?_
    · rintro _ ready ⟨own, more, also, then_⟩
      have drawn : Told [.draw] ready { ready with device := ready.device.draw } :=
        .of_device ready.device.tells_draw
      exact Yields.modified ⟨_, begun.trans ((told.trans then_).trans drawn),
        Sets.draws (List.rel_append sets also) [.draw] rfl rfl⟩
    · rintro _ after ⟨own, more, also, then_⟩
      have all := told.trans then_
      rw [← List.append_nil (news ++ more)] at all
      exact ⟨_, begun.trans all, (Sets.draws (List.rel_append sets also) [] rfl rfl).complete⟩
  · rintro _ after silent
    exact ⟨_, chosen.trans silent, rfl, _, List.prefix_rfl, .cons (.inl rfl) .nil⟩

/-- A texture that is shown. -/
def Scenery.overlay (scenery : Scenery) (blend : BlendMode) (opacity : Float32) : Overlay :=
  ⟨scenery.texture.program, scenery.texture.builtins, blend, opacity⟩

theorem compositeTexture_passes (texture : Handle) (blend : BlendMode) (opacity : Float32)
    (read : Nat) :
    Passes frame (fun scenery => [scenery.overlay blend (clamped opacity)])
      (compositeTexture texture frame blend opacity read : Action (Renderer ℓ) Nat) := by
  have prepared : ∀ location, Keeps Writes (changeDevice fun device =>
      (device.bindTexture firstFreeUnit (some texture)).setUniform location
        (.ints [firstFreeUnit]) : Action (Renderer ℓ) Unit) := by
    intro location
    refine Keeps.modify fun renderer => ?_
    exact ⟨[(location, .ints [firstFreeUnit])], _, .cons ⟨_, rfl⟩ .nil, .of_device
      ((renderer.device.tells_bindTexture firstFreeUnit (some texture)).silent_trans
        (Device.tells_setUniform _ location _))⟩
  have drawn : Passes frame (fun scenery => [scenery.overlay blend (clamped opacity)])
      (drawTexture texture frame blend opacity read : Action (Renderer ℓ) Unit) :=
    .get fun before => drawWith_passes _ _ blend opacity read (prepared _) before
  rw [compositeTexture_eq]
  exact .after_silent tracksPool_silent.startTarget fun out => drawn.before_silent fun _ =>
    tracksPool_silent.swapRead read out

/-- A layer that is composited, if it has something to be drawn with: a shader its program, and
a script a picture that it gave. -/
def Scenery.overlay? (scenery : Scenery) (composited : Composited) : Option Overlay :=
  let layer := composited.layer
  match layer.kind with
  | .shader shader => shader.program.map (⟨·, shader.builtins, layer.blend, composited.opacity⟩)
  | .script _ => (scenery.pictures layer.id).map fun _ =>
      scenery.overlay layer.blend composited.opacity
  | .group _ => some (scenery.overlay layer.blend composited.opacity)
  | .distance .. => none

/-- An action that draws layers which are composited. -/
abbrev Overlays (frame : FrameContext) (layers : List Composited)
    (action : Action (Renderer ℓ) α) : Prop :=
  Passes frame (fun scenery => layers.filterMap scenery.overlay?) action

section

variable {layer : CompiledLayer}

/-- A script layer. -/
theorem compositeScript_passes {code : String} (kind : layer.kind = .script code)
    (through : List CompiledLayer) (read : Nat) :
    Overlays frame [⟨layer, through⟩]
      (compositeScript frame layer code (groupScale (through.map (·.opacity))) read :
        Action (Renderer ℓ) Nat) := by
  refine .after_silent (requestScript_silent frame layer code) fun _ => .get fun asked => ?_
  simp only [List.filterMap_cons, Scenery.overlay?, kind, List.filterMap_nil]
  cases found : asked.external.texture? layer.id with
  | none =>
    have none : asked.scenery.pictures layer.id = none := found
    rw [none]
    exact Passes.of_silent (Keeps.pure read) asked
  | some texture =>
    have some : asked.scenery.pictures layer.id = some texture := found
    rw [some]
    exact (Passes.after_silent (tracksPool_silent.count _) fun _ =>
      compositeTexture_passes texture layer.blend _ read) asked

/-- A group on its own is drawn after the layers in it. -/
theorem compositeIsolated_passes {children : List Nat} (kind : layer.kind = .group children)
    {layers : List Composited} (through : List CompiledLayer) (read : Nat)
    {inside : Nat → Action (Renderer ℓ) Nat} (h : ∀ read, Overlays frame layers (inside read)) :
    Overlays frame (layers ++ [⟨layer, through⟩])
      (compositeIsolated frame layer (groupScale (through.map (·.opacity))) read inside) := by
  have last : ∀ scenery : Scenery, [(⟨layer, through⟩ : Composited)].filterMap scenery.overlay? =
      [scenery.overlay layer.blend (Composited.opacity ⟨layer, through⟩)] := by
    intro scenery
    simp only [List.filterMap_cons, Scenery.overlay?, kind, List.filterMap_nil]
  unfold Overlays
  simp only [List.filterMap_append, last]
  have cleared : Passes frame (fun _ => [])
      (changeDevice (·.clear transparent) : Action (Renderer ℓ) Unit) :=
    .of_calm (fun device => device.tells_clear transparent) rfl rfl
  refine .after_silent tracksPool_silent.startTarget fun start => ?_
  refine cleared.bind fun _ => (h start).bind fun isolated => ?_
  refine .after_silent (tracksPool_silent.target isolated) fun shown => ?_
  exact (compositeTexture_passes shown.texture layer.blend _ read).followedBy
    (tracksPool_silent.releaseTarget isolated)

section

variable [TextureLoader ℓ]

/-- A shader layer. -/
theorem compositeShader_passes {shader : LayerProgram} (kind : layer.kind = .shader shader)
    (tree : CompiledTree) (through : List CompiledLayer) (read : Nat) :
    Overlays frame [⟨layer, through⟩]
      (compositeShader tree frame layer shader (groupScale (through.map (·.opacity))) read :
        Action (Renderer ℓ) Nat) := by
  have drawn : Overlays frame [⟨layer, through⟩]
      (drawShader tree frame layer shader (groupScale (through.map (·.opacity))) read :
        Action (Renderer ℓ) Unit) := by
    unfold Overlays drawShader
    simp only [List.filterMap_cons, Scenery.overlay?, kind, List.filterMap_nil]
    cases shader.program with
    | none =>
      exact (Passes.of_calm (fun device => device.tells_clear failedColor) rfl rfl).before_silent
        fun _ => tracksPool_silent.count _
    | some program =>
      exact (drawWith_passes program shader.builtins layer.blend _ read
        (writeUniforms_writes frame _ _)).before_silent fun _ => tracksPool_silent.count _
  rw [compositeShader_eq]
  exact .after_silent tracksPool_silent.startTarget fun out => drawn.before_silent fun _ =>
    tracksPool_silent.swapRead read out

/-- **Layers are drawn with those in them, each in a pass of its own.** -/
theorem composing_passes (tree : CompiledTree) : Composing tree frame
    fun scale views (draw : Nat → Action (Renderer ℓ) Nat) =>
      ∀ through : List CompiledLayer, scale = groupScale (through.map (·.opacity)) →
        ∀ read, Overlays frame (compositedIn through views) (draw read) where
  nothing _ _ read := .of_silent (Keeps.pure read)
  hidden hidden through _ read := by
    rw [compositedIn_singleton, composited, if_neg (Bool.eq_false_iff.mp hidden)]
    exact .of_silent (Keeps.pure read)
  distance visible kind through _ read := by
    rw [compositedIn_singleton, composited, if_pos visible, kind]
    exact .of_silent (Keeps.pure read)
  shader visible kind through same read := by
    subst same
    rw [compositedIn_singleton, composited, if_pos visible, kind]
    exact compositeShader_passes kind tree through read
  script visible kind through same read := by
    subst same
    rw [compositedIn_singleton, composited, if_pos visible, kind]
    exact compositeScript_passes kind through read
  through visible kind passes inside through same read := by
    subst same
    rw [compositedIn_singleton, composited, if_pos visible, kind]
    dsimp only
    rw [if_pos passes]
    -- the group is one more that the layers in it are drawn through
    refine inside _ ?_ read
    rw [List.map_append, List.map_singleton, groupScale_concat]
    rfl
  isolated visible kind alone inside through same read := by
    subst same
    rw [compositedIn_singleton, composited, if_pos visible, kind]
    dsimp only
    rw [if_neg alone]
    exact compositeIsolated_passes kind through read (inside [] rfl)
  followed rest first through same read := by
    have first := first through same
    rw [compositedIn_singleton] at first
    unfold Overlays
    simp only [compositedIn, List.filterMap_append]
    exact (rest through same read).bind first

/-! ### Frames -/

/-- **A frame is composed of passes**, one for each layer that has something to be drawn with. -/
theorem composeFrame_passes (tree : CompiledTree) :
    Overlays frame tree.composited (composeFrame tree frame : Action (Renderer ℓ) Nat) := by
  have layers : ∀ read, Overlays frame tree.composited
      (compositeTree tree frame read : Action (Renderer ℓ) Nat) :=
    (composing_passes tree).drawn [] rfl
  have cleared : Passes frame (fun _ => [])
      (changeDevice (·.clear transparent) : Action (Renderer ℓ) Unit) :=
    .of_calm (fun device => device.tells_clear transparent) rfl rfl
  exact .after_silent tracksPool_silent.startTarget fun start => cleared.bind fun _ => layers start

/-- **What opacities are written.**  A frame writes for each layer the opacity of
`effectiveOpacity`.  In exact arithmetic it is the product of those of the layer and of the groups
it is drawn through, each between zero and one, just if the layer's own is not above one or the
groups hide everything or change nothing; and one group more around a layer multiplies its
opacity just if what it is given is not above one or it hides everything or changes nothing. -/
theorem opacities_written (tree : CompiledTree) (frame : FrameContext) :
    Overlays frame tree.composited (composeFrame tree frame : Action (Renderer ℓ) Nat) ∧
    ∀ (groups : List ℚ) (own : ℚ),
      (effectiveOpacity groups own = clamped own * (groups.map clamped).prod ↔
        own ≤ 1 ∨ (∃ group ∈ groups, group ≤ 0) ∨ ∀ group ∈ groups, 1 ≤ group) ∧
      ∀ group : ℚ,
        effectiveOpacity (groups ++ [group]) own = effectiveOpacity groups own * clamped group ↔
          own * groupScale groups ≤ 1 ∨ group ≤ 0 ∨ 1 ≤ group :=
  ⟨composeFrame_passes tree, fun groups own => ⟨effectiveOpacity_eq_iff groups own,
    fun group => effectiveOpacity_concat_iff groups own group⟩⟩

end

end

/-- A layer whose opacity is two, in a group that lets half of it through. -/
def glaring : CompiledTree where
  layers :=
    [⟨"root", "", none, true, .normal, 1, [], [], false, .group [1]⟩,
      ⟨"dimmed", "", some 0, true, .passThrough, 0.5, [], [], false, .group [2]⟩,
      ⟨"glare", "", some 1, true, .normal, 2, [], [], false,
        .shader { program := some 7, builtins := { opacity := some 3 } }⟩]
  scene := none
  builder := ⟨"300 es", 0⟩

/-- **The opacity of a layer is not always the product**: one is written for it, and not a
half. -/
theorem glaring_written :
    passes ((composeFrame glaring {} : Action (Renderer NoLoader) Nat).runOn
        bare).2.device.orders.reverse = [⟨7, [(3, .floats [1])]⟩] ∧
      effectiveOpacity [1 / 2] (2 : ℚ) = 1 ∧
      clamped (2 : ℚ) * ([1 / 2].map clamped).prod = 1 / 2 := by
  refine ⟨by decide +kernel, ?_, ?_⟩
  · norm_num [effectiveOpacity, groupScale, clamped]
  · norm_num [clamped]

end Renderer
end Collage
