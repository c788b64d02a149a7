import Collage.Proofs.Frame.Handover
import Collage.Proofs.Frame.Tandem
import Collage.Proofs.Tree.Cues

/-!
# What is shown of a document

`Renderer.shown` is all that there is to be seen of a document: it is compiled on the device of a
renderer, and of every frame that is drawn for some turns there is the stats or the failure, what
the device was told in words, and the requests for scripts.

Two documents show the same on a renderer if the same is drawn of them, but for groups that are seen
through (`shown_eq`).  For this the programs of the renderer must mean the same after either document
was compiled: it must be `Equipped`, that is, its programs are in the ledger and their locations are
known.  So is every renderer that was just created (`create_equipped`).
-/

namespace Collage

open Device Collage.Action

/-! ### The locations of the standing programs -/

/-- Between two states of a device no location was forgotten, and these are known at the end. -/
def Learns (known : List Nat) (before after : Device) : Prop :=
  before.locations <+: after.locations ∧ ∀ location ∈ known, location < after.locations.length

theorem Learns.trans {known more : List Nat} {a b c : Device} (h : Learns known a b)
    (h' : Learns more b c) : Learns (known ++ more) a c := by
  refine ⟨h.1.trans h'.1, fun location inside => ?_⟩
  rcases List.mem_append.mp inside with first | second
  · exact Nat.lt_of_lt_of_le (h.2 location first) h'.1.length_le
  · exact h'.2 location second

theorem Learns.of_grown {before after : Device} (grows : before.locations <+: after.locations) :
    Learns [] before after :=
  ⟨grows, List.forall_mem_nil _⟩

theorem requiredLocation_learns (program : Handle) (name uniform : String) (device : Device) :
    (requiredLocation program name uniform).Yields device
      (fun location later => Learns [location] device later) fun _ _ => True := by
  have looked := LooksUp.uniformLocation program uniform device
  unfold Yields runOn ExceptT.run requiredLocation
  revert looked
  cases device.uniformLocation program uniform with
  | mk location later =>
    cases location with
    | none => exact fun _ => trivial
    | some location =>
      rintro ⟨grows, found⟩
      refine ⟨grows, fun asked inside => ?_⟩
      obtain rfl := List.mem_singleton.mp inside
      exact (List.getElem?_eq_some_iff.mp (found _ rfl)).1

namespace StandingPrograms

theorem resolve_learns (program : Handle) (device : Device) :
    Learns ((BuiltinLocations.resolve program device).1.slots.filterMap id) device
      (BuiltinLocations.resolve program device).2 := by
  obtain ⟨grows, found⟩ := BuiltinLocations.resolve_looksUp program device
  refine ⟨grows, fun location inside => ?_⟩
  obtain ⟨slot, among, rfl⟩ := List.mem_filterMap.mp inside
  obtain ⟨name, -, place⟩ := exists_of_mem_right found.flip among
  exact (List.getElem?_eq_some_iff.mp (place location rfl)).1

theorem layerLocations_learns (program : Handle) (name : String) (device : Device) :
    (layerLocations program name).Yields device
      (fun builtins later => Learns (builtins.slots.filterMap id) device later) fun _ _ => True := by
  have resolved := resolve_learns program
  unfold layerLocations
  -- there are many locations, and which ones does not matter
  generalize BuiltinLocations.resolve program = resolve at resolved ⊢
  refine (requiredLocation_learns program name _ device).bind ?_ fun _ _ => id
  intro _ _ first
  refine (requiredLocation_learns program name _ _).bind ?_ fun _ _ => id
  intro _ _ second
  refine (requiredLocation_learns program name _ _).bind ?_ fun _ _ => id
  intro _ later third
  have grows := ((Learns.of_grown first.1).trans (.of_grown second.1)).trans (.of_grown third.1)
  exact Yields.lift (grows.trans (resolved later))

theorem createCopy_learns (builder : ProgramBuilder) (device : Device) :
    (createCopy builder).Yields device
      (fun copy later => Learns [copy.texture, copy.flip] device later) fun _ _ => True := by
  unfold createCopy
  generalize ShaderLibrary.copy builder.version = source
  refine (builder.buildNamed_backstage "copy" source device).bind ?_ fun _ _ _ => trivial
  intro program _ built
  refine (requiredLocation_learns program _ _ _).bind ?_ fun _ _ => id
  intro texture _ first
  refine (requiredLocation_learns program _ _ _).bind ?_ fun _ _ => id
  intro flip _ second
  exact Yields.pure (((Learns.of_grown built.locations).trans first).trans second)

theorem createTexture_learns (builder : ProgramBuilder) (device : Device) :
    (createTexture builder).Yields device
      (fun shown later => Learns (shown.texture :: shown.builtins.slots.filterMap id) device later)
      fun _ _ => True := by
  unfold createTexture createLayer
  generalize WrappedSource.text _ = source
  refine (builder.buildNamed_backstage "custom-texture" source device).bind ?_ fun _ _ _ => trivial
  intro program _ built
  refine (requiredLocation_learns program _ _ _).bind ?_ fun _ _ => id
  intro texture _ first
  refine (layerLocations_learns program _ _).bind ?_ fun _ _ => id
  intro builtins _ second
  exact Yields.pure (((Learns.of_grown built.locations).trans first).trans second)

/-- **The locations of the standing programs are known** when these have been built. -/
theorem create_learns (version : String) (device : Device) :
    (create version).Yields device (fun standing later => Learns standing.locations device later)
      fun _ _ => True := by
  have copies := createCopy_learns
  have shows := createTexture_learns
  have draws := createCheckerboard_backstage
  unfold create
  -- what the programs are made of does not matter, and it is long
  generalize createCopy = copied at copies ⊢
  generalize createTexture = textured at shows ⊢
  generalize createCheckerboard = checkered at draws ⊢
  refine (ProgramBuilder.create_backstage version device).bind ?_ fun _ _ _ => trivial
  intro builder _ started
  refine (copies builder _).bind ?_ fun _ _ => id
  intro copy _ first
  refine (shows builder _).bind ?_ fun _ _ => id
  intro texture last second
  refine (Yields.after_iff.mpr (draws builder last)).bind ?_ fun _ _ _ => trivial
  intro checkerboard _ drawn
  have known := ((Learns.of_grown started.locations).trans first).trans second
  have all := known.trans (.of_grown drawn.locations)
  rw [List.append_nil] at all
  exact Yields.pure all

end StandingPrograms

namespace ExternalLayers.Alike

variable {layers other : ExternalLayers}

theorem connect (h : Alike layers other) : layers.connect.Alike other.connect :=
  ⟨h.framesAhead, rfl, rfl, rfl, h.requests, h.states⟩

theorem deliver (h : Alike layers other) (result : ExternalResult) :
    (layers.deliver result).Alike (other.deliver result) := by
  unfold ExternalLayers.deliver
  rw [h.connected, h.waiting]
  split
  · exact ⟨h.framesAhead, rfl, h.submitted, rfl, h.requests, h.states⟩
  · exact h

end ExternalLayers.Alike

namespace Renderer

variable {ℓ : Type}

/-- The programs of a renderer are in the ledger of its device, and their locations are known. -/
structure Equipped (traits : DeviceTraits) (renderer : Renderer ℓ) : Prop where
  programs : ∃ shaders programs, Holds traits shaders programs renderer.device ∧
    ∀ program ∈ renderer.programs.handles, ∃ source, (program, source) ∈ programs
  locations : ∀ location ∈ renderer.programs.locations,
    location < renderer.device.locations.length

theorem create_learns (options : RendererOptions) (loader : ℓ) (device : Device) :
    (create options loader).Yields device
      (fun renderer _ => Learns renderer.programs.locations device renderer.device)
      fun _ _ => True := by
  have learns := StandingPrograms.create_learns options.version device
  have stays : ∀ {places : List Nat} {built later : Device}, Learns places device built →
      later.locations = built.locations → Learns places device later := by
    intro places built later known same
    unfold Learns at known ⊢
    rwa [same]
  have pool : ∀ (programs : StandingPrograms) built, Learns programs.locations device built →
      (RenderTargets.create options.width options.height options.antiAlias).Yields built
        (fun _ laid => Learns programs.locations device laid) fun _ _ => True :=
    fun programs built known => (RenderTargets.create_silent _ _ _ built).mono
      (fun _ _ silent => stays known silent.locations) fun _ _ _ => trivial
  refine create_by_parts learns pool (fun _ _ _ _ _ _ _ => trivial) ?_
  intro programs targets laid known spectrum made created
  have told := (laid.tells_createTexture .linear .clamp).locations
  rw [created] at told
  exact stays known ((Device.tells_uploadTexture _ _ _ _ _).locations.trans told)

/-- **A renderer that is created is equipped.** -/
theorem create_equipped {start later : Device} (neat : start.Neat) {options : RendererOptions}
    {loader : ℓ} {renderer : Renderer ℓ}
    (created : (create options loader).runOn start = (.ok renderer, later)) :
    renderer.Equipped start.traits := by
  have all := create_ownsAll neat options loader
  obtain ⟨entries, handles, owns⟩ := Yields.of_ok created all
  refine ⟨⟨_, _, owns.holds, fun program inside => ?_⟩,
    (Yields.of_ok created (create_learns options loader start)).2⟩
  rw [← handles] at inside
  obtain ⟨⟨_, source⟩, among, rfl⟩ := List.mem_map.mp inside
  exact ⟨source, Multiset.mem_add.mpr (.inl among)⟩

theorem equipped_new : ∃ renderer : Renderer NoLoader, renderer.Equipped {} := by
  obtain ⟨renderer, later, created⟩ := create_succeeds {} rfl rfl NoLoader.mk
    DeviceTraits.obliging_new (Device.tidy_new {})
  exact ⟨renderer, create_equipped (Device.neat_new {}) created⟩

/-! ### Two documents on one renderer -/

theorem Tandem.renew {pairing : Device.Pairing} {left right : Renderer ℓ}
    (h : Tandem pairing left right) :
    Tandem { pairing with said := left.device.orders, said' := right.device.orders } left right :=
  { h with
    device := { h.device with told := ⟨[], [], rfl, rfl, rfl⟩ }
    shares := ⟨h.shares.programs, h.shares.locations⟩ }

/-- A lexicon in which the programs of a renderer mean what they mean on its device. -/
structure Speaks (renderer : Renderer ℓ) (lexicon : Lexicon) : Prop where
  programs : ∀ program ∈ renderer.programs.handles,
    lexicon.source program = renderer.device.lexicon.source program
  locations : ∀ location ∈ renderer.programs.locations,
    lexicon.name location = renderer.device.lexicon.name location

/-- **The programs of an equipped renderer go on to mean what they meant**, whatever was compiled on
its device, if all programs that were there are there. -/
theorem speaks_of_compiled {renderer : Renderer ℓ} {traits : DeviceTraits}
    {shaders : Multiset (Handle × ShaderObject)} {programs : Multiset (Handle × String)}
    (holds : Holds traits shaders programs renderer.device)
    (known : ∀ program ∈ renderer.programs.handles, ∃ source, (program, source) ∈ programs)
    (locations : ∀ location ∈ renderer.programs.locations,
      location < renderer.device.locations.length)
    {device : Device} (quiet : Backstage renderer.device device)
    (kept : ∀ entry ∈ programs, device.lexicon.source entry.1 = entry.2) :
    renderer.Speaks device.lexicon where
  programs program inside := by
    obtain ⟨source, there⟩ := known program inside
    rw [kept _ there, source_lexicon (holds.get?_linkedFrom there)]
  locations location inside := by
    obtain ⟨more, grown⟩ := quiet.locations
    unfold Device.lexicon Lexicon.name
    dsimp only
    rw [← grown, List.getElem?_append_left (locations location inside)]

/-- **A renderer is in tandem with itself**, whatever was compiled on its device, in lexicons that
speak of its programs. -/
theorem tandem_of_compiled {renderer : Renderer ℓ} {device other : Device} {lexicon lexicon' : Lexicon}
    (quiet : Backstage renderer.device device) (quiet' : Backstage renderer.device other)
    (speaks : renderer.Speaks lexicon) (speaks' : renderer.Speaks lexicon') :
    Tandem ⟨lexicon, lexicon', device.orders, other.orders⟩
      { renderer with device } { renderer with device := other } where
  device :=
    { traits := quiet.traits.trans quiet'.traits.symm
      textures := quiet.texturesAsked.trans quiet'.texturesAsked.symm
      framebuffers := quiet.asked.trans quiet'.asked.symm
      told := ⟨[], [], rfl, rfl, rfl⟩ }
  shares :=
    { programs := fun program inside =>
        (speaks.programs program inside).trans (speaks'.programs program inside).symm
      locations := fun location inside =>
        (speaks.locations location inside).trans (speaks'.locations location inside).symm }
  programs := rfl
  options := rfl
  clock := rfl
  levels := rfl
  input := rfl
  targets := rfl
  external := .refl _
  textures := fun _ => rfl

/-! ### What is shown -/

/-- What a host does while a tree is shown. -/
inductive Turn
  | connect
  | deliver (result : ExternalResult)
  | frame (input : FrameInput)

/-- What is to be seen of a frame: the stats or the failure, what the device was told in words, and
the requests for scripts so far. -/
structure FrameAccount where
  result : Except Failure FrameStats
  said : List Word
  submitted : List ExternalRequest

section

variable [TextureLoader ℓ]

/-- What is to be seen of the frames of a tree, in the words of a lexicon. -/
def accounts (lexicon : Lexicon) (tree : CompiledTree) : List Turn → Renderer ℓ → List FrameAccount
  | [], _ => []
  | .connect :: rest, renderer =>
    accounts lexicon tree rest { renderer with external := renderer.external.connect }
  | .deliver result :: rest, renderer =>
    accounts lexicon tree rest { renderer with external := renderer.external.deliver result }
  | .frame input :: rest, renderer =>
    let (result, after) := (render tree input).runOn renderer
    ⟨result, lexicon.words renderer.device after.device, after.external.submitted⟩ ::
      accounts lexicon tree rest after

/-- What is to be seen of a document that is compiled on the device of a renderer and then shown;
if it cannot be compiled, why. -/
def shown (renderer : Renderer ℓ) (version : String) (turns : List Turn) (document : Layer) :
    Except Failure (List FrameAccount) :=
  match (CompiledTree.compile document none version).runOn renderer.device with
  | (.ok tree, device) => .ok (accounts device.lexicon tree turns { renderer with device })
  | (.error failure, _) => .error failure

/-- Trees of pieces with the same cues look the same, turn by turn. -/
theorem accounts_eq {tree tree' : CompiledTree} : ∀ (turns : List Turn) {pairing : Device.Pairing}
    {left right : Renderer ℓ}, Tandem pairing left right →
    Cue.spreadIn (pairing.lexicon.cues tree (LayerTree.piecesIn tree.drawn)) =
      Cue.spreadIn (pairing.lexicon'.cues tree' (LayerTree.piecesIn tree'.drawn)) →
    accounts pairing.lexicon tree turns left = accounts pairing.lexicon' tree' turns right
  | [], _, _, _, _, _ => rfl
  | .connect :: rest, _, _, _, tandem, same =>
    accounts_eq rest { tandem with external := tandem.external.connect } same
  | .deliver result :: rest, _, _, _, tandem, same =>
    accounts_eq rest { tandem with external := tandem.external.deliver result } same
  | .frame input :: rest, pairing, left, right, tandem, same => by
    have rendered := render_tandem tandem.renew same input
    unfold accounts
    unfold Together at rendered
    generalize (render tree input).runOn left = first at rendered ⊢
    generalize (render tree' input).runOn right = second at rendered ⊢
    obtain ⟨result, after⟩ := first
    obtain ⟨result', later⟩ := second
    have whole : result = result' ∧ Tandem { pairing with
        said := left.device.orders, said' := right.device.orders } after later := by
      cases result <;> cases result'
      · exact ⟨congrArg _ rendered.1, rendered.2⟩
      · exact rendered.elim
      · exact rendered.elim
      · exact ⟨congrArg _ rendered.1, rendered.2⟩
    obtain ⟨rfl, tandem⟩ := whole
    dsimp only
    have others := accounts_eq rest tandem same
    rw [tandem.device.words_eq rfl rfl, tandem.external.submitted]
    exact congrArg _ others

/-- **What is shown of a document is what is shown of any tree with its cues**, in any lexicon that
speaks of the programs of the renderer. -/
theorem shown_eq_accounts {traits : DeviceTraits} (steady : traits.Steady) {renderer : Renderer ℓ}
    (equipped : renderer.Equipped traits) {version : String}
    (supported : traits.vertexRefusal? version = none) {document : Layer} {lexicon : Lexicon}
    (speaks : renderer.Speaks lexicon) {tree : CompiledTree}
    (same : Cue.spreadIn (document.drawnCues traits version document.solids) =
      Cue.spreadIn (lexicon.cues tree (LayerTree.piecesIn tree.drawn))) (turns : List Turn) :
    renderer.shown version turns document = .ok (accounts lexicon tree turns renderer) := by
  obtain ⟨⟨shaders, programs, holds, known⟩, locations⟩ := equipped
  have compiled := @CompiledTree.compile_portrays _ version _ _ _ holds steady document
  unfold shown
  unfold Yields at compiled
  generalize (CompiledTree.compile document none version).runOn renderer.device = result
    at compiled ⊢
  obtain ⟨outcome, device⟩ := result
  cases outcome with
  | error failure =>
    obtain ⟨log, refused, -⟩ := compiled
    cases supported.symm.trans refused
  | ok built =>
    obtain ⟨-, portrays, quiet, kept⟩ := compiled
    have tandem := tandem_of_compiled quiet (.refl _)
      (speaks_of_compiled holds known locations quiet kept) speaks
    refine congrArg Except.ok (accounts_eq turns tandem ?_)
    rw [portrays.cues_drawn, same]

/-- **Documents of which the same is drawn show the same** on an equipped renderer, whatever groups
there are that are seen through. -/
theorem shown_eq {traits : DeviceTraits} (steady : traits.Steady) {renderer : Renderer ℓ}
    (equipped : renderer.Equipped traits) {version : String} {document other : Layer}
    (same : Cue.spreadIn (document.drawnCues traits version document.solids) =
      Cue.spreadIn (other.drawnCues traits version other.solids)) (turns : List Turn) :
    renderer.shown version turns document = renderer.shown version turns other := by
  obtain ⟨⟨shaders, programs, holds, known⟩, locations⟩ := equipped
  have first := @CompiledTree.compile_portrays _ version _ _ _ holds steady document
  have second := @CompiledTree.compile_portrays _ version _ _ _ holds steady other
  unfold shown
  unfold Yields at first second
  generalize (CompiledTree.compile document none version).runOn renderer.device = left
    at first ⊢
  generalize (CompiledTree.compile other none version).runOn renderer.device = right
    at second ⊢
  obtain ⟨outcome, device⟩ := left
  obtain ⟨outcome', device'⟩ := right
  cases outcome with
  | error failure =>
    obtain ⟨log, refused, rfl⟩ := first
    cases outcome' with
    | error failure' =>
      obtain ⟨log', refused', rfl⟩ := second
      rw [refused] at refused'
      cases refused'
      rfl
    | ok tree' => cases refused.symm.trans second.1
  | ok tree =>
    obtain ⟨supported, portrays, quiet, kept⟩ := first
    cases outcome' with
    | error failure' =>
      obtain ⟨log', refused', -⟩ := second
      cases supported.symm.trans refused'
    | ok tree' =>
      obtain ⟨-, portrays', quiet', kept'⟩ := second
      have tandem := tandem_of_compiled quiet quiet'
        (speaks_of_compiled holds known locations quiet kept)
        (speaks_of_compiled holds known locations quiet' kept')
      refine congrArg Except.ok (accounts_eq turns tandem ?_)
      rw [portrays.cues_drawn, portrays'.cues_drawn, same]

end

end Renderer
end Collage
