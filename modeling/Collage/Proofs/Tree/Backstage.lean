import Collage.Proofs.Device.Programs
import Collage.Proofs.Tree.Workshop

/-!
# Compiling goes on backstage

Documents are compiled with shaders and programs only.  So the textures and framebuffers of a
device are after any call of a `Workshop` what they were before it, nothing was drawn meanwhile,
and locations stay known (`call_backstage`).
-/

namespace Collage

open Device Collage.Action

/-! ### Passes -/

theorem mapM_backstage {ι α : Type} {step : ι → StateM Device α}
    (same : ∀ item device, Backstage device (step item device).2) (items : List ι)
    (device : Device) : Backstage device ((items.mapM step : StateM Device (List α)) device).2 :=
  mapM_invariant step (fun _ _ later => Backstage device later) items [] [] device
    (fun item _ _ _ _ before => before.trans (same item _)) (.refl device)

namespace Legacy

theorem keepProgram_backstage (kept : Table UInt64 Handle × Device) (layer : CompiledLayer) :
    Backstage kept.2 (keepProgram kept layer).2 := by
  unfold keepProgram
  split
  · dsimp only
    split
    · exact backstage_deleteProgram _ _
    · exact .refl _
  · exact .refl _

theorem deletePrograms_backstage (programs : Table UInt64 Handle) (device : Device) :
    Backstage device (deletePrograms programs device) :=
  Backstage.foldl (fun device program => device.backstage_deleteProgram program) _ _

theorem ofPrevious_backstage (version : String) (previous : Option CompiledTree)
    (device : Device) : Backstage device (ofPrevious version previous device).2 := by
  cases previous with
  | none => exact .refl device
  | some tree =>
    have keeps : ∀ (layers : List CompiledLayer) (kept : Table UInt64 Handle × Device),
        Backstage kept.2 (layers.foldl keepProgram kept).2 := by
      intro layers
      induction layers with
      | nil => exact fun kept => .refl kept.2
      | cons layer rest ih => exact fun kept => (keepProgram_backstage kept layer).trans (ih _)
    have kept := keeps tree.layers ({}, device)
    unfold ofPrevious ofTree
    dsimp only
    split
    · exact kept
    · exact kept.trans ((deletePrograms_backstage _ _).trans (backstage_deleteShader _ _))

end Legacy

namespace CompiledTree

variable {builder : ProgramBuilder} {legacy : Legacy} {scene : Option Scene}

theorem builderFor_backstage (version : String) (builder : Option ProgramBuilder) :
    Keeps Backstage (builderFor version builder) := by
  cases builder with
  | some builder => exact Keeps.pure builder
  | none => exact ProgramBuilder.create_backstage version

theorem compileDistance_backstage (builder : ProgramBuilder) (legacy : Legacy)
    (placed : PlacedLayer) (device : Device) :
    Backstage device (compileDistance builder legacy placed device).2 := by
  have errors : ∀ source signature,
      Backstage device (distanceErrors builder source signature device).2 := by
    intro source signature
    have built := builder.build_backstage
      (WrappedSource.standalone builder.version source (some signature.arity)).text device
    unfold distanceErrors
    dsimp only
    revert built
    cases builder.build
        (WrappedSource.standalone builder.version source (some signature.arity)).text device with
    | mk outcome later =>
      intro built
      cases outcome with
      | error log => exact built
      | ok program => exact built.trans (later.backstage_deleteProgram program)
  obtain ⟨layer, parent, children⟩ := placed
  cases layer with
  | group => exact .refl device
  | code => exact .refl device
  | distance head source values operands =>
    unfold compileDistance
    dsimp only
    cases Signature.ofSource source with
    | error error => exact .refl device
    | ok signature => exact errors source signature

theorem locate_backstage (program : Handle) (uniforms : List Uniform) (device : Device) :
    Backstage device (locate program uniforms device).2 := by
  unfold locate
  refine mapM_backstage (fun uniform device => ?_) uniforms device
  exact device.backstage_uniformLocation program uniform.name

theorem locateScene_backstage (program : Handle) (scene : Scene) (device : Device) :
    Backstage device (locateScene program scene device).2 := by
  unfold locateScene
  refine mapM_backstage (fun binding device => ?_) scene.bindings device
  exact device.backstage_uniformLocation program binding.name

theorem locateAll_backstage (program : Handle) (uniforms : List Uniform)
    (included : Option Scene) (device : Device) :
    Backstage device (locateAll program uniforms included device).2 := by
  unfold locateAll
  have own := locate_backstage program uniforms device
  revert own
  cases locate program uniforms device with
  | mk uniforms mid =>
    intro own
    have builtins := BuiltinLocations.resolve_backstage program mid
    dsimp only
    revert builtins
    cases BuiltinLocations.resolve program mid with
    | mk builtins last =>
      intro found
      cases included with
      | none => exact own.trans found
      | some scene => exact (own.trans found).trans (locateScene_backstage program scene last)

theorem programFor_backstage (builder : ProgramBuilder) (wrapped : WrappedSource)
    (state : BuildState) :
    Backstage state.1 (programFor builder wrapped state).2.1 := by
  obtain ⟨device, spare⟩ := state
  have built := builder.build_backstage wrapped.text device
  unfold programFor
  dsimp only
  split
  · exact .refl device
  · revert built
    cases builder.build wrapped.text device with
    | mk outcome later => cases outcome <;> exact id

theorem compileShader_backstage (layer : Layer) (source : String) (start : CompiledLayer)
    (state : BuildState) :
    Backstage state.1 (compileShader builder legacy scene layer source start state).2.1 := by
  have chosen := programFor_backstage builder (wrappedFor builder.version scene source) state
  obtain ⟨errors, after, failed, made⟩ | ⟨program, later, spare, found, built, located, made⟩ :=
    compileShader_cases builder legacy scene layer source start state
  · rw [failed] at chosen
    rw [made]
    exact chosen
  · have known := locateAll_backstage program (Uniform.extract source (legacy.valuesFor layer))
      (includedScene scene source) later
    rw [built] at chosen
    rw [located] at known
    rw [made]
    exact chosen.trans known

theorem compileCode_backstage (pair : PlacedLayer × CompiledLayer) (state : BuildState) :
    Backstage state.1 (compileCode builder legacy scene pair state).2.1 := by
  obtain ⟨⟨layer, parent, children⟩, start⟩ := pair
  cases layer with
  | group => exact .refl _
  | distance => exact .refl _
  | code language head blend opacity source values =>
    cases language with
    | shader =>
      rw [compileCode_shader]
      exact compileShader_backstage _ source start state
    | script => exact .refl _

theorem compileCodes_backstage (pairs : List (PlacedLayer × CompiledLayer)) (device : Device) :
    Backstage device (compileCodes builder legacy scene pairs device).2 := by
  have built : Backstage device ((pairs.mapM (compileCode builder legacy scene) :
      StateM BuildState (List CompiledLayer)) (device, legacy.programs)).2.1 :=
    mapM_invariant (compileCode builder legacy scene)
      (fun _ _ state => Backstage device state.1) pairs [] [] (device, legacy.programs)
      (fun pair _ _ _ _ before => before.trans (compileCode_backstage pair _)) (.refl device)
  exact built.trans (Legacy.deletePrograms_backstage _ _)

/-- **Compiling goes on backstage**, whether it fails or not. -/
theorem compile_backstage (document : Layer) (previous : Option CompiledTree) (version : String) :
    Keeps Backstage (compile document previous version) := by
  intro device
  have first := Legacy.ofPrevious_backstage version previous device
  refine compile_by_passes ((builderFor_backstage version _ _).mono
    (fun _ _ second => first.trans second) fun _ _ second => first.trans second) ?_
  intro builder mid before
  have third := mapM_backstage (compileDistance_backstage builder
    (Legacy.ofPrevious version previous device).1) document.placed mid
  exact (before.trans third).trans (compileCodes_backstage _ _)

theorem destroy_backstage (tree : CompiledTree) (device : Device) :
    Backstage device (tree.destroy device) :=
  (Backstage.foldl (fun device program => device.backstage_deleteProgram program) _ _).trans
    (backstage_deleteShader _ _)

end CompiledTree

/-- **No call about compiled trees touches an image or draws.** -/
theorem Workshop.call_backstage (workshop : Workshop) (call : TreeCall) :
    Backstage workshop.device (workshop.call call).device := by
  cases call with
  | compile document previous version =>
    have compiled := Keeps.after_iff.mp (CompiledTree.compile_backstage document
      (workshop.given previous) version) workshop.device
    unfold Workshop.call
    dsimp only
    revert compiled
    cases (CompiledTree.compile document (workshop.given previous) version).runOn
        workshop.device with
    | mk outcome device => cases outcome <;> exact id
  | edit place id value =>
    unfold Workshop.call
    dsimp only
    split
    · split <;> exact .refl _
    · exact .refl _
  | destroy place =>
    unfold Workshop.call
    dsimp only
    split
    · exact CompiledTree.destroy_backstage _ _
    · exact .refl _

theorem Workshop.run_backstage (workshop : Workshop) : ∀ calls : List TreeCall,
    Backstage workshop.device (workshop.run calls).device
  | [] => .refl _
  | call :: rest => (workshop.call_backstage call).trans (run_backstage (workshop.call call) rest)

end Collage
