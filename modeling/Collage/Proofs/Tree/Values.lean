import Collage.Proofs.Tree.Saving
import Collage.Proofs.Uniform.Reconcile

/-!
# Edited values outlive compiling

What a compiled layer has besides its program is its `content`: its id and its uniforms,
wherever a program keeps them.  Compiling gives every layer the uniforms of its source with
the values that are known of it, on any device (`CompiledTree.compile_content`), and editing
keeps uniforms and values fitting (`CompiledTree.Grown`).  So the values of an edited tree,
written into the document, come back when the document is compiled, with the tree as the
earlier one or without (`CompiledTree.edits_survive`).
-/

namespace Collage

open Device Collage.Action

/-- Whether no uniform of a document lists more choices than a double can number. -/
def Layer.Countable (document : Layer) : Prop :=
  ∀ placed ∈ document.placed, ∀ source, placed.layer.source? = some source →
    ∀ d ∈ Uniform.declared source.toList, d.settings.Countable

/-! ### What layers come to have -/

/-- The id of a layer, whether it is a group, and its uniforms without their locations. -/
def CompiledLayer.content (layer : CompiledLayer) : String × Bool × List Uniform :=
  (layer.id, layer.isGroup, layer.uniforms.map Uniform.unplaced)

/-- What a layer of a document comes to have, when `known` are the values that are known of
it. -/
def Layer.content (known : Layer → List ShaderValue) (layer : Layer) :
    String × Bool × List Uniform :=
  (layer.id, layer.source?.isNone,
    match layer.source? with
    | none => []
    | some source => Uniform.extract source (known layer))

namespace Uniform

theorem unplaced_extract (source : String) (previous : List ShaderValue) :
    (extract source previous).map unplaced = extract source previous := by
  rw [extract, List.map_zipWith]
  rfl

end Uniform

namespace CompiledTree

variable {builder : ProgramBuilder} {legacy : Legacy}

/-- A first version of a layer has the right id and is a group or not; what is no layer of
the last pass has its content already. -/
def Starts (known : Layer → List ShaderValue) (placed : PlacedLayer) (layer : CompiledLayer) :
    Prop :=
  layer.id = placed.layer.id ∧ layer.isGroup = placed.layer.source?.isNone ∧
    match placed.layer with
    | .code .. => True
    | other => layer.content = other.content known

/-- What the first pass makes of a distance layer. -/
theorem compileDistance_distance (builder : ProgramBuilder) (legacy : Legacy) (head : LayerHead) (source : String)
    (values : List ShaderValue) (operands : List Layer) (parent : Option Nat)
    (children : List Nat) (device : Device) :
    let placed : PlacedLayer := ⟨.distance head source values operands, parent, children⟩
    let uniforms := Uniform.extract source (legacy.valuesFor placed.layer)
    ∃ (signature : Option Signature) (errors : List Diagnostic),
      (compileDistance builder legacy placed device).1 =
        { startLayer placed with
          kind := .distance signature children
          errors
          uniforms
          usesAudio := listens source uniforms } := by
  unfold compileDistance
  dsimp only
  cases Signature.ofSource source with
  | error error => exact ⟨none, [error], rfl⟩
  | ok signature =>
    exact ⟨some signature, (distanceErrors builder source signature device).1, rfl⟩

theorem compileDistance_starts (legacy : Legacy) (placed : PlacedLayer) (device : Device) :
    Starts legacy.valuesFor placed (compileDistance builder legacy placed device).1 := by
  obtain ⟨layer, parent, children⟩ := placed
  cases layer with
  | group head blend opacity inside => exact ⟨rfl, rfl, rfl⟩
  | code language head blend opacity source values => cases language <;> exact ⟨rfl, rfl, trivial⟩
  | distance head source values operands =>
    obtain ⟨signature, errors, made⟩ := compileDistance_distance builder legacy head source
      values operands parent children device
    rw [made]
    exact ⟨rfl, rfl, congrArg (fun uniforms => (head.id, false, uniforms))
      (Uniform.unplaced_extract source _)⟩

theorem locate_unplaced (program : Handle) (uniforms : List Uniform) (device : Device) :
    (locate program uniforms device).1.map Uniform.unplaced = uniforms.map Uniform.unplaced :=
  mapM_invariant (fun u : Uniform => (do
      return { u with location := ← Device.uniformLocation program u.name } : StateM Device Uniform))
    (fun seen done _ => done.map Uniform.unplaced = seen.map Uniform.unplaced) uniforms [] []
    device (fun uniform _ seen done state same => by
      rw [List.map_append, List.map_append, same]
      rfl) rfl

theorem locateAll_unplaced (program : Handle) (uniforms : List Uniform) (included : Option Scene)
    (device : Device) :
    (locateAll program uniforms included device).1.1.map Uniform.unplaced =
      uniforms.map Uniform.unplaced := by
  rw [← locate_unplaced program uniforms device]
  unfold locateAll
  cases locate program uniforms device with
  | mk uniforms mid =>
    dsimp only
    cases BuiltinLocations.resolve program mid with
    | mk builtins later => cases included <;> rfl

/-- What the last pass makes of a shader layer, whether it was built or not. -/
theorem compileShader_made (scene : Option Scene) (layer : Layer) (source : String)
    (start : CompiledLayer) (state : BuildState) :
    ∃ uniforms errors program, (compileShader builder legacy scene layer source start state).1 =
        doneShader start source uniforms errors program ∧
      uniforms.map Uniform.unplaced = Uniform.extract source (legacy.valuesFor layer) ∧
      program.source = (wrappedFor builder.version scene source).text ∧
      program.usesScene = (includedScene scene source).isSome := by
  obtain ⟨errors, after, failed, made⟩ | ⟨program, later, spare, found, built, located, made⟩ :=
    compileShader_cases builder legacy scene layer source start state
  · rw [made]
    exact ⟨_, _, _, rfl, Uniform.unplaced_extract source _, rfl, rfl⟩
  · have same := locateAll_unplaced program (Uniform.extract source (legacy.valuesFor layer))
      (includedScene scene source) later
    rw [located] at same
    rw [made]
    exact ⟨_, _, _, rfl, same.trans (Uniform.unplaced_extract source _), rfl, rfl⟩

theorem compileShader_content (scene : Option Scene) (layer : Layer) (source : String)
    (start : CompiledLayer) (state : BuildState) :
    (compileShader builder legacy scene layer source start state).1.content =
      (start.id, false, Uniform.extract source (legacy.valuesFor layer)) := by
  obtain ⟨_, _, _, made, same, -⟩ := compileShader_made scene layer source start state
  rw [made, ← same]
  rfl

theorem compileCode_content (scene : Option Scene) (placed : PlacedLayer) {start : CompiledLayer}
    (starts : Starts legacy.valuesFor placed start) (state : BuildState) :
    (compileCode builder legacy scene (placed, start) state).1.content =
      placed.layer.content legacy.valuesFor := by
  obtain ⟨layer, parent, children⟩ := placed
  obtain ⟨id, group, rest⟩ := starts
  cases layer with
  | group head blend opacity inside => exact rest
  | distance head source values operands => exact rest
  | code language head blend opacity source values =>
    cases language with
    | script =>
      have same := Uniform.unplaced_extract source
        (legacy.valuesFor (.code .script head blend opacity source values))
      exact Prod.ext id (Prod.ext group same)
    | shader =>
      rw [compileCode_shader, compileShader_content, id]
      rfl

/-- **The two passes.**  What the last pass makes of every layer with the scene and what the first
one left holds of the layers of a compiled tree before listening is spread. -/
theorem compile_stages (First : PlacedLayer → CompiledLayer → Prop)
    (Last : ProgramBuilder → Option Scene → PlacedLayer → CompiledLayer → CompiledLayer → Prop)
    {document : Layer} {previous : Option CompiledTree} {version : String} {device after : Device}
    {tree : CompiledTree}
    (compiled : (compile document previous version).runOn device = (.ok tree, after))
    (first : ∀ builder placed state, First placed (compileDistance builder
      (Legacy.ofPrevious version previous device).1 placed state).1)
    (last : ∀ builder scene placed start state, First placed start →
      Last builder scene placed start (compileCode builder
        (Legacy.ofPrevious version previous device).1 scene (placed, start) state).1) :
    ∃ started layers, tree.scene = buildScene document document.placed started ∧
      tree.layers = spreadAudio layers ∧ List.Forall₂ First document.placed started ∧
      List.Forall₂ (fun pair => Last tree.builder tree.scene pair.1 pair.2)
        (document.placed.zip started) layers := by
  have any : (builderFor version (Legacy.ofPrevious version previous device).1.builder).Yields
      (Legacy.ofPrevious version previous device).2 (fun _ _ => True) fun _ _ => True :=
    Yields.after_iff.mpr trivial
  suffices staged : (compile document previous version).Yields device
      (fun tree _ => ∃ started layers, tree.scene = buildScene document document.placed started ∧
        tree.layers = spreadAudio layers ∧ List.Forall₂ First document.placed started ∧
        List.Forall₂ (fun pair => Last tree.builder tree.scene pair.1 pair.2)
          (document.placed.zip started) layers) fun _ _ => True from Yields.of_ok compiled staged
  refine compile_by_passes any fun builder mid _ => ?_
  generalize (Legacy.ofPrevious version previous device).1 = legacy at first last ⊢
  have started := mapM_invariant (compileDistance builder legacy)
    (fun seen done _ => List.Forall₂ First seen done) document.placed [] [] mid
    (fun placed _ seen done state each =>
      List.rel_append each (.cons (first builder placed state) .nil)) .nil
  rw [List.nil_append, List.nil_append] at started
  dsimp only
  generalize (document.placed.mapM (compileDistance builder legacy) :
    StateM Device (List CompiledLayer)) mid = passed at started ⊢
  have done := mapM_invariant
    (compileCode builder legacy (buildScene document document.placed passed.1))
    (fun seen done _ => List.Forall₂ (fun (pair : PlacedLayer × CompiledLayer) =>
      Last builder (buildScene document document.placed passed.1) pair.1 pair.2) seen done)
    (document.placed.zip passed.1) [] [] (passed.2, legacy.programs)
    (fun pair inside seen done state each => List.rel_append each (.cons
      (last builder _ pair.1 pair.2 state ((List.forall₂_iff_zip.mp started).2 inside))
      .nil)) .nil
  rw [List.nil_append, List.nil_append] at done
  exact ⟨passed.1, _, rfl, rfl, started, done⟩

theorem compile_passes (First : PlacedLayer → CompiledLayer → Prop)
    (Last : ProgramBuilder → Option Scene → PlacedLayer → CompiledLayer → Prop)
    {document : Layer} {previous : Option CompiledTree} {version : String} {device after : Device}
    {tree : CompiledTree}
    (compiled : (compile document previous version).runOn device = (.ok tree, after))
    (first : ∀ builder placed state, First placed (compileDistance builder
      (Legacy.ofPrevious version previous device).1 placed state).1)
    (last : ∀ builder scene placed start state, First placed start →
      Last builder scene placed (compileCode builder
        (Legacy.ofPrevious version previous device).1 scene (placed, start) state).1) :
    ∃ started layers, tree.scene = buildScene document document.placed started ∧
      tree.layers = spreadAudio layers ∧
      List.Forall₂ (Last tree.builder tree.scene) document.placed layers := by
  obtain ⟨started, layers, scene, spread, firsts, lasts⟩ := compile_stages First
    (fun builder scene placed _ => Last builder scene placed) compiled first last
  have placed : (document.placed.zip started).map Prod.fst = document.placed :=
    List.map_fst_zip firsts.length_eq.le
  rw [← List.forall₂_map_left_iff, placed] at lasts
  exact ⟨started, layers, scene, spread, lasts⟩

theorem compile_each (First Last : PlacedLayer → CompiledLayer → Prop) {document : Layer}
    {previous : Option CompiledTree} {version : String} {device after : Device}
    {tree : CompiledTree}
    (compiled : (compile document previous version).runOn device = (.ok tree, after))
    (first : ∀ builder placed state, First placed (compileDistance builder
      (Legacy.ofPrevious version previous device).1 placed state).1)
    (last : ∀ builder scene placed start state, First placed start →
      Last placed (compileCode builder (Legacy.ofPrevious version previous device).1 scene
        (placed, start) state).1) :
    ∃ layers, tree.layers = spreadAudio layers ∧ List.Forall₂ Last document.placed layers :=
  have ⟨_, layers, _, spread, each⟩ :=
    compile_passes First (fun _ _ => Last) compiled first last
  ⟨layers, spread, each⟩

/-- **Compiling gives every layer its content**, on any device. -/
theorem compile_content {document : Layer} {previous : Option CompiledTree} {version : String}
    {device after : Device} {tree : CompiledTree}
    (compiled : (compile document previous version).runOn device = (.ok tree, after)) :
    tree.layers.map CompiledLayer.content = document.placed.map fun placed =>
      placed.layer.content (Legacy.ofPrevious version previous device).1.valuesFor := by
  obtain ⟨layers, spread, each⟩ := compile_each
    (Starts (Legacy.ofPrevious version previous device).1.valuesFor)
    (fun placed layer => placed.layer.content
      (Legacy.ofPrevious version previous device).1.valuesFor = layer.content)
    compiled (fun _ placed state => compileDistance_starts _ placed state)
    fun _ scene placed _ state starts => (compileCode_content scene placed starts state).symm
  have same := List.forall₂_map_left_iff.mpr (List.forall₂_map_right_iff.mpr each)
  rw [List.forall₂_eq_eq_eq] at same
  rw [spread, map_spreadAudio CompiledLayer.content fun _ _ => rfl, same]

/-! ### Compiling that fails -/

theorem traits_deletePrograms (programs : Table UInt64 Handle) (device : Device) :
    (Legacy.deletePrograms programs device).traits = device.traits := by
  unfold Legacy.deletePrograms
  generalize programs.values = handles
  induction handles generalizing device with
  | nil => rfl
  | cons handle handles ih => exact ih (device.deleteProgram handle)

theorem traits_keepProgram (kept : Table UInt64 Handle × Device) (layer : CompiledLayer) :
    (Legacy.keepProgram kept layer).2.traits = kept.2.traits := by
  unfold Legacy.keepProgram
  split
  · dsimp only
    split <;> rfl
  · rfl

theorem traits_foldl_keepProgram (layers : List CompiledLayer)
    (kept : Table UInt64 Handle × Device) :
    (layers.foldl Legacy.keepProgram kept).2.traits = kept.2.traits := by
  induction layers generalizing kept with
  | nil => rfl
  | cons layer layers ih => exact (ih _).trans (traits_keepProgram kept layer)

/-- What an earlier tree leaves does not change how a device behaves, and there is a builder
among it just when the earlier tree was of the same version. -/
theorem ofTree_spec (version : String) (tree : CompiledTree) (device : Device) :
    (Legacy.ofTree version tree device).2.traits = device.traits ∧
      (Legacy.ofTree version tree device).1.builder =
        if tree.builder.version = version then some tree.builder else none := by
  have traits := traits_foldl_keepProgram tree.layers ({}, device)
  unfold Legacy.ofTree
  dsimp only
  split
  · exact ⟨traits, rfl⟩
  · exact ⟨(traits_deletePrograms _ _).trans traits, rfl⟩

theorem create_ok {version : String} {device after : Device} {builder : ProgramBuilder}
    (created : (ProgramBuilder.create version).runOn device = (.ok builder, after)) :
    builder.version = version := by
  unfold runOn ExceptT.run ProgramBuilder.create at created
  split at created
  · cases created
    rfl
  · cases created

/-- A device refuses to create a shader by its traits. -/
theorem create_error {version : String} {device after : Device} {failure : Failure}
    (failed : (ProgramBuilder.create version).runOn device = (.error failure, after)) :
    ∃ log, device.traits.Lacks version log ∧
      failure = .builtinShader "fullscreen vertex" log := by
  unfold runOn ExceptT.run ProgramBuilder.create at failed
  split at failed
  · cases failed
  · rename_i log later refused
    cases failed
    refine ⟨log, ?_, rfl⟩
    unfold createShader at refused
    dsimp only at refused
    split at refused
    · rename_i broken
      cases refused
      exact .inl broken
    · rename_i unbroken
      have works : device.traits.vertexFailure = none := by
        cases broken : device.traits.vertexFailure with
        | none => rfl
        | some reason => exact absurd broken (unbroken reason rfl)
      split at refused
      · rename_i found
        cases refused
        exact .inr ⟨works, _, found⟩
      · cases refused

/-- Compiling ends as finding a builder does. -/
theorem builderFor_of_compile {document : Layer} {previous : Option CompiledTree}
    {version : String} {device after : Device} {outcome : Except Failure CompiledTree}
    (ended : (compile document previous version).runOn device = (outcome, after)) :
    ((builderFor version (Legacy.ofPrevious version previous device).1.builder).runOn
        (Legacy.ofPrevious version previous device).2).1 = outcome.map (·.builder) := by
  rw [compile_eq] at ended
  generalize Legacy.ofPrevious version previous device = given at ended ⊢
  obtain ⟨legacy, mid⟩ := given
  dsimp only at ended ⊢
  cases made : (builderFor version legacy.builder).runOn mid with
  | mk found later =>
    rw [made] at ended
    cases found with
    | error failure =>
      cases ended
      rfl
    | ok builder =>
      cases ended
      rfl

/-- **Compiling fails** only on a device that does not compile the vertex shader, and not with
an earlier tree of the same version. -/
theorem compile_error {document : Layer} {previous : Option CompiledTree} {version : String}
    {device after : Device} {failure : Failure}
    (failed : (compile document previous version).runOn device = (.error failure, after)) :
    (∀ tree, previous = some tree → tree.builder.version ≠ version) ∧
      ∃ log, device.traits.Lacks version log ∧
        failure = .builtinShader "fullscreen vertex" log := by
  have made := builderFor_of_compile failed
  have fresh : (Legacy.ofPrevious version previous device).1.builder = none := by
    cases there : (Legacy.ofPrevious version previous device).1.builder with
    | none => rfl
    | some builder =>
      rw [there] at made
      cases made
  rw [fresh] at made
  have traits : (Legacy.ofPrevious version previous device).2.traits = device.traits := by
    cases previous with
    | none => rfl
    | some tree => exact (ofTree_spec version tree device).1
  refine ⟨?_, traits ▸ create_error (Prod.ext made rfl)⟩
  rintro tree rfl same
  have kept := (ofTree_spec version tree device).2.trans (if_pos same)
  cases kept.symm.trans fresh

/-- A tree is of the version that it was compiled for. -/
theorem version_of_compile {document : Layer} {previous : Option CompiledTree} {version : String}
    {device after : Device} {tree : CompiledTree}
    (compiled : (compile document previous version).runOn device = (.ok tree, after)) :
    tree.builder.version = version := by
  have made := builderFor_of_compile compiled
  cases there : (Legacy.ofPrevious version previous device).1.builder with
  | none =>
    rw [there] at made
    exact create_ok (Prod.ext made rfl)
  | some builder =>
    rw [there] at made
    have same : builder = tree.builder := Except.ok.inj made
    cases previous with
    | none => cases there
    | some earlier =>
      have there := (ofTree_spec version earlier device).2.symm.trans there
      split at there
      · rename_i kept
        rw [← same, ← Option.some.inj there, kept]
      · cases there

/-! ### Editing -/

/-- Whether a compiled layer may have come from a layer of a document: its uniforms are those
of the source, with values that they may have. -/
structure Grows (placed : PlacedLayer) (layer : CompiledLayer) : Prop where
  id : layer.id = placed.layer.id
  group : layer.isGroup = placed.layer.source?.isNone
  uniforms : match placed.layer.source? with
    | none => layer.uniforms = []
    | some source => Uniform.Carries source layer.uniforms

/-- Whether a tree may have come from a document by compiling and editing. -/
def Grown (document : Layer) (tree : CompiledTree) : Prop :=
  List.Forall₂ Grows document.placed tree.layers

theorem grows_of_content {known : Layer → List ShaderValue} {placed : PlacedLayer}
    {layer : CompiledLayer} (same : layer.content = placed.layer.content known) :
    Grows placed layer := by
  obtain ⟨id, rest⟩ := Prod.mk.inj same
  obtain ⟨group, uniforms⟩ := Prod.mk.inj rest
  refine ⟨id, group, ?_⟩
  cases given : placed.layer.source? with
  | none =>
    rw [given] at uniforms
    exact List.map_eq_nil_iff.mp uniforms
  | some source =>
    rw [given] at uniforms
    have uniforms : layer.uniforms.map Uniform.unplaced =
      Uniform.extract source (known placed.layer) := uniforms
    have carries := Uniform.carries_extract source (known placed.layer)
    rw [← uniforms] at carries
    exact (List.forall₂_map_right_iff.mp carries).imp fun _ _ backs => ⟨backs.same, backs.settled⟩

theorem grown_of_compile {document : Layer} {previous : Option CompiledTree} {version : String}
    {device after : Device} {tree : CompiledTree}
    (compiled : (compile document previous version).runOn device = (.ok tree, after)) :
    Grown document tree := by
  have same := (compile_content compiled).symm
  rw [← List.forall₂_eq_eq_eq, List.forall₂_map_left_iff, List.forall₂_map_right_iff] at same
  exact same.imp fun _ _ content => grows_of_content content.symm

theorem forall₂_modify {α β : Type} {R : α → β → Prop} {f : β → β} {as : List α} {bs : List β}
    (related : List.Forall₂ R as bs) :
    ∀ {place : Nat}, (∀ b, bs[place]? = some b → ∀ a, R a b → R a (f b)) →
      List.Forall₂ R as (bs.modify place f) := by
  induction related with
  | nil =>
    intro place _
    rw [List.modify_nil]
    exact .nil
  | @cons a b as bs first rest ih =>
    intro place changed
    cases place with
    | zero => exact .cons (changed b rfl a first) rest
    | succ place => exact .cons first (ih changed)

/-- **An edit** changes values into others that fit. -/
theorem Grown.setValue {document : Layer} {tree edited : CompiledTree} {id : String}
    {value : ShaderValue} {known : Bool} (grown : Grown document tree)
    (done : tree.setValue id value = .ok (known, edited)) : Grown document edited := by
  unfold CompiledTree.setValue at done
  split at done
  · cases done
  · rename_i place _
    split at done
    · cases done
      exact grown
    · rename_i uniforms found
      cases done
      obtain ⟨layer, there, found⟩ := Option.bind_eq_some_iff.mp found
      refine forall₂_modify grown fun other same placed grows => ⟨grows.id, grows.group, ?_⟩
      cases there.symm.trans same
      have kept := grows.uniforms
      cases given : placed.layer.source? with
      | none =>
        rw [given] at kept
        rw [kept] at found
        cases found
      | some source =>
        rw [given] at kept
        exact kept.editUniform? found

/-- A tree after an edit; an edit of an unknown layer changes nothing. -/
def edit (tree : CompiledTree) (change : String × ShaderValue) : CompiledTree :=
  match tree.setValue change.1 change.2 with
  | .ok (_, edited) => edited
  | .error _ => tree

/-- A tree after edits, the first of them first. -/
def edits (tree : CompiledTree) (changes : List (String × ShaderValue)) : CompiledTree :=
  changes.foldl edit tree

theorem Grown.edit {document : Layer} {tree : CompiledTree} (grown : Grown document tree)
    (change : String × ShaderValue) :
    Grown document (tree.edit change) ∧ (tree.edit change).builder = tree.builder := by
  unfold CompiledTree.edit
  split
  · rename_i done
    exact ⟨grown.setValue done, (linked_setValue done).2⟩
  · exact ⟨grown, rfl⟩

theorem Grown.edits {document : Layer} {tree : CompiledTree} (grown : Grown document tree)
    (changes : List (String × ShaderValue)) :
    Grown document (tree.edits changes) ∧ (tree.edits changes).builder = tree.builder := by
  induction changes generalizing tree with
  | nil => exact ⟨grown, rfl⟩
  | cons change changes ih =>
    obtain ⟨once, same⟩ := grown.edit change
    obtain ⟨grown, others⟩ := ih once
    exact ⟨grown, others.trans same⟩

/-! ### Compiling again -/

/-- The values of the layers of a tree, with their ids. -/
def shaderValues (tree : CompiledTree) : List (String × List ShaderValue) :=
  tree.layers.map fun layer => (layer.id, layer.values)

/-- Whether all numbers among the values of a tree are finite. -/
def Finite (tree : CompiledTree) : Prop :=
  ∀ layer ∈ tree.layers, ∀ value ∈ layer.values, value.value.Finite

theorem Grown.layerIds_eq {document : Layer} {tree : CompiledTree} (grown : Grown document tree) :
    tree.layerIds = document.placed.map (·.layer.id) := by
  have same : List.Forall₂ Eq (document.placed.map (·.layer.id)) (tree.layers.map (·.id)) := by
    rw [List.forall₂_map_left_iff, List.forall₂_map_right_iff]
    exact grown.imp fun _ _ grows => grows.id.symm
  rw [List.forall₂_eq_eq_eq] at same
  exact same.symm

/-- A layer that is compiled with the values that it came to have comes to have the same
again. -/
theorem Grows.content_eq {placed : PlacedLayer} {layer : CompiledLayer} (grows : Grows placed layer)
    (finite : ∀ value ∈ layer.values, value.value.Finite)
    (countable : ∀ uniform ∈ layer.uniforms, uniform.settings.Countable)
    {saved : Layer} {known : Layer → List ShaderValue} (id : saved.id = placed.layer.id)
    (source : saved.source? = placed.layer.source?)
    (own : layer.isGroup = false → known saved = layer.values) :
    saved.content known = layer.content := by
  have kept := grows.uniforms
  have group := grows.group
  unfold Layer.content CompiledLayer.content
  rw [id, source, grows.id, group]
  cases given : placed.layer.source? with
  | none =>
    rw [given] at kept
    rw [kept]
    rfl
  | some source =>
    rw [given] at kept group
    dsimp only at kept ⊢
    rw [own group]
    unfold CompiledLayer.values at finite ⊢
    rw [kept.extract_values (fun uniform inside => finite _ (List.mem_map_of_mem inside))
      countable]

theorem Grows.countable {placed : PlacedLayer} {layer : CompiledLayer} (grows : Grows placed layer)
    (countable : ∀ source, placed.layer.source? = some source →
      ∀ d ∈ Uniform.declared source.toList, d.settings.Countable) :
    ∀ uniform ∈ layer.uniforms, uniform.settings.Countable := by
  intro uniform inside
  have kept := grows.uniforms
  cases given : placed.layer.source? with
  | none =>
    rw [given] at kept
    rw [kept] at inside
    cases inside
  | some source =>
    rw [given] at kept
    obtain ⟨d, declared, backs⟩ := exists_of_mem_right kept inside
    have same : uniform.settings = d.settings := congrArg Uniform.settings backs.same
    rw [same]
    exact countable source given d declared

theorem id_revalue (values : String → Option (List ShaderValue)) (layer : Layer) :
    (layer.revalue values).id = layer.id := by
  cases layer <;> rw [Layer.revalue] <;> rfl

theorem values_revalue {values : String → Option (List ShaderValue)} {layer : Layer}
    {stored : List ShaderValue} (code : layer.source?.isNone = false)
    (known : values layer.id = some stored) : (layer.revalue values).values = stored := by
  cases layer with
  | group => cases code
  | code language head blend opacity source values =>
    rw [Layer.revalue]
    exact congrArg (Option.getD · values) known
  | distance head source values operands =>
    rw [Layer.revalue]
    exact congrArg (Option.getD · values) known

/-- The saved document, compiled with values that are known to be those of the tree, has them. -/
theorem Grown.compile_saved {document : Layer} {tree : CompiledTree} (grown : Grown document tree)
    (unique : document.ids.Nodup) (finite : tree.Finite) (countable : document.Countable)
    {previous : Option CompiledTree} (earlier : previous = none ∨ previous = some tree)
    {version : String} {device after : Device} {new : CompiledTree}
    (compiled : (compile (tree.writeValues document) previous version).runOn device =
      (.ok new, after)) :
    new.layers.map CompiledLayer.content = tree.layers.map CompiledLayer.content := by
  have ids : tree.layerIds.Nodup := grown.layerIds_eq ▸ Layer.nodup_placed unique
  rw [compile_content compiled, writeValues_eq unique, Layer.placed_revalue, List.map_map]
  -- both what is stored in the saved document and what the tree leaves are the values of the tree
  have known : ∀ layer ∈ tree.layers, layer.isGroup = false → ∀ placed : PlacedLayer,
      layer.id = placed.layer.id → placed.layer.source?.isNone = false →
      (Legacy.ofPrevious version previous device).1.valuesFor
        (placed.layer.revalue (written? tree.layers)) = layer.values := by
    intro layer inside code placed same coded
    have stored : ((placed.layer.revalue (written? tree.layers))).values = layer.values :=
      values_revalue coded (same ▸ written?_of_mem ids inside code)
    rcases earlier with rfl | rfl
    · exact stored
    · rw [valuesFor_ofPrevious, knownValues, id_revalue, ← same, valuesOf?_of_mem ids inside,
        Option.getD_some]
  have each : List.Forall₂ Eq (document.placed.map fun placed =>
      (placed.revalue (written? tree.layers)).layer.content
        (Legacy.ofPrevious version previous device).1.valuesFor)
      (tree.layers.map CompiledLayer.content) := by
    rw [List.forall₂_map_left_iff, List.forall₂_map_right_iff, List.forall₂_iff_zip]
    refine ⟨grown.length_eq, fun {placed layer} pair => ?_⟩
    have grows := (List.forall₂_iff_zip.mp grown).2 pair
    obtain ⟨insidePlaced, inside⟩ := List.of_mem_zip pair
    exact grows.content_eq (finite layer inside) (grows.countable (countable placed insidePlaced))
      (id_revalue _ _) (Layer.source?_revalue _ _)
      fun code => known layer inside code placed grows.id (grows.group ▸ code)
  rw [List.forall₂_eq_eq_eq] at each
  exact each

/-- **No edit is lost.**  A document whose ids are all different is compiled, with any earlier
tree, and the tree is edited in any way that leaves its numbers finite.  When the values
are written into the document and it is compiled again, with the edited tree as the earlier
one or with none, for any version and on any device, the new tree has exactly the values of
the edited one; it fails only on a device that does not compile the vertex shader, and
with the edited tree only for another version. -/
theorem edits_survive {document : Layer} (unique : document.ids.Nodup)
    {previous : Option CompiledTree} {version : String} {device after : Device}
    {tree : CompiledTree}
    (compiled : (compile document previous version).runOn device = (.ok tree, after))
    (changes : List (String × ShaderValue)) (finite : (tree.edits changes).Finite)
    (countable : document.Countable) (earlier : Option CompiledTree)
    (either : earlier = none ∨ earlier = some (tree.edits changes)) (other : String)
    (elsewhere : Device) :
    match ((compile ((tree.edits changes).writeValues document) earlier other).runOn
        elsewhere).1 with
    | .ok new => new.shaderValues = (tree.edits changes).shaderValues
    | .error failure => (earlier = none ∨ other ≠ version) ∧
        ∃ log, elsewhere.traits.Lacks other log ∧
          failure = .builtinShader "fullscreen vertex" log := by
  have grown := grown_of_compile compiled
  obtain ⟨edited, builder⟩ := grown.edits changes
  cases ended : (compile ((tree.edits changes).writeValues document) earlier other).runOn
      elsewhere with
  | mk outcome later =>
    cases outcome with
    | ok new =>
      have same := congrArg (List.map fun content : String × Bool × List Uniform =>
        (content.1, content.2.2.map (·.value)))
        (edited.compile_saved unique finite countable either ended)
      simp only [List.map_map] at same
      simpa [shaderValues, CompiledLayer.values, CompiledLayer.content, Function.comp_def,
        Uniform.unplaced] using same
    | error failure =>
      obtain ⟨differs, lacks⟩ := compile_error ended
      refine ⟨either.imp_right fun isEdited same => ?_, lacks⟩
      refine differs _ isEdited ?_
      rw [builder, version_of_compile compiled, same]

/-- A new value for the uniform of a shader layer. -/
def faster : String × ShaderValue :=
  ("a", ⟨"speed", .float 2.5, none⟩)

/-- The uniform of a tree of one layer is edited. -/
theorem setValue_speed (curve : Option Curve) {tree : CompiledTree}
    (content : tree.layers.map CompiledLayer.content =
      [("a", false, Uniform.extract "uniform float speed;" [])]) :
    ∃ (edited : CompiledTree) (layer : CompiledLayer) (uniform : Uniform),
      tree.setValue "a" ⟨"speed", .float 2.5, curve⟩ = .ok (true, edited) ∧
        edited.layers = [layer] ∧ layer.id = "a" ∧ layer.isGroup = false ∧
        layer.uniforms = [uniform] ∧ uniform.value = ⟨"speed", .float 2.5, curve⟩ := by
  obtain ⟨layers, scene, builder⟩ := tree
  obtain ⟨layer, rfl, same⟩ := List.map_eq_singleton_iff.mp content
  obtain ⟨id, rest⟩ := Prod.mk.inj same
  obtain ⟨shows, rest⟩ := Prod.mk.inj rest
  have uniforms : layer.uniforms.map (fun u => (u.name, u.kind)) = [("speed", .float 0 {})] := by
    have same := congrArg (List.map fun u : Uniform => (u.name, u.kind)) rest
    rwa [List.map_map] at same
  obtain ⟨uniform, single, known⟩ := List.map_eq_singleton_iff.mp uniforms
  obtain ⟨name, kind⟩ := Prod.mk.inj known
  have found : find? ⟨[layer], scene, builder⟩ "a" = some 0 := by
    unfold find?
    rw [List.findIdx?_cons, if_pos (decide_eq_true id)]
  have changed : editUniform? ⟨"speed", .float 2.5, curve⟩ layer.uniforms =
      some [uniform.withValue ⟨"speed", .float 2.5, curve⟩] := by
    rw [single, editUniform?]
    exact if_pos name
  have value : (uniform.withValue ⟨"speed", .float 2.5, curve⟩).value =
      ⟨"speed", .float 2.5, curve⟩ := by
    have kept : curve.filter (fun _ => (UniformKind.float 0 {}).acceptsCurve) = curve := by
      cases curve <;> simp [UniformKind.acceptsCurve]
    have read : (UniformKind.float 0 {}).coerce (Value.float 2.5).toJson = .float 2.5 := rfl
    unfold Uniform.withValue
    rw [name, kind, kept, read]
  refine ⟨⟨[{ layer with uniforms := [uniform.withValue _] }], scene, builder⟩,
    { layer with uniforms := [uniform.withValue _] }, uniform.withValue _,
    ?_, rfl, id, shows, rfl, value⟩
  unfold setValue
  rw [found]
  dsimp only [layer?, List.getElem?_cons_zero, Option.bind_some]
  rw [changed]
  rfl

/-- A tree of one layer with one uniform has a finite value after it was edited. -/
theorem finite_faster {tree : CompiledTree} (content : tree.layers.map CompiledLayer.content =
    [("a", false, Uniform.extract "uniform float speed;" [])]) :
    (tree.edits [faster]).Finite := by
  obtain ⟨edited, layer, uniform, done, single, -, -, only, same⟩ := setValue_speed none content
  have isEdited : tree.edits [faster] = edited := by
    change edit _ faster = _
    unfold edit faster
    rw [done]
  intro one inside value there
  rw [isEdited, single, List.mem_singleton] at inside
  rw [inside, CompiledLayer.values, only, List.map_singleton, List.mem_singleton] at there
  rw [there, same]
  change Float.isFinite _ = true
  decide +kernel

theorem countable_speedUniform : ∀ d ∈ Uniform.declared "uniform float speed;".toList,
    d.settings.Countable := by
  intro d declared
  have settings : (Uniform.declared "uniform float speed;".toList).map (·.settings.options) =
    [none] := rfl
  have none : d.settings.options ∈ [none] := settings ▸ List.mem_map_of_mem declared
  intro names same
  rw [List.mem_singleton.mp none] at same
  cases same

/-- An edited value of a shader layer on a new device. -/
theorem edits_survive_speed :
    ∃ tree after, (compile (Workshop.speedLayer []) none "300 es").runOn {} = (.ok tree, after) ∧
      match ((compile ((tree.edits [faster]).writeValues (Workshop.speedLayer []))
        (some (tree.edits [faster])) "300 es").runOn after).1 with
      | .ok new => new.shaderValues = (tree.edits [faster]).shaderValues
      | .error failure => (some (tree.edits [faster]) = none ∨ "300 es" ≠ "300 es") ∧
          ∃ log, after.traits.Lacks "300 es" log ∧
            failure = .builtinShader "fullscreen vertex" log := by
  obtain ⟨tree, after, compiled, -⟩ := Workshop.compile_speedLayer []
  have placed : (Workshop.speedLayer []).placed = [⟨Workshop.speedLayer [], none, []⟩] := rfl
  have unique : (Workshop.speedLayer []).ids.Nodup := by
    rw [Workshop.speedLayer, Layer.ids]
    exact List.nodup_singleton _
  have countable : (Workshop.speedLayer []).Countable := by
    intro one inside source given
    rw [placed, List.mem_singleton] at inside
    rw [inside] at given
    cases given
    exact countable_speedUniform
  refine ⟨tree, after, compiled, edits_survive unique compiled [faster] ?_ countable _ (.inr rfl) _ _⟩
  have content := compile_content compiled
  rw [placed] at content
  exact finite_faster content

end CompiledTree
end Collage
