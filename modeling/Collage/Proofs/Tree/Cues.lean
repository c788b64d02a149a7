import Collage.Proofs.Frame.Spread
import Collage.Proofs.Tree.Locations
import Collage.Proofs.Tree.Solids

/-!
# What is drawn of a document

On a device whose answers depend on sources only, a document says by itself what is drawn of it:
`Layer.cues` lists the cues of its visible layers, given the distance layers that its scene is made
of.  There are no places in it, no handles and no hidden layers.

`Portrays` says what is known of a tree that was compiled from a document where there was none
before (`compile_portrays`), and `Portrays.cues_drawn` that its pieces have the cues which the
document says.
-/

namespace Collage

open Device Collage.Action

/-! ### Cues of a document -/

namespace Layer

section

variable (traits : DeviceTraits) (version : String) (solids : List Solid)

/-- The scene that code includes, if it asks for one. -/
def sceneFor (source : String) : Option Scene :=
  if mentions source.toList "gSdf".toList then some (Solid.scene traits version solids) else none

/-- The whole source of a shader layer. -/
def textFor (source : String) : String :=
  (WrappedSource.layer version source ((sceneFor traits version solids source).map (·.code))).text

/-- A uniform of a scene in the program of a source, if the program keeps it. -/
def sceneGiven (text : String) (binding : SceneBinding) : Option GivenUniform :=
  if traits.keeps text binding.name then
    (Solid.sceneLayers traits version solids)[binding.layer]?.bind fun owner =>
      owner.uniforms[binding.uniform]?.map fun uniform =>
        ⟨owner.id, binding.name, uniform.unplaced⟩
  else none

variable {traits version solids} in
theorem sceneGiven_of_keeps {text : String} {binding : SceneBinding}
    (kept : traits.keeps text binding.name = true) {owner : SceneLayer}
    (found : (Solid.sceneLayers traits version solids)[binding.layer]? = some owner)
    {uniform : Uniform} (there : owner.uniforms[binding.uniform]? = some uniform) :
    sceneGiven traits version solids text binding =
      some ⟨owner.id, binding.name, uniform.unplaced⟩ := by
  rw [sceneGiven, if_pos kept, found, Option.bind_some, there, Option.map_some]

/-- What the program of a shader layer is, and what it is given; none if the device refuses it. -/
def programCue? (id source : String) (values : List ShaderValue) : Option ProgramCue :=
  let text := textFor traits version solids source
  match traits.refusal? version text with
  | some _ => none
  | none => some {
      source := text
      builtins := BuiltinLocations.names.map fun name =>
        if traits.keeps text name then some name else none
      given :=
        ((Uniform.extract source values).filterMap fun uniform =>
          if traits.keeps text uniform.name then some ⟨id, uniform.name, uniform.unplaced⟩
          else none) ++
        (CompiledTree.includedBindings (sceneFor traits version solids source)).filterMap
          (sceneGiven traits version solids text) }

mutual

/-- What is drawn of a layer, in a scene of these distance layers. -/
def cues : Layer → List Cue
  | group head blend opacity children =>
    if head.visible then [.group blend opacity (cuesIn children)] else []
  | code .shader head blend opacity source values =>
    if head.visible then
      [.shader blend opacity (programCue? traits version solids head.id source values)]
    else []
  | code .script head blend opacity source values =>
    if head.visible then
      [.script head.id blend opacity source ((Uniform.extract source values).map Uniform.unplaced)]
    else []
  | distance .. => []

/-- The same of several layers. -/
def cuesIn : List Layer → List Cue
  | [] => []
  | layer :: rest => cues layer ++ cuesIn rest

end

/-- What is drawn of a document: of a group at its root that is shown the layers in it. -/
def drawnCues (document : Layer) : List Cue :=
  match document with
  | group head blend opacity children =>
    if head.visible then cuesIn traits version solids children
    else cues traits version solids (group head blend opacity children)
  | other => cues traits version solids other

end

end Layer

/-! ### What is known of a compiled tree -/

/-- A layer without handles and locations, whether it listens or not. -/
def CompiledLayer.bare (layer : CompiledLayer) : CompiledLayer :=
  { layer.blank with usesAudio := false }

theorem Legacy.left_none {traits : DeviceTraits} {shaders : Multiset (Handle × ShaderObject)}
    {programs : Multiset (Handle × String)} {device : Device}
    (h : Holds traits shaders programs device) (version : String) :
    (Legacy.ofPrevious version none device).1.Left traits version shaders programs 0
      (Legacy.ofPrevious version none device).2 :=
  ⟨rfl, h⟩

namespace CompiledTree

section

variable (traits : DeviceTraits) (version : String)

/-- The scene of a document, with the places of its layers. -/
def plannedScene (document : Layer) : Option Scene :=
  buildScene document document.placed
    (document.placed.map (blueprintDistance traits version Layer.values))

/-- What a layer of a document is compiled to, but for handles, locations and sound. -/
def planned (document : Layer) (placed : PlacedLayer) : CompiledLayer :=
  (blueprintCode traits version Layer.values (plannedScene traits version document)
    (placed, blueprintDistance traits version Layer.values placed)).bare

end

/-- A tree that was compiled from a document, with the meaning of its handles and locations. -/
structure Portrays (traits : DeviceTraits) (version : String) (document : Layer)
    (lexicon : Lexicon) (tree : CompiledTree) : Prop where
  layers : tree.layers.map CompiledLayer.bare =
    document.placed.map (planned traits version document)
  scene : tree.scene = plannedScene traits version document
  located : ∀ layer ∈ tree.layers,
    Located lexicon.locations (includedBindings tree.scene) layer
  linked : ∀ entry ∈ tree.linked, lexicon.source entry.1 = entry.2

variable {traits : DeviceTraits} {version : String}
  {shaders : Multiset (Handle × ShaderObject)} {programs : Multiset (Handle × String)}
  {device : Device}

/-- **The programs of a new tree were linked from the sources that it records**, and the programs
that there were are still there. -/
theorem compile_linked (h : Holds traits shaders programs device) (document : Layer) :
    (compile document none version).Yields device
      (fun tree later =>
        (∀ entry ∈ tree.linked, later.linkedFrom.get? entry.1 = some entry.2) ∧
        ∀ entry ∈ programs, later.linkedFrom.get? entry.1 = some entry.2)
      fun _ later => ∀ entry ∈ programs, later.linkedFrom.get? entry.1 = some entry.2 := by
  refine (compile_yields document (Legacy.left_none h version)).mono ?_ ?_
  · rintro tree later ⟨-, entries, owned, origin, holds⟩
    have once : (tree.linked.map Prod.fst).Nodup := by
      have handles := holds.once_handles
      rw [Multiset.map_add] at handles
      rw [← programs_eq, ← owned.programs_eq, ← Multiset.coe_nodup, ← Multiset.map_coe]
      exact Multiset.nodup_of_le (Multiset.le_add_right _ _) handles
    constructor
    · intro recorded inside
      obtain ⟨entry, there, backs⟩ := exists_of_mem_right owned.backed inside
      have among := (origin entry there).resolve_left (Multiset.notMem_zero _)
      have same := List.inj_on_of_nodup_map once among inside backs.program
      exact holds.get?_linkedFrom (Multiset.mem_add.mpr (.inl (same ▸ there)))
    · exact fun entry inside => holds.get?_linkedFrom (Multiset.mem_add.mpr (.inr inside))
  · exact fun _ later holds entry => holds.get?_linkedFrom

/-- The layers of a new tree are those that are planned. -/
theorem compile_planned (h : Holds traits shaders programs device) (steady : traits.Steady)
    (document : Layer) :
    (compile document none version).Yields device
      (fun tree _ => traits.vertexRefusal? version = none ∧
        tree.layers.map CompiledLayer.bare =
          document.placed.map (planned traits version document) ∧
        tree.scene = plannedScene traits version document)
      fun failure _ => ∃ log, traits.vertexRefusal? version = some log ∧
        failure = .builtinShader "fullscreen vertex" log := by
  have planned := compile_blueprint steady document (Legacy.left_none h version)
    fun _ _ _ _ entry inside => absurd inside (Multiset.notMem_zero entry)
  have values : (Legacy.ofPrevious version none device).1.valuesFor = Layer.values := rfl
  rw [values] at planned
  unfold Yields
  unfold blueprint at planned
  revert planned
  cases (compile document none version).runOn device with
  | mk outcome later =>
    cases refusal : traits.vertexRefusal? version with
    | some log =>
      cases outcome with
      | ok tree => exact fun same => by cases same
      | error failure =>
        intro same
        exact ⟨log, rfl, Except.error.inj same⟩
    | none =>
      cases outcome with
      | error failure => exact fun same => by cases same
      | ok tree =>
        intro same
        have same := Except.ok.inj same
        refine ⟨rfl, ?_, congrArg CompiledTree.scene same⟩
        have layers := congrArg (fun tree : CompiledTree => tree.layers.map
          fun layer => { layer with usesAudio := false }) same
        unfold blank at layers
        dsimp only at layers
        rw [List.map_map, List.map_map] at layers
        refine layers.trans ((map_spreadAudio CompiledLayer.bare (fun _ _ => rfl) _).trans ?_)
        rw [← List.map_prod_left_eq_zip, List.map_map, List.map_map]
        rfl

/-- **What is known of a new tree.**  Compiling fails in one way only, which has nothing to do with
the document. -/
theorem compile_portrays (h : Holds traits shaders programs device) (steady : traits.Steady)
    (document : Layer) :
    (compile document none version).Yields device
      (fun tree later => traits.vertexRefusal? version = none ∧
        Portrays traits version document later.lexicon tree ∧ Backstage device later ∧
        ∀ entry ∈ programs, later.lexicon.source entry.1 = entry.2)
      fun failure _ => ∃ log, traits.vertexRefusal? version = some log ∧
        failure = .builtinShader "fullscreen vertex" log := by
  have planned := @compile_planned traits version _ _ _ h steady document
  have linked := @compile_linked traits version _ _ _ h document
  have located := @compile_located traits version _ _ _ _ document _ (Legacy.left_none h version)
  have backstage := compile_backstage document none version device
  refine ((planned.and linked).and (located.and backstage)).mono ?_ ?_
  · rintro tree later ⟨⟨⟨supported, layers, scene⟩, own, others⟩, places, quiet⟩
    exact ⟨supported, ⟨layers, scene, places, fun entry inside => source_lexicon (own entry inside)⟩,
      quiet, fun entry inside => source_lexicon (others entry inside)⟩
  · rintro failure later ⟨⟨refused, -⟩, -⟩
    exact refused

end CompiledTree

/-! ### Names that are found -/

namespace Lexicon

variable {traits : DeviceTraits} {lexicon : Lexicon} {program : Handle} {text : String}

theorem name_of_found {location : Nat} {name : String}
    (found : lexicon.locations[location]? = some (program, name)) :
    lexicon.name location = name := by
  unfold Lexicon.name
  rw [found]
  rfl

/-- Whether a uniform has a place is known from the source, and its name from the place. -/
theorem map_name_of_found {slot : Option Nat} {name : String}
    (found : Found lexicon.locations program slot name)
    (kept : blank slot = traits.located text name) :
    slot.map lexicon.name = if traits.keeps text name then some name else none := by
  unfold DeviceTraits.located at kept
  cases slot with
  | none =>
    split at kept
    · cases kept
    · next gone => rw [if_neg gone, Option.map_none]
  | some location =>
    split at kept
    · next keeps => rw [if_pos keeps, Option.map_some, name_of_found (found location rfl)]
    · cases kept

theorem map_names_of_found {slots : List (Option Nat)} {names : List String}
    (found : List.Forall₂ (Found lexicon.locations program) slots names)
    (kept : slots.map blank = names.map (traits.located text)) :
    slots.map (Option.map lexicon.name) =
      names.map fun name => if traits.keeps text name then some name else none := by
  induction found with
  | nil => rfl
  | cons first _ ih =>
    rw [List.map_cons, List.map_cons, List.cons.injEq] at kept
    rw [List.map_cons, List.map_cons, map_name_of_found first kept.1, ih kept.2]

end Lexicon

theorem Uniform.unplaced_blank (uniform : Uniform) : uniform.blank.unplaced = uniform.unplaced :=
  rfl

namespace CompiledTree.Portrays

variable {traits : DeviceTraits} {version : String} {document : Layer} {lexicon : Lexicon}
  {tree : CompiledTree}

theorem layer?_eq (h : Portrays traits version document lexicon tree) {place : Nat}
    {placed : PlacedLayer} (there : document.placed[place]? = some placed) :
    ∃ layer, tree.layer? place = some layer ∧ layer ∈ tree.layers ∧
      layer.bare = planned traits version document placed := by
  have same := congrArg (·[place]?) h.layers
  rw [List.getElem?_map, List.getElem?_map, there, Option.map_some] at same
  obtain ⟨layer, found, planned⟩ := Option.map_eq_some_iff.mp same
  exact ⟨layer, found, List.mem_of_getElem? found, planned⟩

theorem unplaced_of_bare {layer : CompiledLayer} {uniforms : List Uniform}
    (same : layer.uniforms.map Uniform.blank = uniforms.map Uniform.blank) :
    layer.uniforms.map Uniform.unplaced = uniforms.map Uniform.unplaced := by
  have bare := congrArg (List.map Uniform.unplaced) same
  rwa [List.map_map, List.map_map] at bare

/-- Only programs have handles and locations to be left out. -/
theorem kind_of_blank {kind other : CompiledKind} (same : kind.blank = other)
    (plain : ∀ shader, other ≠ .shader shader) : kind = other := by
  cases kind with
  | shader shader => exact absurd same.symm (plain _)
  | group | distance | script => exact same

section

variable {layer : CompiledLayer} {head : LayerHead} {blend : BlendMode} {opacity : Float32}
  {source : String} {values : List ShaderValue} {inside : List Layer} {parent : Option Nat}
  {children : List Nat}

theorem bare_group (same : layer.bare =
    planned traits version document ⟨.group head blend opacity inside, parent, children⟩) :
    layer.visible = head.visible ∧ layer.blend = blend ∧ layer.opacity = opacity ∧
      layer.kind = .group children :=
  ⟨congrArg CompiledLayer.visible same, congrArg CompiledLayer.blend same,
    congrArg CompiledLayer.opacity same,
    kind_of_blank (congrArg CompiledLayer.kind same) fun _ impossible => by cases impossible⟩

theorem bare_distance (same : layer.bare =
    planned traits version document ⟨.distance head source values inside, parent, children⟩) :
    layer.id = head.id ∧ (∃ signature, layer.kind = .distance signature children) ∧
      layer.uniforms.map Uniform.unplaced =
        (Uniform.extract source values).map Uniform.unplaced := by
  refine ⟨congrArg CompiledLayer.id same, ⟨_,
    kind_of_blank (congrArg CompiledLayer.kind same) fun _ impossible => by cases impossible⟩,
    unplaced_of_bare (congrArg CompiledLayer.uniforms same)⟩

theorem bare_script (same : layer.bare = planned traits version document
    ⟨.code .script head blend opacity source values, parent, children⟩) :
    layer.id = head.id ∧ layer.visible = head.visible ∧ layer.blend = blend ∧
      layer.opacity = opacity ∧ layer.kind = .script source ∧
      layer.uniforms.map Uniform.unplaced =
        (Uniform.extract source values).map Uniform.unplaced :=
  ⟨congrArg CompiledLayer.id same, congrArg CompiledLayer.visible same,
    congrArg CompiledLayer.blend same, congrArg CompiledLayer.opacity same,
    kind_of_blank (congrArg CompiledLayer.kind same) fun _ impossible => (by cases impossible),
    unplaced_of_bare (congrArg CompiledLayer.uniforms same)⟩

/-- The scene that a shader layer of the document includes is that of the solids, with places. -/
theorem includedScene_eq (among : ⟨.code .shader head blend opacity source values, parent,
      children⟩ ∈ document.placed) :
    includedScene (plannedScene traits version document) source =
      (Layer.sceneFor traits version document.solids source).map fun scene =>
        { scene with bindings := scene.bindings.map fun b =>
            { b with layer := (distancePlaces document.placed).getD b.layer 0 } } := by
  have planned := Layer.buildScene_solids traits version document
  unfold includedScene plannedScene Layer.sceneFor
  rw [planned]
  by_cases asks : mentions source.toList "gSdf".toList = true
  · have wants : wantsScene document.placed = true := List.any_eq_true.mpr ⟨_, among, asks⟩
    rw [if_pos wants, if_pos asks, Option.filter_some, if_pos asks]
    rfl
  · rw [if_neg asks, Option.map_none]
    split
    · rw [Option.filter_some, if_neg asks]
    · rfl

theorem bare_shader (same : layer.bare = planned traits version document
      ⟨.code .shader head blend opacity source values, parent, children⟩) :
    let included := includedScene (plannedScene traits version document) source
    let text := (wrappedFor version (plannedScene traits version document) source).text
    layer.id = head.id ∧ layer.visible = head.visible ∧ layer.blend = blend ∧
      layer.opacity = opacity ∧ ∃ shader, layer.kind = .shader shader ∧
        match traits.refusal? version text with
        | some _ => shader.program = none
        | none => shader.blank = blueprintProgram traits text included ∧
          layer.uniforms.map Uniform.blank = (Uniform.extract source values).map fun uniform =>
            { uniform with location := traits.located text uniform.name } := by
  intro included text
  have plan : planned traits version document
      ⟨.code .shader head blend opacity source values, parent, children⟩ =
      (blueprintShader traits version (plannedScene traits version document) source values
        (startLayer ⟨.code .shader head blend opacity source values, parent, children⟩)).bare := rfl
  rw [plan] at same
  unfold blueprintShader at same
  change layer.bare = (match traits.refusal? version text with
    | some log => _
    | none => _ : CompiledLayer).bare at same
  have shaderOf : ∀ {kind : CompiledKind} {made : LayerProgram}, kind.blank = .shader made →
      ∃ shader, kind = .shader shader ∧ shader.blank = made := by
    intro kind made same
    cases kind with
    | shader shader => exact ⟨shader, rfl, CompiledKind.shader.inj same⟩
    | group | distance | script => cases same
  cases refused : traits.refusal? version text with
  | some log =>
    rw [refused] at same
    obtain ⟨shader, kind, made⟩ := shaderOf (congrArg CompiledLayer.kind same)
    refine ⟨congrArg CompiledLayer.id same, congrArg CompiledLayer.visible same,
      congrArg CompiledLayer.blend same, congrArg CompiledLayer.opacity same, shader, kind, ?_⟩
    have program := congrArg LayerProgram.program made
    exact Option.map_eq_none_iff.mp program
  | none =>
    rw [refused] at same
    obtain ⟨shader, kind, made⟩ := shaderOf (congrArg CompiledLayer.kind same)
    refine ⟨congrArg CompiledLayer.id same, congrArg CompiledLayer.visible same,
      congrArg CompiledLayer.blend same, congrArg CompiledLayer.opacity same, shader, kind, ?_, ?_⟩
    · exact made.trans (blueprintProgram_blank traits text included)
    · exact (congrArg CompiledLayer.uniforms same).trans (map_located_blank traits text _)

end

theorem filterMap_eq_of_forall₂ {α β γ : Type} {f : α → Option γ} {g : β → Option γ}
    {items : List α} {others : List β} (same : List.Forall₂ (fun a b => f a = g b) items others) :
    items.filterMap f = others.filterMap g := by
  induction same with
  | nil => rfl
  | cons first _ ih => rw [List.filterMap_cons, List.filterMap_cons, first, ih]

theorem forall₂_of_map_eq {α β γ : Type} {f : α → γ} {g : β → γ} :
    ∀ {items : List α} {others : List β}, items.map f = others.map g →
      List.Forall₂ (fun a b => a ∈ items ∧ f a = g b) items others
  | [], [], _ => .nil
  | [], _ :: _, same => by cases same
  | _ :: _, [], same => by cases same
  | item :: items, other :: others, same => by
    rw [List.map_cons, List.map_cons, List.cons.injEq] at same
    refine .cons ⟨List.mem_cons_self, same.1⟩ ((forall₂_of_map_eq same.2).imp ?_)
    rintro a b ⟨inside, equal⟩
    exact ⟨List.mem_cons_of_mem _ inside, equal⟩

theorem map_given {slot : Option Nat} {text id name : String} {uniform : Uniform}
    (kept : slot.map lexicon.name = if traits.keeps text name then some name else none) :
    (slot.map fun location => (⟨id, location, uniform⟩ : Renderer.PlacedUniform)).map
        lexicon.given =
      if traits.keeps text name then some ⟨id, name, uniform.unplaced⟩ else none := by
  have named : (slot.map fun location => (⟨id, location, uniform⟩ : Renderer.PlacedUniform)).map
      lexicon.given =
      (slot.map lexicon.name).map fun name => ⟨id, name, uniform.unplaced⟩ := by
    rw [Option.map_map, Option.map_map]
    rfl
  rw [named, kept]
  split <;> rfl

/-- The own uniforms of a layer that its program keeps. -/
theorem given_own {program : Handle} {text id : String} {uniforms planned : List Uniform}
    (same : uniforms.map Uniform.blank = planned.map fun uniform =>
      { uniform with location := traits.located text uniform.name })
    (found : ∀ uniform ∈ uniforms, Found lexicon.locations program uniform.location uniform.name) :
    (uniforms.filterMap fun uniform => uniform.location.map fun location =>
        (⟨id, location, uniform⟩ : Renderer.PlacedUniform)).map lexicon.given =
      planned.filterMap fun uniform =>
        if traits.keeps text uniform.name then some ⟨id, uniform.name, uniform.unplaced⟩
        else none := by
  rw [List.map_filterMap]
  refine filterMap_eq_of_forall₂ ((forall₂_of_map_eq same).imp ?_)
  rintro uniform plan ⟨inside, equal⟩
  have name := congrArg Uniform.name equal
  have location := congrArg Uniform.location equal
  have unplaced := congrArg Uniform.unplaced equal
  dsimp only [Uniform.blank] at name location
  rw [Uniform.unplaced_blank] at unplaced
  refine (map_given (Lexicon.map_name_of_found (name ▸ found uniform inside) location)).trans ?_
  rw [unplaced]
  rfl

/-- The layer of a tree that a uniform of the scene belongs to is the one of that slot. -/
theorem owner_eq (h : Portrays traits version document lexicon tree) {slot : Nat}
    (bound : slot < (Solid.sceneLayers traits version document.solids).length) :
    ∃ part owner, (Solid.sceneLayers traits version document.solids)[slot]? = some part ∧
      tree.layer? ((distancePlaces document.placed).getD slot 0) = some owner ∧
      owner.id = part.id ∧
      owner.uniforms.map Uniform.unplaced = part.uniforms.map Uniform.unplaced := by
  obtain ⟨one, there, distance, made⟩ :=
    Layer.exists_distancePlace traits version document (List.getElem?_eq_getElem bound)
  obtain ⟨owner, found, -, bare⟩ := h.layer?_eq there
  refine ⟨_, owner, List.getElem?_eq_getElem bound, found, ?_⟩
  rw [made]
  obtain ⟨layer, parent, children⟩ := one
  cases layer with
  | group | code => cases distance
  | distance head source values operands =>
    obtain ⟨id, -, uniforms⟩ := bare_distance bare
    exact ⟨id, uniforms⟩

/-- A uniform of the scene, if its program keeps it. -/
theorem given_binding (h : Portrays traits version document lexicon tree) {program : Handle}
    {text : String} {binding : SceneBinding} {slot : Option Nat}
    (bound : binding.layer < (Solid.sceneLayers traits version document.solids).length)
    (found : Found lexicon.locations program slot binding.name)
    (kept : Collage.blank slot = traits.located text binding.name) :
    (slot.bind fun location =>
      (tree.layer? ((distancePlaces document.placed).getD binding.layer 0)).bind fun owner =>
        (owner.uniforms[binding.uniform]?).bind fun uniform =>
          some (⟨owner.id, location, uniform⟩ : Renderer.PlacedUniform)).map lexicon.given =
      Layer.sceneGiven traits version document.solids text binding := by
  obtain ⟨part, owner, there, placed, id, uniforms⟩ := h.owner_eq bound
  have named := Lexicon.map_name_of_found found kept
  have same := congrArg (·[binding.uniform]?) uniforms
  rw [List.getElem?_map, List.getElem?_map] at same
  unfold Layer.sceneGiven
  rw [there, placed]
  cases slot with
  | none =>
    split at named
    · cases named
    · next gone => rw [if_neg gone, Option.bind_none, Option.map_none]
  | some location =>
    split at named
    · next keeps =>
      have name : lexicon.name location = binding.name := Option.some.inj named
      rw [if_pos keeps]
      dsimp only [Option.bind_some]
      rw [← name, ← id]
      have given : ∀ found : Option Uniform, (found.bind fun uniform =>
          some (⟨owner.id, location, uniform⟩ : Renderer.PlacedUniform)).map lexicon.given =
          (found.map Uniform.unplaced).map fun uniform =>
            ⟨owner.id, lexicon.name location, uniform⟩ := by
        rintro (_ | uniform) <;> rfl
      rw [given, same, Option.map_map]
      rfl
    · cases named

/-- The uniforms of the scene that its program keeps. -/
theorem given_scene (h : Portrays traits version document lexicon tree) {program : Handle}
    {text : String} {bindings : List SceneBinding} {sceneUniforms : List SceneUniform}
    (bound : ∀ binding ∈ bindings,
      binding.layer < (Solid.sceneLayers traits version document.solids).length)
    (same : sceneUniforms.map SceneUniform.blank = bindings.map fun b =>
      ⟨(distancePlaces document.placed).getD b.layer 0, b.uniform, traits.located text b.name⟩)
    (found : List.Forall₂ (SceneFound lexicon.locations program)
      (bindings.map fun b => { b with layer := (distancePlaces document.placed).getD b.layer 0 })
      sceneUniforms) :
    (sceneUniforms.filterMap fun binding => do
        let location ← binding.location
        let owner ← tree.layer? binding.layer
        let uniform ← owner.uniforms[binding.uniform]?
        return (⟨owner.id, location, uniform⟩ : Renderer.PlacedUniform)).map lexicon.given =
      bindings.filterMap (Layer.sceneGiven traits version document.solids text) := by
  have blanks := forall₂_of_map_eq same
  have places := (List.forall₂_map_left_iff.mp found).flip
  rw [List.map_filterMap]
  refine filterMap_eq_of_forall₂ (List.forall₂_iff_zip.mpr ⟨blanks.length_eq, ?_⟩)
  intro placed binding inside
  obtain ⟨-, equal⟩ := (List.forall₂_iff_zip.mp blanks).2 inside
  obtain ⟨layer, uniform, place⟩ := (List.forall₂_iff_zip.mp places).2 inside
  have location := congrArg SceneUniform.location equal
  dsimp only [SceneUniform.blank] at layer uniform place location
  rw [layer, uniform]
  exact h.given_binding (bound binding (List.of_mem_zip inside).2) place location

section

variable {layer : CompiledLayer} {head : LayerHead} {blend : BlendMode} {opacity : Float32}
  {source : String} {values : List ShaderValue} {parent : Option Nat} {children : List Nat}

theorem text_eq (among : ⟨.code .shader head blend opacity source values, parent, children⟩ ∈
      document.placed) :
    (wrappedFor version (plannedScene traits version document) source).text =
      Layer.textFor traits version document.solids source := by
  unfold wrappedFor Layer.textFor
  rw [includedScene_eq among, Option.map_map]
  rfl

/-- **What a shader layer is drawn with**, by names. -/
theorem programCue_eq (h : Portrays traits version document lexicon tree)
    (among : ⟨.code .shader head blend opacity source values, parent, children⟩ ∈ document.placed)
    (inside : layer ∈ tree.layers) (same : layer.bare = planned traits version document
      ⟨.code .shader head blend opacity source values, parent, children⟩)
    {shader : LayerProgram} (kind : layer.kind = .shader shader) :
    shader.program.map (lexicon.programCue tree layer shader) =
      Layer.programCue? traits version document.solids head.id source values := by
  obtain ⟨id, -, -, -, made, is, plan⟩ := bare_shader same
  obtain rfl : shader = made := CompiledKind.shader.inj (kind.symm.trans is)
  unfold Layer.programCue?
  dsimp only
  rw [text_eq among] at plan
  generalize Layer.textFor traits version document.solids source = text at plan ⊢
  cases refused : traits.refusal? version text with
  | some log =>
    rw [refused] at plan
    rw [plan, Option.map_none]
  | none =>
    rw [refused] at plan
    obtain ⟨blank, uniforms⟩ := plan
    obtain ⟨program, built, -⟩ := Option.map_eq_some_iff.mp (congrArg LayerProgram.program blank)
    have written : shader.source = text := congrArg LayerProgram.source blank
    have builtins : shader.builtins.blank = _ := congrArg LayerProgram.builtins blank
    have scene : shader.sceneUniforms.map SceneUniform.blank = _ :=
      congrArg LayerProgram.sceneUniforms blank
    have uses : shader.usesScene =
        (includedScene (plannedScene traits version document) source).isSome :=
      congrArg LayerProgram.usesScene blank
    have located := h.located layer inside
    unfold Located at located
    rw [kind] at located
    have found := located program built
    rw [uses, h.scene, includedBindings_eq, includedScene_eq among] at found
    have linked : (program, text) ∈ tree.linked := by
      refine List.mem_filterMap.mpr ⟨layer, inside, ?_⟩
      unfold CompiledLayer.linked?
      rw [kind, ← written]
      dsimp only
      rw [built, Option.map_some]
    rw [built, Option.map_some, Option.some.injEq, Lexicon.programCue, ProgramCue.mk.injEq]
    refine ⟨h.linked _ linked, ?_, ?_⟩
    · exact Lexicon.map_names_of_found found.builtins (congrArg BuiltinLocations.slots builtins)
    · unfold Renderer.placedUniforms
      rw [List.map_append, id, given_own uniforms found.own]
      refine congrArg _ ?_
      have bindings : ∀ included : Option Scene, includedBindings (included.map fun scene =>
          { scene with bindings := scene.bindings.map fun b =>
            { b with layer := (distancePlaces document.placed).getD b.layer 0 } }) =
          (includedBindings included).map fun b =>
            { b with layer := (distancePlaces document.placed).getD b.layer 0 } := by
        rintro (_ | scene) <;> rfl
      have placed := found.scene
      rw [bindings] at placed
      refine h.given_scene ?_ ?_ placed
      · intro binding among
        unfold Layer.sceneFor includedBindings at among
        split at among
        · exact Scene.layer_lt_of_mem_bindings among
        · cases among
      · rw [scene, blueprintProgram, includedScene_eq among]
        change (includedBindings _).map _ = _
        rw [bindings, List.map_map]
        rfl

end

/-! ### The pieces of a tree -/

open LayerTree

theorem cues_unfold_some {steps place : Nat} {layer : CompiledLayer}
    (found : tree.layer? place = some layer) :
    lexicon.cues tree (piecesIn (tree.unfold (steps + 1) place).toList) =
      if layer.visible then
        match layer.kind with
        | .group children => [.group layer.blend layer.opacity
            (lexicon.cues tree (piecesIn (children.filterMap (tree.unfold steps))))]
        | .shader shader => [.shader layer.blend layer.opacity
            (shader.program.map (lexicon.programCue tree layer shader))]
        | .script code => [.script layer.id layer.blend layer.opacity code
            (layer.uniforms.map Uniform.unplaced)]
        | .distance .. => []
      else [] := by
  rw [CompiledTree.unfold, found, Option.map_some, piecesIn_toList, Option.map_some,
    Option.getD_some, pieces]
  split
  · cases kind : layer.kind <;> dsimp only <;>
      simp only [Lexicon.cues, Lexicon.cue, CompiledLayer.members, kind]
  · rfl

mutual

/-- **A layer of the tree is drawn as the document says**, if it is unfolded far enough. -/
theorem cues_unfold (h : Portrays traits version document lexicon tree) (parent : Option Nat) :
    ∀ (layer : Layer) (place steps : Nat),
    Stands document.placed place (layer.placedAt parent place) → layer.placeCount ≤ steps →
    lexicon.cues tree (piecesIn (tree.unfold steps place).toList) =
      layer.cues traits version document.solids
  | .group head blend opacity children, place, steps, stands, enough => by
    rw [Layer.placeCount] at enough
    obtain ⟨steps, rfl⟩ := Nat.exists_eq_add_of_le' (Nat.le_of_add_right_le enough)
    rw [Layer.placedAt] at stands
    obtain ⟨layer, found, -, bare⟩ := h.layer?_eq stands.head
    obtain ⟨visible, blends, opacities, kind⟩ := bare_group bare
    rw [cues_unfold_some found, visible, blends, opacities, kind]
    dsimp only
    rw [cuesIn_unfold h place children (place + 1) steps stands.tail (by omega), Layer.cues]
  | .code language head blend opacity source values, place, steps, stands, enough => by
    rw [Layer.placeCount] at enough
    obtain ⟨steps, rfl⟩ := Nat.exists_eq_add_of_le' enough
    rw [Layer.placedAt] at stands
    obtain ⟨layer, found, inside, bare⟩ := h.layer?_eq stands.head
    rw [cues_unfold_some found]
    cases language with
    | shader =>
      obtain ⟨-, visible, blends, opacities, shader, kind, -⟩ := bare_shader bare
      have program := h.programCue_eq (List.mem_of_getElem? stands.head) inside bare kind
      rw [visible, blends, opacities, kind]
      dsimp only
      rw [program, Layer.cues]
    | script =>
      obtain ⟨id, visible, blends, opacities, kind, uniforms⟩ := bare_script bare
      rw [id, visible, blends, opacities, kind, uniforms, Layer.cues]
  | .distance head source values operands, place, steps, stands, enough => by
    rw [Layer.placeCount] at enough
    obtain ⟨steps, rfl⟩ := Nat.exists_eq_add_of_le' (Nat.le_of_add_right_le enough)
    rw [Layer.placedAt] at stands
    obtain ⟨layer, found, -, bare⟩ := h.layer?_eq stands.head
    obtain ⟨-, ⟨signature, kind⟩, -⟩ := bare_distance bare
    rw [cues_unfold_some found, kind, Layer.cues]
    exact ite_self _

theorem cuesIn_unfold (h : Portrays traits version document lexicon tree) (parent : Nat) :
    ∀ (layers : List Layer) (place steps : Nat),
    Stands document.placed place (Layer.placedIn false parent place layers) →
    Layer.placeCountIn false layers ≤ steps →
    lexicon.cues tree (piecesIn ((Layer.childPlaces false place layers).filterMap
        (tree.unfold steps))) =
      Layer.cuesIn traits version document.solids layers
  | [], _, _, _, _ => rfl
  | layer :: rest, place, steps, stands, enough => by
    have fit : Layer.fits false layer = true := rfl
    rw [Layer.placedIn, if_pos fit] at stands
    rw [Layer.placeCountIn, if_pos fit] at enough
    have others := stands.right
    rw [Layer.length_placedAt] at others
    have split : (place :: Layer.childPlaces false (place + layer.placeCount) rest).filterMap
        (tree.unfold steps) = (tree.unfold steps place).toList ++
          (Layer.childPlaces false (place + layer.placeCount) rest).filterMap
            (tree.unfold steps) := by
      cases seen : tree.unfold steps place with
      | none => rw [List.filterMap_cons_none seen, Option.toList_none, List.nil_append]
      | some view => rw [List.filterMap_cons_some seen, Option.toList_some, List.singleton_append]
    rw [Layer.childPlaces, if_pos fit, split, piecesIn_append, Lexicon.cues_append,
      cues_unfold h (some parent) layer place steps stands.left (by omega),
      cuesIn_unfold h parent rest _ steps others (by omega), Layer.cuesIn]

end

theorem drawn_of_plain {root : CompiledLayer} (found : tree.layer? rootPlace = some root)
    (plain : ∀ children, root.kind ≠ .group children) :
    tree.drawn = (tree.unfold tree.layers.length rootPlace).toList := by
  unfold CompiledTree.drawn
  rw [found]
  split
  · next shown =>
    cases (Option.filter_eq_some_iff.mp shown).1
    exact absurd rfl (plain _)
  · rfl

/-- **What is drawn of a compiled tree is what the document says.** -/
theorem cues_drawn (h : Portrays traits version document lexicon tree) :
    lexicon.cues tree (piecesIn tree.drawn) =
      document.drawnCues traits version document.solids := by
  have length : tree.layers.length = document.placeCount := by
    have same := congrArg List.length h.layers
    rwa [List.length_map, List.length_map, Layer.placed, Layer.length_placedAt] at same
  have stands : Stands document.placed 0 (document.placedAt none 0) := .whole _
  have whole := h.cues_unfold none document 0 tree.layers.length stands (Nat.le_of_eq length.symm)
  cases document with
  | group head blend opacity children =>
    rw [Layer.placedAt] at stands
    obtain ⟨root, found, -, bare⟩ := h.layer?_eq stands.head
    obtain ⟨visible, -, -, kind⟩ := bare_group bare
    unfold CompiledTree.drawn
    rw [rootPlace, found, Option.filter_some, Layer.drawnCues]
    by_cases shown : head.visible = true
    · rw [if_pos shown, visible, if_pos shown]
      obtain ⟨_, _, _, _, _, _, _, _, _, _⟩ := root
      cases kind
      rw [Layer.placeCount] at length
      exact h.cuesIn_unfold 0 children 1 _ stands.tail (by omega)
    · rw [if_neg shown, visible, if_neg shown]
      exact whole
  | code language head blend opacity source values =>
    rw [Layer.placedAt] at stands
    obtain ⟨root, found, -, bare⟩ := h.layer?_eq stands.head
    rw [drawn_of_plain found ?_]
    · exact whole
    · intro children group
      cases language with
      | shader =>
        obtain ⟨-, -, -, -, shader, kind, -⟩ := bare_shader bare
        cases kind.symm.trans group
      | script =>
        obtain ⟨-, -, -, -, kind, -⟩ := bare_script bare
        cases kind.symm.trans group
  | distance head source values operands =>
    rw [Layer.placedAt] at stands
    obtain ⟨root, found, -, bare⟩ := h.layer?_eq stands.head
    obtain ⟨-, ⟨signature, kind⟩, -⟩ := bare_distance bare
    rw [drawn_of_plain found fun children group => by cases kind.symm.trans group]
    exact whole

end CompiledTree.Portrays
end Collage
