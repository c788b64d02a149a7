import Collage.Proofs.Shader.Reader
import Collage.Proofs.Tree.Listening

/-!
# What layers are given for the names in their code

A shader layer is compiled with the scene in front of its code when the code mentions something
of the scene, and a layer is said to listen when its code mentions something of sound.  So a
layer is served as the names in its code ask for (`CompiledTree.Served`) when the code shows
these names (`Shows`), on any device and whatever was compiled before
(`CompiledTree.served_iff`).
-/

namespace Collage

open Collage.Action

/-- The code of a shader layer. -/
def Layer.shaderCode? : Layer → Option String
  | .code .shader _ _ _ source _ => some source
  | _ => none

namespace CompiledTree

variable {builder : ProgramBuilder} {legacy : Legacy} {version : String} {document : Layer}
  {scene : Option Scene} {source : String}

/-! ### The scene in front of shaders -/

/-- Whether a layer is a shader with the scene that its code includes. -/
def Wraps (version : String) (scene : Option Scene) (source : String) (kind : CompiledKind) :
    Prop :=
  ∃ shader, kind = .shader shader ∧ shader.usesScene = (includedScene scene source).isSome ∧
    shader.source = (wrappedFor version scene source).text

theorem compileShader_wraps (layer : Layer) (start : CompiledLayer) (state : BuildState) :
    Wraps builder.version scene source
      (compileShader builder legacy scene layer source start state).1.kind := by
  obtain ⟨uniforms, errors, program, made, -, text, uses⟩ :=
    compileShader_made scene layer source start state
  rw [made]
  exact ⟨program, rfl, uses, text⟩

theorem compileCode_wraps {placed : PlacedLayer} (code : placed.layer.shaderCode? = some source)
    (start : CompiledLayer) (state : BuildState) :
    Wraps builder.version scene source
      (compileCode builder legacy scene (placed, start) state).1.kind := by
  obtain ⟨layer, parent, children⟩ := placed
  cases layer with
  | group | distance => cases code
  | code language =>
    cases language with
    | script => cases code
    | shader =>
      cases code
      rw [compileCode_shader]
      exact compileShader_wraps _ start state

variable {previous : Option CompiledTree} {device after : Device} {tree : CompiledTree}

theorem wraps_of_compile
    (compiled : (compile document previous version).runOn device = (.ok tree, after)) :
    List.Forall₂ (fun placed layer => ∀ source, placed.layer.shaderCode? = some source →
      Wraps version tree.scene source layer.kind) document.placed tree.layers := by
  obtain ⟨-, layers, -, spread, each⟩ := compile_passes (fun _ _ => True)
    (fun builder scene placed layer => ∀ source, placed.layer.shaderCode? = some source →
      Wraps builder.version scene source layer.kind) compiled (fun _ _ _ => trivial)
    fun _ _ _ start state _ _ code => compileCode_wraps code start state
  have kinds := map_spreadAudio CompiledLayer.kind (fun _ _ => rfl) layers
  have each : List.Forall₂ (fun placed kind => ∀ source, placed.layer.shaderCode? = some source →
      Wraps version tree.scene source kind) document.placed (layers.map CompiledLayer.kind) := by
    rw [version_of_compile compiled] at each
    exact List.forall₂_map_right_iff.mpr each
  rw [← kinds, ← spread] at each
  exact List.forall₂_map_right_iff.mp each

/-- There is a scene when a shader asks for one. -/
theorem exists_scene
    (compiled : (compile document previous version).runOn device = (.ok tree, after))
    {placed : PlacedLayer} (inside : placed ∈ document.placed)
    (code : placed.layer.shaderCode? = some source)
    (mentioned : mentions source.toList "gSdf".toList = true) :
    ∃ scene, tree.scene = some scene := by
  obtain ⟨started, -, built, -⟩ := compile_passes (fun _ _ => True) (fun _ _ _ _ => True) compiled
    (fun _ _ _ => trivial) fun _ _ _ _ _ _ => trivial
  have wanted : wantsScene document.placed = true := by
    refine List.any_eq_true.mpr ⟨placed, inside, ?_⟩
    obtain ⟨layer, parent, children⟩ := placed
    cases layer with
    | group | distance => cases code
    | code language =>
      cases language with
      | script => cases code
      | shader =>
        cases code
        exact mentioned
  rw [buildScene, if_pos wanted] at built
  exact ⟨_, built⟩

/-! ### What layers are given -/

/-- Whether a layer is a shader with the scene of a tree in front of its code. -/
def HasScene (version : String) (tree : CompiledTree) (source : String) (layer : CompiledLayer) :
    Prop :=
  ∃ shader scene, layer.kind = .shader shader ∧ tree.scene = some scene ∧
    shader.usesScene = true ∧
    shader.source = (WrappedSource.layer version source (some scene.code)).text

/-- A shader has the scene just when its code mentions something of it. -/
theorem hasScene_iff {layer : CompiledLayer}
    (wraps : Wraps version tree.scene source layer.kind)
    (there : mentions source.toList "gSdf".toList = true → ∃ scene, tree.scene = some scene) :
    HasScene version tree source layer ↔ mentions source.toList "gSdf".toList = true := by
  obtain ⟨shader, kind, uses, text⟩ := wraps
  constructor
  · rintro ⟨other, scene, kind', -, used, -⟩
    rw [kind] at kind'
    cases kind'
    rw [uses, includedScene, Option.isSome_filter, Option.any_eq_true] at used
    obtain ⟨-, -, mentioned⟩ := used
    exact mentioned
  · intro mentioned
    obtain ⟨scene, is⟩ := there mentioned
    have included : includedScene tree.scene source = some scene := by
      rw [is, includedScene, Option.filter_some, if_pos mentioned]
    refine ⟨shader, scene, kind, is, ?_, ?_⟩
    · rw [uses, included]
      rfl
    · rw [text, wrappedFor, included]
      rfl

/-- What a layer is given for the names in its code. -/
structure Served (version : String) (tree : CompiledTree) (placed : PlacedLayer)
    (layer : CompiledLayer) : Prop where
  /-- a shader has the scene just when its code names something of it, as long as the code shows
  such names -/
  scene : ∀ source, placed.layer.shaderCode? = some source → Legible source.toList →
    ((HasScene version tree source layer ↔ Names source.toList "gSdf".toList) ↔
      Shows source.toList "gSdf".toList)
  /-- code that names something of sound listens, as long as it shows such names -/
  sound : ∀ source, placed.layer.source? = some source → Legible source.toList →
    Shows source.toList "gAudio".toList → Names source.toList "gAudio".toList →
      layer.usesAudio = true

/-- **Names and what is given for them.**  The names outside the comments of legible code are those
that are mentioned and those that are swallowed, and every layer of a compiled tree is served. -/
theorem served_of_compile
    (compiled : (compile document previous version).runOn device = (.ok tree, after)) :
    (∀ source start : List Char, Legible source →
      (Names source start ↔ mentions source start = true ∨ Swallows source start) ∧
      ((mentions source start = true ↔ Names source start) ↔ Shows source start)) ∧
    List.Forall₂ (Served version tree) document.placed tree.layers := by
  refine ⟨fun source start legible => ⟨names_iff legible, mentions_iff_names legible⟩, ?_⟩
  have wraps := wraps_of_compile compiled
  refine forall₂_iff_getElem?.mpr ⟨wraps.length_eq, fun place placed layer there here => ?_⟩
  have inside := List.mem_of_getElem? there
  refine ⟨fun source code legible => ?_, fun source given legible shows' names => ?_⟩
  · have wrapped := (forall₂_iff_getElem?.mp wraps).2 place placed layer there here source code
    rw [hasScene_iff wrapped (exists_scene compiled inside code)]
    exact mentions_iff_names legible
  · have mentioned := ((mentions_iff_names legible).mpr shows').mpr names
    refine ((forall₂_iff_getElem?.mp (truthful_of_compile compiled).layers).2 place placed layer
      there here).mpr (.inl (.inl ⟨source, given, mentioned⟩))

theorem compile_new (document : Layer) :
    ∃ tree after, (compile document none "300 es").runOn ({} : Device) = (.ok tree, after) := by
  have works : ({} : DeviceTraits).vertexRefusal? "300 es" = none := rfl
  have planned := compile_blueprint DeviceTraits.steady_new document
    (Workshop.left_new "300 es") fun _ _ _ _ _ inside => absurd inside (Multiset.notMem_zero _)
  unfold blueprint at planned
  rw [works] at planned
  obtain ⟨tree, ended, -⟩ := exists_of_map_ok planned
  exact ⟨tree, _, Prod.ext ended rfl⟩

/-- A shader layer with the given code. -/
def shaderOf (source : String) : Layer :=
  .code .shader ⟨"a", "", true⟩ .normal 1 source []

/-- Code that names the scene in a macro and outside of it, and the volume. -/
def outspoken : String :=
  "#define S gSdfScene\ngSdfMap(S) * gAudioVolume"

/-- A shader layer that is given what it names. -/
theorem served_outspoken :
    ∃ tree after, (compile (shaderOf outspoken) none "300 es").runOn ({} : Device) =
        (.ok tree, after) ∧
      (Names outspoken.toList "gSdf".toList ↔
        mentions outspoken.toList "gSdf".toList = true ∨
          Swallows outspoken.toList "gSdf".toList) ∧
      ∃ layer, tree.layers = [layer] ∧ HasScene "300 es" tree outspoken layer ∧
        layer.usesAudio = true := by
  obtain ⟨tree, after, compiled⟩ := compile_new (shaderOf outspoken)
  have legible : Legible outspoken.toList := by decide
  obtain ⟨read, each⟩ := served_of_compile compiled
  have placed : (shaderOf outspoken).placed = [⟨shaderOf outspoken, none, []⟩] := rfl
  rw [placed] at each
  obtain ⟨layer, _, served, none, one⟩ := List.forall₂_cons_left_iff.mp each
  cases none
  refine ⟨tree, after, compiled, (read _ _ legible).1, layer, one, ?_, ?_⟩
  · exact ((served.scene _ rfl legible).mpr fun _ => by decide).mpr (by decide)
  · exact served.sound _ rfl legible (fun _ => by decide) (by decide)

/-- Code that names the scene in a macro only. -/
def reserved : String :=
  "#define S gSdfDistance(vec3(0.0))\nvec4 render(vec2 uv) { return vec4(S); }"

/-- A shader layer that names the scene and is not given it. -/
theorem exists_unserved :
    Names reserved.toList "gSdf".toList ∧ mentions reserved.toList "gSdf".toList = false ∧
    ∃ tree after, (compile (shaderOf reserved) none "300 es").runOn ({} : Device) =
        (.ok tree, after) ∧
      ∃ layer, tree.layers = [layer] ∧ ¬ HasScene "300 es" tree reserved layer := by
  have silent : mentions reserved.toList "gSdf".toList = false := by decide
  refine ⟨by decide, silent, ?_⟩
  obtain ⟨tree, after, compiled⟩ := compile_new (shaderOf reserved)
  have wraps := wraps_of_compile compiled
  have placed : (shaderOf reserved).placed = [⟨shaderOf reserved, none, []⟩] := rfl
  rw [placed] at wraps
  obtain ⟨layer, _, wrapped, none, one⟩ := List.forall₂_cons_left_iff.mp wraps
  cases none
  refine ⟨tree, after, compiled, layer, one, fun has => ?_⟩
  have mentioned := (hasScene_iff (wrapped _ rfl) fun loud => by
    rw [silent] at loud
    cases loud).mp has
  rw [silent] at mentioned
  cases mentioned

end CompiledTree
end Collage
