import Collage.Proofs.Frame.Showing
import Collage.Proofs.Program.Standing
import Collage.Proofs.Tree.Editing

/-!
# Hidden layers

A layer can be hidden (`hideAt`), removed with all that is in it (`removeAt`), or removed so that
the distance layers in it stay, in its place (`leaveAt`).

What is hidden is not drawn, but its distance layers still belong to the scene.  So where a layer is
hidden the same is shown as where its distance layers are left, and the same as where it is removed
if there are none, or if nothing that is drawn asks for the scene (`shown_hideAt`).
-/

namespace Collage
namespace Layer

/-- The layer, not shown. -/
def hidden : Layer → Layer
  | group head blend opacity children => group { head with visible := false } blend opacity children
  | code language head blend opacity source values =>
    code language { head with visible := false } blend opacity source values
  | distance head source values operands =>
    distance { head with visible := false } source values operands

mutual

/-- The distance layers of a layer that stand in no other. -/
def roots : Layer → List Layer
  | group _ _ _ children => rootsIn children
  | code .. => []
  | distance head source values operands => [distance head source values operands]

/-- The same of several layers. -/
def rootsIn : List Layer → List Layer
  | [] => []
  | layer :: rest => roots layer ++ rootsIn rest

end

/-- The document with a layer that is not shown. -/
def hideAt (path : List Nat) (document : Layer) : Layer :=
  document.editAt (fun _ layer => [layer.hidden]) path

/-- The document without a layer and all that is in it. -/
def removeAt (path : List Nat) (document : Layer) : Layer :=
  document.editAt (fun _ _ => []) path

/-- The document without a layer, in whose place are the distance layers that stood in it; a
distance layer combines no others. -/
def leaveAt (path : List Nat) (document : Layer) : Layer :=
  document.editAt
    (fun inDistance layer => if fits inDistance layer then layer.roots else []) path

/-! ### Distance layers that are left -/

section

variable {traits : DeviceTraits} {version : String}

mutual

theorem solidsIn_roots : ∀ layer : Layer, solidsIn false layer.roots = layer.solids
  | group _ _ _ children => solidsIn_rootsIn children
  | code .. => rfl
  | distance .. => List.append_nil _

theorem solidsIn_rootsIn : ∀ layers : List Layer,
    solidsIn false (rootsIn layers) = solidsIn false layers
  | [] => rfl
  | layer :: rest => by
    rw [rootsIn, solidsIn_append, solidsIn_roots layer, solidsIn_rootsIn rest, solidsIn]
    rfl

end

mutual

theorem cuesIn_roots (solids : List Solid) : ∀ layer : Layer,
    cuesIn traits version solids layer.roots = []
  | group _ _ _ children => cuesIn_rootsIn solids children
  | code .. => rfl
  | distance .. => rfl

theorem cuesIn_rootsIn (solids : List Solid) : ∀ layers : List Layer,
    cuesIn traits version solids (rootsIn layers) = []
  | [] => rfl
  | layer :: rest => by
    rw [rootsIn, cuesIn_append, cuesIn_roots solids layer, cuesIn_rootsIn solids rest]
    rfl

end

theorem cuesIn_hidden (solids : List Solid) (layer : Layer) :
    cuesIn traits version solids [layer.hidden] = [] := by
  cases layer with
  | group | distance => rfl
  | code language => cases language <;> rfl

theorem solids_hidden (layer : Layer) : layer.hidden.solids = layer.solids := by
  cases layer <;> rfl

/-- **The scene of a hidden layer** is that of the distance layers which are left of it. -/
theorem solidsIn_hidden (inDistance : Bool) (layer : Layer) :
    solidsIn inDistance [layer.hidden] =
      solidsIn inDistance (if fits inDistance layer then layer.roots else []) := by
  have fit : fits inDistance layer.hidden = fits inDistance layer := by cases layer <;> rfl
  rw [solidsIn_single, fit, solids_hidden]
  split
  · next fits =>
    cases layer with
    | distance =>
      rw [roots, solidsIn_single, if_pos fits]
    | group | code =>
      -- such a layer stands in no distance layer
      cases inDistance with
      | false => exact (solidsIn_roots _).symm
      | true => cases fits
  · rfl

/-- **Where a layer is hidden, the same is drawn as where its distance layers are left.** -/
theorem drawnCues_hideAt_leaveAt (path : List Nat) (document : Layer) :
    Cue.spreadIn (drawnCues traits version (document.hideAt path).solids (document.hideAt path)) =
      Cue.spreadIn
        (drawnCues traits version (document.leaveAt path).solids (document.leaveAt path)) := by
  refine drawnCues_editAt solidsIn_hidden (fun solids layer => ?_) path document
  exact congrArg Cue.spreadIn ((cuesIn_hidden solids layer).trans (cuesIn_roots solids layer).symm)

/-- Without distance layers in it, a layer is removed as a whole. -/
theorem leaveAt_eq_removeAt {path : List Nat} {document : Layer}
    (none : ∀ layer, document.layerAt? path = some layer → layer.roots = []) :
    document.leaveAt path = document.removeAt path :=
  editAt_congr path document fun _ layer _ leads => by rw [none layer leads, ite_self]

end

/-! ### Layers that ask for the scene -/

mutual

/-- Whether code is drawn that asks for the scene. -/
def asksScene : Layer → Bool
  | group head _ _ children => head.visible && asksSceneIn children
  | code .shader head _ _ source _ => head.visible && mentions source.toList "gSdf".toList
  | code .script .. => false
  | distance .. => false

/-- The same of several layers. -/
def asksSceneIn : List Layer → Bool
  | [] => false
  | layer :: rest => asksScene layer || asksSceneIn rest

end

section

variable {traits : DeviceTraits} {version : String} (solids others : List Solid)

/-- Code that does not ask for the scene is not given it. -/
theorem programCue?_eq {source : String} (deaf : mentions source.toList "gSdf".toList = false)
    (id : String) (values : List ShaderValue) :
    programCue? traits version solids id source values =
      programCue? traits version others id source values := by
  have silent : ∀ solids, sceneFor traits version solids source = none := fun solids => by
    rw [sceneFor, deaf]
    rfl
  have text : textFor traits version solids source = textFor traits version others source := by
    rw [textFor, textFor, silent, silent]
  have none : ∀ solids : List Solid,
      (CompiledTree.includedBindings (sceneFor traits version solids source)).filterMap
        (sceneGiven traits version solids (textFor traits version others source)) = [] := by
    intro solids
    rw [silent]
    rfl
  rw [programCue?, programCue?, text, none, none]

mutual

/-- Where nothing that is drawn asks for the scene, it makes no difference. -/
theorem cues_eq : ∀ layer : Layer, layer.asksScene = false →
    cues traits version solids layer = cues traits version others layer
  | group head blend opacity children, deaf => by
    rw [asksScene] at deaf
    rw [cues, cues]
    split
    · next shown =>
      rw [shown, Bool.true_and] at deaf
      rw [cuesIn_eq children deaf]
    · rfl
  | code .shader head blend opacity source values, deaf => by
    rw [asksScene] at deaf
    rw [cues, cues]
    split
    · next shown =>
      rw [shown, Bool.true_and] at deaf
      rw [programCue?_eq solids others deaf]
    · rfl
  | code .script .., _ => rfl
  | distance .., _ => rfl

theorem cuesIn_eq : ∀ layers : List Layer, asksSceneIn layers = false →
    cuesIn traits version solids layers = cuesIn traits version others layers
  | [], _ => rfl
  | layer :: rest, deaf => by
    rw [asksSceneIn, Bool.or_eq_false_iff] at deaf
    rw [cuesIn, cuesIn, cues_eq layer deaf.1, cuesIn_eq rest deaf.2]

end

theorem drawnCues_eq {document : Layer} (deaf : document.asksScene = false) :
    drawnCues traits version solids document = drawnCues traits version others document := by
  cases document with
  | group head blend opacity children =>
    have whole := @cues_eq traits version solids others _ deaf
    rw [asksScene] at deaf
    rw [drawnCues, drawnCues]
    split
    · next shown =>
      rw [shown, Bool.true_and] at deaf
      exact cuesIn_eq solids others children deaf
    · exact whole
  | code => exact cues_eq solids others _ deaf
  | distance => exact cues_eq solids others _ deaf

end

/-- **Where a layer is hidden, the same is drawn as where it is removed**, if there are no distance
layers in it or nothing that is drawn asks for the scene. -/
theorem drawnCues_hideAt_removeAt {traits : DeviceTraits} {version : String} {path : List Nat}
    {document layer : Layer} (leads : document.layerAt? path = some layer)
    (none : layer.roots = [] ∨ (document.hideAt path).asksScene = false) :
    Cue.spreadIn (drawnCues traits version (document.hideAt path).solids (document.hideAt path)) =
      Cue.spreadIn
        (drawnCues traits version (document.removeAt path).solids (document.removeAt path)) := by
  rcases none with none | deaf
  · rw [drawnCues_hideAt_leaveAt, leaveAt_eq_removeAt fun other same => ?_]
    cases leads.symm.trans same
    exact none
  · rw [drawnCues_eq _ (document.removeAt path).solids deaf]
    refine (looksLike_editAt (fun layer => ?_) path document).2
    exact congrArg Cue.spreadIn (cuesIn_hidden _ layer)

end Layer

namespace Renderer

variable {ℓ : Type} [TextureLoader ℓ]

/-- **What is shown where a layer is hidden.**  It is what is shown where its distance layers are
left in its place; and it is what is shown where it is removed, if there are no distance layers in it
or nothing that is drawn asks for the scene. -/
theorem shown_hideAt {traits : DeviceTraits} (steady : traits.Steady) {renderer : Renderer ℓ}
    (equipped : renderer.Equipped traits) {path : List Nat} {document layer : Layer}
    (leads : document.layerAt? path = some layer) (version : String) (turns : List Turn) :
    renderer.shown version turns (document.hideAt path) =
        renderer.shown version turns (document.leaveAt path) ∧
      (layer.roots = [] ∨ (document.hideAt path).asksScene = false →
        renderer.shown version turns (document.hideAt path) =
          renderer.shown version turns (document.removeAt path)) :=
  ⟨shown_eq steady equipped (Layer.drawnCues_hideAt_leaveAt path document) turns,
    fun none => shown_eq steady equipped (Layer.drawnCues_hideAt_removeAt leads none) turns⟩

end Renderer

/-! ### A hidden layer that is not gone -/

section

open Layer Device

set_option maxRecDepth 100000

theorem Buildable.built {names : List String} {source : String} (h : Buildable names source.toList)
    (version : String) : ({} : DeviceTraits).refusal? version source = none ∧
      ∀ name ∈ names, ({} : DeviceTraits).keeps source name = true := by
  constructor
  · unfold DeviceTraits.refusal? shaderLog? linkLog? compileLog?
    rw [h.accepted]
    rfl
  · intro name inside
    unfold DeviceTraits.keeps
    rw [List.contains_iff_mem.mpr (h.declared name inside)]
    rfl

/-- The code of a distance layer with a uniform. -/
def ballSource : String :=
  "uniform float r;gSdfResult map(inout gSdfContext c){return gSdfResult(r,vec4(1));}"

/-- The code of a shader that asks for the scene. -/
def viewSource : String :=
  "vec4 render(vec2 p){return vec4(gSdfDistance(vec3(p,1)));}"

/-- The shader, and under it the distance layer. -/
def viewOfBall : Layer :=
  .group ⟨"root", "", true⟩ .normal 1 [.code .shader ⟨"view", "", true⟩ .normal 1 viewSource [],
    .distance ⟨"ball", "", true⟩ ballSource [] []]

namespace Renderer

/-- What is shown without the shader, and what is shown without the distance layer. -/
theorem shown_hideAt_viewOfBall :
    ∃ renderer : Renderer NoLoader, renderer.Equipped {} ∧ ∀ (version : String) (turns : List Turn),
      renderer.shown version turns (viewOfBall.hideAt [0]) =
          renderer.shown version turns (viewOfBall.removeAt [0]) ∧
        renderer.shown version turns (viewOfBall.hideAt [1]) =
          renderer.shown version turns (viewOfBall.leaveAt [1]) := by
  obtain ⟨renderer, equipped⟩ := equipped_new
  have shown := fun path layer leads => @shown_hideAt _ _ _ DeviceTraits.steady_new _ equipped path
    viewOfBall layer leads
  exact ⟨renderer, equipped, fun version turns =>
    ⟨(shown [0] _ rfl version turns).2 (.inl rfl), (shown [1] _ rfl version turns).1⟩⟩

end Renderer

/-! The distance layer, hidden or not, becomes a scene with the uniform in it. -/

/-- What the distance layer becomes in a scene. -/
def ballNode : EmittedNode where
  suffix := "s0ball"
  code := "uniform float r_s0ball;gSdfResult map_s0ball(inout gSdfContext c)" ++
    "{return gSdfResult(r_s0ball,vec4(1));}"
  arity := .fixed 0

/-- The scene of the distance layer. -/
def ballScene : Scene :=
  let graph : SceneGraph := ⟨[⟨0, .layer 0, []⟩], some 0, 0⟩
  ⟨Scene.emit graph [ballNode], graph, [⟨0, 0, "r_s0ball"⟩]⟩

/-- The program of the distance layer on its own can be built. -/
theorem builds_ball : Buildable []
    (WrappedSource.standalone "300 es" ballSource (some (.fixed 0))).text.toList := by
  apply WrittenOut.builds_layer
  · unfold WrappedSource.standalone WrappedSource.assemble WrappedSource.emptyOperands
    dsimp only
    simp only [String.append_assoc]
    apply WrittenOut.append writtenHeader.2
    iterate 2
      apply WrittenOut.append
      · repeat apply WrittenOut.unlines_cons (.of_characters _)
        exact WrittenOut.unlines_nil
    apply WrittenOut.append (.endLine (.of_characters _))
    iterate 2 apply WrittenOut.unlines_cons (.of_characters _)
    apply WrittenOut.unlines_cons
      (.append (.of_characters _) (.append (.of_characters []) (.of_characters _)))
    repeat apply WrittenOut.unlines_cons (.of_characters _)
    exact WrittenOut.unlines_nil
  · decide +kernel
  · exact List.forall_mem_nil _

/-- The distance layer takes part in scenes. -/
theorem usableSignature_ball :
    (Solid.usableSignature {} "300 es" ballSource).map (·.arity) = some (.fixed 0) := by
  have written : WrittenOut ballSource _ := .of_characters _
  rw [WrittenOut] at written
  have arity : (Signature.ofSource ballSource).toOption.map (·.arity) = some (.fixed 0) := by
    rw [Signature.ofSource, written]
    decide +kernel
  obtain ⟨signature, found, fixed⟩ := Option.map_eq_some_iff.mp arity
  have accepted := (builds_ball.built "300 es").1
  rw [← fixed] at accepted
  rw [Solid.usableSignature, found, Option.filter_some,
    CompiledTree.blueprintErrors_of_accepted accepted]
  exact congrArg some fixed

theorem scene_ball : Solid.scene {} "300 es" [.node "ball" ballSource [] []] = ballScene := by
  have written : WrittenOut ballSource _ := .of_characters _
  have suffix : WrittenOut "s0ball" _ := .of_characters _
  have code : WrittenOut ballNode.code _ := .append (.of_characters _) (.of_characters _)
  rw [WrittenOut] at written suffix code
  have uniforms : (Uniform.extract ballSource []).map (fun u => (u.name, u.occurrences)) =
      [("r", [14, 70])] := by
    rw [Uniform.extract, written]
    decide +kernel
  have mangled : Mangle.apply ballSource (Mangle.layerSpans ballSource
      ((Uniform.extract ballSource []).map fun u => (u.name, u.occurrences))) "s0ball" =
        ballNode.code := by
    rw [uniforms, ← String.toList_inj, Mangle.apply, Mangle.layerSpans, written, suffix, code,
      String.toList_ofList]
    decide +kernel
  have bound : (Uniform.extract ballSource []).mapIdx (fun uniform declared =>
      SceneBinding.mk 0 uniform (Mangle.mangled declared.name "s0ball")) =
        [⟨0, 0, "r_s0ball"⟩] := by
    rw [Uniform.extract, written]
    decide +kernel
  have named : Mangle.suffix 0 "ball" = "s0ball" := by decide +kernel
  obtain ⟨signature, usable, fixed⟩ := Option.map_eq_some_iff.mp usableSignature_ball
  have node : Scene.emitNode
      [⟨"ball", ballSource, some signature, Uniform.extract ballSource [], []⟩]
      ⟨0, .layer 0, []⟩ = (ballNode, [⟨0, 0, "r_s0ball"⟩]) := by
    unfold Scene.emitNode
    dsimp only [List.getElem?_cons_zero]
    rw [named, mangled, bound, Option.map_some, fixed]
    rfl
  have graph : SceneGraph.build [⟨some (.fixed 0), []⟩] [0] =
      ⟨[⟨0, .layer 0, []⟩], some 0, 0⟩ := rfl
  unfold Solid.scene Solid.sceneLayers Solid.partsIn Solid.parts Solid.partsIn
  rw [usable]
  change Scene.build
    [⟨"ball", ballSource, some signature, Uniform.extract ballSource [], []⟩] [0] = _
  unfold Scene.build
  rw [List.map_singleton, Option.map_some, fixed]
  dsimp only
  rw [graph, List.map_singleton, node]
  rfl

/-! The shader can be built with this scene and with an empty one. -/

/-- The code of the shader and what stands behind it, written out. -/
def writtenView : { characters : List Char //
    WrittenOut (WrappedSource.endLine viewSource ++ ShaderLibrary.footer) characters } := by
  apply Subtype.mk
  apply WrittenOut.append (.endLine (.of_characters _))
  repeat apply WrittenOut.unlines_cons (.of_characters _)
  exact WrittenOut.unlines_nil

theorem builds_view {scene : String} {front : List Char} {names : List String}
    (written : WrittenOut (WrappedSource.endLine scene) front)
    (absent : occursIn "#error".toList (front ++ writtenView.1) = false)
    (declared : ∀ name ∈ names,
      name ∈ declaredUniforms (writtenHeader.1 ++ (front ++ writtenView.1))) :
    Buildable names (WrappedSource.layer "300 es" viewSource (some scene)).text.toList := by
  refine WrittenOut.builds_layer ?_ absent declared
  unfold WrappedSource.layer WrappedSource.assemble WrappedSource.sceneText
  dsimp only
  rw [String.append_assoc, String.append_assoc]
  exact writtenHeader.2.append (written.append writtenView.2)

theorem builds_view_ballScene : Buildable (BuiltinLocations.names ++ ["r_s0ball"])
    (WrappedSource.layer "300 es" viewSource (some ballScene.code)).text.toList := by
  have code : ballScene.code = ShaderLibrary.distancePrelude ++ ("" ++ (unlines [
      "gSdfResult gSdfMap_" ++ "s0ball" ++ "(inout gSdfContext context, gSdf node) \x7b",
      "    switch (node.id) \x7b", "        default: return gSdfEmpty();", "    \x7d", "\x7d"] ++
        WrappedSource.endLine ballNode.code)) ++
      Scene.sceneFunction ("map_" ++ "s0ball" ++ "(" ++ "context" ++ "" ++ ")") ++
      Scene.distanceFunction := rfl
  rw [code]
  apply builds_view
  · unfold Scene.sceneFunction
    simp only [String.append_assoc]
    apply WrittenOut.endLine
    apply WrittenOut.append
    · repeat apply WrittenOut.unlines_cons (.of_characters _)
      exact WrittenOut.unlines_nil
    apply WrittenOut.append (.of_characters [])
    apply WrittenOut.append
    · apply WrittenOut.unlines_cons
        (.append (.of_characters _) (.append (.of_characters _) (.of_characters _)))
      repeat apply WrittenOut.unlines_cons (.of_characters _)
      exact WrittenOut.unlines_nil
    apply WrittenOut.append (.endLine (.append (.of_characters _) (.of_characters _)))
    apply WrittenOut.append
    · apply WrittenOut.unlines_cons (.of_characters _)
      apply WrittenOut.unlines_cons
      · iterate 5 apply WrittenOut.append (.of_characters _)
        apply WrittenOut.append (.of_characters [])
        exact .append (.of_characters _) (.of_characters _)
      · apply WrittenOut.unlines_cons (.of_characters _)
        exact WrittenOut.unlines_nil
    · repeat apply WrittenOut.unlines_cons (.of_characters _)
      exact WrittenOut.unlines_nil
  · decide +kernel
  · decide +kernel

theorem builds_view_nil : Buildable BuiltinLocations.names
    (WrappedSource.layer "300 es" viewSource (some (Scene.build [] []).code)).text.toList := by
  have code : (Scene.build [] []).code = ShaderLibrary.distancePrelude ++
      Scene.sceneFunction "gSdfEmpty()" ++ Scene.distanceFunction := rfl
  rw [code]
  apply builds_view
  · unfold Scene.sceneFunction
    simp only [String.append_assoc]
    apply WrittenOut.endLine
    apply WrittenOut.append
    · repeat apply WrittenOut.unlines_cons (.of_characters _)
      exact WrittenOut.unlines_nil
    apply WrittenOut.append
    · apply WrittenOut.unlines_cons (.of_characters _)
      apply WrittenOut.unlines_cons
        (.append (.of_characters _) (.append (.of_characters _) (.of_characters _)))
      apply WrittenOut.unlines_cons (.of_characters _)
      exact WrittenOut.unlines_nil
    · repeat apply WrittenOut.unlines_cons (.of_characters _)
      exact WrittenOut.unlines_nil
  · decide +kernel
  · decide +kernel

/-! So the uniform is given to the shader where the distance layer is hidden. -/

theorem viewSource_asks : mentions viewSource.toList "gSdf".toList = true := by
  have written : WrittenOut viewSource _ := .of_characters _
  rw [WrittenOut] at written
  rw [written]
  decide +kernel

theorem textFor_view (solids : List Solid) : textFor {} "300 es" solids viewSource =
    (WrappedSource.layer "300 es" viewSource (some (Solid.scene {} "300 es" solids).code)).text := by
  rw [textFor, sceneFor, if_pos viewSource_asks]
  rfl

/-- What the shader is given with a scene that it can be built with. -/
theorem programCue?_view {solids : List Solid} {names : List String}
    (builds : Buildable (BuiltinLocations.names ++ names)
      (textFor {} "300 es" solids viewSource).toList) :
    programCue? {} "300 es" solids "view" viewSource [] = some {
      source := textFor {} "300 es" solids viewSource
      builtins := BuiltinLocations.names.map some
      given := (Solid.scene {} "300 es" solids).bindings.filterMap
        (sceneGiven {} "300 es" solids (textFor {} "300 es" solids viewSource)) } := by
  have written : WrittenOut viewSource _ := .of_characters _
  rw [WrittenOut] at written
  have none : Uniform.extract viewSource [] = [] := by
    rw [← List.length_eq_zero_iff, Uniform.extract, written]
    decide +kernel
  obtain ⟨accepted, keeps⟩ := builds.built "300 es"
  have builtins : (BuiltinLocations.names.map fun name =>
      if ({} : DeviceTraits).keeps (textFor {} "300 es" solids viewSource) name then some name
      else Option.none) = BuiltinLocations.names.map some :=
    List.map_congr_left fun name inside => if_pos (keeps name (List.mem_append_left _ inside))
  have included : CompiledTree.includedBindings (sceneFor {} "300 es" solids viewSource) =
      (Solid.scene {} "300 es" solids).bindings := by
    rw [sceneFor, if_pos viewSource_asks]
    rfl
  rw [programCue?, accepted, builtins, none, included, List.filterMap_nil, List.nil_append]

theorem builds_view_ball : Buildable (BuiltinLocations.names ++ ["r_s0ball"])
    (textFor {} "300 es" [.node "ball" ballSource [] []] viewSource).toList := by
  rw [textFor_view, scene_ball]
  exact builds_view_ballScene

theorem sceneGiven_ball {uniform : Uniform} (only : Uniform.extract ballSource [] = [uniform]) :
    sceneGiven {} "300 es" [.node "ball" ballSource [] []]
      (textFor {} "300 es" [.node "ball" ballSource [] []] viewSource) ⟨0, 0, "r_s0ball"⟩ =
        some ⟨"ball", "r_s0ball", uniform.unplaced⟩ := by
  have kept := (builds_view_ball.built "300 es").2 "r_s0ball"
    (List.mem_append_right _ (List.mem_singleton_self _))
  exact @sceneGiven_of_keeps {} "300 es" [.node "ball" ballSource [] []] _ ⟨0, 0, "r_s0ball"⟩ kept
    ⟨"ball", ballSource, Solid.usableSignature {} "300 es" ballSource,
      Uniform.extract ballSource [], []⟩ rfl uniform (by rw [only]; rfl)

theorem programCue?_view_ball {uniform : Uniform}
    (only : Uniform.extract ballSource [] = [uniform]) :
    programCue? {} "300 es" [.node "ball" ballSource [] []] "view" viewSource [] = some {
      source := textFor {} "300 es" [.node "ball" ballSource [] []] viewSource
      builtins := BuiltinLocations.names.map some
      given := [⟨"ball", "r_s0ball", uniform.unplaced⟩] } := by
  have bindings : (Solid.scene {} "300 es" [.node "ball" ballSource [] []]).bindings =
      [⟨0, 0, "r_s0ball"⟩] := congrArg Scene.bindings scene_ball
  rw [programCue?_view builds_view_ball, bindings, List.filterMap_cons_some (sceneGiven_ball only),
    List.filterMap_nil]

/-- Without it, it is given nothing else. -/
theorem programCue?_view_nil :
    programCue? {} "300 es" [] "view" viewSource [] = some {
      source := textFor {} "300 es" [] viewSource
      builtins := BuiltinLocations.names.map some
      given := [] } := by
  have builds : Buildable (BuiltinLocations.names ++ [])
      (textFor {} "300 es" [] viewSource).toList := by
    rw [textFor_view]
    exact builds_view_nil
  exact programCue?_view builds

namespace Renderer

/-! The frames of both documents are those of trees of one shader, which can be drawn here. -/

/-- A renderer with standing programs, on a device without peculiarities. -/
def stocked : Renderer NoLoader :=
  let sources : List (Handle × String) := [(1, ShaderLibrary.copy "300 es"),
    (2, (WrappedSource.layer "300 es" ShaderLibrary.texture none).text),
    (3, (WrappedSource.layer "300 es" ShaderLibrary.checkerboard none).text)]
  { bare with
    device := {
      nextHandle := 4
      linkedFrom := ⟨sources⟩
      programs := ⟨sources.map fun entry => (entry.1, declaredUniforms entry.2.toList)⟩
      locations := [(1, "gTexture"), (1, "gFlipY"), (2, "gTexture")] }
    programs := {
      builder := ⟨"300 es", 0⟩
      copy := ⟨1, 0, 1⟩
      texture := ⟨2, 2, {}⟩
      checkerboard := ⟨3, {}⟩ } }

theorem stocked_equipped : stocked.Equipped {} where
  programs := by
    have handles : Device.spent 0 stocked.device.linkedFrom.entries stocked.device.deletions =
        ([1, 2, 3] : List Handle) := rfl
    refine ⟨0, stocked.device.linkedFrom.entries,
      ⟨rfl, rfl, rfl, (Multiset.map_coe _ _).symm, ?_, ?_⟩, ?_⟩
    · rw [handles]
      decide
    · rw [handles]
      decide
    · intro program inside
      have known : stocked.programs.handles = stocked.device.linkedFrom.entries.map Prod.fst := rfl
      rw [known] at inside
      obtain ⟨⟨_, source⟩, there, rfl⟩ := List.mem_map.mp inside
      exact ⟨source, Multiset.mem_coe.mpr there⟩
  locations := by decide

/-- A tree of one shader that has all uniforms that every layer has, and others of its own. -/
def loneShader (id : String) (uniforms : List Uniform) : CompiledTree where
  layers := [{
    id, name := "", parent := none, visible := true, blend := .normal, opacity := 1
    uniforms := uniforms.mapIdx fun index uniform => { uniform with location := some (17 + index) }
    kind := .shader {
      program := some 4
      builtins := {
        resolution := some 3, time := some 4, deltaTime := some 5, frame := some 6
        pointer := some 7, date := some 8, previousLayer := some 9, blendMode := some 10
        opacity := some 11, audioVolume := some 12, audioPeak := some 13, audioTrough := some 14
        audioReactive := some 15, audioSpectrum := some 16 } } }]
  scene := none
  builder := default

/-- What the program and the locations of the tree stand for. -/
def loneLexicon (text : String) (names : List String) : Lexicon where
  linkedFrom := stocked.device.linkedFrom.set 4 text
  locations := stocked.device.locations ++
    (BuiltinLocations.names ++ names).map fun name => (4, name)

theorem loneLexicon_speaks (text : String) (names : List String) :
    stocked.Speaks (loneLexicon text names) where
  programs := by
    have other : ∀ program ∈ stocked.programs.handles, program ≠ 4 := by decide
    intro program inside
    unfold Lexicon.source loneLexicon
    dsimp only
    rw [Table.get?_set_other _ _ (other program inside)]
    rfl
  locations := by
    intro location inside
    have known : location < stocked.device.locations.length :=
      stocked_equipped.locations location inside
    unfold Lexicon.name loneLexicon
    dsimp only
    rw [List.getElem?_append_left known]
    rfl

theorem cues_loneShader_nil (text : String) :
    (loneLexicon text []).cues (loneShader "" []) (LayerTree.piecesIn (loneShader "" []).drawn) =
      [.shader .normal 1 (some ⟨text, BuiltinLocations.names.map some, []⟩)] :=
  rfl

theorem cues_loneShader_single (text id name : String) (uniform : Uniform) :
    (loneLexicon text [name]).cues (loneShader id [uniform])
        (LayerTree.piecesIn (loneShader id [uniform]).drawn) =
      [.shader .normal 1
        (some ⟨text, BuiltinLocations.names.map some, [⟨id, name, uniform.unplaced⟩]⟩)] :=
  rfl

/-- How many uniforms are written in each frame. -/
def writesPerFrame (shown : Except Failure (List FrameAccount)) : Except Failure (List Nat) :=
  shown.map (List.map fun account => account.said.countP fun
    | .value _ _ => true
    | _ => false)

/-- **A hidden layer that is not gone**: where a distance layer is hidden one more uniform is written
than where it is removed. -/
theorem exists_hidden_shown :
    ∃ renderer : Renderer NoLoader, renderer.Equipped {} ∧
      writesPerFrame (renderer.shown "300 es" [.frame {}] (viewOfBall.hideAt [1])) = .ok [18] ∧
        writesPerFrame (renderer.shown "300 es" [.frame {}] (viewOfBall.removeAt [1])) =
          .ok [17] := by
  refine ⟨stocked, stocked_equipped, ?_, ?_⟩
  · have uniforms : (Uniform.extract ballSource []).length = 1 := by
      have written : WrittenOut ballSource _ := .of_characters _
      rw [WrittenOut] at written
      rw [Uniform.extract, written]
      decide +kernel
    obtain ⟨uniform, only⟩ := List.length_eq_one_iff.mp uniforms
    have cues : (viewOfBall.hideAt [1]).drawnCues {} "300 es" (viewOfBall.hideAt [1]).solids =
        [.shader .normal 1
          (programCue? {} "300 es" [.node "ball" ballSource [] []] "view" viewSource [])] := rfl
    rw [@shown_eq_accounts _ _ _ DeviceTraits.steady_new _ stocked_equipped "300 es" rfl
      (viewOfBall.hideAt [1]) _ (loneLexicon_speaks
        (textFor {} "300 es" [.node "ball" ballSource [] []] viewSource) ["r_s0ball"])
      (loneShader "ball" (Uniform.extract ballSource []))
      (congrArg Cue.spreadIn (by
        rw [cues, programCue?_view_ball only, only, cues_loneShader_single]))]
    refine congrArg Except.ok ?_
    decide +kernel
  · have cues : (viewOfBall.removeAt [1]).drawnCues {} "300 es" (viewOfBall.removeAt [1]).solids =
        [.shader .normal 1 (programCue? {} "300 es" [] "view" viewSource [])] := rfl
    rw [@shown_eq_accounts _ _ _ DeviceTraits.steady_new _ stocked_equipped "300 es" rfl
      (viewOfBall.removeAt [1]) _
      (loneLexicon_speaks (textFor {} "300 es" [] viewSource) []) (loneShader "" [])
      (congrArg Cue.spreadIn (by rw [cues, programCue?_view_nil, cues_loneShader_nil]))]
    refine congrArg Except.ok ?_
    decide +kernel

end Renderer

end

end Collage
