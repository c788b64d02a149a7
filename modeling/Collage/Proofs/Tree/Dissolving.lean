import Collage.Proofs.Frame.Showing
import Collage.Proofs.Tree.Editing

/-!
# Dissolved groups

A group is dissolved when the layers in it take its place (`dissolveAt`).  This leaves the scene as
it is, if the group does not stand in a distance layer, which would then get operands that it did
not have.  What is drawn stays the same if the group is shown, pass-through and of full opacity; so
such a group in another can be dissolved, and nothing is seen of it (`shown_dissolveAt`).
-/

namespace Collage
namespace Layer

/-- The document with the layers in a layer in the place of this. -/
def dissolveAt (path : List Nat) (document : Layer) : Layer :=
  document.editAt (fun _ layer => layer.children) path

/-- Whether a layer is a group that is seen through. -/
def isSeenThrough : Layer → Bool
  | group head blend opacity _ =>
    head.visible && decide (blend = .passThrough) && decide (opacity = 1)
  | _ => false

/-- A layer where it stands, or the layers in it if it is a group that is seen through and not in a
distance layer. -/
def dissolved (inDistance : Bool) (layer : Layer) : List Layer :=
  if !inDistance && layer.isSeenThrough then layer.children else [layer]

/-- A group is in the scene by what is in it. -/
theorem solidsIn_dissolved (inDistance : Bool) (layer : Layer) :
    solidsIn inDistance (dissolved inDistance layer) = solidsIn inDistance [layer] := by
  unfold dissolved
  split
  · next through =>
    rw [Bool.and_eq_true, Bool.not_eq_true'] at through
    obtain ⟨rfl, through⟩ := through
    cases layer with
    | group =>
      rw [solidsIn_single]
      rfl
    | code | distance => cases through
  · rfl

/-- A group that is seen through looks like what is in it. -/
theorem looksLike_dissolved {traits : DeviceTraits} {version : String} (solids : List Solid)
    (layer : Layer) : LooksLike traits version solids (dissolved false layer) [layer] := by
  unfold dissolved
  split
  · next through =>
    cases layer with
    | group head blend opacity children =>
      simp only [isSeenThrough, Bool.not_false, Bool.true_and, Bool.and_eq_true,
        decide_eq_true_iff] at through
      obtain ⟨⟨shown, rfl⟩, rfl⟩ := through
      rw [LooksLike, cuesIn_single, cues, if_pos shown, Cue.spreadIn, Cue.spread,
        if_pos ⟨rfl, rfl⟩, Cue.spreadIn, List.append_nil]
      rfl
    | code | distance => cases through
  · rfl

theorem dissolveAt_eq {path : List Nat} {index : Nat} {document : Layer} {head inner : LayerHead}
    {blend : BlendMode} {opacity : Float32} {siblings children : List Layer}
    (within : document.layerAt? path = some (group head blend opacity siblings))
    (leads : siblings[index]? = some (group inner .passThrough 1 children))
    (shown : inner.visible = true) :
    document.dissolveAt (path ++ [index]) = document.editAt dissolved (path ++ [index]) := by
  refine editAt_congr _ document fun parent layer above there => ?_
  rw [List.dropLast_concat] at above
  cases within.symm.trans above
  have same : document.layerAt? (path ++ [index]) =
      some (group inner .passThrough 1 children) := by
    rw [layerAt?_concat, within]
    exact leads
  cases same.symm.trans there
  rw [dissolved, isSeenThrough, shown]
  rfl

/-- **Nothing is seen of a dissolved group** that was seen through. -/
theorem drawnCues_dissolveAt {traits : DeviceTraits} {version : String} {path : List Nat}
    {index : Nat} {document : Layer} {head inner : LayerHead} {blend : BlendMode}
    {opacity : Float32} {siblings children : List Layer}
    (within : document.layerAt? path = some (group head blend opacity siblings))
    (leads : siblings[index]? = some (group inner .passThrough 1 children))
    (shown : inner.visible = true) :
    Cue.spreadIn (drawnCues traits version (document.dissolveAt (path ++ [index])).solids
        (document.dissolveAt (path ++ [index]))) =
      Cue.spreadIn (drawnCues traits version document.solids document) := by
  have same := @drawnCues_editAt _ _ traits version solidsIn_dissolved looksLike_dissolved
    (path ++ [index]) document
  rwa [editAt_self, ← dissolveAt_eq within leads shown] at same

end Layer

namespace Renderer

variable {ℓ : Type} [TextureLoader ℓ]

/-- **Pass-through groups of full opacity are seen through**: where such a group, shown and in
another group, is dissolved, the same is shown. -/
theorem shown_dissolveAt {traits : DeviceTraits} (steady : traits.Steady) {renderer : Renderer ℓ}
    (equipped : renderer.Equipped traits) {path : List Nat} {index : Nat} {document : Layer}
    {head inner : LayerHead} {blend : BlendMode} {opacity : Float32}
    {siblings children : List Layer}
    (within : document.layerAt? path = some (.group head blend opacity siblings))
    (leads : siblings[index]? = some (.group inner .passThrough 1 children))
    (shown : inner.visible = true) (version : String) (turns : List Turn) :
    renderer.shown version turns (document.dissolveAt (path ++ [index])) =
      renderer.shown version turns document :=
  shown_eq steady equipped (Layer.drawnCues_dissolveAt within leads shown) turns

/-- A group that is seen through in another, with a shader and a distance layer in it. -/
def enclosedPair : Layer :=
  .group ⟨"root", "", true⟩ .normal 1 [.group ⟨"pair", "", true⟩ .passThrough 1
    [.code .shader ⟨"view", "", true⟩ .multiply 0.5 "vec4 render(vec2 uv) { return vec4(1.0); }" [],
      .distance ⟨"ball", "", true⟩ "gSdfResult map(inout gSdfContext c) { return gSdfEmpty(); }" []
        []]]

/-- The shader and the distance layer are shown as if they stood in the outer group. -/
theorem shown_dissolveAt_pair :
    ∃ renderer : Renderer NoLoader, renderer.Equipped {} ∧ ∀ (version : String) (turns : List Turn),
      renderer.shown version turns (enclosedPair.dissolveAt [0]) =
        renderer.shown version turns enclosedPair := by
  obtain ⟨renderer, equipped⟩ := equipped_new
  exact ⟨renderer, equipped, @shown_dissolveAt _ _ _ DeviceTraits.steady_new _ equipped [] 0
    enclosedPair _ _ _ _ _ _ rfl rfl rfl⟩

end Renderer
end Collage
