import Collage.Proofs.Tree.Cues

/-!
# Documents edited at a path

A layer of a document is given by a path: the indices of the layers to go into.  `editAt` puts
layers in the place of one.  Two edits come to the same if they are the same where the path leads
(`editAt_congr`), they leave the same scene if they put the same distance layers there
(`solids_editAt`), and the same is drawn if the same is drawn of what they put there, but for groups
that are seen through (`drawnCues_editAt`).
-/

namespace Collage
namespace Layer

/-! ### Layers by their paths -/

/-- The layer with other layers inside; code stays as it is. -/
def withChildren (layers : List Layer) : Layer → Layer
  | group head blend opacity _ => group head blend opacity layers
  | code language head blend opacity source values => code language head blend opacity source values
  | distance head source values _ => distance head source values layers

/-- The layer that a path leads to. -/
def layerAt? : List Nat → Layer → Option Layer
  | [], layer => some layer
  | index :: rest, layer => layer.children[index]?.bind (layerAt? rest)

theorem layerAt?_concat (index : Nat) : ∀ (path : List Nat) (document : Layer),
    document.layerAt? (path ++ [index]) =
      (document.layerAt? path).bind fun parent => parent.children[index]?
  | [], document => Option.bind_fun_some _
  | first :: rest, document => by
    rw [List.cons_append, layerAt?, layerAt?, Option.bind_assoc]
    exact congrArg _ (funext fun child => layerAt?_concat index rest child)

/-- Layers with others in the place of one. -/
def spliceAt (index : Nat) (edit : Layer → List Layer) (layers : List Layer) : List Layer :=
  layers.take index ++ layers[index]?.toList.flatMap edit ++ layers.drop (index + 1)

/-- The document with others in the place of the layer that a path leads to, which may depend on
whether this stands in a distance layer.  The outermost layer stays. -/
def editAt (edit : Bool → Layer → List Layer) : List Nat → Layer → Layer
  | [], layer => layer
  | [index], layer => layer.withChildren (spliceAt index (edit layer.isDistance) layer.children)
  | index :: next :: rest, layer =>
    layer.withChildren
      (spliceAt index (fun child => [editAt edit (next :: rest) child]) layer.children)

theorem isDistance_withChildren (layers : List Layer) (layer : Layer) :
    (layer.withChildren layers).isDistance = layer.isDistance := by
  cases layer <;> rfl

theorem withChildren_children (layer : Layer) : layer.withChildren layer.children = layer := by
  cases layer <;> rfl

theorem spliceAt_self {edit : Layer → List Layer} (index : Nat) (layers : List Layer)
    (same : ∀ layer ∈ layers[index]?, edit layer = [layer]) : spliceAt index edit layers = layers := by
  have here : layers[index]?.toList.flatMap edit = layers[index]?.toList := by
    cases found : layers[index]? with
    | none => rfl
    | some layer => rw [Option.toList_some, List.flatMap_singleton, same layer found]
  rw [spliceAt, here, ← List.take_add_one, List.take_append_drop]

section

variable {edit edit' : Bool → Layer → List Layer}

theorem isDistance_editAt (path : List Nat) (layer : Layer) :
    (layer.editAt edit path).isDistance = layer.isDistance := by
  unfold editAt
  split
  · rfl
  · exact isDistance_withChildren _ _
  · exact isDistance_withChildren _ _

/-- Edits that come to the same layers for the layer that a path leads to, given what it stands in,
make the same document. -/
theorem editAt_congr : ∀ (path : List Nat) (document : Layer),
    (∀ parent layer, document.layerAt? path.dropLast = some parent →
      document.layerAt? path = some layer →
      edit parent.isDistance layer = edit' parent.isDistance layer) →
    document.editAt edit path = document.editAt edit' path
  | [], _, _ => rfl
  | [index], document, same => by
    rw [editAt, editAt, spliceAt, spliceAt]
    cases found : document.children[index]? with
    | none => rfl
    | some child =>
      have equal := same document child rfl (by rw [layerAt?, found]; rfl)
      rw [Option.toList_some, List.flatMap_singleton, List.flatMap_singleton, equal]
  | index :: next :: rest, document, same => by
    rw [editAt, editAt, spliceAt, spliceAt]
    cases found : document.children[index]? with
    | none => rfl
    | some child =>
      have equal := editAt_congr (next :: rest) child fun parent layer above leads =>
        same parent layer (by rw [List.dropLast_cons_cons, layerAt?, found]; exact above)
          (by rw [layerAt?, found]; exact leads)
      rw [Option.toList_some, List.flatMap_singleton, List.flatMap_singleton, equal]

theorem editAt_self : ∀ (path : List Nat) (document : Layer),
    document.editAt (fun _ layer => [layer]) path = document
  | [], _ => rfl
  | [index], document => by
    rw [editAt, spliceAt_self index _ fun _ _ => rfl, withChildren_children]
  | index :: next :: rest, document => by
    rw [editAt, spliceAt_self index _ fun child _ => congrArg (· :: []) (editAt_self _ child),
      withChildren_children]

/-! ### The scene -/

theorem solidsIn_append (inDistance : Bool) (layers others : List Layer) :
    solidsIn inDistance (layers ++ others) =
      solidsIn inDistance layers ++ solidsIn inDistance others := by
  induction layers with
  | nil => rfl
  | cons layer rest ih =>
    rw [List.cons_append, solidsIn, solidsIn, ih, List.append_assoc]

theorem solidsIn_single {inDistance : Bool} (layer : Layer) :
    solidsIn inDistance [layer] = if fits inDistance layer then layer.solids else [] := by
  rw [solidsIn, solidsIn, List.append_nil]

theorem solidsIn_spliceAt {inDistance : Bool} {change change' : Layer → List Layer}
    (same : ∀ layer, solidsIn inDistance (change layer) = solidsIn inDistance (change' layer))
    (index : Nat) (layers : List Layer) :
    solidsIn inDistance (spliceAt index change layers) =
      solidsIn inDistance (spliceAt index change' layers) := by
  unfold spliceAt
  simp only [solidsIn_append]
  cases layers[index]? with
  | none => rfl
  | some child =>
    rw [Option.toList_some, List.flatMap_singleton, List.flatMap_singleton, same]

theorem solids_withChildren {layers others : List Layer} {layer : Layer}
    (same : solidsIn layer.isDistance layers = solidsIn layer.isDistance others) :
    (layer.withChildren layers).solids = (layer.withChildren others).solids := by
  cases layer with
  | group => exact same
  | code => rfl
  | distance => exact congrArg (fun operands => [Solid.node _ _ _ operands]) same

theorem fits_editAt (inDistance : Bool) (path : List Nat) (layer : Layer) :
    fits inDistance (layer.editAt edit path) = fits inDistance layer := by
  unfold fits
  rw [isDistance_editAt]

/-- **Layers with the same distance layers** leave the scene as it is. -/
theorem solids_editAt (same : ∀ inDistance layer,
      solidsIn inDistance (edit inDistance layer) = solidsIn inDistance (edit' inDistance layer)) :
    ∀ (path : List Nat) (document : Layer),
      (document.editAt edit path).solids = (document.editAt edit' path).solids
  | [], _ => rfl
  | [_], _ => solids_withChildren (solidsIn_spliceAt (same _) _ _)
  | index :: next :: rest, document => by
    refine solids_withChildren (solidsIn_spliceAt (fun child => ?_) _ _)
    rw [solidsIn_single, solidsIn_single, solids_editAt same (next :: rest) child, fits_editAt,
      fits_editAt]

/-! ### What is drawn -/

section

variable {traits : DeviceTraits} {version : String} {solids : List Solid}

theorem cuesIn_append (layers others : List Layer) :
    cuesIn traits version solids (layers ++ others) =
      cuesIn traits version solids layers ++ cuesIn traits version solids others := by
  induction layers with
  | nil => rfl
  | cons layer rest ih => rw [List.cons_append, cuesIn, cuesIn, ih, List.append_assoc]

theorem cuesIn_single (layer : Layer) :
    cuesIn traits version solids [layer] = cues traits version solids layer :=
  List.append_nil _

/-- Whether the same is drawn of layers, but for groups that are seen through. -/
def LooksLike (traits : DeviceTraits) (version : String) (solids : List Solid)
    (layers others : List Layer) : Prop :=
  Cue.spreadIn (cuesIn traits version solids layers) =
    Cue.spreadIn (cuesIn traits version solids others)

theorem LooksLike.spliceAt {change change' : Layer → List Layer}
    (same : ∀ layer, LooksLike traits version solids (change layer) (change' layer)) (index : Nat)
    (layers : List Layer) :
    LooksLike traits version solids (spliceAt index change layers)
      (Layer.spliceAt index change' layers) := by
  unfold LooksLike Layer.spliceAt
  simp only [cuesIn_append, Cue.spreadIn_append]
  cases layers[index]? with
  | none => rfl
  | some child =>
    rw [Option.toList_some, List.flatMap_singleton, List.flatMap_singleton, same]

/-- What is in a layer counts by what is drawn of it only, and only if it is a group. -/
theorem LooksLike.withChildren {layers others : List Layer} {layer : Layer}
    (same : layer.isDistance = false → LooksLike traits version solids layers others) :
    LooksLike traits version solids [layer.withChildren layers] [layer.withChildren others] ∧
      Cue.spreadIn (drawnCues traits version solids (layer.withChildren layers)) =
        Cue.spreadIn (drawnCues traits version solids (layer.withChildren others)) := by
  cases layer with
  | group head blend opacity children =>
    have inside := same rfl
    have whole : LooksLike traits version solids [group head blend opacity layers]
        [group head blend opacity others] := by
      unfold LooksLike at inside ⊢
      rw [cuesIn_single, cuesIn_single, cues, cues]
      split
      · simp only [Cue.spreadIn, Cue.spread, inside]
      · rfl
    refine ⟨whole, ?_⟩
    rw [Layer.withChildren, Layer.withChildren, drawnCues, drawnCues]
    split
    · exact inside
    · unfold LooksLike at whole
      rwa [cuesIn_single, cuesIn_single] at whole
  | code => exact ⟨rfl, rfl⟩
  | distance => exact ⟨rfl, rfl⟩

/-- **Layers of which the same is drawn** leave what is drawn as it is. -/
theorem looksLike_editAt
    (same : ∀ layer, LooksLike traits version solids (edit false layer) (edit' false layer)) :
    ∀ (path : List Nat) (document : Layer),
      LooksLike traits version solids [document.editAt edit path] [document.editAt edit' path] ∧
        Cue.spreadIn (drawnCues traits version solids (document.editAt edit path)) =
          Cue.spreadIn (drawnCues traits version solids (document.editAt edit' path))
  | [], _ => ⟨rfl, rfl⟩
  | [_], _ => LooksLike.withChildren fun flat => .spliceAt (fun child => flat ▸ same child) _ _
  | _ :: next :: rest, _ => LooksLike.withChildren fun _ =>
    .spliceAt (fun child => (looksLike_editAt same (next :: rest) child).1) _ _

/-- **An edit that changes neither the scene nor what is drawn** is not seen. -/
theorem drawnCues_editAt
    (scene : ∀ inDistance layer,
      solidsIn inDistance (edit inDistance layer) = solidsIn inDistance (edit' inDistance layer))
    (same : ∀ solids layer, LooksLike traits version solids (edit false layer) (edit' false layer))
    (path : List Nat) (document : Layer) :
    Cue.spreadIn (drawnCues traits version (document.editAt edit path).solids
        (document.editAt edit path)) =
      Cue.spreadIn (drawnCues traits version (document.editAt edit' path).solids
        (document.editAt edit' path)) := by
  rw [solids_editAt scene]
  exact (looksLike_editAt (same _) path document).2

end

end

end Layer
end Collage
