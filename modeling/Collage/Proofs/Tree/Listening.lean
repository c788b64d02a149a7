import Collage.Proofs.Tree.Places
import Collage.Proofs.Tree.Values

/-!
# Which layers listen to sound

A layer listens by itself when its code asks for sound or one of its values follows it
(`ListensItself`), and through others when it includes a scene with a distance layer that
listens, or holds a layer that does (`ListensThrough`).  A tree is truthful when its flags
say just that (`Truthful`).

Compiling gives truthful trees; edits leave the flags alone, so that an edited tree is
truthful just as long as its layers that do not listen through others listen by themselves
when they did before (`truthful_edits_iff`).
-/

namespace Collage

open Collage.Action

/-- Whether a layer is a shader that includes the scene. -/
def CompiledLayer.includesScene (layer : CompiledLayer) : Bool :=
  match layer.kind with
  | .shader shader => shader.usesScene
  | _ => false

/-- A layer without its uniforms. -/
def CompiledLayer.valueless (layer : CompiledLayer) : CompiledLayer :=
  { layer with uniforms := [] }

namespace CompiledTree

/-! ### What is said of a tree -/

/-- Whether the code of a layer or one of the values that it has now asks for sound. -/
def ListensItself (placed : PlacedLayer) (layer : CompiledLayer) : Prop :=
  (∃ source, placed.layer.source? = some source ∧
    mentions source.toList "gAudio".toList = true) ∨
  ∃ value ∈ layer.values, value.usesAudio = true

/-- Whether a layer among others includes a scene in which a layer listens, or holds a layer
that listens. -/
def ListensThrough (layers : List CompiledLayer) (layer : CompiledLayer) : Prop :=
  (layer.includesScene = true ∧
    ∃ other ∈ layers, other.isDistance = true ∧ other.usesAudio = true) ∨
  ∃ child ∈ layer.children, ∃ inner, layers[child]? = some inner ∧ inner.usesAudio = true

/-- Whether the flags of a tree tell which layers listen, and that of the root whether any
does. -/
structure Truthful (document : Layer) (tree : CompiledTree) : Prop where
  layers : List.Forall₂ (fun placed layer =>
    layer.usesAudio = true ↔ ListensItself placed layer ∨ ListensThrough tree.layers layer)
    document.placed tree.layers
  root : tree.usesAudio = true ↔ ∃ layer ∈ tree.layers, layer.usesAudio = true

/-- Whether the flag of the root is right can be told from the flags alone. -/
theorem root_iff {tree : CompiledTree} :
    (tree.usesAudio = true ↔ ∃ layer ∈ tree.layers, layer.usesAudio = true) ↔
      ((tree.layers.map (·.usesAudio))[0]? = some true ↔
        true ∈ tree.layers.map (·.usesAudio)) := by
  rw [CompiledTree.usesAudio, Option.any_eq_true, List.getElem?_map, Option.map_eq_some_iff,
    List.mem_map]
  rfl

/-! ### Before listening is spread -/

/-- A compiled layer that only tells whether it listens by itself. -/
structure Candid (placed : PlacedLayer) (layer : CompiledLayer) : Prop where
  children : layer.children = placed.holds
  distance : layer.isDistance = placed.layer.isDistance
  itself : layer.usesAudio = true ↔ ListensItself placed layer

theorem listens_iff {placed : PlacedLayer} {layer : CompiledLayer} {source : String}
    (given : placed.layer.source? = some source) :
    listens source layer.uniforms = true ↔ ListensItself placed layer := by
  simp [listens, ListensItself, CompiledLayer.values, given]

theorem itself_iff {placed : PlacedLayer} {layer : CompiledLayer} {source : String}
    (given : placed.layer.source? = some source)
    (own : layer.usesAudio = listens source layer.uniforms) :
    layer.usesAudio = true ↔ ListensItself placed layer := by
  rw [own, listens_iff given]

theorem listens_unplaced (source : String) (uniforms : List Uniform) :
    listens source (uniforms.map Uniform.unplaced) = listens source uniforms := by
  rw [listens, List.any_map]
  rfl

variable {builder : ProgramBuilder} {legacy : Legacy}

/-- After the first pass only layers of the last one are not done. -/
def Primed (placed : PlacedLayer) (layer : CompiledLayer) : Prop :=
  match placed.layer with
  | .code .. => layer.isDistance = false ∧ layer.children = []
  | _ => Candid placed layer

theorem compileDistance_primed (legacy : Legacy) (placed : PlacedLayer) (device : Device) :
    Primed placed (compileDistance builder legacy placed device).1 := by
  obtain ⟨layer, parent, children⟩ := placed
  cases layer with
  | group head blend opacity inside =>
    refine ⟨rfl, rfl, iff_of_false Bool.false_ne_true ?_⟩
    rintro (⟨source, none, -⟩ | ⟨value, inside, -⟩)
    · cases none
    · cases inside
  | code language head blend opacity source values => cases language <;> exact ⟨rfl, rfl⟩
  | distance head source values operands =>
    obtain ⟨signature, errors, made⟩ := compileDistance_distance builder legacy head source
      values operands parent children device
    rw [made]
    exact ⟨rfl, rfl, itself_iff rfl rfl⟩

theorem compileCode_candid (scene : Option Scene) (placed : PlacedLayer) {start : CompiledLayer}
    (primed : Primed placed start) (state : BuildState) :
    Candid placed (compileCode builder legacy scene (placed, start) state).1 := by
  obtain ⟨layer, parent, children⟩ := placed
  cases layer with
  | group head blend opacity inside => exact primed
  | distance head source values operands => exact primed
  | code language head blend opacity source values =>
    obtain ⟨apart, leaf⟩ := primed
    cases language with
    | script => exact ⟨leaf, apart, itself_iff rfl rfl⟩
    | shader =>
      obtain ⟨uniforms, errors, program, made, -⟩ := compileShader_made scene
        (.code .shader head blend opacity source values) source start state
      rw [compileCode_shader, made]
      exact ⟨rfl, rfl, itself_iff rfl rfl⟩

/-! ### Spreading -/

theorem forall₂_iff_getElem? {α β : Type} {R : α → β → Prop} {as : List α} {bs : List β} :
    List.Forall₂ R as bs ↔
      as.length = bs.length ∧ ∀ (i : Nat) a b, as[i]? = some a → bs[i]? = some b → R a b := by
  rw [List.forall₂_iff_get]
  refine and_congr_right fun _ => ⟨fun each i a b first second => ?_, fun each i _ _ =>
    each i _ _ (List.getElem?_eq_getElem _) (List.getElem?_eq_getElem _)⟩
  obtain ⟨short, rfl⟩ := List.getElem?_eq_some_iff.mp first
  obtain ⟨short', rfl⟩ := List.getElem?_eq_some_iff.mp second
  exact each i short short'

theorem exists_getElem?_of_forall₂ {α β : Type} {R : α → β → Prop} {as : List α} {bs : List β}
    (related : List.Forall₂ R as bs) {i : Nat} {b : β} (found : bs[i]? = some b) :
    ∃ a, as[i]? = some a ∧ R a b := by
  have short := (List.getElem?_eq_some_iff.mp found).1
  have first := List.getElem?_eq_getElem (related.length_eq ▸ short : i < as.length)
  exact ⟨_, first, (forall₂_iff_getElem?.mp related).2 i _ b first found⟩

theorem getElem?_spreadAudioFrom (sceneAudio : Bool) :
    ∀ (layers : List CompiledLayer) (place i : Nat),
      (spreadAudioFrom sceneAudio place layers)[i]? = layers[i]?.map fun layer =>
        { layer with
          usesAudio := listensWith sceneAudio (place + i) layer
            ((spreadAudioFrom sceneAudio place layers).drop (i + 1)) }
  | [], place, i => rfl
  | layer :: rest, place, 0 => rfl
  | layer :: rest, place, i + 1 => by
    rw [spreadAudioFrom, List.getElem?_cons_succ, List.getElem?_cons_succ, List.drop_succ_cons,
      getElem?_spreadAudioFrom sceneAudio rest (place + 1) i, Nat.add_right_comm place 1 i]
    rfl

/-- What is found behind a layer is found among all, as what it holds stands behind it. -/
theorem listensWith_iff {sceneAudio : Bool} {place : Nat} {layer : CompiledLayer}
    {all : List CompiledLayer} (later : ∀ child ∈ layer.children, place < child) :
    listensWith sceneAudio place layer (all.drop (place + 1)) = true ↔
      layer.usesAudio = true ∨ (layer.includesScene = true ∧ sceneAudio = true) ∨
        ∃ child ∈ layer.children, ∃ inner, all[child]? = some inner ∧ inner.usesAudio = true := by
  have behind : ∀ child ∈ layer.children,
      (all.drop (place + 1))[child - (place + 1)]? = all[child]? := by
    intro child inside
    rw [List.getElem?_drop, Nat.add_sub_cancel' (later child inside)]
  have through : (layer.children.any fun child =>
      ((all.drop (place + 1))[child - (place + 1)]?).any (·.usesAudio)) = true ↔
      ∃ child ∈ layer.children, ∃ inner, all[child]? = some inner ∧ inner.usesAudio = true := by
    rw [List.any_eq_true]
    refine exists_congr fun child => and_congr_right fun inside => ?_
    rw [behind child inside, Option.any_eq_true]
  unfold listensWith
  rw [Bool.or_eq_true, Bool.or_eq_true, through, or_assoc]
  obtain ⟨_, _, _, _, _, _, _, _, _, kind⟩ := layer
  cases kind <;> simp [CompiledLayer.includesScene]

variable {document : Layer} {layers : List CompiledLayer}

/-- Whether a distance layer listens by itself. -/
def sceneListens (layers : List CompiledLayer) : Bool :=
  layers.any fun layer => layer.isDistance && layer.usesAudio

theorem sceneListens_iff {layers : List CompiledLayer} : sceneListens layers = true ↔
    ∃ layer ∈ layers, layer.isDistance = true ∧ layer.usesAudio = true := by
  simp [sceneListens]

/-- **One layer** after spreading. -/
theorem spreadAudio_each (candid : List.Forall₂ Candid document.placed layers) {place : Nat}
    {done : CompiledLayer} (found : (spreadAudio layers)[place]? = some done) :
    ∃ layer placed, layers[place]? = some layer ∧ document.placed[place]? = some placed ∧
      Candid placed layer ∧ done = { layer with usesAudio := done.usesAudio } ∧
      (done.usesAudio = true ↔ layer.usesAudio = true ∨
        (layer.includesScene = true ∧ sceneListens layers = true) ∨
        ∃ child ∈ layer.children, ∃ inner, (spreadAudio layers)[child]? = some inner ∧
          inner.usesAudio = true) := by
  rw [spreadAudio, getElem?_spreadAudioFrom, Nat.zero_add] at found
  obtain ⟨layer, there, rfl⟩ := Option.map_eq_some_iff.mp found
  obtain ⟨placed, known, honest⟩ := exists_getElem?_of_forall₂ candid there
  refine ⟨layer, placed, there, known, honest, rfl, listensWith_iff fun child inside => ?_⟩
  rw [honest.children] at inside
  obtain ⟨i, -, later, rfl, -⟩ := document.nested_placed.inside place placed known child inside
  rwa [Nat.zero_add]

/-- A distance layer listens through the layers it holds only when one of them listens by
itself. -/
theorem sceneListens_of_spread (candid : List.Forall₂ Candid document.placed layers)
    (place : Nat) {done : CompiledLayer} (found : (spreadAudio layers)[place]? = some done)
    (distance : done.isDistance = true) (listens : done.usesAudio = true) :
    sceneListens layers = true := by
  obtain ⟨layer, placed, there, known, honest, same, which⟩ := spreadAudio_each candid found
  have isDistance : layer.isDistance = true := by
    rw [same] at distance
    exact distance
  rcases which.mp listens with itself | ⟨includes, -⟩ | ⟨child, inside, inner, held, hears⟩
  · exact sceneListens_iff.mpr ⟨layer, List.mem_of_getElem? there, isDistance, itself⟩
  · obtain ⟨_, _, _, _, _, _, _, _, _, kind⟩ := layer
    cases kind <;> first | cases includes | cases isDistance
  · -- distance layers hold only such layers, which stand later
    rw [honest.children] at inside
    obtain ⟨i, other, later, rfl, its, fits⟩ :=
      document.nested_placed.inside place placed known child inside
    rw [Nat.zero_add] at held
    have short := (List.getElem?_eq_some_iff.mp its).1
    refine sceneListens_of_spread candid i held ?_ hears
    obtain ⟨before, other, -, known, honest', same, -⟩ := spreadAudio_each candid held
    cases its.symm.trans known
    rw [← honest.distance, isDistance] at fits
    rw [same]
    exact honest'.distance.trans fits
termination_by document.placed.length - place

theorem root_listens (candid : List.Forall₂ Candid document.placed layers) (place : Nat)
    {done : CompiledLayer} (found : (spreadAudio layers)[place]? = some done)
    (listens : done.usesAudio = true) :
    ∃ root, (spreadAudio layers)[0]? = some root ∧ root.usesAudio = true := by
  obtain ⟨layer, placed, there, known, -⟩ := spreadAudio_each candid found
  have short := (List.getElem?_eq_some_iff.mp known).1
  rcases document.nested_placed.held place short with outermost | ⟨j, earlier, holder, its, inside⟩
  · obtain rfl : place = 0 := by simpa using outermost
    exact ⟨done, found, listens⟩
  · have bound : j < (spreadAudio layers).length := earlier.trans (List.getElem?_eq_some_iff.mp found).1
    have held := List.getElem?_eq_getElem bound
    refine root_listens candid j held ?_
    obtain ⟨before, other, -, known', honest, -, which⟩ := spreadAudio_each candid held
    cases its.symm.trans known'
    rw [Nat.zero_add, ← honest.children] at inside
    exact which.mpr (.inr (.inr ⟨place, inside, done, found, listens⟩))

theorem length_spreadAudio (layers : List CompiledLayer) :
    (spreadAudio layers).length = layers.length := by
  have same := congrArg List.length (map_spreadAudio CompiledLayer.id (fun _ _ => rfl) layers)
  rwa [List.length_map, List.length_map] at same

theorem sceneListens_spread (candid : List.Forall₂ Candid document.placed layers) :
    sceneListens layers = true ↔
      ∃ other ∈ spreadAudio layers, other.isDistance = true ∧ other.usesAudio = true := by
  constructor
  · intro hears
    obtain ⟨layer, inside, distance, itself⟩ := sceneListens_iff.mp hears
    obtain ⟨place, found⟩ := List.getElem?_of_mem inside
    have short := (List.getElem?_eq_some_iff.mp found).1
    have spread := List.getElem?_eq_getElem (length_spreadAudio layers ▸ short)
    obtain ⟨_, _, there, -, -, same, which⟩ := spreadAudio_each candid spread
    cases found.symm.trans there
    refine ⟨_, List.mem_of_getElem? spread, ?_, which.mpr (.inl itself)⟩
    rw [same]
    exact distance
  · rintro ⟨other, inside, distance, listens⟩
    obtain ⟨place, found⟩ := List.getElem?_of_mem inside
    exact sceneListens_of_spread candid place found distance listens

/-- **Spreading** makes candid layers truthful. -/
theorem truthful_spreadAudio (candid : List.Forall₂ Candid document.placed layers)
    (scene : Option Scene) (builder : ProgramBuilder) :
    Truthful document ⟨spreadAudio layers, scene, builder⟩ where
  layers := by
    refine forall₂_iff_getElem?.mpr ⟨candid.length_eq.trans (length_spreadAudio layers).symm,
      fun place placed done known found => ?_⟩
    obtain ⟨layer, other, -, known', honest, same, which⟩ := spreadAudio_each candid found
    cases known.symm.trans known'
    rw [which, sceneListens_spread candid, honest.itself, same]
    rfl
  root := by
    rw [root_iff]
    refine ⟨List.mem_of_getElem?, fun inside => ?_⟩
    obtain ⟨layer, inside, listens⟩ := List.mem_map.mp inside
    obtain ⟨place, found⟩ := List.getElem?_of_mem inside
    obtain ⟨root, first, listens⟩ := root_listens candid place found listens
    rw [List.getElem?_map, first, Option.map_some, listens]

theorem shape_of_compile {previous : Option CompiledTree} {version : String}
    {device after : Device} {tree : CompiledTree}
    (compiled : (compile document previous version).runOn device = (.ok tree, after)) :
    List.Forall₂ (fun placed layer =>
      layer.children = placed.holds ∧ layer.isDistance = placed.layer.isDistance)
      document.placed tree.layers := by
  obtain ⟨codes, spread, candid⟩ := compile_each Primed Candid compiled
    (fun _ placed state => compileDistance_primed _ placed state)
    fun _ scene placed _ state primed => compileCode_candid scene placed primed state
  refine forall₂_iff_getElem?.mpr ⟨candid.length_eq.trans ?_, fun place placed done known found => ?_⟩
  · rw [spread, length_spreadAudio]
  · rw [spread] at found
    obtain ⟨layer, other, -, known', honest, same, -⟩ := spreadAudio_each candid found
    cases known.symm.trans known'
    rw [same]
    exact ⟨honest.children, honest.distance⟩

theorem truthful_of_compile {previous : Option CompiledTree} {version : String}
    {device after : Device} {tree : CompiledTree}
    (compiled : (compile document previous version).runOn device = (.ok tree, after)) :
    Truthful document tree := by
  obtain ⟨codes, spread, candid⟩ := compile_each Primed Candid compiled
    (fun _ placed state => compileDistance_primed _ placed state)
    fun _ scene placed _ state primed => compileCode_candid scene placed primed state
  obtain ⟨layers, scene, builder⟩ := tree
  dsimp only at spread
  rw [spread]
  exact truthful_spreadAudio candid scene builder

/-! ### Edits -/

theorem valueless_edits (tree : CompiledTree) (changes : List (String × ShaderValue)) :
    (tree.edits changes).layers.map CompiledLayer.valueless =
      tree.layers.map CompiledLayer.valueless := by
  unfold edits
  induction changes generalizing tree with
  | nil => rfl
  | cons change changes ih =>
    rw [List.foldl_cons, ih, edit]
    split
    · rename_i done
      exact map_setValue CompiledLayer.valueless (fun _ _ => rfl) done
    · rfl

/-- Listening through others has nothing to do with uniforms. -/
theorem listensThrough_valueless (layers : List CompiledLayer) (layer : CompiledLayer) :
    ListensThrough (layers.map CompiledLayer.valueless) layer.valueless ↔
      ListensThrough layers layer := by
  unfold ListensThrough
  refine or_congr (and_congr_right fun _ => ?_)
    (exists_congr fun child => and_congr_right fun _ => ?_)
  · simp only [List.mem_map, exists_exists_and_eq_and]
    rfl
  · simp only [List.getElem?_map, Option.map_eq_some_iff, exists_exists_and_eq_and]
    rfl

/-- A tree with the flags of a truthful one. -/
theorem Truthful.iff_of_valueless {tree edited : CompiledTree} (truthful : Truthful document tree)
    (same : edited.layers.map CompiledLayer.valueless = tree.layers.map CompiledLayer.valueless) :
    Truthful document edited ↔
      ∀ (place : Nat) placed before later, document.placed[place]? = some placed →
        tree.layers[place]? = some before → edited.layers[place]? = some later →
        ¬ListensThrough tree.layers before →
        (ListensItself placed later ↔ ListensItself placed before) := by
  have length : edited.layers.length = tree.layers.length := by
    simpa using congrArg List.length same
  have flags : edited.layers.map (·.usesAudio) = tree.layers.map (·.usesAudio) := by
    simpa [Function.comp_def, CompiledLayer.valueless] using congrArg (List.map (·.usesAudio)) same
  -- what the flags and the layers around a layer say is what they said
  have each : ∀ {place : Nat} {before later}, tree.layers[place]? = some before →
      edited.layers[place]? = some later → later.usesAudio = before.usesAudio ∧
        (ListensThrough edited.layers later ↔ ListensThrough tree.layers before) := by
    intro place before later there here
    have one := congrArg (·[place]?) same
    simp only [List.getElem?_map, there, here, Option.map_some, Option.some.injEq] at one
    refine ⟨congrArg (·.usesAudio) one, ?_⟩
    rw [← listensThrough_valueless edited.layers, ← listensThrough_valueless tree.layers, same, one]
  constructor
  · intro honest place placed before later known there here silent
    obtain ⟨flag, through⟩ := each there here
    have old := (forall₂_iff_getElem?.mp truthful.layers).2 place placed before known there
    have new := (forall₂_iff_getElem?.mp honest.layers).2 place placed later known here
    rw [through, flag, old, or_iff_left silent, or_iff_left silent] at new
    exact new.symm
  · intro steady
    refine ⟨forall₂_iff_getElem?.mpr ⟨truthful.layers.length_eq.trans length.symm,
      fun place placed later known here => ?_⟩, ?_⟩
    · have short := (List.getElem?_eq_some_iff.mp here).1
      have there := List.getElem?_eq_getElem (length ▸ short : place < tree.layers.length)
      obtain ⟨flag, through⟩ := each there here
      have old := (forall₂_iff_getElem?.mp truthful.layers).2 place placed _ known there
      rw [through, flag, old]
      exact or_congr_left' fun silent =>
        (steady place placed _ later known there here silent).symm
    · rw [root_iff, flags, ← root_iff]
      exact truthful.root

/-- **The flags after edits.**  A compiled tree is truthful.  After any edits it is so just
when every layer that does not listen through others listens by itself as it did when it was
compiled. -/
theorem truthful_edits_iff {previous : Option CompiledTree} {version : String}
    {device after : Device} {tree : CompiledTree}
    (compiled : (compile document previous version).runOn device = (.ok tree, after)) :
    Truthful document tree ∧ ∀ changes : List (String × ShaderValue),
      Truthful document (tree.edits changes) ↔
        ∀ (place : Nat) placed before later, document.placed[place]? = some placed →
          tree.layers[place]? = some before → (tree.edits changes).layers[place]? = some later →
          ¬ListensThrough tree.layers before →
          (ListensItself placed later ↔ ListensItself placed before) :=
  have truthful := truthful_of_compile compiled
  ⟨truthful, fun changes => truthful.iff_of_valueless (valueless_edits tree changes)⟩

/-- A shader layer that was compiled on a new device. -/
theorem truthful_edits_iff_speed :
    ∃ tree after, (compile (Workshop.speedLayer []) none "300 es").runOn {} = (.ok tree, after) ∧
      Truthful (Workshop.speedLayer []) tree ∧ ∀ changes : List (String × ShaderValue),
        Truthful (Workshop.speedLayer []) (tree.edits changes) ↔
          ∀ (place : Nat) placed before later,
            (Workshop.speedLayer []).placed[place]? = some placed →
            tree.layers[place]? = some before →
            (tree.edits changes).layers[place]? = some later →
            ¬ListensThrough tree.layers before →
            (ListensItself placed later ↔ ListensItself placed before) := by
  obtain ⟨tree, after, compiled, -⟩ := Workshop.compile_speedLayer []
  exact ⟨tree, after, compiled, truthful_edits_iff compiled⟩

/-- A value for the uniform of a shader layer that follows the volume. -/
def louder : String × ShaderValue :=
  ("a", ⟨"speed", .float 2.5, some ⟨0, 1, .audioVolume⟩⟩)

/-- A layer that begins to follow the volume is still said not to listen. -/
theorem exists_untruthful :
    ∃ tree after, (compile (Workshop.speedLayer []) none "300 es").runOn {} = (.ok tree, after) ∧
      ¬Truthful (Workshop.speedLayer []) (tree.edits [louder]) := by
  obtain ⟨tree, after, compiled, -⟩ := Workshop.compile_speedLayer []
  refine ⟨tree, after, compiled, ?_⟩
  have placed : (Workshop.speedLayer []).placed = [⟨Workshop.speedLayer [], none, []⟩] := rfl
  have content := compile_content compiled
  rw [placed] at content
  obtain ⟨edited, layer, uniform, done, single, -, -, only, value⟩ :=
    setValue_speed (some ⟨0, 1, .audioVolume⟩) content
  have isEdited : tree.edits [louder] = edited := by
    change edit _ louder = _
    unfold edit louder
    rw [done]
  obtain ⟨before, one, content⟩ := List.map_eq_singleton_iff.mp content
  have shape := shape_of_compile compiled
  rw [placed, one] at shape
  obtain ⟨⟨leaf, flat⟩, -⟩ := List.forall₂_cons.mp shape
  have silent : ¬ListensThrough tree.layers before := by
    rw [one]
    rintro (⟨-, other, inside, distance, -⟩ | ⟨child, inside, -⟩)
    · rw [List.mem_singleton.mp inside, flat] at distance
      cases distance
    · rw [leaf] at inside
      cases inside
  have mute : ¬ListensItself ⟨Workshop.speedLayer [], none, []⟩ before := by
    have known : before.uniforms.map Uniform.unplaced =
      Uniform.extract "uniform float speed;" [] := congrArg (·.2.2) content
    have quiet : listens "uniform float speed;" (Uniform.extract "uniform float speed;" []) =
      false := rfl
    rw [← known, listens_unplaced] at quiet
    intro loud
    cases quiet.symm.trans ((listens_iff rfl).mpr loud)
  intro honest
  have loud : ListensItself ⟨Workshop.speedLayer [], none, []⟩ layer := by
    refine .inr ⟨uniform.value, ?_, by rw [value]; rfl⟩
    rw [CompiledLayer.values, only]
    exact List.mem_singleton.mpr rfl
  refine mute (((truthful_of_compile compiled).iff_of_valueless
    (valueless_edits tree [louder])).mp honest 0 _ before layer (congrArg (·[0]?) placed)
    (congrArg (·[0]?) one) ?_ silent |>.mp loud)
  rw [isEdited, single]
  rfl

end CompiledTree
end Collage
