import Collage.Proofs.Scene.Renaming
import Collage.Proofs.Uniform.Adoption

/-!
# Names that become one

A name that ends with an underscore gets its suffix without another one, so that no two
underscores come to stand in a row.  By this, a name and the same name with an underscore behind
it become one.  Such names are `Twins`, and no others are renamed alike (`mangled_eq_iff`).

For a scene this means (`merged_iff_twins`): of the names of a layer only twins become one, the
layers bind all their uniforms under different names exactly if none has uniforms that are twins,
and in the code of a layer two places show one name after the renaming exactly if they did before
or show twins.
-/

namespace Collage

namespace Mangle

/-- A name that does not end with an underscore, and the same name with one. -/
def Twins (name other : String) : Prop :=
  name.toList.getLast? ≠ some '_' ∧ other = name ++ "_"

instance (name other : String) : Decidable (Twins name other) :=
  inferInstanceAs (Decidable (_ ∧ _))

theorem not_twins_self (name : String) : ¬ Twins name name := by
  rintro ⟨_, same⟩
  have length := congrArg (·.toList.length) same
  simp at length

theorem getLast?_underscore (name : String) : (name ++ "_").toList.getLast? = some '_' := by
  rw [String.toList_append]
  exact List.getLast?_concat

/-- **Two names are renamed alike only if they are twins.** -/
theorem mangled_eq_iff {name other suffix : String} :
    mangled name suffix = mangled other suffix ↔
      name = other ∨ Twins name other ∨ Twins other name := by
  have differ {a b : String} (ends : a.toList.getLast? = some '_')
      (plain : b.toList.getLast? ≠ some '_') : a ≠ b := by
    rintro rfl
    exact plain ends
  unfold mangled Twins
  by_cases ends : name.toList.getLast? = some '_'
  · by_cases ends' : other.toList.getLast? = some '_'
    · simp [ends, ends']
    · simp [ends, ends', differ ends ends']
  · by_cases ends' : other.toList.getLast? = some '_'
    · simp [ends, ends', (differ ends' ends).symm, eq_comm]
    · have unlike : name ≠ other ++ "_" := (differ (getLast?_underscore other) ends).symm
      have unlike' : other ≠ name ++ "_" := (differ (getLast?_underscore name) ends').symm
      simp [ends, ends', unlike, unlike']

theorem suffix_injective {node later : Nat} {layerId : String}
    (same : suffix node layerId = suffix later layerId) : node = later := by
  rw [← String.toList_inj, toList_suffix, toList_suffix, List.cons_inj_right,
    List.append_left_inj] at same
  exact toDigits_injective same

/-! ### Words of a text -/

/-- A word stands in a text behind a beginning of it, and no identifier goes on at either side. -/
def HasWord (text front word : List Char) : Prop :=
  ∃ back, text = front ++ (word ++ back) ∧ front.getLast?.any isIdentifierPart = false ∧
    back.head?.any isIdentifierPart = false

/-- Behind one beginning stands one word. -/
theorem HasWord.unique {text front word other : List Char} (stands : HasWord text front word)
    (stands' : HasWord text front other) (parts : ∀ c ∈ word, isIdentifierPart c = true)
    (parts' : ∀ c ∈ other, isIdentifierPart c = true) : word = other := by
  obtain ⟨back, whole, _, behind⟩ := stands
  obtain ⟨back', whole', _, behind'⟩ := stands'
  have same := List.append_cancel_left (whole.symm.trans whole')
  have run {part rest : List Char} (parts : ∀ c ∈ part, isIdentifierPart c = true)
      (behind : rest.head?.any isIdentifierPart = false) :
      (part ++ rest).takeWhile isIdentifierPart = part := by
    rw [List.takeWhile_append_of_pos parts]
    cases rest with
    | nil => simp
    | cons c rest => simpa [List.takeWhile_cons] using behind
  rw [← run parts behind, same, run parts' behind']

/-- Where a name of the layer stands, it comes to stand with its suffix. -/
theorem EndsAt.hasWord {ends : List ℕ} {names : List String} {source front : List Char}
    {name : String} (places : EndsAt ends names source)
    (areNames : ∀ name ∈ names, IsName name.toList) (inside : name ∈ names) (suffix : String)
    (stands : HasWord source front name.toList) :
    HasWord (inserted ends suffix.toList 0 source) (inserted ends suffix.toList 0 front)
      (mangled name suffix).toList := by
  obtain ⟨back, whole, before, behind⟩ := stands
  have word : inserted ends suffix.toList (byteSize front) name.toList =
      (mangled name suffix).toList := by
    rw [places.inserted_identifier areNames whole (areNames name inside) before behind,
      String.ofList_toList, if_pos inside, Token.toList_mangled]
  refine ⟨inserted ends suffix.toList (byteSize front + byteSize name.toList) back, ?_, ?_, ?_⟩
  · rw [whole, inserted_append, inserted_append, Nat.zero_add, word]
  · rcases List.eq_nil_or_concat front with rfl | ⟨start, c, rfl⟩
    · rfl
    · -- no name ends right before another one, so nothing is put in there
      rw [List.concat_eq_append] at before whole ⊢
      rw [List.getLast?_concat, Option.any_some] at before
      rw [List.append_assoc] at whole
      have last := (places.behind areNames whole).1
      rw [inserted_append, Nat.zero_add, inserted_cons _ last before, inserted,
        List.getLast?_concat, Option.any_some, before]
  · rw [head?_inserted]
    exact behind

end Mangle

/-! ### Uniforms of a source -/

namespace Uniform

/-- The uniforms that a source declares have its names, sought in it. -/
theorem Carries.map_occurrences {source : String} {uniforms : List Uniform}
    (carries : Carries source uniforms) : (uniforms.map fun u => (u.name, u.occurrences)) =
      (declared source.toList).map fun d =>
        (d.declaration.name, Collage.occurrences source.toList d.declaration.name.toList) := by
  unfold Carries at carries
  generalize declared source.toList = declarations at carries ⊢
  induction carries with
  | nil => rfl
  | cons backs _ ih =>
    have name := congrArg Uniform.name backs.same
    have places := congrArg Uniform.occurrences backs.same
    rw [List.map_cons, List.map_cons, ih]
    exact congrArg₂ List.cons (Prod.ext name places) rfl

theorem Carries.nodup_names {source : String} {uniforms : List Uniform}
    (carries : Carries source uniforms) : (uniforms.map (·.name)).Nodup := by
  have names : uniforms.map (·.name) = (declared source.toList).map (·.declaration.name) := by
    have first := congrArg (List.map Prod.fst) carries.map_occurrences
    rwa [List.map_map, List.map_map] at first
  rw [names]
  exact nodup_declared _

end Uniform

/-! ### The names of a layer -/

namespace SceneLayer

open Mangle

/-- The names of a layer that get a suffix: its uniforms, its functions and the two functions of
every layer. -/
def names (layer : SceneLayer) : List String :=
  layer.uniforms.map (·.name) ++ (definedFunctions layer.code.toList ++ ["map", "gSdfMap"])

/-- What a beginning of the code of a layer becomes when its names get a suffix. -/
def renamed (layer : SceneLayer) (suffix : String) (front : List Char) : List Char :=
  inserted (layerEnds layer.code []) suffix.toList 0 front

/-- Some uniform of a layer is named as another one but for an underscore at the end. -/
def Twinned (layer : SceneLayer) : Prop :=
  ∃ u ∈ layer.uniforms, ∃ v ∈ layer.uniforms, Twins u.name v.name

end SceneLayer

namespace Scene

open Mangle

/-- A node of a scene and the layer it shows. -/
def NodeOf (layers : List SceneLayer) (roots : List ℕ) (node : SceneNode) (layer : SceneLayer) :
    Prop :=
  node ∈ (build layers roots).graph.nodes ∧
    ∃ index, node.owner = .layer index ∧ layers[index]? = some layer

section

variable {layers : List SceneLayer} {roots : List ℕ} {node : SceneNode} {layer : SceneLayer}

theorem NodeOf.mem (nodeOf : NodeOf layers roots node layer) : layer ∈ layers := by
  obtain ⟨_, index, _, there⟩ := nodeOf
  exact List.mem_of_getElem? there

theorem NodeOf.code (nodeOf : NodeOf layers roots node layer)
    (carries : Uniform.Carries layer.code layer.uniforms) :
    (emitNode layers node).1.code = renamedCode layer.code [] (suffix node.id layer.id) := by
  obtain ⟨_, index, owner, there⟩ := nodeOf
  rw [emitNode, owner]
  dsimp only
  rw [there]
  dsimp only
  rw [renamedCode, carries.map_occurrences, (Uniform.carries_extract _ []).map_occurrences]

theorem NodeOf.bindings (nodeOf : NodeOf layers roots node layer) :
    (emitNode layers node).2.map (·.name) =
      layer.uniforms.map fun u => mangled u.name (suffix node.id layer.id) := by
  obtain ⟨_, index, owner, there⟩ := nodeOf
  rw [emitNode, owner]
  dsimp only
  rw [there]
  exact List.ext_getElem (by simp) fun _ _ _ => by simp

/-- A node binds uniforms of the layer it shows. -/
theorem owner_of_mem_bindings {binding : SceneBinding}
    (bound : binding ∈ (emitNode layers node).2) :
    node.owner = .layer binding.layer ∧ ∃ layer, layers[binding.layer]? = some layer := by
  unfold emitNode at bound
  cases owner : node.owner with
  | union index =>
    rw [owner] at bound
    cases bound
  | layer index =>
    rw [owner] at bound
    dsimp only at bound
    cases there : layers[index]? with
    | none =>
      rw [there] at bound
      cases bound
    | some layer =>
      rw [there] at bound
      obtain ⟨_, _, rfl⟩ := List.mem_mapIdx.mp bound
      exact ⟨rfl, layer, there⟩

/-- One layer binds a name only once. -/
def Separate (one other : SceneBinding) : Prop :=
  one.layer = other.layer → one.name ≠ other.name

instance (one other : SceneBinding) : Decidable (Separate one other) :=
  inferInstanceAs (Decidable (_ → _))

/-- A node binds different names exactly if no uniforms of its layer are twins. -/
theorem NodeOf.separate_iff (nodeOf : NodeOf layers roots node layer)
    (carries : Uniform.Carries layer.code layer.uniforms) :
    (emitNode layers node).2.Pairwise Separate ↔ ¬ layer.Twinned := by
  have once := carries.nodup_names
  have names : (emitNode layers node).2.Pairwise Separate ↔
      (layer.uniforms.map fun u => mangled u.name (suffix node.id layer.id)).Nodup := by
    rw [← nodeOf.bindings, List.Nodup, List.pairwise_map]
    refine List.Pairwise.iff_of_mem fun {one other} bound bound' => ?_
    have same := (owner_of_mem_bindings bound).1.symm.trans (owner_of_mem_bindings bound').1
    exact ⟨fun apart => apart (NodeOwner.layer.inj same), fun apart _ => apart⟩
  rw [names]
  constructor
  · rintro nodup ⟨u, inside, v, inside', twins⟩
    have merged : mangled u.name (suffix node.id layer.id) =
        mangled v.name (suffix node.id layer.id) := mangled_eq_iff.mpr (.inr (.inl twins))
    obtain rfl := List.inj_on_of_nodup_map nodup inside inside' merged
    exact not_twins_self _ twins
  · intro single
    refine once.of_map.map_on fun u inside v inside' merged => ?_
    rcases mangled_eq_iff.mp merged with same | twins | twins
    · exact List.inj_on_of_nodup_map once inside inside' same
    · exact absurd ⟨u, inside, v, inside', twins⟩ single
    · exact absurd ⟨v, inside', u, inside, twins⟩ single

/-- Different nodes bind different names for one layer. -/
theorem separate_of_lt {later : SceneNode} (order : node.id < later.id) {one other : SceneBinding}
    (bound : one ∈ (emitNode layers node).2) (bound' : other ∈ (emitNode layers later).2) :
    Separate one other := by
  intro sameLayer sameName
  obtain ⟨base, name⟩ := name_of_mem_bindings bound
  obtain ⟨base', name'⟩ := name_of_mem_bindings bound'
  rw [name, name', suffixOf_eq, suffixOf_eq, (owner_of_mem_bindings bound).1,
    (owner_of_mem_bindings bound').1, sameLayer] at sameName
  have suffixes := suffix_of_mangled sameName (underscore_notMem_suffix _ _)
    (underscore_notMem_suffix _ _)
  exact absurd (suffix_injective suffixes) (Nat.ne_of_lt order)

theorem bindings_separate_iff
    (carries : ∀ layer ∈ layers, Uniform.Carries layer.code layer.uniforms) :
    (build layers roots).bindings.Pairwise Separate ↔
      ∀ node layer, NodeOf layers roots node layer → ¬ layer.Twinned := by
  have bindings : (build layers roots).bindings =
      (build layers roots).graph.nodes.flatMap fun node => (emitNode layers node).2 :=
    List.flatMap_map _ _ _
  have apart : (build layers roots).graph.nodes.Pairwise fun node later =>
      ∀ one ∈ (emitNode layers node).2, ∀ other ∈ (emitNode layers later).2, Separate one other :=
    (pairwise_id_lt _ roots).imp fun order _ bound _ bound' => separate_of_lt order bound bound'
  rw [bindings, List.pairwise_flatMap, and_iff_left apart]
  constructor
  · intro each node layer nodeOf
    exact (nodeOf.separate_iff (carries layer nodeOf.mem)).mp (each node nodeOf.1)
  · intro single node inside
    cases first : (emitNode layers node).2 with
    | nil => exact .nil
    | cons binding rest =>
      have bound : binding ∈ (emitNode layers node).2 := by rw [first]; exact List.mem_cons_self
      obtain ⟨owner, layer, there⟩ := owner_of_mem_bindings bound
      have nodeOf : NodeOf layers roots node layer := ⟨inside, _, owner, there⟩
      rw [← first]
      exact (nodeOf.separate_iff (carries layer nodeOf.mem)).mpr (single node layer nodeOf)

theorem NodeOf.toList_code (nodeOf : NodeOf layers roots node layer)
    (carries : Uniform.Carries layer.code layer.uniforms) :
    (emitNode layers node).1.code.toList =
      layer.renamed (suffix node.id layer.id) layer.code.toList := by
  have areNames : ∀ name ∈ layerNames layer.code [], IsName name.toList :=
    fun _ inside => isName_of_mem_layerNames inside
  rw [nodeOf.code carries, toList_renamedCode, applyFrom_eq,
    addition_of_notMem ((layerEnds_endsAt layer.code []).zero_notMem areNames), List.nil_append,
    SceneLayer.renamed]

theorem layerNames_eq (carries : Uniform.Carries layer.code layer.uniforms) :
    layerNames layer.code [] = layer.names := by
  have first := congrArg (List.map Prod.fst)
    (carries.map_occurrences.trans (Uniform.carries_extract _ []).map_occurrences.symm)
  rw [List.map_map, List.map_map] at first
  exact congrArg (· ++ _) first.symm

/-- Where a name of a layer stands in its code, the name with the suffix comes to stand. -/
theorem NodeOf.hasWord (nodeOf : NodeOf layers roots node layer)
    (carries : Uniform.Carries layer.code layer.uniforms) {name : String}
    (inside : name ∈ layer.names) {front : List Char}
    (stands : HasWord layer.code.toList front name.toList) :
    HasWord (emitNode layers node).1.code.toList
      (layer.renamed (suffix node.id layer.id) front)
      (mangled name (suffix node.id layer.id)).toList := by
  rw [nodeOf.toList_code carries]
  rw [← layerNames_eq carries] at inside
  exact (layerEnds_endsAt layer.code []).hasWord (fun _ inside => isName_of_mem_layerNames inside)
    inside _ stands

theorem part_of_mem_mangled {name : String} (isName : IsName name.toList) (node : ℕ)
    (layerId : String) :
    ∀ c ∈ (mangled name (suffix node layerId)).toList, isIdentifierPart c = true := by
  intro c inside
  rw [Token.toList_mangled, List.mem_append] at inside
  rcases inside with own | added
  · exact isName.parts c own
  · unfold insertion at added
    split at added
    · exact part_of_mem_suffix node layerId c added
    · rcases List.mem_cons.mp added with rfl | added
      · decide
      · exact part_of_mem_suffix node layerId c added

/-- One word comes to stand behind two beginnings of the code of a layer. -/
def Merged (layers : List SceneLayer) (node : SceneNode) (layer : SceneLayer)
    (front other : List Char) : Prop :=
  ∃ word : List Char, (∀ c ∈ word, isIdentifierPart c = true) ∧
    HasWord (emitNode layers node).1.code.toList
      (layer.renamed (suffix node.id layer.id) front) word ∧
    HasWord (emitNode layers node).1.code.toList
      (layer.renamed (suffix node.id layer.id) other) word

theorem NodeOf.merged_iff (nodeOf : NodeOf layers roots node layer)
    (carries : Uniform.Carries layer.code layer.uniforms) {name other : String}
    (inside : name ∈ layer.names) (inside' : other ∈ layer.names) {front front' : List Char}
    (stands : HasWord layer.code.toList front name.toList)
    (stands' : HasWord layer.code.toList front' other.toList) :
    Merged layers node layer front front' ↔
      name = other ∨ Twins name other ∨ Twins other name := by
  have isName {name : String} (inside : name ∈ layer.names) : IsName name.toList := by
    rw [← layerNames_eq carries] at inside
    exact isName_of_mem_layerNames inside
  have parts := part_of_mem_mangled (isName inside) node.id layer.id
  have parts' := part_of_mem_mangled (isName inside') node.id layer.id
  have here := nodeOf.hasWord carries inside stands
  have there := nodeOf.hasWord carries inside' stands'
  rw [← mangled_eq_iff, ← String.toList_inj]
  constructor
  · rintro ⟨word, plain, first, second⟩
    exact (here.unique first parts plain).trans (second.unique there plain parts')
  · intro same
    exact ⟨_, parts, here, same ▸ there⟩

/-- **Of the names of a layer, exactly twins become one.**  So a layer binds all its uniforms
under different names if no two of them are twins.  Where two of its names stand in its code, one
word comes to stand only if they were the same or are twins. -/
theorem merged_iff_twins (roots : List ℕ)
    (carries : ∀ layer ∈ layers, Uniform.Carries layer.code layer.uniforms) :
    (∀ layer ∈ layers, ∀ name ∈ layer.names, ∀ other ∈ layer.names, name ≠ other → ∀ node,
      (mangled name (suffix node layer.id) = mangled other (suffix node layer.id) ↔
        Twins name other ∨ Twins other name)) ∧
    ((build layers roots).bindings.Pairwise Separate ↔
      ∀ node layer, NodeOf layers roots node layer → ¬ layer.Twinned) ∧
    (∀ node layer, NodeOf layers roots node layer →
      ∀ name ∈ layer.names, ∀ other ∈ layer.names, ∀ front front',
        HasWord layer.code.toList front name.toList →
        HasWord layer.code.toList front' other.toList →
        (Merged layers node layer front front' ↔
          name = other ∨ Twins name other ∨ Twins other name)) := by
  refine ⟨?_, bindings_separate_iff carries, ?_⟩
  · intro layer _ name _ other _ different node
    rw [mangled_eq_iff, or_iff_right different]
  · intro node layer nodeOf name inside other inside' front front' stands stands'
    exact nodeOf.merged_iff (carries layer nodeOf.mem) inside inside' stands stands'

end

/-! ### Two layers -/

/-- A layer that takes no operands, with the uniforms its code declares. -/
def declaring (code : String) : SceneLayer :=
  ⟨"a", code, some ⟨.fixed 0, "c", [], {}⟩, Uniform.extract code [], []⟩

theorem carries_declaring (codes : List String) :
    ∀ layer ∈ codes.map declaring, Uniform.Carries layer.code layer.uniforms := by
  intro layer inside
  obtain ⟨code, _, rfl⟩ := List.mem_map.mp inside
  exact Uniform.carries_extract code []

/-- Two names, one of which has two underscores more: they are no twins. -/
def strangers : String :=
  unlines [
    "uniform float k;",
    "uniform float k__;",
    "gSdfResult map(inout gSdfContext c) \x7b return gSdfResult(k - k__, vec4(1)); \x7d"]

/-- Two names, one of which has an underscore more. -/
def twins : String :=
  unlines [
    "uniform float k;",
    "uniform float k_;",
    "gSdfResult map(inout gSdfContext c) \x7b return gSdfResult(k - k_, vec4(1)); \x7d"]

theorem names_strangers : (declaring strangers).names = ["k", "k__", "map", "map", "gSdfMap"] := by
  simp only [SceneLayer.names, declaring, Uniform.extract, strangers, toList_unlines,
    List.flatMap_cons, List.flatMap_nil, String.reduceToList]
  decide +kernel

theorem merged_iff_twins_strangers :
    (build [declaring strangers] [0]).bindings.Pairwise Separate ∧
      mangled "k" (suffix 0 "a") ≠ mangled "k__" (suffix 0 "a") ∧
      ∃ node, NodeOf [declaring strangers] [0] node (declaring strangers) ∧
        ¬ Merged [declaring strangers] node (declaring strangers) "uniform float ".toList
          "uniform float k;\nuniform float ".toList := by
  obtain ⟨alike, separate, merged⟩ := merged_iff_twins [0] (carries_declaring [strangers])
  have unlike : ∀ name ∈ (declaring strangers).names, ∀ other ∈ (declaring strangers).names,
      ¬ Twins name other := by
    rw [names_strangers]
    decide
  have first : "k" ∈ (declaring strangers).names := by rw [names_strangers]; decide
  have second : "k__" ∈ (declaring strangers).names := by rw [names_strangers]; decide
  have none : ¬ (Twins "k" "k__" ∨ Twins "k__" "k") := by decide
  have nodes : (build [declaring strangers] [0]).graph.nodes = [⟨0, .layer 0, []⟩] := rfl
  have nodeOf : NodeOf [declaring strangers] [0] ⟨0, .layer 0, []⟩ (declaring strangers) :=
    ⟨by rw [nodes]; exact List.mem_cons_self, 0, rfl, rfl⟩
  have stands : HasWord (declaring strangers).code.toList "uniform float ".toList "k".toList := by
    refine ⟨(declaring strangers).code.toList.drop 15, ?_⟩
    simp only [declaring, strangers, toList_unlines, List.flatMap_cons, List.flatMap_nil,
      String.reduceToList]
    decide +kernel
  have stands' : HasWord (declaring strangers).code.toList
      "uniform float k;\nuniform float ".toList "k__".toList := by
    refine ⟨(declaring strangers).code.toList.drop 34, ?_⟩
    simp only [declaring, strangers, toList_unlines, List.flatMap_cons, List.flatMap_nil,
      String.reduceToList]
    decide +kernel
  refine ⟨separate.mpr ?_, ?_, _, nodeOf, ?_⟩
  · rintro node layer shown ⟨u, inside, v, inside', twins⟩
    obtain rfl := List.mem_singleton.mp shown.mem
    exact unlike _ (List.mem_append_left _ (List.mem_map_of_mem inside)) _
      (List.mem_append_left _ (List.mem_map_of_mem inside')) twins
  · exact mt (alike _ List.mem_cons_self "k" first "k__" second (by decide) 0).mp none
  · refine mt (merged _ _ nodeOf "k" first "k__" second _ _ stands stands').mp ?_
    rintro (same | twins)
    · exact absurd same (by decide)
    · exact none twins

/-- Twins become one name. -/
theorem exists_merged :
    (¬ ∀ name ∈ (declaring twins).names, ∀ other ∈ (declaring twins).names, name ≠ other →
      mangled name (suffix 0 (declaring twins).id) ≠
        mangled other (suffix 0 (declaring twins).id)) ∧
    ¬ (build [declaring twins] [0]).bindings.Pairwise Separate := by
  have names : (declaring twins).names = ["k", "k_", "map", "map", "gSdfMap"] := by
    simp only [SceneLayer.names, declaring, Uniform.extract, twins, toList_unlines,
      List.flatMap_cons, List.flatMap_nil, String.reduceToList]
    decide +kernel
  refine ⟨fun apart => ?_, by decide +kernel⟩
  rw [names] at apart
  exact apart "k" (by decide) "k_" (by decide) (by decide) (by decide)

end Scene
end Collage
