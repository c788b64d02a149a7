import Collage.Proofs.Scene.Growth
import Collage.Scene.Emit
import Mathlib.Data.List.Pairwise

/-!
# Names in a scene

The suffix of a node is a letter, the digits of the node's id and a part of the id of
its layer, and nothing marks where the digits end.  So a suffix tells less than it is
made of: `suffix_eq_iff` says that two nodes get one suffix exactly if the digits of
one id go on in the other and the part of the layer's id makes up for it (`Clash`).

A name tells its suffix, as a suffix has no underscore (`suffix_of_mangled`).
Therefore nodes share names exactly if they share a suffix, and `names_apart_iff`
says which scenes have no nodes that do.  Different ids of layers are not enough
(`exists_shared_names`), layers whose ids begin with a letter are
(`names_apart_of_letters`).
-/

namespace Collage

namespace Mangle

/-- The part of a layer's id that stands in a suffix. -/
def tail (layerId : String) : List Char :=
  (layerId.toList.filter Char.isAlphanum).take idLimit

/-- The digits of a node's id go on in those of a later one, and the part of the first
layer's id begins with what is missing and goes on as that of the other. -/
def Clash (node later : Nat) (layerId laterId : String) : Prop :=
  ∃ digits ≠ [], Nat.toDigits 10 later = Nat.toDigits 10 node ++ digits ∧
    tail layerId = digits ++ tail laterId

theorem toList_suffix (node : Nat) (layerId : String) :
    (suffix node layerId).toList = 's' :: (Nat.toDigits 10 node ++ tail layerId) := by
  simp only [suffix, tail, String.toList_append, Nat.toString_eq_ofList_toDigits,
    String.toList_ofList, List.append_assoc]
  rfl

theorem toDigits_injective {m n : Nat} (h : Nat.toDigits 10 m = Nat.toDigits 10 n) : m = n := by
  calc
    m = Nat.ofDigitChars 10 (Nat.toDigits 10 m) 0 := Nat.ofDigitChars_ten_toDigits.symm
    _ = Nat.ofDigitChars 10 (Nat.toDigits 10 n) 0 := by rw [h]
    _ = n := Nat.ofDigitChars_ten_toDigits

/-- More digits do not make a smaller number. -/
theorem le_of_toDigits_append {m n : Nat} {digits : List Char}
    (h : Nat.toDigits 10 n = Nat.toDigits 10 m ++ digits) : m ≤ n := by
  have value : n = 10 ^ digits.length * m + Nat.ofDigitChars 10 digits 0 := by
    calc
      n = Nat.ofDigitChars 10 (Nat.toDigits 10 n) 0 := Nat.ofDigitChars_ten_toDigits.symm
      _ = Nat.ofDigitChars 10 digits m := by
        rw [h, Nat.ofDigitChars_append, Nat.ofDigitChars_ten_toDigits]
      _ = 10 ^ digits.length * m + Nat.ofDigitChars 10 digits 0 :=
        Nat.ofDigitChars_eq_ofDigitChars_zero
  have positive : 0 < 10 ^ digits.length := Nat.pow_pos (by decide)
  calc
    m ≤ 10 ^ digits.length * m := Nat.le_mul_of_pos_left m positive
    _ ≤ n := by omega

/-- **Two nodes get one suffix exactly if they clash.** -/
theorem suffix_eq_iff {node later : Nat} (order : node < later) (layerId laterId : String) :
    suffix node layerId = suffix later laterId ↔ Clash node later layerId laterId := by
  rw [← String.toList_inj, toList_suffix, toList_suffix, List.cons_inj_right,
    List.append_eq_append_iff]
  constructor
  · rintro (⟨digits, longer, same⟩ | ⟨digits, longer, _⟩)
    · refine ⟨digits, ?_, longer, same⟩
      rintro rfl
      rw [List.append_nil] at longer
      exact Nat.ne_of_lt order (toDigits_injective longer).symm
    · exact absurd (le_of_toDigits_append longer) (by omega)
  · rintro ⟨digits, _, longer, same⟩
    exact .inl ⟨digits, longer, same⟩

/-- A node and a later one do not clash if no digit begins what the first layer's id adds. -/
theorem not_clash_of_letter {node later : Nat} {layerId laterId : String}
    (letter : ∀ c ∈ (tail layerId).head?, c.isDigit = false) :
    ¬ Clash node later layerId laterId := by
  rintro ⟨digits, more, longer, same⟩
  obtain ⟨c, rest, rfl⟩ := List.exists_cons_of_ne_nil more
  have digit : c.isDigit = true := by
    refine Nat.isDigit_of_mem_toDigits (b := 10) (n := later) (by decide) (by decide) ?_
    rw [longer]
    simp
  have other := letter c (by rw [same]; rfl)
  rw [digit] at other
  cases other

/-! ### Names with their suffix -/

theorem underscore_notMem_suffix (node : Nat) (layerId : String) :
    '_' ∉ (suffix node layerId).toList := by
  rw [toList_suffix, List.mem_cons, List.mem_append]
  rintro (letter | digit | part)
  · exact absurd letter (by decide)
  · exact Nat.underscore_not_in_toDigits digit
  · exact absurd (List.mem_filter.mp (List.mem_of_mem_take part)).2 (by decide)

theorem eq_of_underscore_append {front other back more : List Char}
    (h : front ++ '_' :: back = other ++ '_' :: more) (plain : '_' ∉ back)
    (plain' : '_' ∉ more) : back = more := by
  rcases List.append_eq_append_iff.mp h with ⟨between, _, same⟩ | ⟨between, _, same⟩
  · cases between with
    | nil => exact (List.cons.inj same).2
    | cons c rest =>
      rw [List.cons_append, List.cons.injEq] at same
      exact absurd (by rw [same.2]; simp) plain
  · cases between with
    | nil => exact (List.cons.inj same).2.symm
    | cons c rest =>
      rw [List.cons_append, List.cons.injEq] at same
      exact absurd (by rw [same.2]; simp) plain'

theorem exists_toList_mangled (name suffix : String) :
    ∃ front, (mangled name suffix).toList = front ++ '_' :: suffix.toList := by
  unfold mangled
  split
  · next ends =>
    obtain ⟨front, same⟩ := List.getLast?_eq_some_iff.mp ends
    exact ⟨front, by rw [String.toList_append, same, List.append_assoc]; rfl⟩
  · exact ⟨name.toList, by
      rw [String.toList_append, String.toList_append, List.append_assoc]; rfl⟩

/-- **A name tells the suffix that was put behind it.** -/
theorem suffix_of_mangled {name other suffix suffix' : String}
    (h : mangled name suffix = mangled other suffix') (plain : '_' ∉ suffix.toList)
    (plain' : '_' ∉ suffix'.toList) : suffix = suffix' := by
  obtain ⟨front, same⟩ := exists_toList_mangled name suffix
  obtain ⟨front', same'⟩ := exists_toList_mangled other suffix'
  rw [← String.toList_inj]
  rw [← String.toList_inj, same, same'] at h
  exact eq_of_underscore_append h plain plain'

end Mangle

namespace Scene

open Mangle

/-- The id that ends the suffix of a node. -/
def ownerId (layers : List SceneLayer) : NodeOwner → String
  | .layer index => (layers[index]?.map (·.id)).getD ""
  | .union index => "union" ++ toString index

/-- The names that are made for a node: those of its two functions and those under which
its uniforms are bound. -/
def namesOf (layers : List SceneLayer) (node : SceneNode) : List String :=
  let (emitted, bindings) := emitNode layers node
  ("map_" ++ emitted.suffix) :: ("gSdfMap_" ++ emitted.suffix) :: bindings.map (·.name)

/-- The suffix of a node. -/
def suffixOf (layers : List SceneLayer) (node : SceneNode) : String :=
  (emitNode layers node).1.suffix

theorem suffixOf_eq (layers : List SceneLayer) (node : SceneNode) :
    suffixOf layers node = suffix node.id (ownerId layers node.owner) := by
  unfold suffixOf emitNode ownerId
  cases node.owner with
  | union index => rfl
  | layer index =>
    dsimp only
    cases layers[index]? <;> rfl

/-- A uniform is bound under its own name with the suffix of the node. -/
theorem name_of_mem_bindings {layers : List SceneLayer} {node : SceneNode}
    {binding : SceneBinding} (h : binding ∈ (emitNode layers node).2) :
    ∃ base, binding.name = mangled base (suffixOf layers node) := by
  unfold suffixOf
  unfold emitNode at h ⊢
  cases owner : node.owner with
  | union index =>
    rw [owner] at h
    cases h
  | layer index =>
    rw [owner] at h
    dsimp only at h ⊢
    cases found : layers[index]? with
    | none =>
      rw [found] at h
      cases h
    | some layer =>
      rw [found] at h
      obtain ⟨place, inside, rfl⟩ := List.mem_mapIdx.mp h
      exact ⟨layer.uniforms[place].name, rfl⟩

theorem mangled_of_mem_namesOf {layers : List SceneLayer} {node : SceneNode} {name : String}
    (h : name ∈ namesOf layers node) : ∃ base, name = mangled base (suffixOf layers node) := by
  rcases List.mem_cons.mp h with rfl | h
  · exact ⟨"map", rfl⟩
  · rcases List.mem_cons.mp h with rfl | h
    · exact ⟨"gSdfMap", rfl⟩
    · obtain ⟨binding, bound, rfl⟩ := List.mem_map.mp h
      exact name_of_mem_bindings bound

/-- **Nodes share a name exactly if they have one suffix.** -/
theorem disjoint_namesOf_iff (layers : List SceneLayer) (node other : SceneNode) :
    (namesOf layers node).Disjoint (namesOf layers other) ↔
      suffixOf layers node ≠ suffixOf layers other := by
  constructor
  · intro apart same
    refine apart (a := "map_" ++ suffixOf layers node) List.mem_cons_self ?_
    rw [same]
    exact List.mem_cons_self
  · intro different name shared shared'
    obtain ⟨base, rfl⟩ := mangled_of_mem_namesOf shared
    obtain ⟨base', same⟩ := mangled_of_mem_namesOf shared'
    refine different (suffix_of_mangled same ?_ ?_)
    · rw [suffixOf_eq]
      exact underscore_notMem_suffix _ _
    · rw [suffixOf_eq]
      exact underscore_notMem_suffix _ _

/-- The suffixes of two nodes clash, the first of which comes before the other. -/
def Clashes (layers : List SceneLayer) (node later : SceneNode) : Prop :=
  Clash node.id later.id (ownerId layers node.owner) (ownerId layers later.owner)

/-- Nodes of a scene stand in the order of their ids. -/
theorem pairwise_id_lt (sources : List SceneSource) (roots : List Nat) :
    (SceneGraph.build sources roots).nodes.Pairwise fun node later => node.id < later.id := by
  have placed := SceneGraph.build_placed sources roots
  rw [List.pairwise_iff_getElem]
  intro i j inside inside' order
  rw [placed i _ (List.getElem?_eq_getElem inside), placed j _ (List.getElem?_eq_getElem inside')]
  exact order

/-- Nodes of a scene have one suffix exactly if the first clashes with the other. -/
theorem suffixOf_ne_iff {layers : List SceneLayer} {node later : SceneNode}
    (order : node.id < later.id) :
    suffixOf layers node ≠ suffixOf layers later ↔ ¬ Clashes layers node later := by
  rw [suffixOf_eq, suffixOf_eq, Ne, suffix_eq_iff order, Clashes]

/-- **The nodes of a scene have suffixes of their own exactly if none of them clashes with
a later one, and so no two of them share a name.** -/
theorem names_apart_iff (layers : List SceneLayer) (roots : List Nat) :
    (((build layers roots).graph.nodes.map (suffixOf layers)).Nodup ↔
      (build layers roots).graph.nodes.Pairwise fun node later => ¬ Clashes layers node later) ∧
    ((build layers roots).graph.nodes.Pairwise
        (fun node later => (namesOf layers node).Disjoint (namesOf layers later)) ↔
      (build layers roots).graph.nodes.Pairwise fun node later =>
        ¬ Clashes layers node later) := by
  have order : (build layers roots).graph.nodes.Pairwise fun node later => node.id < later.id :=
    pairwise_id_lt _ roots
  have apart : (build layers roots).graph.nodes.Pairwise
        (fun node later => suffixOf layers node ≠ suffixOf layers later) ↔
      (build layers roots).graph.nodes.Pairwise fun node later =>
        ¬ Clashes layers node later := by
    constructor
    · intro h
      exact (h.and order).imp fun both => (suffixOf_ne_iff both.2).mp both.1
    · intro h
      exact (h.and order).imp fun both => (suffixOf_ne_iff both.2).mpr both.1
  refine ⟨?_, ?_⟩
  · rw [List.Nodup, List.pairwise_map]
    exact apart
  · simp only [disjoint_namesOf_iff]
    exact apart

theorem head?_tail_union (index : Nat) : (tail ("union" ++ toString index)).head? = some 'u' := by
  rw [tail, String.toList_append, List.filter_append]
  rfl

/-- **Where no layer's id begins with a digit, no two nodes share a name.** -/
theorem names_apart_of_letters {layers : List SceneLayer}
    (letters : ∀ layer ∈ layers, ∀ c ∈ (tail layer.id).head?, c.isDigit = false)
    (roots : List Nat) :
    (build layers roots).graph.nodes.Pairwise fun node later =>
      (namesOf layers node).Disjoint (namesOf layers later) := by
  refine (pairwise_id_lt _ roots).imp fun {node later} order => ?_
  rw [disjoint_namesOf_iff, suffixOf_ne_iff order]
  refine not_clash_of_letter ?_
  intro c first
  cases owner : node.owner with
  | union index =>
    rw [owner, ownerId, head?_tail_union] at first
    cases first
    decide
  | layer index =>
    rw [owner, ownerId] at first
    cases found : layers[index]? with
    | none =>
      rw [found] at first
      cases first
    | some layer =>
      rw [found] at first
      exact letters layer (List.mem_of_getElem? found) c first

/-- A layer that takes no operands. -/
def generator (id : String) : SceneLayer :=
  ⟨id, "", some ⟨.fixed 0, "context", [], {}⟩, [], []⟩

/-- Eleven layers, of which the second and the last one clash. -/
def clashing : List SceneLayer :=
  (["a0", "0k", "a2", "a3", "a4", "a5", "a6", "a7", "a8", "a9", "k"]).map generator

/-- **Layers with different ids may share names.** -/
theorem exists_shared_names :
    ¬ ∀ (layers : List SceneLayer) (roots : List Nat), (layers.map (·.id)).Nodup →
      ((build layers roots).graph.nodes.map (suffixOf layers)).Nodup := by
  intro apart
  have different : (clashing.map (·.id)).Nodup := by decide
  exact absurd (apart clashing (List.range 11) different) (by decide +kernel)

end Scene
end Collage
