import Collage.Proofs.Tree.Mirror

/-!
# What writing values changes

Values are written into a document by ids.  In a document whose ids are all different an id leads to
one path only (`Layer.path_eq_of_id`), so what is written for a layer of a compiled tree is written
where the layer came from, and a document with the values of a tree is the same document but for
these values (`CompiledTree.stored_writeValues`).
-/

namespace Collage
namespace Layer

/-! ### Ids along paths -/

theorem ids_eq (layer : Layer) : layer.ids = layer.id :: layer.children.flatMap ids := by
  have inside : ∀ layers : List Layer, idsIn layers = layers.flatMap ids := by
    intro layers
    induction layers with
    | nil => rw [idsIn, List.flatMap_nil]
    | cons layer rest ih => rw [idsIn, ih, List.flatMap_cons]
  cases layer with
  | group | distance =>
    rw [ids, inside]
    rfl
  | code => rw [ids]; rfl

/-- The ids in a layer are those that paths lead to. -/
theorem mem_ids_iff {id : String} {layer : Layer} :
    id ∈ layer.ids ↔ ∃ path inner, layer.layerAt? path = some inner ∧ inner.id = id := by
  induction layer using induction_children with
  | step layer each =>
    rw [ids_eq, List.mem_cons, List.mem_flatMap]
    constructor
    · rintro (rfl | ⟨child, held, inside⟩)
      · exact ⟨[], layer, rfl, rfl⟩
      · obtain ⟨index, found⟩ := List.getElem?_of_mem held
        obtain ⟨path, inner, leads, same⟩ := (each child held).mp inside
        exact ⟨index :: path, inner, by rw [layerAt?, found]; exact leads, same⟩
    · rintro ⟨path, inner, leads, rfl⟩
      cases path with
      | nil =>
        cases leads
        exact .inl rfl
      | cons index path =>
        obtain ⟨child, found, leads⟩ := Option.bind_eq_some_iff.mp leads
        have held := List.mem_of_getElem? found
        exact .inr ⟨child, held, (each child held).mpr ⟨path, inner, leads, rfl⟩⟩

theorem mem_ids_of_layerAt? {layer inner : Layer} {path : List Nat}
    (leads : layer.layerAt? path = some inner) : inner.id ∈ layer.ids :=
  mem_ids_iff.mpr ⟨path, inner, leads, rfl⟩

/-- **Where ids are all different** an id is found on one path only. -/
theorem path_eq_of_id : ∀ {layer : Layer} {path other : List Nat} {one two : Layer},
    layer.ids.Nodup → layer.layerAt? path = some one → layer.layerAt? other = some two →
    one.id = two.id → path = other
  | _, [], [], _, _, _, _, _, _ => rfl
  | layer, [], index :: other, one, two, unique, leads, leads', same => by
    cases leads
    obtain ⟨child, found, leads'⟩ := Option.bind_eq_some_iff.mp leads'
    rw [ids_eq, List.nodup_cons] at unique
    exact absurd (List.mem_flatMap.mpr ⟨child, List.mem_of_getElem? found,
      same ▸ mem_ids_of_layerAt? leads'⟩) unique.1
  | layer, index :: path, [], one, two, unique, leads, leads', same => by
    cases leads'
    obtain ⟨child, found, leads⟩ := Option.bind_eq_some_iff.mp leads
    rw [ids_eq, List.nodup_cons] at unique
    exact absurd (List.mem_flatMap.mpr ⟨child, List.mem_of_getElem? found,
      same ▸ mem_ids_of_layerAt? leads⟩) unique.1
  | layer, index :: path, index' :: other, one, two, unique, leads, leads', same => by
    obtain ⟨child, found, leads⟩ := Option.bind_eq_some_iff.mp leads
    obtain ⟨child', found', leads'⟩ := Option.bind_eq_some_iff.mp leads'
    rw [ids_eq, List.nodup_cons, List.nodup_flatMap] at unique
    obtain ⟨-, inner, apart⟩ := unique
    have step : index = index' := by
      by_contra differs
      obtain ⟨short, rfl⟩ := List.getElem?_eq_some_iff.mp found
      obtain ⟨short', rfl⟩ := List.getElem?_eq_some_iff.mp found'
      have here := mem_ids_of_layerAt? leads
      have there := mem_ids_of_layerAt? leads'
      rw [List.pairwise_iff_getElem] at apart
      rcases Nat.lt_or_gt_of_ne differs with before | after
      · exact apart index index' short short' before here (same ▸ there)
      · exact apart index' index short' short after there (same ▸ here)
    subst step
    cases found.symm.trans found'
    rw [path_eq_of_id (inner child (List.mem_of_getElem? found)) leads leads' same]

theorem LeavesOut.append {document : Layer} {path : List Nat} (left : document.LeavesOut path)
    (rest : List Nat) : document.LeavesOut (path ++ rest) := by
  obtain ⟨above, index, parent, layer, before, held⟩ := left
  exact ⟨above, index, parent, layer, before.trans (List.prefix_append path rest), held⟩

/-! ### Other values along paths -/

/-- A layer without those inside it. -/
def bare (layer : Layer) : Layer :=
  layer.withChildren []

variable (values : String → Option (List ShaderValue))

theorem children_revalue (layer : Layer) :
    (layer.revalue values).children = layer.children.map (revalue values) := by
  have inside : ∀ layers : List Layer, revalueIn values layers = layers.map (revalue values) := by
    intro layers
    induction layers with
    | nil => rw [revalueIn, List.map_nil]
    | cons layer rest ih => rw [revalueIn, ih, List.map_cons]
  cases layer with
  | group | distance =>
    rw [revalue]
    exact inside _
  | code => rw [revalue]; rfl

theorem layerAt?_revalue : ∀ (path : List Nat) (layer : Layer),
    (layer.revalue values).layerAt? path = (layer.layerAt? path).map (revalue values)
  | [], _ => rfl
  | index :: path, layer => by
    rw [layerAt?, layerAt?, children_revalue, List.getElem?_map, Option.bind_map, Option.map_bind]
    exact congrArg _ (funext fun child => layerAt?_revalue path child)

theorem bare_revalue (layer : Layer) :
    (layer.revalue values).bare =
      (layer.withValues ((values layer.id).getD layer.values)).bare := by
  cases layer <;> rw [revalue] <;> rfl

end Layer

namespace CompiledTree

/-- The layer that the layer at a path was compiled to. -/
def counterpart? (tree : CompiledTree) (document : Layer) (path : List Nat) :
    Option CompiledLayer :=
  (document.paths.idxOf? path).bind tree.layer?

/-- Whether a document is another one with the values of a tree. -/
structure Stored (tree : CompiledTree) (document stored : Layer) : Prop where
  /-- a layer that was compiled has the values of what it was compiled to, if it has any, and all
  else of its own -/
  compiled : ∀ path layer, document.layerAt? path = some layer → ¬ document.LeavesOut path →
    ∃ compiled, tree.counterpart? document path = some compiled ∧ compiled.id = layer.id ∧
      (stored.layerAt? path).map Layer.bare = some (layer.withValues compiled.values).bare
  /-- a layer that was left out is there with all in it -/
  leftOut : ∀ path, document.LeavesOut path → stored.layerAt? path = document.layerAt? path
  /-- there are no other layers -/
  nowhere : ∀ path, document.layerAt? path = none → stored.layerAt? path = none

variable {document : Layer} {tree : CompiledTree}

theorem exists_of_written? {layers : List CompiledLayer} {id : String} {values : List ShaderValue}
    (known : written? layers id = some values) : ∃ layer ∈ layers, layer.id = id := by
  obtain ⟨layer, found, -⟩ := Option.map_eq_some_iff.mp known
  have its := List.find?_some found
  exact ⟨layer, List.mem_reverse.mp (List.mem_of_find?_eq_some found), (of_decide_eq_true its).1⟩

theorem Grown.counterpart? (grown : Grown document tree) {path : List Nat} {layer : Layer}
    (leads : document.layerAt? path = some layer) (kept : ¬ document.LeavesOut path) :
    ∃ compiled ∈ tree.layers, tree.counterpart? document path = some compiled ∧
      compiled.id = layer.id ∧ compiled.isGroup = layer.source?.isNone := by
  have inside : path ∈ document.paths := Layer.mem_paths_iff.mpr ⟨by rw [leads]; rfl, kept⟩
  obtain ⟨place, here⟩ := Option.isSome_iff_exists.mp (List.isSome_idxOf?.mpr inside)
  obtain ⟨short, same, -⟩ := List.idxOf?_eq_some_iff.mp here
  have there : document.paths[place]? = some path := List.getElem?_eq_some_iff.mpr ⟨short, same⟩
  obtain ⟨placed, placed_there, standing⟩ :=
    exists_getElem?_of_forall₂ document.standing_placed.flip there
  cases standing.layer.symm.trans leads
  obtain ⟨compiled, found, grows⟩ :=
    exists_getElem?_of_forall₂ (List.Forall₂.flip grown) placed_there
  exact ⟨compiled, List.mem_of_getElem? found, by rw [CompiledTree.counterpart?, here]; exact found,
    grows.id, grows.group⟩

/-- A layer that was left out has no id of a compiled layer. -/
theorem Grown.written?_of_leavesOut (grown : Grown document tree) (unique : document.ids.Nodup)
    {path : List Nat} {layer : Layer} (leads : document.layerAt? path = some layer)
    (left : document.LeavesOut path) : ∀ id ∈ layer.ids, written? tree.layers id = none := by
  intro id inside
  obtain ⟨rest, inner, leads', rfl⟩ := Layer.mem_ids_iff.mp inside
  have whole : document.layerAt? (path ++ rest) = some inner := by
    rw [Layer.layerAt?_append, leads]
    exact leads'
  cases known : written? tree.layers inner.id with
  | none => rfl
  | some values =>
    obtain ⟨compiled, among, same⟩ := exists_of_written? known
    obtain ⟨place, found⟩ := List.getElem?_of_mem among
    obtain ⟨placed, there, grows⟩ := exists_getElem?_of_forall₂ grown found
    obtain ⟨other, other_there, standing⟩ := Layer.exists_path there
    have path_eq := Layer.path_eq_of_id unique whole standing.layer (same.symm.trans grows.id)
    exact absurd (path_eq ▸ left.append rest)
      (Layer.mem_paths_iff.mp (List.mem_of_getElem? other_there)).2

/-- Writing the values of a tree into the document that it may have come from. -/
theorem Grown.stored (grown : Grown document tree) (unique : document.ids.Nodup) :
    tree.Stored document (tree.writeValues document) := by
  have ids : tree.layerIds.Nodup := grown.layerIds_eq ▸ Layer.nodup_placed unique
  rw [writeValues_eq unique]
  constructor
  case compiled =>
    intro path layer leads kept
    obtain ⟨compiled, among, found, id, group⟩ := grown.counterpart? leads kept
    refine ⟨compiled, found, id, ?_⟩
    rw [Layer.layerAt?_revalue, leads, Option.map_some, Option.map_some, Layer.bare_revalue]
    cases layer with
    | group => rfl
    | code | distance => rw [← id, written?_of_mem ids among group, Option.getD_some]
  case leftOut =>
    intro path left
    rw [Layer.layerAt?_revalue]
    cases leads : document.layerAt? path with
    | none => rfl
    | some layer =>
      rw [Option.map_some, Layer.revalue_of_unknown (grown.written?_of_leavesOut unique leads left)]
  case nowhere =>
    intro path none
    rw [Layer.layerAt?_revalue, none, Option.map_none]

/-- **Values are written where they came from, and nothing else is.**  A document whose ids are all
different is compiled, with any earlier tree and on any device, and the tree is edited in any way.
When its values are written into the document, every layer that was compiled, wherever it stands,
has the values of what it was compiled to in their order; and all else of it, the layers that were
left out with all in them, and where all of them stand, is as it was. -/
theorem stored_writeValues {document : Layer} (unique : document.ids.Nodup)
    {previous : Option CompiledTree} {version : String} {device after : Device}
    {tree : CompiledTree}
    (compiled : (compile document previous version).runOn device = (.ok tree, after))
    (changes : List (String × ShaderValue)) :
    (tree.edits changes).Stored document ((tree.edits changes).writeValues document) :=
  ((grown_of_compile compiled).edits changes).1.stored unique

/-- A value of a distance layer is edited, beside layers that are left out. -/
theorem stored_writeValues_nested :
    nested.ids.Nodup ∧
    ∃ tree after, (compile nested none "300 es").runOn ({} : Device) = (.ok tree, after) ∧
      (tree.edits [("b", ⟨"radius", .float 2.5, none⟩)]).Stored nested
        ((tree.edits [("b", ⟨"radius", .float 2.5, none⟩)]).writeValues nested) := by
  have unique : nested.ids.Nodup := by
    have ids : nested.ids = ["root", "a", "b", "c", "d", "e", "f", "g", "h", "i"] := rfl
    rw [ids]
    decide
  obtain ⟨tree, after, compiled⟩ := compile_new nested
  exact ⟨unique, tree, after, compiled, stored_writeValues unique compiled _⟩

end CompiledTree
end Collage
