import Collage.Proofs.Tree.Rebuilding
import Collage.Tree.Edit

/-!
# Writing values into a document

Values are written into the first layer with an id.  In a document whose ids are all
different that is the layer with the id, so that writing the values of a tree gives the
document with the values that the tree has for its layers (`CompiledTree.writeValues_eq`).
-/

namespace Collage
namespace Layer

/-! ### Ids -/

mutual

/-- The ids of a layer and of all it holds. -/
def ids : Layer → List String
  | group head _ _ children => head.id :: idsIn children
  | code _ head _ _ _ _ => [head.id]
  | distance head _ _ operands => head.id :: idsIn operands

/-- The ids of layers. -/
def idsIn : List Layer → List String
  | [] => []
  | layer :: rest => ids layer ++ idsIn rest

end

mutual

theorem ids_placedAt (parent : Option Nat) (place : Nat) : ∀ layer : Layer,
    List.Sublist ((placedAt parent place layer).map (·.layer.id)) layer.ids
  | group head blend opacity children => by
    rw [placedAt, ids, List.map_cons]
    exact (ids_placedIn false place (place + 1) children).cons_cons _
  | code .. => by
    rw [placedAt, ids, List.map_singleton]
    exact List.Sublist.refl _
  | distance head source values operands => by
    rw [placedAt, ids, List.map_cons]
    exact (ids_placedIn true place (place + 1) operands).cons_cons _

theorem ids_placedIn (inDistance : Bool) (parent place : Nat) : ∀ layers : List Layer,
    List.Sublist ((placedIn inDistance parent place layers).map (·.layer.id)) (idsIn layers)
  | [] => by
    rw [placedIn, idsIn]
    exact List.Sublist.refl _
  | layer :: rest => by
    rw [placedIn, idsIn]
    split
    · rw [List.map_append]
      exact (ids_placedAt (some parent) place layer).append
        (ids_placedIn inDistance parent (place + placeCount layer) rest)
    · exact (ids_placedIn inDistance parent place rest).trans (List.sublist_append_right _ _)

end

theorem nodup_placed {document : Layer} (unique : document.ids.Nodup) :
    (document.placed.map (·.layer.id)).Nodup :=
  unique.sublist (ids_placedAt none 0 document)

/-! ### One layer with other values -/

mutual

theorem ids_revalue (values : String → Option (List ShaderValue)) : ∀ layer : Layer,
    (layer.revalue values).ids = layer.ids
  | group head blend opacity children => by
    rw [revalue, ids, ids, idsIn_revalue values children]
  | code .. => by rw [revalue, ids, ids]
  | distance head source stored operands => by
    rw [revalue, ids, ids, idsIn_revalue values operands]

theorem idsIn_revalue (values : String → Option (List ShaderValue)) : ∀ layers : List Layer,
    idsIn (revalueIn values layers) = idsIn layers
  | [] => by rw [revalueIn]
  | layer :: rest => by
    rw [revalueIn, idsIn, idsIn, ids_revalue values layer, idsIn_revalue values rest]

end

mutual

/-- Values for other ids change nothing. -/
theorem revalue_of_unknown {values : String → Option (List ShaderValue)} : ∀ {layer : Layer},
    (∀ id ∈ layer.ids, values id = none) → layer.revalue values = layer
  | group head blend opacity children, unknown => by
    rw [ids] at unknown
    rw [revalue, revalueIn_of_unknown fun id inside => unknown id (List.mem_cons_of_mem _ inside)]
  | code language head blend opacity source stored, unknown => by
    rw [ids] at unknown
    rw [revalue, unknown head.id List.mem_cons_self, Option.getD_none]
  | distance head source stored operands, unknown => by
    rw [ids] at unknown
    rw [revalue, unknown head.id List.mem_cons_self, Option.getD_none,
      revalueIn_of_unknown fun id inside => unknown id (List.mem_cons_of_mem _ inside)]

theorem revalueIn_of_unknown {values : String → Option (List ShaderValue)} :
    ∀ {layers : List Layer}, (∀ id ∈ idsIn layers, values id = none) →
      revalueIn values layers = layers
  | [], _ => by rw [revalueIn]
  | layer :: rest, unknown => by
    rw [idsIn] at unknown
    rw [revalueIn, revalue_of_unknown fun id inside => unknown id (List.mem_append_left _ inside),
      revalueIn_of_unknown fun id inside => unknown id (List.mem_append_right _ inside)]

end

mutual

/-- Of values that are known twice the later ones count. -/
theorem revalue_revalue (earlier later : String → Option (List ShaderValue)) : ∀ layer : Layer,
    (layer.revalue earlier).revalue later =
      layer.revalue fun id => (later id).or (earlier id)
  | group head blend opacity children => by
    rw [revalue, revalue, revalue, revalueIn_revalueIn earlier later children]
  | code language head blend opacity source stored => by
    rw [revalue, revalue, revalue, Option.getD_or]
  | distance head source stored operands => by
    rw [revalue, revalue, revalue, revalueIn_revalueIn earlier later operands, Option.getD_or]

theorem revalueIn_revalueIn (earlier later : String → Option (List ShaderValue)) :
    ∀ layers : List Layer, revalueIn later (revalueIn earlier layers) =
      revalueIn (fun id => (later id).or (earlier id)) layers
  | [] => by rw [revalueIn, revalueIn, revalueIn]
  | layer :: rest => by
    rw [revalueIn, revalueIn, revalueIn, revalue_revalue earlier later layer,
      revalueIn_revalueIn earlier later rest]

end

/-- Values for one id. -/
def only (id : String) (values : List ShaderValue) : String → Option (List ShaderValue) :=
  fun other => if other = id then some values else none

theorem only_self (id : String) (values : List ShaderValue) : only id values id = some values :=
  if_pos rfl

theorem only_of_notMem {id : String} {values : List ShaderValue} {ids : List String}
    (missing : id ∉ ids) : ∀ other ∈ ids, only id values other = none :=
  fun other inside => if_neg fun same : other = id => missing (same ▸ inside)

mutual

/-- Changing the first layer with an id changes the only one. -/
theorem editFirst?_eq (id : String) (values : List ShaderValue) : ∀ {layer : Layer},
    layer.ids.Nodup → editFirst? id (withValues values) layer =
      if id ∈ layer.ids then some (layer.revalue (only id values)) else none
  | group head blend opacity children, unique => by
    rw [ids, List.nodup_cons] at unique
    rw [editFirst?, ids, revalue]
    by_cases here : head.id = id
    · subst here
      rw [if_pos rfl, if_pos List.mem_cons_self,
        revalueIn_of_unknown (only_of_notMem unique.1)]
      rfl
    · rw [if_neg here, editFirstIn?_eq id values unique.2]
      by_cases inside : id ∈ idsIn children
      · rw [if_pos inside, if_pos (List.mem_cons_of_mem _ inside), Option.map_some]
      · rw [if_neg inside, if_neg (List.not_mem_cons_of_ne_of_not_mem (Ne.symm here) inside),
          Option.map_none]
  | code language head blend opacity source stored, _ => by
    rw [editFirst?, ids, revalue]
    by_cases here : head.id = id
    · subst here
      rw [if_pos rfl, if_pos List.mem_cons_self, only_self]
      rfl
    · rw [if_neg here, if_neg fun inside => here (List.mem_singleton.mp inside).symm]
  | distance head source stored operands, unique => by
    rw [ids, List.nodup_cons] at unique
    rw [editFirst?, ids, revalue]
    by_cases here : head.id = id
    · subst here
      rw [if_pos rfl, if_pos List.mem_cons_self, only_self,
        revalueIn_of_unknown (only_of_notMem unique.1)]
      rfl
    · have other : only id values head.id = none := if_neg here
      rw [if_neg here, editFirstIn?_eq id values unique.2, other, Option.getD_none]
      by_cases inside : id ∈ idsIn operands
      · rw [if_pos inside, if_pos (List.mem_cons_of_mem _ inside), Option.map_some]
      · rw [if_neg inside, if_neg (List.not_mem_cons_of_ne_of_not_mem (Ne.symm here) inside),
          Option.map_none]

theorem editFirstIn?_eq (id : String) (values : List ShaderValue) : ∀ {layers : List Layer},
    (idsIn layers).Nodup → editFirstIn? id (withValues values) layers =
      if id ∈ idsIn layers then some (revalueIn (only id values) layers) else none
  | [], _ => by
    rw [editFirstIn?, idsIn, if_neg List.not_mem_nil]
  | layer :: rest, unique => by
    rw [idsIn, List.nodup_append] at unique
    obtain ⟨first, others, apart⟩ := unique
    rw [editFirstIn?, editFirst?_eq id values first, editFirstIn?_eq id values others, idsIn,
      revalueIn]
    by_cases here : id ∈ layer.ids
    · have later : id ∉ idsIn rest := fun there => apart id here id there rfl
      rw [if_pos here, if_pos (List.mem_append_left _ here),
        revalueIn_of_unknown (only_of_notMem later)]
    · rw [if_neg here, revalue_of_unknown (only_of_notMem here)]
      by_cases inside : id ∈ idsIn rest
      · rw [if_pos inside, if_pos (List.mem_append_right _ inside)]
        rfl
      · rw [if_neg inside, if_neg fun either => (List.mem_append.mp either).elim here inside]
        rfl

end

theorem editValues_eq {document : Layer} (unique : document.ids.Nodup) (id : String)
    (values : List ShaderValue) :
    document.editValues id values = document.revalue (only id values) := by
  rw [editValues, editFirst?_eq id values unique]
  by_cases inside : id ∈ document.ids
  · rw [if_pos inside, Option.getD_some]
  · rw [if_neg inside, Option.getD_none, revalue_of_unknown (only_of_notMem inside)]

end Layer

namespace CompiledTree

/-! ### All layers of a tree -/

/-- The values that a tree has to write for an id: those of the last layer with code that has
it. -/
def written? (layers : List CompiledLayer) (id : String) : Option (List ShaderValue) :=
  (layers.reverse.find? fun layer => layer.id = id ∧ ¬layer.isGroup).map CompiledLayer.values

theorem foldl_writeLayer {document : Layer} (unique : document.ids.Nodup)
    (layers : List CompiledLayer) :
    layers.foldl writeLayer document = document.revalue (written? layers) := by
  induction layers using List.reverseRec with
  | nil => exact (Layer.revalue_of_unknown fun _ _ => rfl).symm
  | append_singleton layers layer ih =>
    rw [List.foldl_append, ih, List.foldl_cons, List.foldl_nil, writeLayer]
    have step : ∀ id, written? (layers ++ [layer]) id =
        if layer.id = id ∧ ¬layer.isGroup then some layer.values else written? layers id := by
      intro id
      unfold written?
      rw [List.reverse_append, List.reverse_singleton, List.singleton_append, List.find?_cons]
      by_cases here : layer.id = id ∧ ¬layer.isGroup
      · rw [if_pos here, decide_eq_true here]
        rfl
      · rw [if_neg here, decide_eq_false here]
    by_cases group : layer.isGroup
    · rw [if_pos group]
      refine congrArg (document.revalue ·) (funext fun id => ?_)
      rw [step, if_neg fun both => both.2 group]
    · rw [if_neg group, Layer.editValues_eq (by rwa [Layer.ids_revalue]), Layer.revalue_revalue]
      refine congrArg (document.revalue ·) (funext fun id => ?_)
      rw [step]
      by_cases here : layer.id = id
      · subst here
        rw [Layer.only_self, if_pos ⟨rfl, group⟩, Option.some_or]
      · have other : Layer.only layer.id layer.values id = none := if_neg (Ne.symm here)
        rw [other, if_neg fun both => here both.1, Option.none_or]

/-- **Writing the values of a tree** gives every layer with code the values that the tree has
for its id. -/
theorem writeValues_eq {document : Layer} (unique : document.ids.Nodup) (tree : CompiledTree) :
    tree.writeValues document = document.revalue (written? tree.layers) :=
  foldl_writeLayer unique tree.layers

theorem find?_reverse_of_nodup {layers : List CompiledLayer}
    (unique : (layers.map (·.id)).Nodup) {layer : CompiledLayer} (inside : layer ∈ layers)
    {p : CompiledLayer → Bool} (found : p layer)
    (same : ∀ other, p other → other.id = layer.id) :
    layers.reverse.find? p = some layer := by
  cases sought : layers.reverse.find? p with
  | none => exact absurd found (List.find?_eq_none.mp sought layer (List.mem_reverse.mpr inside))
  | some other =>
    have there : other ∈ layers := List.mem_reverse.mp (List.mem_of_find?_eq_some sought)
    have twin := same other (List.find?_some sought)
    rw [List.inj_on_of_nodup_map unique there inside twin]

theorem valuesOf?_of_mem {tree : CompiledTree} (unique : tree.layerIds.Nodup)
    {layer : CompiledLayer} (inside : layer ∈ tree.layers) :
    tree.valuesOf? layer.id = some layer.values := by
  rw [valuesOf?, find?_reverse_of_nodup unique inside (decide_eq_true rfl)
    fun other same => of_decide_eq_true same]
  rfl

theorem written?_of_mem {tree : CompiledTree} (unique : tree.layerIds.Nodup)
    {layer : CompiledLayer} (inside : layer ∈ tree.layers) (code : layer.isGroup = false) :
    written? tree.layers layer.id = some layer.values := by
  rw [written?, find?_reverse_of_nodup unique inside (decide_eq_true ⟨rfl, by rw [code]; decide⟩)
    fun other same => (of_decide_eq_true same).1]
  rfl

end CompiledTree
end Collage
