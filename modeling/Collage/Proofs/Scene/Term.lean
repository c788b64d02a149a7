import Collage.Scene.Graph
import Mathlib.Algebra.GroupWithZero.Nat
import Mathlib.Data.Fintype.EquivFin
import Mathlib.Data.List.Flatten
import Mathlib.Data.List.Perm.Subperm
import Mathlib.Logic.Relation

/-!
# What a scene means

`Scene/Graph.lean` settles how many operands a distance layer gets by making nodes.
Here the same is said without nodes: a scene is a term, and the rules for the number
of operands build a term from terms.

* `SceneTerm`: a layer with its operands, or a union.  `SceneTerm.splice` puts the
  operands of a union that stands in a union in its place.
* `SourceTree`: a layer as written with all that stands inside it.
  `SourceTree.resolve` is the term it becomes: what cannot be used is left out, and
  `SceneTerm.arrange` deals with operands that are too few or too many.
* `Spells`: the sources at some places are these trees.  When no source lies inside
  itself, every list of places spells trees (`Acyclic.exists_spells`), and these are
  no deeper than there are sources.
* `SourceTree.kept_sublist`: the layers that are kept stand in the order in which they
  were written, and `Spells.nodup_indices`: where no place is written twice, no layer is
  met twice.
-/

namespace Collage

/-! ### Terms -/

/-- A scene without nodes. -/
inductive SceneTerm
  | layer (index : Nat) (operands : List SceneTerm)
  | union (operands : List SceneTerm)

namespace SceneTerm

mutual

/-- The layers of a term, a layer before its operands. -/
def layers : SceneTerm → List Nat
  | layer index operands => index :: layersIn operands
  | union operands => layersIn operands

/-- The layers of terms. -/
def layersIn : List SceneTerm → List Nat
  | [] => []
  | term :: rest => layers term ++ layersIn rest

end

mutual

/-- A term whose unions hold no unions. -/
def splice : SceneTerm → SceneTerm
  | layer index operands => layer index (spliceEach operands)
  | union operands => union (partsIn operands)

/-- Each of some terms spliced. -/
def spliceEach : List SceneTerm → List SceneTerm
  | [] => []
  | term :: rest => splice term :: spliceEach rest

/-- What a term adds to a union that it stands in. -/
def parts : SceneTerm → List SceneTerm
  | layer index operands => [layer index (spliceEach operands)]
  | union operands => partsIn operands

/-- What terms add to a union that they stand in. -/
def partsIn : List SceneTerm → List SceneTerm
  | [] => []
  | term :: rest => parts term ++ partsIn rest

end

theorem layersIn_eq_flatMap : ∀ terms : List SceneTerm, layersIn terms = terms.flatMap layers
  | [] => rfl
  | term :: rest => by rw [layersIn, layersIn_eq_flatMap rest, List.flatMap_cons]

theorem partsIn_eq_flatMap : ∀ terms : List SceneTerm, partsIn terms = terms.flatMap parts
  | [] => rfl
  | term :: rest => by rw [partsIn, partsIn_eq_flatMap rest, List.flatMap_cons]

/-- What a term adds to a union can be read off its spliced form. -/
theorem parts_eq_of_splice_eq {a b : SceneTerm} (h : a.splice = b.splice) :
    a.parts = b.parts := by
  cases a with
  | layer i as =>
    cases b with
    | layer j bs => simpa [splice, parts] using h
    | union bs => simp [splice] at h
  | union as =>
    cases b with
    | layer j bs => simp [splice] at h
    | union bs => simpa [splice, parts] using h

/-! ### The rules -/

/-- The term of a layer that takes `count` operands and has these. -/
def arrange (index count : Nat) (operands : List SceneTerm) : Option SceneTerm :=
  if operands.length = count then some (layer index operands)
  else if operands.length < count then
    match operands with
    | [] => none
    | [lone] => some lone
    | many => some (union many)
  else
    match count, operands with
    | 0, operands => some (union (layer index [] :: operands))
    | 1, operands => some (layer index [union operands])
    | 2, first :: others => some (layer index [first, union others])
    | count, operands =>
      some (union (layer index (operands.take count) :: operands.drop count))

/-- The term of several outermost layers. -/
def together : List SceneTerm → Option SceneTerm
  | [] => none
  | [lone] => some lone
  | many => some (union many)

theorem layers_together (terms : List SceneTerm) :
    ((together terms).map layers).getD [] = layersIn terms := by
  match terms with
  | [] => rfl
  | [lone] => rw [layersIn, layersIn, List.append_nil]; rfl
  | _ :: _ :: _ => rfl

end SceneTerm

/-! ### How many operands there are -/

/-- How the operands that a layer has compare to the number that it takes. -/
inductive OperandCount {α : Type} : Nat → List α → Prop
  | exact (operands : List α) : OperandCount operands.length operands
  | dropped (count : Nat) : OperandCount (count + 1) []
  | promoted (count : Nat) (lone : α) : OperandCount (count + 2) [lone]
  | united {count : Nat} (first second : α) (others : List α) :
      others.length + 2 < count → OperandCount count (first :: second :: others)
  | generator (first : α) (others : List α) : OperandCount 0 (first :: others)
  | unary (first second : α) (others : List α) : OperandCount 1 (first :: second :: others)
  | binary (first second third : α) (others : List α) :
      OperandCount 2 (first :: second :: third :: others)
  | extra {count : Nat} {operands : List α} :
      count + 3 < operands.length → OperandCount (count + 3) operands

/-- One of the cases holds. -/
theorem OperandCount.of {α : Type} (count : Nat) (operands : List α) :
    OperandCount count operands := by
  by_cases same : operands.length = count
  · subst same
    exact .exact operands
  · match count, operands, same with
    | 0, first :: others, _ => exact .generator first others
    | count + 1, [], _ => exact .dropped count
    | 1, [_], same => exact absurd rfl same
    | count + 2, [lone], _ => exact .promoted count lone
    | 1, first :: second :: others, _ => exact .unary first second others
    | 2, [_, _], same => exact absurd rfl same
    | 2, first :: second :: third :: others, _ => exact .binary first second third others
    | count + 3, first :: second :: others, same =>
      rcases Nat.lt_or_ge (others.length + 2) (count + 3) with few | many
      · exact .united first second others few
      · refine .extra ?_
        simp only [List.length_cons] at same ⊢
        omega

namespace SceneTerm

variable (index : Nat)

theorem arrange_exact (operands : List SceneTerm) :
    arrange index operands.length operands = some (layer index operands) := by
  unfold arrange
  rw [if_pos rfl]

theorem arrange_dropped (count : Nat) : arrange index (count + 1) [] = none := by
  simp [arrange]

theorem arrange_promoted (count : Nat) (lone : SceneTerm) :
    arrange index (count + 2) [lone] = some lone := by
  simp [arrange]

theorem arrange_united {count : Nat} (first second : SceneTerm) (others : List SceneTerm)
    (few : others.length + 2 < count) :
    arrange index count (first :: second :: others) =
      some (union (first :: second :: others)) := by
  unfold arrange
  rw [if_neg (by simp only [List.length_cons]; omega),
    if_pos (by simp only [List.length_cons]; omega)]

theorem arrange_generator (first : SceneTerm) (others : List SceneTerm) :
    arrange index 0 (first :: others) =
      some (union (layer index [] :: first :: others)) := by
  simp [arrange]

theorem arrange_unary (first second : SceneTerm) (others : List SceneTerm) :
    arrange index 1 (first :: second :: others) =
      some (layer index [union (first :: second :: others)]) := by
  simp [arrange]

theorem arrange_binary (first second third : SceneTerm) (others : List SceneTerm) :
    arrange index 2 (first :: second :: third :: others) =
      some (layer index [first, union (second :: third :: others)]) := by
  simp [arrange]

theorem arrange_extra {count : Nat} {operands : List SceneTerm}
    (extra : count + 3 < operands.length) :
    arrange index (count + 3) operands =
      some (union (layer index (operands.take (count + 3)) :: operands.drop (count + 3))) := by
  unfold arrange
  rw [if_neg (by omega), if_neg (by omega)]
  rfl

end SceneTerm

/-! ### Trees of sources -/

/-- A place among the sources, with all that lies inside the source there. -/
inductive SourceTree
  | missing (index : Nat)
  | node (index : Nat) (arity : Option Arity) (inside : List SourceTree)

namespace SourceTree

open SceneTerm (arrange)
open scoped List

mutual

/-- The places of a tree, each before those inside it. -/
def indices : SourceTree → List Nat
  | missing index => [index]
  | node index _ inside => index :: indicesIn inside

/-- The places of trees. -/
def indicesIn : List SourceTree → List Nat
  | [] => []
  | tree :: rest => indices tree ++ indicesIn rest

end

mutual

/-- The term that a source becomes, if it becomes one. -/
def resolve : SourceTree → Option SceneTerm
  | missing _ => none
  | node _ none _ => none
  | node index (some .variadic) inside =>
    some (.layer index ((resolveAll inside).take ShaderLibrary.maxOperands))
  | node index (some (.fixed count)) inside => arrange index count (resolveAll inside)

/-- The terms of those sources that become one. -/
def resolveAll : List SourceTree → List SceneTerm
  | [] => []
  | tree :: rest => (resolve tree).toList ++ resolveAll rest

end

mutual

/-- How many sources lie inside each other. -/
def depth : SourceTree → Nat
  | missing _ => 0
  | node _ _ inside => depthIn inside + 1

/-- How many sources lie inside each other among trees. -/
def depthIn : List SourceTree → Nat
  | [] => 0
  | tree :: rest => max (depth tree) (depthIn rest)

end

theorem length_resolveAll_le : ∀ trees : List SourceTree,
    (resolveAll trees).length ≤ trees.length
  | [] => Nat.le_refl 0
  | tree :: rest => by
    have others := length_resolveAll_le rest
    rw [resolveAll, List.length_append, List.length_cons]
    cases tree.resolve with
    | none => simp only [Option.toList, List.length_nil]; omega
    | some term => simp only [Option.toList, List.length_singleton]; omega

/-! ### The order of layers -/

open SceneTerm in
/-- A layer that is arranged keeps its operands in their order, behind itself. -/
theorem layers_arrange_sublist {index count : Nat} {operands : List SceneTerm}
    {term : SceneTerm} (h : arrange index count operands = some term) :
    term.layers <+ index :: layersIn operands := by
  cases OperandCount.of count operands with
  | exact =>
    rw [arrange_exact] at h
    cases h
    rw [layers]
  | dropped =>
    rw [arrange_dropped] at h
    cases h
  | promoted count lone =>
    rw [arrange_promoted] at h
    cases h
    simp only [layersIn, List.append_nil]
    exact List.sublist_cons_self _ _
  | united first second others few =>
    rw [arrange_united index first second others few] at h
    cases h
    rw [layers]
    exact List.sublist_cons_self _ _
  | generator =>
    rw [arrange_generator] at h
    cases h
    simp [layers, layersIn]
  | unary =>
    rw [arrange_unary] at h
    cases h
    simp [layers, layersIn]
  | binary =>
    rw [arrange_binary] at h
    cases h
    simp [layers, layersIn]
  | @extra count _ extra =>
    rw [arrange_extra index extra] at h
    cases h
    have parted : layersIn (operands.take (count + 3)) ++ layersIn (operands.drop (count + 3)) =
        layersIn operands := by
      simp only [layersIn_eq_flatMap, ← List.flatMap_append, List.take_append_drop]
    rw [layers, layersIn, layers, List.cons_append, parted]

mutual

/-- The layers of a term stand in the order in which they were written. -/
theorem layers_sublist : ∀ (tree : SourceTree) {term : SceneTerm},
    tree.resolve = some term → term.layers <+ tree.indices
  | missing _, _, h => by cases h
  | node _ none _, _, h => by cases h
  | node index (some .variadic) inside, term, h => by
    rw [resolve] at h
    cases h
    rw [SceneTerm.layers, indices]
    refine List.Sublist.cons_cons index (List.Sublist.trans ?_ (layersIn_sublist inside))
    simp only [SceneTerm.layersIn_eq_flatMap]
    exact (List.take_sublist _ _).flatMap _
  | node index (some (.fixed count)) inside, term, h => by
    rw [resolve] at h
    rw [indices]
    exact (layers_arrange_sublist h).trans (List.Sublist.cons_cons index (layersIn_sublist inside))

theorem layersIn_sublist : ∀ trees : List SourceTree,
    SceneTerm.layersIn (resolveAll trees) <+ indicesIn trees
  | [] => List.Sublist.refl _
  | tree :: rest => by
    rw [resolveAll, indicesIn]
    cases h : tree.resolve with
    | none => exact (layersIn_sublist rest).trans (List.sublist_append_right _ _)
    | some term => exact (layers_sublist tree h).append (layersIn_sublist rest)

end

/-- The layers that the rules keep. -/
def kept (trees : List SourceTree) : List Nat :=
  ((SceneTerm.together (resolveAll trees)).map SceneTerm.layers).getD []

theorem kept_eq (trees : List SourceTree) :
    kept trees = SceneTerm.layersIn (resolveAll trees) :=
  SceneTerm.layers_together _

/-- **Layers that are kept stay in the order in which they were written.** -/
theorem kept_sublist (trees : List SourceTree) : kept trees <+ indicesIn trees := by
  rw [kept_eq]
  exact layersIn_sublist trees

end SourceTree

/-! ### Sources that spell trees -/

/-- The sources at some places are these trees. -/
inductive Spells (sources : List SceneSource) : List Nat → List SourceTree → Prop
  | nil : Spells sources [] []
  | missing {index : Nat} {rest : List Nat} {trees : List SourceTree} :
      sources[index]? = none → Spells sources rest trees →
      Spells sources (index :: rest) (.missing index :: trees)
  | node {index : Nat} {rest : List Nat} {trees inside : List SourceTree}
      {source : SceneSource} :
      sources[index]? = some source → Spells sources source.children inside →
      Spells sources rest trees →
      Spells sources (index :: rest) (.node index source.arity inside :: trees)

/-- One source stands directly inside another. -/
def Inside (sources : List SceneSource) (outer inner : Nat) : Prop :=
  ∃ source, sources[outer]? = some source ∧ inner ∈ source.children

/-- No source lies inside itself. -/
def Acyclic (sources : List SceneSource) : Prop :=
  ∀ index, ¬ Relation.TransGen (Inside sources) index index

namespace Spells

variable {sources : List SceneSource}

/-- The sources at given places are no more than one list of trees. -/
theorem unique {places : List Nat} {trees : List SourceTree} (h : Spells sources places trees) :
    ∀ {others : List SourceTree}, Spells sources places others → trees = others := by
  induction h with
  | nil => intro others h'; cases h'; rfl
  | missing absent _ ih =>
    intro others h'
    cases h' with
    | missing _ rest => rw [ih rest]
    | node present _ _ => rw [absent] at present; cases present
  | node present _ _ ihInside ihRest =>
    intro others h'
    cases h' with
    | missing absent _ => rw [absent] at present; cases present
    | node present' inside rest =>
      rw [present] at present'
      cases present'
      rw [ihInside inside, ihRest rest]

theorem append {places more : List Nat} {trees others : List SourceTree}
    (h : Spells sources places trees) (h' : Spells sources more others) :
    Spells sources (places ++ more) (trees ++ others) := by
  induction h with
  | nil => exact h'
  | missing absent _ ih => exact .missing absent ih
  | node present inside _ _ ih => exact .node present inside ih

end Spells

theorem exists_spells_of_forall {sources : List SceneSource} {bound : Nat} :
    ∀ {places : List Nat},
      (∀ place ∈ places, ∃ tree, Spells sources [place] [tree] ∧ tree.depth ≤ bound) →
      ∃ trees, Spells sources places trees ∧ SourceTree.depthIn trees ≤ bound
  | [], _ => ⟨[], .nil, Nat.zero_le _⟩
  | place :: rest, h => by
    obtain ⟨tree, first, shallow⟩ := h place List.mem_cons_self
    obtain ⟨trees, others, shallow'⟩ :=
      exists_spells_of_forall fun p hp => h p (List.mem_cons_of_mem _ hp)
    exact ⟨tree :: trees, first.append others, Nat.max_le.mpr ⟨shallow, shallow'⟩⟩

namespace Acyclic

variable {sources : List SceneSource}

/-- A place inside those of `above`, which are all different, spells a tree that is no
deeper than the number of places that are left. -/
theorem exists_spells_below (acyclic : Acyclic sources) :
    ∀ (left : Nat) (above : List Nat), above.Nodup → (∀ p ∈ above, p < sources.length) →
      above.length + left = sources.length →
      ∀ place, (∀ p ∈ above, Relation.TransGen (Inside sources) p place) →
        ∃ tree, Spells sources [place] [tree] ∧ tree.depth ≤ left := by
  intro left
  induction left with
  | zero =>
    intro above nodup bounded full place below
    -- every place is above this one, so this one is none of them
    have covered : List.range sources.length ⊆ above :=
      (List.subperm_of_subset nodup fun p hp => List.mem_range.mpr (bounded p hp)).perm_of_length_le
        (by rw [List.length_range]; omega) |>.symm.subset
    have absent : sources[place]? = none := by
      rw [List.getElem?_eq_none_iff]
      by_contra present
      exact acyclic place (below place (covered (List.mem_range.mpr (Nat.lt_of_not_le present))))
    exact ⟨.missing place, .missing absent .nil, Nat.le_refl _⟩
  | succ left ih =>
    intro above nodup bounded full place below
    cases present : sources[place]? with
    | none => exact ⟨.missing place, .missing present .nil, Nat.zero_le _⟩
    | some source =>
      have fresh : place ∉ above := fun h => acyclic place (below place h)
      have inside : ∀ child ∈ source.children,
          ∃ tree, Spells sources [child] [tree] ∧ tree.depth ≤ left := by
        intro child hc
        have step : Inside sources place child := ⟨source, present, hc⟩
        refine ih (place :: above) (List.nodup_cons.mpr ⟨fresh, nodup⟩) ?_
          (by rw [List.length_cons]; omega) child ?_
        · intro p hp
          rcases List.mem_cons.mp hp with rfl | hp
          · exact (List.getElem?_eq_some_iff.mp present).1
          · exact bounded p hp
        · intro p hp
          rcases List.mem_cons.mp hp with rfl | hp
          · exact .single step
          · exact (below p hp).tail step
      obtain ⟨trees, spelled, shallow⟩ := exists_spells_of_forall inside
      exact ⟨.node place source.arity trees, .node present spelled .nil,
        Nat.succ_le_succ shallow⟩

theorem exists_spells (acyclic : Acyclic sources) (places : List Nat) :
    ∃ trees, Spells sources places trees ∧ SourceTree.depthIn trees ≤ sources.length :=
  exists_spells_of_forall fun place _ =>
    acyclic.exists_spells_below sources.length [] List.nodup_nil (by simp) (by simp) place
      (by simp)

end Acyclic

/-! ### Places that are written once -/

/-- The places written in the source at a place. -/
def childrenAt (sources : List SceneSource) (place : Nat) : List Nat :=
  (sources[place]?.map (·.children)).getD []

theorem mem_childrenAt_iff {sources : List SceneSource} {outer inner : Nat} :
    inner ∈ childrenAt sources outer ↔ Inside sources outer inner := by
  unfold childrenAt Inside
  cases sources[outer]? <;> simp

/-- Sources of which each stands before those inside it do not lie inside themselves. -/
theorem acyclic_of_forward {sources : List SceneSource}
    (forward : ∀ place < sources.length, ∀ child ∈ childrenAt sources place, place < child) :
    Acyclic sources := by
  have step : ∀ {outer inner}, Inside sources outer inner → outer < inner := by
    intro outer inner inside
    obtain ⟨source, present, _⟩ := id inside
    exact forward outer (List.getElem?_eq_some_iff.mp present).1 inner
      (mem_childrenAt_iff.mpr inside)
  have below : ∀ {outer inner}, Relation.TransGen (Inside sources) outer inner →
      outer < inner := by
    intro outer inner path
    induction path with
    | single inside => exact step inside
    | tail _ inside ih => exact Nat.lt_trans ih (step inside)
  exact fun index path => Nat.lt_irrefl index (below path)

namespace Spells

open SourceTree (indices indicesIn)

variable {sources : List SceneSource} {places : List Nat} {trees : List SourceTree}

/-- A place is met as often as it is written: among the outermost places, and in each
source that is met. -/
theorem count_indices (h : Spells sources places trees) (x : Nat) :
    (indicesIn trees).count x =
      places.count x + ((indicesIn trees).map fun p => (childrenAt sources p).count x).sum := by
  induction h with
  | nil => rfl
  | @missing index rest trees absent _ ih =>
    have childless : childrenAt sources index = [] := by rw [childrenAt, absent]; rfl
    simp only [indicesIn, indices, List.singleton_append, List.count_cons, List.map_cons,
      List.sum_cons, childless, List.count_nil, ih]
    omega
  | @node index rest trees inside source present _ _ ihInside ihRest =>
    have children : childrenAt sources index = source.children := by
      rw [childrenAt, present]; rfl
    simp only [indicesIn, indices, List.cons_append, List.count_cons, List.count_append,
      List.map_cons, List.map_append, List.sum_cons, List.sum_append, children, ihInside, ihRest]
    omega

/-- Two sources that hold a place are one source, if the places in them are all
different. -/
theorem parent_unique (once : (sources.flatMap (·.children)).Nodup) {p q x : Nat}
    (hp : Inside sources p x) (hq : Inside sources q x) : p = q := by
  obtain ⟨outer, presentP, xp⟩ := hp
  obtain ⟨other, presentQ, xq⟩ := hq
  obtain ⟨inP, atP⟩ := List.getElem?_eq_some_iff.mp presentP
  obtain ⟨inQ, atQ⟩ := List.getElem?_eq_some_iff.mp presentQ
  have apart := List.pairwise_iff_getElem.mp (List.nodup_flatMap.mp once).2
  rcases Nat.lt_trichotomy p q with less | same | greater
  · have disjoint := apart p q inP inQ less
    rw [atP, atQ] at disjoint
    exact absurd xq (disjoint xp)
  · exact same
  · have disjoint := apart q p inQ inP greater
    rw [atP, atQ] at disjoint
    exact absurd xp (disjoint xq)

/-- A place that is written once is met at most once if what it stands in is. -/
theorem count_le_one_of_parents (h : Spells sources places trees)
    (once : (places ++ sources.flatMap (·.children)).Nodup) {x : Nat}
    (parents : ∀ p, Inside sources p x → (indicesIn trees).count p ≤ 1) :
    (indicesIn trees).count x ≤ 1 := by
  obtain ⟨outer, inner, apart⟩ := List.nodup_append.mp once
  rw [count_indices h x]
  by_cases inside : ∃ p, Inside sources p x
  · obtain ⟨p, source, present, hx⟩ := inside
    have notOuter : x ∉ places := fun hp =>
      apart x hp x (List.mem_flatMap.mpr ⟨source, List.mem_of_getElem? present, hx⟩) rfl
    have holds : childrenAt sources p = source.children := by rw [childrenAt, present]; rfl
    -- no other source holds this place, and this one holds it once
    have only : ∀ q, (childrenAt sources q).count x = if q = p then 1 else 0 := by
      intro q
      split
      · next same =>
        rw [same, holds]
        exact List.count_eq_one_of_mem
          ((List.nodup_flatMap.mp inner).1 source (List.mem_of_getElem? present)) hx
      · next other =>
        refine List.count_eq_zero_of_not_mem fun hq => other ?_
        exact parent_unique inner (mem_childrenAt_iff.mp hq) ⟨source, present, hx⟩
    have met : ∀ l : List Nat, (l.map fun q => if q = p then 1 else 0).sum = l.count p := by
      intro l
      induction l with
      | nil => rfl
      | cons q l ih =>
        rw [List.map_cons, List.sum_cons, ih, List.count_cons, Nat.add_comm]
        simp only [beq_iff_eq]
    simp only [only, met, List.count_eq_zero_of_not_mem notOuter, Nat.zero_add]
    exact parents p ⟨source, present, hx⟩
  · have zero : ∀ q, (childrenAt sources q).count x = 0 := fun q =>
      List.count_eq_zero_of_not_mem fun hx => inside ⟨q, mem_childrenAt_iff.mp hx⟩
    have none : ∀ l : List Nat, (l.map fun _ => 0).sum = 0 := fun l => by
      induction l with
      | nil => rfl
      | cons q l ih => rw [List.map_cons, List.sum_cons, ih]
    simp only [zero, none, Nat.add_zero]
    exact List.nodup_iff_count_le_one.mp outer x

/-- **Where no place is written twice, none is met twice.** -/
theorem nodup_indices (h : Spells sources places trees) (acyclic : Acyclic sources)
    (once : (places ++ sources.flatMap (·.children)).Nodup) : (indicesIn trees).Nodup := by
  -- from a place to what it stands in is well-founded, as sources are finitely many
  let above (p q : Fin sources.length) : Prop := Relation.TransGen (Inside sources) p q
  have : IsTrans (Fin sources.length) above := ⟨fun _ _ _ => Relation.TransGen.trans⟩
  have : Std.Irrefl above := ⟨fun p => acyclic p⟩
  have wellFounded : WellFounded above := Finite.wellFounded_of_trans_of_irrefl above
  have sourceOnce : ∀ x : Fin sources.length, (indicesIn trees).count x.val ≤ 1 := by
    intro x
    induction x using wellFounded.induction with
    | _ x ih =>
      refine h.count_le_one_of_parents once fun p inside => ?_
      obtain ⟨source, present, hx⟩ := id inside
      exact ih ⟨p, (List.getElem?_eq_some_iff.mp present).1⟩ (.single inside)
  rw [List.nodup_iff_count_le_one]
  intro x
  refine h.count_le_one_of_parents once fun p inside => ?_
  obtain ⟨source, present, hx⟩ := inside
  exact sourceOnce ⟨p, (List.getElem?_eq_some_iff.mp present).1⟩

end Spells

end Collage
