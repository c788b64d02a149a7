import Collage.Proofs.Scene.Growth
import Collage.Proofs.Scene.Term
import Mathlib.Data.List.Forall2

/-!
# The graph that is built stands for the term of the rules

`Term.lean` says what term the sources of a scene become.  Here `SceneGraph.term?`
reads a graph back as a term, and `build_resolves` says that the graph built from
sources reads as that term, up to unions that stand in unions.

The proof runs on two relations.  `Grows` says that a graph is made from another one
by adding nodes; what a node stands for does not change by it (`Means.mono`).
`Builds` says that between two graphs nodes were added that stand for given terms, and
for each layer of these terms one node.  Every function of the builder has one lemma
with `Builds`: `Builds.push`, `Builds.union`, `settle_builds`, `collect_builds` and
`buildNode_builds`, the last by induction on what the sources spell.
-/

namespace Collage

/-! ### Reading a graph -/

namespace SceneTerm

/-- The term of a node whose children stand for given terms. -/
def ofOwner : NodeOwner → List SceneTerm → SceneTerm
  | .layer index, operands => layer index operands
  | .union _, operands => union operands

/-- The terms of nodes and of one more node behind them; it has none if one of its
children has none. -/
def place (terms : List (Option SceneTerm)) (node : SceneNode) : List (Option SceneTerm) :=
  terms ++ [(node.children.mapM fun child => terms[child]?.join).map (ofOwner node.owner)]

/-- The terms of nodes, each at the place of its node. -/
def ofNodes (nodes : List SceneNode) : List (Option SceneTerm) :=
  nodes.foldl place []

theorem ofNodes_concat (nodes : List SceneNode) (node : SceneNode) :
    ofNodes (nodes ++ [node]) = place (ofNodes nodes) node := by
  rw [ofNodes, List.foldl_append]
  rfl

theorem length_ofNodes (nodes : List SceneNode) : (ofNodes nodes).length = nodes.length := by
  induction nodes using List.reverseRecOn with
  | nil => rfl
  | append_singleton nodes node ih =>
    rw [ofNodes_concat, place, List.length_append, ih, List.length_append]
    rfl

end SceneTerm

/-- The place of the layer that a node belongs to. -/
def NodeOwner.layer? : NodeOwner → Option Nat
  | .layer index => some index
  | .union _ => none

namespace SceneGraph

open SceneTerm

/-- The term that a graph stands for, read from its root. -/
def term? (graph : SceneGraph) : Option SceneTerm :=
  graph.root.bind fun root => (ofNodes graph.nodes)[root]?.join

/-- The layers that own nodes. -/
def layerOwners (graph : SceneGraph) : List Nat :=
  graph.nodes.filterMap (·.owner.layer?)

/-! ### What nodes stand for -/

/-- A node stands for a term. -/
def Shows (graph : SceneGraph) (id : Nat) (term : SceneTerm) : Prop :=
  (ofNodes graph.nodes)[id]? = some (some term)

/-- A node stands for a term, up to unions in unions. -/
def Means (graph : SceneGraph) (id : Nat) (term : SceneTerm) : Prop :=
  ∃ shown, graph.Shows id shown ∧ shown.splice = term.splice

theorem Shows.push {graph : SceneGraph} {id : Nat} {term : SceneTerm} (h : graph.Shows id term)
    (owner : NodeOwner) (children : List Nat) : (graph.push owner children).1.Shows id term := by
  obtain ⟨inside, _⟩ := List.getElem?_eq_some_iff.mp h
  unfold Shows SceneGraph.push
  rw [ofNodes_concat, place, List.getElem?_append_left inside]
  exact h

theorem Shows.mono {graph later : SceneGraph} {id : Nat} {term : SceneTerm}
    (h : graph.Shows id term) (grows : Grows graph later) : later.Shows id term := by
  induction grows with
  | refl => exact h
  | push owner children _ ih => exact ih.push owner children
  | @pushUnion later children _ ih =>
    have counted : ({ later with unions := later.unions + 1 } : SceneGraph).Shows id term := ih
    exact counted.push _ children

/-- A new node stands for what its owner makes of what its children stand for. -/
theorem shows_push {graph : SceneGraph} {children : List Nat} {operands : List SceneTerm}
    (h : List.Forall₂ graph.Shows children operands) (owner : NodeOwner) :
    (graph.push owner children).1.Shows (graph.push owner children).2
      (ofOwner owner operands) := by
  have read : children.mapM (fun child => (ofNodes graph.nodes)[child]?.join) = some operands := by
    induction h with
    | nil => rfl
    | cons first _ ih =>
      rw [List.mapM_cons, ih, first]
      rfl
  unfold Shows SceneGraph.push
  rw [ofNodes_concat, place, read, ← length_ofNodes graph.nodes, List.getElem?_concat_length]
  rfl

/-! ### Nodes up to unions in unions -/

theorem Means.mono {graph later : SceneGraph} {id : Nat} {term : SceneTerm}
    (h : graph.Means id term) (grows : Grows graph later) : later.Means id term := by
  obtain ⟨shown, shows, same⟩ := h
  exact ⟨shown, shows.mono grows, same⟩

theorem means_mono {graph later : SceneGraph} {ids : List Nat} {terms : List SceneTerm}
    (h : List.Forall₂ graph.Means ids terms) (grows : Grows graph later) :
    List.Forall₂ later.Means ids terms :=
  h.imp fun _ _ means => means.mono grows

/-- Nodes that mean terms show terms that are the same when they are spliced. -/
theorem exists_shows {graph : SceneGraph} {ids : List Nat} {terms : List SceneTerm}
    (h : List.Forall₂ graph.Means ids terms) :
    ∃ shown, List.Forall₂ graph.Shows ids shown ∧ spliceEach shown = spliceEach terms ∧
      partsIn shown = partsIn terms := by
  induction h with
  | nil => exact ⟨[], .nil, rfl, rfl⟩
  | cons first _ ih =>
    obtain ⟨term, shows, same⟩ := first
    obtain ⟨rest, showsRest, spliced, parted⟩ := ih
    refine ⟨term :: rest, .cons shows showsRest, ?_, ?_⟩
    · rw [spliceEach, spliceEach, same, spliced]
    · rw [partsIn, partsIn, parts_eq_of_splice_eq same, parted]

theorem means_push_layer {graph : SceneGraph} {children : List Nat} {operands : List SceneTerm}
    (h : List.Forall₂ graph.Means children operands) (index : Nat) :
    (graph.push (.layer index) children).1.Means (graph.push (.layer index) children).2
      (layer index operands) := by
  obtain ⟨shown, shows, spliced, _⟩ := exists_shows h
  exact ⟨layer index shown, shows_push shows (.layer index), by rw [splice, splice, spliced]⟩

/-- A new union means the union of what its children mean, or of anything else that
adds the same to a union. -/
theorem means_pushUnion {graph : SceneGraph} {children : List Nat}
    {operands others : List SceneTerm} (h : List.Forall₂ graph.Means children operands)
    (same : partsIn operands = partsIn others) :
    (graph.pushUnion children).1.Means (graph.pushUnion children).2
      (SceneTerm.union others) := by
  obtain ⟨shown, shows, _, parted⟩ := exists_shows h
  have counted : List.Forall₂ ({ graph with unions := graph.unions + 1 } : SceneGraph).Shows
      children shown := shows
  exact ⟨SceneTerm.union shown, shows_push counted _, by rw [splice, splice, parted, same]⟩

/-! ### Unions of many -/

theorem layerOwners_push_layer (graph : SceneGraph) (index : Nat) (children : List Nat) :
    (graph.push (.layer index) children).1.layerOwners = graph.layerOwners ++ [index] := by
  rw [layerOwners, SceneGraph.push, List.filterMap_append]
  rfl

theorem layerOwners_pushUnion (graph : SceneGraph) (children : List Nat) :
    (graph.pushUnion children).1.layerOwners = graph.layerOwners := by
  rw [layerOwners, pushUnion, SceneGraph.push, List.filterMap_append]
  exact List.append_nil _

/-- With enough steps the pieces of a list make up the list. -/
theorem flatten_chunks {α : Type} {size : Nat} (positive : 0 < size) :
    ∀ (steps : Nat) (items : List α), items.length ≤ steps →
      (chunks size steps items).flatten = items
  | 0, [], _ => rfl
  | 0, _ :: _, few => absurd few (by simp)
  | _ + 1, [], _ => rfl
  | steps + 1, item :: rest, few => by
    have shorter : ((item :: rest).drop size).length ≤ steps := by
      rw [List.length_drop, List.length_cons] at *
      omega
    rw [chunks, List.flatten_cons, flatten_chunks positive steps _ shorter,
      List.take_append_drop]
    simp

/-- Between two graphs only unions were added, and some nodes of the later one mean terms
that add `added` to a union. -/
structure Unites (graph later : SceneGraph) (ids : List Nat) (added : List SceneTerm) : Prop where
  owners : later.layerOwners = graph.layerOwners
  means : ∃ terms, List.Forall₂ later.Means ids terms ∧ partsIn terms = added

namespace Unites

theorem of_means {graph : SceneGraph} {ids : List Nat} {terms : List SceneTerm}
    (h : List.Forall₂ graph.Means ids terms) : Unites graph graph ids (partsIn terms) :=
  ⟨rfl, terms, h, rfl⟩

theorem append {a b c : SceneGraph} {ids more : List Nat} {added others : List SceneTerm}
    (h : Unites a b ids added) (grows : Grows b c) (h' : Unites b c more others) :
    Unites a c (ids ++ more) (added ++ others) := by
  obtain ⟨terms, means, rfl⟩ := h.means
  obtain ⟨terms', means', rfl⟩ := h'.means
  refine ⟨h'.owners.trans h.owners, terms ++ terms',
    List.rel_append (means_mono means grows) means', ?_⟩
  simp only [partsIn_eq_flatMap, List.flatMap_append]

theorem pushUnion {graph later : SceneGraph} {ids : List Nat} {added : List SceneTerm}
    (h : Unites graph later ids added) :
    Unites graph (later.pushUnion ids).1 [(later.pushUnion ids).2] added := by
  obtain ⟨terms, means, rfl⟩ := h.means
  refine ⟨by rw [layerOwners_pushUnion, h.owners],
    [SceneTerm.union terms], .cons (means_pushUnion means rfl) .nil, ?_⟩
  rw [partsIn, parts, partsIn, List.append_nil]

end Unites

/-- Nodes for pieces add what the pieces add. -/
theorem unionEach_unites :
    ∀ (pieces : List (List Nat)) (graph : SceneGraph) {terms : List SceneTerm},
      List.Forall₂ graph.Means pieces.flatten terms →
      Unites graph (graph.unionEach pieces).1 (graph.unionEach pieces).2 (partsIn terms) := by
  intro pieces
  induction pieces with
  | nil =>
    intro graph terms h
    cases h
    exact .of_means .nil
  | cons piece rest ih =>
    intro graph terms h
    rw [List.flatten_cons] at h
    have first : List.Forall₂ graph.Means piece (terms.take piece.length) := by
      simpa using List.forall₂_take piece.length h
    have others : List.Forall₂ graph.Means rest.flatten (terms.drop piece.length) := by
      simpa using List.forall₂_drop piece.length h
    have parted : partsIn terms =
        partsIn (terms.take piece.length) ++ partsIn (terms.drop piece.length) := by
      simp only [partsIn_eq_flatMap, ← List.flatMap_append, List.take_append_drop]
    rw [parted]
    match piece, first, others with
    | [], first, others =>
      exact (Unites.of_means first).pushUnion.append (unionEach_grows rest _)
        (ih _ (means_mono others (.pushUnion [] .refl)))
    | [lone], first, others =>
      exact (Unites.of_means first).append (unionEach_grows rest graph) (ih graph others)
    | one :: two :: more, first, others =>
      exact (Unites.of_means first).pushUnion.append (unionEach_grows rest _)
        (ih _ (means_mono others (.pushUnion (one :: two :: more) .refl)))

/-- Uniting in steps ends with a union of all that the children add. -/
theorem unionSteps_means :
    ∀ (steps : Nat) (graph : SceneGraph) {children : List Nat} {terms : List SceneTerm}
      {before : SceneGraph}, Unites before graph children (partsIn terms) →
      (graph.unionSteps steps children).1.layerOwners = before.layerOwners ∧
        (graph.unionSteps steps children).1.Means (graph.unionSteps steps children).2
          (SceneTerm.union terms) := by
  have last : ∀ (graph before : SceneGraph) (children : List Nat) (terms : List SceneTerm),
      Unites before graph children (partsIn terms) →
      (graph.pushUnion children).1.layerOwners = before.layerOwners ∧
        (graph.pushUnion children).1.Means (graph.pushUnion children).2
          (SceneTerm.union terms) := by
    intro graph before children terms h
    obtain ⟨operands, means, parted⟩ := h.means
    exact ⟨h.pushUnion.owners, means_pushUnion means parted⟩
  intro steps
  induction steps with
  | zero =>
    intro graph children terms before h
    exact last graph before children terms h
  | succ steps ih =>
    intro graph children terms before h
    rw [unionSteps]
    split
    · exact last graph before children terms h
    · obtain ⟨operands, means, parted⟩ := h.means
      rw [← flatten_chunks (by decide : 0 < ShaderLibrary.maxOperands) _ children
        (Nat.le_refl _)] at means
      have grouped := unionEach_unites _ graph means
      rw [parted] at grouped
      exact ih _ ⟨grouped.owners.trans h.owners, grouped.means⟩

/-! ### Nodes of layers -/

theorem forall₂_split {α β : Type} {R : α → β → Prop} {as more : List α}
    {bs others : List β}
    (h : List.Forall₂ R (as ++ more) (bs ++ others)) (same : as.length = bs.length) :
    List.Forall₂ R as bs ∧ List.Forall₂ R more others := by
  have first := List.forall₂_take as.length h
  have second := List.forall₂_drop as.length h
  rw [List.take_left, same, List.take_left] at first
  rw [List.drop_left, same, List.drop_left] at second
  exact ⟨first, second⟩

/-- Between two graphs nodes were added: some of the later one mean these terms, and each
layer of the terms owns one that was added. -/
structure Builds (graph later : SceneGraph) (ids : List Nat) (terms : List SceneTerm) :
    Prop where
  means : List.Forall₂ later.Means ids terms
  owners : later.layerOwners.Perm (graph.layerOwners ++ layersIn terms)

namespace Builds

theorem nil (graph : SceneGraph) : Builds graph graph [] [] :=
  ⟨.nil, by rw [layersIn, List.append_nil]⟩

theorem append {a b c : SceneGraph} {ids more : List Nat} {terms others : List SceneTerm}
    (h : Builds a b ids terms) (grows : Grows b c) (h' : Builds b c more others) :
    Builds a c (ids ++ more) (terms ++ others) := by
  refine ⟨List.rel_append (means_mono h.means grows) h'.means, ?_⟩
  have split : layersIn (terms ++ others) = layersIn terms ++ layersIn others := by
    simp only [layersIn_eq_flatMap, List.flatMap_append]
  rw [split, ← List.append_assoc]
  exact h'.owners.trans (h.owners.append_right _)

theorem push {graph later : SceneGraph} (ids : List Nat) (terms : List SceneTerm)
    {more : List Nat} {others : List SceneTerm}
    (h : Builds graph later (ids ++ more) (terms ++ others)) (same : ids.length = terms.length)
    (index : Nat) :
    Builds graph (later.push (.layer index) ids).1 ((later.push (.layer index) ids).2 :: more)
      (layer index terms :: others) := by
  obtain ⟨means, meansOthers⟩ := forall₂_split h.means same
  have step : Grows later (later.push (.layer index) ids).1 := .push _ ids .refl
  refine ⟨.cons (means_push_layer means index) (means_mono meansOthers step), ?_⟩
  have parted : layersIn (terms ++ others) = layersIn terms ++ layersIn others := by
    simp only [layersIn_eq_flatMap, List.flatMap_append]
  rw [layerOwners_push_layer, layersIn, layers, List.cons_append, ← parted]
  exact (h.owners.append_right [index]).trans
    ((List.append_assoc _ _ _ ▸ List.perm_append_comm.append_left _))

theorem pushAll {graph later : SceneGraph} {ids : List Nat} {terms : List SceneTerm}
    (h : Builds graph later ids terms) (index : Nat) :
    Builds graph (later.push (.layer index) ids).1 [(later.push (.layer index) ids).2]
      [layer index terms] := by
  have padded : Builds graph later (ids ++ []) (terms ++ []) := by
    rw [List.append_nil, List.append_nil]
    exact h
  exact padded.push ids terms h.means.length_eq index

/-- **A union takes the last of the nodes that were built, however many they are.** -/
theorem union {graph later : SceneGraph} (ids : List Nat) (terms : List SceneTerm)
    {more : List Nat} {others : List SceneTerm}
    (h : Builds graph later (ids ++ more) (terms ++ others))
    (same : ids.length = terms.length) :
    Builds graph (later.union more).1 (ids ++ [(later.union more).2])
      (terms ++ [SceneTerm.union others]) := by
  obtain ⟨means, meansOthers⟩ := forall₂_split h.means same
  obtain ⟨owners, united⟩ := unionSteps_means more.length later (.of_means meansOthers)
  refine ⟨List.rel_append (means_mono means (union_grows later more)) (.cons united .nil), ?_⟩
  have parted : layersIn (terms ++ [SceneTerm.union others]) = layersIn (terms ++ others) := by
    simp only [layersIn_eq_flatMap, List.flatMap_append, List.flatMap_singleton, layers]
  rw [parted, SceneGraph.union, owners]
  exact h.owners

end Builds

/-! ### Settling the number of operands -/

section Settle

variable (graph : SceneGraph) (owner : NodeOwner)

theorem settle_exact (ids : List Nat) :
    graph.settle owner ids.length ids =
      ((graph.push owner ids).1, some (graph.push owner ids).2) := by
  unfold settle
  rw [if_pos rfl]

theorem settle_dropped (count : Nat) : graph.settle owner (count + 1) [] = (graph, none) := by
  simp [settle]

theorem settle_promoted (count lone : Nat) :
    graph.settle owner (count + 2) [lone] = (graph, some lone) := by
  simp [settle]

theorem settle_united {count : Nat} (first second : Nat) (others : List Nat)
    (few : others.length + 2 < count) :
    graph.settle owner count (first :: second :: others) =
      ((graph.union (first :: second :: others)).1,
        some (graph.union (first :: second :: others)).2) := by
  unfold settle
  rw [if_neg (by simp only [List.length_cons]; omega),
    if_pos (by simp only [List.length_cons]; omega)]

/-- Too many operands of a layer that takes none, or three or more. -/
theorem settle_extra {count : Nat} {ids : List Nat} (extra : count < ids.length)
    (notUnary : count ≠ 1) (notBinary : count ≠ 2) :
    graph.settle owner count ids =
      let pushed := graph.push owner (ids.take count)
      let united := pushed.1.union (pushed.2 :: ids.drop count)
      (united.1, some united.2) := by
  unfold settle
  rw [if_neg (by omega), if_neg (by omega)]
  match count, ids with
  | 0, _ => rfl
  | _ + 3, _ => rfl

theorem settle_unary (first second : Nat) (others : List Nat) :
    graph.settle owner 1 (first :: second :: others) =
      let united := graph.union (first :: second :: others)
      let pushed := united.1.push owner [united.2]
      (pushed.1, some pushed.2) := by
  simp [settle]

theorem settle_binary (first second third : Nat) (others : List Nat) :
    graph.settle owner 2 (first :: second :: third :: others) =
      let united := graph.union (second :: third :: others)
      let pushed := united.1.push owner [first, united.2]
      (pushed.1, some pushed.2) := by
  simp [settle]

end Settle

/-- **Settling how many operands a layer gets follows the rules.** -/
theorem settle_builds {graph later : SceneGraph} {ids : List Nat} {terms : List SceneTerm}
    (h : Builds graph later ids terms) (index count : Nat) :
    Builds graph (later.settle (.layer index) count ids).1
      (later.settle (.layer index) count ids).2.toList (arrange index count terms).toList := by
  have same : ids.length = terms.length := h.means.length_eq
  cases OperandCount.of count ids with
  | exact =>
    rw [settle_exact, same, arrange_exact]
    exact h.pushAll index
  | dropped count =>
    obtain rfl : terms = [] := List.length_eq_zero_iff.mp same.symm
    rw [settle_dropped, arrange_dropped]
    exact h
  | promoted count lone =>
    obtain ⟨term, rfl⟩ := List.length_eq_one_iff.mp same.symm
    rw [settle_promoted, arrange_promoted]
    exact h
  | united first second others few =>
    match terms, same with
    | term :: term' :: terms, same =>
      have fewTerms : terms.length + 2 < count := by
        simp only [List.length_cons] at same
        omega
      rw [settle_united _ _ _ _ _ few, arrange_united _ _ _ _ fewTerms]
      exact h.union [] [] rfl
  | generator first others =>
    match terms, same with
    | term :: terms, same =>
      rw [settle_extra _ _ (Nat.succ_pos _) (by decide) (by decide), arrange_generator]
      have pushed := h.push [] [] rfl index
      exact pushed.union [] [] rfl
  | unary first second others =>
    match terms, same with
    | term :: term' :: terms, same =>
      rw [settle_unary, arrange_unary]
      have united := h.union [] [] rfl
      exact united.pushAll index
  | binary first second third others =>
    match terms, same with
    | term :: term' :: term'' :: terms, same =>
      rw [settle_binary, arrange_binary]
      have united := h.union [first] [term] rfl
      exact united.pushAll index
  | @extra count _ extra =>
    have extraTerms : count + 3 < terms.length := by omega
    rw [settle_extra _ _ extra (by omega) (by omega), arrange_extra _ extraTerms]
    have split : Builds graph later (ids.take (count + 3) ++ ids.drop (count + 3))
        (terms.take (count + 3) ++ terms.drop (count + 3)) := by
      rw [List.take_append_drop, List.take_append_drop]
      exact h
    have pushed := split.push _ _ (by simp only [List.length_take]; omega) index
    exact pushed.union [] [] rfl

/-! ### The nodes of sources -/

section Collect

variable {sources : List SceneSource}

/-- What a step gives that builds the term of a source, where it becomes one. -/
def StepBuilds (step : SceneGraph → Nat → SceneGraph × Option Nat) (place : Nat)
    (tree : SourceTree) : Prop :=
  ∀ graph, Builds graph (step graph place).1 (step graph place).2.toList tree.resolve.toList

/-- **Collecting nodes builds the terms of sources, up to the limit.** -/
theorem collect_builds {step : SceneGraph → Nat → SceneGraph × Option Nat} {places : List Nat}
    {trees : List SourceTree} (grows : ∀ graph place, Grows graph (step graph place).1)
    (steps : List.Forall₂ (StepBuilds step) places trees) :
    ∀ (graph : SceneGraph) (limit : Nat),
      Builds graph (collect step graph limit places).1 (collect step graph limit places).2
        ((SourceTree.resolveAll trees).take limit) := by
  induction steps with
  | nil =>
    intro graph limit
    cases limit <;> exact .nil graph
  | @cons place tree rest trees first _ ih =>
    intro graph limit
    cases limit with
    | zero =>
      rw [List.take_zero]
      exact .nil graph
    | succ limit =>
      have stepped := first graph
      rw [collect, SourceTree.resolveAll]
      cases became : step graph place with
      | mk later node =>
        rw [became] at stepped
        cases resolved : tree.resolve with
        | none =>
          rw [resolved] at stepped
          cases node with
          | none => exact stepped.append (collect_grows grows rest later _) (ih later (limit + 1))
          | some id => cases stepped.means
        | some term =>
          rw [resolved] at stepped
          cases node with
          | none => cases stepped.means
          | some id => exact stepped.append (collect_grows grows rest later _) (ih later limit)

/-- Collecting with room for every source builds all their terms. -/
theorem collect_builds_all {step : SceneGraph → Nat → SceneGraph × Option Nat}
    {places : List Nat} {trees : List SourceTree}
    (grows : ∀ graph place, Grows graph (step graph place).1)
    (steps : List.Forall₂ (StepBuilds step) places trees) (graph : SceneGraph) :
    Builds graph (collect step graph places.length places).1
      (collect step graph places.length places).2 (SourceTree.resolveAll trees) := by
  have built := collect_builds grows steps graph places.length
  have room : (SourceTree.resolveAll trees).length ≤ places.length := by
    rw [steps.length_eq]
    exact SourceTree.length_resolveAll_le trees
  rwa [List.take_of_length_le room] at built

/-- **With steps for every level, a source builds the term that it becomes.** -/
theorem buildNode_builds {places : List Nat} {trees : List SourceTree}
    (h : Spells sources places trees) :
    ∀ {steps : Nat}, SourceTree.depthIn trees ≤ steps →
      List.Forall₂ (StepBuilds (buildNode sources steps)) places trees := by
  induction h with
  | nil => exact fun _ => .nil
  | @missing place rest trees absent _ ih =>
    intro steps deep
    rw [SourceTree.depthIn, Nat.max_le] at deep
    refine .cons ?_ (ih deep.2)
    intro graph
    cases steps with
    | zero => exact .nil graph
    | succ steps =>
      rw [buildNode, absent]
      exact .nil graph
  | @node place rest trees inside source present _ _ ihInside ih =>
    intro steps deep
    rw [SourceTree.depthIn, Nat.max_le] at deep
    refine .cons ?_ (ih deep.2)
    intro graph
    obtain ⟨arity, children⟩ := source
    cases steps with
    | zero =>
      rw [SourceTree.depth] at deep
      omega
    | succ steps =>
      have below : SourceTree.depthIn inside ≤ steps := by
        rw [SourceTree.depth] at deep
        omega
      rw [buildNode, present]
      cases arity with
      | none => exact .nil graph
      | some arity =>
        cases arity with
        | variadic =>
          have built := collect_builds (buildNode_grows sources steps) (ihInside below) graph
            ShaderLibrary.maxOperands
          exact built.pushAll place
        | fixed count =>
          have built := collect_builds_all (buildNode_grows sources steps) (ihInside below) graph
          exact settle_builds built place count

end Collect

/-! ### The whole graph -/

/-- A graph follows the rules for sources that spell trees. -/
structure Follows (graph : SceneGraph) (sources : List SceneSource) (roots : List Nat)
    (trees : List SourceTree) : Prop where
  /-- the trees are all that the sources say -/
  spelled : Spells sources roots trees
  /-- read from its root the graph is the term of the rules, up to unions in unions -/
  term : graph.term?.map splice = (together (SourceTree.resolveAll trees)).map splice
  /-- the layers of the term stand in the order in which they were written -/
  ordered : (SourceTree.kept trees).Sublist (SourceTree.indicesIn trees)
  /-- where no place is written twice, each layer of the term owns one node -/
  once : (roots ++ sources.flatMap (·.children)).Nodup →
    ∀ index ∈ SourceTree.kept trees, graph.layerOwners.count index = 1
  /-- other layers own none -/
  others : ∀ index ∉ SourceTree.kept trees, index ∉ graph.layerOwners

theorem term?_of_means {graph later : SceneGraph} {root : Nat} {term : SceneTerm}
    (same : graph = { later with root := some root }) (means : later.Means root term) :
    graph.term?.map splice = some term.splice := by
  obtain ⟨shown, shows, spliced⟩ := means
  rw [same, term?, Option.bind_some, shows, Option.join_some, Option.map_some, spliced]

/-- The graph of several outermost nodes is read as their terms together. -/
theorem build_term {sources : List SceneSource} {roots : List Nat} {terms : List SceneTerm}
    (h : Builds {} (collect (buildNode sources (sources.length + 1)) {} roots.length roots).1
      (collect (buildNode sources (sources.length + 1)) {} roots.length roots).2 terms) :
    (build sources roots).term?.map splice = (together terms).map splice ∧
      (build sources roots).layerOwners.Perm (layersIn terms) := by
  unfold build
  revert h
  cases collect (buildNode sources (sources.length + 1)) {} roots.length roots with
  | mk graph ids =>
    intro h
    match ids, terms, h with
    | [], [], h => exact ⟨rfl, h.owners⟩
    | [root], [term], h =>
      cases h.means with
      | cons means _ =>
        exact ⟨term?_of_means rfl means, h.owners⟩
    | first :: second :: ids, term :: term' :: terms, h =>
      have united := h.union [] [] rfl
      have owners := united.owners
      simp only [List.nil_append, layersIn, layers, List.append_nil] at owners
      cases united.means with
      | cons means _ =>
        exact ⟨term?_of_means rfl means, owners⟩
    | [], _ :: _, h => cases h.means
    | _ :: _, [], h => cases h.means
    | [_], _ :: _ :: _, h => cases h.means.length_eq
    | _ :: _ :: _, [_], h => cases h.means.length_eq

/-- **The graph that is built follows the rules.** -/
theorem build_resolves {sources : List SceneSource} (acyclic : Acyclic sources)
    (roots : List Nat) : ∃ trees, (build sources roots).Follows sources roots trees := by
  obtain ⟨trees, spelled, shallow⟩ := acyclic.exists_spells roots
  have built := collect_builds_all (buildNode_grows sources _)
    (buildNode_builds spelled (Nat.le_succ_of_le shallow)) {}
  obtain ⟨term, owners⟩ := build_term built
  rw [← SourceTree.kept_eq] at owners
  refine ⟨trees, spelled, term, SourceTree.kept_sublist trees, ?_, ?_⟩
  · intro once index held
    have nodup : (SourceTree.kept trees).Nodup :=
      (SourceTree.kept_sublist trees).nodup (spelled.nodup_indices acyclic once)
    rw [owners.count_eq]
    exact List.count_eq_one_of_mem nodup held
  · intro index absent owned
    exact absent (owners.mem_iff.mp owned)

/-- A binary layer over three layers, one of which cannot be used and one of which
takes an operand that is missing, beside a layer of its own. -/
theorem build_resolves_nested :
    let sources : List SceneSource :=
      [⟨some (.fixed 2), [1, 2, 3, 5]⟩, ⟨some (.fixed 0), []⟩, ⟨none, [4]⟩,
        ⟨some (.fixed 1), [9]⟩, ⟨some (.fixed 0), []⟩, ⟨some .variadic, [6, 7]⟩,
        ⟨some (.fixed 0), []⟩, ⟨some (.fixed 0), [8]⟩, ⟨some (.fixed 0), []⟩]
    Acyclic sources ∧ ∃ trees, (build sources [0]).Follows sources [0] trees :=
  ⟨acyclic_of_forward (by decide), build_resolves (acyclic_of_forward (by decide)) [0]⟩

end SceneGraph
end Collage
