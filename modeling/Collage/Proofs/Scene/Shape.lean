import Collage.Proofs.Scene.Resolution

/-!
# The shape of a graph

Every graph that is built is a tree whose nodes stand children first, and every node
has as many children as its owner takes.  `SceneGraph.WellFormed` says so, and
`build_wellFormed` says it of all sources and roots.

While a graph is being built it is a forest.  `SceneGraph.Forest sources graph tops`
says that the children of its nodes and the nodes of `tops`, which have no parent yet,
are all nodes of the graph, each once.  Every function of the builder has one lemma
with `Forest`: it takes some of the nodes of `tops` and leaves one in their place
(`Forest.push`, `Forest.union`, `Forest.settle`, `collect_forest`,
`buildNode_forest`).  A union takes any number of nodes, two at least; that pieces of
the list of nodes are united again and again until they are few enough comes to an end
since there are always fewer pieces than nodes (`length_chunks_lt`).

A forest with one node without a parent is a tree (`Forest.wellFormed`).
-/

namespace Collage

/-- The number of a union among the unions. -/
def NodeOwner.union? : NodeOwner → Option Nat
  | .layer _ => none
  | .union index => some index

namespace SceneGraph

/-! ### What is said of a graph -/

/-- How many children a node of an owner can have. -/
def Takes (sources : List SceneSource) (found : Nat) : NodeOwner → Prop
  | .layer index =>
    ∃ source, sources[index]? = some source ∧
      (source.arity = some (.fixed found) ∨
        source.arity = some .variadic ∧ found ≤ ShaderLibrary.maxOperands)
  | .union _ => 2 ≤ found ∧ found ≤ ShaderLibrary.maxOperands

/-- The node that is the child of a node at a position. -/
def childAt (graph : SceneGraph) (parent position : Nat) : Option Nat :=
  graph.nodes[parent]?.bind fun node => node.children[position]?

/-- One node is a child of another. -/
def HasChild (graph : SceneGraph) (parent child : Nat) : Prop :=
  ∃ position, graph.childAt parent position = some child

/-- A graph is a tree that is stored children first. -/
structure WellFormed (graph : SceneGraph) (sources : List SceneSource) : Prop where
  placed : Placed graph.nodes
  below : ∀ node ∈ graph.nodes, ∀ child ∈ node.children, child < node.id
  /-- without a root there are no nodes -/
  rootless : graph.root = none → graph.nodes = []
  rooted : ∀ root ∈ graph.root, root < graph.nodes.length
  /-- all nodes stand under the root -/
  reached : ∀ root ∈ graph.root, ∀ id < graph.nodes.length,
    Relation.ReflTransGen graph.HasChild root id
  /-- all but the root are a child of one node at one position -/
  once : ∀ root ∈ graph.root, ∀ id < graph.nodes.length, id ≠ root →
    ∃! place : Nat × Nat, graph.childAt place.1 place.2 = some id
  /-- the root is a child of none -/
  outermost : ∀ root ∈ graph.root, ∀ parent, ¬ graph.HasChild parent root
  /-- a node has as many children as its layer, or a union, takes -/
  takes : ∀ node ∈ graph.nodes, Takes sources node.children.length node.owner
  /-- unions are numbered in the order of the nodes -/
  numbered : graph.nodes.filterMap (·.owner.union?) = List.range graph.unions

/-! ### Forests -/

/-- A graph that is being built; `tops` are the nodes that have no parent. -/
structure Forest (sources : List SceneSource) (graph : SceneGraph) (tops : List Nat) :
    Prop where
  placed : Placed graph.nodes
  below : ∀ node ∈ graph.nodes, ∀ child ∈ node.children, child < node.id
  /-- every node is a child once, or has no parent -/
  once : (graph.nodes.flatMap (·.children) ++ tops).Perm (List.range graph.nodes.length)
  takes : ∀ node ∈ graph.nodes, Takes sources node.children.length node.owner
  numbered : graph.nodes.filterMap (·.owner.union?) = List.range graph.unions

section

variable {sources : List SceneSource} {graph : SceneGraph} {tops before children after : List Nat}

theorem forest_empty : Forest sources {} [] where
  placed := fun place node found => by rw [List.getElem?_nil] at found; cases found
  below := by simp
  once := .nil
  takes := by simp
  numbered := rfl

namespace Forest

theorem perm (h : Forest sources graph tops) {others : List Nat} (same : tops.Perm others) :
    Forest sources graph others :=
  { h with once := (same.symm.append_left _).trans h.once }

theorem swap (h : Forest sources graph ((before ++ children) ++ after)) :
    Forest sources graph ((before ++ after) ++ children) := by
  refine h.perm ?_
  rw [List.append_assoc, List.append_assoc]
  exact List.perm_append_comm.append_left _

theorem lt_of_top (h : Forest sources graph tops) {id : Nat} (top : id ∈ tops) :
    id < graph.nodes.length :=
  List.mem_range.mp (h.once.subset (List.mem_append_right _ top))

theorem lt_of_child (h : Forest sources graph tops) {node : SceneNode} (inside : node ∈ graph.nodes)
    {child : Nat} (isChild : child ∈ node.children) : child < graph.nodes.length :=
  List.mem_range.mp (h.once.subset
    (List.mem_append_left _ (List.mem_flatMap.mpr ⟨node, inside, isChild⟩)))

theorem concat (h : Forest sources graph (before ++ children)) (owner : NodeOwner)
    {unions : Nat} (takes : Takes sources children.length owner)
    (counted : List.range graph.unions ++ owner.union?.toList = List.range unions) :
    Forest sources
      { graph with nodes := graph.nodes ++ [⟨graph.nodes.length, owner, children⟩], unions }
      (before ++ [graph.nodes.length]) where
  placed := h.placed.concat owner children
  below := by
    intro node inside child isChild
    rcases List.mem_append.mp inside with inside | inside
    · exact h.below node inside child isChild
    · cases List.mem_singleton.mp inside
      exact h.lt_of_top (List.mem_append_right _ isChild)
  once := by
    rw [List.flatMap_append, List.length_append, List.length_singleton, List.range_succ,
      ← List.append_assoc]
    refine List.Perm.append_right [graph.nodes.length] (List.Perm.trans ?_ h.once)
    rw [List.append_assoc, List.flatMap_singleton]
    exact List.perm_append_comm.append_left _
  takes := by
    intro node inside
    rcases List.mem_append.mp inside with inside | inside
    · exact h.takes node inside
    · cases List.mem_singleton.mp inside
      exact takes
  numbered := by
    rw [List.filterMap_append, h.numbered, ← counted, List.filterMap_cons]
    cases owner.union? <;> rfl

theorem push (h : Forest sources graph (before ++ children)) {index : Nat}
    (takes : Takes sources children.length (.layer index)) :
    Forest sources (graph.push (.layer index) children).1
      (before ++ [(graph.push (.layer index) children).2]) :=
  h.concat (.layer index) takes (List.append_nil _)

theorem pushUnion (h : Forest sources graph (before ++ children))
    (takes : 2 ≤ children.length ∧ children.length ≤ ShaderLibrary.maxOperands) :
    Forest sources (graph.pushUnion children).1
      (before ++ [(graph.pushUnion children).2]) :=
  h.concat (.union graph.unions) takes List.range_succ.symm

end Forest

/-! ### Pieces -/

theorem length_of_mem_chunks {α : Type} {size : Nat} (positive : 0 < size) :
    ∀ (steps : Nat) (items : List α), ∀ piece ∈ chunks size steps items,
      0 < piece.length ∧ piece.length ≤ size
  | 0, _, _, inside => by cases inside
  | _ + 1, [], _, inside => by cases inside
  | steps + 1, item :: rest, piece, inside => by
    rw [chunks] at inside
    · rcases List.mem_cons.mp inside with rfl | inside
      · rw [List.length_take, List.length_cons]
        omega
      · exact length_of_mem_chunks positive steps _ piece inside
    · simp

theorem length_chunks_le {α : Type} {size : Nat} (positive : 0 < size) :
    ∀ (steps : Nat) (items : List α), (chunks size steps items).length ≤ items.length
  | 0, _ => Nat.zero_le _
  | _ + 1, [] => Nat.le_refl _
  | steps + 1, item :: rest => by
    have others := length_chunks_le positive steps ((item :: rest).drop size)
    rw [List.length_drop, List.length_cons] at others
    rw [chunks, List.length_cons, List.length_cons]
    · omega
    · simp

/-- **Items that do not fit into one piece make two pieces at least, and fewer pieces than
there are items.** -/
theorem length_chunks_lt {α : Type} {size : Nat} (many : 1 < size) {items : List α}
    (more : size < items.length) :
    2 ≤ (chunks size items.length items).length ∧
      (chunks size items.length items).length < items.length := by
  have positive : 0 < size := by omega
  match items, more with
  | item :: rest, more =>
    have left : 0 < ((item :: rest).drop size).length := by
      rw [List.length_drop]
      omega
    have others := length_chunks_le positive rest.length ((item :: rest).drop size)
    have left' : 0 < (chunks size rest.length ((item :: rest).drop size)).length := by
      -- the pieces of what is left make up what is left
      have whole := flatten_chunks positive rest.length ((item :: rest).drop size)
        (by rw [List.length_drop, List.length_cons]; omega)
      rw [List.length_pos_iff]
      intro none
      rw [none] at whole
      rw [← whole] at left
      exact Nat.lt_irrefl _ left
    rw [List.length_drop] at others
    rw [List.length_cons, chunks, List.length_cons]
    · rw [List.length_cons] at others more
      omega
    · simp

/-! ### Unions -/

theorem unionEach_forest :
    ∀ (pieces : List (List Nat)) {graph : SceneGraph} {before : List Nat},
      (∀ piece ∈ pieces, 0 < piece.length ∧ piece.length ≤ ShaderLibrary.maxOperands) →
      Forest sources graph (before ++ pieces.flatten) →
      Forest sources (graph.unionEach pieces).1 (before ++ (graph.unionEach pieces).2) ∧
        (graph.unionEach pieces).2.length = pieces.length
  | [], _, _, _, h => ⟨h, rfl⟩
  | piece :: rest, graph, before, sizes, h => by
    have fits := sizes piece List.mem_cons_self
    have others : ∀ piece ∈ rest, 0 < piece.length ∧ piece.length ≤ ShaderLibrary.maxOperands :=
      fun piece inside => sizes piece (List.mem_cons_of_mem _ inside)
    rw [List.flatten_cons, ← List.append_assoc] at h
    match piece, fits, h with
    | [lone], _, h =>
      obtain ⟨forest, length⟩ := unionEach_forest rest others h
      rw [List.append_assoc] at forest
      exact ⟨forest, by rw [List.length_cons, ← length]; rfl⟩
    | first :: second :: more, fits, h =>
      have united := h.swap.pushUnion ⟨by simp, fits.2⟩
      obtain ⟨forest, length⟩ := unionEach_forest rest others united.swap
      rw [List.append_assoc] at forest
      exact ⟨forest, by rw [List.length_cons, ← length]; rfl⟩

theorem unionSteps_forest :
    ∀ (steps : Nat) {graph : SceneGraph} {before children : List Nat},
      2 ≤ children.length → children.length ≤ steps →
      Forest sources graph (before ++ children) →
      Forest sources (graph.unionSteps steps children).1
        (before ++ [(graph.unionSteps steps children).2])
  | 0, _, _, _, several, enough, _ => absurd (Nat.le_trans several enough) (by decide)
  | steps + 1, graph, before, children, several, enough, h => by
    rw [unionSteps]
    split
    · next few => exact h.pushUnion ⟨several, few⟩
    · next many =>
      obtain ⟨two, fewer⟩ := length_chunks_lt (by decide : 1 < ShaderLibrary.maxOperands)
        (Nat.lt_of_not_le many)
      rw [← flatten_chunks (by decide : 0 < ShaderLibrary.maxOperands) _ children
        (Nat.le_refl _)] at h
      obtain ⟨forest, length⟩ := unionEach_forest _
        (length_of_mem_chunks (by decide) children.length children) h
      exact unionSteps_forest steps (by omega) (by omega) forest

namespace Forest

/-- **However many nodes a union unites, two or more, it leaves one.** -/
theorem union (h : Forest sources graph (before ++ children)) (several : 2 ≤ children.length) :
    Forest sources (graph.union children).1 (before ++ [(graph.union children).2]) :=
  unionSteps_forest children.length several (Nat.le_refl _) h

/-! ### Nodes of layers -/

/-- **Settling how many operands a layer gets leaves one node, or none where there was
none.** -/
theorem settle (h : Forest sources graph (before ++ children)) {index count : Nat}
    (takes : Takes sources count (.layer index)) :
    Forest sources (graph.settle (.layer index) count children).1
      (before ++ (graph.settle (.layer index) count children).2.toList) := by
  cases OperandCount.of count children with
  | exact =>
    rw [settle_exact]
    exact h.push takes
  | dropped count =>
    rw [settle_dropped]
    exact h
  | promoted count lone =>
    rw [settle_promoted]
    exact h
  | united first second others few =>
    rw [settle_united _ _ _ _ _ few]
    exact h.union (by simp)
  | generator first others =>
    rw [settle_extra _ _ (Nat.succ_pos _) (by decide) (by decide)]
    have pushed := (show Forest sources graph ((before ++ first :: others) ++ []) by
      rw [List.append_nil]; exact h).push takes
    have turned := pushed.swap
    rw [List.append_assoc] at turned
    exact turned.union (by simp)
  | unary first second others =>
    rw [settle_unary]
    exact (h.union (by simp)).push takes
  | binary first second third others =>
    rw [settle_binary]
    have united := (show Forest sources graph ((before ++ [first]) ++ second :: third :: others) by
      rw [List.append_assoc]; exact h).union (by simp)
    rw [List.append_assoc] at united
    exact united.push takes
  | @extra count _ extra =>
    rw [settle_extra _ _ extra (by omega) (by omega)]
    have parted : Forest sources graph
        ((before ++ children.take (count + 3)) ++ children.drop (count + 3)) := by
      rwa [List.append_assoc, List.take_append_drop]
    have full : (children.take (count + 3)).length = count + 3 := by
      rw [List.length_take]
      omega
    have turned := (parted.swap.push (by rw [full]; exact takes)).swap
    rw [List.append_assoc] at turned
    refine turned.union ?_
    rw [List.length_append, List.length_singleton, List.length_drop]
    omega

end Forest

/-- What a step leaves that makes a node of a source, where it becomes one. -/
def StepGrows (sources : List SceneSource)
    (step : SceneGraph → Nat → SceneGraph × Option Nat) : Prop :=
  ∀ {graph : SceneGraph} {tops : List Nat} (place : Nat), Forest sources graph tops →
    Forest sources (step graph place).1 (tops ++ (step graph place).2.toList)

/-- Collecting nodes adds them to those without a parent, and not more than the limit. -/
theorem collect_forest {step : SceneGraph → Nat → SceneGraph × Option Nat}
    (grows : StepGrows sources step) :
    ∀ (places : List Nat) {graph : SceneGraph} {tops : List Nat} (limit : Nat),
      Forest sources graph tops →
      Forest sources (collect step graph limit places).1
        (tops ++ (collect step graph limit places).2) ∧
      (collect step graph limit places).2.length ≤ limit := by
  intro places
  induction places with
  | nil =>
    intro graph tops limit h
    rw [← List.append_nil tops] at h
    cases limit <;> exact ⟨h, Nat.zero_le _⟩
  | cons place rest ih =>
    intro graph tops limit h
    cases limit with
    | zero =>
      rw [← List.append_nil tops] at h
      exact ⟨h, Nat.zero_le _⟩
    | succ limit =>
      have stepped := grows place h
      rw [collect]
      cases became : step graph place with
      | mk later node =>
        rw [became] at stepped
        cases node with
        | none => exact ih (limit + 1) (by rwa [Option.toList, List.append_nil] at stepped)
        | some id =>
          obtain ⟨forest, few⟩ := ih limit stepped
          rw [List.append_assoc] at forest
          exact ⟨forest, Nat.succ_le_succ few⟩

/-- **The node of a source, if it becomes one, is all that is left of what was built for
it.** -/
theorem buildNode_forest : ∀ steps : Nat, StepGrows sources (buildNode sources steps)
  | 0, graph, tops, _, h => by
    rw [← List.append_nil tops] at h
    exact h
  | steps + 1, graph, tops, place, h => by
    have nothing : Forest sources graph (tops ++ []) := by rwa [List.append_nil]
    rw [buildNode]
    cases present : sources[place]? with
    | none => exact nothing
    | some source =>
      obtain ⟨arity, inside⟩ := source
      cases arity with
      | none => exact nothing
      | some arity =>
        cases arity with
        | variadic =>
          obtain ⟨forest, few⟩ := collect_forest (buildNode_forest steps) inside
            ShaderLibrary.maxOperands h
          exact forest.push ⟨_, present, .inr ⟨rfl, few⟩⟩
        | fixed count =>
          obtain ⟨forest, _⟩ := collect_forest (buildNode_forest steps) inside inside.length h
          exact forest.settle ⟨_, present, .inl rfl⟩

/-! ### The whole graph -/

/-- **What is built is a forest of which the root is the only tree.** -/
theorem build_forest (sources : List SceneSource) (roots : List Nat) :
    Forest sources (build sources roots) (build sources roots).root.toList := by
  have grows : StepGrows sources (buildNode sources (sources.length + 1)) := buildNode_forest _
  obtain ⟨forest, _⟩ := collect_forest grows roots roots.length forest_empty
  revert forest
  unfold build
  cases collect (buildNode sources (sources.length + 1)) {} roots.length roots with
  | mk graph ids =>
    intro forest
    match ids, forest with
    | [], forest => exact { forest with }
    | [_], forest => exact { forest with }
    | first :: second :: others, forest =>
      have started : Forest sources graph ([] ++ first :: second :: others) := forest
      have united := started.union (by simp)
      exact { united with }

theorem hasChild_iff {parent child : Nat} :
    graph.HasChild parent child ↔
      ∃ node, graph.nodes[parent]? = some node ∧ child ∈ node.children := by
  unfold HasChild childAt
  constructor
  · rintro ⟨position, found⟩
    obtain ⟨node, there, isChild⟩ := Option.bind_eq_some_iff.mp found
    exact ⟨node, there, List.mem_of_getElem? isChild⟩
  · rintro ⟨node, there, isChild⟩
    obtain ⟨position, found⟩ := List.getElem?_of_mem isChild
    exact ⟨position, by rw [there]; exact found⟩

namespace Forest

theorem nodup (h : Forest sources graph tops) :
    (graph.nodes.flatMap (·.children) ++ tops).Nodup :=
  h.once.nodup_iff.mpr List.nodup_range

theorem not_hasChild_of_top (h : Forest sources graph tops) {id : Nat} (top : id ∈ tops)
    (parent : Nat) : ¬ graph.HasChild parent id := by
  intro child
  obtain ⟨node, there, isChild⟩ := hasChild_iff.mp child
  exact (List.nodup_append.mp h.nodup).2.2 id
    (List.mem_flatMap.mpr ⟨node, List.mem_of_getElem? there, isChild⟩) id top rfl

theorem exists_parent (h : Forest sources graph tops) {id : Nat} (inside : id < graph.nodes.length)
    (notTop : id ∉ tops) : ∃ parent, graph.HasChild parent id ∧ id < parent := by
  have listed := h.once.mem_iff.mpr (List.mem_range.mpr inside)
  obtain ⟨node, there, isChild⟩ := List.mem_flatMap.mp ((List.mem_append.mp listed).resolve_right
    notTop)
  obtain ⟨parent, found⟩ := List.getElem?_of_mem there
  refine ⟨parent, hasChild_iff.mpr ⟨node, found, isChild⟩, ?_⟩
  rw [← h.placed parent node found]
  exact h.below node there id isChild

/-- A node is the child of one node only, and only once. -/
theorem place_unique (h : Forest sources graph tops) {id : Nat} {place other : Nat × Nat}
    (found : graph.childAt place.1 place.2 = some id)
    (again : graph.childAt other.1 other.2 = some id) : place = other := by
  obtain ⟨node, there, isChild⟩ := Option.bind_eq_some_iff.mp found
  obtain ⟨node', there', isChild'⟩ := Option.bind_eq_some_iff.mp again
  obtain ⟨each, apart⟩ := List.nodup_flatMap.mp (List.nodup_append.mp h.nodup).1
  obtain ⟨inside, atParent⟩ := List.getElem?_eq_some_iff.mp there
  obtain ⟨inside', atOther⟩ := List.getElem?_eq_some_iff.mp there'
  have disjoint := List.pairwise_iff_getElem.mp apart
  rcases Nat.lt_trichotomy place.1 other.1 with less | same | greater
  · have never := disjoint _ _ inside inside' less
    rw [atParent, atOther] at never
    exact absurd (List.mem_of_getElem? isChild') (never (List.mem_of_getElem? isChild))
  · rw [same, there'] at there
    cases there
    obtain ⟨short, _⟩ := List.getElem?_eq_some_iff.mp isChild
    have equal := (List.nodup_iff_getElem?_ne_getElem?.mp (each node (List.mem_of_getElem? there')))
    refine Prod.ext same ?_
    rcases Nat.lt_trichotomy place.2 other.2 with less | same | greater
    · obtain ⟨short', _⟩ := List.getElem?_eq_some_iff.mp isChild'
      exact absurd (isChild.trans isChild'.symm) (equal _ _ less short')
    · exact same
    · exact absurd (isChild'.trans isChild.symm) (equal _ _ greater short)
  · have never := disjoint _ _ inside' inside greater
    rw [atParent, atOther] at never
    exact absurd (List.mem_of_getElem? isChild) (never (List.mem_of_getElem? isChild'))

/-- Every node stands under the only one without a parent: the way up leads to later nodes. -/
theorem reached {root : Nat} (h : Forest sources graph [root]) :
    ∀ (left id : Nat), id < graph.nodes.length → graph.nodes.length ≤ id + left →
      Relation.ReflTransGen graph.HasChild root id
  | 0, id, inside, close => absurd inside (by omega)
  | left + 1, id, inside, close => by
    by_cases top : id = root
    · rw [top]
    · obtain ⟨parent, child, later⟩ := h.exists_parent inside (by simpa using top)
      obtain ⟨node, there, _⟩ := hasChild_iff.mp child
      exact (h.reached left parent (List.getElem?_eq_some_iff.mp there).1 (by omega)).tail child

/-- A forest with no tree has no nodes: its last node would have no parent. -/
theorem nodes_eq_nil (h : Forest sources graph []) : graph.nodes = [] := by
  by_contra nonempty
  have last : graph.nodes.length - 1 < graph.nodes.length :=
    Nat.sub_lt (List.length_pos_iff.mpr nonempty) (by decide)
  obtain ⟨parent, child, later⟩ := h.exists_parent last List.not_mem_nil
  obtain ⟨node, there, _⟩ := hasChild_iff.mp child
  have inside := (List.getElem?_eq_some_iff.mp there).1
  omega

/-- **A forest whose only tree is the one of the root is well formed.** -/
theorem wellFormed (h : Forest sources graph graph.root.toList) : graph.WellFormed sources := by
  have single : ∀ root ∈ graph.root, Forest sources graph [root] := by
    intro root isRoot
    rw [Option.mem_def.mp isRoot] at h
    exact h
  refine ⟨h.placed, h.below, ?_, ?_, ?_, ?_, ?_, h.takes, h.numbered⟩
  · intro rootless
    rw [rootless] at h
    exact h.nodes_eq_nil
  · exact fun root isRoot => (single root isRoot).lt_of_top List.mem_cons_self
  · exact fun root isRoot id inside =>
      (single root isRoot).reached graph.nodes.length id inside (Nat.le_add_left _ _)
  · intro root isRoot id inside other
    obtain ⟨parent, ⟨position, found⟩, _⟩ :=
      (single root isRoot).exists_parent inside (by simpa using other)
    exact ⟨(parent, position), found, fun place again => h.place_unique again found⟩
  · exact fun root isRoot => (single root isRoot).not_hasChild_of_top List.mem_cons_self

end Forest

/-- **Every graph that is built is a tree of nodes with as many children as they take.** -/
theorem build_wellFormed (sources : List SceneSource) (roots : List Nat) :
    (build sources roots).WellFormed sources :=
  (build_forest sources roots).wellFormed

end

end SceneGraph
end Collage
