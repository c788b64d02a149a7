import Collage.Program.Wrapped

/-!
# Graphs of distance layers

A distance layer combines the layers inside it, but may hold more or fewer of
them than it takes.  `SceneGraph.build` settles that: a layer with too few is
left out, replaced by its only operand or by a union of those it has; the
operands that are too many are united.  In the result every node has as many
children as its owner takes, and children come before their parents.
-/

namespace Collage

/-- A distance layer as written. -/
structure SceneSource where
  /-- how many operands it takes; none when the layer cannot be used -/
  arity : Option Arity
  /-- the layers inside it, the first on top -/
  children : List Nat
  deriving Repr, DecidableEq

/-- What a node stands for. -/
inductive NodeOwner
  | layer (index : Nat)
  | union (index : Nat)
  deriving Repr, DecidableEq

/-- A node of a scene. -/
structure SceneNode where
  id : Nat
  owner : NodeOwner
  children : List Nat
  deriving Repr, DecidableEq

/-- The nodes of a scene, each at the place that is its id. -/
structure SceneGraph where
  nodes : List SceneNode := []
  root : Option Nat := none
  unions : Nat := 0
  deriving Repr, DecidableEq, Inhabited

namespace SceneGraph

/-- Adds a node and gives its id. -/
def push (graph : SceneGraph) (owner : NodeOwner) (children : List Nat) : SceneGraph × Nat :=
  let id := graph.nodes.length
  ({ graph with nodes := graph.nodes ++ [⟨id, owner, children⟩] }, id)

/-- Adds a union, numbered in the order of their making. -/
def pushUnion (graph : SceneGraph) (children : List Nat) : SceneGraph × Nat :=
  { graph with unions := graph.unions + 1 }.push (.union graph.unions) children

/-- Pieces of at most `size` items, given enough steps. -/
def chunks {α : Type} (size : Nat) : Nat → List α → List (List α)
  | 0, _ => []
  | _, [] => []
  | steps + 1, items => items.take size :: chunks size steps (items.drop size)

/-- One node for each piece: a lone item stays as it is. -/
def unionEach (graph : SceneGraph) : List (List Nat) → SceneGraph × List Nat
  | [] => (graph, [])
  | piece :: rest =>
    let (graph, id) :=
      match piece with
      | [lone] => (graph, lone)
      | many => graph.pushUnion many
    let (graph, ids) := unionEach graph rest
    (graph, id :: ids)

/-- A union of children; where there are more than a union takes, it unites
unions of them, given enough steps. -/
def unionSteps (graph : SceneGraph) : Nat → List Nat → SceneGraph × Nat
  | 0, children => graph.pushUnion children
  | steps + 1, children =>
    if children.length ≤ ShaderLibrary.maxOperands then graph.pushUnion children
    else
      let (graph, grouped) :=
        graph.unionEach (chunks ShaderLibrary.maxOperands children.length children)
      unionSteps graph steps grouped

/-- A union of children. -/
def union (graph : SceneGraph) (children : List Nat) : SceneGraph × Nat :=
  graph.unionSteps children.length children

/-- The nodes of sources that become one, until there are `limit` of them. -/
def collect (step : SceneGraph → Nat → SceneGraph × Option Nat) :
    SceneGraph → Nat → List Nat → SceneGraph × List Nat
  | graph, 0, _ => (graph, [])
  | graph, _, [] => (graph, [])
  | graph, limit + 1, source :: rest =>
    match step graph source with
    | (graph, some node) =>
      let (graph, nodes) := collect step graph limit rest
      (graph, node :: nodes)
    | (graph, none) => collect step graph (limit + 1) rest

/-- The node of a layer that takes `count` operands and has these. -/
def settle (graph : SceneGraph) (owner : NodeOwner) (count : Nat) (children : List Nat) :
    SceneGraph × Option Nat :=
  let found := children.length
  if found = count then
    let (graph, node) := graph.push owner children
    (graph, some node)
  else if found < count then
    match children with
    | [] => (graph, none)
    | [child] => (graph, some child)
    | many =>
      let (graph, node) := graph.union many
      (graph, some node)
  else
    match count, children with
    | 1, children =>
      let (graph, operand) := graph.union children
      let (graph, node) := graph.push owner [operand]
      (graph, some node)
    | 2, first :: others =>
      let (graph, rest) := graph.union others
      let (graph, node) := graph.push owner [first, rest]
      (graph, some node)
    | count, children =>
      let (graph, node) := graph.push owner (children.take count)
      let (graph, united) := graph.union (node :: children.drop count)
      (graph, some united)

/-- The node of a source, if it becomes one.  The steps bound how deep sources
are nested. -/
def buildNode (sources : List SceneSource) : Nat → SceneGraph → Nat → SceneGraph × Option Nat
  | 0, graph, _ => (graph, none)
  | steps + 1, graph, index =>
    match sources[index]? with
    | none => (graph, none)
    | some source =>
      match source.arity with
      | none => (graph, none)
      | some .variadic =>
        let (graph, children) :=
          collect (buildNode sources steps) graph ShaderLibrary.maxOperands source.children
        let (graph, node) := graph.push (.layer index) children
        (graph, some node)
      | some (.fixed count) =>
        let (graph, children) :=
          collect (buildNode sources steps) graph source.children.length source.children
        graph.settle (.layer index) count children

/-- The graph of the sources whose outermost ones are `roots`.  No source lies
inside itself, so their number bounds the nesting. -/
def build (sources : List SceneSource) (roots : List Nat) : SceneGraph :=
  let (graph, built) := collect (buildNode sources (sources.length + 1)) {} roots.length roots
  match built with
  | [] => { graph with root := none }
  | [root] => { graph with root := some root }
  | many =>
    let (graph, root) := graph.union many
    { graph with root := some root }

end SceneGraph
end Collage
