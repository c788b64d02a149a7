import Collage.Scene.Graph

/-!
# Graphs only grow while they are built

Every function of the builder makes its graph from the one it is given by adding
nodes, whatever the sources are: `Grows` has one lemma for each of them, up to
`build_grows`.  So what holds of a graph without nodes and is kept when a node is
added holds of every graph that is built; that each node stands at the place that is
its id is such a thing (`build_placed`).
-/

namespace Collage
namespace SceneGraph

/-- A graph is made from another one by adding nodes. -/
inductive Grows (graph : SceneGraph) : SceneGraph → Prop
  | refl : Grows graph graph
  | push {later : SceneGraph} (owner : NodeOwner) (children : List Nat) :
      Grows graph later → Grows graph (later.push owner children).1
  | pushUnion {later : SceneGraph} (children : List Nat) :
      Grows graph later → Grows graph (later.pushUnion children).1

theorem Grows.trans {a b c : SceneGraph} (h : Grows a b) (h' : Grows b c) : Grows a c := by
  induction h' with
  | refl => exact h
  | push owner children _ ih => exact .push owner children ih
  | pushUnion children _ ih => exact .pushUnion children ih

/-! ### Unions -/

theorem unionEach_grows : ∀ (pieces : List (List Nat)) (graph : SceneGraph),
    Grows graph (graph.unionEach pieces).1
  | [], _ => .refl
  | [] :: rest, _ => .trans (.pushUnion [] .refl) (unionEach_grows rest _)
  | [_] :: rest, graph => unionEach_grows rest graph
  | (one :: two :: more) :: rest, _ =>
    .trans (.pushUnion (one :: two :: more) .refl) (unionEach_grows rest _)

theorem unionSteps_grows : ∀ (steps : Nat) (graph : SceneGraph) (children : List Nat),
    Grows graph (graph.unionSteps steps children).1
  | 0, _, children => .pushUnion children .refl
  | steps + 1, graph, children => by
    rw [unionSteps]
    split
    · exact .pushUnion children .refl
    · exact (unionEach_grows _ graph).trans (unionSteps_grows steps _ _)

theorem union_grows (graph : SceneGraph) (children : List Nat) :
    Grows graph (graph.union children).1 :=
  unionSteps_grows children.length graph children

/-! ### Nodes of layers -/

theorem settle_grows (graph : SceneGraph) (owner : NodeOwner) (count : Nat)
    (children : List Nat) : Grows graph (graph.settle owner count children).1 := by
  unfold settle
  dsimp only
  split
  · exact .push owner children .refl
  · split
    · split
      · exact .refl
      · exact .refl
      · exact union_grows graph children
    · split
      · exact .push owner _ (union_grows graph _)
      · exact .push owner _ (union_grows graph _)
      · exact .trans (.push owner _ .refl) (union_grows _ _)

theorem collect_grows {step : SceneGraph → Nat → SceneGraph × Option Nat}
    (grows : ∀ graph place, Grows graph (step graph place).1) :
    ∀ (places : List Nat) (graph : SceneGraph) (limit : Nat),
      Grows graph (collect step graph limit places).1 := by
  intro places
  induction places with
  | nil =>
    intro graph limit
    cases limit <;> exact .refl
  | cons place rest ih =>
    intro graph limit
    cases limit with
    | zero => exact .refl
    | succ limit =>
      have first := grows graph place
      rw [collect]
      cases became : step graph place with
      | mk later node =>
        rw [became] at first
        cases node with
        | none => exact first.trans (ih later (limit + 1))
        | some id => exact first.trans (ih later limit)

theorem buildNode_grows (sources : List SceneSource) : ∀ (steps : Nat) (graph : SceneGraph)
    (place : Nat), Grows graph (buildNode sources steps graph place).1
  | 0, _, _ => .refl
  | steps + 1, graph, place => by
    have inside := collect_grows (buildNode_grows sources steps)
    unfold buildNode
    split
    · exact .refl
    · split
      · exact .refl
      · exact .push _ _ (inside _ graph _)
      · exact (inside _ graph _).trans (settle_grows _ _ _ _)

/-- **A graph is made from nothing by adding nodes**, but for its root. -/
theorem build_grows (sources : List SceneSource) (roots : List Nat) :
    ∃ grown, Grows {} grown ∧ (build sources roots).nodes = grown.nodes := by
  have grown := collect_grows (buildNode_grows sources (sources.length + 1)) roots {} roots.length
  unfold build
  revert grown
  cases collect (buildNode sources (sources.length + 1)) {} roots.length roots with
  | mk graph ids =>
    intro grown
    match ids with
    | [] => exact ⟨graph, grown, rfl⟩
    | [_] => exact ⟨graph, grown, rfl⟩
    | first :: second :: others =>
      exact ⟨_, grown.trans (union_grows graph (first :: second :: others)), rfl⟩

/-! ### Places -/

/-- Each node stands at the place that is its id. -/
def Placed (nodes : List SceneNode) : Prop :=
  ∀ (place : Nat) (node : SceneNode), nodes[place]? = some node → node.id = place

theorem Placed.concat {nodes : List SceneNode} (h : Placed nodes) (owner : NodeOwner)
    (children : List Nat) : Placed (nodes ++ [⟨nodes.length, owner, children⟩]) := by
  intro place node found
  rcases Nat.lt_trichotomy place nodes.length with before | last | beyond
  · rw [List.getElem?_append_left before] at found
    exact h place node found
  · rw [last, List.getElem?_concat_length] at found
    cases found
    exact last.symm
  · rw [List.getElem?_eq_none (by rw [List.length_append, List.length_singleton]; omega)] at found
    cases found

/-- **The nodes of a graph stand at the places that are their ids.** -/
theorem build_placed (sources : List SceneSource) (roots : List Nat) :
    Placed (build sources roots).nodes := by
  obtain ⟨grown, grows, same⟩ := build_grows sources roots
  rw [same]
  clear same
  induction grows with
  | refl =>
    intro place node found
    rw [List.getElem?_nil] at found
    cases found
  | push owner children _ ih => exact ih.concat owner children
  | pushUnion children _ ih => exact ih.concat _ children

end SceneGraph
end Collage
