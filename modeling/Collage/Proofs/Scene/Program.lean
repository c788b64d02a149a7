import Collage.Proofs.Scene.Names
import Collage.Proofs.Scene.Shape

/-!
# The program of a scene

The code of a scene is the text of a list of definitions: for each node the function that
passes on its operands and the code of its layer, and at last the scene itself.  `program`
is that list, with the calls that stand in it, and `build_code` says that the code is its
text.

The rest is about the calls.  Each is the call of a node with the children of that node, in
the form in which its layer takes them (`fits_callOf`), and what a definition calls has been
defined before it, since children are nodes before their parent (`callees_before`).
-/

namespace Collage
namespace Scene

/-! ### Calls -/

/-- The operands that a call passes. -/
inductive Passed
  /-- one after another -/
  | each (ids : List Nat)
  /-- how many there are, and a list with places for more -/
  | packed (count : Nat) (ids : List Nat)
  deriving Repr, DecidableEq

namespace Passed

/-- The operands that the callee receives. -/
def received : Passed → List Nat
  | each ids => ids
  | packed count ids => ids.take count

/-- The operands in the code of a call. -/
def text : Passed → String
  | each ids => String.join (ids.map fun id => ", gSdf(" ++ toString id ++ ")")
  | packed count ids =>
    ", gSdfVariadic(" ++ toString count ++ ", int[gSdfMaxChildren](" ++
      String.intercalate ", " (ids.map toString) ++ "))"

end Passed

/-- How a layer of an arity gets these operands: a list is filled up with zeros. -/
def passing (arity : Arity) (children : List Nat) : Passed :=
  match arity with
  | .fixed _ => .each children
  | .variadic =>
    .packed children.length ((children ++ List.replicate ShaderLibrary.maxOperands 0).take
      ShaderLibrary.maxOperands)

/-- A call of the function of a node. -/
structure NodeCall where
  suffix : String
  passed : Passed
  deriving Repr, DecidableEq

/-- The code of a call. -/
def NodeCall.text (call : NodeCall) (context : String) : String :=
  "map_" ++ call.suffix ++ "(" ++ context ++ call.passed.text ++ ")"

variable (layers : List SceneLayer)

/-- How many operands the code of a node takes. -/
def arityOf (node : SceneNode) : Arity :=
  (emitNode layers node).1.arity

/-- The call that evaluates a node. -/
def callOf (node : SceneNode) : NodeCall :=
  ⟨suffixOf layers node, passing (arityOf layers node) node.children⟩

theorem map_toString_operands (children : List Nat) :
    ((children ++ List.replicate ShaderLibrary.maxOperands 0).take
      ShaderLibrary.maxOperands).map toString = EmittedNode.operandList children := by
  unfold EmittedNode.operandList
  rw [List.map_take, List.map_append, List.map_replicate]
  rfl

theorem text_callOf (node : SceneNode) (context : String) :
    (callOf layers node).text context =
      (emitNode layers node).1.call node.children context := by
  unfold NodeCall.text callOf EmittedNode.call arityOf passing suffixOf Passed.text
  cases (emitNode layers node).1.arity with
  | fixed count => simp only [String.append_assoc]
  | variadic => simp only [map_toString_operands, String.append_assoc]; rfl

/-! ### Definitions -/

/-- A definition in the code of a scene. -/
inductive Definition
  /-- the function that passes on operands: the call for each of them -/
  | dispatcher (suffix : String) (cases : List (Nat × NodeCall))
  /-- the code of a layer that takes so many operands -/
  | layer (suffix : String) (owner : NodeOwner) (arity : Arity) (code : String)
  /-- the scene: the call of the root -/
  | scene (call : Option NodeCall)
  deriving Repr, DecidableEq

namespace Definition

/-- The code of a case. -/
def caseText (entry : Nat × NodeCall) : String :=
  "        case " ++ toString entry.1 ++ ": return " ++ entry.2.text "context" ++ ";"

/-- The code of a definition. -/
def text : Definition → String
  | dispatcher suffix cases =>
    unlines ([
      "gSdfResult gSdfMap_" ++ suffix ++ "(inout gSdfContext context, gSdf node) \x7b",
      "    switch (node.id) \x7b"] ++ cases.map caseText ++ [
      "        default: return gSdfEmpty();",
      "    \x7d",
      "\x7d"])
  | layer _ _ _ code => WrappedSource.endLine code
  | scene call => sceneFunction ((call.map (·.text "context")).getD "gSdfEmpty()")

/-- The function that is defined. -/
def name : Definition → String
  | dispatcher suffix _ => "gSdfMap_" ++ suffix
  | layer suffix _ _ _ => "map_" ++ suffix
  | scene _ => "gSdfScene"

/-- The calls of nodes in a definition. -/
def calls : Definition → List NodeCall
  | dispatcher _ cases => cases.map (·.2)
  | layer _ _ _ _ => []
  | scene call => call.toList

/-- The functions that a definition calls; the code of a layer calls its dispatcher. -/
def callees : Definition → List String
  | layer suffix _ _ _ => ["gSdfMap_" ++ suffix]
  | definition => definition.calls.map fun call => "map_" ++ call.suffix

end Definition

/-- The cases of a dispatcher: one for each child that is a node. -/
def casesOf (graph : SceneGraph) (node : SceneNode) : List (Nat × NodeCall) :=
  node.children.filterMap fun child =>
    graph.nodes[child]?.map fun found => (child, callOf layers found)

/-- What is defined for a node. -/
def definitionsOf (graph : SceneGraph) (node : SceneNode) : List Definition :=
  [.dispatcher (suffixOf layers node) (casesOf layers graph node),
    .layer (suffixOf layers node) node.owner (arityOf layers node) (emitNode layers node).1.code]

/-- The call of the root. -/
def rootCall (graph : SceneGraph) : Option NodeCall :=
  graph.root.bind fun root => graph.nodes[root]?.map (callOf layers)

/-- The definitions in the code of a scene. -/
def program (graph : SceneGraph) : List Definition :=
  graph.nodes.flatMap (definitionsOf layers graph) ++ [.scene (rootCall layers graph)]

/-! ### The text of a program -/

variable {layers} {graph : SceneGraph}

theorem caseText_eq {child : Nat} {found : SceneNode} (there : graph.nodes[child]? = some found) :
    Definition.caseText (child, callOf layers found) =
      dispatchCase graph (graph.nodes.map fun node => (emitNode layers node).1) child := by
  unfold Definition.caseText dispatchCase
  rw [List.getElem?_map, there, text_callOf]
  rfl

/-- Where all children are nodes there is a case for each, with the code that is emitted. -/
theorem casesOf_map {node : SceneNode}
    (children : ∀ child ∈ node.children, child < graph.nodes.length) :
    (casesOf layers graph node).map (·.1) = node.children ∧
    (casesOf layers graph node).map Definition.caseText = node.children.map
      (dispatchCase graph (graph.nodes.map fun node => (emitNode layers node).1)) := by
  unfold casesOf
  generalize node.children = ids at children ⊢
  induction ids with
  | nil => exact ⟨rfl, rfl⟩
  | cons child rest ih =>
    obtain ⟨found, there⟩ : ∃ found, graph.nodes[child]? = some found :=
      ⟨_, List.getElem?_eq_getElem (children child List.mem_cons_self)⟩
    obtain ⟨labels, texts⟩ := ih fun other inside => children other (List.mem_cons_of_mem _ inside)
    rw [List.filterMap_cons, there]
    refine ⟨congrArg (child :: ·) labels, ?_⟩
    rw [List.map_cons, ← texts, ← caseText_eq there]
    rfl

theorem mem_casesOf {node : SceneNode} {entry : Nat × NodeCall} :
    entry ∈ casesOf layers graph node ↔ entry.1 ∈ node.children ∧
      ∃ found, graph.nodes[entry.1]? = some found ∧ entry.2 = callOf layers found := by
  unfold casesOf
  rw [List.mem_filterMap]
  constructor
  · rintro ⟨child, isChild, same⟩
    obtain ⟨found, there, rfl⟩ := Option.map_eq_some_iff.mp same
    exact ⟨isChild, found, there, rfl⟩
  · rintro ⟨isChild, found, there, call⟩
    exact ⟨entry.1, isChild, by rw [there, Option.map_some, ← call]⟩

theorem text_dispatcher {node : SceneNode}
    (children : ∀ child ∈ node.children, child < graph.nodes.length) :
    (Definition.dispatcher (suffixOf layers node) (casesOf layers graph node)).text =
      dispatcher graph (graph.nodes.map fun node => (emitNode layers node).1) node
        (emitNode layers node).1 := by
  rw [Definition.text, (casesOf_map children).2]
  rfl

theorem join_definitions {nodes : List SceneNode}
    (children : ∀ node ∈ nodes, ∀ child ∈ node.children, child < graph.nodes.length) :
    String.join ((nodes.flatMap (definitionsOf layers graph)).map Definition.text) =
      String.join (nodes.map fun node =>
        dispatcher graph (graph.nodes.map fun node => (emitNode layers node).1) node
          (emitNode layers node).1 ++ WrappedSource.endLine (emitNode layers node).1.code) := by
  induction nodes with
  | nil => rfl
  | cons node rest ih =>
    rw [List.flatMap_cons, List.map_append, String.join_append, List.map_cons, String.join_cons,
      ih fun other inside => children other (List.mem_cons_of_mem _ inside), definitionsOf,
      List.map_cons, List.map_cons, List.map_nil, String.join_cons, String.join_cons,
      String.join_nil, String.append_empty, text_dispatcher (children node List.mem_cons_self)]
    rfl

/-- The code of a graph that is a tree is the text of its program. -/
theorem emit_eq {sources : List SceneSource}
    (forest : SceneGraph.Forest sources graph graph.root.toList) :
    emit graph (graph.nodes.map fun node => (emitNode layers node).1) =
      ShaderLibrary.distancePrelude ++
        String.join ((program layers graph).map Definition.text) ++ distanceFunction := by
  have children : ∀ node ∈ graph.nodes, ∀ child ∈ node.children, child < graph.nodes.length :=
    fun _ inside _ isChild => forest.lt_of_child inside isChild
  unfold emit program rootCall
  rw [List.map_append, String.join_append, join_definitions children, List.map_singleton,
    String.join_cons, String.join_nil, String.append_empty]
  cases isRoot : graph.root with
  | none =>
    rw [isRoot] at forest
    rw [forest.nodes_eq_nil]
    rfl
  | some root =>
    rw [isRoot] at forest
    obtain ⟨found, there⟩ : ∃ found, graph.nodes[root]? = some found :=
      ⟨_, List.getElem?_eq_getElem (forest.lt_of_top List.mem_cons_self)⟩
    rw [Option.bind_some, Option.bind_some, there, List.getElem?_map, there, Option.map_some,
      Option.map_some]
    dsimp only
    rw [List.zipWith_map_right, List.zipWith_self, Definition.text, Option.map_some,
      Option.getD_some, text_callOf]
    simp only [String.append_assoc]

/-- **The code of a scene is the text of its program**, with what all scenes have before and
behind it. -/
theorem build_code (layers : List SceneLayer) (roots : List Nat) :
    (build layers roots).code = ShaderLibrary.distancePrelude ++
      String.join ((program layers (build layers roots).graph).map Definition.text) ++
      distanceFunction := by
  unfold build
  dsimp only
  rw [List.map_map]
  exact emit_eq (SceneGraph.build_forest _ roots)

/-! ### Operands -/

/-- A call passes operands the way a layer of an arity takes them: one after another, or in a
list that is filled up with zeros. -/
inductive Fits (children : List Nat) : Arity → Passed → Prop
  | each : Fits children (.fixed children.length) (.each children)
  | packed {ids : List Nat} : ids.length = ShaderLibrary.maxOperands →
      ids.take children.length = children → (∀ id ∈ ids.drop children.length, id = 0) →
      Fits children .variadic (.packed children.length ids)

theorem Fits.received {children : List Nat} {arity : Arity} {passed : Passed}
    (h : Fits children arity passed) : passed.received = children := by
  cases h with
  | each => rfl
  | packed _ operands _ => exact operands

theorem fits_variadic {children : List Nat} (few : children.length ≤ ShaderLibrary.maxOperands) :
    Fits children .variadic (passing .variadic children) := by
  refine .packed ?_ ?_ ?_
  · rw [List.length_take, List.length_append, List.length_replicate]
    omega
  · rw [List.take_take, Nat.min_eq_left few, List.take_left]
  · intro id padding
    rw [List.drop_take, List.drop_left] at padding
    exact List.eq_of_mem_replicate (List.mem_of_mem_take padding)

/-- The layers as the graph is built of them. -/
def sourcesOf (layers : List SceneLayer) : List SceneSource :=
  layers.map fun layer => ⟨layer.signature.map (·.arity), layer.children⟩

/-- **A node is called with its children, as its layer takes them.** -/
theorem fits_callOf {node : SceneNode}
    (takes : SceneGraph.Takes (sourcesOf layers) node.children.length node.owner) :
    Fits node.children (arityOf layers node) (callOf layers node).passed := by
  unfold callOf arityOf emitNode
  cases owner : node.owner with
  | union index =>
    rw [owner] at takes
    exact fits_variadic takes.2
  | layer index =>
    rw [owner] at takes
    obtain ⟨source, there, takes⟩ := takes
    obtain ⟨layer, found, rfl⟩ := Option.map_eq_some_iff.mp (List.getElem?_map ▸ there)
    dsimp only at takes ⊢
    rw [found]
    dsimp only
    rcases takes with fixed | ⟨variadic, few⟩
    · rw [fixed]
      exact .each
    · rw [variadic]
      exact fits_variadic few

/-! ### What the calls say -/

theorem mem_rootCall {call : NodeCall} (h : call ∈ rootCall layers graph) :
    ∃ root ∈ graph.root, ∃ node, graph.nodes[root]? = some node ∧ call = callOf layers node := by
  obtain ⟨root, isRoot, there⟩ := Option.bind_eq_some_iff.mp h
  obtain ⟨node, found, rfl⟩ := Option.map_eq_some_iff.mp there
  exact ⟨root, isRoot, node, found, rfl⟩

/-- Whatever is called is the function of a node, with the children of that node. -/
theorem exists_node_of_call {definition : Definition} (inside : definition ∈ program layers graph)
    {call : NodeCall} (called : call ∈ definition.calls) :
    ∃ node ∈ graph.nodes, call = callOf layers node := by
  unfold program at inside
  rcases List.mem_append.mp inside with inside | inside
  · obtain ⟨node, _, inside⟩ := List.mem_flatMap.mp inside
    rcases List.mem_cons.mp inside with rfl | inside
    · obtain ⟨entry, isCase, rfl⟩ := List.mem_map.mp called
      obtain ⟨_, found, there, same⟩ := mem_casesOf.mp isCase
      exact ⟨found, List.mem_of_getElem? there, same⟩
    · cases List.mem_singleton.mp inside
      cases called
  · cases List.mem_singleton.mp inside
    obtain ⟨_, _, node, there, same⟩ := mem_rootCall (Option.mem_toList.mp called)
    exact ⟨node, List.mem_of_getElem? there, same⟩

theorem dispatcher_mem_program {node : SceneNode} (inside : node ∈ graph.nodes) :
    .dispatcher (suffixOf layers node) (casesOf layers graph node) ∈ program layers graph :=
  List.mem_append_left _ (List.mem_flatMap.mpr ⟨node, inside, List.mem_cons_self⟩)

theorem map_name_mem {nodes : List SceneNode} {node : SceneNode} (inside : node ∈ nodes) :
    "map_" ++ suffixOf layers node ∈
      (nodes.flatMap (definitionsOf layers graph)).map Definition.name := by
  refine List.mem_map.mpr ⟨.layer (suffixOf layers node) node.owner (arityOf layers node)
    (emitNode layers node).1.code, List.mem_flatMap.mpr ⟨node, inside, ?_⟩, rfl⟩
  exact List.mem_cons_of_mem _ List.mem_cons_self

/-- **What a definition calls has been defined before it.** -/
theorem callees_before (forest : SceneGraph.Forest (sourcesOf layers) graph graph.root.toList) :
    ∀ (rest : List SceneNode) {done : List SceneNode} {before after : List Definition}
      {definition : Definition}, graph.nodes = done ++ rest →
      rest.flatMap (definitionsOf layers graph) ++ [.scene (rootCall layers graph)] =
        before ++ definition :: after →
      ∀ name ∈ definition.callees,
        name ∈ (done.flatMap (definitionsOf layers graph) ++ before).map Definition.name
  | [], done, [], after, _, split, parts, name, called => by
    obtain ⟨rfl, _⟩ := List.cons.inj parts
    obtain ⟨call, isRoot, rfl⟩ := List.mem_map.mp called
    obtain ⟨_, _, node, there, rfl⟩ := mem_rootCall (Option.mem_toList.mp isRoot)
    rw [List.append_nil]
    rw [split, List.append_nil] at there
    exact map_name_mem (List.mem_of_getElem? there)
  | [], _, _ :: _, _, _, _, parts, _, _ => by simp at parts
  | node :: rest, done, [], after, _, split, parts, name, called => by
    obtain ⟨rfl, _⟩ := List.cons.inj parts
    obtain ⟨call, isCall, rfl⟩ := List.mem_map.mp called
    obtain ⟨entry, isCase, rfl⟩ := List.mem_map.mp isCall
    obtain ⟨isChild, found, there, same⟩ := mem_casesOf.mp isCase
    have inside : node ∈ graph.nodes := by rw [split]; simp
    have place : node.id = done.length := forest.placed _ node (by rw [split]; simp)
    have before := forest.below node inside _ isChild
    rw [split, List.getElem?_append_left (place ▸ before)] at there
    rw [List.append_nil, same]
    exact map_name_mem (List.mem_of_getElem? there)
  | node :: rest, done, [dispatcher], after, _, split, parts, name, called => by
    obtain ⟨rfl, others⟩ := List.cons.inj parts
    obtain ⟨rfl, _⟩ := List.cons.inj others
    rw [List.mem_singleton.mp called, List.map_append]
    exact List.mem_append_right _ List.mem_cons_self
  | node :: rest, done, dispatcher :: layer :: before, after, definition, split, parts, name,
      called => by
    obtain ⟨rfl, others⟩ := List.cons.inj parts
    obtain ⟨rfl, later⟩ := List.cons.inj others
    have whole : graph.nodes = (done ++ [node]) ++ rest := by rw [split, List.append_assoc]; rfl
    have found := callees_before forest rest whole later name called
    rw [List.flatMap_append, List.append_assoc] at found
    exact found

end Scene
end Collage
