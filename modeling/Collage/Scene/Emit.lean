import Collage.Scene.Graph
import Collage.Scene.Mangle
import Collage.Scene.Signature
import Collage.Uniform.Extract

/-!
# Scenes

A scene is the code that all distance layers of a document become together.
Each node has a function that evaluates it and one that passes on the operands
it may ask for; the root is what the scene shows.  The uniforms of the layers
are bound under their new names.
-/

namespace Collage

/-- The code of one node. -/
structure EmittedNode where
  suffix : String
  code : String
  arity : Arity
  deriving Repr, DecidableEq, Inhabited

namespace EmittedNode

/-- The operand numbers of a call that takes several, filled up with zeros. -/
def operandList (children : List Nat) : List String :=
  ((children.map toString) ++ List.replicate ShaderLibrary.maxOperands "0").take
    ShaderLibrary.maxOperands

/-- The call that evaluates a node with these children. -/
def call (node : EmittedNode) (children : List Nat) (context : String) : String :=
  match node.arity with
  | .variadic =>
    "map_" ++ node.suffix ++ "(" ++ context ++ ", gSdfVariadic(" ++ toString children.length ++
      ", int[gSdfMaxChildren](" ++ String.intercalate ", " (operandList children) ++ ")))"
  | .fixed _ =>
    "map_" ++ node.suffix ++ "(" ++ context ++
      String.join (children.map fun child => ", gSdf(" ++ toString child ++ ")") ++ ")"

end EmittedNode

/-- A distance layer that takes part in a scene. -/
structure SceneLayer where
  id : String
  code : String
  /-- none when the layer cannot be used -/
  signature : Option Signature
  uniforms : List Uniform
  /-- the layers inside it, by their places among the layers of the scene -/
  children : List Nat

/-- A uniform of a layer under its name in the scene. -/
structure SceneBinding where
  layer : Nat
  uniform : Nat
  name : String
  deriving Repr, DecidableEq

/-- The code of all distance layers together. -/
structure Scene where
  code : String
  graph : SceneGraph
  bindings : List SceneBinding
  deriving Repr, DecidableEq

namespace Scene

/-- How many lines the code has. -/
def lineCount (scene : Scene) : Nat :=
  WrappedSource.lineCount scene.code

/-- The distance at a position. -/
def distanceFunction : String :=
  unlines [
    "float gSdfDistance(vec3 position) \x7b",
    "    gSdfContext context = gSdfContext(position);",
    "    return gSdfScene(context).distance;",
    "\x7d"]

/-- The function that evaluates the whole scene by an expression. -/
def sceneFunction (expression : String) : String :=
  unlines [
    "gSdfResult gSdfScene(inout gSdfContext context) \x7b",
    "    return " ++ expression ++ ";",
    "\x7d"]

/-- The case of a dispatcher that evaluates a child. -/
def dispatchCase (graph : SceneGraph) (emitted : List EmittedNode) (child : Nat) : String :=
  match graph.nodes[child]?, emitted[child]? with
  | some node, some code =>
    "        case " ++ toString child ++ ": return " ++ code.call node.children "context" ++ ";"
  | _, _ => ""

/-- The function that passes on the operands of a node. -/
def dispatcher (graph : SceneGraph) (emitted : List EmittedNode) (node : SceneNode)
    (code : EmittedNode) : String :=
  unlines ([
    "gSdfResult gSdfMap_" ++ code.suffix ++ "(inout gSdfContext context, gSdf node) \x7b",
    "    switch (node.id) \x7b"] ++
    node.children.map (dispatchCase graph emitted) ++ [
    "        default: return gSdfEmpty();",
    "    \x7d",
    "\x7d"])

/-- The code of a scene; `emitted` holds the code of each node. -/
def emit (graph : SceneGraph) (emitted : List EmittedNode) : String :=
  let root := graph.root.bind fun root =>
    match graph.nodes[root]?, emitted[root]? with
    | some node, some code => some (code.call node.children "context")
    | _, _ => none
  match root with
  | none =>
    ShaderLibrary.distancePrelude ++ sceneFunction "gSdfEmpty()" ++ distanceFunction
  | some expression =>
    ShaderLibrary.distancePrelude ++
      String.join (List.zipWith
        (fun node code => dispatcher graph emitted node code ++ WrappedSource.endLine code.code)
        graph.nodes emitted) ++
      sceneFunction expression ++ distanceFunction

/-- The code of a node, and the uniforms it binds. -/
def emitNode (layers : List SceneLayer) (node : SceneNode) : EmittedNode × List SceneBinding :=
  match node.owner with
  | .layer index =>
    match layers[index]? with
    | some layer =>
      let suffix := Mangle.suffix node.id layer.id
      let spans := Mangle.layerSpans layer.code
        (layer.uniforms.map fun u => (u.name, u.occurrences))
      (⟨suffix, Mangle.apply layer.code spans suffix,
          (layer.signature.map (·.arity)).getD (.fixed 0)⟩,
        layer.uniforms.mapIdx fun uniform declared =>
          ⟨index, uniform, Mangle.mangled declared.name suffix⟩)
    | none => (⟨Mangle.suffix node.id "", "", .fixed 0⟩, [])
  | .union index =>
    let suffix := Mangle.suffix node.id ("union" ++ toString index)
    let source := ShaderLibrary.unionLayer
    (⟨suffix, Mangle.apply source (Mangle.layerSpans source []) suffix, .variadic⟩, [])

/-- The scene of distance layers whose outermost ones are `roots`. -/
def build (layers : List SceneLayer) (roots : List Nat) : Scene :=
  let sources := layers.map fun layer =>
    (⟨layer.signature.map (·.arity), layer.children⟩ : SceneSource)
  let graph := SceneGraph.build sources roots
  let nodes := graph.nodes.map (emitNode layers)
  ⟨emit graph (nodes.map (·.1)), graph, nodes.flatMap (·.2)⟩

end Scene
end Collage
