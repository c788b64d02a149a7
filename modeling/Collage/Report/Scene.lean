import Collage.Report.Basic
import Collage.Scene.Emit

/-!
# Reports of scenes

What distance layers became: their signatures, the graph of the scene, its code
and the names under which it binds uniforms.
-/

namespace Collage

instance : Reported Diagnostic :=
  ⟨fun d => reportList [d.line, d.severity.word, d.text]⟩

instance : Reported Arity where
  report
    | .fixed count => report count
    | .variadic => report "variadic"

instance : Reported Signature where
  report signature := reportParts [
    ("arity", signature.arity), ("context", signature.context),
    ("parameters", signature.parameters),
    ("halfExtents", signature.attributes.halfExtents),
    ("attributes", reportParts signature.attributes.raw)]

instance : Reported NodeOwner where
  report
    | .layer index => reportList ["layer", index]
    | .union index => reportList ["union", index]

instance : Reported SceneNode :=
  ⟨fun node => reportList [node.id, node.owner, node.children]⟩

instance : Reported SceneGraph where
  report graph := reportParts [
    ("nodes", graph.nodes), ("root", graph.root), ("unions", graph.unions),
    ("empty", graph.root.isNone)]

instance : Reported SceneBinding :=
  ⟨fun binding => reportList [binding.layer, binding.uniform, binding.name]⟩

/-- A text without a fixed beginning, if it begins so. -/
def textAfter (start whole : String) : String :=
  String.ofList ((withoutStart? start.toList whole.toList).getD whole.toList)

/-- The code of a scene is reported without what all scenes begin with. -/
instance : Reported Scene where
  report scene := reportParts [
    ("code", textAfter ShaderLibrary.distancePrelude scene.code), ("lines", scene.lineCount),
    ("graph", scene.graph), ("bindings", scene.bindings)]

end Collage
