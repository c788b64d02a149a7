import Collage.Report.Scene
import Collage.Report.Uniform
import Collage.Tree.Compile

/-!
# Reports of compiled trees

What a document became: its layers with their uniforms and what is wrong with
them, the programs that were built, the scene, and the textures that will be
needed.
-/

namespace Collage

instance : Reported BuiltinLocations where
  report b := [b.resolution, b.time, b.deltaTime, b.frame, b.pointer, b.date,
    b.previousLayer, b.blendMode, b.opacity, b.audioVolume, b.audioPeak, b.audioTrough,
    b.audioReactive, b.audioSpectrum]

instance : Reported SceneUniform :=
  ⟨fun uniform => reportList [uniform.layer, uniform.uniform, uniform.location]⟩

instance : Reported TextureKey where
  report
    | .sampler d => reportList ["texture", d.url, d.filter.name, d.wrap.name]
    | .gradient bits => reportList ["gradient", bits]

namespace CompiledTree

/-- The source of a program from where it differs from all others; a scene in front
is only mentioned. -/
def ownSource (tree : CompiledTree) (program : LayerProgram) : String :=
  let own := textAfter (WrappedSource.header tree.builder.version) program.source
  let afterScene := (tree.scene.filter fun _ => program.usesScene).bind fun scene =>
    withoutStart? scene.code.toList own.toList
  match afterScene with
  | some rest => "<scene>" ++ String.ofList rest
  | none => own

/-- What a layer became, by its kind. -/
def kindParts (tree : CompiledTree) : CompiledKind → List (String × Json)
  | .group _ => [("kind", "group")]
  | .script code => [("kind", "javascript"), ("code", code)]
  | .distance signature _ => [("kind", "sdf"), ("signature", signature)]
  | .shader program => [
    ("kind", "shader"), ("program", program.program), ("source", tree.ownSource program),
    ("usesScene", program.usesScene), ("builtins", program.builtins),
    ("sceneUniforms", program.sceneUniforms)]

/-- A layer at its place. -/
def reportLayer (tree : CompiledTree) (layer : CompiledLayer) (place : Nat) : Json :=
  reportParts ([
    ("index", report place), ("id", layer.id), ("name", layer.name), ("parent", layer.parent),
    ("visible", layer.visible), ("blendMode", layer.blend.name), ("opacity", layer.opacity),
    ("children", layer.children), ("uniforms", layer.uniforms), ("errors", layer.errors),
    ("usesAudio", layer.usesAudio)] ++ tree.kindParts layer.kind)

/-- What is wrong, and which programs there are. -/
def outcomeParts (tree : CompiledTree) : List (String × Json) := [
  ("hasErrors", tree.hasErrors), ("usesAudio", tree.usesAudio),
  ("errors", tree.errors.map fun (id, error) => reportList [id, error, error.display]),
  ("programs", reportParts (tree.layers.zipIdx.map fun (layer, place) =>
    (toString place, report layer.program?)))]

/-- The number of layers and the outcome. -/
def briefReport (tree : CompiledTree) : Json :=
  reportParts (("layers", report tree.layers.length) :: tree.outcomeParts)

/-- All there is to say.  Texture keys and ids are in alphabetical order. -/
def fullReport (tree : CompiledTree) : Json :=
  let layers := tree.layers.zipIdx.map fun (layer, place) => tree.reportLayer layer place
  let keys := tree.textureKeys.map report
  reportParts ([
    ("layers", report layers), ("root", rootPlace), ("scene", tree.scene),
    ("textureKeys", keys.mergeSort fun a b => a.compact ≤ b.compact),
    ("layerIds", tree.layerIds.eraseDups.mergeSort fun a b => a ≤ b)] ++ tree.outcomeParts)

end CompiledTree
end Collage
