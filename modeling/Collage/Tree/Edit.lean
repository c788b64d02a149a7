import Collage.Tree.Basic

/-!
# Edited values

The values of a compiled tree can be changed without compiling it again, and be
written back into the document that it came from.
-/

namespace Collage

/-- The uniform with another value, read as one of its kind. -/
def Uniform.withValue (uniform : Uniform) (value : ShaderValue) : Uniform :=
  { uniform with
    value :=
      ⟨uniform.name, uniform.kind.coerce value.value.toJson,
        value.curve.filter fun _ => uniform.kind.acceptsCurve⟩ }

namespace CompiledTree

/-- Changes the first uniform of a name; `none` when there is none. -/
def editUniform? (value : ShaderValue) : List Uniform → Option (List Uniform)
  | [] => none
  | uniform :: rest =>
    if uniform.name = value.name then some (uniform.withValue value :: rest)
    else (editUniform? value rest).map (uniform :: ·)

/-- Replaces a value of the first layer with an id.  Gives the tree, and whether
the layer declares a uniform of that name. -/
def setValue (tree : CompiledTree) (id : String) (value : ShaderValue) :
    Except Failure (Bool × CompiledTree) :=
  match tree.find? id with
  | none => .error (.unknownLayer id)
  | some place =>
    match (tree.layer? place).bind fun layer => editUniform? value layer.uniforms with
    | none => .ok (false, tree)
    | some uniforms =>
      .ok (true, { tree with
        layers := tree.layers.modify place fun layer => { layer with uniforms } })

/-- Writes the values of a layer into a document. -/
def writeLayer (document : Layer) (layer : CompiledLayer) : Layer :=
  if layer.isGroup then document else document.editValues layer.id layer.values

/-- Writes the values of all layers into a document. -/
def writeValues (tree : CompiledTree) (document : Layer) : Layer :=
  tree.layers.foldl writeLayer document

end CompiledTree
end Collage
