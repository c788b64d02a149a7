import Collage.Shader.Declaration
import Collage.Uniform.Kind

/-!
# Uniforms of a layer

`Uniform.extract` finds the uniforms that a source declares and gives each a
value.  A value that was stored before is kept for the uniform of its name, or,
when a uniform was renamed, for the one at its place; each stored value is kept
at most once.
-/

namespace Collage

/-- A uniform that the code of a layer declares. -/
structure Uniform where
  name : String
  type : String
  kind : UniformKind
  settings : Metadata
  /-- where a program keeps it, once one has been linked -/
  location : Option Nat
  /-- the byte offsets at which the name occurs -/
  occurrences : List Nat
  value : ShaderValue
  deriving Inhabited

namespace Uniform

/-- A declared uniform of a supported type. -/
structure Declared where
  declaration : UniformDeclaration
  settings : Metadata
  kind : UniformKind

/-- The first declaration of each name. -/
def firstOfEach (seen : List String) : List UniformDeclaration → List UniformDeclaration
  | [] => []
  | d :: rest =>
    if seen.contains d.name then firstOfEach seen rest
    else d :: firstOfEach (d.name :: seen) rest

/-- The uniforms of supported types that a source declares. -/
def declared (source : List Char) : List Declared :=
  (firstOfEach [] (uniformDeclarations source)).filterMap fun d =>
    let settings := Metadata.parse d.trailing
    (UniformKind.classify d.type settings).map fun kind => ⟨d, settings, kind⟩

/-- The value of a uniform without a stored one. -/
def freshValue (d : Declared) : ShaderValue :=
  ⟨d.declaration.name, d.kind.defaultValue,
    d.settings.curve.filter fun _ => d.kind.acceptsCurve⟩

/-- The value of a uniform with a stored one, which is kept when it is of the
right kind. -/
def keptValue (d : Declared) (stored : ShaderValue) : ShaderValue :=
  if stored.value.kind = d.kind.valueKind then
    ⟨d.declaration.name, d.kind.coerce stored.value.toJson,
      stored.curve.filter fun _ => d.kind.acceptsCurve⟩
  else freshValue d

/-- Which stored value a uniform at a place takes over, when those at the places
`consumed` are taken. -/
def priorIndex (names : List String) (previous : List ShaderValue) (consumed : List Nat)
    (index : Nat) (d : Declared) : Option Nat :=
  let byName := (List.range previous.length).find? fun i =>
    !consumed.contains i && (previous[i]?.any fun v => v.name = d.declaration.name)
  byName.orElse fun _ =>
    (previous[index]?.filter fun v =>
      !consumed.contains index && v.value.kind = d.kind.valueKind &&
        !names.contains v.name).map fun _ => index

/-- The values of uniforms from place `index` on. -/
def reconcileFrom (names : List String) (previous : List ShaderValue) :
    List Nat → Nat → List Declared → List ShaderValue
  | _, _, [] => []
  | consumed, index, d :: rest =>
    match priorIndex names previous consumed index d with
    | some i =>
      (match previous[i]? with
        | some stored => keptValue d stored
        | none => freshValue d) ::
        reconcileFrom names previous (i :: consumed) (index + 1) rest
    | none => freshValue d :: reconcileFrom names previous consumed (index + 1) rest

/-- The values of declared uniforms, given the stored ones. -/
def reconcile (previous : List ShaderValue) (uniforms : List Declared) : List ShaderValue :=
  reconcileFrom (uniforms.map (·.declaration.name)) previous [] 0 uniforms

/-- The uniforms that a source declares, given the stored values; none has a
location yet. -/
def extract (source : String) (previous : List ShaderValue) : List Uniform :=
  let text := source.toList
  let uniforms := declared text
  List.zipWith
    (fun d value =>
      ⟨d.declaration.name, d.declaration.type, d.kind, d.settings, none,
        Collage.occurrences text d.declaration.name.toList, value⟩)
    uniforms (reconcile previous uniforms)

end Uniform
end Collage
