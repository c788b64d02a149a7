import Collage.Shader.Declaration

/-!
# Names that stay apart

When several layers are put into one program, what each of them declares gets a
suffix of its own.  `Mangle.layerSpans` lists the places where such names stand,
and `Mangle.apply` puts the suffix behind each of them.
-/

namespace Collage
namespace Mangle

/-- A byte offset and a length. -/
abbrev Span := Nat × Nat

/-- How many characters of a layer's id become part of a suffix. -/
def idLimit : Nat := 16

/-- The suffix for a node: a letter, the id of the node, and the letters and
digits of the layer's id. -/
def suffix (node : Nat) (layerId : String) : String :=
  "s" ++ toString node ++ String.ofList ((layerId.toList.filter Char.isAlphanum).take idLimit)

/-- A name with its suffix: an underscore stands between them unless the name
ends with one. -/
def mangled (name suffix : String) : String :=
  if name.toList.getLast? = some '_' then name ++ suffix else name ++ "_" ++ suffix

/-- What is put behind a name that ends with `previous`. -/
def insertion (suffix : List Char) (previous : Option Char) : List Char :=
  if previous = some '_' then suffix else '_' :: suffix

/-- Puts the suffix in at each byte offset of `ends`, in a text that `offset`
bytes and the character `previous` come before. -/
def applyFrom (ends : List Nat) (suffix : List Char) (previous : Option Char) (offset : Nat) :
    List Char → List Char
  | [] => if ends.contains offset then insertion suffix previous else []
  | c :: rest =>
    let after := c :: applyFrom ends suffix (some c) (offset + c.utf8Size) rest
    if ends.contains offset then insertion suffix previous ++ after else after

/-- Puts the suffix in at the end of each span; spans that end at one place count
once, and those that end beyond the text do not count. -/
def apply (source : String) (spans : List Span) (suffix : String) : String :=
  String.ofList
    (applyFrom (spans.map fun (offset, length) => offset + length) suffix.toList none 0
      source.toList)

/-- The places where a name stands in a source. -/
def spansOf (source : List Char) (name : String) : List Span :=
  (occurrences source name.toList).map fun offset => (offset, name.utf8ByteSize)

/-- The places of all names in a source that have to be kept apart: its uniforms
at the given offsets, its functions, and the two functions of every layer. -/
def layerSpans (source : String) (uniforms : List (String × List Nat)) : List Span :=
  let text := source.toList
  let functions := definedFunctions text
  let fixed := ["map", "gSdfMap"].filter (!functions.contains ·)
  (uniforms.flatMap fun (name, offsets) => offsets.map fun offset => (offset, name.utf8ByteSize)) ++
    (functions ++ fixed).flatMap (spansOf text)

end Mangle
end Collage
