import Collage.Program.Diagnostic
import Collage.Program.Library

/-!
# Complete programs

The code of a layer becomes a program when fixed code is put in front of it and
behind it.  `WrappedSource` remembers how many lines stand in front and how many
belong to the layer, so that a driver's log can be read back onto its lines.
-/

namespace Collage

/-- How many operands a distance layer takes. -/
inductive Arity
  | fixed (count : Nat)
  | variadic
  deriving Repr, DecidableEq, Inhabited

/-- A complete fragment program. -/
structure WrappedSource where
  text : String
  /-- how many lines stand in front of the layer's code -/
  linesBefore : Nat
  /-- how many lines the layer's code has, at least one -/
  codeLines : Nat
  deriving Repr, DecidableEq, Inhabited

namespace WrappedSource

/-- A text with a line end at its end. -/
def endLine (text : String) : String :=
  if text.toList.getLast? = some '\n' then text else text ++ "\n"

/-- How many lines a text has. -/
def lineCount (text : String) : Nat :=
  (lines text.toList).length

/-- Code between other code. -/
def assemble (before code after : String) : WrappedSource where
  text := before ++ endLine code ++ after
  linesBefore := lineCount before
  codeLines := max (lineCount code) 1

/-- What stands in front of the code of every layer. -/
def header (version : String) : String :=
  "#version " ++ version ++ "\n" ++ ShaderLibrary.declarations ++ ShaderLibrary.blendConstants ++
    ShaderLibrary.hashFunction ++ ShaderLibrary.blendFunctions ++ ShaderLibrary.helpers

/-- A scene with a line end, or nothing. -/
def sceneText : Option String → String
  | some scene => endLine scene
  | none => ""

/-- The program of a shader layer, with the distance scene in front when it uses
one. -/
def layer (version code : String) (scene : Option String) : WrappedSource :=
  assemble (header version ++ sceneText scene) code ShaderLibrary.footer

/-- The arguments of a call of a distance layer without operands. -/
def emptyOperands : Option Arity → String
  | some .variadic =>
    ", gSdfVariadic(0, int[gSdfMaxChildren](" ++
      String.intercalate ", " (List.replicate ShaderLibrary.maxOperands "0") ++ "))"
  | some (.fixed count) => String.join (List.replicate count ", gSdf(0)")
  | none => ""

/-- The program of a distance layer on its own, whose operands are empty. -/
def standalone (version code : String) (arity : Option Arity) : WrappedSource :=
  assemble
    (header version ++ ShaderLibrary.distancePrelude ++ ShaderLibrary.standaloneDispatch) code
    (unlines [
      "void main() \x7b",
      "    gSdfContext context = gSdfContext(vec3(gUv * 2.0 - 1.0, 0.0));",
      "    gSdfResult result = map(context" ++ emptyOperands arity ++ ");",
      "    gFragColor = result.color;",
      "\x7d"])

/-- The diagnostics in a driver's log for the program. -/
def diagnostics (wrapped : WrappedSource) (log : String) : List Diagnostic :=
  Diagnostic.ofLog log wrapped.linesBefore wrapped.codeLines

end WrappedSource
end Collage
