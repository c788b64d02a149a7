import Collage.Program.Wrapped
import Collage.Shader.Declaration
import Collage.Uniform.Metadata

/-!
# Signatures of distance layers

A distance layer defines a function `map` whose first parameter is the context
and whose others are its operands.  `Signature.ofSource` finds the definition
and says how many operands it takes, or what is wrong with it.
-/

namespace Collage

/-- What a comment in front of `map` says about the layer. -/
structure SceneAttributes where
  /-- half the size of a box around the layer -/
  halfExtents : Option (List Float) := none
  raw : List (String × Json) := []
  deriving Inhabited

/-- How a distance layer is called. -/
structure Signature where
  arity : Arity
  context : String
  parameters : List String
  attributes : SceneAttributes
  deriving Inhabited

/-- What is wrong with a signature. -/
inductive SignatureError
  | missing
  | context
  | emptyParameter
  | parameter (words : List String)
  | severalVariadic
  | mixed
  deriving Repr, DecidableEq

/-- The words for it. -/
def SignatureError.message : SignatureError → String
  | missing => "SDF layers must define `gSdfResult map(inout gSdfContext context, ...)`"
  | context => "the first parameter of map() must be `inout gSdfContext context`"
  | emptyParameter => "empty parameter in map()"
  | parameter words =>
    "unsupported map() parameter `" ++ String.intercalate " " words ++
      "`; expected `gSdf name` or `gSdfVariadic name`"
  | severalVariadic => "map() accepts at most one gSdfVariadic parameter"
  | mixed => "map() cannot mix gSdf and gSdfVariadic parameters"

namespace Signature

/-! ### The definition -/

/-- A place where `map` is declared. -/
structure Candidate where
  offset : Nat
  /-- the tokens between the parentheses -/
  inside : List Token
  /-- whether a body follows -/
  defined : Bool

/-- The places where `map` is declared, in the order of the source. -/
def candidates : List Token → List Candidate
  | [] => []
  | first :: rest =>
    let here : Option Candidate :=
      match rest with
      | name :: opening :: inner =>
        if first.isWord "gSdfResult" && name.isWord "map" && opening.isMark '(' then
          (closeParenthesis 0 inner).map fun (inside, _, after) =>
            ⟨first.offset, inside, after.head?.any (·.isMark '{')⟩
        else none
      | _ => none
    here.toList ++ candidates rest

/-- The first definition, or else the first declaration. -/
def chosen? (found : List Candidate) : Option Candidate :=
  (found.find? (·.defined)).orElse fun _ => found.head?

/-! ### The parameters -/

/-- Words between the commas that stand outside inner parentheses and brackets,
`depth` of which are open. -/
def splitParameters : Nat → List Token → List (List String)
  | _, [] => [[]]
  | depth, token :: rest =>
    if token.isMark ',' && depth = 0 then [] :: splitParameters 0 rest
    else
      let inner :=
        if token.isMark '(' || token.isMark '[' then depth + 1
        else if token.isMark ')' || token.isMark ']' then depth - 1
        else depth
      match splitParameters inner rest with
      | [] => [[token.word]]
      | first :: others => (token.word :: first) :: others

/-- An operand parameter. -/
inductive Parameter
  | one (name : String)
  | several (name : String)
  deriving Repr, DecidableEq

/-- The operand that the words of a parameter declare. -/
def readParameter (words : List String) : Except SignatureError Parameter :=
  match words.filter fun word => word ≠ "in" ∧ word ≠ "const" with
  | ["gSdf", name] => .ok (.one name)
  | ["gSdfVariadic", name] => .ok (.several name)
  | [] => .error .emptyParameter
  | other => .error (.parameter other)

/-- The arity and the names of operands: any number of single ones, or one that
takes several. -/
def arityOf (parameters : List Parameter) : Except SignatureError (Arity × List String) :=
  let single := parameters.filterMap fun
    | .one name => some name
    | .several _ => none
  let several := parameters.filterMap fun
    | .several name => some name
    | .one _ => none
  if several.isEmpty then .ok (.fixed single.length, single)
  else if !single.isEmpty then .error .mixed
  else if several.length = 1 then .ok (.variadic, several)
  else .error .severalVariadic

/-- The name of the context, the arity and the names of the operands. -/
def readParameters (inside : List Token) :
    Except SignatureError (String × Arity × List String) :=
  match splitParameters 0 inside with
  | ["inout", "gSdfContext", name] :: others => do
    let parameters ← others.mapM readParameter
    let (arity, names) ← arityOf parameters
    return (name, arity, names)
  | _ => .error .context

/-! ### Attributes -/

/-- What follows the last place where a comment opens; the characters come last
first. -/
def afterLastOpening : List Char → List Char → Option (List Char)
  | '*' :: '/' :: _, seen => some seen
  | c :: rest, seen => afterLastOpening rest (c :: seen)
  | [], _ => none

/-- The text of the comment that a source ends with. -/
def closingComment? (source : List Char) : Option (List Char) := do
  let body ← withoutEnd? ['*', '/'] (trimEnd source)
  afterLastOpening body.reverse []

/-- Half the size of the box: three numbers, or one for all three. -/
def halfExtentsOf : Json → Option (List Float)
  | .array [x, y, z] => some ([x, y, z].map Coercion.numberOrZero)
  | .int n => some (List.replicate 3 (Coercion.numberOrZero (.int n)))
  | .double n => some (List.replicate 3 (Coercion.numberOrZero (.double n)))
  | .single n => some (List.replicate 3 (Coercion.numberOrZero (.single n)))
  | _ => none

/-- The attributes in the comment that a source ends with. -/
def attributesOf (source : List Char) : SceneAttributes :=
  let raw := do
    let inner := trim (← closingComment? source)
    if inner.head? = some '{' then Relaxed.parseObject inner else none
  match raw with
  | some raw => ⟨((Json.object raw).get? "halfExtents").bind halfExtentsOf, raw⟩
  | none => {}

/-- The source before a byte offset. -/
def takeBytes : Nat → List Char → List Char
  | 0, _ => []
  | _, [] => []
  | offset, c :: rest => c :: takeBytes (offset - c.utf8Size) rest

/-- The signature of a source, or what is wrong with it and on which line. -/
def ofSource (source : String) : Except Diagnostic Signature :=
  let text := source.toList
  match chosen? (candidates (Token.ofSource text)) with
  | none => .error ⟨0, SignatureError.message .missing, .error⟩
  | some candidate =>
    match readParameters candidate.inside with
    | .error e => .error ⟨lineOf text candidate.offset, e.message, .error⟩
    | .ok (context, arity, parameters) =>
      .ok ⟨arity, context, parameters, attributesOf (takeBytes candidate.offset text)⟩

end Signature
end Collage
