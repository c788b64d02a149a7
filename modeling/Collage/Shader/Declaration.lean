import Collage.Shader.Token

/-!
# Declarations in shader code

What is looked for in a source: the uniforms it declares, the functions it
defines, the places where a name occurs, and whether it mentions names that
begin in a certain way.
-/

namespace Collage

/-! ### Places in a source -/

/-- The source from a byte offset on. -/
def dropBytes : Nat → List Char → List Char
  | 0, source => source
  | _, [] => []
  | offset, c :: rest => dropBytes (offset - c.utf8Size) rest

/-- The number of the line that a byte offset lies on; the first is one. -/
def lineOf (source : List Char) (offset : Nat) : Nat :=
  match offset, source with
  | 0, _ => 1
  | _, [] => 1
  | offset, c :: rest => lineOf rest (offset - c.utf8Size) + if c = '\n' then 1 else 0

/-- The offsets at which a name stands in a source that `offset` bytes and the
character `previous` come before.  The name is sought from left to right, each
time after the last place where its letters were found, and counts where no
identifier goes on at either side. -/
def occurrencesFrom (name : List Char) (previous : Option Char) (offset skip : Nat) :
    List Char → List Nat
  | [] => []
  | c :: rest =>
    let later := fun skip => occurrencesFrom name (some c) (offset + c.utf8Size) skip rest
    match skip with
    | skip + 1 => later skip
    | 0 =>
      if name.isPrefixOf (c :: rest) then
        let whole := !previous.any isIdentifierPart &&
          !((c :: rest).drop name.length).head?.any isIdentifierPart
        if whole then offset :: later (name.length - 1) else later (name.length - 1)
      else later 0

/-- The byte offsets at which a name stands as a whole identifier, comments
included. -/
def occurrences (source name : List Char) : List Nat :=
  if name.isEmpty then [] else occurrencesFrom name none 0 0 source

/-- Whether the code mentions an identifier that begins with `start`. -/
def mentions (source start : List Char) : Bool :=
  (Token.ofSource source).any fun token => token.isIdentifier && start.isPrefixOf token.text

/-! ### Uniforms -/

/-- A uniform that a source declares. -/
structure UniformDeclaration where
  type : String
  name : String
  offset : Nat
  /-- what follows the declaration on its line -/
  trailing : String
  deriving Repr, DecidableEq

/-- Words that may stand before the type. -/
def precisionWords : List String :=
  ["lowp", "mediump", "highp"]

/-- Names between commas: the names, the offset of the semicolon if one ends
them, and the tokens from where they stop. -/
def declaredNames : List Token → List Token × Option Nat × List Token
  | [] => ([], none, [])
  | [name] => if name.isIdentifier then ([name], none, []) else ([], none, [name])
  | name :: mark :: rest =>
    if !name.isIdentifier then ([], none, name :: mark :: rest)
    else if mark.isMark ',' then
      let (names, semicolon, after) := declaredNames rest
      (name :: names, semicolon, after)
    else if mark.isMark ';' then ([name], some mark.offset, mark :: rest)
    else ([name], none, mark :: rest)

/-- The text after a byte offset up to the end of its line, without blanks at
its ends. -/
def trailingText (source : List Char) (offset : Nat) : String :=
  String.ofList (trim ((dropBytes offset source).takeWhile (· ≠ '\n')))

/-- The declarations of one statement after the word that opens it, and the
tokens to go on with. -/
def uniformStatement (source : List Char) (tokens : List Token) :
    List UniformDeclaration × List Token :=
  let typed := match tokens with
    | token :: rest =>
      if token.isIdentifier && precisionWords.contains token.word then rest else tokens
    | [] => []
  match typed with
  | [] => ([], tokens)
  | type :: rest =>
    if !type.isIdentifier then ([], tokens)
    else
      let (names, semicolon, after) := declaredNames rest
      match semicolon with
      | none => ([], after)
      | some offset =>
        let trailing := trailingText source (offset + 1)
        (names.map fun name => ⟨type.word, name.word, name.offset, trailing⟩, after)

/-- The declarations among tokens, given enough steps. -/
def uniformDeclarationsIn (source : List Char) : Nat → List Token → List UniformDeclaration
  | 0, _ => []
  | _, [] => []
  | steps + 1, token :: rest =>
    if token.isWord "uniform" then
      let (found, after) := uniformStatement source rest
      found ++ uniformDeclarationsIn source steps after
    else uniformDeclarationsIn source steps rest

/-- The uniforms that a source declares, in its order.  Only plain statements
count: a type and names between commas, and no arrays. -/
def uniformDeclarations (source : List Char) : List UniformDeclaration :=
  let tokens := Token.ofSource source
  uniformDeclarationsIn source (tokens.length + 1) tokens

/-! ### Functions -/

/-- What follows the parenthesis that closes the ones open so far: the tokens
inside, that parenthesis, and the tokens after it. -/
def closeParenthesis : Nat → List Token → Option (List Token × Token × List Token)
  | _, [] => none
  | depth, token :: rest =>
    if token.isMark '(' then
      (closeParenthesis (depth + 1) rest).map fun (inside, close, after) =>
        (token :: inside, close, after)
    else if token.isMark ')' then
      match depth with
      | 0 => some ([], token, rest)
      | depth + 1 =>
        (closeParenthesis depth rest).map fun (inside, close, after) =>
          (token :: inside, close, after)
    else
      (closeParenthesis depth rest).map fun (inside, close, after) =>
        (token :: inside, close, after)

/-- The functions defined among tokens after `previous`, inside `depth` braces,
that are not yet in `seen`, given enough steps. -/
def functionsIn : Nat → Nat → Option Token → List String → List Token → List String
  | 0, _, _, seen, _ => seen
  | _, _, _, seen, [] => seen
  | steps + 1, depth, previous, seen, token :: rest =>
    if token.isMark '{' then functionsIn steps (depth + 1) (some token) seen rest
    else if token.isMark '}' then functionsIn steps (depth - 1) (some token) seen rest
    else
      let typed := depth = 0 && token.isIdentifier && previous.any Token.isIdentifier
      match rest with
      | opening :: inner =>
        if typed && opening.isMark '(' then
          match closeParenthesis 0 inner with
          | some (_, close, after) =>
            let defined := after.head?.any (·.isMark '{') && !seen.contains token.word
            functionsIn steps depth (some close)
              (if defined then seen ++ [token.word] else seen) after
          | none => functionsIn steps depth (some token) seen rest
        else functionsIn steps depth (some token) seen rest
      | [] => functionsIn steps depth (some token) seen rest

/-- The names of the functions that a source defines outside all braces, each
once. -/
def definedFunctions (source : List Char) : List String :=
  let tokens := Token.ofSource source
  functionsIn (tokens.length + 1) 0 none [] tokens

end Collage
