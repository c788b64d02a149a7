import Collage.Document.Form
import Collage.Uniform.Coercion

/-!
# Annotations of uniforms

The comment after a declaration may hold settings in a relaxed notation: the
outer braces may be left out, keys may stand bare, and strings may stand between
single quotes.  `quoteKeys` turns the relaxed notation into the strict one, and
`Metadata.parse` reads the settings out of it; a comment that cannot be read so
holds none.
-/

namespace Collage

/-! ### Relaxed notation -/

namespace Relaxed

/-- A letter of a bare key. -/
def isKeyPart (c : Char) : Bool :=
  c.isAlphanum || c = '_' || c = '$'

/-- The first letter of a bare key. -/
def isKeyStart (c : Char) : Bool :=
  c.isAlpha || c = '_' || c = '$'

/-- The rest of a string that ends with `quote`, written between double quotes,
and what follows it.  A string that is never closed is closed at the end. -/
def stringSpan (quote : Char) : List Char → List Char × List Char
  | [] => (['"'], [])
  | '\\' :: c :: rest =>
    let (text, after) := stringSpan quote rest
    ('\\' :: c :: text, after)
  | c :: rest =>
    if c = quote then (['"'], rest)
    else
      let (text, after) := stringSpan quote rest
      (if c = '"' then '\\' :: '"' :: text else c :: text, after)

/-- Rewrites relaxed notation after the character `last`, blanks aside, given
enough steps. -/
def quoteKeysSteps : Nat → Option Char → List Char → List Char
  | 0, _, _ => []
  | _, _, [] => []
  | steps + 1, last, c :: rest =>
    if c = '"' ∨ c = '\'' then
      let (text, after) := stringSpan c rest
      '"' :: text ++ quoteKeysSteps steps (some '"') after
    else if isKeyStart c ∧ (last = some '{' ∨ last = some ',') then
      let word := c :: rest.takeWhile isKeyPart
      let after := rest.dropWhile isKeyPart
      let isKey := (after.dropWhile isBlank).head? = some ':'
      let shown := if isKey then '"' :: word ++ ['"'] else word
      shown ++ quoteKeysSteps steps word.getLast? after
    else c :: quoteKeysSteps steps (if isBlank c then last else some c) rest

/-- Puts bare keys and single-quoted strings between double quotes. -/
def quoteKeys (text : List Char) : List Char :=
  quoteKeysSteps text.length none text

/-- The inside of a comment. -/
def commentBody (text : List Char) : List Char :=
  match trim text with
  | '/' :: '/' :: rest => trim rest
  | '/' :: '*' :: rest => trim ((withoutEnd? ['*', '/'] (trimEnd rest)).getD rest)
  | body => body

/-- The entries of the object that a comment holds, sorted by key. -/
def parseObject (text : List Char) : Option (List (String × Json)) :=
  let body := commentBody text
  if body.isEmpty then none
  else
    let wrapped := if body.head? = some '{' then body else '{' :: body ++ ['}']
    match Json.read (String.ofList (quoteKeys wrapped)) with
    | .ok json =>
      match json.canonical with
      | .object entries => some entries
      | _ => none
    | .error _ => none

end Relaxed

/-! ### Settings -/

/-- The settings of a uniform. -/
structure Metadata where
  default : Option Json := none
  min : Option Float := none
  max : Option Float := none
  step : Option Float := none
  options : Option Json := none
  curve : Option Curve := none
  hint : Option String := none
  /-- all settings, also those that mean nothing here -/
  raw : List (String × Json) := []
  deriving Inhabited

namespace Metadata

/-- A finite number among the settings. -/
def finite? (raw : List (String × Json)) (key : String) : Option Float :=
  (((Json.object raw).get? key).map Coercion.number).filter Float.isFinite

/-- The settings that entries sorted by key hold. -/
def ofEntries (raw : List (String × Json)) : Metadata where
  default := (Json.object raw).get? "default"
  min := finite? raw "min"
  max := finite? raw "max"
  step := finite? raw "step"
  options := (Json.object raw).get? "enum"
  curve := ((Json.object raw).get? "curve").bind (Curve.decode false)
  hint := ((Json.object raw).get? "type").bind Json.string?
  raw := raw

/-- The settings in a comment; there are none in one that cannot be read. -/
def parse (comment : String) : Metadata :=
  match Relaxed.parseObject comment.toList with
  | some raw => ofEntries raw
  | none => {}

end Metadata

/-! ### Choices -/

/-- Named codes, in the order of their declaration. -/
abbrev EnumOptions := List (String × Int)

namespace EnumOptions

/-- The choices that a setting names: all blend modes, a list of names, or names
with codes; `none` when there is no choice at all. -/
def ofJson? (json : Json) : Option EnumOptions :=
  let options : EnumOptions :=
    match json with
    | .string "blendMode" => BlendMode.all.map fun mode => (mode.name, (mode.code : Int))
    | .array names =>
      (names.mapIdx fun (code : Nat) (name : Json) =>
        (name.string?.map fun n => (n, (code : Int)))).filterMap id
    | .object entries => entries.map fun (name, code) => (name, Coercion.integer code)
    | _ => []
  if options.isEmpty then none else some options

/-- The code of a name. -/
def codeOf? (options : EnumOptions) (name : String) : Option Int :=
  (options.find? (·.1 = name)).map (·.2)

/-- Whether a code belongs to one of the names. -/
def containsCode (options : EnumOptions) (code : Int) : Bool :=
  options.any (·.2 = code)

/-- The code of the first name. -/
def firstCode (options : EnumOptions) : Int :=
  (options.head?.map (·.2)).getD 0

end EnumOptions
end Collage
