import Collage.Json.Basic

/-!
# Writing structured values

`compact` writes a value without blanks and `pretty` over several lines,
indented by two blanks a level, an empty array or object as its two brackets.
Both use the same texts for numbers and strings.
-/

namespace Collage
namespace Json

/-- One character of a string: the quote, the backslash and the control
characters are escaped, all others stand for themselves. -/
def escapeChar (c : Char) : List Char :=
  if c = '"' then ['\\', '"']
  else if c = '\\' then ['\\', '\\']
  else if c = '\n' then ['\\', 'n']
  else if c = '\r' then ['\\', 'r']
  else if c = '\t' then ['\\', 't']
  else if c = '\x08' then ['\\', 'b']
  else if c = '\x0c' then ['\\', 'f']
  else if c.toNat < 0x20 then ['\\', 'u', '0', '0'] ++ hexByte c.toNat
  else [c]

/-- A string between quotes. -/
def quoted (text : String) : String :=
  String.ofList ('"' :: text.toList.flatMap escapeChar ++ ['"'])

/-- A value that is neither array nor object; what is no finite number is
written as nothing. -/
def scalarText : Json → String
  | null => "null"
  | bool true => "true"
  | bool false => "false"
  | int value => toString value
  | double value => value.decimalText?.getD "null"
  | single value => value.decimalText?.getD "null"
  | string value => quoted value
  | array _ => "[]"
  | object _ => "\x7b\x7d"

mutual

/-- The text without blanks. -/
def compact : Json → String
  | array items => "[" ++ String.intercalate "," (compactItems items) ++ "]"
  | object entries => "\x7b" ++ String.intercalate "," (compactEntries entries) ++ "\x7d"
  | scalar => scalarText scalar

/-- `compact` of each item. -/
def compactItems : List Json → List String
  | [] => []
  | item :: rest => compact item :: compactItems rest

/-- Key and value of each entry. -/
def compactEntries : List (String × Json) → List String
  | [] => []
  | (key, value) :: rest => (quoted key ++ ":" ++ compact value) :: compactEntries rest

end

/-- The blanks in front of a line. -/
def indentation (level : Nat) : String :=
  String.ofList (List.replicate (2 * level) ' ')

/-- Lines between two brackets, each one level further in. -/
def bracketed (opening closing : String) (level : Nat) (parts : List String) : String :=
  let inner := "\n" ++ indentation (level + 1)
  opening ++ inner ++ String.intercalate ("," ++ inner) parts ++
    "\n" ++ indentation level ++ closing

mutual

/-- The text over several lines, begun at a level of indentation. -/
def prettyAt (level : Nat) : Json → String
  | array (item :: items) =>
    bracketed "[" "]" level (prettyItems (level + 1) (item :: items))
  | object (entry :: entries) =>
    bracketed "\x7b" "\x7d" level (prettyEntries (level + 1) (entry :: entries))
  | other => scalarText other

/-- `prettyAt` of each item. -/
def prettyItems (level : Nat) : List Json → List String
  | [] => []
  | item :: rest => prettyAt level item :: prettyItems level rest

/-- Key and value of each entry. -/
def prettyEntries (level : Nat) : List (String × Json) → List String
  | [] => []
  | (key, value) :: rest =>
    (quoted key ++ ": " ++ prettyAt level value) :: prettyEntries level rest

end

/-- The text over several lines. -/
def pretty (json : Json) : String :=
  prettyAt 0 json

end Json
end Collage
