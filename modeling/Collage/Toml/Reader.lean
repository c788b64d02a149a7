import Collage.Number.Decimal
import Collage.Toml.Basic

/-!
# Reading TOML

`Toml.read?` reads a TOML 1.0 text.  Every function takes the text that is left and
gives what it read and the text after it, or nothing when the text does not begin with
what it reads.  Values are nested less than eighty deep, and so are tables.
-/

namespace Collage
namespace Toml

/-! ### Between values -/

/-- A space or a tab. -/
def isGap (c : Char) : Bool :=
  c = ' ' || c = '\t'

/-- A character that may stand in a line: a tab, or one that is no control. -/
def isLineText (c : Char) : Bool :=
  c = '\t' || (0x20 ≤ c.toNat && c.toNat ≠ 0x7f)

/-- Drops spaces and tabs. -/
def skipGap (text : List Char) : List Char :=
  text.dropWhile isGap

/-- Drops a comment. -/
def skipComment : List Char → List Char
  | '#' :: rest => rest.dropWhile isLineText
  | text => text

/-- The text after a line end. -/
def newline? : List Char → Option (List Char)
  | '\n' :: rest => some rest
  | '\r' :: '\n' :: rest => some rest
  | _ => none

/-- The text after the rest of a line that holds nothing more than a comment. -/
def lineEnd? (text : List Char) : Option (List Char) :=
  match skipComment (skipGap text) with
  | [] => some []
  | rest => newline? rest

/-- Drops spaces, comments and line ends, given enough steps. -/
def skipFill : Nat → List Char → List Char
  | 0, text => text
  | steps + 1, text =>
    let text := skipComment (skipGap text)
    match newline? text with
    | some rest => skipFill steps rest
    | none => text

/-- Drops spaces and line ends, given enough steps. -/
def skipBlankLines : Nat → List Char → List Char
  | 0, text => text
  | steps + 1, text =>
    match newline? (skipGap text) with
    | some rest => skipBlankLines steps rest
    | none => skipGap text

/-! ### Strings -/

/-- The character of a code in hexadecimal digits. -/
def codeChar? (digits : List Char) : Option Char := do
  let code ← readBase? 16 digits
  if code.isValidChar then some (Char.ofNat code) else none

/-- The character after a backslash that stands for one character. -/
def escapedChar? : Char → Option Char
  | 'b' => some '\x08'
  | 't' => some '\t'
  | 'n' => some '\n'
  | 'f' => some '\x0c'
  | 'r' => some '\r'
  | '"' => some '"'
  | '\\' => some '\\'
  | _ => none

/-- What stands for one character after a backslash. -/
def escape? : List Char → Option (Char × List Char)
  | 'u' :: rest => do
    if rest.length < 4 then none
    return (← codeChar? (rest.take 4), rest.drop 4)
  | 'U' :: rest => do
    if rest.length < 8 then none
    return (← codeChar? (rest.take 8), rest.drop 8)
  | c :: rest => do return (← escapedChar? c, rest)
  | [] => none

/-- The rest of a string with escapes in one line, given enough steps. -/
def basicBody? : Nat → List Char → Option (List Char × List Char)
  | 0, _ => none
  | _, [] => none
  | _, '"' :: rest => some ([], rest)
  | steps + 1, '\\' :: rest => do
    let (c, rest) ← escape? rest
    let (text, rest) ← basicBody? steps rest
    return (c :: text, rest)
  | steps + 1, c :: rest => do
    if !isLineText c then none
    let (text, rest) ← basicBody? steps rest
    return (c :: text, rest)

/-- The rest of a string without escapes in one line. -/
def literalBody? (text : List Char) : Option (List Char × List Char) :=
  let allowed (c : Char) : Bool := isLineText c && c ≠ '\''
  match text.dropWhile allowed with
  | '\'' :: rest => some (text.takeWhile allowed, rest)
  | _ => none

/-- The end of a string over several lines: three quotes, before which one or two more
may stand that belong to the string. -/
def longEnd? (quote : Char) (text : List Char) : Option (List Char × List Char) :=
  let run := (text.takeWhile (· = quote)).length
  if run < 3 then none
  else
    let inside := min (run - 3) 2
    some (List.replicate inside quote, text.drop (inside + 3))

/-- The rest of a string with escapes over several lines, given enough steps.  A
backslash at the end of a line takes the line end and all blanks after it away. -/
def longBasicBody? : Nat → List Char → Option (List Char × List Char)
  | 0, _ => none
  | steps + 1, text =>
    match longEnd? '"' text, newline? text, text with
    | some found, _, _ => some found
    | none, some rest, _ => do
      let (more, rest) ← longBasicBody? steps rest
      return ('\n' :: more, rest)
    | none, none, '\\' :: rest =>
      match newline? (skipGap rest) with
      | some after => longBasicBody? steps (skipBlankLines after.length after)
      | none => do
        let (c, rest) ← escape? rest
        let (more, rest) ← longBasicBody? steps rest
        return (c :: more, rest)
    | none, none, c :: rest => do
      if !isLineText c then none
      let (more, rest) ← longBasicBody? steps rest
      return (c :: more, rest)
    | none, none, [] => none

/-- The rest of a string without escapes over several lines, given enough steps. -/
def longLiteralBody? : Nat → List Char → Option (List Char × List Char)
  | 0, _ => none
  | steps + 1, text =>
    match longEnd? '\'' text, newline? text, text with
    | some found, _, _ => some found
    | none, some rest, _ => do
      let (more, rest) ← longLiteralBody? steps rest
      return ('\n' :: more, rest)
    | none, none, c :: rest => do
      if !isLineText c then none
      let (more, rest) ← longLiteralBody? steps rest
      return (c :: more, rest)
    | none, none, [] => none

/-- Drops the line end that may follow the opening quotes. -/
def skipFirstNewline (text : List Char) : List Char :=
  (newline? text).getD text

/-- A string of any form. -/
def string? : List Char → Option (List Char × List Char)
  | '"' :: '"' :: '"' :: rest => longBasicBody? (rest.length + 1) (skipFirstNewline rest)
  | '\'' :: '\'' :: '\'' :: rest => longLiteralBody? (rest.length + 1) (skipFirstNewline rest)
  | '"' :: rest => basicBody? (rest.length + 1) rest
  | '\'' :: rest => literalBody? rest
  | _ => none

/-! ### Keys -/

/-- A character of a key without quotes. -/
def isBareKey (c : Char) : Bool :=
  c.isAlphanum || c = '_' || c = '-'

/-- One part of a key. -/
def keyPart? : List Char → Option (List Char × List Char)
  | '"' :: rest => basicBody? (rest.length + 1) rest
  | '\'' :: rest => literalBody? rest
  | text =>
    let part := text.takeWhile isBareKey
    if part.isEmpty then none else some (part, text.dropWhile isBareKey)

/-- The parts of a key between dots, given enough steps, and the text after it and the
spaces that follow. -/
def keyParts? : Nat → List Char → Option (List String × List Char)
  | 0, _ => none
  | steps + 1, text => do
    let (part, rest) ← keyPart? (skipGap text)
    match skipGap rest with
    | '.' :: rest => do
      let (parts, rest) ← keyParts? steps rest
      return (String.ofList part :: parts, rest)
    | rest => return ([String.ofList part], rest)

/-- How deep values and keys may not go. -/
def depthLimit : Nat := 80

/-- A key: the path to its table, its last part, and the text after it. -/
def key? (text : List Char) : Option (List String × String × List Char) := do
  let (parts, rest) ← keyParts? (text.length + 1) text
  if depthLimit ≤ parts.length then none
  return (parts.dropLast, ← parts.getLast?, rest)

/-! ### Numbers -/

/-- More digits; a single underscore may stand between two of them. -/
def moreDigits (isDigit : Char → Bool) : List Char → List Char × List Char
  | '_' :: c :: rest =>
    if isDigit c then
      let (digits, after) := moreDigits isDigit rest
      (c :: digits, after)
    else ([], '_' :: c :: rest)
  | c :: rest =>
    if isDigit c then
      let (digits, after) := moreDigits isDigit rest
      (c :: digits, after)
    else ([], c :: rest)
  | [] => ([], [])

/-- At least one digit. -/
def digits? (isDigit : Char → Bool) : List Char → Option (List Char × List Char)
  | c :: rest =>
    if isDigit c then
      let (digits, after) := moreDigits isDigit rest
      some (c :: digits, after)
    else none
  | [] => none

/-- The whole part of a number; it begins with a zero only if it is zero. -/
def wholePart? : List Char → Option (List Char × List Char)
  | '0' :: rest => some (['0'], rest)
  | text => digits? Char.isDigit text

/-- An integer of 64 bits. -/
def integer? (value : Int) : Option Value :=
  if -(twoPow 63 : Int) ≤ value ∧ value < twoPow 63 then some (.integer value) else none

/-- An integer in another base. -/
def based? (base : Nat) (text : List Char) : Option (Value × List Char) := do
  let isDigit (c : Char) : Bool := (hexDigit? c).any (· < base)
  let (digits, rest) ← digits? isDigit text
  return (← integer? (← readBase? base digits), rest)

/-- The part of a number after the point, with the point; nothing when there is no
point. -/
def fractionPart? : List Char → Option (List Char × List Char)
  | '.' :: rest => do
    let (digits, rest) ← digits? Char.isDigit rest
    return ('.' :: digits, rest)
  | text => some ([], text)

/-- The exponent of a number, with its letter; nothing when there is none. -/
def exponentPart? : List Char → Option (List Char × List Char)
  | c :: rest =>
    if c = 'e' ∨ c = 'E' then do
      let (sign, body) := Decimal.splitSign rest
      let (digits, rest) ← digits? Char.isDigit body
      return ('e' :: (if sign then '-' :: digits else digits), rest)
    else some ([], c :: rest)
  | [] => some ([], [])

/-- A float by its digits; none above all floats. -/
def float? (text : List Char) : Option Value := do
  let value ← Float.ofText? (String.ofList text)
  if value.isInf ∧ 0 < value then none else some (.float value)

/-- A number in base ten, after its sign. -/
def decimal? (negative : Bool) (text : List Char) : Option (Value × List Char) := do
  let (whole, rest) ← wholePart? text
  let (fraction, rest) ← fractionPart? rest
  let (exponent, rest) ← exponentPart? rest
  let sign := if negative then ['-'] else []
  if fraction.isEmpty && exponent.isEmpty then
    let size : Int := Decimal.readDigits 0 whole
    return (← integer? (if negative then -size else size), rest)
  else return (← float? (sign ++ whole ++ fraction ++ exponent), rest)

/-- A number, or a word for a float that is no finite number. -/
def number? : List Char → Option (Value × List Char)
  | '0' :: 'x' :: rest => based? 16 rest
  | '0' :: 'o' :: rest => based? 8 rest
  | '0' :: 'b' :: rest => based? 2 rest
  | text =>
    match Decimal.splitSign text with
    | (negative, 'i' :: 'n' :: 'f' :: rest) =>
      some (.float (if negative then -1 / 0 else 1 / 0), rest)
    | (_, 'n' :: 'a' :: 'n' :: rest) => some (.float (0 / 0), rest)
    | (negative, body) => decimal? negative body

/-! ### Dates and times -/

/-- A number of exactly `count` digits between two bounds. -/
def field? (count lowest highest : Nat) (text : List Char) : Option (Nat × List Char) := do
  let digits := text.take count
  if digits.length < count || !digits.all Char.isDigit then none
  let value := Decimal.readDigits 0 digits
  if value < lowest ∨ highest < value then none
  return (value, text.drop count)

/-- The text after a character. -/
def after? (c : Char) : List Char → Option (List Char)
  | d :: rest => if c = d then some rest else none
  | [] => none

/-- How many days a month has. -/
def monthLength (year month : Nat) : Nat :=
  if month = 2 then
    if year % 4 = 0 ∧ (year % 100 ≠ 0 ∨ year % 400 = 0) then 29 else 28
  else if [4, 6, 9, 11].contains month then 30
  else 31

/-- The text after a date. -/
def date? (text : List Char) : Option (List Char) := do
  let (year, rest) ← field? 4 0 9999 text
  let (month, rest) ← field? 2 1 12 (← after? '-' rest)
  let (_, rest) ← field? 2 1 (monthLength year month) (← after? '-' rest)
  return rest

/-- The text after the fraction of a second, if there is one. -/
def secondFraction? : List Char → Option (List Char)
  | '.' :: c :: rest => if c.isDigit then some (rest.dropWhile Char.isDigit) else none
  | '.' :: [] => none
  | text => some text

/-- The text after a time of day. -/
def time? (text : List Char) : Option (List Char) := do
  let (_, rest) ← field? 2 0 23 text
  let (_, rest) ← field? 2 0 59 (← after? ':' rest)
  let (_, rest) ← field? 2 0 60 (← after? ':' rest)
  secondFraction? rest

/-- The text after the distance of a time zone. -/
def zone? : List Char → Option (List Char)
  | 'Z' :: rest | 'z' :: rest => some rest
  | c :: rest =>
    if c = '+' ∨ c = '-' then do
      let (_, rest) ← field? 2 0 23 rest
      let (_, rest) ← field? 2 0 59 (← after? ':' rest)
      return rest
    else none
  | [] => none

/-- The text after a time of day that follows a date, if there is one. -/
def timeAfterDate (text : List Char) : List Char :=
  let time :=
    match text with
    | c :: rest => if c = 'T' ∨ c = 't' ∨ c = ' ' then time? rest else none
    | [] => none
  match time with
  | some rest => (zone? rest).getD rest
  | none => text

/-- A date, a time, or both. -/
def moment? (text : List Char) : Option (Value × List Char) :=
  match date? text with
  | some rest => some (.moment, timeAfterDate rest)
  | none => (time? text).map fun rest => (.moment, rest)

/-! ### Values -/

/-- A value that holds no others. -/
def scalar? (text : List Char) : Option (Value × List Char) :=
  match text with
  | '"' :: _ | '\'' :: _ =>
    (string? text).map fun (chars, rest) => (.string (String.ofList chars), rest)
  | 't' :: 'r' :: 'u' :: 'e' :: rest => some (.boolean true, rest)
  | 'f' :: 'a' :: 'l' :: 's' :: 'e' :: rest => some (.boolean false, rest)
  | _ => (moment? text).orElse fun _ => number? text

mutual

/-- A value inside `depth` others, given enough steps. -/
def value? : Nat → Nat → List Char → Option (Value × List Char)
  | 0, _, _ => none
  | steps + 1, depth, text =>
    match text with
    | '[' :: rest => do
      if depthLimit ≤ depth + 1 then none
      let (items, rest) ← items? steps (depth + 1) rest
      return (.array items, rest)
    | '\x7b' :: rest => do
      if depthLimit ≤ depth + 1 then none
      match skipGap rest with
      | '\x7d' :: rest => return (.table [], rest)
      | rest => do
        let (entries, rest) ← pairs? steps (depth + 1) [] rest
        return (.table (Item.valuesOf entries), rest)
    | _ => scalar? text

/-- The rest of an array. -/
def items? : Nat → Nat → List Char → Option (List Value × List Char)
  | 0, _, _ => none
  | steps + 1, depth, text =>
    match skipFill text.length text with
    | ']' :: rest => some ([], rest)
    | text => do
      let (value, rest) ← value? steps depth text
      match skipFill rest.length rest with
      | ']' :: rest => return ([value], rest)
      | ',' :: rest => do
        let (values, rest) ← items? steps depth rest
        return (value :: values, rest)
      | _ => none

/-- The rest of a table in one line. -/
def pairs? : Nat → Nat → Entries → List Char → Option (Entries × List Char)
  | 0, _, _, _ => none
  | steps + 1, depth, entries, text => do
    let (path, key, rest) ← key? text
    let (value, rest) ← value? steps depth (skipGap (← after? '=' rest))
    let entries ← Entries.insert path key value entries
    match skipGap rest with
    | '\x7d' :: rest => return (entries, rest)
    | ',' :: rest => pairs? steps depth entries rest
    | _ => none

end

/-! ### Documents -/

/-- A line with a key and a value. -/
def keyLine? (draft : Draft) (text : List Char) : Option (Draft × List Char) := do
  let (path, key, rest) ← key? text
  let (value, rest) ← value? (2 * rest.length + 2) 0 (skipGap (← after? '=' rest))
  return (← draft.insert path key value, ← lineEnd? rest)

/-- The rest of a line with the header of a table. -/
def tableLine? (draft : Draft) (text : List Char) : Option (Draft × List Char) := do
  let (path, key, rest) ← key? text
  return (← draft.startTable path key, ← lineEnd? (← after? ']' rest))

/-- The rest of a line with the header of a table in a list. -/
def elementLine? (draft : Draft) (text : List Char) : Option (Draft × List Char) := do
  let (path, key, rest) ← key? text
  return (← draft.startElement path key, ← lineEnd? (← after? ']' (← after? ']' rest)))

/-- One line of a document. -/
def line? (draft : Draft) (text : List Char) : Option (Draft × List Char) :=
  match skipGap text with
  | [] => some (draft, [])
  | '[' :: '[' :: rest => elementLine? draft rest
  | '[' :: rest => tableLine? draft rest
  | text =>
    match lineEnd? text with
    | some rest => some (draft, rest)
    | none => keyLine? draft text

/-- All lines of a document, given enough steps. -/
def lines? : Nat → Draft → List Char → Option Draft
  | _, draft, [] => some draft
  | 0, _, _ => none
  | steps + 1, draft, text => do
    let (draft, rest) ← line? draft text
    lines? steps draft rest

/-- Reads a document; gives the entries of its root. -/
def read? (text : String) : Option (List (String × Value)) := do
  let text :=
    match text.toList with
    | '\ufeff' :: rest => rest
    | text => text
  let draft ← lines? text.length {} text
  return Item.valuesOf (← draft.finish)

end Toml
end Collage
