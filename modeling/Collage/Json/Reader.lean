import Collage.Json.Basic

/-!
# Reading structured values

A text is read from left to right, and the first thing wrong with it decides the
fault: it ended early, or something stood where it may not.  Arrays and objects
may be nested 127 deep.

A number that is written whole and fits 64 bits stays whole.  Any other is the
first digits that fit 64 bits, rounded to a double, times or divided by a power
of ten that is rounded too; one that is too large for a double is malformed.
-/

namespace Collage

/-- Why a text or a value could not be read. -/
inductive Json.Fault
  /-- something stands where it may not -/
  | malformed
  /-- the text ended early -/
  | truncated
  /-- a well-formed value of the wrong shape -/
  | mismatched
  deriving Repr, DecidableEq

namespace Json

/-- How deep arrays and objects may be nested. -/
def depthLimit : Nat := 127

/-- The blanks between values. -/
def isSpace (c : Char) : Bool :=
  c = ' ' || c = '\n' || c = '\t' || c = '\r'

/-- Drops blanks at the front. -/
def skipSpace (text : List Char) : List Char :=
  text.dropWhile isSpace

/-! ### Strings -/

/-- Four hexadecimal digits; what is shorter in bytes ends early. -/
def readHex (text : List Char) : Except Fault (Nat × List Char) :=
  if byteSize text < 4 then .error .truncated
  else
    match text with
    | a :: b :: c :: d :: rest =>
      match readBase? 16 [a, b, c, d] with
      | some n => .ok (n, rest)
      | none => .error .malformed
    | _ => .error .malformed

/-- The character of a code point given by four hexadecimal digits, or by two
such groups when it lies above the first plane. -/
def readUnicode (text : List Char) : Except Fault (Char × List Char) := do
  let (first, rest) ← readHex text
  if 0xdc00 ≤ first ∧ first ≤ 0xdfff then throw .malformed
  if first < 0xd800 ∨ 0xdbff < first then return (Char.ofNat first, rest)
  match rest with
  | [] => throw .truncated
  | '\\' :: [] => throw .truncated
  | '\\' :: 'u' :: rest =>
    let (second, rest) ← readHex rest
    if second < 0xdc00 ∨ 0xdfff < second then throw .malformed
    return (Char.ofNat ((first - 0xd800) * 0x400 + (second - 0xdc00) + 0x10000), rest)
  | _ => throw .malformed

/-- The character that a letter after a backslash stands for. -/
def simpleEscape? (c : Char) : Option Char :=
  match c with
  | '"' => some '"'
  | '\\' => some '\\'
  | '/' => some '/'
  | 'b' => some '\x08'
  | 'f' => some '\x0c'
  | 'n' => some '\n'
  | 'r' => some '\r'
  | 't' => some '\t'
  | _ => none

/-- The rest of a string after its opening quote; `seen` holds the characters
before, last first. -/
def readString : Nat → List Char → List Char → Except Fault (String × List Char)
  | 0, _, _ => .error .truncated
  | _, _, [] => .error .truncated
  | fuel + 1, seen, c :: rest =>
    if c = '"' then .ok (String.ofList seen.reverse, rest)
    else if c = '\\' then
      match rest with
      | [] => .error .truncated
      | 'u' :: rest =>
        match readUnicode rest with
        | .ok (decoded, rest) => readString fuel (decoded :: seen) rest
        | .error fault => .error fault
      | letter :: rest =>
        match simpleEscape? letter with
        | some decoded => readString fuel (decoded :: seen) rest
        | none => .error .malformed
    else if c.toNat < 0x20 then .error .malformed
    else readString fuel (c :: seen) rest

/-! ### Numbers -/

/-- Digits that fit 64 bits, and how many further ones were left out. -/
structure Significand where
  value : Nat
  dropped : Nat

/-- Appends a digit while the result fits 64 bits; once one did not fit, no
later one is appended. -/
def Significand.push (s : Significand) (digit : Char) : Significand :=
  let next := s.value * 10 + (digit.toNat - '0'.toNat)
  if s.dropped = 0 ∧ next < twoPow 64 then ⟨next, 0⟩ else ⟨s.value, s.dropped + 1⟩

/-- The power of ten nearest to `10 ^ n` that a double can hold. -/
def powerOfTen (n : Nat) : Float :=
  Float.ofBits (BinaryFormat.double.roundRatio (tenPow n) 1).toUInt64

/-- `significand · 10 ^ exponent` in steps that each stay within the powers of
ten a double can hold; `none` when it grows too large. -/
def scaleByTen : Nat → Float → Int → Option Float
  | 0, x, _ => some x
  | steps + 1, x, exponent =>
    if exponent.natAbs ≤ 308 then
      if 0 ≤ exponent then
        let y := x * powerOfTen exponent.toNat
        if y.isInf then none else some y
      else some (x / powerOfTen exponent.natAbs)
    else if x == 0 then some x
    else if 0 ≤ exponent then none
    else scaleByTen steps (x / powerOfTen 308) (exponent + 308)

/-- The double for a significand and an exponent; `none` when it is too large.
Four steps bring every significand below the least double. -/
def doubleOf (negative : Bool) (significand : Nat) (exponent : Int) : Option Float :=
  let clamped := max exponent (-1500)
  (scaleByTen 6 (Float.nearest significand) clamped).map fun x => if negative then -x else x

/-- The digits at the front of a text, and the rest. -/
def spanDigits (text : List Char) : List Char × List Char :=
  (text.takeWhile Char.isDigit, text.dropWhile Char.isDigit)

/-- The exponent of a number, after its letter. -/
def readExponent (negative : Bool) (significand : Nat) (start : Int) (text : List Char) :
    Except Fault (Json × List Char) := do
  let (down, text) := match text with
    | '+' :: rest => (false, rest)
    | '-' :: rest => (true, rest)
    | rest => (false, rest)
  let (digits, rest) := spanDigits text
  if digits.isEmpty then
    throw (if rest.isEmpty then .truncated else .malformed)
  let size := Decimal.readDigits 0 digits
  let signed (x : Float) : Float := if negative then -x else x
  if twoPow 31 ≤ size then
    if significand ≠ 0 ∧ !down then throw .malformed
    else return (.double (signed 0), rest)
  let exponent := if down then start - size else start + size
  match doubleOf negative significand exponent with
  | some x => return (.double x, rest)
  | none => throw .malformed

/-- What follows the mantissa of a number that is not whole. -/
def finishNumber (negative : Bool) (significand : Nat) (exponent : Int) :
    List Char → Except Fault (Json × List Char)
  | c :: rest =>
    if c = 'e' ∨ c = 'E' then readExponent negative significand exponent rest
    else
      match doubleOf negative significand exponent with
      | some x => .ok (.double x, c :: rest)
      | none => .error .malformed
  | [] =>
    match doubleOf negative significand exponent with
    | some x => .ok (.double x, [])
    | none => .error .malformed

/-- A number after its sign. -/
def readMagnitude (negative : Bool) (text : List Char) : Except Fault (Json × List Char) := do
  let (digits, rest) := spanDigits text
  match digits with
  | [] => throw (if rest.isEmpty then .truncated else .malformed)
  | '0' :: _ :: _ => throw .malformed
  | _ =>
    let whole := digits.foldl Significand.push ⟨0, 0⟩
    match rest with
    | '.' :: rest =>
      let (places, rest) := spanDigits rest
      if places.isEmpty then throw (if rest.isEmpty then .truncated else .malformed)
      let start : Significand := ⟨whole.value, 0⟩
      let all := places.foldl Significand.push start
      finishNumber negative all.value (whole.dropped - (places.length - all.dropped : Nat) : Int) rest
    | c :: _ =>
      if c = 'e' ∨ c = 'E' ∨ whole.dropped ≠ 0 then
        finishNumber negative whole.value whole.dropped rest
      else settle whole.value rest
    | [] =>
      if whole.dropped ≠ 0 then finishNumber negative whole.value whole.dropped []
      else settle whole.value []
where
  /-- A number that is written whole and fits. -/
  settle (value : Nat) (rest : List Char) : Except Fault (Json × List Char) :=
    if !negative then .ok (.int value, rest)
    else if value ≠ 0 ∧ value ≤ twoPow 63 then .ok (.int (-value), rest)
    else .ok (.double (-(Float.nearest value)), rest)

/-! ### Values -/

/-- A fixed word, less its first letter. -/
def readWord (value : Json) : List Char → List Char → Except Fault (Json × List Char)
  | [], rest => .ok (value, rest)
  | _ :: _, [] => .error .truncated
  | expected :: word, c :: rest =>
    if expected = c then readWord value word rest else .error .malformed

/-- A value that is neither array nor object and begins with `c`. -/
def readScalar (c : Char) (rest : List Char) : Except Fault (Json × List Char) :=
  if c = 'n' then readWord .null ['u', 'l', 'l'] rest
  else if c = 't' then readWord (.bool true) ['r', 'u', 'e'] rest
  else if c = 'f' then readWord (.bool false) ['a', 'l', 's', 'e'] rest
  else if c = '"' then
    match readString (rest.length + 1) [] rest with
    | .ok (value, rest) => .ok (.string value, rest)
    | .error fault => .error fault
  else if c = '-' then readMagnitude true rest
  else if c.isDigit then readMagnitude false (c :: rest)
  else .error .malformed

/-- What an object goes on with: its end, or the next key. -/
def readKeyOnly (first : Bool) (text : List Char) :
    Except Fault (Option String × List Char) := do
  let text ← match skipSpace text with
    | [] => throw .truncated
    | '}' :: rest => return (none, rest)
    | c :: rest =>
      if first then pure (c :: rest)
      else if c = ',' then
        match skipSpace rest with
        | [] => throw .truncated
        | next => pure next
      else throw .malformed
  match text with
  | '"' :: rest =>
    let (key, rest) ← readString (rest.length + 1) [] rest
    return (some key, rest)
  | _ => throw .malformed

/-- The text after a colon. -/
def readColon (text : List Char) : Except Fault (List Char) :=
  match skipSpace text with
  | [] => .error .truncated
  | ':' :: rest => .ok rest
  | _ => .error .malformed

/-- What an object goes on with: its end, or the next key and what follows its
colon. -/
def readKey (first : Bool) (text : List Char) : Except Fault (Option String × List Char) := do
  match ← readKeyOnly first text with
  | (none, rest) => return (none, rest)
  | (some key, rest) => return (some key, ← readColon rest)

/-- What an array goes on with: its end, or the text of the next item. -/
def readNext (first : Bool) (text : List Char) : Except Fault (Bool × List Char) :=
  match skipSpace text with
  | [] => .error .truncated
  | ']' :: rest => .ok (false, rest)
  | c :: rest =>
    if first then .ok (true, c :: rest)
    else if c = ',' then
      match skipSpace rest with
      | [] => .error .truncated
      | ']' :: _ => .error .malformed
      | next => .ok (true, next)
    else .error .malformed

mutual

/-- A value, after blanks, that may hold arrays and objects `depth` deep. -/
def readValue : Nat → Nat → List Char → Except Fault (Json × List Char)
  | 0, _, _ => .error .truncated
  | fuel + 1, depth, text =>
    match skipSpace text with
    | [] => .error .truncated
    | c :: rest =>
      if c = '[' then
        match depth with
        | 0 => .error .malformed
        | depth + 1 =>
          match readItems fuel depth true [] rest with
          | .ok (items, rest) => .ok (.array items, rest)
          | .error fault => .error fault
      else if c = '{' then
        match depth with
        | 0 => .error .malformed
        | depth + 1 =>
          match readEntries fuel depth true [] rest with
          | .ok (entries, rest) => .ok (.object entries, rest)
          | .error fault => .error fault
      else readScalar c rest

/-- The rest of an array; `seen` holds the items before, last first. -/
def readItems : Nat → Nat → Bool → List Json → List Char → Except Fault ((List Json) × List Char)
  | 0, _, _, _, _ => .error .truncated
  | fuel + 1, depth, first, seen, text =>
    match readNext first text with
    | .error fault => .error fault
    | .ok (false, rest) => .ok (seen.reverse, rest)
    | .ok (true, rest) =>
      match readValue fuel depth rest with
      | .error fault => .error fault
      | .ok (item, rest) => readItems fuel depth false (item :: seen) rest

/-- The rest of an object; `seen` holds the entries before, last first. -/
def readEntries :
    Nat → Nat → Bool → List (String × Json) → List Char → Except Fault ((List (String × Json)) × List Char)
  | 0, _, _, _, _ => .error .truncated
  | fuel + 1, depth, first, seen, text =>
    match readKey first text with
    | .error fault => .error fault
    | .ok (none, rest) => .ok (seen.reverse, rest)
    | .ok (some key, rest) =>
      match readValue fuel depth rest with
      | .error fault => .error fault
      | .ok (value, rest) => readEntries fuel depth false ((key, value) :: seen) rest

end

/-- Enough steps for any value in a text: each one leaves less of it. -/
def enoughFuel (text : List Char) : Nat :=
  2 * text.length + 2

/-- A value at the front of a text. -/
def readFront (depth : Nat) (text : List Char) : Except Fault (Json × List Char) :=
  readValue (enoughFuel text) depth text

/-- Fails unless only blanks are left. -/
def expectEnd (text : List Char) : Except Fault Unit :=
  if (skipSpace text).isEmpty then .ok () else .error .malformed

/-- The value that a whole text stands for, entries as written. -/
def read (text : String) : Except Fault Json := do
  let (value, rest) ← readFront depthLimit text.toList
  expectEnd rest
  return value

end Json
end Collage
