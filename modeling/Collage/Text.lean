/-!
# Text

What the rest of the library needs to know about characters: which are blank,
which make up identifiers, how many bytes a character takes, and how a text is
cut into lines, words and entries.  All of it works on lists of characters, so
that it can be reasoned about by induction.
-/

namespace Collage

/-! ### Classes of characters -/

/-- The characters that Unicode counts as white space. -/
def isBlank (c : Char) : Bool :=
  let n := c.toNat
  (9 ≤ n && n ≤ 13) || n = 0x20 || n = 0x85 || n = 0xa0 || n = 0x1680 ||
    (0x2000 ≤ n && n ≤ 0x200a) || n = 0x2028 || n = 0x2029 || n = 0x202f ||
    n = 0x205f || n = 0x3000

/-- Blank, tab, line feed, form feed and carriage return. -/
def isPlainBlank (c : Char) : Bool :=
  c = ' ' || c = '\t' || c = '\n' || c = '\x0c' || c = '\r'

/-- An unaccented letter or an underscore. -/
def isIdentifierStart (c : Char) : Bool :=
  c.isAlpha || c = '_'

/-- An unaccented letter, a digit or an underscore. -/
def isIdentifierPart (c : Char) : Bool :=
  c.isAlphanum || c = '_'

/-! ### Bytes -/

/-- How many bytes a text takes in UTF-8. -/
def byteSize (text : List Char) : Nat :=
  text.foldr (fun c size => c.utf8Size + size) 0

@[simp] theorem byteSize_nil : byteSize [] = 0 := rfl

@[simp] theorem byteSize_cons (c : Char) (text : List Char) :
    byteSize (c :: text) = c.utf8Size + byteSize text := by
  simp [byteSize]

@[simp] theorem byteSize_append (front back : List Char) :
    byteSize (front ++ back) = byteSize front + byteSize back := by
  induction front with
  | nil => simp
  | cons c rest ih => simp [ih, Nat.add_assoc]

theorem byteSize_eq_zero_iff {text : List Char} : byteSize text = 0 ↔ text = [] := by
  constructor
  · intro size
    cases text with
    | nil => rfl
    | cons c rest =>
      have := c.utf8Size_pos
      rw [byteSize_cons] at size
      omega
  · rintro rfl
    rfl

/-! ### Cutting -/

/-- Drops blanks at the front. -/
def trimStart (text : List Char) : List Char :=
  text.dropWhile isBlank

/-- Drops blanks at the back. -/
def trimEnd (text : List Char) : List Char :=
  (text.reverse.dropWhile isBlank).reverse

/-- Drops blanks at both ends. -/
def trim (text : List Char) : List Char :=
  trimEnd (trimStart text)

/-- The pieces of a text between the characters that satisfy `p`; one more
piece than there are such characters. -/
def splitAtAll (p : Char → Bool) : List Char → List (List Char)
  | [] => [[]]
  | c :: rest =>
    if p c then [] :: splitAtAll p rest
    else
      match splitAtAll p rest with
      | [] => [[c]]
      | piece :: pieces => (c :: piece) :: pieces

/-- The words between blanks. -/
def words (text : List Char) : List (List Char) :=
  (splitAtAll isBlank text).filter (!·.isEmpty)

/-- The lines of a text; a final line feed opens no further line, and a
carriage return before a line feed belongs to the line end. -/
def lines (text : List Char) : List (List Char) :=
  let pieces := splitAtAll (· = '\n') text
  let kept := if pieces.getLast? = some [] then pieces.dropLast else pieces
  let ended := if pieces.getLast? = some [] then kept.length else kept.length - 1
  kept.mapIdx fun index line =>
    if index < ended ∧ line.getLast? = some '\r' then line.dropLast else line

/-- Cuts a text at the first character that satisfies `p`. -/
def cutAt (p : Char → Bool) (text : List Char) : Option (List Char × List Char) :=
  match text.dropWhile (!p ·) with
  | [] => none
  | _ :: rest => some (text.takeWhile (!p ·), rest)

/-- Whether one text occurs in another. -/
def occursIn (needle : List Char) : List Char → Bool
  | [] => needle.isEmpty
  | text@(_ :: rest) => needle.isPrefixOf text || occursIn needle rest

/-- A text without a given beginning. -/
def withoutStart? : List Char → List Char → Option (List Char)
  | [], text => some text
  | _ :: _, [] => none
  | c :: start, d :: text => if c = d then withoutStart? start text else none

/-- A text without a given ending. -/
def withoutEnd? (ending text : List Char) : Option (List Char) :=
  (withoutStart? ending.reverse text.reverse).map List.reverse

/-- Capitals made small; other characters stay. -/
def lowercase (text : List Char) : List Char :=
  text.map Char.toLower

/-! ### Whole numbers -/

/-- The value of a hexadecimal digit. -/
def hexDigit? (c : Char) : Option Nat :=
  if c.isDigit then some (c.toNat - '0'.toNat)
  else if 'a' ≤ c ∧ c ≤ 'f' then some (c.toNat - 'a'.toNat + 10)
  else if 'A' ≤ c ∧ c ≤ 'F' then some (c.toNat - 'A'.toNat + 10)
  else none

/-- Reads a number in base `base ≤ 16`; at least one digit. -/
def readBase? (base : Nat) (text : List Char) : Option Nat :=
  if text.isEmpty then none
  else
    text.foldlM (m := Option) (fun n c => do
      let digit ← hexDigit? c
      if digit < base then some (n * base + digit) else none) 0

/-- Reads a natural number no greater than `highest`; a plus sign may stand in
front. -/
def readNat? (highest : Nat) (text : List Char) : Option Nat :=
  let digits := match text with
    | '+' :: rest => rest
    | _ => text
  (readBase? 10 digits).filter (· ≤ highest)

/-- Reads an integer between two bounds; a sign may stand in front. -/
def readInt? (lowest highest : Int) (text : List Char) : Option Int :=
  let value := match text with
    | '-' :: rest => (readBase? 10 rest).map fun n => -(n : Int)
    | '+' :: rest => (readBase? 10 rest).map Int.ofNat
    | _ => (readBase? 10 text).map Int.ofNat
  value.filter fun n => lowest ≤ n ∧ n ≤ highest

/-- Two hexadecimal digits of a byte. -/
def hexByte (byte : Nat) : List Char :=
  [Nat.digitChar (byte / 16 % 16), Nat.digitChar (byte % 16)]

end Collage
