import Collage.Proofs.Json.Rereading
import Collage.Uniform.Metadata

/-!
# Values as they are written

A `Note` is a text that stands for a value, taken apart: the blanks between its parts, how each
string and each key is written, and the digits of its numbers.  A `Name` is how a string or a key
is written: between double quotes, with the escapes of the strict notation, or, in the relaxed
one, between single quotes or bare.

`Note.written` puts the text together, for any way of showing the names, and `Note.value?` says
which value it stands for, for any way of understanding them.  `readsAsWritten` ties both to the
reader: what it takes from a note whose names stand between double quotes is the value of the
note, and it takes nothing if some name or number means nothing or the note is nested too deep.
The induction is on the note (`byParts`); what stands behind a part of it never goes on a
number.
-/

namespace Collage
namespace Json

/-! ### Strings between double quotes -/

/-- Two bytes of a string by their digits. -/
structure CodeUnit where
  digits : List Char
  value : Nat
  four : digits.length = 4
  known : readBase? 16 digits = some value

theorem CodeUnit.isSome_hexDigit? (unit : CodeUnit) :
    ∀ c ∈ unit.digits, (hexDigit? c).isSome = true := by
  have some : ∀ (digits : List Char) (start value : Nat),
      digits.foldlM (m := Option) (fun n c => do
        let digit ← hexDigit? c
        if digit < 16 then some (n * 16 + digit) else none) start = some value →
          ∀ c ∈ digits, (hexDigit? c).isSome = true := by
    intro digits
    induction digits with
    | nil => exact fun _ _ _ c none => absurd none List.not_mem_nil
    | cons c digits ih =>
      intro start value known
      rw [List.foldlM_cons] at known
      obtain ⟨next, first, rest⟩ := Option.bind_eq_some_iff.mp known
      obtain ⟨digit, found, _⟩ := Option.bind_eq_some_iff.mp first
      exact List.forall_mem_cons.mpr ⟨by rw [found]; rfl, ih next value rest⟩
  have known := unit.known
  unfold readBase? at known
  split at known
  · cases known
  · exact some unit.digits 0 unit.value known

/-- A character of a string between double quotes, as it is written. -/
inductive Stroke
  /-- a character that stands for itself -/
  | plain (c : Char) (free : c ≠ '"' ∧ c ≠ '\\' ∧ 0x20 ≤ c.toNat)
  /-- a letter behind a backslash -/
  | letter (c decoded : Char) (known : simpleEscape? c = some decoded)
  /-- a character, or a half of one, by its digits -/
  | unit (unit : CodeUnit)

namespace Stroke

/-- How a character is written. -/
def text : Stroke → List Char
  | plain c _ => [c]
  | letter c _ _ => ['\\', c]
  | unit u => '\\' :: 'u' :: u.digits

/-- The characters that strokes stand for: a character above the first plane takes two halves in
a row, and no half stands alone. -/
def decode : List Stroke → Option (List Char)
  | [] => some []
  | plain c _ :: rest => (decode rest).map (c :: ·)
  | letter _ decoded _ :: rest => (decode rest).map (decoded :: ·)
  | unit high :: rest =>
    if 0xdc00 ≤ high.value ∧ high.value ≤ 0xdfff then none
    else if high.value < 0xd800 ∨ 0xdbff < high.value then
      (decode rest).map (Char.ofNat high.value :: ·)
    else
      match rest with
      | unit low :: rest =>
        if low.value < 0xdc00 ∨ 0xdfff < low.value then none
        else
          (decode rest).map
            (Char.ofNat ((high.value - 0xd800) * 0x400 + (low.value - 0xdc00) + 0x10000) :: ·)
      | _ => none

theorem text_ne_nil (stroke : Stroke) : stroke.text ≠ [] := by
  cases stroke <;> exact List.cons_ne_nil _ _

theorem length_le_flatMap_text (strokes : List Stroke) :
    strokes.length ≤ (strokes.flatMap text).length := by
  induction strokes with
  | nil => exact Nat.le_refl _
  | cons stroke strokes ih =>
    have some := List.length_pos_iff.mpr stroke.text_ne_nil
    rw [List.flatMap_cons, List.length_append, List.length_cons]
    omega

end Stroke

theorem readHex_digits (unit : CodeUnit) (rest : List Char) :
    readHex (unit.digits ++ rest) = .ok (unit.value, rest) := by
  obtain ⟨digits, value, four, known⟩ := unit
  obtain ⟨a, b, c, d, rfl⟩ : ∃ a b c d, digits = [a, b, c, d] := by
    match digits, four with
    | [a, b, c, d], _ => exact ⟨a, b, c, d, rfl⟩
  have long : ¬ byteSize ([a, b, c, d] ++ rest) < 4 := by
    have := a.utf8Size_pos
    have := b.utf8Size_pos
    have := c.utf8Size_pos
    have := d.utf8Size_pos
    simp only [byteSize_append, byteSize_cons]
    omega
  unfold readHex
  rw [if_neg long]
  dsimp only [List.cons_append, List.nil_append] at known ⊢
  rw [known]

theorem readUnicode_second {unit : CodeUnit} (second : 0xdc00 ≤ unit.value ∧ unit.value ≤ 0xdfff)
    (rest : List Char) : (readUnicode (unit.digits ++ rest)).toOption = none := by
  unfold readUnicode
  rw [readHex_digits]
  simp only [bind, Except.bind]
  rw [if_pos second]
  rfl

theorem readUnicode_whole {unit : CodeUnit}
    (notSecond : ¬ (0xdc00 ≤ unit.value ∧ unit.value ≤ 0xdfff))
    (whole : unit.value < 0xd800 ∨ 0xdbff < unit.value) (rest : List Char) :
    readUnicode (unit.digits ++ rest) = .ok (Char.ofNat unit.value, rest) := by
  unfold readUnicode
  rw [readHex_digits]
  simp only [bind, Except.bind, pure, Except.pure]
  rw [if_neg notSecond, if_pos whole]

theorem readUnicode_pair {high : CodeUnit}
    (notSecond : ¬ (0xdc00 ≤ high.value ∧ high.value ≤ 0xdfff))
    (first : ¬ (high.value < 0xd800 ∨ 0xdbff < high.value)) (low : CodeUnit)
    (rest : List Char) :
    (readUnicode (high.digits ++ ('\\' :: 'u' :: (low.digits ++ rest)))).toOption =
      if low.value < 0xdc00 ∨ 0xdfff < low.value then none
      else
        some (Char.ofNat ((high.value - 0xd800) * 0x400 + (low.value - 0xdc00) + 0x10000),
          rest) := by
  unfold readUnicode
  rw [readHex_digits]
  simp only [bind, Except.bind, pure, Except.pure]
  rw [if_neg notSecond, if_neg first, readHex_digits]
  dsimp only
  split <;> rfl

/-- A first half is followed by a second one. -/
theorem readUnicode_first {unit : CodeUnit}
    (notSecond : ¬ (0xdc00 ≤ unit.value ∧ unit.value ≤ 0xdfff))
    (first : ¬ (unit.value < 0xd800 ∨ 0xdbff < unit.value)) {rest : List Char}
    (other : ∀ more, rest ≠ '\\' :: 'u' :: more) :
    (readUnicode (unit.digits ++ rest)).toOption = none := by
  unfold readUnicode
  rw [readHex_digits]
  simp only [bind, Except.bind, pure, Except.pure]
  rw [if_neg notSecond, if_neg first]
  split
  · rfl
  · rfl
  · exact absurd rfl (other _)
  · rfl

theorem readString_plain {c : Char} (free : c ≠ '"' ∧ c ≠ '\\' ∧ 0x20 ≤ c.toNat) (fuel : Nat)
    (seen rest : List Char) :
    readString (fuel + 1) seen (c :: rest) = readString fuel (c :: seen) rest := by
  conv_lhs => unfold readString
  rw [if_neg free.1, if_neg free.2.1, if_neg (by omega)]

theorem readString_letter {c decoded : Char} (known : simpleEscape? c = some decoded)
    (fuel : Nat) (seen rest : List Char) :
    readString (fuel + 1) seen ('\\' :: c :: rest) = readString fuel (decoded :: seen) rest := by
  have other : c ≠ 'u' := by
    rintro rfl
    cases known
  conv_lhs => unfold readString
  rw [if_neg (by decide), if_pos rfl]
  split
  · rename_i same
    cases same
  · rename_i same
    exact absurd (List.cons.inj same).1 other
  · rename_i same
    cases same
    rw [known]

theorem readString_unit (fuel : Nat) (seen rest : List Char) :
    (readString (fuel + 1) seen ('\\' :: 'u' :: rest)).toOption =
      (readUnicode rest).toOption.bind fun found =>
        (readString fuel (found.1 :: seen) found.2).toOption := by
  conv_lhs => unfold readString
  rw [if_neg (by decide), if_pos rfl]
  cases found : readUnicode rest <;> simp only [found] <;> rfl

theorem flatMap_unit (unit : CodeUnit) (strokes : List Stroke) (rest : List Char) :
    (Stroke.unit unit :: strokes).flatMap Stroke.text ++ rest =
      '\\' :: 'u' :: (unit.digits ++ (strokes.flatMap Stroke.text ++ rest)) := by
  rw [List.flatMap_cons, List.append_assoc]
  rfl

theorem decoded_cons (c : Char) (found : Option (List Char)) (seen rest : List Char) :
    (found.map fun text => (String.ofList ((c :: seen).reverse ++ text), rest)) =
      (found.map (c :: ·)).map fun text => (String.ofList (seen.reverse ++ text), rest) := by
  rw [Option.map_map, List.reverse_cons]
  simp only [Function.comp_def, List.append_assoc, List.singleton_append]

/-- **A string between double quotes is read as the characters that it is written with**, up to
its closing quote. -/
theorem readString_strokes (strokes : List Stroke) (rest : List Char) :
    ∀ (fuel : Nat) (seen : List Char), strokes.length < fuel →
      (readString fuel seen (strokes.flatMap Stroke.text ++ '"' :: rest)).toOption =
        (Stroke.decode strokes).map fun text => (String.ofList (seen.reverse ++ text), rest) := by
  fun_induction Stroke.decode strokes with
  | case1 =>
    intro fuel seen enough
    obtain ⟨fuel, rfl⟩ := Nat.exists_eq_add_of_lt enough
    rw [Option.map_some, List.append_nil]
    rfl
  | case2 c free rest ih =>
    intro fuel seen enough
    obtain ⟨fuel, rfl⟩ : ∃ less, fuel = less + 1 := ⟨fuel - 1, by grind⟩
    rw [List.flatMap_cons, Stroke.text, List.append_assoc, List.singleton_append,
      readString_plain free, ih fuel _ (Nat.lt_of_succ_lt_succ enough), decoded_cons]
  | case3 c decoded known rest ih =>
    intro fuel seen enough
    obtain ⟨fuel, rfl⟩ : ∃ less, fuel = less + 1 := ⟨fuel - 1, by grind⟩
    rw [List.flatMap_cons, Stroke.text, List.append_assoc, List.cons_append, List.singleton_append,
      readString_letter known, ih fuel _ (Nat.lt_of_succ_lt_succ enough), decoded_cons]
  | case4 high strokes second =>
    intro fuel seen enough
    obtain ⟨fuel, rfl⟩ : ∃ less, fuel = less + 1 := ⟨fuel - 1, by grind⟩
    rw [flatMap_unit, readString_unit, readUnicode_second second]
    rfl
  | case5 high strokes notSecond whole ih =>
    intro fuel seen enough
    obtain ⟨fuel, rfl⟩ : ∃ less, fuel = less + 1 := ⟨fuel - 1, by grind⟩
    rw [flatMap_unit, readString_unit, readUnicode_whole notSecond whole, ← decoded_cons]
    exact ih fuel _ (Nat.lt_of_succ_lt_succ enough)
  | case6 high notSecond first low strokes outside =>
    intro fuel seen enough
    obtain ⟨fuel, rfl⟩ : ∃ less, fuel = less + 1 := ⟨fuel - 1, by grind⟩
    rw [flatMap_unit, flatMap_unit, readString_unit, readUnicode_pair notSecond first,
      if_pos outside]
    rfl
  | case7 high notSecond first low strokes inside ih =>
    intro fuel seen enough
    obtain ⟨fuel, rfl⟩ : ∃ less, fuel = less + 1 := ⟨fuel - 1, by grind⟩
    rw [flatMap_unit, flatMap_unit, readString_unit, readUnicode_pair notSecond first,
      if_neg inside, ← decoded_cons]
    generalize Char.ofNat _ = decoded
    exact ih fuel (decoded :: seen) (by grind)
  | case8 high strokes notSecond first other =>
    intro fuel seen enough
    obtain ⟨fuel, rfl⟩ : ∃ less, fuel = less + 1 := ⟨fuel - 1, by grind⟩
    rw [flatMap_unit, readString_unit, readUnicode_first notSecond first]
    · rfl
    · intro more same
      cases strokes with
      | nil => cases same
      | cons stroke strokes =>
        cases stroke with
        | unit low => exact other low strokes rfl
        | plain c free => exact absurd (List.cons.inj same).1 free.2.1
        | letter c decoded known =>
          obtain ⟨rfl, _⟩ := List.cons.inj (List.cons.inj same).2
          cases known

/-! ### Numbers -/

/-- Decimal digits, at least one. -/
structure Digits where
  text : List Char
  some : text ≠ []
  all : ∀ c ∈ text, c.isDigit = true

/-- The exponent of a number. -/
structure Exponent where
  letter : Char
  isLetter : letter = 'e' ∨ letter = 'E'
  sign : List Char
  isSign : sign = [] ∨ sign = ['+'] ∨ sign = ['-']
  digits : Digits

/-- How an exponent is written. -/
def Exponent.text (exponent : Exponent) : List Char :=
  exponent.letter :: (exponent.sign ++ exponent.digits.text)

/-- A number as it is written: its whole part begins with a zero only if it is zero. -/
structure Numeral where
  negative : Bool
  whole : Digits
  lead : whole.text.head? = some '0' → whole.text.tail = []
  places : Option Digits
  exponent : Option Exponent

namespace Numeral

/-- How an exponent is written, if there is one. -/
def exponentText (numeral : Numeral) : List Char :=
  numeral.exponent.elim [] Exponent.text

/-- How a number is written behind its whole part. -/
def fraction (numeral : Numeral) : List Char :=
  numeral.places.elim [] (fun digits => '.' :: digits.text) ++ numeral.exponentText

/-- How a number is written behind its sign. -/
def magnitude (numeral : Numeral) : List Char :=
  numeral.whole.text ++ numeral.fraction

/-- How a number is written. -/
def text (numeral : Numeral) : List Char :=
  (if numeral.negative then ['-'] else []) ++ numeral.magnitude

/-- The number that is written; `none` when it is too large. -/
def value? (numeral : Numeral) : Option Json :=
  (readMagnitude numeral.negative numeral.magnitude).toOption.map (·.1)

end Numeral

theorem Digits.spanDigits_append (digits : Digits) {rest : List Char}
    (stops : ∀ c ∈ rest.head?, c.isDigit = false) :
    spanDigits (digits.text ++ rest) = (digits.text, rest) := by
  unfold spanDigits
  rw [List.takeWhile_append_of_pos digits.all, List.dropWhile_append_of_pos digits.all]
  cases rest with
  | nil => rw [List.takeWhile_nil, List.append_nil, List.dropWhile_nil]
  | cons c rest =>
    have other : c.isDigit = false := stops c rfl
    rw [List.takeWhile_cons, List.dropWhile_cons, other, if_neg (by decide), if_neg (by decide),
      List.append_nil]

/-- Whether reading takes a whole text, if it takes any of it. -/
def TakesAll {ε α : Type} (outcome : Except ε (α × List Char)) : Prop :=
  ∀ found ∈ outcome.toOption, found.2 = []

section

variable {negative : Bool}

theorem takesAll_settle (value : Nat) : TakesAll (readMagnitude.settle negative value []) := by
  obtain ⟨settled, same⟩ := exists_settle negative value
  rw [same]
  rintro found ⟨⟩
  rfl

theorem takesAll_readExponent (significand : Nat) (start : Int) (exponent : Exponent) :
    TakesAll (readExponent negative significand start
      (exponent.sign ++ exponent.digits.text)) := by
  have sign : (Decimal.splitSign (exponent.sign ++ exponent.digits.text)).2 =
      exponent.digits.text := by
    rcases exponent.isSign with none | plus | minus
    · rw [none, List.nil_append]
      unfold Decimal.splitSign
      split
      · rename_i same
        exact absurd (exponent.digits.all '-' (by rw [same]; exact List.mem_cons_self)) (by decide)
      · rename_i same
        exact absurd (exponent.digits.all '+' (by rw [same]; exact List.mem_cons_self)) (by decide)
      · rfl
    · rw [plus]
      rfl
    · rw [minus]
      rfl
  have spanned : spanDigits exponent.digits.text = (exponent.digits.text, []) := by
    have alone := @Digits.spanDigits_append exponent.digits [] (fun c none => by cases none)
    rwa [List.append_nil] at alone
  rw [readExponent_eq, sign, spanned]
  dsimp only
  rw [if_neg exponent.digits.some]
  split
  · rintro found ⟨⟩
    rfl
  · intro found none
    cases none

theorem takesAll_finishNumber (significand : Nat) (start : Int) (numeral : Numeral) :
    TakesAll (finishNumber negative significand start numeral.exponentText) := by
  unfold Numeral.exponentText
  cases numeral.exponent with
  | none =>
    rw [Option.elim_none, finishNumber]
    split
    · rintro found ⟨⟩
      rfl
    · intro found none
      cases none
  | some exponent =>
    rw [Option.elim_some, Exponent.text, finishNumber, if_pos exponent.isLetter]
    exact takesAll_readExponent significand start exponent

theorem Numeral.head?_exponentText (numeral : Numeral) :
    ∀ c ∈ numeral.exponentText.head?, c = 'e' ∨ c = 'E' := by
  unfold exponentText
  cases numeral.exponent with
  | none =>
    intro c none
    cases none
  | some exponent =>
    rintro c ⟨⟩
    exact exponent.isLetter

theorem takesAll_readPlaces (whole : Significand) (numeral : Numeral) :
    TakesAll (readPlaces negative whole numeral.fraction) := by
  unfold Numeral.fraction
  cases numeral.places with
  | some digits =>
    rw [Option.elim_some, List.cons_append, readPlaces, if_pos rfl, digits.spanDigits_append]
    · rw [if_neg (by simpa using digits.some)]
      exact takesAll_finishNumber _ _ numeral
    · intro c first
      rcases numeral.head?_exponentText c first with rfl | rfl <;> rfl
  | none =>
    rw [Option.elim_none, List.nil_append]
    cases shown : numeral.exponentText with
    | nil =>
      rw [readPlaces]
      split
      · exact shown ▸ takesAll_finishNumber _ _ numeral
      · exact takesAll_settle whole.value
    | cons c rest =>
      have letter : c = 'e' ∨ c = 'E' :=
        numeral.head?_exponentText c (by rw [shown]; rfl)
      have point : c ≠ '.' := by
        rintro rfl
        exact absurd letter (by decide)
      rw [readPlaces_of_ne point, if_pos (by tauto)]
      exact shown ▸ takesAll_finishNumber _ _ numeral

end

/-- A number is read up to its last character. -/
theorem takesAll_readMagnitude (numeral : Numeral) :
    TakesAll (readMagnitude numeral.negative numeral.magnitude) := by
  have stops : ∀ c ∈ numeral.fraction.head?, c.isDigit = false := by
    intro c first
    unfold Numeral.fraction at first
    cases some : numeral.places with
    | some digits =>
      rw [some] at first
      cases first
      rfl
    | none =>
      rw [some] at first
      rcases numeral.head?_exponentText c first with rfl | rfl <;> rfl
  have lead : ¬ (numeral.whole.text.head? = some '0' ∧ numeral.whole.text.tail ≠ []) :=
    fun both => both.2 (numeral.lead both.1)
  rw [readMagnitude_eq, Numeral.magnitude, numeral.whole.spanDigits_append stops]
  dsimp only
  rw [if_neg numeral.whole.some, if_neg lead]
  exact takesAll_readPlaces _ numeral

/-- **A number is read as the number that it is written as**, where it stops. -/
theorem readValue_numeral (numeral : Numeral) {rest : List Char} (stops : Stops rest)
    (fuel depth : Nat) :
    (readValue (fuel + 1) depth (numeral.text ++ rest)).toOption =
      numeral.value?.map fun value => (value, rest) := by
  have read : (readMagnitude numeral.negative (numeral.magnitude ++ rest)).toOption =
      numeral.value?.map fun value => (value, rest) := by
    have all := takesAll_readMagnitude numeral
    rw [readMagnitude_append stops, Numeral.value?]
    cases outcome : readMagnitude numeral.negative numeral.magnitude with
    | error fault => rfl
    | ok found =>
      rw [outcome] at all
      obtain ⟨value, left⟩ := found
      obtain rfl : left = [] := all _ rfl
      rfl
  rw [← read, Numeral.text, List.append_assoc]
  cases numeral.negative with
  | true =>
    rw [if_pos rfl, List.singleton_append, readValue_minus]
  | false =>
    obtain ⟨c, digits, shown⟩ := List.exists_cons_of_ne_nil numeral.whole.some
    have digit : c.isDigit = true :=
      numeral.whole.all c (by rw [shown]; exact List.mem_cons_self)
    rw [if_neg (by decide), List.nil_append, Numeral.magnitude, shown, List.cons_append,
      List.cons_append, readValue_of_digit digit]

/-! ### Names -/

/-- How a string is written. -/
inductive Spelling
  /-- between double quotes -/
  | double (strokes : List Stroke)
  /-- between single quotes, the apostrophe and the backslash behind a backslash -/
  | single (content : List Char)

/-- A key that can stand bare. -/
structure BareKey where
  text : List Char
  start : text.head?.any Relaxed.isKeyStart = true
  parts : ∀ c ∈ text, Relaxed.isKeyPart c = true

/-- How a string or a key is written. -/
inductive Name
  | quoted (spelling : Spelling)
  | bare (key : BareKey)

/-- A character between single quotes. -/
def escapeSingle (c : Char) : List Char :=
  if c = '\'' ∨ c = '\\' then ['\\', c] else [c]

/-- A character between single quotes, when the quotes become double ones. -/
def escapeTurned (c : Char) : List Char :=
  if c = '"' then ['\\', '"'] else escapeSingle c

namespace Name

/-- How a name is written. -/
def text : Name → List Char
  | quoted (.double strokes) => '"' :: (strokes.flatMap Stroke.text ++ ['"'])
  | quoted (.single content) => '\'' :: (content.flatMap escapeSingle ++ ['\''])
  | bare key => key.text

/-- What stands between the double quotes that a name is put into. -/
def inner : Name → List Char
  | quoted (.double strokes) => strokes.flatMap Stroke.text
  | quoted (.single content) => content.flatMap escapeTurned
  | bare key => key.text

/-- A name between double quotes. -/
def turned (name : Name) : List Char :=
  '"' :: (name.inner ++ ['"'])

/-- The text that a name stands for; `none` when half a character stands alone. -/
def value? : Name → Option String
  | quoted (.double strokes) => (Stroke.decode strokes).map String.ofList
  | quoted (.single content) => some (String.ofList content)
  | bare key => some (String.ofList key.text)

/-- Whether a name needs no escape that the strict notation does not have: between single quotes,
no apostrophe and no control character. -/
def Plain : Name → Prop
  | quoted (.double _) => True
  | quoted (.single content) => ∀ c ∈ content, c ≠ '\'' ∧ 0x20 ≤ c.toNat
  | bare _ => True

/-- Whether a name is written as in the strict notation. -/
def Strict : Name → Prop
  | quoted (.double _) => True
  | _ => False

instance : DecidablePred Plain
  | quoted (.double _) => .isTrue trivial
  | quoted (.single content) =>
    inferInstanceAs (Decidable (∀ c ∈ content, c ≠ '\'' ∧ 0x20 ≤ c.toNat))
  | bare _ => .isTrue trivial

/-- The text that is read when a name stands between double quotes. -/
def read? (name : Name) : Option String :=
  if name.Plain then name.value? else none

theorem read?_eq_some_iff {name : Name} {text : String} :
    name.read? = some text ↔ name.Plain ∧ name.value? = some text := by
  rw [read?]
  split <;> simp [*]

theorem turned_of_strict {name : Name} (strict : name.Strict) : name.turned = name.text := by
  match name, strict with
  | quoted (.double _), _ => rfl

end Name

/-- A character that the strict notation can show without an escape. -/
theorem free_of_keyPart {c : Char} (part : Relaxed.isKeyPart c = true) :
    c ≠ '"' ∧ c ≠ '\\' ∧ 0x20 ≤ c.toNat := by
  refine ⟨?_, ?_, ?_⟩
  · rintro rfl
    exact absurd part (by decide)
  · rintro rfl
    exact absurd part (by decide)
  · by_contra control
    have ascii : ∀ n < 0x20, Relaxed.isKeyPart (Char.ofNat n) = false := by decide
    have := ascii c.toNat (by omega)
    rw [Char.ofNat_toNat, part] at this
    cases this

theorem readString_free {text : List Char}
    (free : ∀ c ∈ text, c ≠ '"' ∧ c ≠ '\\' ∧ 0x20 ≤ c.toNat) (rest : List Char) :
    ∀ (fuel : Nat) (seen : List Char), text.length < fuel →
      readString fuel seen (text ++ '"' :: rest) =
        .ok (String.ofList (seen.reverse ++ text), rest) := by
  have spelled := @readString_spelled (fun c => [c]) text
    (fun c inside _ _ _ => readString_plain (free c inside) _ _ _) rest
  rwa [List.flatMap_singleton'] at spelled

/-- A text between single quotes is read between double ones if it needs no escape that the
strict notation does not have, and not at all if it does. -/
theorem readString_turned (content rest : List Char) :
    ∀ (fuel : Nat) (seen : List Char), content.length < fuel →
      (readString fuel seen (content.flatMap escapeTurned ++ '"' :: rest)).toOption =
        if ∀ c ∈ content, c ≠ '\'' ∧ 0x20 ≤ c.toNat then
          some (String.ofList (seen.reverse ++ content), rest)
        else none := by
  induction content with
  | nil =>
    intro fuel seen enough
    obtain ⟨fuel, rfl⟩ := Nat.exists_eq_add_of_lt enough
    rw [if_pos fun _ none => absurd none List.not_mem_nil, List.append_nil]
    rfl
  | cons c content ih =>
    intro fuel seen enough
    obtain ⟨fuel, rfl⟩ : ∃ less, fuel = less + 1 := ⟨fuel - 1, by grind⟩
    have tail := ih fuel (c :: seen) (Nat.lt_of_succ_lt_succ enough)
    rw [List.reverse_cons, List.append_assoc, List.singleton_append] at tail
    simp only [List.forall_mem_cons]
    by_cases quote : c = '"'
    · subst quote
      rw [List.flatMap_cons, List.append_assoc]
      refine (congrArg Except.toOption (readString_letter rfl fuel seen _)).trans (tail.trans ?_)
      have passes : '"' ≠ '\'' ∧ 0x20 ≤ '"'.toNat := by decide
      simp only [passes, ne_eq, not_false_eq_true, true_and]
    by_cases backslash : c = '\\'
    · subst backslash
      rw [List.flatMap_cons, List.append_assoc]
      refine (congrArg Except.toOption (readString_letter rfl fuel seen _)).trans (tail.trans ?_)
      have passes : '\\' ≠ '\'' ∧ 0x20 ≤ '\\'.toNat := by decide
      simp only [passes, ne_eq, not_false_eq_true, true_and]
    by_cases apostrophe : c = '\''
    · subst apostrophe
      rw [if_neg fun plain => plain.1.1 rfl]
      rfl
    have shown : (c :: content).flatMap escapeTurned ++ '"' :: rest =
        c :: (content.flatMap escapeTurned ++ '"' :: rest) := by
      rw [List.flatMap_cons, escapeTurned, if_neg quote, escapeSingle, if_neg (by tauto)]
      rfl
    rw [shown]
    by_cases visible : 0x20 ≤ c.toNat
    · rw [readString_plain ⟨quote, backslash, visible⟩, tail]
      simp only [visible, apostrophe, ne_eq, not_false_eq_true, true_and]
    · rw [if_neg fun plain => visible plain.1.2]
      conv_lhs => unfold readString
      rw [if_neg quote, if_neg backslash, if_pos (by omega)]
      rfl

theorem length_le_flatMap_escapeTurned (content : List Char) :
    content.length ≤ (content.flatMap escapeTurned).length := by
  induction content with
  | nil => exact Nat.le_refl _
  | cons c content ih =>
    have some : 1 ≤ (escapeTurned c).length := by
      unfold escapeTurned escapeSingle
      repeat' split
      all_goals simp
    rw [List.flatMap_cons, List.length_append, List.length_cons]
    omega

/-- **What is read of a name between double quotes**, up to the closing one. -/
theorem readString_inner (name : Name) (rest : List Char) :
    (readString ((name.inner ++ '"' :: rest).length + 1) [] (name.inner ++ '"' :: rest)).toOption =
      name.read?.map fun text => (text, rest) := by
  have long : name.inner.length < (name.inner ++ '"' :: rest).length + 1 := by
    rw [List.length_append]
    omega
  match name with
  | .quoted (.double strokes) =>
    have plain : (Name.quoted (.double strokes)).Plain := trivial
    have enough := (Stroke.length_le_flatMap_text strokes).trans_lt long
    refine (readString_strokes strokes rest _ [] enough).trans ?_
    rw [Name.read?, if_pos plain, Name.value?, Option.map_map]
    rfl
  | .quoted (.single content) =>
    have enough := (length_le_flatMap_escapeTurned content).trans_lt long
    refine (readString_turned content rest _ [] enough).trans ?_
    by_cases plain : (Name.quoted (.single content)).Plain
    · rw [Name.read?, if_pos plain]
      exact if_pos plain
    · rw [Name.read?, if_neg plain]
      exact if_neg plain
  | .bare key =>
    have plain : (Name.bare key).Plain := trivial
    have free := readString_free (fun c inside => free_of_keyPart (key.parts c inside)) rest _ []
      long
    refine (congrArg Except.toOption free).trans ?_
    rw [Name.read?, if_pos plain]
    rfl

/-! ### Values -/

/-- Blanks between the parts of a value. -/
structure Blanks where
  text : List Char
  all : ∀ c ∈ text, isSpace c = true

instance : EmptyCollection Blanks :=
  ⟨⟨[], List.forall_mem_nil _⟩⟩

/-- The blanks around an item. -/
structure Margin where
  before : Blanks
  after : Blanks

/-- A key with the blanks in front of it, in front of its colon, and around its value. -/
structure Key where
  before : Blanks
  name : Name
  colon : Blanks
  lead : Blanks
  after : Blanks

/-- A value as it is written. -/
inductive Note
  | null
  | bool (value : Bool)
  | number (numeral : Numeral)
  | string (spelling : Spelling)
  | array (blanks : Blanks) (items : List (Margin × Note))
  | object (blanks : Blanks) (entries : List (Key × Note))

/-- A comma, but not in front of the first part. -/
def separator (first : Bool) : List Char :=
  if first then [] else [',']

namespace Note

mutual

/-- How a value is written, when names are written by `form`. -/
def written (form : Name → List Char) : Note → List Char
  | null => "null".toList
  | bool true => "true".toList
  | bool false => "false".toList
  | number numeral => numeral.text
  | string spelling => form (.quoted spelling)
  | array blanks items => '[' :: (blanks.text ++ (writtenItems form true items ++ [']']))
  | object blanks entries => '{' :: (blanks.text ++ (writtenEntries form true entries ++ ['}']))

/-- The items of an array, with commas in front of all but the first. -/
def writtenItems (form : Name → List Char) : Bool → List (Margin × Note) → List Char
  | _, [] => []
  | first, (margin, note) :: rest =>
    separator first ++ (margin.before.text ++ (written form note ++
      (margin.after.text ++ writtenItems form false rest)))

/-- The entries of an object, with commas in front of all but the first. -/
def writtenEntries (form : Name → List Char) : Bool → List (Key × Note) → List Char
  | _, [] => []
  | first, (key, note) :: rest =>
    separator first ++ (key.before.text ++ (form key.name ++ (key.colon.text ++
      ':' :: (key.lead.text ++ (written form note ++
        (key.after.text ++ writtenEntries form false rest))))))

end

mutual

/-- The value that is written, when names are understood by `mean`; `none` when a part of it
means nothing. -/
def value? (mean : Name → Option String) : Note → Option Json
  | null => some .null
  | bool value => some (.bool value)
  | number numeral => numeral.value?
  | string spelling => (mean (.quoted spelling)).map .string
  | array _ items => (valueItems? mean items).map .array
  | object _ entries => (valueEntries? mean entries).map .object

/-- The values of items. -/
def valueItems? (mean : Name → Option String) : List (Margin × Note) → Option (List Json)
  | [] => some []
  | (_, note) :: rest =>
    (value? mean note).bind fun value => (valueItems? mean rest).map (value :: ·)

/-- The keys and values of entries. -/
def valueEntries? (mean : Name → Option String) :
    List (Key × Note) → Option (List (String × Json))
  | [] => some []
  | (key, note) :: rest =>
    (mean key.name).bind fun name => (value? mean note).bind fun value =>
      (valueEntries? mean rest).map ((name, value) :: ·)

end

mutual

/-- How deep arrays and objects are nested. -/
def depth : Note → Nat
  | array _ items => depthOfItems items + 1
  | object _ entries => depthOfEntries entries + 1
  | _ => 0

/-- The greatest depth of the items. -/
def depthOfItems : List (Margin × Note) → Nat
  | [] => 0
  | (_, note) :: rest => max (depth note) (depthOfItems rest)

/-- The greatest depth of the values of the entries. -/
def depthOfEntries : List (Key × Note) → Nat
  | [] => 0
  | (_, note) :: rest => max (depth note) (depthOfEntries rest)

end

mutual

/-- Whether all strings and keys satisfy `p`. -/
def Each (p : Name → Prop) : Note → Prop
  | string spelling => p (.quoted spelling)
  | array _ items => EachItem p items
  | object _ entries => EachEntry p entries
  | _ => True

/-- The same of the items. -/
def EachItem (p : Name → Prop) : List (Margin × Note) → Prop
  | [] => True
  | (_, note) :: rest => Each p note ∧ EachItem p rest

/-- The same of the entries, keys included. -/
def EachEntry (p : Name → Prop) : List (Key × Note) → Prop
  | [] => True
  | (key, note) :: rest => p key.name ∧ Each p note ∧ EachEntry p rest

end

theorem eachItem_iff {p : Name → Prop} : ∀ {items : List (Margin × Note)},
    EachItem p items ↔ ∀ item ∈ items, item.2.Each p
  | [] => by simp [EachItem]
  | (margin, note) :: items => by rw [EachItem, eachItem_iff, List.forall_mem_cons]

theorem eachEntry_iff {p : Name → Prop} : ∀ {entries : List (Key × Note)},
    EachEntry p entries ↔ ∀ entry ∈ entries, p entry.1.name ∧ entry.2.Each p
  | [] => by simp [EachEntry]
  | (key, note) :: entries => by
    rw [EachEntry, eachEntry_iff, List.forall_mem_cons, and_assoc]

@[induction_eliminator]
theorem byParts {motive : Note → Prop} (null : motive null) (bool : ∀ value, motive (bool value))
    (number : ∀ numeral, motive (number numeral))
    (string : ∀ spelling, motive (string spelling))
    (array : ∀ blanks items, (∀ item ∈ items, motive item.2) → motive (array blanks items))
    (object : ∀ blanks entries, (∀ entry ∈ entries, motive entry.2) →
      motive (object blanks entries)) : ∀ note, motive note :=
  @Note.rec motive (fun items => ∀ item ∈ items, motive item.2)
    (fun entries => ∀ entry ∈ entries, motive entry.2) (fun item => motive item.2)
    (fun entry => motive entry.2) null bool number string array object
    (fun _ inside => absurd inside List.not_mem_nil)
    (fun _ _ first others => List.forall_mem_cons.mpr ⟨first, others⟩)
    (fun _ inside => absurd inside List.not_mem_nil)
    (fun _ _ first others => List.forall_mem_cons.mpr ⟨first, others⟩)
    (fun _ _ holds => holds) (fun _ _ holds => holds)

/-! ### The same value in another form -/

theorem writtenItems_congr {f g : Name → List Char} : ∀ {items : List (Margin × Note)},
    (∀ item ∈ items, item.2.written f = item.2.written g) → ∀ first,
      writtenItems f first items = writtenItems g first items
  | [], _, _ => rfl
  | (margin, note) :: items, same, first => by
    obtain ⟨head, same⟩ := List.forall_mem_cons.mp same
    have head : note.written f = note.written g := head
    rw [writtenItems, writtenItems, head, writtenItems_congr same]

theorem writtenEntries_congr {f g : Name → List Char} : ∀ {entries : List (Key × Note)},
    (∀ entry ∈ entries, f entry.1.name = g entry.1.name ∧
      entry.2.written f = entry.2.written g) → ∀ first,
      writtenEntries f first entries = writtenEntries g first entries
  | [], _, _ => rfl
  | (key, note) :: entries, same, first => by
    obtain ⟨⟨name, head⟩, same⟩ := List.forall_mem_cons.mp same
    have name : f key.name = g key.name := name
    have head : note.written f = note.written g := head
    rw [writtenEntries, writtenEntries, name, head, writtenEntries_congr same]

/-- A value is written alike in two forms that write its names alike. -/
theorem written_congr {f g : Name → List Char} (note : Note)
    (same : note.Each fun name => f name = g name) : note.written f = note.written g := by
  induction note with
  | null => rfl
  | bool value => cases value <;> rfl
  | number numeral => rfl
  | string spelling => exact same
  | array blanks items each =>
    have same := eachItem_iff.mp same
    rw [written, written,
      writtenItems_congr fun item inside => each item inside (same item inside)]
  | object blanks entries each =>
    have same := eachEntry_iff.mp same
    rw [written, written, writtenEntries_congr fun entry inside =>
      ⟨(same entry inside).1, each entry inside (same entry inside).2⟩]

theorem Each.imp {p q : Name → Prop} (weaker : ∀ name, p name → q name) {note : Note}
    (each : note.Each p) : note.Each q := by
  induction note with
  | null => trivial
  | bool value => trivial
  | number numeral => trivial
  | string spelling => exact weaker _ each
  | array blanks items ih =>
    exact eachItem_iff.mpr fun item inside => ih item inside (eachItem_iff.mp each item inside)
  | object blanks entries ih =>
    have each := eachEntry_iff.mp each
    exact eachEntry_iff.mpr fun entry inside =>
      ⟨weaker _ (each entry inside).1, ih entry inside (each entry inside).2⟩

/-- Whether what is read of a value is the value, if its names are plain, and nothing if not. -/
def ReadsPlain (note : Note) : Prop :=
  ∀ value, note.value? Name.read? = some value ↔
    note.Each Name.Plain ∧ note.value? Name.value? = some value

theorem valueItems?_read? : ∀ {items : List (Margin × Note)},
    (∀ item ∈ items, item.2.ReadsPlain) → ∀ values,
      valueItems? Name.read? items = some values ↔
        EachItem Name.Plain items ∧ valueItems? Name.value? items = some values
  | [], _, values => by simp [valueItems?, EachItem]
  | (margin, note) :: items, each, values => by
    obtain ⟨head, each⟩ := List.forall_mem_cons.mp each
    have head : note.ReadsPlain := head
    simp only [valueItems?, EachItem, Option.bind_eq_some_iff, Option.map_eq_some_iff, head _,
      valueItems?_read? each]
    tauto

theorem valueEntries?_read? : ∀ {entries : List (Key × Note)},
    (∀ entry ∈ entries, entry.2.ReadsPlain) → ∀ values,
      valueEntries? Name.read? entries = some values ↔
        EachEntry Name.Plain entries ∧ valueEntries? Name.value? entries = some values
  | [], _, values => by simp [valueEntries?, EachEntry]
  | (key, note) :: entries, each, values => by
    obtain ⟨head, each⟩ := List.forall_mem_cons.mp each
    have head : note.ReadsPlain := head
    simp only [valueEntries?, EachEntry, Option.bind_eq_some_iff, Option.map_eq_some_iff,
      Name.read?_eq_some_iff, head _, valueEntries?_read? each]
    tauto

theorem readsPlain (note : Note) : note.ReadsPlain := by
  induction note with
  | null => simp [ReadsPlain, value?, Each]
  | bool _ => simp [ReadsPlain, value?, Each]
  | number _ => simp [ReadsPlain, value?, Each]
  | string spelling =>
    simp only [ReadsPlain, value?, Each, Option.map_eq_some_iff, Name.read?_eq_some_iff]
    tauto
  | array blanks items each =>
    simp only [ReadsPlain, value?, Each, Option.map_eq_some_iff, valueItems?_read? each]
    tauto
  | object blanks entries each =>
    simp only [ReadsPlain, value?, Each, Option.map_eq_some_iff, valueEntries?_read? each]
    tauto

end Note

theorem Numeral.exists_text (numeral : Numeral) :
    ∃ c rest, numeral.text = c :: rest ∧ (c = '-' ∨ c.isDigit = true) := by
  obtain ⟨c, digits, shown⟩ := List.exists_cons_of_ne_nil numeral.whole.some
  have digit : c.isDigit = true := numeral.whole.all c (by rw [shown]; exact List.mem_cons_self)
  unfold text magnitude
  rw [shown]
  cases numeral.negative with
  | true => exact ⟨_, _, rfl, .inl rfl⟩
  | false => exact ⟨_, _, rfl, .inr digit⟩

/-- The characters of a number. -/
theorem Numeral.mem_text {numeral : Numeral} {c : Char} (inside : c ∈ numeral.text) :
    c.isDigit = true ∨ c ∈ ['-', '+', '.', 'e', 'E'] := by
  unfold text magnitude fraction exponentText at inside
  simp only [List.mem_append] at inside
  rcases inside with sign | whole | point | power
  · split at sign
    · exact .inr (by rw [List.mem_singleton.mp sign]; decide)
    · cases sign
  · exact .inl (numeral.whole.all c whole)
  · cases some : numeral.places with
    | none =>
      rw [some] at point
      cases point
    | some places =>
      rw [some] at point
      rcases List.mem_cons.mp point with rfl | place
      · exact .inr (by decide)
      · exact .inl (places.all c place)
  · cases some : numeral.exponent with
    | none =>
      rw [some] at power
      cases power
    | some exponent =>
      rw [some] at power
      rcases List.mem_cons.mp power with rfl | power
      · refine .inr ?_
        rcases exponent.isLetter with letter | letter <;> rw [letter] <;> decide
      · rcases List.mem_append.mp power with sign | digit
        · refine .inr ?_
          rcases exponent.isSign with none | plus | minus
          · rw [none] at sign
            cases sign
          · rw [plus, List.mem_singleton] at sign
            rw [sign]
            decide
          · rw [minus, List.mem_singleton] at sign
            rw [sign]
            decide
        · exact .inl (exponent.digits.all c digit)

/-! ### Reading what is written -/

theorem skipSpace_blanks (blanks : Blanks) (text : List Char) :
    skipSpace (blanks.text ++ text) = skipSpace text :=
  skipSpace_append blanks.all text

theorem readValue_blanks (fuel depth : Nat) (blanks : Blanks) (text : List Char) :
    readValue fuel depth (blanks.text ++ text) = readValue fuel depth text := by
  rw [← readValue_skipSpace, skipSpace_blanks, readValue_skipSpace]

theorem readItems_blanks (fuel depth : Nat) (first : Bool) (seen : List Json) (blanks : Blanks)
    (text : List Char) :
    readItems fuel depth first seen (blanks.text ++ text) =
      readItems fuel depth first seen text := by
  cases fuel with
  | zero => rfl
  | succ fuel => rw [readItems, readItems, readNext, readNext, skipSpace_blanks]

theorem readEntries_blanks (fuel depth : Nat) (first : Bool) (seen : List (String × Json))
    (blanks : Blanks) (text : List Char) :
    readEntries fuel depth first seen (blanks.text ++ text) =
      readEntries fuel depth first seen text := by
  cases fuel with
  | zero => rfl
  | succ fuel =>
    rw [readEntries, readEntries, readKey, readKey, readKeyOnly, readKeyOnly, skipSpace_blanks]

theorem stops_blanks (blanks : Blanks) {text : List Char} (stops : Stops text) :
    Stops (blanks.text ++ text) := by
  obtain ⟨blanks, all⟩ := blanks
  cases blanks with
  | nil => exact stops
  | cons c blanks =>
    have space := all c List.mem_cons_self
    simp only [isSpace, Bool.or_eq_true, decide_eq_true_eq] at space
    rcases space with ((rfl | rfl) | rfl) | rfl <;> exact ⟨rfl, by decide⟩

namespace Note

theorem stops_writtenItems (form : Name → List Char) (items : List (Margin × Note))
    (rest : List Char) : Stops (writtenItems form false items ++ ']' :: rest) := by
  cases items with
  | nil => exact ⟨rfl, by decide⟩
  | cons item items => exact ⟨rfl, by decide⟩

theorem stops_writtenEntries (form : Name → List Char) (entries : List (Key × Note))
    (rest : List Char) : Stops (writtenEntries form false entries ++ '}' :: rest) := by
  cases entries with
  | nil => exact ⟨rfl, by decide⟩
  | cons entry entries => exact ⟨rfl, by decide⟩

/-- A value begins with something that is no blank and closes no array. -/
theorem exists_written (note : Note) :
    ∃ c rest, note.written Name.turned = c :: rest ∧ isSpace c = false ∧ c ≠ ']' := by
  match note with
  | null => exact ⟨_, _, rfl, rfl, by decide⟩
  | bool true => exact ⟨_, _, rfl, rfl, by decide⟩
  | bool false => exact ⟨_, _, rfl, rfl, by decide⟩
  | string spelling => exact ⟨_, _, rfl, rfl, by decide⟩
  | array blanks items => exact ⟨_, _, by rw [written], rfl, by decide⟩
  | object blanks entries => exact ⟨_, _, by rw [written], rfl, by decide⟩
  | number numeral =>
    obtain ⟨c, rest, shown, first⟩ := numeral.exists_text
    refine ⟨c, rest, by rw [written, shown], ?_⟩
    rcases first with rfl | digit
    · exact ⟨rfl, by decide⟩
    · have other : ∀ d : Char, d.isDigit = false → c ≠ d := by
        rintro d plain rfl
        rw [digit] at plain
        cases plain
      exact ⟨by simp [isSpace, other], other _ rfl⟩

/-! ### Going on in a list -/

theorem readNext_written (first : Bool) (margin : Margin) (note : Note) (rest : List Char) :
    readNext first (separator first ++ (margin.before.text ++
      (note.written Name.turned ++ rest))) = .ok (true, note.written Name.turned ++ rest) := by
  obtain ⟨c, back, shown, visible, something⟩ := note.exists_written
  have skipped : skipSpace (margin.before.text ++ (note.written Name.turned ++ rest)) =
      c :: (back ++ rest) := by
    rw [skipSpace_blanks, shown, List.cons_append, skipSpace_of_visible visible]
  rw [shown, List.cons_append] at skipped ⊢
  cases first with
  | true => exact readNext_first skipped something
  | false => exact readNext_comma skipped something

theorem readColon_written (blanks : Blanks) (rest : List Char) :
    readColon (blanks.text ++ ':' :: rest) = .ok rest := by
  rw [readColon, skipSpace_blanks]
  rfl

theorem readKeyOnly_written (first : Bool) (key : Key) (rest : List Char) :
    (readKeyOnly first (separator first ++ (key.before.text ++
      (key.name.turned ++ rest)))).toOption =
        key.name.read?.map fun name => (some name, rest) := by
  have skipped : skipSpace (key.before.text ++ (key.name.turned ++ rest)) =
      '"' :: (key.name.inner ++ '"' :: rest) := by
    rw [skipSpace_blanks, Name.turned, List.cons_append, List.append_assoc,
      List.singleton_append, skipSpace_of_visible rfl]
  have name := readString_inner key.name rest
  generalize key.name.inner ++ '"' :: rest = back at skipped name
  have only : readKeyOnly first (separator first ++ (key.before.text ++
      (key.name.turned ++ rest))) =
        (readString (back.length + 1) [] back).map fun found => (some found.1, found.2) := by
    cases first with
    | true => exact readKeyOnly_first skipped
    | false => exact readKeyOnly_comma skipped
  have mapped : ∀ outcome : Except Fault (String × List Char),
      (outcome.map fun found => (some found.1, found.2)).toOption =
        outcome.toOption.map fun found => (some found.1, found.2) := by
    rintro (_ | _) <;> rfl
  rw [only, mapped, name, Option.map_map]
  rfl

theorem readKey_written (first : Bool) (key : Key) (rest : List Char) :
    (readKey first (separator first ++ (key.before.text ++ (key.name.turned ++
      (key.colon.text ++ ':' :: rest))))).toOption =
        key.name.read?.map fun name => (some name, rest) := by
  have only := readKeyOnly_written first key (key.colon.text ++ ':' :: rest)
  have colon := readColon_written key.colon rest
  unfold readKey
  cases meant : key.name.read? with
  | none =>
    rw [meant] at only
    cases outcome : readKeyOnly first (separator first ++ (key.before.text ++
      (key.name.turned ++ (key.colon.text ++ ':' :: rest)))) with
    | error fault => rfl
    | ok found =>
      rw [outcome] at only
      cases only
  | some name =>
    rw [meant] at only
    rw [eq_ok_of_toOption only]
    simp only [bind, Except.bind, pure, Except.pure, colon]
    rfl

/-! ### Whole values -/

/-- What the reader takes from a note that may be nested `limit` deep. -/
def read? (limit : Nat) (note : Note) : Option Json :=
  if note.depth ≤ limit then note.value? Name.read? else none

theorem read?_eq_some_iff {limit : Nat} {note : Note} {value : Json} :
    note.read? limit = some value ↔
      note.depth ≤ limit ∧ note.Each Name.Plain ∧ note.value? Name.value? = some value := by
  rw [read?, ← note.readsPlain value]
  split <;> simp [*]

/-- The same for the items of an array. -/
def readItems? (limit : Nat) (items : List (Margin × Note)) : Option (List Json) :=
  if depthOfItems items ≤ limit then valueItems? Name.read? items else none

/-- The same for the entries of an object. -/
def readEntries? (limit : Nat) (entries : List (Key × Note)) : Option (List (String × Json)) :=
  if depthOfEntries entries ≤ limit then valueEntries? Name.read? entries else none

theorem readItems?_cons (limit : Nat) (margin : Margin) (note : Note)
    (items : List (Margin × Note)) :
    readItems? limit ((margin, note) :: items) =
      (note.read? limit).bind fun value => (readItems? limit items).map (value :: ·) := by
  unfold readItems? read?
  rw [depthOfItems, valueItems?]
  by_cases head : note.depth ≤ limit
  · by_cases tail : depthOfItems items ≤ limit
    · rw [if_pos (max_le head tail), if_pos head, if_pos tail]
    · rw [if_neg fun both => tail (le_of_max_le_right both), if_neg tail]
      simp
  · rw [if_neg fun both => head (le_of_max_le_left both), if_neg head, Option.bind_none]

theorem readEntries?_cons (limit : Nat) (key : Key) (note : Note)
    (entries : List (Key × Note)) :
    readEntries? limit ((key, note) :: entries) =
      key.name.read?.bind fun name => (note.read? limit).bind fun value =>
        (readEntries? limit entries).map ((name, value) :: ·) := by
  unfold readEntries? read?
  rw [depthOfEntries, valueEntries?]
  by_cases head : note.depth ≤ limit
  · by_cases tail : depthOfEntries entries ≤ limit
    · rw [if_pos (max_le head tail), if_pos head, if_pos tail]
    · rw [if_neg fun both => tail (le_of_max_le_right both), if_neg tail]
      simp
  · rw [if_neg fun both => head (le_of_max_le_left both), if_neg head]
    simp

theorem read?_array (limit : Nat) (blanks : Blanks) (items : List (Margin × Note)) :
    (array blanks items).read? (limit + 1) = (readItems? limit items).map .array := by
  unfold read? readItems?
  rw [depth, value?]
  simp only [Nat.add_le_add_iff_right]
  split <;> rfl

theorem read?_object (limit : Nat) (blanks : Blanks) (entries : List (Key × Note)) :
    (object blanks entries).read? (limit + 1) = (readEntries? limit entries).map .object := by
  unfold read? readEntries?
  rw [depth, value?]
  simp only [Nat.add_le_add_iff_right]
  split <;> rfl

/-- Whether the reader takes from a note what the note stands for, wherever it stands and
whatever follows it that goes on no number. -/
def ReadsAsWritten (note : Note) : Prop :=
  ∀ (fuel limit : Nat) {rest : List Char}, Stops rest →
    2 * (note.written Name.turned).length < fuel →
      (readValue fuel limit (note.written Name.turned ++ rest)).toOption =
        (note.read? limit).map fun value => (value, rest)

theorem eq_error_or_ok {ε α β : Type} {outcome : Except ε β} {meant : Option α} {give : α → β}
    (same : outcome.toOption = meant.map give) :
    (∃ fault, outcome = .error fault ∧ meant = none) ∨
      ∃ value, outcome = .ok (give value) ∧ meant = some value := by
  cases outcome with
  | error fault => exact .inl ⟨fault, rfl, Option.map_eq_none_iff.mp same.symm⟩
  | ok found =>
    obtain ⟨value, meant, rfl⟩ := Option.map_eq_some_iff.mp same.symm
    exact .inr ⟨value, rfl, meant⟩

/-- The items of an array, up to the closing bracket. -/
theorem readItems_written (limit : Nat) (rest : List Char) :
    ∀ {items : List (Margin × Note)}, (∀ item ∈ items, item.2.ReadsAsWritten) →
      ∀ (first : Bool) (fuel : Nat) (seen : List Json),
        2 * (writtenItems Name.turned first items).length + 1 < fuel →
          (readItems fuel limit first seen
            (writtenItems Name.turned first items ++ ']' :: rest)).toOption =
              (readItems? limit items).map fun found => (seen.reverse ++ found, rest)
  | [], _, first, fuel, seen, long => by
    obtain ⟨fuel, rfl⟩ := Nat.exists_eq_succ_of_ne_zero (Nat.ne_zero_of_lt long)
    rw [readItems?, depthOfItems, if_pos (Nat.zero_le _), valueItems?, writtenItems,
      List.nil_append, readItems, readNext, skipSpace_of_visible rfl]
    exact congrArg (fun items => some (items, rest)) (List.append_nil _).symm
  | (margin, note) :: items, each, first, fuel, seen, long => by
    obtain ⟨fuel, rfl⟩ := Nat.exists_eq_succ_of_ne_zero (Nat.ne_zero_of_lt long)
    obtain ⟨readHead, each⟩ := List.forall_mem_cons.mp each
    have readHead : note.ReadsAsWritten := readHead
    obtain ⟨c, back, shown, _⟩ := note.exists_written
    have some : 0 < (note.written Name.turned).length := by
      rw [shown]
      exact Nat.succ_pos _
    rw [writtenItems] at long
    simp only [List.length_append] at long
    have text : writtenItems Name.turned first ((margin, note) :: items) ++ ']' :: rest =
        separator first ++ (margin.before.text ++ (note.written Name.turned ++
          (margin.after.text ++ (writtenItems Name.turned false items ++ ']' :: rest)))) := by
      rw [writtenItems]
      simp only [List.append_assoc]
    have head := readHead fuel limit
      (stops_blanks margin.after (stops_writtenItems Name.turned items rest)) (by omega)
    rw [text, readItems, readNext_written, readItems?_cons]
    dsimp only
    obtain ⟨fault, failed, none⟩ | ⟨value, ok, meant⟩ := eq_error_or_ok head
    · rw [failed, none]
      rfl
    · rw [ok, meant]
      dsimp only
      rw [readItems_blanks, readItems_written limit rest each false fuel (value :: seen) (by omega),
        Option.bind_some, Option.map_map]
      simp only [Function.comp_def, List.reverse_cons, List.append_assoc, List.singleton_append]

/-- The entries of an object, up to the closing brace. -/
theorem readEntries_written (limit : Nat) (rest : List Char) :
    ∀ {entries : List (Key × Note)}, (∀ entry ∈ entries, entry.2.ReadsAsWritten) →
      ∀ (first : Bool) (fuel : Nat) (seen : List (String × Json)),
        2 * (writtenEntries Name.turned first entries).length + 1 < fuel →
          (readEntries fuel limit first seen
            (writtenEntries Name.turned first entries ++ '}' :: rest)).toOption =
              (readEntries? limit entries).map fun found => (seen.reverse ++ found, rest)
  | [], _, first, fuel, seen, long => by
    obtain ⟨fuel, rfl⟩ := Nat.exists_eq_succ_of_ne_zero (Nat.ne_zero_of_lt long)
    rw [readEntries?, depthOfEntries, if_pos (Nat.zero_le _), valueEntries?, writtenEntries,
      List.nil_append, readEntries, readKey, readKeyOnly, skipSpace_of_visible rfl]
    exact congrArg (fun entries => some (entries, rest)) (List.append_nil _).symm
  | (key, note) :: entries, each, first, fuel, seen, long => by
    obtain ⟨fuel, rfl⟩ := Nat.exists_eq_succ_of_ne_zero (Nat.ne_zero_of_lt long)
    obtain ⟨readHead, each⟩ := List.forall_mem_cons.mp each
    have readHead : note.ReadsAsWritten := readHead
    rw [writtenEntries] at long
    simp only [List.length_append, List.length_cons] at long
    have text : writtenEntries Name.turned first ((key, note) :: entries) ++ '}' :: rest =
        separator first ++ (key.before.text ++ (key.name.turned ++ (key.colon.text ++
          ':' :: (key.lead.text ++ (note.written Name.turned ++ (key.after.text ++
            (writtenEntries Name.turned false entries ++ '}' :: rest))))))) := by
      rw [writtenEntries]
      simp only [List.append_assoc, List.cons_append]
    have head := readHead fuel limit
      (stops_blanks key.after (stops_writtenEntries Name.turned entries rest)) (by omega)
    rw [text, readEntries, readEntries?_cons]
    obtain ⟨fault, failed, none⟩ | ⟨name, ok, meant⟩ :=
      eq_error_or_ok (readKey_written first key (key.lead.text ++ (note.written Name.turned ++
        (key.after.text ++ (writtenEntries Name.turned false entries ++ '}' :: rest)))))
    · rw [failed, none]
      rfl
    · rw [ok, meant]
      dsimp only
      rw [readValue_blanks, Option.bind_some]
      obtain ⟨fault, failed, none⟩ | ⟨value, ok, meant⟩ := eq_error_or_ok head
      · rw [failed, none]
        rfl
      · rw [ok, meant]
        dsimp only
        rw [readEntries_blanks,
          readEntries_written limit rest each false fuel ((name, value) :: seen) (by omega),
          Option.bind_some, Option.map_map]
        simp only [Function.comp_def, List.reverse_cons, List.append_assoc,
          List.singleton_append]

theorem readsAsWritten_array {blanks : Blanks} {items : List (Margin × Note)}
    (each : ∀ item ∈ items, item.2.ReadsAsWritten) : (array blanks items).ReadsAsWritten := by
  intro fuel limit rest _ long
  obtain ⟨fuel, rfl⟩ := Nat.exists_eq_succ_of_ne_zero (Nat.ne_zero_of_lt long)
  rw [written] at long ⊢
  simp only [List.length_cons, List.length_append, List.length_nil] at long
  simp only [List.cons_append, List.append_assoc, List.nil_append]
  rw [readValue, skipSpace_of_visible rfl]
  dsimp only
  rw [if_pos rfl]
  cases limit with
  | zero =>
    have deep : ¬ (array blanks items).depth ≤ 0 := by
      rw [depth]
      omega
    rw [read?, if_neg deep]
    rfl
  | succ limit =>
    have read := readItems_written limit rest each true fuel []
      (by omega)
    dsimp only
    rw [readItems_blanks, read?_array]
    obtain ⟨fault, failed, none⟩ | ⟨values, ok, meant⟩ := eq_error_or_ok read
    · rw [failed, none]
      rfl
    · rw [ok, meant]
      rfl

theorem readsAsWritten_object {blanks : Blanks} {entries : List (Key × Note)}
    (each : ∀ entry ∈ entries, entry.2.ReadsAsWritten) :
    (object blanks entries).ReadsAsWritten := by
  intro fuel limit rest _ long
  obtain ⟨fuel, rfl⟩ := Nat.exists_eq_succ_of_ne_zero (Nat.ne_zero_of_lt long)
  rw [written] at long ⊢
  simp only [List.length_cons, List.length_append, List.length_nil] at long
  simp only [List.cons_append, List.append_assoc, List.nil_append]
  rw [readValue, skipSpace_of_visible rfl]
  dsimp only
  rw [if_neg (by decide), if_pos rfl]
  cases limit with
  | zero =>
    have deep : ¬ (object blanks entries).depth ≤ 0 := by
      rw [depth]
      omega
    rw [read?, if_neg deep]
    rfl
  | succ limit =>
    have read := readEntries_written limit rest each true fuel []
      (by omega)
    dsimp only
    rw [readEntries_blanks, read?_object]
    obtain ⟨fault, failed, none⟩ | ⟨values, ok, meant⟩ := eq_error_or_ok read
    · rw [failed, none]
      rfl
    · rw [ok, meant]
      rfl

theorem readsAsWritten_string (spelling : Spelling) : (string spelling).ReadsAsWritten := by
  intro fuel limit rest _ long
  obtain ⟨fuel, rfl⟩ := Nat.exists_eq_succ_of_ne_zero (Nat.ne_zero_of_lt long)
  have inner := readString_inner (.quoted spelling) rest
  rw [written, Name.turned, List.cons_append, List.append_assoc, List.singleton_append, readValue,
    skipSpace_of_visible rfl]
  dsimp only
  rw [if_neg (by decide), if_neg (by decide), readScalar, if_neg (by decide), if_neg (by decide),
    if_neg (by decide), if_pos rfl, read?, depth, if_pos (Nat.zero_le _), value?]
  · obtain ⟨fault, failed, none⟩ | ⟨text, ok, meant⟩ := eq_error_or_ok inner
    · rw [failed, none]
      rfl
    · rw [ok, meant]
      rfl
  all_goals simp

theorem readsAsWritten_of_flat {note : Note} (flat : note.depth = 0) {found : Option Json}
    (meant : note.value? Name.read? = found)
    (read : ∀ (fuel limit : Nat) {rest : List Char}, Stops rest →
      (readValue (fuel + 1) limit (note.written Name.turned ++ rest)).toOption =
        found.map fun value => (value, rest)) : note.ReadsAsWritten := by
  intro fuel limit rest stops long
  obtain ⟨fuel, rfl⟩ := Nat.exists_eq_succ_of_ne_zero (Nat.ne_zero_of_lt long)
  rw [read?, if_pos (flat ▸ Nat.zero_le _), meant]
  exact read fuel limit stops

/-- **The reader takes from a note whose names stand between double quotes what the note stands
for**, and nothing if it stands for nothing. -/
theorem readsAsWritten (note : Note) : note.ReadsAsWritten := by
  induction note with
  | null =>
    exact readsAsWritten_of_flat rfl rfl fun _ _ _ _ => by
      rw [readValue]
      rfl
  | bool value =>
    cases value <;>
      exact readsAsWritten_of_flat rfl rfl fun _ _ _ _ => by
        rw [readValue]
        rfl
  | number numeral =>
    exact readsAsWritten_of_flat rfl rfl fun fuel limit _ stops =>
      readValue_numeral numeral stops fuel limit
  | string spelling => exact readsAsWritten_string spelling
  | array blanks items each => exact readsAsWritten_array each
  | object blanks entries each => exact readsAsWritten_object each

/-- What is read of a note between blanks, when it is the whole text. -/
theorem read_written (before after : Blanks) (note : Note) :
    (read (String.ofList (before.text ++ (note.written Name.turned ++ after.text)))).toOption =
      note.read? depthLimit := by
  have stops : Stops (after.text ++ []) := stops_blanks after trivial
  rw [List.append_nil] at stops
  have whole := note.readsAsWritten
    (enoughFuel (before.text ++ (note.written Name.turned ++ after.text))) depthLimit stops (by
      unfold enoughFuel
      simp only [List.length_append]
      omega)
  have rest : skipSpace after.text = [] := List.dropWhile_eq_nil_iff.mpr after.all
  unfold read readFront
  rw [String.toList_ofList, readValue_blanks]
  obtain ⟨fault, failed, none⟩ | ⟨value, ok, meant⟩ := eq_error_or_ok whole
  · rw [failed, none]
    rfl
  · rw [ok, meant]
    simp only [bind, Except.bind, pure, Except.pure, expectEnd, rest]
    rfl

end Note

end Json
end Collage
