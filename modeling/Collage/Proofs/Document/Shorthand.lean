import Collage.Proofs.Document.Positions
import Collage.Proofs.Program.Lines
import Mathlib.Data.List.Forall2

/-!
# The short written form of a gradient

`Shorthand` is the grammar: entries between commas, and in each a colour and at most one number.
A colour is a number sign with three or four channels, and a channel two hexadecimal digits.

Reading takes more than that, as the reader of channels takes numbers, and a number may begin with a
plus sign: `Shorthand True` is the grammar with such channels.  This is what is accepted, and
`ofShorthand?_grammar` says that it is what is promised exactly if no colour has a sign.

Channels may just as well be cut out of a colour by their byte offsets (`colorByBytes?`).  A cut
inside a character gives nothing (`slice?_eq_some_iff`), and no colour has such a character.
-/

namespace Collage
namespace Gradient

/-! ### The grammar -/

/-- The digits by their values. -/
def smallDigits : List Char :=
  ['0', '1', '2', '3', '4', '5', '6', '7', '8', '9', 'a', 'b', 'c', 'd', 'e', 'f']

/-- The digits by their values, with capital letters. -/
def capitalDigits : List Char :=
  ['0', '1', '2', '3', '4', '5', '6', '7', '8', '9', 'A', 'B', 'C', 'D', 'E', 'F']

/-- The hexadecimal digit of a value. -/
def IsDigit (c : Char) (value : ℕ) : Prop :=
  smallDigits[value]? = some c ∨ capitalDigits[value]? = some c

/-- Two digits and their value; with `signs` also a plus sign and one digit. -/
inductive IsPair (signs : Prop) : Char → Char → ℕ → Prop
  | digits {high low : Char} {m n : ℕ} (first : IsDigit high m) (second : IsDigit low n) :
      IsPair signs high low (16 * m + n)
  | signed {low : Char} {n : ℕ} (allowed : signs) (only : IsDigit low n) : IsPair signs '+' low n

/-- The channel of a value. -/
def part (value : ℕ) : Float32 :=
  Float32.nearest value / 255

/-- A colour as it is written, with or without an opacity. -/
inductive IsColor (signs : Prop) : List Char → Color Float32 → Prop
  | solid {r r' g g' b b' : Char} {red green blue : ℕ} (first : IsPair signs r r' red)
      (second : IsPair signs g g' green) (third : IsPair signs b b' blue) :
      IsColor signs ['#', r, r', g, g', b, b'] ⟨part red, part green, part blue, 1⟩
  | clear {r r' g g' b b' a a' : Char} {red green blue alpha : ℕ} (first : IsPair signs r r' red)
      (second : IsPair signs g g' green) (third : IsPair signs b b' blue)
      (fourth : IsPair signs a a' alpha) :
      IsColor signs ['#', r, r', g, g', b, b', a, a']
        ⟨part red, part green, part blue, part alpha⟩

/-- The words of an entry. -/
def wordsOf (entry : List Char) : List (List Char) :=
  (entry.splitOnP isBlank).filter (!·.isEmpty)

/-- A colour, and a position if one more word says it. -/
inductive IsEntry (signs : Prop) (entry : List Char) : Color Float32 × Option Float32 → Prop
  | bare {word : List Char} {color : Color Float32} (only : wordsOf entry = [word])
      (written : IsColor signs word color) : IsEntry signs entry (color, none)
  | placed {word number : List Char} {color : Color Float32} {position : Float32}
      (both : wordsOf entry = [word, number]) (written : IsColor signs word color)
      (read : Float32.ofText? (String.ofList number) = some position) :
      IsEntry signs entry (color, some position)

/-- Two entries or more between commas. -/
def Shorthand (signs : Prop) (text : String) (entries : List (Color Float32 × Option Float32)) :
    Prop :=
  List.Forall₂ (IsEntry signs) (text.toList.splitOn ',') entries ∧ 2 ≤ entries.length

/-- The stops of entries; those without a position are spread evenly. -/
def arranged (entries : List (Color Float32 × Option Float32)) : Gradient Float32 :=
  ⟨entries.mapIdx fun index (color, place) => ⟨place.getD (evenly entries.length index), color⟩⟩

/-! ### Reading digits -/

theorem ascii_of_hexDigit? {c : Char} {value : ℕ} (read : hexDigit? c = some value) :
    c.toNat < 128 := by
  unfold hexDigit? at read
  simp only [Char.isDigit, Bool.and_eq_true, decide_eq_true_eq, ge_iff_le, Char.le_def,
    UInt32.le_iff_toNat_le] at read
  split at read
  · next digit =>
    have bounds : c.toNat ≤ 57 := digit.2
    omega
  · split at read
    · next small =>
      have bounds : c.toNat ≤ 102 := small.2
      omega
    · split at read
      · next capital =>
        have bounds : c.toNat ≤ 70 := capital.2
        omega
      · cases read

theorem hexDigit?_of_getElem? {digits : List Char}
    (values : digits.map hexDigit? = (List.range 16).map some) {c : Char} {value : ℕ}
    (found : digits[value]? = some c) : hexDigit? c = some value := by
  have read : (digits.map hexDigit?)[value]? = some (hexDigit? c) := by
    rw [List.getElem?_map, found, Option.map_some]
  rw [values, List.getElem?_map] at read
  obtain ⟨other, counted, same⟩ := Option.map_eq_some_iff.mp read
  obtain ⟨_, rfl⟩ := List.getElem?_eq_some_iff.mp counted
  rw [← same, List.getElem_range]

theorem hexDigit?_eq_some_iff {c : Char} {value : ℕ} :
    hexDigit? c = some value ↔ IsDigit c value := by
  constructor
  · have table : ∀ n < 128, ∀ value ∈ hexDigit? (Char.ofNat n), IsDigit (Char.ofNat n) value := by
      unfold IsDigit
      decide +kernel
    intro read
    have found := table c.toNat (ascii_of_hexDigit? read) value
    rw [Char.ofNat_toNat] at found
    exact found read
  · rintro (small | capital)
    · exact hexDigit?_of_getElem? (by decide) small
    · exact hexDigit?_of_getElem? (by decide) capital

theorem IsDigit.ascii {c : Char} {value : ℕ} (digit : IsDigit c value) : c.toNat < 128 :=
  ascii_of_hexDigit? (hexDigit?_eq_some_iff.mpr digit)

theorem not_isDigit_plus (value : ℕ) : ¬ IsDigit '+' value := by
  have unread : hexDigit? '+' = none := by decide
  rw [← hexDigit?_eq_some_iff, unread]
  exact Option.some_ne_none value ∘ Eq.symm

theorem IsDigit.value_lt {c : Char} {value : ℕ} (digit : IsDigit c value) : value < 16 := by
  rcases digit with found | found
  · exact (List.getElem?_eq_some_iff.mp found).1
  · exact (List.getElem?_eq_some_iff.mp found).1

theorem appendDigit_eq_some_iff {start value : ℕ} {c : Char} :
    ((hexDigit? c).bind fun digit => if digit < 16 then some (start * 16 + digit) else none) =
      some value ↔ ∃ n, IsDigit c n ∧ value = 16 * start + n := by
  constructor
  · intro read
    obtain ⟨n, found, kept⟩ := Option.bind_eq_some_iff.mp read
    have digit := hexDigit?_eq_some_iff.mp found
    rw [if_pos digit.value_lt, mul_comm] at kept
    exact ⟨n, digit, (Option.some.inj kept).symm⟩
  · rintro ⟨n, digit, rfl⟩
    rw [hexDigit?_eq_some_iff.mpr digit, Option.bind_some, if_pos digit.value_lt, mul_comm]

theorem readBase?_one {c : Char} {value : ℕ} : readBase? 16 [c] = some value ↔ IsDigit c value := by
  rw [readBase?, if_neg (by simp), List.foldlM_cons]
  simp only [List.foldlM_nil, bind_pure, Option.bind_eq_bind, appendDigit_eq_some_iff, mul_zero,
    zero_add, exists_eq_right']

theorem readBase?_two {high low : Char} {value : ℕ} :
    readBase? 16 [high, low] = some value ↔
      ∃ m n, IsDigit high m ∧ IsDigit low n ∧ value = 16 * m + n := by
  rw [readBase?, if_neg (by simp), List.foldlM_cons, Option.bind_eq_bind, Option.bind_eq_some_iff]
  simp only [List.foldlM_cons, List.foldlM_nil, bind_pure, appendDigit_eq_some_iff, mul_zero,
    zero_add, exists_eq_right', exists_and_left]

theorem isPair_plus {low : Char} {value : ℕ} : IsPair True '+' low value ↔ IsDigit low value := by
  constructor
  · intro pair
    cases pair with
    | digits first _ => exact absurd first (not_isDigit_plus _)
    | signed _ only => exact only
  · exact .signed trivial

theorem isPair_of_ne {signs : Prop} {high low : Char} {value : ℕ} (plain : high ≠ '+') :
    IsPair signs high low value ↔ ∃ m n, IsDigit high m ∧ IsDigit low n ∧ value = 16 * m + n := by
  constructor
  · intro pair
    cases pair with
    | digits first second => exact ⟨_, _, first, second, rfl⟩
    | signed => exact absurd rfl plain
  · rintro ⟨m, n, first, second, rfl⟩
    exact .digits first second

/-- A channel is two digits, or a plus sign and one. -/
theorem readChannel?_eq_some_iff {high low : Char} {channel : Float32} :
    readChannel? high low = some channel ↔
      ∃ value, IsPair True high low value ∧ part value = channel := by
  unfold readChannel?
  by_cases plus : high = '+'
  · subst plus
    simp only [if_true, Option.map_eq_some_iff, Option.bind_eq_bind, Option.bind_eq_some_iff,
      Option.pure_def, Option.some.injEq, exists_exists_and_eq_and, hexDigit?_eq_some_iff,
      isPair_plus, part]
  · simp only [if_neg plus, Option.map_eq_some_iff, Option.bind_eq_bind, Option.bind_eq_some_iff,
      Option.pure_def, Option.some.injEq, exists_exists_and_eq_and, readBase?_two,
      isPair_of_ne plus, part]

/-- **A colour is read if it is one of the grammar with signs.** -/
theorem readColor?_eq_some_iff {word : List Char} {color : Color Float32} :
    readColor? word = some color ↔ IsColor True word color := by
  constructor
  · intro read
    unfold readColor? at read
    split at read
    · obtain ⟨red, first, read⟩ := Option.bind_eq_some_iff.mp read
      obtain ⟨green, second, read⟩ := Option.bind_eq_some_iff.mp read
      obtain ⟨blue, third, read⟩ := Option.bind_eq_some_iff.mp read
      obtain ⟨_, redPair, rfl⟩ := readChannel?_eq_some_iff.mp first
      obtain ⟨_, greenPair, rfl⟩ := readChannel?_eq_some_iff.mp second
      obtain ⟨_, bluePair, rfl⟩ := readChannel?_eq_some_iff.mp third
      cases read
      exact .solid redPair greenPair bluePair
    · obtain ⟨red, first, read⟩ := Option.bind_eq_some_iff.mp read
      obtain ⟨green, second, read⟩ := Option.bind_eq_some_iff.mp read
      obtain ⟨blue, third, read⟩ := Option.bind_eq_some_iff.mp read
      obtain ⟨alpha, fourth, read⟩ := Option.bind_eq_some_iff.mp read
      obtain ⟨_, redPair, rfl⟩ := readChannel?_eq_some_iff.mp first
      obtain ⟨_, greenPair, rfl⟩ := readChannel?_eq_some_iff.mp second
      obtain ⟨_, bluePair, rfl⟩ := readChannel?_eq_some_iff.mp third
      obtain ⟨_, alphaPair, rfl⟩ := readChannel?_eq_some_iff.mp fourth
      cases read
      exact .clear redPair greenPair bluePair alphaPair
    · cases read
  · intro written
    have channel {high low : Char} {value : ℕ} (pair : IsPair True high low value) :
        readChannel? high low = some (part value) :=
      readChannel?_eq_some_iff.mpr ⟨value, pair, rfl⟩
    cases written with
    | solid first second third =>
      simp [readColor?, channel first, channel second, channel third]
    | clear first second third fourth =>
      simp [readColor?, channel first, channel second, channel third, channel fourth]

/-! ### Channels by their bytes -/

/-- The text cut at a byte, if a character begins or the text ends there. -/
def cut? : ℕ → List Char → Option (List Char × List Char)
  | 0, text => some ([], text)
  | _ + 1, [] => none
  | size + 1, c :: rest =>
    if c.utf8Size ≤ size + 1 then
      (cut? (size + 1 - c.utf8Size) rest).map fun (front, back) => (c :: front, back)
    else none

/-- The part of a text that begins at a byte and has so many bytes. -/
def slice? (text : List Char) (start size : ℕ) : Option (List Char) := do
  let (_, rest) ← cut? start text
  let (middle, _) ← cut? size rest
  return middle

/-- Reads a byte in base sixteen; a plus sign may stand in front. -/
def readByte? (text : List Char) : Option ℕ :=
  let digits := match text with
    | '+' :: rest => rest
    | _ => text
  (readBase? 16 digits).filter (· ≤ 255)

/-- The channel that is two bytes of a text. -/
def channelAt? (text : List Char) (index : ℕ) : Option Float32 :=
  ((slice? text (2 * index) 2).bind readByte?).map part

/-- A colour whose channels are cut out by their bytes. -/
def colorByBytes? : List Char → Option (Color Float32)
  | '#' :: text =>
    if byteSize text = 6 then do
      let red ← channelAt? text 0
      let green ← channelAt? text 1
      let blue ← channelAt? text 2
      return ⟨red, green, blue, 1⟩
    else if byteSize text = 8 then do
      let red ← channelAt? text 0
      let green ← channelAt? text 1
      let blue ← channelAt? text 2
      let alpha ← channelAt? text 3
      return ⟨red, green, blue, alpha⟩
    else none
  | _ => none

theorem cut?_zero {text front back : List Char} :
    cut? 0 text = some (front, back) ↔ text = front ++ back ∧ byteSize front = 0 := by
  rw [cut?, Option.some_inj, Prod.mk.injEq, byteSize_eq_zero_iff]
  constructor
  · rintro ⟨rfl, rfl⟩
    exact ⟨rfl, rfl⟩
  · rintro ⟨whole, rfl⟩
    exact ⟨rfl, whole⟩

theorem cut?_eq_some_iff {text : List Char} : ∀ {size : ℕ} {front back : List Char},
    cut? size text = some (front, back) ↔ text = front ++ back ∧ byteSize front = size := by
  induction text with
  | nil =>
    intro size front back
    cases size with
    | zero => exact cut?_zero
    | succ size =>
      constructor
      · rintro ⟨⟩
      · rintro ⟨whole, long⟩
        obtain ⟨rfl, rfl⟩ := List.append_eq_nil_iff.mp whole.symm
        cases long
  | cons c rest ih =>
    intro size front back
    have positive := c.utf8Size_pos
    cases size with
    | zero => exact cut?_zero
    | succ size =>
      unfold cut?
      constructor
      · intro cut
        split at cut
        · next fits =>
          obtain ⟨⟨front', back'⟩, more, same⟩ := Option.map_eq_some_iff.mp cut
          obtain ⟨rfl, long⟩ := ih.mp more
          cases same
          exact ⟨rfl, by rw [byteSize_cons, long]; omega⟩
        · cases cut
      · rintro ⟨whole, long⟩
        cases front with
        | nil => cases long
        | cons d front =>
          obtain ⟨rfl, rest⟩ := List.cons.inj whole
          rw [byteSize_cons] at long
          rw [if_pos (by omega), ih.mpr ⟨rest, by omega⟩]
          rfl

/-- **What is cut out are whole characters.** -/
theorem slice?_eq_some_iff {text middle : List Char} {start size : ℕ} :
    slice? text start size = some middle ↔
      ∃ front back, text = front ++ (middle ++ back) ∧ byteSize front = start ∧
        byteSize middle = size := by
  constructor
  · intro found
    obtain ⟨⟨front, rest⟩, first, found⟩ := Option.bind_eq_some_iff.mp found
    obtain ⟨⟨_, back⟩, second, found⟩ := Option.bind_eq_some_iff.mp found
    cases found
    obtain ⟨rfl, long⟩ := cut?_eq_some_iff.mp first
    obtain ⟨rfl, wide⟩ := cut?_eq_some_iff.mp second
    exact ⟨front, back, rfl, long, wide⟩
  · rintro ⟨front, back, rfl, long, wide⟩
    simp [slice?, cut?_eq_some_iff.mpr ⟨rfl, long⟩, cut?_eq_some_iff.mpr ⟨rfl, wide⟩]

example : slice? "é12345".toList 0 1 = none := by decide

theorem IsDigit.utf8Size {c : Char} {value : ℕ} (digit : IsDigit c value) : c.utf8Size = 1 := by
  have ascii : c.val.toNat < 128 := digit.ascii
  exact Char.utf8Size_eq_one_iff.mpr (UInt32.le_iff_toNat_le.mpr (Nat.le_of_lt_succ ascii))

theorem IsPair.utf8Size {signs : Prop} {high low : Char} {value : ℕ}
    (pair : IsPair signs high low value) : high.utf8Size = 1 ∧ low.utf8Size = 1 := by
  cases pair with
  | digits first second => exact ⟨first.utf8Size, second.utf8Size⟩
  | signed _ only => exact ⟨rfl, only.utf8Size⟩

theorem IsPair.value_lt {signs : Prop} {high low : Char} {value : ℕ}
    (pair : IsPair signs high low value) : value < 256 := by
  cases pair with
  | digits first second =>
    have := first.value_lt
    have := second.value_lt
    omega
  | signed _ only =>
    have := only.value_lt
    omega

/-- Of texts of two bytes the pairs are read, and no others. -/
theorem readByte?_eq_some_iff {text : List Char} (two : byteSize text = 2) {value : ℕ} :
    readByte? text = some value ↔ ∃ high low, text = [high, low] ∧ IsPair True high low value := by
  constructor
  · intro read
    obtain ⟨known, _⟩ := Option.filter_eq_some_iff.mp read
    rcases text with _ | ⟨high, _ | ⟨low, _ | ⟨c, rest⟩⟩⟩
    · cases two
    · -- a single character of two bytes is no digit
      split at known
      · next same =>
        obtain ⟨rfl, rfl⟩ := List.cons.inj same
        cases two
      · have := (readBase?_one.mp known).utf8Size
        simp only [byteSize_cons, byteSize_nil] at two
        omega
    · refine ⟨high, low, rfl, ?_⟩
      split at known
      · next same =>
        obtain ⟨rfl, rfl⟩ := List.cons.inj same
        exact .signed trivial (readBase?_one.mp known)
      · obtain ⟨m, n, first, second, rfl⟩ := readBase?_two.mp known
        exact .digits first second
    · have := high.utf8Size_pos
      have := low.utf8Size_pos
      have := c.utf8Size_pos
      simp only [byteSize_cons] at two
      omega
  · rintro ⟨high, low, rfl, pair⟩
    have small := pair.value_lt
    refine Option.filter_eq_some_iff.mpr ⟨?_, decide_eq_true (Nat.le_of_lt_succ small)⟩
    by_cases plus : high = '+'
    · subst plus
      exact readBase?_one.mpr (isPair_plus.mp pair)
    · split
      · next same => exact absurd (List.cons.inj same).1 plus
      · exact readBase?_two.mpr ((isPair_of_ne plus).mp pair)

theorem channelAt?_zero {text : List Char} {channel : Float32} :
    channelAt? text 0 = some channel ↔ ∃ high low rest value,
      text = high :: low :: rest ∧ IsPair True high low value ∧ part value = channel := by
  constructor
  · intro found
    obtain ⟨value, read, rfl⟩ := Option.map_eq_some_iff.mp found
    obtain ⟨middle, cut, read⟩ := Option.bind_eq_some_iff.mp read
    obtain ⟨front, back, whole, start, two⟩ := slice?_eq_some_iff.mp cut
    obtain ⟨high, low, rfl, pair⟩ := (readByte?_eq_some_iff two).mp read
    obtain rfl := byteSize_eq_zero_iff.mp start
    subst whole
    exact ⟨high, low, back, value, rfl, pair, rfl⟩
  · rintro ⟨high, low, rest, value, rfl, pair, rfl⟩
    have two : byteSize [high, low] = 2 := by simp [pair.utf8Size]
    have cut : slice? (high :: low :: rest) (2 * 0) 2 = some [high, low] :=
      slice?_eq_some_iff.mpr ⟨[], rest, rfl, rfl, two⟩
    rw [channelAt?, cut, Option.bind_some, (readByte?_eq_some_iff two).mpr ⟨high, low, rfl, pair⟩]
    rfl

/-- Behind a pair, the channels are those of the rest. -/
theorem channelAt?_succ {high low : Char} {value : ℕ} (pair : IsPair True high low value)
    (rest : List Char) (index : ℕ) :
    channelAt? (high :: low :: rest) (index + 1) = channelAt? rest index := by
  have skipped : cut? (2 * (index + 1)) (high :: low :: rest) =
      (cut? (2 * index) rest).map fun (front, back) => (high :: low :: front, back) := by
    have twice : 2 * (index + 1) = 2 * index + 1 + 1 := by omega
    rw [twice, cut?, if_pos (by rw [pair.utf8Size.1]; omega), pair.utf8Size.1, Nat.add_sub_cancel,
      cut?, if_pos (by rw [pair.utf8Size.2]; omega), pair.utf8Size.2, Nat.add_sub_cancel,
      Option.map_map]
    rfl
  unfold channelAt? slice?
  rw [skipped]
  cases cut? (2 * index) rest <;> rfl

theorem exists_of_channels {word : List Char} {red green blue : Float32}
    (first : channelAt? word 0 = some red) (second : channelAt? word 1 = some green)
    (third : channelAt? word 2 = some blue) :
    ∃ r r' g g' b b' rest x y z, word = r :: r' :: g :: g' :: b :: b' :: rest ∧
      IsPair True r r' x ∧ IsPair True g g' y ∧ IsPair True b b' z ∧
      part x = red ∧ part y = green ∧ part z = blue := by
  obtain ⟨r, r', text, x, rfl, redPair, sameRed⟩ := channelAt?_zero.mp first
  rw [channelAt?_succ redPair] at second third
  obtain ⟨g, g', text, y, rfl, greenPair, sameGreen⟩ := channelAt?_zero.mp second
  rw [channelAt?_succ greenPair] at third
  obtain ⟨b, b', text, z, rfl, bluePair, sameBlue⟩ := channelAt?_zero.mp third
  exact ⟨r, r', g, g', b, b', text, x, y, z, rfl, redPair, greenPair, bluePair, sameRed,
    sameGreen, sameBlue⟩

theorem colorByBytes?_eq_some_iff {word : List Char} {color : Color Float32} :
    colorByBytes? word = some color ↔ IsColor True word color := by
  constructor
  · intro found
    unfold colorByBytes? at found
    split at found
    · next text =>
      split at found
      · next six =>
        obtain ⟨red, first, found⟩ := Option.bind_eq_some_iff.mp found
        obtain ⟨green, second, found⟩ := Option.bind_eq_some_iff.mp found
        obtain ⟨blue, third, found⟩ := Option.bind_eq_some_iff.mp found
        cases found
        obtain ⟨r, r', g, g', b, b', rest, x, y, z, rfl, redPair, greenPair, bluePair, rfl, rfl,
          rfl⟩ := exists_of_channels first second third
        simp only [byteSize_cons, redPair.utf8Size, greenPair.utf8Size, bluePair.utf8Size] at six
        obtain rfl := byteSize_eq_zero_iff.mp (by omega : byteSize rest = 0)
        exact .solid redPair greenPair bluePair
      · split at found
        · next eight =>
          obtain ⟨red, first, found⟩ := Option.bind_eq_some_iff.mp found
          obtain ⟨green, second, found⟩ := Option.bind_eq_some_iff.mp found
          obtain ⟨blue, third, found⟩ := Option.bind_eq_some_iff.mp found
          obtain ⟨alpha, fourth, found⟩ := Option.bind_eq_some_iff.mp found
          cases found
          obtain ⟨r, r', g, g', b, b', rest, x, y, z, rfl, redPair, greenPair, bluePair, rfl, rfl,
            rfl⟩ := exists_of_channels first second third
          rw [channelAt?_succ redPair, channelAt?_succ greenPair, channelAt?_succ bluePair]
            at fourth
          obtain ⟨a, a', text, _, rfl, alphaPair, rfl⟩ := channelAt?_zero.mp fourth
          simp only [byteSize_cons, redPair.utf8Size, greenPair.utf8Size, bluePair.utf8Size,
            alphaPair.utf8Size] at eight
          obtain rfl := byteSize_eq_zero_iff.mp (by omega : byteSize text = 0)
          exact .clear redPair greenPair bluePair alphaPair
        · cases found
    · cases found
  · have first {high low : Char} {value : ℕ} (pair : IsPair True high low value)
        (rest : List Char) : channelAt? (high :: low :: rest) 0 = some (part value) :=
      channelAt?_zero.mpr ⟨high, low, rest, value, rfl, pair, rfl⟩
    intro written
    cases written with
    | solid red green blue =>
      simp [colorByBytes?, red.utf8Size, green.utf8Size, blue.utf8Size, channelAt?_succ red,
        channelAt?_succ green, first red, first green, first blue]
    | clear red green blue alpha =>
      simp [colorByBytes?, red.utf8Size, green.utf8Size, blue.utf8Size, alpha.utf8Size,
        channelAt?_succ red, channelAt?_succ green, channelAt?_succ blue, first red, first green,
        first blue, first alpha]

theorem colorByBytes?_eq (word : List Char) : colorByBytes? word = readColor? word := by
  ext color
  rw [colorByBytes?_eq_some_iff, readColor?_eq_some_iff]

/-! ### Entries -/

theorem words_eq (entry : List Char) : words entry = wordsOf entry := by
  rw [words, wordsOf, splitAtAll_eq]

theorem readEntry?_eq_some_iff {entry : List Char} {read : Color Float32 × Option Float32} :
    readEntry? entry = some read ↔ IsEntry True entry read := by
  unfold readEntry?
  rw [words_eq]
  constructor
  · intro found
    split at found
    · next word only =>
      obtain ⟨color, known, rfl⟩ := Option.map_eq_some_iff.mp found
      exact .bare only (readColor?_eq_some_iff.mp known)
    · next word number both =>
      obtain ⟨color, known, found⟩ := Option.bind_eq_some_iff.mp found
      obtain ⟨position, placed, found⟩ := Option.bind_eq_some_iff.mp found
      cases found
      exact .placed both (readColor?_eq_some_iff.mp known) placed
    · cases found
  · intro written
    cases written with
    | bare only written => simp [only, readColor?_eq_some_iff.mpr written]
    | placed both written placed => simp [both, readColor?_eq_some_iff.mpr written, placed]

/-- A list is read if each of its items is. -/
theorem mapM_eq_some_iff {β γ : Type} {f : β → Option γ} {items : List β} : ∀ {found : List γ},
    items.mapM f = some found ↔
      List.Forall₂ (fun item value => f item = some value) items found := by
  induction items with
  | nil =>
    intro found
    simp [eq_comm]
  | cons item rest ih =>
    intro found
    rw [List.mapM_cons, List.forall₂_cons_left_iff]
    constructor
    · intro read
      obtain ⟨value, first, read⟩ := Option.bind_eq_some_iff.mp read
      obtain ⟨values, others, read⟩ := Option.bind_eq_some_iff.mp read
      cases read
      exact ⟨value, values, first, ih.mp others, rfl⟩
    · rintro ⟨value, values, first, others, rfl⟩
      simp [first, ih.mpr others]

theorem splitOn_comma (text : List Char) : splitAtAll (· = ',') text = text.splitOn ',' := by
  rw [splitAtAll_eq, List.splitOn]
  congr 1

theorem entries?_eq_some_iff {text : String} {entries : List (Color Float32 × Option Float32)} :
    entries? text = some entries ↔
      List.Forall₂ (IsEntry True) (text.toList.splitOn ',') entries := by
  rw [entries?, mapM_eq_some_iff, splitOn_comma]
  simp only [readEntry?_eq_some_iff]

/-- **What is accepted is the grammar with signs.** -/
theorem ofShorthand?_eq_some_iff {text : String} {g : Gradient Float32} :
    ofShorthand? text = some g ↔ ∃ entries, Shorthand True text entries ∧ arranged entries = g := by
  constructor
  · intro accepted
    obtain ⟨entries, listed, _⟩ := Option.bind_eq_some_iff.mp accepted
    have known : entries? text = some entries := listed
    rw [ofShorthand?_eq known] at accepted
    split at accepted
    · cases accepted
    · next several =>
      exact ⟨entries, ⟨entries?_eq_some_iff.mp known, not_lt.mp several⟩, Option.some.inj accepted⟩
  · rintro ⟨entries, ⟨written, several⟩, rfl⟩
    rw [ofShorthand?_eq (entries?_eq_some_iff.mpr written), if_neg (not_lt.mpr several)]
    rfl

/-! ### Signs -/

theorem IsPair.plus_iff {high low : Char} {value : ℕ} (pair : IsPair True high low value) :
    '+' ∈ [high, low] ↔ high = '+' := by
  have plain : '+' ≠ low := by
    rintro rfl
    cases pair with
    | digits _ second => exact not_isDigit_plus _ second
    | signed _ only => exact not_isDigit_plus _ only
  simp [plain, eq_comm]

theorem isPair_false_iff {high low : Char} {value : ℕ} :
    IsPair False high low value ↔ IsPair True high low value ∧ '+' ∉ [high, low] := by
  constructor
  · intro pair
    cases pair with
    | digits first second =>
      refine ⟨.digits first second, ?_⟩
      rw [(IsPair.digits first second).plus_iff]
      rintro rfl
      exact not_isDigit_plus _ first
    | signed allowed => exact allowed.elim
  · rintro ⟨pair, plain⟩
    rw [pair.plus_iff] at plain
    exact (isPair_of_ne plain).mpr ((isPair_of_ne plain).mp pair)

/-- A colour is one of the grammar exactly if it is read and has no sign. -/
theorem isColor_false_iff {word : List Char} {color : Color Float32} :
    IsColor False word color ↔ IsColor True word color ∧ '+' ∉ word := by
  constructor
  · intro written
    cases written with
    | solid first second third =>
      obtain ⟨red, noneFirst⟩ := isPair_false_iff.mp first
      obtain ⟨green, noneSecond⟩ := isPair_false_iff.mp second
      obtain ⟨blue, noneThird⟩ := isPair_false_iff.mp third
      refine ⟨.solid red green blue, ?_⟩
      simp_all
    | clear first second third fourth =>
      obtain ⟨red, noneFirst⟩ := isPair_false_iff.mp first
      obtain ⟨green, noneSecond⟩ := isPair_false_iff.mp second
      obtain ⟨blue, noneThird⟩ := isPair_false_iff.mp third
      obtain ⟨alpha, noneFourth⟩ := isPair_false_iff.mp fourth
      refine ⟨.clear red green blue alpha, ?_⟩
      simp_all
  · rintro ⟨written, plain⟩
    cases written with
    | solid first second third =>
      simp only [List.mem_cons, not_or] at plain
      exact .solid (isPair_false_iff.mpr ⟨first, by simp [plain]⟩)
        (isPair_false_iff.mpr ⟨second, by simp [plain]⟩)
        (isPair_false_iff.mpr ⟨third, by simp [plain]⟩)
    | clear first second third fourth =>
      simp only [List.mem_cons, not_or] at plain
      exact .clear (isPair_false_iff.mpr ⟨first, by simp [plain]⟩)
        (isPair_false_iff.mpr ⟨second, by simp [plain]⟩)
        (isPair_false_iff.mpr ⟨third, by simp [plain]⟩)
        (isPair_false_iff.mpr ⟨fourth, by simp [plain]⟩)

/-- Whether the colour of an entry has a sign. -/
def Signed (entry : List Char) : Prop :=
  ∃ word ∈ (wordsOf entry).head?, '+' ∈ word

theorem isEntry_false_iff {entry : List Char} {read : Color Float32 × Option Float32} :
    IsEntry False entry read ↔ IsEntry True entry read ∧ ¬ Signed entry := by
  have signed_iff {word : List Char} {more : List (List Char)}
      (here : wordsOf entry = word :: more) : Signed entry ↔ '+' ∈ word := by
    simp [Signed, here]
  constructor
  · intro written
    cases written with
    | bare only color =>
      obtain ⟨color, plain⟩ := isColor_false_iff.mp color
      exact ⟨.bare only color, mt (signed_iff only).mp plain⟩
    | placed both color position =>
      obtain ⟨color, plain⟩ := isColor_false_iff.mp color
      exact ⟨.placed both color position, mt (signed_iff both).mp plain⟩
  · rintro ⟨written, plain⟩
    cases written with
    | bare only color =>
      exact .bare only (isColor_false_iff.mpr ⟨color, mt (signed_iff only).mpr plain⟩)
    | placed both color position =>
      exact .placed both (isColor_false_iff.mpr ⟨color, mt (signed_iff both).mpr plain⟩) position

theorem shorthand_false_iff {text : String} {entries : List (Color Float32 × Option Float32)} :
    Shorthand False text entries ↔
      Shorthand True text entries ∧ ∀ entry ∈ text.toList.splitOn ',', ¬ Signed entry := by
  have entrywise : ∀ {written : List (List Char)} {entries : List (Color Float32 × Option Float32)},
      List.Forall₂ (IsEntry False) written entries ↔
        List.Forall₂ (IsEntry True) written entries ∧ ∀ entry ∈ written, ¬ Signed entry := by
    intro written
    induction written with
    | nil => simp
    | cons entry rest ih =>
      intro entries
      cases entries with
      | nil => simp
      | cons read more =>
        rw [List.forall₂_cons, List.forall₂_cons, List.forall_mem_cons, isEntry_false_iff, ih]
        exact and_and_and_comm
  rw [Shorthand, Shorthand, entrywise, and_right_comm]

/-- **The short form of a gradient.**  What is accepted is the grammar with signs, and it has the
stops that are written.  It is the grammar itself exactly where no colour has a sign.  To cut the
channels out of a colour by their bytes comes to the same. -/
theorem ofShorthand?_grammar (text : String) :
    (∀ g, ofShorthand? text = some g ↔
      ∃ entries, Shorthand True text entries ∧ arranged entries = g) ∧
    (∀ g, (ofShorthand? text = some g ∧ ∀ entry ∈ text.toList.splitOn ',', ¬ Signed entry) ↔
      ∃ entries, Shorthand False text entries ∧ arranged entries = g) ∧
    ∀ word, colorByBytes? word = readColor? word := by
  refine ⟨fun g => ofShorthand?_eq_some_iff, fun g => ?_, colorByBytes?_eq⟩
  rw [ofShorthand?_eq_some_iff]
  constructor
  · rintro ⟨⟨entries, written, same⟩, plain⟩
    exact ⟨entries, shorthand_false_iff.mpr ⟨written, plain⟩, same⟩
  · rintro ⟨entries, written, same⟩
    obtain ⟨written, plain⟩ := shorthand_false_iff.mp written
    exact ⟨⟨entries, written, same⟩, plain⟩

/-- A plus sign is taken for a digit. -/
theorem ofShorthand?_plus : ∃ g, ofShorthand? "#+1+2+3, #000000" = some g ∧
    ∀ entries, ¬ Shorthand False "#+1+2+3, #000000" entries := by
  have accepted : (ofShorthand? "#+1+2+3, #000000").isSome = true := by decide +kernel
  obtain ⟨g, accepted⟩ := Option.isSome_iff_exists.mp accepted
  refine ⟨g, accepted, fun entries written => ?_⟩
  have plain := (shorthand_false_iff.mp written).2
  exact plain "#+1+2+3".toList (by decide +kernel) ⟨"#+1+2+3".toList, by decide +kernel, by decide⟩

end Gradient
end Collage
