import Collage.Json.Printer
import Collage.Json.Reader
import Mathlib.Data.List.DropRight
import Mathlib.Tactic.Common

/-!
# Reading strings and numbers that were written

A number ends where nothing follows that could go on it (`Stops`): what is read of it there
is what is read of it alone (`readMagnitude_append`).  A written value is followed by nothing,
by a comma or by a line feed (`Ends`).  Where one of these follows, a string and a whole number
of 64 bits come back as they were (`readString_escaped`, `readValue_int`), and any other number
is read as it is when nothing follows (`readValue_double`).
-/

namespace Collage
namespace Json

/-! ### Blanks -/

/-- Whether a value may end in front of a text. -/
def Ends : List Char → Prop
  | [] => True
  | c :: _ => c = ',' ∨ c = '\n'

/-- Whether nothing at the front of a text could go on a number. -/
def Stops : List Char → Prop
  | [] => True
  | c :: _ => c.isDigit = false ∧ c ∉ ['.', 'e', 'E', '+', '-']

theorem Ends.stops {text : List Char} (ends : Ends text) : Stops text := by
  cases text with
  | nil => trivial
  | cons c text => rcases ends with rfl | rfl <;> exact ⟨rfl, by decide⟩

theorem skipSpace_append {blanks : List Char} (all : ∀ c ∈ blanks, isSpace c)
    (text : List Char) : skipSpace (blanks ++ text) = skipSpace text :=
  List.dropWhile_append_of_pos all

theorem skipSpace_of_visible {c : Char} (visible : isSpace c = false) (text : List Char) :
    skipSpace (c :: text) = c :: text :=
  List.dropWhile_cons_of_neg (by rw [visible]; decide)

theorem skipSpace_skipSpace (text : List Char) : skipSpace (skipSpace text) = skipSpace text :=
  List.dropWhile_idempotent _ text

theorem skipSpace_append_of_cons {text back rest : List Char} {c : Char}
    (first : skipSpace text = c :: rest) : skipSpace (text ++ back) = c :: (rest ++ back) := by
  unfold skipSpace at first ⊢
  rw [List.dropWhile_append, first]
  rfl

/-! ### Strings -/

/-- A control character is told by its two last hexadecimal digits. -/
theorem readHex_hexByte {n : Nat} (control : n < 0x20) (rest : List Char) :
    readHex ('0' :: '0' :: (hexByte n ++ rest)) = .ok (n, rest) := by
  have digits : ∀ n < 0x20, readBase? 16 ('0' :: '0' :: hexByte n) = some n ∧
      4 ≤ byteSize ('0' :: '0' :: hexByte n) := by decide
  obtain ⟨value, long⟩ := digits n control
  have enough : ¬ byteSize ('0' :: '0' :: (hexByte n ++ rest)) < 4 := by
    simp only [byteSize_cons, byteSize_append] at long ⊢
    omega
  unfold hexByte at value enough ⊢
  unfold readHex
  rw [if_neg enough]
  dsimp only [List.cons_append, List.nil_append]
  rw [value]

theorem readString_escapeChar (c : Char) (fuel : Nat) (seen rest : List Char) :
    readString (fuel + 1) seen (escapeChar c ++ rest) = readString fuel (c :: seen) rest := by
  by_cases special : c ∈ ['"', '\\', '\n', '\r', '\t', '\x08', '\x0c']
  · simp only [List.mem_cons, List.not_mem_nil, or_false] at special
    rcases special with rfl | rfl | rfl | rfl | rfl | rfl | rfl <;> rfl
  · simp only [List.mem_cons, List.not_mem_nil, or_false, not_or] at special
    obtain ⟨quote, backslash, feed, turn, tab, back, form⟩ := special
    unfold escapeChar
    rw [if_neg quote, if_neg backslash, if_neg feed, if_neg turn, if_neg tab, if_neg back,
      if_neg form]
    split
    · rename_i control
      have decoded : readUnicode ('0' :: '0' :: (hexByte c.toNat ++ rest)) = .ok (c, rest) := by
        unfold readUnicode
        rw [readHex_hexByte control]
        simp only [bind, Except.bind, pure, Except.pure]
        rw [if_neg (by omega), if_pos (by omega), Char.ofNat_toNat]
      change readString (fuel + 1) seen
        ('\\' :: 'u' :: '0' :: '0' :: (hexByte c.toNat ++ rest)) = _
      conv_lhs => unfold readString
      rw [if_neg (by decide), if_pos rfl]
      simp only [decoded]
    · rename_i visible
      rw [List.singleton_append]
      conv_lhs => unfold readString
      rw [if_neg quote, if_neg backslash, if_neg visible]

/-- The characters of a string come back, up to the closing quote, if each is read as it is
spelled. -/
theorem readString_spelled {spell : Char → List Char} {text : List Char}
    (reads : ∀ c ∈ text, ∀ (fuel : Nat) (seen rest : List Char),
      readString (fuel + 1) seen (spell c ++ rest) = readString fuel (c :: seen) rest)
    (rest : List Char) : ∀ (fuel : Nat) (seen : List Char), text.length < fuel →
      readString fuel seen (text.flatMap spell ++ '"' :: rest) =
        .ok (String.ofList (seen.reverse ++ text), rest) := by
  induction text with
  | nil =>
    intro fuel seen enough
    obtain ⟨fuel, rfl⟩ := Nat.exists_eq_add_of_lt enough
    rw [List.append_nil]
    rfl
  | cons c text ih =>
    intro fuel seen enough
    obtain ⟨fuel, rfl⟩ : ∃ less, fuel = less + 1 := ⟨fuel - 1, by grind⟩
    obtain ⟨first, others⟩ := List.forall_mem_cons.mp reads
    rw [List.flatMap_cons, List.append_assoc, first,
      ih others fuel (c :: seen) (Nat.lt_of_succ_lt_succ enough), List.reverse_cons,
      List.append_assoc, List.singleton_append]

theorem readString_escaped (text rest : List Char) : ∀ (fuel : Nat) (seen : List Char),
    text.length < fuel → readString fuel seen (text.flatMap escapeChar ++ '"' :: rest) =
      .ok (String.ofList (seen.reverse ++ text), rest) :=
  readString_spelled (fun c _ => readString_escapeChar c) rest

theorem length_le_flatMap_escapeChar (text : List Char) :
    text.length ≤ (text.flatMap escapeChar).length := by
  induction text with
  | nil => exact Nat.le_refl _
  | cons c text ih =>
    have some : 1 ≤ (escapeChar c).length := by
      unfold escapeChar
      repeat' split
      all_goals simp
    rw [List.flatMap_cons, List.length_append, List.length_cons]
    omega

theorem toList_quoted (text : String) :
    (quoted text).toList = '"' :: (text.toList.flatMap escapeChar ++ ['"']) := by
  rw [quoted, String.toList_ofList, List.cons_append]

theorem readString_quoted (text : String) (rest : List Char) :
    readString ((text.toList.flatMap escapeChar ++ '"' :: rest).length + 1) []
      (text.toList.flatMap escapeChar ++ '"' :: rest) = .ok (text, rest) := by
  rw [readString_escaped]
  · rw [List.reverse_nil, List.nil_append, String.ofList_toList]
  · rw [List.length_append]
    have := length_le_flatMap_escapeChar text.toList
    omega

/-! ### Digits -/

theorem spanDigits_append (text : List Char) {rest : List Char} (stops : Stops rest) :
    spanDigits (text ++ rest) = ((spanDigits text).1, (spanDigits text).2 ++ rest) := by
  induction text with
  | nil =>
    cases rest with
    | nil => rfl
    | cons c rest => simp [spanDigits, stops.1]
  | cons c text ih =>
    unfold spanDigits at ih ⊢
    rw [List.cons_append, List.takeWhile_cons, List.takeWhile_cons, List.dropWhile_cons,
      List.dropWhile_cons]
    obtain ⟨front, back⟩ := Prod.mk.inj ih
    split
    · rw [front, back]
    · rfl

/-! ### Whole numbers -/

theorem toDigits_ne_zero_cons {n : Nat} (positive : 0 < n) :
    (Nat.toDigits 10 n).head? ≠ some '0' := by
  induction n using Nat.strong_induction_on with
  | _ n ih =>
    by_cases small : n < 10
    · rw [Nat.toDigits_of_lt_base small, List.head?_cons, ne_eq, Option.some_inj,
        Nat.digitChar_eq_zero]
      exact positive.ne'
    · rw [Nat.toDigits_of_base_le (by decide) (not_lt.mp small),
        List.head?_append_of_ne_nil _ Nat.toDigits_ne_nil]
      exact ih (n / 10) (by omega) (by omega)

theorem readDigits_toDigits (n : Nat) : Decimal.readDigits 0 (Nat.toDigits 10 n) = n := by
  have same : ∀ (digits : List Char) (start : Nat),
      Decimal.readDigits start digits = Nat.ofDigitChars 10 digits start := by
    intro digits
    induction digits with
    | nil => exact fun _ => rfl
    | cons c digits ih =>
      intro start
      rw [Nat.ofDigitChars_cons, ← ih, Nat.mul_comm 10 start]
      rfl
  rw [same, Nat.ofDigitChars_ten_toDigits]

theorem le_readDigits (digits : List Char) (start : Nat) :
    start ≤ Decimal.readDigits start digits := by
  induction digits generalizing start with
  | nil => exact Nat.le_refl _
  | cons c digits ih =>
    have := ih (start * 10 + (c.toNat - '0'.toNat))
    rw [Decimal.readDigits] at this ⊢
    rw [List.foldl_cons]
    omega

/-- Digits are all taken while their number fits 64 bits. -/
theorem foldl_push {digits : List Char} {start : Nat}
    (fits : Decimal.readDigits start digits < twoPow 64) :
    digits.foldl Significand.push ⟨start, 0⟩ = ⟨Decimal.readDigits start digits, 0⟩ := by
  induction digits generalizing start with
  | nil => rfl
  | cons c digits ih =>
    have next : start * 10 + (c.toNat - '0'.toNat) < twoPow 64 :=
      (le_readDigits digits _).trans_lt fits
    rw [List.foldl_cons, Significand.push]
    dsimp only
    rw [if_pos ⟨rfl, next⟩]
    exact ih fits

/-! ### Numbers in front of other text -/

/-- What follows the digits in front of the point. -/
def readPlaces (negative : Bool) (whole : Significand) :
    List Char → Except Fault (Json × List Char)
  | [] =>
    if whole.dropped ≠ 0 then finishNumber negative whole.value whole.dropped []
    else readMagnitude.settle negative whole.value []
  | c :: rest =>
    if c = '.' then
      if (spanDigits rest).1.isEmpty then
        .error (if (spanDigits rest).2.isEmpty then .truncated else .malformed)
      else
        let all := (spanDigits rest).1.foldl Significand.push ⟨whole.value, 0⟩
        finishNumber negative all.value
          (whole.dropped - ((spanDigits rest).1.length - all.dropped : Nat) : Int)
          (spanDigits rest).2
    else if c = 'e' ∨ c = 'E' ∨ whole.dropped ≠ 0 then
      finishNumber negative whole.value whole.dropped (c :: rest)
    else readMagnitude.settle negative whole.value (c :: rest)

theorem readPlaces_of_ne {c : Char} (point : c ≠ '.') (negative : Bool) (whole : Significand)
    (rest : List Char) :
    readPlaces negative whole (c :: rest) =
      if c = 'e' ∨ c = 'E' ∨ whole.dropped ≠ 0 then
        finishNumber negative whole.value whole.dropped (c :: rest)
      else readMagnitude.settle negative whole.value (c :: rest) :=
  if_neg point

theorem readMagnitude_eq (negative : Bool) (text : List Char) :
    readMagnitude negative text =
      if (spanDigits text).1 = [] then
        .error (if (spanDigits text).2.isEmpty then .truncated else .malformed)
      else if (spanDigits text).1.head? = some '0' ∧ (spanDigits text).1.tail ≠ [] then
        .error .malformed
      else
        readPlaces negative ((spanDigits text).1.foldl Significand.push ⟨0, 0⟩)
          (spanDigits text).2 := by
  unfold readMagnitude
  generalize spanDigits text = parts
  obtain ⟨digits, rest⟩ := parts
  dsimp only
  split
  · rfl
  · rfl
  · rename_i some lead
    have single : ¬ (digits.head? = Option.some '0' ∧ digits.tail ≠ []) := by
      rintro ⟨zero, more⟩
      match digits, zero, more with
      | _ :: _ :: _, rfl, _ => exact lead _ _ rfl
    rw [if_neg some, if_neg single]
    cases rest with
    | nil => rfl
    | cons c rest =>
      by_cases point : c = '.'
      · subst point
        change (if (spanDigits rest).1.isEmpty then _ else _) =
          if (spanDigits rest).1.isEmpty then _ else _
        split <;> rfl
      · rw [readPlaces_of_ne point]
        split
        · rename_i same
          exact absurd (List.cons.inj same).1 point
        · rename_i same
          cases same
          rfl
        · rename_i same
          cases same

/-- A significand with a written exponent; `none` when it is too large. -/
def powered? (negative : Bool) (significand : Nat) (start : Int) (down : Bool) (size : Nat) :
    Option Float :=
  if twoPow 31 ≤ size then
    if significand ≠ 0 ∧ !down then none else some (if negative then -0 else 0)
  else doubleOf negative significand (if down then start - size else start + size)

theorem readExponent_eq (negative : Bool) (significand : Nat) (start : Int) (text : List Char) :
    readExponent negative significand start text =
      let (digits, rest) := spanDigits (Decimal.splitSign text).2
      if digits = [] then .error (if rest.isEmpty then .truncated else .malformed)
      else
        match powered? negative significand start (Decimal.splitSign text).1
          (Decimal.readDigits 0 digits) with
        | some x => .ok (.double x, rest)
        | none => .error .malformed := by
  unfold readExponent
  split
  rename_i down body sign
  have same : Decimal.splitSign text = (down, body) := by
    rw [← sign]
    unfold Decimal.splitSign
    split
    · rfl
    · rfl
    · rename_i minus plus
      split
      · exact absurd rfl (plus _)
      · exact absurd rfl (minus _)
      · rfl
  rw [same]
  dsimp only
  generalize spanDigits body = parts
  obtain ⟨digits, rest⟩ := parts
  dsimp only
  cases digits with
  | nil => rfl
  | cons c digits =>
    rw [List.isEmpty_cons, if_neg (by decide), if_neg (List.cons_ne_nil _ _)]
    unfold powered?
    split
    · split <;> rfl
    · rfl

/-- What was read, with more text behind what was left. -/
def followed {α : Type} (rest : List Char) (found : α × List Char) : α × List Char :=
  (found.1, found.2 ++ rest)

theorem eq_ok_of_toOption {ε α : Type} {outcome : Except ε α} {value : α}
    (found : outcome.toOption = some value) : outcome = .ok value := by
  cases outcome with
  | error fault => cases found
  | ok other =>
    cases found
    rfl

section

variable {negative : Bool} {rest : List Char}

theorem splitSign_append {text : List Char} (some : text ≠ []) (rest : List Char) :
    Decimal.splitSign (text ++ rest) =
      ((Decimal.splitSign text).1, (Decimal.splitSign text).2 ++ rest) := by
  obtain ⟨c, text, rfl⟩ := List.exists_cons_of_ne_nil some
  unfold Decimal.splitSign
  rw [List.cons_append]
  split
  · rename_i same
    cases same
    rfl
  · rename_i same
    cases same
    rfl
  · rename_i minus plus
    split
    · rename_i same
      cases same
      exact absurd rfl (minus _)
    · rename_i same
      cases same
      exact absurd rfl (plus _)
    · rfl

/-- Where a number stops, there is neither a sign nor a digit. -/
theorem Stops.no_digits (stops : Stops rest) :
    (spanDigits (Decimal.splitSign rest).2).1 = [] := by
  cases rest with
  | nil => rfl
  | cons c rest =>
    have other : c ≠ '-' ∧ c ≠ '+' := by
      obtain ⟨_, others⟩ := stops
      constructor <;> rintro rfl <;> exact others (by decide)
    unfold Decimal.splitSign
    split
    · rename_i same
      exact absurd (List.cons.inj same).1 other.1
    · rename_i same
      exact absurd (List.cons.inj same).1 other.2
    · rw [spanDigits, List.takeWhile_cons, stops.1]
      rfl

theorem readExponent_append (stops : Stops rest) (significand : Nat) (start : Int)
    (text : List Char) :
    (readExponent negative significand start (text ++ rest)).toOption =
      (readExponent negative significand start text).toOption.map (followed rest) := by
  rw [readExponent_eq, readExponent_eq]
  by_cases none : text = []
  · subst none
    rw [List.nil_append]
    dsimp only
    rw [if_pos stops.no_digits]
    rfl
  · rw [splitSign_append none, spanDigits_append _ stops]
    dsimp only
    split
    · rfl
    · split <;> rfl

theorem finishNumber_append (stops : Stops rest) (significand : Nat) (exponent : Int)
    (text : List Char) :
    (finishNumber negative significand exponent (text ++ rest)).toOption =
      (finishNumber negative significand exponent text).toOption.map (followed rest) := by
  cases text with
  | nil =>
    cases rest with
    | nil =>
      rw [List.append_nil, finishNumber]
      split <;> rfl
    | cons c rest =>
      have letter : ¬ (c = 'e' ∨ c = 'E') := by
        rintro (rfl | rfl) <;> exact stops.2 (by decide)
      rw [List.nil_append, finishNumber, finishNumber, if_neg letter]
      split <;> rfl
  | cons c text =>
    rw [List.cons_append, finishNumber, finishNumber]
    split
    · exact readExponent_append stops significand exponent text
    · split <;> rfl

theorem exists_settle (negative : Bool) (value : Nat) :
    ∃ json, ∀ text, readMagnitude.settle negative value text = .ok (json, text) := by
  unfold readMagnitude.settle
  split
  · exact ⟨_, fun _ => rfl⟩
  · split
    · exact ⟨_, fun _ => rfl⟩
    · exact ⟨_, fun _ => rfl⟩

theorem settle_append (value : Nat) (text : List Char) :
    (readMagnitude.settle negative value (text ++ rest)).toOption =
      (readMagnitude.settle negative value text).toOption.map (followed rest) := by
  obtain ⟨settled, same⟩ := exists_settle negative value
  rw [same, same]
  rfl

theorem readPlaces_append (stops : Stops rest) (whole : Significand) (text : List Char) :
    (readPlaces negative whole (text ++ rest)).toOption =
      (readPlaces negative whole text).toOption.map (followed rest) := by
  cases text with
  | nil =>
    cases rest with
    | nil =>
      have none : Stops [] := trivial
      rw [List.append_nil, readPlaces]
      split
      · exact finishNumber_append none whole.value whole.dropped []
      · exact settle_append whole.value []
    | cons c rest =>
      have other : c ≠ '.' ∧ c ≠ 'e' ∧ c ≠ 'E' := by
        refine ⟨?_, ?_, ?_⟩ <;> rintro rfl <;> exact stops.2 (by decide)
      rw [List.nil_append, readPlaces_of_ne other.1, readPlaces]
      simp only [other.2.1, other.2.2, false_or]
      split
      · exact finishNumber_append stops whole.value whole.dropped []
      · exact settle_append whole.value []
  | cons c text =>
    rw [List.cons_append]
    by_cases point : c = '.'
    · rw [readPlaces, if_pos point, readPlaces, if_pos point, spanDigits_append _ stops]
      dsimp only
      split
      · rfl
      · exact finishNumber_append stops _ _ _
    · rw [readPlaces_of_ne point, readPlaces_of_ne point]
      split
      · exact finishNumber_append stops _ _ (c :: text)
      · exact settle_append whole.value (c :: text)

/-- **What is read of a number where it stops is what is read of it alone.** -/
theorem readMagnitude_append (stops : Stops rest) (text : List Char) :
    (readMagnitude negative (text ++ rest)).toOption =
      (readMagnitude negative text).toOption.map (followed rest) := by
  rw [readMagnitude_eq, readMagnitude_eq, spanDigits_append _ stops]
  dsimp only
  split
  · rfl
  · split
    · rfl
    · exact readPlaces_append stops _ _

theorem readMagnitude_ok_append (stops : Stops rest) {text : List Char} {json : Json}
    (read : readMagnitude negative text = .ok (json, [])) :
    readMagnitude negative (text ++ rest) = .ok (json, rest) := by
  refine eq_ok_of_toOption ?_
  rw [readMagnitude_append stops, read]
  rfl

end

/-! ### Scalars in front of other text -/

theorem readValue_of_digit {c : Char} (digit : c.isDigit) (fuel depth : Nat)
    (text : List Char) :
    readValue (fuel + 1) depth (c :: text) = readMagnitude false (c :: text) := by
  have other : ∀ d : Char, d.isDigit = false → c ≠ d := by
    rintro d plain rfl
    rw [digit] at plain
    cases plain
  have visible : isSpace c = false := by
    simp [isSpace, other]
  rw [readValue, skipSpace_of_visible visible]
  dsimp only
  rw [if_neg (other _ rfl), if_neg (other _ rfl), readScalar, if_neg (other _ rfl),
    if_neg (other _ rfl), if_neg (other _ rfl), if_neg (other _ rfl), if_neg (other _ rfl),
    if_pos digit]

theorem readValue_minus (fuel depth : Nat) (text : List Char) :
    readValue (fuel + 1) depth ('-' :: text) = readMagnitude true text := by
  rw [readValue]
  rfl

/-- The digits of a number that fits 64 bits are read as a whole number. -/
theorem readMagnitude_toDigits {n : Nat} (fits : n < twoPow 64) (negative : Bool) :
    readMagnitude negative (Nat.toDigits 10 n) = readMagnitude.settle negative n [] := by
  have digit : ∀ c ∈ Nat.toDigits 10 n, c.isDigit := fun c inside =>
    Nat.isDigit_of_mem_toDigits (by decide) (by decide) inside
  have spanned : spanDigits (Nat.toDigits 10 n) = (Nat.toDigits 10 n, []) :=
    Prod.ext (List.takeWhile_eq_self_iff.mpr digit) (List.dropWhile_eq_nil_iff.mpr digit)
  have lead : ¬ ((Nat.toDigits 10 n).head? = some '0' ∧ (Nat.toDigits 10 n).tail ≠ []) := by
    rintro ⟨zero, more⟩
    rcases Nat.eq_zero_or_pos n with rfl | positive
    · exact more (congrArg List.tail (Nat.toDigits_zero 10))
    · exact toDigits_ne_zero_cons positive zero
  rw [readMagnitude_eq, spanned, if_neg Nat.toDigits_ne_nil, if_neg lead,
    foldl_push (by rwa [readDigits_toDigits]), readDigits_toDigits]
  rfl

/-- **A whole number of 64 bits comes back.** -/
theorem readValue_int {n : Int} (low : int64Lowest ≤ n) (high : n ≤ word64Highest)
    {rest : List Char} (ends : Ends rest) (fuel depth : Nat) :
    readValue (fuel + 1) depth ((toString n).toList ++ rest) = .ok (.int n, rest) := by
  have least : int64Lowest = -2 ^ 63 := rfl
  have greatest : word64Highest = 2 ^ 64 - 1 := rfl
  have half : twoPow 63 = 2 ^ 63 := rfl
  have whole : twoPow 64 = 2 ^ 64 := rfl
  cases n with
  | ofNat n =>
    have text : (toString (Int.ofNat n)).toList = Nat.toDigits 10 n :=
      (congrArg String.toList Nat.repr_eq_ofList_toDigits).trans String.toList_ofList
    have fits : n < twoPow 64 := by
      rw [Int.ofNat_eq_natCast] at high
      omega
    have read := readMagnitude_ok_append ends.stops (readMagnitude_toDigits fits false)
    obtain ⟨c, digits, same⟩ :=
      List.exists_cons_of_ne_nil (Nat.toDigits_ne_nil (b := 10) (n := n))
    have digit : c.isDigit := Nat.isDigit_of_mem_toDigits (b := 10) (n := n) (by decide)
      (by decide) (same ▸ List.mem_cons_self)
    rw [text]
    rw [same] at read ⊢
    rw [List.cons_append, readValue_of_digit digit, ← List.cons_append]
    exact read
  | negSucc n =>
    have text : (toString (Int.negSucc n)).toList = '-' :: Nat.toDigits 10 (n + 1) := by
      have written : toString (Int.negSucc n) = "-" ++ (n + 1).repr := rfl
      rw [written, String.toList_append, Nat.repr_eq_ofList_toDigits]
      exact congrArg ('-' :: ·) String.toList_ofList
    have fits : n + 1 ≤ twoPow 63 := by omega
    have settled : readMagnitude.settle true (n + 1) [] = .ok (.int (Int.negSucc n), []) := by
      unfold readMagnitude.settle
      rw [if_neg (by decide), if_pos ⟨Nat.succ_ne_zero n, fits⟩]
      rfl
    rw [text, List.cons_append, readValue_minus]
    exact readMagnitude_ok_append ends.stops
      ((readMagnitude_toDigits (by omega) true).trans settled)

theorem eq_of_readWord {value json : Json} : ∀ {word text rest : List Char},
    readWord value word text = .ok (json, rest) → json = value
  | [], _, _, read => by
    cases read
    rfl
  | _ :: _, [], _, read => by cases read
  | expected :: word, c :: text, _, read => by
    rw [readWord] at read
    split at read
    · exact eq_of_readWord read
    · cases read

theorem readScalar_double {c : Char} {text rest : List Char} {x : Float} (ends : Ends rest)
    (read : readScalar c text = .ok (.double x, [])) :
    readScalar c (text ++ rest) = .ok (.double x, rest) := by
  unfold readScalar at read ⊢
  split at read
  · cases eq_of_readWord read
  rename_i n
  split at read
  · cases eq_of_readWord read
  rename_i t
  split at read
  · cases eq_of_readWord read
  rename_i f
  split at read
  · split at read <;> cases read
  rename_i quote
  rw [if_neg n, if_neg t, if_neg f, if_neg quote]
  split at read
  · rename_i minus
    rw [if_pos minus]
    exact readMagnitude_ok_append ends.stops read
  rename_i plus
  rw [if_neg plus]
  split at read
  · rename_i digit
    rw [if_pos digit, ← List.cons_append]
    exact readMagnitude_ok_append ends.stops read
  · cases read

/-- A text that a value is read from begins with something that closes no array. -/
theorem exists_of_readValue {fuel depth : Nat} {text rest : List Char} {json : Json}
    (read : readValue fuel depth text = .ok (json, rest)) :
    ∃ c back, skipSpace text = c :: back ∧ c ≠ ']' := by
  cases fuel with
  | zero => cases read
  | succ fuel =>
    rw [readValue] at read
    cases visible : skipSpace text with
    | nil =>
      rw [visible] at read
      cases read
    | cons c back =>
      rw [visible] at read
      refine ⟨c, back, rfl, ?_⟩
      rintro rfl
      cases read

theorem readScalar_of_readValue {fuel depth : Nat} {text rest : List Char} {x : Float}
    (read : readValue fuel depth text = .ok (.double x, rest)) :
    ∃ c back, skipSpace text = c :: back ∧ c ≠ '[' ∧ c ≠ '{' ∧
      readScalar c back = .ok (.double x, rest) := by
  cases fuel with
  | zero => cases read
  | succ fuel =>
    rw [readValue] at read
    cases visible : skipSpace text with
    | nil =>
      rw [visible] at read
      cases read
    | cons c back =>
      rw [visible] at read
      dsimp only at read
      split at read
      · split at read
        · cases read
        · split at read <;> cases read
      · rename_i bracket
        split at read
        · split at read
          · cases read
          · split at read <;> cases read
        · rename_i brace
          exact ⟨c, back, rfl, bracket, brace, read⟩

/-- **A number with a point or an exponent** is read as it is when nothing follows. -/
theorem readValue_double {text : List Char} {x : Float} {fuel depth : Nat}
    (read : readValue fuel depth text = .ok (.double x, [])) {rest : List Char}
    (ends : Ends rest) (more deeper : Nat) :
    readValue (more + 1) deeper (text ++ rest) = .ok (.double x, rest) := by
  obtain ⟨c, back, visible, bracket, brace, scalar⟩ := readScalar_of_readValue read
  rw [readValue, skipSpace_append_of_cons visible]
  dsimp only
  rw [if_neg bracket, if_neg brace]
  exact readScalar_double ends scalar

end Json
end Collage
