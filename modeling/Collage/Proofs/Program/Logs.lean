import Collage.Proofs.Program.Lines
import Mathlib.Data.List.Forall2

/-!
# Reading a driver's log

A driver says what is wrong line by line, each a `LogEntry` printed in one of the two styles
(`LogStyle`).  A line that is printed is read back with its severity, the line of the program and
its message (`ofLogLine_print`), whatever colons, brackets and numbers stand in the message, and
the lines of a log are those that were printed (`lines_intercalate`).

`diagnostics_wrap` puts both together with where the lines of a layer are, and how many: the
diagnostics are the entries in their order, each on the line of the layer that the line of the
program is, or on none.
-/

namespace Collage

namespace Diagnostic

/-! ### Blanks at the ends -/

/-- What is trimmed has no blanks at its ends. -/
theorem trimmed_ends {text : List Char} (h : trim text = text) :
    trimStart text = text ∧ text.reverse.dropWhile isBlank = text.reverse := by
  have shorter : (trimEnd (trimStart text)).length ≤ (trimStart text).length := by
    have most := (List.dropWhile_sublist isBlank (l := (trimStart text).reverse)).length_le
    rw [trimEnd, List.length_reverse]
    rwa [List.length_reverse] at most
  have start : trimStart text = text := by
    refine (List.dropWhile_sublist _).eq_of_length_le ?_
    rw [← trimStart]
    calc text.length = (trimEnd (trimStart text)).length := by rw [← trim, h]
      _ ≤ (trimStart text).length := shorter
  refine ⟨start, ?_⟩
  rw [trim, start, trimEnd] at h
  exact List.reverse_eq_iff.mp h

theorem dropWhile_of_forall {p : Char → Bool} {text : List Char} (h : ∀ c ∈ text, p c = false) :
    text.dropWhile p = text := by
  cases text with
  | nil => rfl
  | cons c rest => rw [List.dropWhile_cons_of_neg (by simp [h])]

theorem trim_of_visible {text : List Char} (visible : ∀ c ∈ text, isBlank c = false) :
    trim text = text := by
  rw [trim, trimStart, dropWhile_of_forall visible, trimEnd,
    dropWhile_of_forall fun c inside => visible c (List.mem_reverse.mp inside), List.reverse_reverse]

/-- A message behind a blank, or nothing. -/
def spaced (message : List Char) : List Char :=
  if message = [] then [] else ' ' :: message

theorem trim_spaced {message : List Char} (trimmed : trim message = message) :
    trim (spaced message) = message := by
  unfold spaced
  split
  · next none => rw [none]; rfl
  · exact trimmed

theorem dropEnd_append {p : Char → Bool} {text : List Char} (some : text ≠ [])
    (kept : text.reverse.dropWhile p = text.reverse) (front : List Char) :
    ((front ++ text).reverse.dropWhile p).reverse = front ++ text := by
  rw [List.reverse_append, List.dropWhile_append, kept, if_neg (by simp [some]),
    ← List.reverse_append, List.reverse_reverse]

/-- A printed line without blanks and nulls at its ends. -/
theorem bareLine_append {c : Char} {head message : List Char} (begins : isBlank c = false)
    (trimmed : trim message = message) (plain : '\x00' ∉ message) :
    bareLine (c :: head ++ ':' :: ' ' :: message) = c :: head ++ ':' :: spaced message := by
  have start : trimStart (c :: head ++ ':' :: ' ' :: message) =
      c :: head ++ [':', ' '] ++ message := by
    rw [List.cons_append, trimStart, List.dropWhile_cons_of_neg (by simp [begins])]
    simp
  rw [bareLine, trim, start, trimEnd]
  by_cases none : message = []
  · rw [none, List.append_nil, List.reverse_append]
    have stop : ([':', ' '].reverse ++ (c :: head).reverse).dropWhile isBlank =
        ':' :: (c :: head).reverse := rfl
    rw [stop, List.reverse_reverse, List.dropWhile_cons_of_neg (by decide), List.reverse_cons,
      List.reverse_reverse, spaced, if_pos rfl]
  · have nulls : message.reverse.dropWhile (· = '\x00') = message.reverse := by
      refine dropWhile_of_forall fun d inside => decide_eq_false ?_
      rintro rfl
      exact plain (List.mem_reverse.mp inside)
    rw [dropEnd_append none (trimmed_ends trimmed).2, dropEnd_append none nulls, spaced,
      if_neg none]
    simp

/-! ### Numbers -/

/-- The digits of a number. -/
def digits (n : Nat) : List Char :=
  (toString n).toList

theorem digits_eq (n : Nat) : digits n = Nat.toDigits 10 n := by
  rw [digits, Nat.toString_eq_ofList_toDigits, String.toList_ofList]

theorem isDigit_of_mem_digits {n : Nat} {c : Char} (inside : c ∈ digits n) : c.isDigit = true := by
  rw [digits_eq] at inside
  exact Nat.isDigit_of_mem_toDigits (by decide) (by decide) inside

theorem toNat_of_isDigit {c : Char} (digit : c.isDigit = true) : 48 ≤ c.toNat ∧ c.toNat ≤ 57 := by
  simp only [Char.isDigit, Bool.and_eq_true, decide_eq_true_eq, ge_iff_le, UInt32.le_iff_toNat_le]
    at digit
  exact digit

theorem isBlank_of_isDigit {c : Char} (digit : c.isDigit = true) : isBlank c = false := by
  have bounds := toNat_of_isDigit digit
  simp only [isBlank, Bool.or_eq_false_iff, Bool.and_eq_false_iff, decide_eq_false_iff_not]
  omega

theorem ne_of_mem_digits {n : Nat} {c d : Char} (inside : c ∈ digits n)
    (other : d.isDigit = false) : c ≠ d := by
  rintro rfl
  rw [isDigit_of_mem_digits inside] at other
  cases other

/-- Decimal digits are read as the library reads them. -/
theorem foldlM_hexDigit? : ∀ (text : List Char) (start : Nat), (∀ c ∈ text, c.isDigit = true) →
    text.foldlM (fun n c => do
      let digit ← hexDigit? c
      if digit < 10 then some (n * 10 + digit) else none) start =
      some (Nat.ofDigitChars 10 text start)
  | [], _, _ => rfl
  | c :: rest, start, all => by
    have digit : c.isDigit = true := all c List.mem_cons_self
    have bounds := toNat_of_isDigit digit
    have small : c.toNat - '0'.toNat < 10 := by
      change c.toNat - 48 < 10
      omega
    have value : (hexDigit? c).bind (fun digit =>
        if digit < 10 then some (start * 10 + digit) else none) =
          some (start * 10 + (c.toNat - '0'.toNat)) := by
      rw [hexDigit?, if_pos digit, Option.bind_some, if_pos small]
    rw [List.foldlM_cons]
    simp only [Option.bind_eq_bind] at value ⊢
    rw [value, Option.bind_some, Nat.ofDigitChars_cons, Nat.mul_comm 10 start]
    exact foldlM_hexDigit? rest _ fun d inside => all d (.tail c inside)

theorem readBase?_digits (n : Nat) : readBase? 10 (digits n) = some n := by
  have some : (digits n).isEmpty = false := by
    rw [digits_eq, List.isEmpty_eq_false_iff]
    exact Nat.toDigits_ne_nil
  rw [readBase?, some, if_neg Bool.false_ne_true, foldlM_hexDigit? _ _ fun c => isDigit_of_mem_digits,
    digits_eq, Nat.ofDigitChars_ten_toDigits]

theorem readLine?_digits {n : Nat} (counted : n ≤ highestLine) : readLine? (digits n) = some n := by
  have plain : ∀ rest, digits n ≠ '+' :: rest := by
    intro rest same
    exact ne_of_mem_digits (same ▸ List.mem_cons_self : '+' ∈ digits n) (d := '+') rfl rfl
  rw [readLine?, trim_of_visible fun c inside => isBlank_of_isDigit (isDigit_of_mem_digits inside)]
  unfold readNat?
  split
  · next rest same => exact absurd same (plain rest)
  · dsimp only
    rw [readBase?_digits, Option.filter_some, if_pos (decide_eq_true counted)]

/-! ### Cutting -/

theorem cutAt_append {mark : Char} {front : List Char} (none : mark ∉ front) (back : List Char) :
    cutAt (· = mark) (front ++ mark :: back) = some (front, back) := by
  have unmarked : ∀ c ∈ front, (!decide (c = mark)) = true := by
    intro c inside
    rw [Bool.not_eq_true', decide_eq_false_iff_not]
    rintro rfl
    exact none inside
  rw [cutAt, List.dropWhile_append_of_pos unmarked, List.takeWhile_append_of_pos unmarked,
    List.dropWhile_cons_of_neg (by simp), List.takeWhile_cons_of_neg (by simp), List.append_nil]

theorem cutAtColonBlank_append (back : List Char) : ∀ front : List Char, ' ' ∉ front →
    cutAtColonBlank (front ++ ':' :: ' ' :: back) = some (front, back)
  | [], _ => rfl
  | c :: front, visible => by
    have rest := cutAtColonBlank_append back front fun inside => visible (.tail c inside)
    rw [List.cons_append, cutAtColonBlank, rest]
    · rfl
    · rintro more - same
      cases front with
      | nil => cases same
      | cons d front => exact visible (by rw [(List.cons.inj same).1]; simp)

theorem withoutStart?_append (text : List Char) : ∀ start : List Char,
    withoutStart? start (start ++ text) = some text
  | [] => by cases text <;> rfl
  | c :: start => by
    rw [List.cons_append, withoutStart?, if_pos rfl, withoutStart?_append text start]

theorem eq_append_of_withoutStart? : ∀ {start text rest : List Char},
    withoutStart? start text = some rest → text = start ++ rest
  | [], text, _, found => by cases text <;> exact Option.some.inj found
  | c :: start, [], _, found => by cases found
  | c :: start, d :: text, _, found => by
    rw [withoutStart?] at found
    split at found
    · next same => rw [same, eq_append_of_withoutStart? found, List.cons_append]
    · cases found

/-! ### Summaries -/

theorem isPrefixOf_append_cons {mark : Char} (back : List Char) : ∀ (needle front : List Char),
    mark ∉ needle → needle.isPrefixOf (front ++ mark :: back) = needle.isPrefixOf front
  | [], _, _ => by simp
  | c :: needle, [], unmarked => by
    have other : c ≠ mark := fun same => unmarked (same ▸ List.mem_cons_self)
    simp [List.isPrefixOf, other]
  | c :: needle, d :: front, unmarked => by
    have ih := isPrefixOf_append_cons back needle front fun inside => unmarked (.tail c inside)
    rw [List.cons_append, List.isPrefixOf, List.isPrefixOf, ih]

/-- What stands in a text occurs in it. -/
theorem occursIn_of_infix {needle text : List Char} (inside : needle <:+: text) :
    occursIn needle text = true := by
  obtain ⟨front, back, rfl⟩ := inside
  induction front with
  | nil =>
    cases needle with
    | nil => cases back <;> rfl
    | cons c rest =>
      rw [List.nil_append, List.cons_append, occursIn, ← List.cons_append,
        List.isPrefixOf_iff_prefix.mpr (List.prefix_append _ _), Bool.true_or]
  | cons c front ih =>
    rw [List.cons_append, List.cons_append, occursIn, ih, Bool.or_true]

/-- What does not have a mark cannot begin before it and go on behind it. -/
theorem occursIn_append_cons {needle : List Char} {mark : Char} (unmarked : mark ∉ needle)
    (back : List Char) : ∀ front : List Char,
    occursIn needle (front ++ mark :: back) = (occursIn needle front || occursIn needle back)
  | [] => by
    have begins := isPrefixOf_append_cons back needle [] unmarked
    rw [List.nil_append] at begins ⊢
    simp only [occursIn, begins]
    cases needle <;> rfl
  | c :: front => by
    rw [List.cons_append, occursIn, occursIn, ← List.cons_append,
      isPrefixOf_append_cons back needle (c :: front) unmarked,
      occursIn_append_cons unmarked back front, Bool.or_assoc]

/-- What has a character that a text does not have does not occur in it. -/
theorem occursIn_of_notMem {needle : List Char} {c : Char} (inside : c ∈ needle) :
    ∀ text : List Char, c ∉ text → occursIn needle text = false
  | [], _ => by
    rw [occursIn, List.isEmpty_eq_false_iff]
    exact List.ne_nil_of_mem inside
  | d :: rest, outside => by
    have rest' := occursIn_of_notMem inside rest fun there => outside (.tail d there)
    have front : needle.isPrefixOf (d :: rest) = false := by
      rw [Bool.eq_false_iff, ne_eq, List.isPrefixOf_iff_prefix]
      exact fun begins => outside (begins.subset inside)
    rw [occursIn, rest', front, Bool.or_false]

end Diagnostic

/-! ### What a driver prints -/

/-- What a driver says of a line of a program: a message of one line without blanks at its ends,
which is no summary. -/
structure LogEntry where
  severity : Severity
  line : Nat
  message : String
  counted : line ≤ Diagnostic.highestLine
  single : '\n' ∉ message.toList
  plain : '\x00' ∉ message.toList
  trimmed : trim message.toList = message.toList
  telling : Diagnostic.isSummary message.toList = false

/-- How a driver prints what it says. -/
inductive LogStyle
  /-- the severity in capitals, then the line -/
  | capital
  /-- the line with a column, then the severity -/
  | position (column : Nat)

/-- The word for a severity in capitals. -/
def Severity.capitals : Severity → String
  | .error => "ERROR"
  | .warning => "WARNING"

namespace LogStyle

open Diagnostic

/-- The line of the log for an entry. -/
def print (entry : LogEntry) : LogStyle → String
  | .capital =>
    entry.severity.capitals ++ ": 0:" ++ toString entry.line ++ ": " ++ entry.message
  | .position column =>
    "0:" ++ toString entry.line ++ "(" ++ toString column ++ "): " ++ entry.severity.word ++ ": " ++
      entry.message

/-- What is printed in front of the last colon before the message. -/
def head (severity : Severity) (line : Nat) : LogStyle → List Char
  | .capital => severity.capitals.toList ++ ": 0:".toList ++ digits line
  | .position column =>
    "0:".toList ++ digits line ++ "(".toList ++ digits column ++ "): ".toList ++ severity.word.toList

theorem toList_print (entry : LogEntry) (style : LogStyle) : (style.print entry).toList =
    style.head entry.severity entry.line ++ ':' :: ' ' :: entry.message.toList := by
  have colon : ": ".toList = [':', ' '] := rfl
  cases style with
  | capital =>
    simp only [print, head, digits, String.toList_append, List.append_assoc, colon]
    rfl
  | position column =>
    simp only [print, head, digits, String.toList_append, List.append_assoc, colon]
    rfl

theorem exists_head (severity : Severity) (line : Nat) (style : LogStyle) :
    ∃ c rest, style.head severity line = c :: rest ∧ isBlank c = false := by
  cases style <;> cases severity <;> exact ⟨_, _, rfl, rfl⟩

/-- What is in front of a message ends no line and has neither a small nor a capital C. -/
theorem all_head (severity : Severity) (line : Nat) (style : LogStyle) :
    ∀ c ∈ style.head severity line, (c != '\n' && c.toLower != 'c') = true := by
  have number : ∀ n, ∀ c ∈ digits n, (c != '\n' && c.toLower != 'c') = true := by
    intro n c inside
    have bounds := toNat_of_isDigit (isDigit_of_mem_digits inside)
    have same : c.toLower = c := by
      refine dif_neg ?_
      rintro ⟨capital, -⟩
      have above : 65 ≤ c.toNat := UInt32.le_iff_toNat_le.mp capital
      omega
    rw [same]
    simp [ne_of_mem_digits inside (d := '\n') rfl, ne_of_mem_digits inside (d := 'c') rfl]
  simp only [← List.all_eq_true] at number ⊢
  cases style with
  | capital =>
    rw [head, List.all_append, List.all_append, number]
    cases severity <;> rfl
  | position column =>
    simp only [head, List.all_append, number]
    cases severity <;> rfl

/-- **A printed line without blanks at its ends.** -/
theorem bareLine_print (entry : LogEntry) (style : LogStyle) :
    bareLine (style.print entry).toList =
      style.head entry.severity entry.line ++ ':' :: spaced entry.message.toList := by
  obtain ⟨c, rest, same, begins⟩ := exists_head entry.severity entry.line style
  rw [toList_print, same]
  exact bareLine_append begins entry.trimmed entry.plain

/-- What is printed in front of a message does not make a summary of it. -/
theorem isSummary_print (entry : LogEntry) (style : LogStyle) :
    isSummary (style.head entry.severity entry.line ++ ':' :: spaced entry.message.toList) =
      false := by
  have without : 'c' ∉ lowercase (style.head entry.severity entry.line) := by
    intro inside
    obtain ⟨c, there, same⟩ := List.mem_map.mp inside
    have all := all_head entry.severity entry.line style c there
    simp [same] at all
  have told := entry.telling
  have split : lowercase (style.head entry.severity entry.line ++ ':' :: spaced entry.message.toList) =
      lowercase (style.head entry.severity entry.line) ++
        ':' :: lowercase (spaced entry.message.toList) := by
    simp only [lowercase, List.map_append, List.map_cons]
    rfl
  have message : ∀ c needle, c ≠ ' ' → occursIn (c :: needle) (lowercase entry.message.toList) =
      false → occursIn (c :: needle) (lowercase (spaced entry.message.toList)) = false := by
    intro c needle other without
    unfold spaced
    split
    · next none => rw [none] at without; exact without
    · have starts : (c :: needle).isPrefixOf (' ' :: lowercase entry.message.toList) = false := by
        rw [List.isPrefixOf, beq_false_of_ne other, Bool.false_and]
      change occursIn (c :: needle) (' ' :: lowercase entry.message.toList) = false
      rw [occursIn, starts, without, Bool.or_false]
  simp only [isSummary, Bool.or_eq_false_iff] at told ⊢
  rw [split, occursIn_append_cons (by decide), occursIn_append_cons (by decide),
    occursIn_of_notMem (by decide : 'c' ∈ _) _ without,
    occursIn_of_notMem (by decide : 'c' ∈ _) _ without, Bool.false_or, Bool.false_or]
  exact ⟨message _ _ (by decide) told.1, message _ _ (by decide) told.2⟩

theorem readCapital?_capital (entry : LogEntry) :
    readCapital? (LogStyle.capital.head entry.severity entry.line ++
      ':' :: spaced entry.message.toList) =
      some ⟨entry.severity, entry.line, entry.message.toList⟩ := by
  have line : LogStyle.capital.head entry.severity entry.line ++ ':' :: spaced entry.message.toList =
      entry.severity.capitals.toList ++ ':' :: ' ' :: '0' :: ':' ::
        (digits entry.line ++ ':' :: spaced entry.message.toList) := by
    simp [head]
  have source : ∀ rest, cutAt (· = ':') (trimStart (' ' :: '0' :: ':' :: rest)) =
      some (['0'], rest) := fun _ => rfl
  have zero : readLine? ['0'] = some 0 := by
    have same : digits 0 = ['0'] := digits_eq 0
    rw [← same, readLine?_digits (Nat.zero_le _)]
  have number : cutAt (· = ':') (digits entry.line ++ ':' :: spaced entry.message.toList) =
      some (digits entry.line, spaced entry.message.toList) :=
    cutAt_append (fun inside => ne_of_mem_digits inside (d := ':') rfl rfl) _
  rw [line, readCapital?]
  simp only [Option.bind_eq_bind]
  cases entry.severity with
  | error =>
    have start : ∀ rest, withoutStart? "ERROR:".toList (Severity.error.capitals.toList ++ ':' :: rest) =
        some rest := fun rest => withoutStart?_append rest "ERROR:".toList
    rw [start]
    simp only [Option.bind_some, source, zero, number, readLine?_digits entry.counted,
      trim_spaced entry.trimmed]
    rfl
  | warning =>
    have other : ∀ rest, withoutStart? "ERROR:".toList
        (Severity.warning.capitals.toList ++ ':' :: rest) = none := fun _ => rfl
    have start : ∀ rest, withoutStart? "WARNING:".toList
        (Severity.warning.capitals.toList ++ ':' :: rest) = some rest :=
      fun rest => withoutStart?_append rest "WARNING:".toList
    rw [other, start]
    simp only [Option.map_some, Option.bind_some, source, zero, number,
      readLine?_digits entry.counted, trim_spaced entry.trimmed]
    rfl

theorem readCapital?_position (entry : LogEntry) (column : Nat) :
    readCapital? ((LogStyle.position column).head entry.severity entry.line ++
      ':' :: spaced entry.message.toList) = none :=
  rfl

theorem readPosition?_position (entry : LogEntry) (column : Nat) :
    readPosition? ((LogStyle.position column).head entry.severity entry.line ++
      ':' :: spaced entry.message.toList) =
      some ⟨entry.severity, entry.line, entry.message.toList⟩ := by
  have line : (LogStyle.position column).head entry.severity entry.line ++
      ':' :: spaced entry.message.toList =
        ('0' :: ':' :: (digits entry.line ++ '(' :: (digits column ++ [')']))) ++
          ':' :: ' ' :: (entry.severity.word.toList ++ ':' :: spaced entry.message.toList) := by
    simp [head]
  have visible : ' ' ∉ '0' :: ':' :: (digits entry.line ++ '(' :: (digits column ++ [')'])) := by
    have none : ∀ n, ' ' ∉ digits n := fun n inside => ne_of_mem_digits inside (d := ' ') rfl rfl
    simp [none]
  have source : ∀ rest, cutAt (· = ':') ('0' :: ':' :: rest) = some (['0'], rest) := fun _ => rfl
  have number : (digits entry.line ++ '(' :: (digits column ++ [')'])).takeWhile (· ≠ '(') =
      digits entry.line := by
    rw [List.takeWhile_append_of_pos, List.takeWhile_cons_of_neg (by decide), List.append_nil]
    exact fun c inside => decide_eq_true (ne_of_mem_digits inside rfl)
  rw [line, readPosition?, cutAtColonBlank_append _ _ visible]
  simp only [Option.bind_eq_bind, Option.bind_some, source, number, readLine?_digits entry.counted]
  cases entry.severity with
  | error =>
    have start : ∀ rest, withoutStart? "error:".toList (Severity.error.word.toList ++ ':' :: rest) =
        some rest := fun rest => withoutStart?_append rest "error:".toList
    rw [start]
    simp only [trim_spaced entry.trimmed]
    rfl
  | warning =>
    have other : ∀ rest, withoutStart? "error:".toList
        (Severity.warning.word.toList ++ ':' :: rest) = none := fun _ => rfl
    have start : ∀ rest, withoutStart? "warning:".toList
        (Severity.warning.word.toList ++ ':' :: rest) = some rest :=
      fun rest => withoutStart?_append rest "warning:".toList
    rw [other, start]
    simp only [Option.map_some, Option.bind_some, trim_spaced entry.trimmed]
    rfl

/-- **What was printed is read back**, its line placed in the layer. -/
theorem ofLogLine_print (before count : Nat) (entry : LogEntry) (style : LogStyle) :
    ofLogLine before count (bareLine (style.print entry).toList) =
      some ⟨placeLine before count entry.line, entry.message, entry.severity⟩ := by
  have some : (style.head entry.severity entry.line ++
      ':' :: spaced entry.message.toList).isEmpty = false := by simp
  have read : (readCapital? (style.head entry.severity entry.line ++
      ':' :: spaced entry.message.toList)).orElse (fun _ => readPosition?
        (style.head entry.severity entry.line ++ ':' :: spaced entry.message.toList)) =
      Option.some ⟨entry.severity, entry.line, entry.message.toList⟩ := by
    cases style with
    | capital => rw [readCapital?_capital]; rfl
    | position column => rw [readCapital?_position, readPosition?_position]; rfl
  rw [bareLine_print, ofLogLine, some, isSummary_print, Bool.false_or, if_neg Bool.false_ne_true,
    read]
  simp only [String.ofList_toList]

/-- A printed line has no end in it, and no carriage return at its own. -/
theorem print_single (entry : LogEntry) (style : LogStyle) : '\n' ∉ (style.print entry).toList ∧
    ∃ c, (style.print entry).toList.getLast? = some c ∧ c ≠ '\r' := by
  rw [toList_print]
  constructor
  · intro inside
    rcases List.mem_append.mp inside with inside | inside
    · exact absurd (all_head _ _ _ _ inside) (by simp)
    · exact entry.single (by simpa using inside)
  · rcases List.eq_nil_or_concat entry.message.toList with none | ⟨front, c, last⟩
    · rw [none]
      exact ⟨' ', by simp, by decide⟩
    · have ends := (trimmed_ends entry.trimmed).2
      rw [last, List.concat_eq_append, List.reverse_concat] at ends
      have stays : (style.head entry.severity entry.line ++
          ':' :: ' ' :: entry.message.toList).getLast? = some c := by
        rw [last, List.concat_eq_append, ← List.cons_append, ← List.cons_append,
          ← List.append_assoc, List.getLast?_concat]
      refine ⟨c, stays, ?_⟩
      rintro rfl
      have shorter := congrArg List.length ends
      rw [List.dropWhile_cons_of_pos rfl, List.length_cons] at shorter
      have most := (List.dropWhile_sublist isBlank (l := front.reverse)).length_le
      omega

end LogStyle

/-! ### A log -/

/-- Texts of one line each are the lines of what they are joined to, whether or not the last line
has an end. -/
theorem lines_intercalate {texts : List (List Char)} (ended : Bool)
    (single : ∀ text ∈ texts, '\n' ∉ text)
    (visible : ∀ text ∈ texts, ∃ c, text.getLast? = some c ∧ c ≠ '\r') :
    lines (['\n'].intercalate (texts ++ if ended then [[]] else [])) = texts := by
  have kept : ∀ count : Nat, texts.mapIdx (fun index line =>
      if index < count ∧ line.getLast? = some '\r' then line.dropLast else line) = texts := by
    intro count
    refine List.ext_getElem? fun index => ?_
    rw [List.getElem?_mapIdx]
    cases found : texts[index]? with
    | none => rfl
    | some text =>
      obtain ⟨c, last, other⟩ := visible text (List.mem_of_getElem? found)
      rw [Option.map_some, if_neg fun both => other (Option.some.inj (last.symm.trans both.2))]
  have split : ∀ pieces : List (List Char), (∀ piece ∈ pieces, '\n' ∉ piece) → pieces ≠ [] →
      splitAtAll (· = '\n') (['\n'].intercalate pieces) = pieces := by
    intro pieces single some
    rw [splitAtAll_eq]
    exact List.splitOn_intercalate '\n' single some
  cases ended with
  | true =>
    have pieces : ∀ piece ∈ texts ++ [[]], '\n' ∉ piece := by
      intro piece inside
      rcases List.mem_append.mp inside with inside | inside
      · exact single piece inside
      · cases List.mem_singleton.mp inside
        exact List.not_mem_nil
    rw [if_pos rfl, lines, split _ pieces (by simp), if_pos List.getLast?_concat,
      if_pos List.getLast?_concat, List.dropLast_concat]
    exact kept _
  | false =>
    rw [if_neg Bool.false_ne_true, List.append_nil]
    rcases List.eq_nil_or_concat texts with rfl | ⟨before, last, rfl⟩
    · rfl
    · rw [List.concat_eq_append] at single visible kept ⊢
      have some : last ≠ [] := by
        obtain ⟨c, found, -⟩ := visible last (by simp)
        rintro rfl
        cases found
      rw [lines, split _ single (by simp), List.getLast?_concat, if_neg (by simpa using some),
        if_neg (by simpa using some)]
      exact kept _

/-- The log of a driver, with or without an end of its last line. -/
def printLog (printed : List (LogStyle × LogEntry)) (ended : Bool) : String :=
  String.intercalate "\n"
    (printed.map (fun entry => entry.1.print entry.2) ++ if ended then [""] else [])

/-- A diagnostic says what an entry of the log says, on the line of the code that is the entry's
line of the program, or on none if there is no such line. -/
structure LogEntry.ToldBy (wrapped : WrappedSource) (entry : LogEntry) (diagnostic : Diagnostic) :
    Prop where
  severity : diagnostic.severity = entry.severity
  text : diagnostic.text = entry.message
  inside : ∀ line, 1 ≤ line → line ≤ wrapped.codeLines →
    entry.line = wrapped.linesBefore + line → diagnostic.line = line
  outside : (∀ line, 1 ≤ line → line ≤ wrapped.codeLines →
    entry.line ≠ wrapped.linesBefore + line) → diagnostic.line = 0

/-- **The diagnostics of a log** are its entries, each on its line of the code. -/
theorem WrappedSource.diagnostics_printLog (wrapped : WrappedSource)
    (printed : List (LogStyle × LogEntry)) (ended : Bool) :
    List.Forall₂ (fun entry diagnostic => entry.2.ToldBy wrapped diagnostic) printed
      (wrapped.diagnostics (printLog printed ended)) := by
  have texts : (printLog printed ended).toList = ['\n'].intercalate
      ((printed.map fun entry => (entry.1.print entry.2).toList) ++ if ended then [[]] else []) := by
    rw [printLog, String.toList_intercalate, List.map_append, List.map_map]
    cases ended <;> rfl
  have read : lines (printLog printed ended).toList =
      printed.map fun entry => (entry.1.print entry.2).toList := by
    rw [texts]
    refine lines_intercalate ended ?_ ?_
    · exact List.forall_mem_map.mpr fun entry _ => (entry.1.print_single entry.2).1
    · exact List.forall_mem_map.mpr fun entry _ => (entry.1.print_single entry.2).2
  have each : ∀ entry ∈ printed, (Diagnostic.ofLogLine wrapped.linesBefore wrapped.codeLines ∘
      Diagnostic.bareLine ∘ fun entry : LogStyle × LogEntry => (entry.1.print entry.2).toList) entry =
        some ⟨Diagnostic.placeLine wrapped.linesBefore wrapped.codeLines entry.2.line,
          entry.2.message, entry.2.severity⟩ :=
    fun entry _ => LogStyle.ofLogLine_print _ _ entry.2 entry.1
  rw [diagnostics, Diagnostic.ofLog, read, List.filterMap_map]
  refine (List.filterMap_congr each).symm ▸ ?_
  rw [List.filterMap_eq_map', List.forall₂_map_right_iff, List.forall₂_same]
  refine fun entry _ => ⟨rfl, rfl, fun line first last same => ?_, fun other => ?_⟩
  · dsimp only
    rw [Diagnostic.placeLine, if_pos (by omega), same, Nat.add_sub_cancel_left]
  · refine if_neg fun inside => ?_
    exact other (entry.2.line - wrapped.linesBefore) (by omega) (by omega) (by omega)

example : Diagnostic.ofLog
    "ERROR: 0:105: 'foo' : undeclared identifier\n0:103(7): warning: unused\n" 100 10 =
      [⟨5, "'foo' : undeclared identifier", .error⟩, ⟨3, "unused", .warning⟩] := by
  decide +kernel

/-- **Diagnostics land on the lines of the layer.** -/
theorem diagnostics_wrap (wrapping : Wrapping) (version code : String) :
    WrappedSource.Located (wrapping.front version) code (wrapping.wrap version code) ∧
    ∀ printed ended,
      List.Forall₂ (fun entry diagnostic => entry.2.ToldBy (wrapping.wrap version code) diagnostic)
        printed ((wrapping.wrap version code).diagnostics (printLog printed ended)) :=
  ⟨wrapping.located_wrap version code, WrappedSource.diagnostics_printLog _⟩

end Collage
