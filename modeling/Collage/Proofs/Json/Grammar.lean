import Collage.Proofs.Json.Notation

/-!
# What the reader takes is written in the strict notation

Whatever `readValue` takes from the front of a text is a note whose names stand between double
quotes (`exists_note`); with `Note.read_written` the notation is thus exactly what the reader
reads.  The proof follows the reader: each part of it that succeeds leaves behind what it took.
-/

namespace Collage
namespace Json

variable {text rest : List Char}

theorem exists_blanks (text : List Char) :
    ∃ blanks : Blanks, text = blanks.text ++ skipSpace text :=
  ⟨⟨text.takeWhile isSpace, fun _ inside => List.mem_takeWhile_imp inside⟩,
    List.takeWhile_append_dropWhile.symm⟩

theorem exists_of_bind {ε α β : Type} {first : Except ε α} {next : α → Except ε β} {value : β}
    (ok : (do let found ← first; next found) = .ok value) :
    ∃ found, first = .ok found ∧ next found = .ok value := by
  cases first with
  | error fault => cases ok
  | ok found => exact ⟨found, rfl, ok⟩

/-! ### Strings -/

theorem exists_codeUnit {n : Nat} (read : readHex text = .ok (n, rest)) :
    ∃ unit : CodeUnit, text = unit.digits ++ rest := by
  unfold readHex at read
  split at read
  · cases read
  split at read
  · split at read
    · rename_i known
      cases read
      exact ⟨⟨_, _, rfl, known⟩, rfl⟩
    · cases read
  · cases read

/-- A character by its digits takes one half or two. -/
theorem exists_units {c : Char} (read : readUnicode text = .ok (c, rest)) :
    ∃ (unit : CodeUnit) (more : List Stroke),
      text = unit.digits ++ (more.flatMap Stroke.text ++ rest) := by
  unfold readUnicode at read
  obtain ⟨⟨first, back⟩, hex, after⟩ := exists_of_bind read
  obtain ⟨unit, rfl⟩ := exists_codeUnit hex
  refine ⟨unit, ?_⟩
  dsimp only at after
  split at after
  · cases after
  split at after
  · cases after
    exact ⟨[], rfl⟩
  split at after
  · cases after
  · cases after
  · obtain ⟨⟨second, behind⟩, hex, last⟩ := exists_of_bind after
    obtain ⟨low, rfl⟩ := exists_codeUnit hex
    generalize Char.ofNat _ = decoded at last
    split at last
    · cases last
    · cases last
      exact ⟨[.unit low], by rw [List.flatMap_singleton]; rfl⟩
  · cases after

theorem exists_strokes {value : String} : ∀ {fuel : Nat} {seen text : List Char},
    readString fuel seen text = .ok (value, rest) →
      ∃ strokes : List Stroke, text = strokes.flatMap Stroke.text ++ '"' :: rest
  | 0, _, _, read => by cases read
  | _ + 1, _, [], read => by cases read
  | fuel + 1, seen, c :: text, read => by
    unfold readString at read
    split at read
    · rename_i quote
      cases read
      exact ⟨[], by rw [quote]; rfl⟩
    rename_i quote
    split at read
    · rename_i backslash
      subst backslash
      split at read
      · cases read
      · split at read
        · rename_i unicode
          obtain ⟨unit, more, rfl⟩ := exists_units unicode
          obtain ⟨strokes, rfl⟩ := exists_strokes read
          refine ⟨.unit unit :: (more ++ strokes), ?_⟩
          rw [flatMap_unit, List.flatMap_append, List.append_assoc]
        · cases read
      · split at read
        · rename_i known
          obtain ⟨strokes, rfl⟩ := exists_strokes read
          exact ⟨.letter _ _ known :: strokes, rfl⟩
        · cases read
    · rename_i backslash
      split at read
      · cases read
      · rename_i visible
        obtain ⟨strokes, rfl⟩ := exists_strokes read
        exact ⟨.plain c ⟨quote, backslash, by omega⟩ :: strokes, rfl⟩

/-! ### Numbers -/

theorem exists_digits (some : (spanDigits text).1 ≠ []) :
    ∃ digits : Digits, (spanDigits text).1 = digits.text ∧
      text = digits.text ++ (spanDigits text).2 :=
  ⟨⟨text.takeWhile Char.isDigit, some, fun _ inside => List.mem_takeWhile_imp inside⟩, rfl,
    List.takeWhile_append_dropWhile.symm⟩

section

variable {negative : Bool} {json : Json}

theorem exists_power {significand : Nat} {start : Int} {letter : Char}
    (isLetter : letter = 'e' ∨ letter = 'E')
    (read : readExponent negative significand start text = .ok (json, rest)) :
    ∃ exponent : Exponent, letter :: text = exponent.text ++ rest := by
  have sign : ∃ sign, (sign = [] ∨ sign = ['+'] ∨ sign = ['-']) ∧
      text = sign ++ (Decimal.splitSign text).2 := by
    unfold Decimal.splitSign
    split
    · exact ⟨['-'], .inr (.inr rfl), rfl⟩
    · exact ⟨['+'], .inr (.inl rfl), rfl⟩
    · exact ⟨[], .inl rfl, rfl⟩
  obtain ⟨sign, isSign, shown⟩ := sign
  rw [readExponent_eq] at read
  dsimp only at read
  split at read
  · cases read
  rename_i some
  obtain ⟨digits, same, taken⟩ := exists_digits some
  split at read
  · cases read
    refine ⟨⟨letter, isLetter, sign, isSign, digits⟩, ?_⟩
    rw [Exponent.text, List.cons_append, List.append_assoc, ← taken, ← shown]
  · cases read

theorem exists_exponent {significand : Nat} {start : Int}
    (read : finishNumber negative significand start text = .ok (json, rest)) :
    ∃ exponent : Option Exponent, text = exponent.elim [] Exponent.text ++ rest := by
  cases text with
  | nil =>
    rw [finishNumber] at read
    split at read <;> cases read
    exact ⟨none, rfl⟩
  | cons c text =>
    rw [finishNumber] at read
    split at read
    · rename_i letter
      obtain ⟨exponent, shown⟩ := exists_power letter read
      exact ⟨some exponent, shown⟩
    · split at read <;> cases read
      exact ⟨none, rfl⟩

theorem exists_fraction {whole : Significand}
    (read : readPlaces negative whole text = .ok (json, rest)) :
    ∃ (places : Option Digits) (exponent : Option Exponent),
      text = places.elim [] (fun digits => '.' :: digits.text) ++
        (exponent.elim [] Exponent.text ++ rest) := by
  have settled {value : Nat} {back : List Char}
      (read : readMagnitude.settle negative value back = .ok (json, rest)) : back = rest := by
    obtain ⟨found, same⟩ := exists_settle negative value
    rw [same] at read
    cases read
    rfl
  cases text with
  | nil =>
    rw [readPlaces] at read
    split at read
    · exact ⟨none, exists_exponent read⟩
    · exact ⟨none, none, settled read⟩
  | cons c text =>
    rw [readPlaces] at read
    split at read
    · rename_i point
      subst point
      dsimp only at read
      split at read
      · cases read
      rename_i some
      obtain ⟨digits, _, taken⟩ := exists_digits (by simpa using some)
      obtain ⟨exponent, shown⟩ := exists_exponent read
      refine ⟨.some digits, exponent, ?_⟩
      rw [← shown, Option.elim_some, List.cons_append, ← taken]
    · split at read
      · exact ⟨none, exists_exponent read⟩
      · exact ⟨none, none, settled read⟩

theorem exists_numeral (read : readMagnitude negative text = .ok (json, rest)) :
    ∃ numeral : Numeral, numeral.negative = negative ∧ text = numeral.magnitude ++ rest := by
  rw [readMagnitude_eq] at read
  split at read
  · cases read
  rename_i some
  split at read
  · cases read
  rename_i lead
  obtain ⟨digits, same, taken⟩ := exists_digits some
  obtain ⟨places, exponent, shown⟩ := exists_fraction read
  rw [same] at lead
  refine ⟨⟨negative, digits, fun zero => by_contra fun more => lead ⟨zero, more⟩, places, exponent⟩,
    rfl, ?_⟩
  rw [Numeral.magnitude, Numeral.fraction, Numeral.exponentText, List.append_assoc,
    List.append_assoc, ← shown, ← taken]

end

/-! ### Values -/

theorem text_of_readWord {value json : Json} : ∀ {word text : List Char},
    readWord value word text = .ok (json, rest) → text = word ++ rest
  | [], _, read => by
    cases read
    rfl
  | _ :: _, [], read => by cases read
  | expected :: word, c :: text, read => by
    rw [readWord] at read
    split at read
    · rename_i same
      rw [same, text_of_readWord read, List.cons_append]
    · cases read

/-- A value of neither items nor entries. -/
theorem exists_scalar {c : Char} {json : Json} (read : readScalar c text = .ok (json, rest)) :
    ∃ note : Note, note.Each Name.Strict ∧ c :: text = note.written Name.text ++ rest := by
  unfold readScalar at read
  split at read
  · rename_i word
    rw [word, text_of_readWord read]
    exact ⟨.null, trivial, rfl⟩
  split at read
  · rename_i word
    rw [word, text_of_readWord read]
    exact ⟨.bool true, trivial, rfl⟩
  split at read
  · rename_i word
    rw [word, text_of_readWord read]
    exact ⟨.bool false, trivial, rfl⟩
  split at read
  · rename_i quote
    split at read
    · rename_i found
      cases read
      obtain ⟨strokes, rfl⟩ := exists_strokes found
      refine ⟨.string (.double strokes), trivial, ?_⟩
      rw [quote, Note.written, Name.text, List.cons_append, List.append_assoc,
        List.singleton_append]
    · cases read
  split at read
  · rename_i minus
    obtain ⟨numeral, negative, rfl⟩ := exists_numeral read
    refine ⟨.number numeral, trivial, ?_⟩
    rw [minus, Note.written, Numeral.text, if_pos negative]
    rfl
  split at read
  · obtain ⟨numeral, positive, same⟩ := exists_numeral read
    refine ⟨.number numeral, trivial, ?_⟩
    rw [same, Note.written, Numeral.text, if_neg (by simp [positive])]
    rfl
  · cases read

/-- Whether what is taken in so many steps is written in the strict notation. -/
def TakesNotes (fuel : Nat) : Prop :=
  ∀ {depth : Nat} {text rest : List Char} {json : Json},
    readValue fuel depth text = .ok (json, rest) →
      ∃ (blanks : Blanks) (note : Note), note.Each Name.Strict ∧
        text = blanks.text ++ (note.written Name.text ++ rest)

theorem exists_end {first : Bool} (read : readNext first text = .ok (false, rest)) :
    ∃ blanks : Blanks, text = blanks.text ++ ']' :: rest := by
  obtain ⟨blanks, shown⟩ := exists_blanks text
  refine ⟨blanks, ?_⟩
  unfold readNext at read
  split at read
  · cases read
  · rename_i closing
    cases read
    rwa [closing] at shown
  · split at read
    · cases read
    split at read
    · split at read <;> cases read
    · cases read

/-- Behind the comma, blanks make no difference to what is read. -/
theorem exists_item {first : Bool} (read : readNext first text = .ok (true, rest)) :
    ∃ (blanks : Blanks) (back : List Char), text = blanks.text ++ (separator first ++ back) ∧
      ∀ fuel depth, readValue fuel depth back = readValue fuel depth rest := by
  obtain ⟨blanks, shown⟩ := exists_blanks text
  unfold readNext at read
  split at read
  · cases read
  · cases read
  rename_i c more _ visible
  split at read
  · rename_i opened
    cases read
    exact ⟨blanks, c :: more, by rwa [opened, ← visible], fun _ _ => rfl⟩
  rename_i going
  split at read
  · rename_i comma
    refine ⟨blanks, more, ?_, ?_⟩
    · rw [visible, comma] at shown
      rwa [separator, if_neg going]
    · intro fuel depth
      split at read <;> cases read
      rw [readValue_skipSpace]
  · cases read

theorem exists_colon (read : readColon text = .ok rest) :
    ∃ blanks : Blanks, text = blanks.text ++ ':' :: rest := by
  obtain ⟨blanks, shown⟩ := exists_blanks text
  refine ⟨blanks, ?_⟩
  unfold readColon at read
  split at read
  · cases read
  · rename_i colon
    cases read
    rwa [colon] at shown
  · cases read

/-- What an object goes on with: its end, or a key between double quotes. -/
theorem exists_keyOnly {first : Bool} {key : Option String}
    (read : readKeyOnly first text = .ok (key, rest)) :
    ∃ blanks : Blanks, (key = none ∧ text = blanks.text ++ '}' :: rest) ∨
      ∃ (before : Blanks) (strokes : List Stroke), key.isSome = true ∧
        text = blanks.text ++ (separator first ++
          (before.text ++ ((Name.quoted (.double strokes)).text ++ rest))) := by
  -- what the reader does with the text behind a quote
  have quoted {inner : List Char} (last : (readString (inner.length + 1) [] inner >>=
      fun found => pure (some found.1, found.2)) = Except.ok (key, rest)) :
      ∃ strokes : List Stroke, key.isSome = true ∧
        '"' :: inner = (Name.quoted (.double strokes)).text ++ rest := by
    obtain ⟨⟨value, behind⟩, string, last⟩ := exists_of_bind last
    cases last
    obtain ⟨strokes, rfl⟩ := exists_strokes string
    refine ⟨strokes, rfl, ?_⟩
    rw [Name.text, List.cons_append, List.append_assoc, List.singleton_append]
  obtain ⟨blanks, shown⟩ := exists_blanks text
  refine ⟨blanks, ?_⟩
  unfold readKeyOnly at read
  split at read
  · cases read
  · rename_i closing
    cases read
    exact .inl ⟨rfl, by rwa [closing] at shown⟩
  rename_i c back _ visible
  rw [visible] at shown
  right
  split at read
  · rename_i opened
    simp only [pure_bind] at read
    split at read
    · next isQuote =>
      obtain ⟨strokes, some, same⟩ := quoted read
      exact ⟨⟨[], List.forall_mem_nil _⟩, strokes, some, by rw [shown, isQuote, same, opened]; rfl⟩
    · cases read
  rename_i going
  split at read
  · rename_i comma
    obtain ⟨before, spaced⟩ := exists_blanks back
    split at read
    · cases read
    · simp only [pure_bind] at read
      split at read
      · next isQuote =>
        obtain ⟨strokes, some, same⟩ := quoted read
        exact ⟨before, strokes, some, by
          rw [shown, comma, separator, if_neg going, ← same, ← isQuote, ← spaced]; rfl⟩
      · cases read
  · cases read

theorem exists_close {first : Bool} (read : readKey first text = .ok (none, rest)) :
    ∃ blanks : Blanks, text = blanks.text ++ '}' :: rest := by
  unfold readKey at read
  obtain ⟨⟨key, back⟩, only, last⟩ := exists_of_bind read
  cases key with
  | none =>
    cases last
    obtain ⟨blanks, ⟨_, shown⟩ | ⟨_, _, some, _⟩⟩ := exists_keyOnly only
    · exact ⟨blanks, shown⟩
    · cases some
  | some key =>
    obtain ⟨_, _, last⟩ := exists_of_bind last
    cases last

/-- A key stands between double quotes. -/
theorem exists_key {first : Bool} {key : String}
    (read : readKey first text = .ok (some key, rest)) :
    ∃ (blanks before colon : Blanks) (strokes : List Stroke), text = blanks.text ++
      (separator first ++ (before.text ++ ((Name.quoted (.double strokes)).text ++
        (colon.text ++ ':' :: rest)))) := by
  unfold readKey at read
  obtain ⟨⟨found, back⟩, only, last⟩ := exists_of_bind read
  cases found with
  | none => cases last
  | some found =>
    obtain ⟨behind, found, last⟩ := exists_of_bind last
    cases last
    obtain ⟨colon, rfl⟩ := exists_colon found
    obtain ⟨blanks, ⟨none, _⟩ | ⟨before, strokes, _, shown⟩⟩ := exists_keyOnly only
    · cases none
    · exact ⟨blanks, before, colon, strokes, shown⟩

/-- The items of an array behind blanks, with what ends the array. -/
theorem exists_items {bound : Nat} (each : ∀ fuel < bound, TakesNotes fuel) {depth : Nat} :
    ∀ {fuel : Nat} {first : Bool} {seen values : List Json} {text : List Char}, fuel ≤ bound →
      readItems fuel depth first seen text = .ok (values, rest) →
        ∃ (blanks : Blanks) (items : List (Margin × Note)), Note.EachItem Name.Strict items ∧
          text = blanks.text ++ (Note.writtenItems Name.text first items ++ ']' :: rest)
  | 0, _, _, _, _, _, read => by
    rw [readItems] at read
    cases read
  | fuel + 1, first, seen, values, text, most, read => by
    rw [readItems] at read
    split at read
    · cases read
    · rename_i closed
      cases read
      obtain ⟨blanks, shown⟩ := exists_end closed
      exact ⟨blanks, [], trivial, shown⟩
    · rename_i next
      obtain ⟨blanks, back, rfl, same⟩ := exists_item next
      split at read
      · cases read
      · rename_i found
        rw [← same] at found
        obtain ⟨before, note, strict, rfl⟩ := each fuel (by omega) found
        obtain ⟨after, items, others, rfl⟩ := exists_items each (by omega) read
        refine ⟨blanks, (⟨before, after⟩, note) :: items, ⟨strict, others⟩, ?_⟩
        rw [Note.writtenItems]
        simp only [List.append_assoc]

/-- The entries of an object behind blanks, with what ends the object. -/
theorem exists_entries {bound : Nat} (each : ∀ fuel < bound, TakesNotes fuel) {depth : Nat} :
    ∀ {fuel : Nat} {first : Bool} {seen values : List (String × Json)} {text : List Char},
      fuel ≤ bound → readEntries fuel depth first seen text = .ok (values, rest) →
        ∃ (blanks : Blanks) (entries : List (Key × Note)),
          Note.EachEntry Name.Strict entries ∧
            text = blanks.text ++ (Note.writtenEntries Name.text first entries ++ '}' :: rest)
  | 0, _, _, _, _, _, read => by
    rw [readEntries] at read
    cases read
  | fuel + 1, first, seen, values, text, most, read => by
    rw [readEntries] at read
    split at read
    · cases read
    · rename_i closed
      cases read
      obtain ⟨blanks, shown⟩ := exists_close closed
      exact ⟨blanks, [], trivial, shown⟩
    · rename_i next
      obtain ⟨blanks, before, colon, strokes, rfl⟩ := exists_key next
      split at read
      · cases read
      · rename_i found
        obtain ⟨lead, note, strict, rfl⟩ := each fuel (by omega) found
        obtain ⟨after, entries, others, rfl⟩ := exists_entries each (by omega) read
        refine ⟨blanks, (⟨before, .quoted (.double strokes), colon, lead, after⟩, note) :: entries,
          ⟨trivial, strict, others⟩, ?_⟩
        rw [Note.writtenEntries]
        simp only [List.append_assoc, List.cons_append]

/-- **What is read is written in the strict notation.** -/
theorem exists_note (fuel : Nat) : TakesNotes fuel := by
  induction fuel using Nat.strongRecOn with
  | ind fuel each =>
    intro depth text rest json read
    obtain ⟨blanks, shown⟩ := exists_blanks text
    cases fuel with
    | zero =>
      rw [readValue] at read
      cases read
    | succ fuel =>
      have each : ∀ less < fuel, TakesNotes less := fun less most => each less (by omega)
      rw [readValue] at read
      split at read
      · cases read
      rename_i c back visible
      rw [visible] at shown
      split at read
      · rename_i bracket
        split at read
        · cases read
        split at read
        · rename_i found
          cases read
          obtain ⟨inside, items, strict, rfl⟩ := exists_items each le_rfl found
          refine ⟨blanks, .array inside items, strict, ?_⟩
          rw [shown, bracket, Note.written]
          simp only [List.cons_append, List.append_assoc, List.nil_append]
        · cases read
      split at read
      · rename_i brace
        split at read
        · cases read
        split at read
        · rename_i found
          cases read
          obtain ⟨inside, entries, strict, rfl⟩ := exists_entries each le_rfl found
          refine ⟨blanks, .object inside entries, strict, ?_⟩
          rw [shown, brace, Note.written]
          simp only [List.cons_append, List.append_assoc, List.nil_append]
        · cases read
      · obtain ⟨note, strict, same⟩ := exists_scalar read
        exact ⟨blanks, note, strict, by rw [shown, same]⟩

/-- **A text is read only if it is a value in the strict notation**, blanks around it aside, and
what is read of it is the value. -/
theorem exists_of_read {text : String} {value : Json} (ok : read text = .ok value) :
    ∃ (before after : Blanks) (note : Note), note.Each Name.Strict ∧
      text.toList = before.text ++ (note.written Name.text ++ after.text) ∧
        note.read? depthLimit = some value := by
  have whole := congrArg Except.toOption ok
  unfold read readFront at ok
  obtain ⟨⟨found, rest⟩, front, ok⟩ := exists_of_bind ok
  obtain ⟨before, note, strict, shown⟩ := exists_note _ front
  obtain ⟨_, ended, _⟩ := exists_of_bind ok
  have blank : skipSpace rest = [] := by
    unfold expectEnd at ended
    split at ended
    · rename_i empty
      exact List.isEmpty_iff.mp empty
    · cases ended
  have turned : note.written Name.text = note.written Name.turned :=
    note.written_congr (strict.imp fun _ strict => (Name.turned_of_strict strict).symm)
  refine ⟨before, ⟨rest, List.dropWhile_eq_nil_iff.mp blank⟩, note, strict, shown, ?_⟩
  rw [← Note.read_written before ⟨rest, List.dropWhile_eq_nil_iff.mp blank⟩ note, ← turned,
    ← shown, String.ofList_toList]
  exact whole

end Json
end Collage
