import Collage.Proofs.Json.Notation
import Collage.Proofs.Uniform.Extent

/-!
# From the relaxed notation to the strict one

`quoteKeys` goes through a text once and remembers no more than the last character that was no
blank.  On a text that is a value in the relaxed notation this is enough: every string and every
key comes to stand between double quotes and nothing else changes (`quoteKeys_written`), whatever
stands in the strings.

The induction is on the value (`turns`).  What carries it is that a value is followed by a comma, a
closing bracket or the end (`Follows`), never by a colon: so a word where a key may stand is left
alone if it is a value.
-/

namespace Collage
namespace Relaxed

open Json (Note Name Key Margin Blanks BareKey Numeral Spelling separator)

/-! ### Without steps -/

/-- What is written for a text behind the character `last`, blanks aside. -/
def turn (last : Option Char) (text : List Char) : List Char :=
  quoteKeysSteps text.length last text

/-- More steps than characters change nothing. -/
theorem quoteKeysSteps_eq (steps : Nat) (last : Option Char) (text : List Char)
    (enough : text.length ≤ steps) : quoteKeysSteps steps last text = turn last text := by
  have same : ∀ (steps more : Nat) (last : Option Char) (text : List Char),
      text.length ≤ steps → text.length ≤ more →
        quoteKeysSteps steps last text = quoteKeysSteps more last text := by
    intro steps
    induction steps with
    | zero =>
      intro more last text none _
      obtain rfl := List.length_eq_zero_iff.mp (Nat.le_zero.mp none)
      cases more <;> rfl
    | succ steps ih =>
      intro more last text enough enough'
      cases text with
      | nil => cases more <;> rfl
      | cons c rest =>
        obtain ⟨more, rfl⟩ := Nat.exists_eq_succ_of_ne_zero (Nat.ne_zero_of_lt enough')
        rw [List.length_cons, Nat.succ_le_succ_iff] at enough enough'
        have span := length_stringSpan_le c rest
        have word : (rest.dropWhile isKeyPart).length ≤ rest.length :=
          (List.dropWhile_sublist isKeyPart).length_le
        rw [quoteKeysSteps, quoteKeysSteps]
        split
        · dsimp only
          rw [ih more _ _ (by omega) (by omega)]
        · split
          · dsimp only
            rw [ih more _ _ (by omega) (by omega)]
          · rw [ih more _ _ enough enough']
  exact same steps text.length last text enough le_rfl

theorem quoteKeys_eq (text : List Char) : quoteKeys text = turn none text :=
  rfl

theorem turn_nil (last : Option Char) : turn last [] = [] :=
  rfl

theorem turn_quote {c : Char} (quote : c = '"' ∨ c = '\'') (last : Option Char)
    (rest : List Char) :
    turn last (c :: rest) =
      '"' :: ((stringSpan c rest).1 ++ turn (some '"') (stringSpan c rest).2) := by
  have span := length_stringSpan_le c rest
  conv_lhs => rw [turn, List.length_cons, quoteKeysSteps, if_pos quote]
  dsimp only
  rw [quoteKeysSteps_eq _ _ _ (by omega), List.cons_append]

theorem turn_word {c : Char} (start : isKeyStart c = true) {last : Option Char}
    (place : last = some '{' ∨ last = some ',') (rest : List Char) :
    turn last (c :: rest) =
      (if ((rest.dropWhile isKeyPart).dropWhile isBlank).head? = some ':' then
        '"' :: (c :: rest.takeWhile isKeyPart) ++ ['"'] else c :: rest.takeWhile isKeyPart) ++
      turn (c :: rest.takeWhile isKeyPart).getLast? (rest.dropWhile isKeyPart) := by
  have word : (rest.dropWhile isKeyPart).length ≤ rest.length :=
    (List.dropWhile_sublist isKeyPart).length_le
  have noQuote : ¬ (c = '"' ∨ c = '\'') := by
    rintro (rfl | rfl) <;> exact absurd start (by decide)
  conv_lhs => rw [turn, List.length_cons, quoteKeysSteps, if_neg noQuote, if_pos ⟨start, place⟩]
  dsimp only
  rw [quoteKeysSteps_eq _ _ _ word]

theorem turn_other {c : Char} {last : Option Char} (noQuote : ¬ (c = '"' ∨ c = '\''))
    (noKey : ¬ (isKeyStart c = true ∧ (last = some '{' ∨ last = some ','))) (rest : List Char) :
    turn last (c :: rest) = c :: turn (if isBlank c then last else some c) rest := by
  conv_lhs => rw [turn, List.length_cons, quoteKeysSteps, if_neg noQuote, if_neg noKey]
  rfl

theorem turn_mark {c : Char} (mark : c ∈ ['[', ']', '{', '}', ',', ':']) (last : Option Char)
    (rest : List Char) : turn last (c :: rest) = c :: turn (some c) rest := by
  have plain : ¬ (c = '"' ∨ c = '\'') ∧ isKeyStart c = false ∧ isBlank c = false := by
    simp only [List.mem_cons, List.not_mem_nil, or_false] at mark
    rcases mark with rfl | rfl | rfl | rfl | rfl | rfl <;> exact ⟨by decide, rfl, rfl⟩
  obtain ⟨noQuote, noStart, visible⟩ := plain
  rw [turn_other noQuote (by simp [noStart]), visible]
  rfl

theorem isBlank_of_isSpace {c : Char} (space : Json.isSpace c = true) : isBlank c = true := by
  simp only [Json.isSpace, Bool.or_eq_true, decide_eq_true_eq] at space
  rcases space with ((rfl | rfl) | rfl) | rfl <;> decide

/-- Blanks stay and are forgotten. -/
theorem turn_blanks (blanks : Blanks) (last : Option Char) (rest : List Char) :
    turn last (blanks.text ++ rest) = blanks.text ++ turn last rest := by
  obtain ⟨text, all⟩ := blanks
  induction text with
  | nil => rfl
  | cons c text ih =>
    obtain ⟨first, others⟩ := List.forall_mem_cons.mp all
    have plain : ¬ (c = '"' ∨ c = '\'') ∧ isKeyStart c = false := by
      simp only [Json.isSpace, Bool.or_eq_true, decide_eq_true_eq] at first
      rcases first with ((rfl | rfl) | rfl) | rfl <;> decide
    rw [List.cons_append, turn_other plain.1 (by simp [plain.2]),
      if_pos (isBlank_of_isSpace first), List.cons_append]
    exact congrArg (c :: ·) (ih others)

/-! ### Names -/

theorem stringSpan_escaped (quote c : Char) (rest : List Char) :
    stringSpan quote ('\\' :: c :: rest) =
      ('\\' :: c :: (stringSpan quote rest).1, (stringSpan quote rest).2) := by
  rw [stringSpan]

theorem stringSpan_plain {quote c : Char} (backslash : c ≠ '\\') (other : c ≠ quote)
    (rest : List Char) :
    stringSpan quote (c :: rest) =
      ((if c = '"' then ['\\', '"'] else [c]) ++ (stringSpan quote rest).1,
        (stringSpan quote rest).2) := by
  rw [stringSpan, if_neg other]
  · cases stringSpan quote rest
    dsimp only
    split <;> rfl
  · exact fun _ _ same => absurd same backslash

theorem stringSpan_close {quote : Char} (backslash : quote ≠ '\\') (rest : List Char) :
    stringSpan quote (quote :: rest) = (['"'], rest) := by
  rw [stringSpan, if_pos rfl]
  exact fun _ _ same => absurd same backslash

theorem stringSpan_digits (unit : Json.CodeUnit) (rest : List Char) :
    stringSpan '"' (unit.digits ++ rest) =
      (unit.digits ++ (stringSpan '"' rest).1, (stringSpan '"' rest).2) := by
  have all := unit.isSome_hexDigit?
  generalize unit.digits = digits at all
  induction digits with
  | nil => rfl
  | cons c digits ih =>
    obtain ⟨first, others⟩ := List.forall_mem_cons.mp all
    have plain : c ≠ '\\' ∧ c ≠ '"' := by
      constructor <;> rintro rfl <;> exact absurd first (by decide)
    rw [List.cons_append, stringSpan_plain plain.1 plain.2, ih others, if_neg plain.2]
    rfl

/-- A string in the strict notation stays as it is. -/
theorem stringSpan_strokes (strokes : List Json.Stroke) (rest : List Char) :
    stringSpan '"' (strokes.flatMap Json.Stroke.text ++ '"' :: rest) =
      (strokes.flatMap Json.Stroke.text ++ ['"'], rest) := by
  induction strokes with
  | nil => exact stringSpan_close (by decide) rest
  | cons stroke strokes ih =>
    rw [List.flatMap_cons, List.append_assoc, List.append_assoc]
    cases stroke with
    | plain c free =>
      rw [Json.Stroke.text, List.singleton_append, stringSpan_plain free.2.1 free.1, ih,
        if_neg free.1]
    | letter c decoded known =>
      rw [Json.Stroke.text, List.cons_append, List.singleton_append, stringSpan_escaped, ih]
      rfl
    | unit unit =>
      rw [Json.Stroke.text, List.cons_append, List.cons_append, stringSpan_escaped,
        stringSpan_digits unit, ih]
      rfl

/-- A string between single quotes comes to stand between double ones. -/
theorem stringSpan_single (content rest : List Char) :
    stringSpan '\'' (content.flatMap Json.escapeSingle ++ '\'' :: rest) =
      (content.flatMap Json.escapeTurned ++ ['"'], rest) := by
  induction content with
  | nil => exact stringSpan_close (by decide) rest
  | cons c content ih =>
    rw [List.flatMap_cons, List.flatMap_cons, List.append_assoc, List.append_assoc]
    by_cases special : c = '\'' ∨ c = '\\'
    · have notQuote : c ≠ '"' := by
        rintro rfl
        exact absurd special (by decide)
      rw [Json.escapeTurned, if_neg notQuote, Json.escapeSingle, if_pos special, List.cons_append,
        List.singleton_append, stringSpan_escaped, ih]
      rfl
    · rw [not_or] at special
      rw [Json.escapeTurned, Json.escapeSingle, if_neg (by tauto), List.singleton_append,
        stringSpan_plain special.2 special.1, ih]

/-- A name that stands between quotes. -/
theorem turn_quoted (spelling : Spelling) (last : Option Char) (rest : List Char) :
    turn last ((Name.quoted spelling).text ++ rest) =
      (Name.quoted spelling).turned ++ turn (some '"') rest := by
  cases spelling with
  | double strokes =>
    rw [Name.text, List.cons_append, List.append_assoc, List.singleton_append,
      turn_quote (.inl rfl), stringSpan_strokes]
    rfl
  | single content =>
    rw [Name.text, List.cons_append, List.append_assoc, List.singleton_append,
      turn_quote (.inr rfl), stringSpan_single]
    rfl

theorem span_keyParts {word : List Char} (parts : ∀ c ∈ word, isKeyPart c = true)
    {rest : List Char} (stops : ∀ c ∈ rest.head?, isKeyPart c = false) :
    (word ++ rest).takeWhile isKeyPart = word ∧ (word ++ rest).dropWhile isKeyPart = rest := by
  rw [List.takeWhile_append_of_pos parts, List.dropWhile_append_of_pos parts]
  cases rest with
  | nil => exact ⟨List.append_nil word, rfl⟩
  | cons c rest =>
    have other : isKeyPart c = false := stops c rfl
    rw [List.takeWhile_cons, List.dropWhile_cons, other]
    exact ⟨List.append_nil word, rfl⟩

theorem isKeyPart_of_isSpace {c : Char} (space : Json.isSpace c = true) :
    isKeyPart c = false := by
  simp only [Json.isSpace, Bool.or_eq_true, decide_eq_true_eq] at space
  rcases space with ((rfl | rfl) | rfl) | rfl <;> rfl

theorem head?_blanks_append {p : Char → Prop} (blanks : Blanks) {rest : List Char}
    (space : ∀ c, Json.isSpace c = true → p c) (first : ∀ c ∈ rest.head?, p c) :
    ∀ c ∈ (blanks.text ++ rest).head?, p c := by
  obtain ⟨text, all⟩ := blanks
  cases text with
  | nil => exact first
  | cons c text =>
    rintro d ⟨⟩
    exact space c (all c List.mem_cons_self)

theorem dropWhile_blanks (blanks : Blanks) (rest : List Char) :
    (blanks.text ++ rest).dropWhile isBlank = rest.dropWhile isBlank :=
  List.dropWhile_append_of_pos fun c inside => isBlank_of_isSpace (blanks.all c inside)

/-- A bare key in front of its colon. -/
theorem turn_bare (key : BareKey) {last : Option Char}
    (place : last = some '{' ∨ last = some ',') (colon : Blanks) (rest : List Char) :
    ∃ last', turn last (key.text ++ (colon.text ++ ':' :: rest)) =
      (Name.bare key).turned ++ turn last' (colon.text ++ ':' :: rest) := by
  obtain ⟨text, start, parts⟩ := key
  cases text with
  | nil => cases start
  | cons c word =>
    have stops : ∀ d ∈ (colon.text ++ ':' :: rest).head?, isKeyPart d = false :=
      head?_blanks_append colon (fun _ => isKeyPart_of_isSpace) (by rintro d ⟨⟩; rfl)
    obtain ⟨taken, left⟩ := span_keyParts (List.forall_mem_cons.mp parts).2 stops
    refine ⟨(c :: word).getLast?, ?_⟩
    have isColon : ((colon.text ++ ':' :: rest).dropWhile isBlank).head? = some ':' := by
      rw [dropWhile_blanks]
      rfl
    rw [List.cons_append, turn_word start place, taken, left, if_pos isColon]
    rfl

/-- A key, whatever it is written as, behind an opening brace or a comma. -/
theorem turn_key (key : Key) {last : Option Char} (place : last = some '{' ∨ last = some ',')
    (rest : List Char) :
    ∃ last', turn last (key.before.text ++ (key.name.text ++ (key.colon.text ++ ':' :: rest))) =
      key.before.text ++ (key.name.turned ++ (key.colon.text ++ ':' :: turn last' rest)) := by
  refine ⟨some ':', ?_⟩
  rw [turn_blanks]
  match key.name with
  | .quoted spelling => rw [turn_quoted, turn_blanks, turn_mark (by decide)]
  | .bare word =>
    obtain ⟨last', turned⟩ := turn_bare word place key.colon rest
    rw [Name.text, turned, turn_blanks, turn_mark (by decide)]

/-! ### Words and numbers -/

/-- Whether a value may end in front of a text, blanks aside. -/
def Follows (rest : List Char) : Prop :=
  ∃ (blanks : Blanks) (after : List Char), rest = blanks.text ++ after ∧
    ∀ c ∈ after.head?, c ∈ [',', ']', '}']

/-- A character that `quoteKeys` passes over, whatever stands in front of it. -/
def Inert (c : Char) : Prop :=
  c ∉ ['"', '\'', '{', ',']

instance : DecidablePred Inert := fun c => inferInstanceAs (Decidable (c ∉ _))

/-- Behind a character that opens neither a string nor a place for a key, such characters stay. -/
theorem turn_inert (text : List Char) (inert : ∀ c ∈ text, Inert c) {last : Option Char}
    (place : ¬ (last = some '{' ∨ last = some ',')) (rest : List Char) :
    ∃ last', turn last (text ++ rest) = text ++ turn last' rest := by
  induction text generalizing last with
  | nil => exact ⟨last, rfl⟩
  | cons c text ih =>
    obtain ⟨first, others⟩ := List.forall_mem_cons.mp inert
    have noQuote : ¬ (c = '"' ∨ c = '\'') := by
      rintro (rfl | rfl) <;> exact first (by decide)
    have still : ¬ ((if isBlank c then last else some c) = some '{' ∨
        (if isBlank c then last else some c) = some ',') := by
      split
      · exact place
      · rintro (same | same) <;> cases same <;> exact first (by decide)
    obtain ⟨last', turned⟩ := ih others still
    refine ⟨last', ?_⟩
    rw [List.cons_append, turn_other noQuote fun both => place both.2, turned]
    rfl

theorem inert_of_isDigit {c : Char} (digit : c.isDigit = true) : Inert c := by
  unfold Inert
  simp only [List.mem_cons, List.not_mem_nil, or_false]
  rintro (rfl | rfl | rfl | rfl) <;> exact absurd digit (by decide)

theorem inert_of_isKeyPart {c : Char} (part : isKeyPart c = true) : Inert c := by
  unfold Inert
  simp only [List.mem_cons, List.not_mem_nil, or_false]
  rintro (rfl | rfl | rfl | rfl) <;> exact absurd part (by decide)

theorem inert_numeral (numeral : Numeral) : ∀ c ∈ numeral.text, Inert c := by
  intro c inside
  rcases Numeral.mem_text inside with digit | mark
  · exact inert_of_isDigit digit
  · simp only [List.mem_cons, List.not_mem_nil, or_false] at mark
    rcases mark with rfl | rfl | rfl | rfl | rfl <;> decide

/-- A number stays. -/
theorem turn_numeral (numeral : Numeral) (last : Option Char) (rest : List Char) :
    ∃ last', turn last (numeral.text ++ rest) = numeral.text ++ turn last' rest := by
  have inert := inert_numeral numeral
  obtain ⟨c, more, shown, first⟩ := numeral.exists_text
  have plain : ¬ (c = '"' ∨ c = '\'') ∧ isKeyStart c = false ∧ isBlank c = false ∧
      c ≠ '{' ∧ c ≠ ',' := by
    rcases first with rfl | digit
    · decide
    · have other : ∀ d : Char, d.isDigit = false → c ≠ d := by
        rintro d plain rfl
        rw [digit] at plain
        cases plain
      have letter := not_start_of_digit digit
      rw [isIdentifierStart, Bool.or_eq_false_iff] at letter
      refine ⟨?_, ?_, Diagnostic.isBlank_of_isDigit digit, other _ rfl, other _ rfl⟩
      · rintro (rfl | rfl) <;> exact absurd digit (by decide)
      · simp [isKeyStart, letter.1, other '_' rfl, other '$' rfl]
  obtain ⟨noQuote, noStart, visible, place⟩ := plain
  rw [shown] at inert
  have noPlace : ¬ (some c = some '{' ∨ some c = some ',') := by simpa using place
  obtain ⟨last', turned⟩ := turn_inert more (List.forall_mem_cons.mp inert).2 noPlace rest
  refine ⟨last', ?_⟩
  rw [shown, List.cons_append, turn_other noQuote (by simp [noStart]), visible,
    if_neg (by decide), turned]
  rfl

/-- A word stays, also where a key may stand, since no colon follows it. -/
theorem turn_literal {c : Char} {word : List Char} (start : isKeyStart c = true)
    (all : word.all isKeyPart = true) (last : Option Char) {rest : List Char}
    (follows : Follows rest) :
    ∃ last', turn last (c :: (word ++ rest)) = c :: (word ++ turn last' rest) := by
  have parts : ∀ d ∈ word, isKeyPart d = true := List.all_eq_true.mp all
  obtain ⟨blanks, after, rfl, ends⟩ := follows
  by_cases place : last = some '{' ∨ last = some ','
  · have stops : ∀ d ∈ (blanks.text ++ after).head?, isKeyPart d = false := by
      refine head?_blanks_append blanks (fun _ => isKeyPart_of_isSpace) ?_
      intro d first
      have mark := ends d first
      simp only [List.mem_cons, List.not_mem_nil, or_false] at mark
      rcases mark with rfl | rfl | rfl <;> rfl
    have noColon : ¬ ((blanks.text ++ after).dropWhile isBlank).head? = some ':' := by
      rw [dropWhile_blanks]
      cases after with
      | nil => decide
      | cons d after =>
        have mark := ends d rfl
        simp only [List.mem_cons, List.not_mem_nil, or_false] at mark
        rcases mark with rfl | rfl | rfl <;> exact fun colon => by cases colon
    obtain ⟨taken, left⟩ := span_keyParts parts stops
    refine ⟨(c :: word).getLast?, ?_⟩
    rw [turn_word start place, taken, left, if_neg noColon]
    rfl
  · have first : isKeyPart c = true := by
      simp only [isKeyStart, isKeyPart, Char.isAlphanum, Bool.or_eq_true] at start ⊢
      tauto
    have inert : ∀ d ∈ c :: word, Inert d := List.forall_mem_cons.mpr
      ⟨inert_of_isKeyPart first, fun d inside => inert_of_isKeyPart (parts d inside)⟩
    exact turn_inert (c :: word) inert place (blanks.text ++ after)

/-! ### Values -/

theorem follows_items (blanks : Blanks) (form : Name → List Char) (items : List (Margin × Note))
    (rest : List Char) :
    Follows (blanks.text ++ (Note.writtenItems form false items ++ ']' :: rest)) := by
  refine ⟨blanks, _, rfl, ?_⟩
  cases items with
  | nil =>
    rintro c ⟨⟩
    decide
  | cons item items =>
    rintro c ⟨⟩
    decide

theorem follows_entries (blanks : Blanks) (form : Name → List Char)
    (entries : List (Key × Note)) (rest : List Char) :
    Follows (blanks.text ++ (Note.writtenEntries form false entries ++ '}' :: rest)) := by
  refine ⟨blanks, _, rfl, ?_⟩
  cases entries with
  | nil =>
    rintro c ⟨⟩
    decide
  | cons entry entries =>
    rintro c ⟨⟩
    decide

/-- Whether the names of a note come to stand between double quotes, wherever the note stands. -/
def Turns (note : Note) : Prop :=
  ∀ (last : Option Char) {rest : List Char}, Follows rest →
    ∃ last', turn last (note.written Name.text ++ rest) =
      note.written Name.turned ++ turn last' rest

/-- The items of an array, up to the closing bracket. -/
theorem turn_items (rest : List Char) : ∀ {items : List (Margin × Note)},
    (∀ item ∈ items, Turns item.2) → ∀ (first : Bool) (last : Option Char),
      ∃ last', turn last (Note.writtenItems Name.text first items ++ ']' :: rest) =
        Note.writtenItems Name.turned first items ++ ']' :: turn last' rest
  | [], _, first, last => ⟨some ']', turn_mark (by decide) last rest⟩
  | (margin, note) :: items, each, first, last => by
    obtain ⟨head, each⟩ := List.forall_mem_cons.mp each
    have separated : ∃ last', ∀ rest,
        turn last (separator first ++ rest) = separator first ++ turn last' rest := by
      cases first with
      | true => exact ⟨last, fun _ => rfl⟩
      | false => exact ⟨some ',', fun rest => turn_mark (by decide) last rest⟩
    obtain ⟨last₁, separated⟩ := separated
    obtain ⟨last₂, headTurned⟩ := head last₁ (follows_items margin.after Name.text items rest)
    obtain ⟨last₃, turned⟩ := turn_items rest each false last₂
    refine ⟨last₃, ?_⟩
    rw [Note.writtenItems, Note.writtenItems]
    simp only [List.append_assoc]
    rw [separated, turn_blanks, headTurned, turn_blanks, turned]

/-- The entries of an object, up to the closing brace. -/
theorem turn_entries (rest : List Char) : ∀ {entries : List (Key × Note)},
    (∀ entry ∈ entries, Turns entry.2) → ∀ (first : Bool) (last : Option Char),
      (first = true → last = some '{') →
        ∃ last', turn last (Note.writtenEntries Name.text first entries ++ '}' :: rest) =
          Note.writtenEntries Name.turned first entries ++ '}' :: turn last' rest
  | [], _, first, last, _ => ⟨some '}', turn_mark (by decide) last rest⟩
  | (key, note) :: entries, each, first, last, opened => by
    obtain ⟨head, each⟩ := List.forall_mem_cons.mp each
    have separated : ∃ last', (last' = some '{' ∨ last' = some ',') ∧ ∀ rest,
        turn last (separator first ++ rest) = separator first ++ turn last' rest := by
      cases first with
      | true => exact ⟨last, .inl (opened rfl), fun _ => rfl⟩
      | false => exact ⟨some ',', .inr rfl, fun rest => turn_mark (by decide) last rest⟩
    obtain ⟨last₁, place, separated⟩ := separated
    obtain ⟨last₂, keyTurned⟩ := turn_key key place (key.lead.text ++
      (note.written Name.text ++ (key.after.text ++
        (Note.writtenEntries Name.text false entries ++ '}' :: rest))))
    obtain ⟨last₃, headTurned⟩ := head last₂ (follows_entries key.after Name.text entries rest)
    obtain ⟨last₄, turned⟩ := turn_entries rest each false last₃ (by simp)
    refine ⟨last₄, ?_⟩
    rw [Note.writtenEntries, Note.writtenEntries]
    simp only [List.append_assoc, List.cons_append]
    rw [separated, keyTurned, turn_blanks, headTurned, turn_blanks, turned]

/-- **Turning a value in the relaxed notation puts its names between double quotes** and changes
nothing else, whatever stands in its strings. -/
theorem turns (note : Note) : Turns note := by
  intro last rest follows
  induction note generalizing last rest with
  | null => exact @turn_literal 'n' ['u', 'l', 'l'] (by decide) rfl last rest follows
  | bool value =>
    cases value with
    | false =>
      exact @turn_literal 'f' ['a', 'l', 's', 'e'] (by decide) rfl last rest follows
    | true => exact @turn_literal 't' ['r', 'u', 'e'] (by decide) rfl last rest follows
  | number numeral => exact turn_numeral numeral last rest
  | string spelling => exact ⟨some '"', turn_quoted spelling last rest⟩
  | array blanks items each =>
    obtain ⟨last', turned⟩ := turn_items rest each true (some '[')
    refine ⟨last', ?_⟩
    rw [Note.written, Note.written]
    simp only [List.cons_append, List.append_assoc, List.nil_append]
    rw [turn_mark (by decide), turn_blanks, turned]
  | object blanks entries each =>
    obtain ⟨last', turned⟩ := turn_entries rest each true (some '{') (fun _ => rfl)
    refine ⟨last', ?_⟩
    rw [Note.written, Note.written]
    simp only [List.cons_append, List.append_assoc, List.nil_append]
    rw [turn_mark (by decide), turn_blanks, turned]

theorem quoteKeys_written (before after : Blanks) (note : Note) :
    quoteKeys (before.text ++ (note.written Name.text ++ after.text)) =
      before.text ++ (note.written Name.turned ++ after.text) := by
  have follows : Follows (after.text ++ []) := ⟨after, [], rfl, by rintro c ⟨⟩⟩
  obtain ⟨last', turned⟩ := turns note none follows
  rw [turn_blanks, turn_nil, List.append_nil] at turned
  rw [quoteKeys_eq, turn_blanks, turned]

end Relaxed
end Collage
