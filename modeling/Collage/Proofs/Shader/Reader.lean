import Collage.Proofs.Shader.Spelling

/-!
# Names outside comments

A `Reader` goes through code character by character and knows of words, numbers and comments
only; a preprocessor line is code to it like any other.  A source `Names` what begins in a
certain way if the reader comes to such a word outside comments.

`mentions` goes by the lexemes instead, and two sorts of them can have names inside that it does
not see (`Swallows`): a preprocessor line, and a hexadecimal number, which is taken to go on
behind a sign when its last digit looks like the letter of an exponent.  As long as nothing that
begins in such a lexeme goes on behind it (`Legible`), these are all the names that are missed
(`names_iff`), so that what is mentioned can be relied on where names that are swallowed also stand
elsewhere (`Shows`).
-/

namespace Collage

/-! ### The reader -/

/-- What is known of a number from what was read of it. -/
inductive NumberPart
  /-- it begins with a zero -/
  | zero
  | decimal
  /-- its last letter is that of an exponent -/
  | exponent
  | hexadecimal
  deriving Repr, DecidableEq

/-- How a number goes on with a character that belongs to it.  A sign does so behind the letter
of an exponent; hexadecimal numbers have no exponents. -/
def NumberPart.next? (part : NumberPart) (c : Char) : Option NumberPart :=
  if c.isAlphanum || c = '.' then
    some (if part = .hexadecimal || part = .zero && (c = 'x' || c = 'X') then .hexadecimal
      else if c = 'e' || c = 'E' then .exponent
      else .decimal)
  else if (c = '+' || c = '-') && part = .exponent then some .decimal
  else none

/-- What a reader of code is in. -/
inductive Reader
  /-- neither a comment nor a word nor a number -/
  | code
  /-- behind a stroke that may open a comment -/
  | stroke
  | lineComment
  /-- a block comment, behind a star or not -/
  | blockComment (star : Bool)
  | word
  | number (part : NumberPart)
  deriving Repr, DecidableEq

namespace Reader

/-- What a reader is in after a character that belongs to what it was in. -/
def goOn? : Reader → Char → Option Reader
  | code, _ => none
  | stroke, c =>
    if c = '/' then some lineComment else if c = '*' then some (blockComment false) else none
  | lineComment, c => if c = '\n' then none else some lineComment
  | blockComment star, c => some (if star && c = '/' then code else blockComment (c = '*'))
  | word, c => if isIdentifierPart c then some word else none
  | number part, c => (part.next? c).map number

/-- What begins with a character. -/
def opened (c : Char) : Reader :=
  if isIdentifierStart c then word
  else if c.isDigit then number (if c = '0' then .zero else .decimal)
  else if c = '/' then stroke
  else code

def step (reader : Reader) (c : Char) : Reader :=
  (reader.goOn? c).getD (opened c)

/-- What a reader is in after a text. -/
def run (reader : Reader) (text : List Char) : Reader :=
  text.foldl step reader

/-- The names that a reader comes to. -/
def words (reader : Reader) : List Char → List (List Char)
  | [] => []
  | c :: rest =>
    let later := (reader.step c).words rest
    if reader.goOn? c = none ∧ isIdentifierStart c then
      (c :: rest.takeWhile isIdentifierPart) :: later
    else later

end Reader

/-- Whether a name that begins with `start` stands in a source, outside comments. -/
def Names (source start : List Char) : Prop :=
  ∃ front c back, source = front ++ c :: back ∧
    (Reader.code.run front).goOn? c = none ∧ isIdentifierStart c = true ∧
    start <+: c :: back.takeWhile isIdentifierPart

namespace Reader

variable {reader : Reader} {c : Char} {text rest front back name : List Char}

theorem words_cons_of_goOn {next : Reader} (go : reader.goOn? c = some next) :
    reader.words (c :: rest) = next.words rest := by
  simp [words, step, go]

theorem words_cons_of_not_start (other : isIdentifierStart c = false) :
    reader.words (c :: rest) = (reader.step c).words rest := by
  simp [words, other]

theorem mem_words_cons : name ∈ reader.words (c :: rest) ↔
    (reader.goOn? c = none ∧ isIdentifierStart c = true ∧
      name = c :: rest.takeWhile isIdentifierPart) ∨ name ∈ (reader.step c).words rest := by
  rw [words]
  split
  · next begins => simp [begins]
  · next not =>
    refine (or_iff_right ?_).symm
    rintro ⟨none, start, -⟩
    exact not ⟨none, start⟩

/-- The names that a reader comes to are those that begin where nothing goes on. -/
theorem mem_words_iff : ∀ {reader : Reader} {text : List Char}, name ∈ reader.words text ↔
    ∃ front c back, text = front ++ c :: back ∧ (reader.run front).goOn? c = none ∧
      isIdentifierStart c = true ∧ name = c :: back.takeWhile isIdentifierPart
  | reader, [] => by simp [words]
  | reader, c :: rest => by
    rw [mem_words_cons, mem_words_iff]
    constructor
    · rintro (⟨none, start, rfl⟩ | ⟨front, d, back, rfl, begins⟩)
      · exact ⟨[], c, rest, rfl, none, start, rfl⟩
      · exact ⟨c :: front, d, back, rfl, begins⟩
    · rintro ⟨_ | ⟨_, front⟩, d, back, same, begins⟩
      · obtain ⟨rfl, rfl⟩ := List.cons.inj same
        exact .inl begins
      · obtain ⟨rfl, rfl⟩ := List.cons.inj same
        exact .inr ⟨front, d, back, rfl, begins⟩

/-! ### Texts put together -/

/-- Whether nothing that a reader is in goes on in a text. -/
def Rests (reader : Reader) (text : List Char) : Prop :=
  ∀ c ∈ text.head?, reader.goOn? c = none

theorem words_of_rests (rests : reader.Rests text) : reader.words text = code.words text := by
  cases text with
  | nil => rfl
  | cons c rest =>
    have none := rests c rfl
    have same : reader.step c = code.step c := by
      unfold step
      rw [none]
      rfl
    rw [words, words, same, none]
    rfl

/-- A name is read to its end before the reader comes to what stands behind it. -/
theorem takeWhile_of_rests (rests : (Reader.word.run front).Rests back) :
    (front ++ back).takeWhile isIdentifierPart = front.takeWhile isIdentifierPart := by
  induction front with
  | nil =>
    cases back with
    | nil => rfl
    | cons c rest =>
      have none := rests c rfl
      cases part : isIdentifierPart c with
      | false => simp [part]
      | true => simp [run, goOn?, part] at none
  | cons c rest ih =>
    cases part : isIdentifierPart c with
    | false => simp [part]
    | true =>
      have go : Reader.word.step c = Reader.word := by simp [step, goOn?, part]
      have later := ih (by rwa [run, List.foldl_cons, go] at rests)
      rw [List.cons_append, List.takeWhile_cons_of_pos part, List.takeWhile_cons_of_pos part, later]

theorem words_append : ∀ {reader : Reader} {front : List Char},
    (reader.run front).Rests back →
      reader.words (front ++ back) = reader.words front ++ code.words back
  | reader, [], rests => words_of_rests rests
  | reader, c :: rest, rests => by
    have later : (reader.step c).words (rest ++ back) =
        (reader.step c).words rest ++ code.words back := words_append rests
    rw [List.cons_append, words, words, later]
    split
    · next begins =>
      have opens : reader.step c = Reader.word := by
        simp [step, begins.1, opened, begins.2]
      rw [takeWhile_of_rests (by rwa [run, List.foldl_cons, opens] at rests), List.cons_append]
    · rfl

/-! ### Comments -/

theorem lineComment_words (text : List Char) (inside : ∀ c ∈ text, c ≠ '\n') :
    lineComment.words text = [] ∧ lineComment.run text = lineComment := by
  induction text with
  | nil => exact ⟨rfl, rfl⟩
  | cons c rest ih =>
    have go : lineComment.goOn? c = some lineComment := if_neg (inside c List.mem_cons_self)
    obtain ⟨words, run⟩ := ih fun d among => inside d (List.mem_cons_of_mem c among)
    rw [words_cons_of_goOn go, Reader.run, List.foldl_cons, step, go]
    exact ⟨words, run⟩

/-- A reader behind a star has not just come to the end of the comment. -/
theorem blockComment_words (text : List Char) (star : Bool)
    (open' : star = true → text.head? ≠ some '/') :
    (blockComment star).words (Lexeme.blockSpan text).1 = [] ∧
      ((Lexeme.blockSpan text).2 = [] ∨
        (blockComment star).run (Lexeme.blockSpan text).1 = code) := by
  fun_induction Lexeme.blockSpan text generalizing star with
  | case1 rest => cases star <;> exact ⟨rfl, .inr rfl⟩
  | case2 => exact ⟨rfl, .inl rfl⟩
  | case3 c rest notEnd text after span ih =>
    have go : (blockComment star).goOn? c = some (blockComment (c = '*')) := by
      rw [goOn?, if_neg]
      simp only [Bool.and_eq_true, decide_eq_true_eq, not_and]
      rintro behind rfl
      exact open' behind rfl
    obtain ⟨words, after⟩ := ih (c = '*') fun behind slash => by
      obtain ⟨more, rfl⟩ := List.head?_eq_some_iff.mp slash
      exact notEnd more (of_decide_eq_true behind) rfl
    rw [span] at words after
    rw [words_cons_of_goOn go, run, List.foldl_cons, step, go]
    exact ⟨words, after⟩

/-! ### Words, numbers and marks -/

theorem word_words (text : List Char) (parts : ∀ c ∈ text, isIdentifierPart c = true) :
    Reader.word.words text = [] ∧ Reader.word.run text = Reader.word := by
  induction text with
  | nil => exact ⟨rfl, rfl⟩
  | cons c rest ih =>
    have go : Reader.word.goOn? c = some Reader.word := if_pos (parts c List.mem_cons_self)
    obtain ⟨words, run⟩ := ih fun d among => parts d (List.mem_cons_of_mem c among)
    rw [words_cons_of_goOn go, Reader.run, List.foldl_cons, step, go]
    exact ⟨words, run⟩

theorem opened_of_not_part (other : isIdentifierPart c = false) :
    isIdentifierStart c = false ∧ opened c = if c = '/' then stroke else code := by
  have notStart : isIdentifierStart c = false := by
    rw [Bool.eq_false_iff] at other ⊢
    exact fun start => other (isIdentifierPart_of_start start)
  have notDigit : c.isDigit = false := by
    rw [Bool.eq_false_iff] at other ⊢
    exact fun digit => other (isIdentifierPart_of_digit digit)
  exact ⟨notStart, by simp [opened, notStart, notDigit]⟩

/-- What a reader can be in behind the characters of a number. -/
inductive InNumber (text : List Char) : Reader → Prop
  | code : InNumber text code
  | word : InNumber text word
  | number {part : NumberPart} :
      (part = .exponent → text.getLast? = some 'e' ∨ text.getLast? = some 'E') →
      InNumber text (number part)

/-- Whether a character can stand in a number. -/
def isNumberPart (c : Char) : Bool :=
  c.isAlphanum || c = '.' || c = '+' || c = '-'

theorem InNumber.step (h : InNumber text reader) (inside : isNumberPart c = true) :
    InNumber (text ++ [c]) (reader.step c) := by
  have opens : InNumber (text ++ [c]) (opened c) := by
    unfold opened
    split
    · exact .word
    · split
      · refine .number ?_
        split <;> exact fun other => by cases other
      · split
        · next slash =>
          rw [slash] at inside
          exact absurd inside (by decide)
        · exact .code
  cases h with
  | code => exact opens
  | word =>
    cases part : isIdentifierPart c with
    | true => simpa [Reader.step, goOn?, part] using InNumber.word
    | false => simpa [Reader.step, goOn?, part] using opens
  | @number part ends =>
    cases more : part.next? c with
    | none => simpa [Reader.step, goOn?, more] using opens
    | some next =>
      have same : (Reader.number part).step c = .number next := by simp [Reader.step, goOn?, more]
      rw [same]
      refine .number ?_
      rintro rfl
      rw [List.getLast?_concat, Option.some.injEq, Option.some.injEq]
      unfold NumberPart.next? at more
      split at more
      · simp only [Option.some.injEq] at more
        split at more
        · cases more
        · split at more
          · next letter => simpa using letter
          · cases more
      · split at more <;> cases more

theorem inNumber_run (text : List Char) (inside : ∀ c ∈ text, isNumberPart c = true) :
    InNumber text (code.run text) := by
  induction text using List.reverseRecOn with
  | nil => exact .code
  | append_singleton text c ih =>
    rw [run, List.foldl_append]
    exact (ih fun d among => inside d (List.mem_append_left _ among)).step
      (inside c (List.mem_append_right _ (List.mem_singleton_self c)))

/-- A number stops only before what does not belong to it, even if it has a name inside. -/
theorem InNumber.rests (h : InNumber text reader) {d : Char}
    (other : d.isAlphanum = false) (point : d ≠ '.')
    (sign : (d = '+' ∨ d = '-') → ∀ e ∈ text.getLast?, e ≠ 'e' ∧ e ≠ 'E')
    (name : reader = .word → d ≠ '_') : reader.goOn? d = none := by
  cases h with
  | code => rfl
  | word => simp [goOn?, isIdentifierPart, other, name rfl]
  | @number part ends =>
    simp only [goOn?, Option.map_eq_none_iff, NumberPart.next?, other, point, decide_false,
      Bool.or_self, Bool.false_eq_true, if_false, ite_eq_right_iff, Bool.and_eq_true,
      Bool.or_eq_true, decide_eq_true_eq, reduceCtorEq, imp_false, not_and]
    rintro signed rfl
    have no := sign signed
    rcases ends rfl with last | last <;> rw [last] at no <;> simp at no

end Reader

/-! ### Reading lexemes -/

namespace Lexeme

open Reader

variable {lineStart : Bool} {c : Char} {rest after : List Char} {lexeme : Lexeme}

/-- Whether nothing that begins in a lexeme goes on in the text behind it: no comment behind a
preprocessor line, and no name behind a number. -/
def isClosed (lexeme : Lexeme) (behind : List Char) : Bool :=
  match lexeme.kind, code.run lexeme.text with
  | .directive, .blockComment _ => false
  | .number, .word => behind.head? ≠ some '_'
  | _, _ => true

/-- A number that is written to the base sixteen. -/
def IsHexadecimal (lexeme : Lexeme) : Prop :=
  lexeme.kind = .number ∧ ('x' ∈ lexeme.text ∨ 'X' ∈ lexeme.text)

/-- A span has the characters of a number, and goes on as long as it can. -/
theorem numberSpan_exact (previous : Char) (text : List Char) :
    (∀ d ∈ (numberSpan previous text).1, isNumberPart d = true) ∧
      ∀ d ∈ (numberSpan previous text).2.head?, d.isAlphanum = false ∧ d ≠ '.' ∧
        ((d = '+' ∨ d = '-') → ∀ e ∈ (previous :: (numberSpan previous text).1).getLast?,
          e ≠ 'e' ∧ e ≠ 'E') := by
  fun_induction numberSpan previous text with
  | case1 => simp
  | case2 previous c rest sign go text after span ih =>
    rw [span] at ih
    refine ⟨?_, by simpa [List.getLast?_cons_cons] using ih.2⟩
    rintro d (_ | ⟨_, among⟩)
    · simp only [sign, Bool.or_eq_true, Bool.and_eq_true, decide_eq_true_eq] at go
      simp only [isNumberPart, Bool.or_eq_true, decide_eq_true_eq]
      tauto
    · exact ih.1 d among
  | case3 previous c rest sign stop =>
    refine ⟨by simp, ?_⟩
    rintro d ⟨⟩
    simp only [sign, Bool.or_eq_true, Bool.and_eq_true, decide_eq_true_eq, not_or, not_and,
      Bool.not_eq_true] at stop
    refine ⟨stop.1.1, stop.1.2, fun signed e last => ?_⟩
    obtain rfl : previous = e := by simpa using last
    exact stop.2 signed

/-- A reader goes along with the span of a number to the base ten. -/
theorem numberSpan_words (previous : Char) (text : List Char) {part : NumberPart}
    (decimal : part ≠ .hexadecimal) (agrees : previous = 'e' ∨ previous = 'E' → part = .exponent)
    (plain : ∀ d ∈ (numberSpan previous text).1, d ≠ 'x' ∧ d ≠ 'X') :
    (Reader.number part).words (numberSpan previous text).1 = [] := by
  fun_induction numberSpan previous text generalizing part with
  | case1 | case3 => rfl
  | case2 =>
    rename_i previous c rest sign go text after span ih
    rw [span] at ih
    have here := plain c List.mem_cons_self
    have later := fun d among => plain d (List.mem_cons_of_mem c among)
    cases more : c.isAlphanum || decide (c = '.') with
    | true =>
      have next : (Reader.number part).goOn? c =
          some (.number (if c = 'e' ∨ c = 'E' then .exponent else .decimal)) := by
        simp [goOn?, NumberPart.next?, more, decimal, here]
      rw [words_cons_of_goOn next]
      refine ih ?_ ?_ later
      · split <;> simp
      · exact fun letter => if_pos letter
    | false =>
      rw [more, Bool.false_or] at go
      simp only [sign, Bool.and_eq_true, Bool.or_eq_true, decide_eq_true_eq] at go
      have next : (Reader.number part).goOn? c = some (.number .decimal) := by
        simp [goOn?, NumberPart.next?, more, go.1, agrees go.2]
      rw [words_cons_of_goOn next]
      refine ih (by simp) ?_ later
      rintro (rfl | rfl) <;> cases more

/-- **Only a hexadecimal number can have a name inside.** -/
theorem Cut.words_of_number (h : Cut lineStart c rest lexeme after) (number : lexeme.kind = .number)
    (plain : ¬ lexeme.IsHexadecimal) : code.words lexeme.text = [] := by
  cases h with
  | number begins =>
    have plain : ∀ d ∈ c :: (numberSpan c rest).1, d ≠ 'x' ∧ d ≠ 'X' := by
      obtain ⟨small, large⟩ := not_or.mp (not_and.mp plain rfl)
      exact fun d among => ⟨fun same => small (same ▸ among), fun same => large (same ▸ among)⟩
    -- what begins with a digit
    have digits : ∀ (d : Char) (more : List Char), d.isDigit = true →
        (∀ e ∈ (numberSpan d more).1, e ≠ 'x' ∧ e ≠ 'X') →
        code.words (d :: (numberSpan d more).1) = [] := by
      intro d more digit plain
      have notStart := not_start_of_digit digit
      have opens : code.step d = .number (if d = '0' then .zero else .decimal) := by
        simp [step, goOn?, opened, notStart, digit]
      rw [words_cons_of_not_start notStart, opens]
      refine numberSpan_words d more ?_ ?_ plain
      · split <;> simp
      · rintro (rfl | rfl) <;> cases digit
    rcases begins with digit | ⟨rfl, digit⟩
    · exact digits c rest digit fun d among => plain d (List.mem_cons_of_mem c among)
    · obtain ⟨d, more, rfl, isDigit⟩ : ∃ d more, rest = d :: more ∧ d.isDigit = true := by
        cases rest with
        | nil => cases digit
        | cons d more => exact ⟨d, more, rfl, by simpa using digit⟩
      have goes : (numberSpan '.' (d :: more)).1 = d :: (numberSpan d more).1 := by
        simp [numberSpan, Char.isAlphanum, isDigit]
      rw [goes] at plain
      change code.words ('.' :: (numberSpan '.' (d :: more)).1) = []
      rw [goes]
      exact digits d more isDigit fun e among =>
        plain e (List.mem_cons_of_mem _ (List.mem_cons_of_mem _ among))
  | _ => cases number

/-- What a lexeme is to a reader that begins with it. -/
structure Read (lexeme : Lexeme) (after : List Char) : Prop where
  words : code.words lexeme.text =
    match lexeme.kind with
    | .identifier => [lexeme.text]
    | .directive | .number => code.words lexeme.text
    | _ => []
  /-- the reader is done with it at its end -/
  rests : (after ≠ [] → lexeme.isClosed after = true) → (code.run lexeme.text).Rests after

/-- A single character that begins nothing. -/
theorem read_single {kind : LexemeKind} (other : isIdentifierPart c = false)
    (kinds : kind = .blank ∨ kind = .mark)
    (comment : ¬ (c = '/' ∧ (after.head? = some '/' ∨ after.head? = some '*'))) :
    Read ⟨kind, [c]⟩ after := by
  obtain ⟨notStart, opens⟩ := opened_of_not_part other
  refine ⟨?_, fun _ d first => ?_⟩
  · have none : code.words [c] = [] := words_cons_of_not_start notStart
    rcases kinds with rfl | rfl <;> exact none
  · change (opened c).goOn? d = none
    rw [opens]
    rw [Option.mem_def.mp first] at comment
    split
    · next slash =>
      simp only [slash, true_and, Option.some.injEq, not_or] at comment
      simp [goOn?, comment]
    · rfl

theorem read_lineComment (rest : List Char) :
    Read ⟨.comment, '/' :: '/' :: rest.takeWhile (· ≠ '\n')⟩ (rest.dropWhile (· ≠ '\n')) := by
  obtain ⟨words, run⟩ := lineComment_words (rest.takeWhile (· ≠ '\n'))
    fun d among => by simpa using List.mem_takeWhile_imp among
  refine ⟨words, fun _ d first => ?_⟩
  have line : d = '\n' := by simpa using head?_dropWhile rest d first
  change (Reader.lineComment.run (rest.takeWhile (· ≠ '\n'))).goOn? d = none
  rw [run, line]
  rfl

theorem read_blockComment (rest : List Char) :
    Read ⟨.comment, '/' :: '*' :: (blockSpan rest).1⟩ (blockSpan rest).2 := by
  obtain ⟨words, ends⟩ := blockComment_words rest false fun star => by cases star
  refine ⟨words, fun _ d first => ?_⟩
  rcases ends with none | run
  · rw [none] at first
    cases first
  · change ((Reader.blockComment false).run (blockSpan rest).1).goOn? d = none
    rw [run]
    rfl

theorem read_identifier (start : isIdentifierStart c = true) (rest : List Char) :
    Read ⟨.identifier, c :: rest.takeWhile isIdentifierPart⟩ (rest.dropWhile isIdentifierPart) := by
  obtain ⟨words, run⟩ := word_words (rest.takeWhile isIdentifierPart)
    fun d among => List.mem_takeWhile_imp among
  have go : code.step c = .word := by simp [step, goOn?, opened, start]
  constructor
  · change code.words (c :: _) = [c :: _]
    rw [Reader.words, go, words, if_pos ⟨rfl, start⟩, List.takeWhile_takeWhile]
    simp
  · intro _ d first
    rw [Reader.run, List.foldl_cons, go]
    change (Reader.word.run _).goOn? d = none
    rw [run, goOn?, head?_dropWhile rest d first]
    rfl

/-- Only a block comment goes on in the next line. -/
theorem read_directive (rest : List Char) :
    Read ⟨.directive, '#' :: (directiveSpan '#' rest).1⟩ (directiveSpan '#' rest).2 := by
  refine ⟨rfl, fun closed d first => ?_⟩
  obtain rfl := directiveSpan_stops '#' rest d first
  have shut := closed (by rintro none; rw [none] at first; cases first)
  dsimp only [isClosed] at shut
  revert shut
  generalize code.run _ = reader
  intro shut
  cases reader with
  | blockComment star => cases shut
  | number part => cases part <;> rfl
  | _ => rfl

/-- Only a name goes on behind a number, with an underscore. -/
theorem read_number (begins : isNumberPart c = true) (rest : List Char) :
    Read ⟨.number, c :: (numberSpan c rest).1⟩ (numberSpan c rest).2 := by
  refine ⟨rfl, fun closed d first => ?_⟩
  obtain ⟨inside, stops⟩ := numberSpan_exact c rest
  obtain ⟨other, point, sign⟩ := stops d first
  have number := inNumber_run (c :: (numberSpan c rest).1) fun e among => by
    rcases List.mem_cons.mp among with rfl | among
    · exact begins
    · exact inside e among
  refine number.rests other point sign fun name => ?_
  have shut := closed (by rintro none; rw [none] at first; cases first)
  simp only [isClosed, name, ne_eq, decide_not, Bool.not_eq_true', decide_eq_false_iff_not] at shut
  rintro rfl
  exact shut first

theorem Cut.read (h : Cut lineStart c rest lexeme after) : Read lexeme after := by
  cases h with
  | blank blank =>
    have other : isIdentifierPart c = false := by
      rw [Bool.eq_false_iff]
      intro part
      rw [(ne_of_part part).1] at blank
      cases blank
    refine read_single other (.inl rfl) ?_
    rintro ⟨rfl, -⟩
    cases blank
  | mark _ comment _ other _ => exact read_single other (.inr rfl) comment
  | lineComment slash =>
    obtain ⟨more, rfl⟩ := List.head?_eq_some_iff.mp slash
    exact read_lineComment more
  | blockComment => exact read_blockComment _
  | identifier start => exact read_identifier start rest
  | directive => exact read_directive rest
  | number begins =>
    refine read_number ?_ rest
    rcases begins with digit | ⟨rfl, -⟩
    · simp [isNumberPart, Char.isAlphanum, digit]
    · rfl

/-- **What a reader comes to in a source** is what it comes to in the lexemes. -/
theorem Lexes.words_eq {source : List Char} {lexemes : List Lexeme}
    (h : Lexes lineStart source lexemes)
    (closed : lexemes.IsChain fun lexeme next => lexeme.isClosed next.text = true) :
    code.words source = lexemes.flatMap fun lexeme => code.words lexeme.text := by
  induction h with
  | nil => rfl
  | @cons lineStart c rest after lexeme lexemes cut others ih =>
    have shut : after ≠ [] → lexeme.isClosed after = true := by
      intro more
      cases others with
      | nil => exact absurd rfl more
      | @cons _ d rest after' next lexemes cut' _ =>
        have head : next.text.head? = (d :: rest).head? := by
          rw [← cut'.append, List.head?_append_of_ne_nil _ cut'.ne_nil]
        have first := (List.isChain_cons_cons.mp closed).1
        unfold isClosed at first ⊢
        rwa [head] at first
    rw [← cut.append, words_append (cut.read.rests shut), ih closed.tail, List.flatMap_cons]

end Lexeme

/-! ### What is mentioned -/

/-- Whether what stands in preprocessor lines and numbers ends with them. -/
def Legible (source : List Char) : Prop :=
  (Lexeme.lex source).IsChain fun lexeme next => lexeme.isClosed next.text = true

/-- Whether a name that begins with `start` stands in a preprocessor line or in a hexadecimal
number. -/
def Swallows (source start : List Char) : Prop :=
  ∃ lexeme ∈ Lexeme.lex source, (lexeme.kind = .directive ∨ lexeme.IsHexadecimal) ∧
    Names lexeme.text start

theorem names_iff_words {source start : List Char} :
    Names source start ↔ ∃ name ∈ Reader.code.words source, start <+: name := by
  simp only [Names, Reader.mem_words_iff]
  constructor
  · rintro ⟨front, c, back, whole, none, opens, begins⟩
    exact ⟨_, ⟨front, c, back, whole, none, opens, rfl⟩, begins⟩
  · rintro ⟨_, ⟨front, c, back, whole, none, opens, rfl⟩, begins⟩
    exact ⟨front, c, back, whole, none, opens, begins⟩

theorem mentions_iff {source start : List Char} : mentions source start = true ↔
    ∃ lexeme ∈ Lexeme.lex source, lexeme.kind = .identifier ∧ start <+: lexeme.text := by
  unfold mentions
  rw [List.any_eq_true]
  constructor
  · rintro ⟨token, inside, mentioned⟩
    obtain ⟨before, lexeme, behind, whole, -, rfl⟩ := Token.mem_ofLexemes.mp inside
    refine ⟨lexeme, whole ▸ List.mem_append_right _ List.mem_cons_self, ?_⟩
    simpa [Token.isIdentifier] using mentioned
  · rintro ⟨lexeme, inside, kind, begins⟩
    obtain ⟨before, behind, whole⟩ := List.append_of_mem inside
    refine ⟨_, Token.mem_ofLexemes.mpr
      ⟨before, lexeme, behind, whole, by simp [Lexeme.isToken, kind], rfl⟩, ?_⟩
    simpa [Token.isIdentifier, kind] using begins

/-- **The names outside comments** are those that are mentioned and those that are swallowed. -/
theorem names_iff {source start : List Char} (legible : Legible source) :
    Names source start ↔ mentions source start = true ∨ Swallows source start := by
  have each : ∀ lexeme ∈ Lexeme.lex source,
      (∃ name ∈ Reader.code.words lexeme.text, start <+: name) ↔
        (lexeme.kind = .identifier ∧ start <+: lexeme.text) ∨
          ((lexeme.kind = .directive ∨ lexeme.IsHexadecimal) ∧ Names lexeme.text start) := by
    intro lexeme inside
    obtain ⟨_, _, _, _, cut⟩ := (Lexeme.lex_lexes source).exists_cut inside
    have words := cut.read.words
    rw [names_iff_words]
    cases kind : lexeme.kind with
    | number =>
      by_cases hexadecimal : lexeme.IsHexadecimal
      · simp [hexadecimal]
      · simp [hexadecimal, cut.words_of_number kind hexadecimal]
    | identifier =>
      rw [kind] at words
      simp [words, Lexeme.IsHexadecimal, kind]
    | directive => simp
    | _ =>
      rw [kind] at words
      simp [words, Lexeme.IsHexadecimal, kind]
  rw [names_iff_words, (Lexeme.lex_lexes source).words_eq legible, mentions_iff]
  simp only [List.mem_flatMap]
  constructor
  · rintro ⟨name, ⟨lexeme, inside, among⟩, begins⟩
    exact ((each lexeme inside).mp ⟨name, among, begins⟩).imp
      (fun shown => ⟨lexeme, inside, shown⟩) fun swallowed => ⟨lexeme, inside, swallowed⟩
  · rintro (⟨lexeme, inside, shown⟩ | ⟨lexeme, inside, swallowed⟩)
    · obtain ⟨name, among, begins⟩ := (each lexeme inside).mpr (.inl shown)
      exact ⟨name, ⟨lexeme, inside, among⟩, begins⟩
    · obtain ⟨name, among, begins⟩ := (each lexeme inside).mpr (.inr swallowed)
      exact ⟨name, ⟨lexeme, inside, among⟩, begins⟩

/-- Whether a name that begins with `start` is mentioned if one is swallowed. -/
def Shows (source start : List Char) : Prop :=
  Swallows source start → mentions source start = true

/-- What is mentioned is what the code names just where it shows it. -/
theorem mentions_iff_names {source start : List Char} (legible : Legible source) :
    (mentions source start = true ↔ Names source start) ↔ Shows source start := by
  rw [names_iff legible, Shows, iff_self_or]

instance (source start : List Char) : Decidable (Names source start) :=
  decidable_of_iff _ names_iff_words.symm

instance (source : List Char) : Decidable (Legible source) :=
  inferInstanceAs (Decidable (List.IsChain _ _))

/-- A macro and a sum in which the scene is named and not mentioned. -/
example : ∀ source ∈ ["#define S gSdfX".toList, "0xe+gSdfX".toList],
    Names source "gSdf".toList ∧ mentions source "gSdf".toList = false := by
  decide

/-- A comment that goes on behind a macro, in which the scene is mentioned and not named. -/
example : ¬ Legible "#define S /*\ngSdfX */".toList ∧
    ¬ Names "#define S /*\ngSdfX */".toList "gSdf".toList ∧
    mentions "#define S /*\ngSdfX */".toList "gSdf".toList = true := by
  decide

end Collage
