import Collage.Shader.Declaration
import Mathlib.Data.List.Chain
import Mathlib.Data.List.TakeWhile

/-!
# How lexemes are cut

`Lexeme.next` tries one sort of lexeme after another.  `Lexeme.Cut` says what can come of
it: one case for each sort, with what has to hold of the characters for it, and
`next_eq_iff` says that this is all.  `Lexes` puts cuts together, and `lex_eq_iff` says
that it describes `lex` without counting steps.

From the cases follows what the rest of the theory needs to know about lexemes: only a
number can be followed directly by a character that could go on an identifier
(`Lexes.touching`), and an identifier begins with a letter or an underscore and has nothing
but parts of identifiers (`Lexes.isName`).
-/

namespace Collage

/-! ### Characters -/

/-- A text that can be the name of something. -/
structure IsName (text : List Char) : Prop where
  start : ∃ c rest, text = c :: rest ∧ isIdentifierStart c = true
  parts : ∀ c ∈ text, isIdentifierPart c = true

theorem isName_of_all {text : List Char} (start : text.head?.any isIdentifierStart = true)
    (parts : text.all isIdentifierPart = true) : IsName text := by
  refine ⟨?_, List.all_eq_true.mp parts⟩
  cases text with
  | nil => cases start
  | cons c rest => exact ⟨c, rest, rfl, start⟩

theorem IsName.ne_nil {text : List Char} (h : IsName text) : text ≠ [] := by
  obtain ⟨c, rest, rfl, _⟩ := h.start
  exact List.cons_ne_nil c rest

/-- What can begin an identifier can go on one. -/
theorem isIdentifierPart_of_start {c : Char} (h : isIdentifierStart c = true) :
    isIdentifierPart c = true := by
  simp only [isIdentifierStart, isIdentifierPart, Char.isAlphanum, Bool.or_eq_true,
    decide_eq_true_eq] at h ⊢
  exact h.elim (fun alpha => .inl (.inl alpha)) .inr

theorem IsName.any_ends {text : List Char} (h : IsName text) :
    text.head?.any isIdentifierPart = true ∧ text.getLast?.any isIdentifierPart = true := by
  constructor
  · obtain ⟨c, rest, rfl, start⟩ := h.start
    exact isIdentifierPart_of_start start
  · rw [List.getLast?_eq_some_getLast h.ne_nil]
    exact h.parts _ (List.getLast_mem h.ne_nil)

theorem isDigit_of_part {c : Char} (part : isIdentifierPart c = true)
    (notStart : isIdentifierStart c = false) : c.isDigit = true := by
  simp only [isIdentifierStart, isIdentifierPart, Char.isAlphanum, Bool.or_eq_true,
    Bool.or_eq_false_iff, decide_eq_true_eq] at part notStart
  rcases part with (alpha | digit) | line
  · rw [alpha] at notStart
    cases notStart.1
  · exact digit
  · simp [line] at notStart

theorem ne_of_part {c : Char} (part : isIdentifierPart c = true) :
    isPlainBlank c = false ∧ c ≠ '/' ∧ c ≠ '*' ∧ c ≠ '#' ∧ c ≠ '\n' ∧ c ≠ '\\' := by
  have other : ∀ d : Char, isIdentifierPart d = false → c ≠ d := by
    rintro d notPart rfl
    rw [part] at notPart
    cases notPart
  refine ⟨?_, other _ (by decide), other _ (by decide), other _ (by decide), other _ (by decide),
    other _ (by decide)⟩
  simp [isPlainBlank, other ' ' (by decide), other '\t' (by decide), other '\n' (by decide),
    other '\x0c' (by decide), other '\r' (by decide)]

theorem isIdentifierPart_of_digit {c : Char} (digit : c.isDigit = true) :
    isIdentifierPart c = true := by
  simp [isIdentifierPart, Char.isAlphanum, digit]

/-- A digit begins no identifier. -/
theorem not_start_of_digit {c : Char} (digit : c.isDigit = true) :
    isIdentifierStart c = false := by
  have line : c ≠ '_' := by
    rintro rfl
    exact absurd digit (by decide)
  have letter : c.isAlpha = (decide ('A'.val ≤ c.val ∧ c.val ≤ 'Z'.val) ||
      decide ('a'.val ≤ c.val) && decide (c.val ≤ 'z'.val)) := rfl
  have small : ¬ c.isAlpha = true := by
    simp only [Char.isDigit, letter, Bool.and_eq_true, Bool.or_eq_true, decide_eq_true_eq,
      ge_iff_le, UInt32.le_iff_toNat_le] at digit ⊢
    have nine : '9'.val.toNat = 57 := rfl
    have upper : 'A'.val.toNat = 65 := rfl
    have lower : 'a'.val.toNat = 97 := rfl
    omega
  simp [isIdentifierStart, small, line]

namespace Lexeme

/-! ### The sorts of lexemes -/

/-- What a lexeme that begins with a character can be, and what follows it. -/
inductive Cut (lineStart : Bool) : Char → List Char → Lexeme → List Char → Prop
  | blank {c : Char} {rest : List Char} : isPlainBlank c = true →
      Cut lineStart c rest ⟨.blank, [c]⟩ rest
  | lineComment {rest : List Char} : rest.head? = some '/' →
      Cut lineStart '/' rest ⟨.comment, '/' :: rest.takeWhile (· ≠ '\n')⟩
        (rest.dropWhile (· ≠ '\n'))
  | blockComment {rest : List Char} :
      Cut lineStart '/' ('*' :: rest) ⟨.comment, '/' :: '*' :: (blockSpan rest).1⟩
        (blockSpan rest).2
  | directive {rest : List Char} : lineStart = true →
      Cut lineStart '#' rest ⟨.directive, '#' :: (directiveSpan '#' rest).1⟩
        (directiveSpan '#' rest).2
  | identifier {c : Char} {rest : List Char} : isIdentifierStart c = true →
      Cut lineStart c rest ⟨.identifier, c :: rest.takeWhile isIdentifierPart⟩
        (rest.dropWhile isIdentifierPart)
  | number {c : Char} {rest : List Char} :
      (c.isDigit = true ∨ c = '.' ∧ rest.head?.any Char.isDigit = true) →
      Cut lineStart c rest ⟨.number, c :: (numberSpan c rest).1⟩ (numberSpan c rest).2
  | mark {c : Char} {rest : List Char} : isPlainBlank c = false →
      ¬ (c = '/' ∧ (rest.head? = some '/' ∨ rest.head? = some '*')) →
      ¬ (c = '#' ∧ lineStart = true) → isIdentifierPart c = false →
      ¬ (c = '.' ∧ rest.head?.any Char.isDigit = true) →
      Cut lineStart c rest ⟨.mark, [c]⟩ rest

variable {lineStart : Bool} {c : Char} {rest : List Char} {lexeme : Lexeme} {after : List Char}

/-- The next lexeme is one of these. -/
theorem next_cut (lineStart : Bool) (c : Char) (rest : List Char) :
    Cut lineStart c rest (next lineStart c rest).1 (next lineStart c rest).2 := by
  unfold next
  split
  · next blank => exact .blank blank
  · next notBlank =>
    split
    · next comment =>
      obtain ⟨rfl, head⟩ := comment
      exact .lineComment head
    · next notLine =>
      split
      · next comment =>
        obtain ⟨rfl, head⟩ := comment
        obtain ⟨more, rfl⟩ := List.head?_eq_some_iff.mp head
        exact .blockComment
      · next notBlock =>
        split
        · next directive =>
          obtain ⟨rfl, start⟩ := directive
          exact .directive start
        · next notDirective =>
          split
          · next start => exact .identifier start
          · next notStart =>
            split
            · next number =>
              refine .number ?_
              simpa using number
            · next notNumber =>
              simp only [Bool.or_eq_true, Bool.and_eq_true, decide_eq_true_eq, not_or] at notNumber
              refine .mark (Bool.eq_false_iff.mpr notBlank) ?_ notDirective ?_ notNumber.2
              · rintro ⟨same, head | head⟩
                · exact notLine ⟨same, head⟩
                · exact notBlock ⟨same, head⟩
              · rw [Bool.eq_false_iff]
                exact fun part =>
                  notNumber.1 (isDigit_of_part part (Bool.eq_false_iff.mpr notStart))

/-- Each of these is the next lexeme. -/
theorem Cut.next_eq (h : Cut lineStart c rest lexeme after) :
    next lineStart c rest = (lexeme, after) := by
  cases h with
  | blank blank =>
    unfold next
    rw [if_pos blank]
  | lineComment head =>
    unfold next
    rw [if_neg (by decide), if_pos ⟨rfl, head⟩]
  | blockComment =>
    unfold next
    rw [if_neg (by decide), if_neg (by simp), if_pos ⟨rfl, rfl⟩]
    rfl
  | directive start =>
    unfold next
    rw [if_neg (by decide), if_neg (by simp), if_neg (by simp), if_pos ⟨rfl, start⟩]
  | identifier start =>
    obtain ⟨blank, slash, _, hash, _⟩ := ne_of_part (isIdentifierPart_of_start start)
    unfold next
    rw [if_neg (by simp [blank]), if_neg (by simp [slash]), if_neg (by simp [slash]),
      if_neg (by simp [hash]), if_pos start]
  | number number =>
    have plain : isPlainBlank c = false ∧ c ≠ '/' ∧ c ≠ '#' ∧ isIdentifierStart c = false := by
      rcases number with digit | ⟨rfl, _⟩
      · obtain ⟨blank, slash, _, hash, _⟩ := ne_of_part (isIdentifierPart_of_digit digit)
        exact ⟨blank, slash, hash, not_start_of_digit digit⟩
      · decide
    obtain ⟨blank, slash, hash, start⟩ := plain
    unfold next
    rw [if_neg (by simp [blank]), if_neg (by simp [slash]), if_neg (by simp [slash]),
      if_neg (by simp [hash]), if_neg (by simp [start]), if_pos (by simpa using number)]
  | mark blank comment directive part number =>
    have notStart : isIdentifierStart c = false := by
      rw [Bool.eq_false_iff]
      intro start
      rw [isIdentifierPart_of_start start] at part
      cases part
    have notDigit : c.isDigit = false := by
      rw [Bool.eq_false_iff]
      intro digit
      rw [isIdentifierPart_of_digit digit] at part
      cases part
    unfold next
    rw [if_neg (by simp [blank]), if_neg fun h => comment ⟨h.1, .inl h.2⟩,
      if_neg fun h => comment ⟨h.1, .inr h.2⟩, if_neg directive, if_neg (by simp [notStart]),
      if_neg (by simpa [notDigit] using number)]

/-- **The sorts of lexemes are all that can be next.** -/
theorem next_eq_iff :
    next lineStart c rest = (lexeme, after) ↔ Cut lineStart c rest lexeme after :=
  ⟨fun same => by simpa only [same] using next_cut lineStart c rest, Cut.next_eq⟩

theorem Cut.append (h : Cut lineStart c rest lexeme after) : lexeme.text ++ after = c :: rest := by
  have whole := next_append lineStart c rest
  rwa [h.next_eq] at whole

theorem Cut.ne_nil (h : Cut lineStart c rest lexeme after) : lexeme.text ≠ [] := by
  have nonempty := next_ne_nil lineStart c rest
  rwa [h.next_eq] at nonempty

theorem Cut.length_le (h : Cut lineStart c rest lexeme after) : after.length ≤ rest.length := by
  have shorter := next_length lineStart c rest
  rwa [h.next_eq] at shorter

/-! ### What lexemes are like -/

theorem head?_dropWhile {p : Char → Bool} (text : List Char) :
    ∀ d ∈ (text.dropWhile p).head?, p d = false := by
  intro d first
  have stop := List.head?_dropWhile_not p text
  rw [Option.mem_def.mp first] at stop
  simpa using stop

theorem directiveSpan_stops (previous : Char) (text : List Char) :
    ∀ d ∈ (directiveSpan previous text).2.head?, d = '\n' := by
  fun_induction directiveSpan previous text with
  | case1 => intro d first; cases first
  | case2 previous c rest stop =>
    intro d first
    cases first
    exact stop.1
  | case3 previous c rest go text after span ih =>
    rw [span] at ih
    exact ih

theorem blockSpan_stops (text : List Char) :
    (blockSpan text).2 = [] ∨ (blockSpan text).1.getLast? = some '/' := by
  fun_induction blockSpan text with
  | case1 => exact .inr rfl
  | case2 => exact .inl rfl
  | case3 c rest notEnd text after span ih =>
    rw [span] at ih
    rcases ih with none | last
    · exact .inl none
    · right
      rw [List.getLast?_cons, last]
      rfl

/-- **Only a number can be followed by a character that could go on what it ends with.** -/
theorem Cut.touching (h : Cut lineStart c rest lexeme after) {d e : Char}
    (first : after.head? = some d) (part : isIdentifierPart d = true)
    (last : lexeme.text.getLast? = some e) (part' : isIdentifierPart e = true) :
    lexeme.kind = .number := by
  cases h with
  | number => rfl
  | blank blank =>
    obtain rfl : c = e := by simpa using last
    rw [(ne_of_part part').1] at blank
    cases blank
  | mark _ _ _ notPart =>
    obtain rfl : c = e := by simpa using last
    rw [part'] at notPart
    cases notPart
  | identifier =>
    rw [head?_dropWhile rest d first] at part
    cases part
  | directive =>
    have line := directiveSpan_stops '#' rest d first
    exact absurd line (ne_of_part part).2.2.2.2.1
  | lineComment =>
    have line : d = '\n' := by simpa using head?_dropWhile rest d first
    exact absurd line (ne_of_part part).2.2.2.2.1
  | @blockComment rest =>
    rcases blockSpan_stops rest with none | slash
    · rw [none] at first
      cases first
    · rw [List.getLast?_cons, List.getLast?_cons, slash] at last
      cases last
      exact absurd part' (by decide)

/-- What follows a number is neither a letter nor a digit. -/
theorem numberSpan_stops (previous : Char) (text : List Char) :
    ∀ d ∈ (numberSpan previous text).2.head?, d.isAlphanum = false := by
  fun_induction numberSpan previous text with
  | case1 => intro d first; cases first
  | case2 previous c rest sign go text after span ih =>
    rw [span] at ih
    exact ih
  | case3 previous c rest sign stop =>
    intro d first
    cases first
    rw [Bool.eq_false_iff]
    exact fun more => stop (by simp [more])

/-- Whether one text ends and another begins with a part of an identifier. -/
def Touch (text after : List Char) : Prop :=
  text.getLast?.any isIdentifierPart = true ∧ after.head?.any isIdentifierPart = true

theorem Cut.not_alphanum (h : Cut lineStart c rest lexeme after) (number : lexeme.kind = .number) :
    ∀ d ∈ after.head?, d.isAlphanum = false := by
  cases h with
  | number => exact numberSpan_stops c rest
  | _ => cases number

/-! ### All lexemes -/

/-- A source is cut into lexemes, from a place at which a preprocessor line may begin or
not. -/
inductive Lexes : Bool → List Char → List Lexeme → Prop
  | nil {lineStart : Bool} : Lexes lineStart [] []
  | cons {lineStart : Bool} {c : Char} {rest after : List Char} {lexeme : Lexeme}
      {lexemes : List Lexeme} : Cut lineStart c rest lexeme after →
      Lexes (lexeme.lineStartAfter lineStart) after lexemes →
      Lexes lineStart (c :: rest) (lexeme :: lexemes)

theorem lexSteps_lexes : ∀ (steps : Nat) (lineStart : Bool) (source : List Char),
    source.length ≤ steps → Lexes lineStart source (lexSteps steps lineStart source)
  | 0, _, [], _ => .nil
  | _ + 1, _, [], _ => .nil
  | steps + 1, lineStart, c :: rest, enough => by
    have cut := next_cut lineStart c rest
    have shorter := cut.length_le
    rw [List.length_cons] at enough
    exact .cons cut (lexSteps_lexes steps _ _ (by omega))

namespace Lexes

variable {source : List Char} {lexemes : List Lexeme}

/-- There is one way only. -/
theorem unique (h : Lexes lineStart source lexemes) {others : List Lexeme}
    (h' : Lexes lineStart source others) : lexemes = others := by
  induction h generalizing others with
  | nil => cases h'; rfl
  | cons cut _ ih =>
    cases h' with
    | cons cut' rest =>
      have same := cut.next_eq.symm.trans cut'.next_eq
      rw [Prod.mk.injEq] at same
      obtain ⟨rfl, rfl⟩ := same
      rw [ih rest]

theorem exists_cut (h : Lexes lineStart source lexemes) {lexeme : Lexeme}
    (inside : lexeme ∈ lexemes) :
    ∃ lineStart c rest after, Cut lineStart c rest lexeme after := by
  induction h with
  | nil => cases inside
  | cons cut _ ih =>
    rcases List.mem_cons.mp inside with rfl | inside
    · exact ⟨_, _, _, _, cut⟩
    · exact ih inside

theorem ne_nil (h : Lexes lineStart source lexemes) {lexeme : Lexeme} (inside : lexeme ∈ lexemes) :
    lexeme.text ≠ [] := by
  obtain ⟨_, _, _, _, cut⟩ := h.exists_cut inside
  exact cut.ne_nil

/-- **An identifier has the form of a name.** -/
theorem isName (h : Lexes lineStart source lexemes) {lexeme : Lexeme} (inside : lexeme ∈ lexemes)
    (identifier : lexeme.kind = .identifier) : IsName lexeme.text := by
  obtain ⟨_, _, _, _, cut⟩ := h.exists_cut inside
  cases cut with
  | identifier start =>
    refine ⟨⟨_, _, rfl, start⟩, fun c part => ?_⟩
    rcases List.mem_cons.mp part with rfl | part
    · exact isIdentifierPart_of_start start
    · exact List.mem_takeWhile_imp part
  | _ => cases identifier

theorem mark (h : Lexes lineStart source lexemes) {lexeme : Lexeme} (inside : lexeme ∈ lexemes)
    (mark : lexeme.kind = .mark) : ∃ c, lexeme.text = [c] ∧ isIdentifierPart c = false := by
  obtain ⟨_, c, _, _, cut⟩ := h.exists_cut inside
  cases cut with
  | mark _ _ _ notPart => exact ⟨c, rfl, notPart⟩
  | _ => cases mark

/-- **Lexemes touch only where an identifier stands right behind a number.** -/
theorem touching (h : Lexes lineStart source lexemes) :
    lexemes.IsChain fun lexeme next =>
      Touch lexeme.text next.text → lexeme.kind = .number ∧ next.kind = .identifier := by
  induction h with
  | nil => exact .nil
  | @cons lineStart c rest after lexeme lexemes cut others ih =>
    cases others with
    | nil => exact .singleton _
    | @cons _ d more _ next _ cut' =>
      refine .cons_cons ?_ ih
      rintro ⟨last, first⟩
      obtain ⟨e, last, part'⟩ := (Option.any_eq_true ..).mp last
      obtain ⟨e', first, part⟩ := (Option.any_eq_true ..).mp first
      obtain rfl : e' = d := by
        have whole := congrArg List.head? cut'.append
        rw [List.head?_append_of_ne_nil _ cut'.ne_nil, first] at whole
        exact (Option.some.inj whole)
      have number := cut.touching rfl part last part'
      refine ⟨number, ?_⟩
      have alone := cut.not_alphanum number e' rfl
      cases cut' with
      | identifier => rfl
      | number digit =>
        rcases digit with digit | ⟨rfl, _⟩
        · simp [Char.isAlphanum, digit] at alone
        · exact absurd part (by decide)
      | blank blank =>
        rw [(ne_of_part part).1] at blank
        cases blank
      | mark _ _ _ notPart =>
        rw [part] at notPart
        cases notPart
      | _ => exact absurd part (by decide)

end Lexes

/-- A source is cut into its lexemes. -/
theorem lex_lexes (source : List Char) : Lexes true source (lex source) :=
  lexSteps_lexes source.length true source (Nat.le_refl _)

/-- **Cutting a source into lexemes is what the cuts say.** -/
theorem lex_eq_iff {source : List Char} {lexemes : List Lexeme} :
    lex source = lexemes ↔ Lexes true source lexemes :=
  ⟨fun same => same ▸ lex_lexes source, fun h => (lex_lexes source).unique h⟩

end Lexeme
end Collage
