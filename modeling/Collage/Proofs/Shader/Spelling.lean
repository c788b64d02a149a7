import Collage.Proofs.Shader.Occurrences

/-!
# Lexemes of texts put together

A text may end inside a lexeme: a number goes on in the letters behind it, and a comment that
is not closed swallows what follows.  `Complete` says that this is not so; then the lexemes of
the text and of one that begins with a letter are those of both texts put together
(`lex_append`).

`SpacedWord` is a word of the code with the blanks and comments behind it.
`SpacedWord.lexes_text` says that such pieces are read back as they were written, as long as two
names do not run into each other (`SpacedWord.Apart`), and `Token.lexeme_pieces` that only their
words are left as tokens.
-/

namespace Collage
namespace Lexeme

/-! ### Texts that end behind a lexeme -/

/-- No letter that follows a lexeme goes on in it. -/
def Ended (lexeme : Lexeme) : Prop :=
  match lexeme.kind with
  | .blank | .mark => True
  | .comment => ∃ body, lexeme.text = '/' :: '*' :: (body ++ ['*', '/'])
  | .directive | .identifier | .number => False

/-- A text ends neither in a word or a number, nor inside a comment or a preprocessor line. -/
def Complete (text : List Char) : Prop :=
  ∀ last ∈ (lex text).getLast?, last.Ended

/-- A span that has stopped is the same before more text. -/
theorem span_append {p : Char → Bool} {text : List Char} (stops : text.dropWhile p ≠ [])
    (more : List Char) :
    (text ++ more).takeWhile p = text.takeWhile p ∧
      (text ++ more).dropWhile p = text.dropWhile p ++ more := by
  induction text with
  | nil => exact absurd rfl stops
  | cons c rest ih =>
    cases go : p c with
    | false => simp [go]
    | true =>
      simp only [List.dropWhile_cons, List.takeWhile_cons, List.cons_append, go, if_true]
        at stops ⊢
      exact ⟨congrArg _ (ih stops).1, (ih stops).2⟩

theorem directiveSpan_behind (previous : Char) (text more : List Char)
    (stops : (directiveSpan previous text).2 ≠ []) :
    directiveSpan previous (text ++ more) =
      ((directiveSpan previous text).1, (directiveSpan previous text).2 ++ more) := by
  fun_induction directiveSpan previous text with
  | case1 => exact absurd rfl stops
  | case2 previous c rest stop => exact if_pos stop
  | case3 previous c rest go text after span ih =>
    rw [span] at ih
    rw [List.cons_append, directiveSpan, if_neg go, ih stops]

theorem numberSpan_behind (previous : Char) (text more : List Char)
    (stops : (numberSpan previous text).2 ≠ []) :
    numberSpan previous (text ++ more) =
      ((numberSpan previous text).1, (numberSpan previous text).2 ++ more) := by
  fun_induction numberSpan previous text with
  | case1 => exact absurd rfl stops
  | case2 previous c rest sign go text after span ih =>
    rw [span] at ih
    rw [List.cons_append, numberSpan, if_pos go, ih stops]
  | case3 previous c rest sign stop => rw [List.cons_append, numberSpan, if_neg stop]

theorem blockSpan_closed (text : List Char) :
    (blockSpan text).2 = [] ∨ ∃ body, (blockSpan text).1 = body ++ ['*', '/'] := by
  fun_induction blockSpan text with
  | case1 => exact .inr ⟨[], rfl⟩
  | case2 => exact .inl rfl
  | case3 c rest notEnd text after span ih =>
    rw [span] at ih
    rcases ih with none | ⟨body, rfl⟩
    · exact .inl none
    · exact .inr ⟨c :: body, rfl⟩

theorem blockSpan_behind {text body : List Char} (closed : (blockSpan text).1 = body ++ ['*', '/'])
    (more : List Char) :
    blockSpan (text ++ more) = ((blockSpan text).1, (blockSpan text).2 ++ more) := by
  fun_induction blockSpan text generalizing body with
  | case1 => rfl
  | case2 => simp at closed
  | case3 c rest notEnd text after span ih =>
    rw [span] at ih
    have nonempty : rest ≠ [] := by
      rintro rfl
      obtain ⟨rfl, rfl⟩ := Prod.mk.inj span
      cases body with
      | nil => simp at closed
      | cons d body => simp at closed
    -- the stroke behind a star would have ended the comment
    have later : ∃ body, text = body ++ ['*', '/'] := by
      cases body with
      | cons d body => exact ⟨body, (List.cons.inj closed).2⟩
      | nil =>
        obtain ⟨rfl, rfl⟩ := List.cons.inj closed
        have whole := blockSpan_append rest
        rw [span] at whole
        exact absurd whole.symm (notEnd after rfl)
    obtain ⟨body, later⟩ := later
    rw [List.cons_append, blockSpan.eq_3 _ _ ?_, ih later]
    intro others star slash
    obtain ⟨d, rest, rfl⟩ := List.exists_cons_of_ne_nil nonempty
    obtain ⟨rfl, _⟩ := List.cons.inj slash
    exact notEnd rest star rfl

variable {lineStart : Bool} {c : Char} {rest : List Char} {lexeme : Lexeme} {after : List Char}

/-- A cut stays where it is when letters are put behind the text. -/
theorem Cut.behind (h : Cut lineStart c rest lexeme after) (ended : after = [] → lexeme.Ended)
    {more : List Char} (start : more.head?.any isIdentifierStart = true) :
    Cut lineStart c (rest ++ more) lexeme (after ++ more) := by
  have stops : after = [] → lexeme.kind ∈ [.directive, .identifier, .number] → False := by
    intro none open'
    have ended := ended none
    unfold Ended at ended
    simp only [List.mem_cons, List.not_mem_nil, or_false] at open'
    rcases open' with kind | kind | kind <;> rw [kind] at ended <;> exact ended
  have head (nonempty : rest ≠ []) : (rest ++ more).head? = rest.head? :=
    List.head?_append_of_ne_nil rest nonempty
  cases h with
  | blank blank => exact .blank blank
  | @lineComment rest slash =>
    have goesOn : rest.dropWhile (· ≠ '\n') ≠ [] := by
      intro none
      obtain ⟨body, text⟩ := ended none
      obtain ⟨others, rfl⟩ := List.head?_eq_some_iff.mp slash
      simp at text
    obtain ⟨inside, behind⟩ := span_append goesOn more
    rw [← inside, ← behind]
    refine .lineComment ?_
    rw [head, slash]
    rintro rfl
    cases slash
  | @blockComment rest =>
    have closed : ∃ body, (blockSpan rest).1 = body ++ ['*', '/'] := by
      rcases blockSpan_closed rest with none | closed
      · obtain ⟨body, text⟩ := ended none
        exact ⟨body, (List.cons.inj (List.cons.inj text).2).2⟩
      · exact closed
    obtain ⟨body, closed⟩ := closed
    have same := blockSpan_behind closed more
    have cut : Cut lineStart '/' ('*' :: (rest ++ more)) _ _ := .blockComment
    rwa [same] at cut
  | @directive rest first =>
    have same := directiveSpan_behind '#' rest more fun none => stops none (by simp)
    have cut : Cut lineStart '#' (rest ++ more) _ _ := .directive first
    rwa [same] at cut
  | identifier letter =>
    obtain ⟨inside, behind⟩ := span_append (fun none => stops none (by simp)) more
    rw [← inside, ← behind]
    exact .identifier letter
  | number first =>
    have nonempty : rest ≠ [] := by
      rintro rfl
      exact stops rfl (by simp)
    have same := numberSpan_behind c rest more fun none => stops none (by simp)
    have cut : Cut lineStart c (rest ++ more) _ _ := .number (by rwa [head nonempty])
    rwa [same] at cut
  | mark blank comment directive part number =>
    by_cases nonempty : rest = []
    · subst nonempty
      obtain ⟨d, first, letter⟩ := (Option.any_eq_true ..).mp start
      obtain ⟨others, rfl⟩ := List.head?_eq_some_iff.mp first
      have plain := ne_of_part (isIdentifierPart_of_start letter)
      refine .mark blank ?_ directive part ?_
      · rintro ⟨_, slash | star⟩
        · exact plain.2.1 (Option.some.inj slash)
        · exact plain.2.2.1 (Option.some.inj star)
      · rintro ⟨_, digit⟩
        have notStart := not_start_of_digit (c := d) (by simpa using digit)
        rw [letter] at notStart
        cases notStart
    · refine .mark blank ?_ directive part ?_ <;> rwa [head nonempty]

/-- Where a text begins with a letter, it does not matter whether a preprocessor line may
begin. -/
theorem Lexes.of_start {text : List Char} {lexemes : List Lexeme} (h : Lexes lineStart text lexemes)
    (start : text.head?.any isIdentifierStart = true) (lineStart' : Bool) :
    Lexes lineStart' text lexemes := by
  cases h with
  | nil => cases start
  | @cons _ c rest after lexeme lexemes cut others =>
    have letter : isIdentifierStart c = true := by simpa using start
    have cut' : Cut lineStart c rest _ _ := .identifier letter
    have same := cut.next_eq.symm.trans cut'.next_eq
    rw [Prod.mk.injEq] at same
    obtain ⟨rfl, rfl⟩ := same
    exact .cons (.identifier letter) others

theorem Lexes.append {front more : List Char} {lexemes others : List Lexeme}
    (h : Lexes lineStart front lexemes) (ended : ∀ last ∈ lexemes.getLast?, last.Ended)
    (start : more.head?.any isIdentifierStart = true) (behind : Lexes true more others) :
    Lexes lineStart (front ++ more) (lexemes ++ others) := by
  induction h with
  | nil => exact behind.of_start start _
  | @cons lineStart c rest after lexeme lexemes cut later ih =>
    refine .cons (cut.behind ?_ start) (ih fun last inside => ?_)
    · rintro rfl
      cases later
      exact ended lexeme rfl
    · refine ended last ?_
      rw [List.getLast?_cons, Option.mem_def.mp inside]
      rfl

/-- **Behind a complete text, letters begin a new lexeme.** -/
theorem lex_append {front more : List Char} (complete : Complete front)
    (start : more.head?.any isIdentifierStart = true) :
    lex (front ++ more) = lex front ++ lex more :=
  lex_eq_iff.mpr ((lex_lexes front).append complete start (lex_lexes more))

/-! ### Words with blanks and comments behind them -/

/-- A mark that stays by itself whatever follows it. -/
def isPlainMark (c : Char) : Bool :=
  !isPlainBlank c && !isIdentifierPart c && !(['/', '#', '.'].contains c)

theorem notPart_of_isPlainMark {c : Char} (plain : isPlainMark c = true) :
    isIdentifierPart c = false := by
  simp only [isPlainMark, Bool.and_eq_true, Bool.not_eq_true'] at plain
  exact plain.1.2

theorem cut_mark {c : Char} (plain : isPlainMark c = true) (lineStart : Bool) (rest : List Char) :
    Cut lineStart c rest ⟨.mark, [c]⟩ rest := by
  simp only [isPlainMark, Bool.and_eq_true, Bool.not_eq_true', List.contains_eq_mem,
    decide_eq_false_iff_not, List.mem_cons, List.not_mem_nil, or_false, not_or] at plain
  obtain ⟨⟨blank, part⟩, stroke, hash, point⟩ := plain
  refine .mark blank ?_ ?_ part ?_
  · exact fun both => stroke both.1
  · exact fun both => hash both.1
  · exact fun both => point both.1

/-- A word of the code: a name or a mark. -/
inductive IsWord : Lexeme → Prop
  | name {text : List Char} : IsName text → IsWord ⟨.identifier, text⟩
  | mark {c : Char} : isPlainMark c = true → IsWord ⟨.mark, [c]⟩

theorem IsWord.isToken {lexeme : Lexeme} (h : lexeme.IsWord) : lexeme.isToken = true := by
  cases h <;> rfl

/-- A word is read back, unless it is a name that goes on. -/
theorem IsWord.lexes {lexeme : Lexeme} (h : lexeme.IsWord) {text : List Char}
    {lexemes : List Lexeme} (behind : ∀ lineStart, Lexes lineStart text lexemes)
    (stops : lexeme.kind = .identifier → text.head?.any isIdentifierPart = false)
    (lineStart : Bool) : Lexes lineStart (lexeme.text ++ text) (lexeme :: lexemes) := by
  cases h with
  | @name name isName =>
    obtain ⟨c, rest, rfl, letter⟩ := isName.start
    have parts : ∀ d ∈ rest, isIdentifierPart d = true := fun d inside =>
      isName.parts d (List.mem_cons_of_mem _ inside)
    have nothing : text.takeWhile isIdentifierPart = [] ∧
        text.dropWhile isIdentifierPart = text := by
      cases text with
      | nil => exact ⟨rfl, rfl⟩
      | cons d others => simpa using stops rfl
    have cut : Cut lineStart c (rest ++ text) _ _ := .identifier letter
    rw [List.takeWhile_append_of_pos parts, List.dropWhile_append_of_pos parts, nothing.1,
      nothing.2, List.append_nil] at cut
    exact .cons cut (behind _)
  | mark plain => exact .cons (cut_mark plain lineStart text) (behind _)

end Lexeme

open Lexeme

/-- What may stand between two words. -/
inductive Filler
  | blank (c : Char) (isBlank : isPlainBlank c = true)
  | block (body : List Char) (notClosed : ¬ ['*', '/'] <:+: body)
  | line (body : List Char) (oneLine : '\n' ∉ body)

namespace Filler

def text : Filler → List Char
  | blank c _ => [c]
  | block body _ => '/' :: '*' :: (body ++ ['*', '/'])
  | line body _ => '/' :: '/' :: (body ++ ['\n'])

def lexemes : Filler → List Lexeme
  | blank c _ => [⟨.blank, [c]⟩]
  | block body _ => [⟨.comment, '/' :: '*' :: (body ++ ['*', '/'])⟩]
  | line body _ => [⟨.comment, '/' :: '/' :: body⟩, ⟨.blank, ['\n']⟩]

/-- A comment ends at the first star with a stroke behind it. -/
theorem blockSpan_eq {body : List Char} (notClosed : ¬ ['*', '/'] <:+: body) (text : List Char) :
    blockSpan (body ++ '*' :: '/' :: text) = (body ++ ['*', '/'], text) := by
  induction body with
  | nil => rfl
  | cons c body ih =>
    have later : ¬ ['*', '/'] <:+: body := fun inside =>
      notClosed (inside.trans (List.suffix_cons c body).isInfix)
    rw [List.cons_append, blockSpan.eq_3, ih later]
    · rfl
    · rintro others rfl stroke
      cases body with
      | nil => cases stroke
      | cons d body =>
        obtain ⟨rfl, _⟩ := List.cons.inj stroke
        exact notClosed (List.prefix_append ['*', '/'] body).isInfix

theorem lexes (filler : Filler) {text : List Char} {lexemes : List Lexeme}
    (behind : ∀ lineStart, Lexes lineStart text lexemes) (lineStart : Bool) :
    Lexes lineStart (filler.text ++ text) (filler.lexemes ++ lexemes) := by
  cases filler with
  | blank c isBlank => exact .cons (.blank isBlank) (behind _)
  | block body notClosed =>
    have cut : Cut lineStart '/' ('*' :: (body ++ '*' :: '/' :: text)) _ _ := .blockComment
    rw [blockSpan_eq notClosed] at cut
    have whole := Lexes.cons cut (behind _)
    simpa [Filler.text, Filler.lexemes] using whole
  | line body oneLine =>
    have goesOn : ∀ c ∈ '/' :: body, decide (c ≠ '\n') = true := by
      intro c inside
      rcases List.mem_cons.mp inside with rfl | inside
      · decide
      · exact decide_eq_true fun same => oneLine (same ▸ inside)
    have cut : Cut lineStart '/' ('/' :: body ++ '\n' :: text) _ _ := .lineComment rfl
    rw [List.takeWhile_append_of_pos goesOn, List.dropWhile_append_of_pos goesOn] at cut
    have whole := Lexes.cons cut (Lexes.cons (.blank rfl) (behind _))
    simpa [Filler.text, Filler.lexemes] using whole

theorem lexes_flatMap (gap : List Filler) {text : List Char} {lexemes : List Lexeme}
    (behind : ∀ lineStart, Lexes lineStart text lexemes) (lineStart : Bool) :
    Lexes lineStart (gap.flatMap Filler.text ++ text) (gap.flatMap Filler.lexemes ++ lexemes) := by
  induction gap generalizing lineStart with
  | nil => exact behind lineStart
  | cons filler gap ih =>
    rw [List.flatMap_cons, List.flatMap_cons, List.append_assoc, List.append_assoc]
    exact filler.lexes ih lineStart

theorem not_isToken (filler : Filler) : ∀ lexeme ∈ filler.lexemes, lexeme.isToken = false := by
  cases filler <;> simp [lexemes, isToken]

theorem head?_text (filler : Filler) (more : List Char) :
    (filler.text ++ more).head?.any isIdentifierPart = false := by
  cases filler with
  | blank c isBlank =>
    rw [Bool.eq_false_iff]
    intro part
    rw [(ne_of_part (c := c) (by simpa [text] using part)).1] at isBlank
    cases isBlank
  | block => rfl
  | line => rfl

end Filler

/-- A word and what stands behind it. -/
structure SpacedWord where
  word : Lexeme
  gap : List Filler

namespace SpacedWord

def text (piece : SpacedWord) : List Char :=
  piece.word.text ++ piece.gap.flatMap Filler.text

def lexemes (piece : SpacedWord) : List Lexeme :=
  piece.word :: piece.gap.flatMap Filler.lexemes

/-- Between two names stands something. -/
def Apart (pieces : List SpacedWord) : Prop :=
  pieces.IsChain fun piece next =>
    piece.word.kind = .identifier → next.word.kind = .identifier → piece.gap ≠ []

/-- **Pieces are read back as they were written.** -/
theorem lexes_text {pieces : List SpacedWord} (words : ∀ piece ∈ pieces, piece.word.IsWord)
    (apart : Apart pieces) {more : List Char} {lexemes : List Lexeme}
    (behind : ∀ lineStart, Lexes lineStart more lexemes)
    (stops : more.head?.any isIdentifierPart = false) (lineStart : Bool) :
    Lexes lineStart (pieces.flatMap text ++ more) (pieces.flatMap SpacedWord.lexemes ++ lexemes) := by
  induction pieces generalizing lineStart with
  | nil => exact behind lineStart
  | cons piece pieces ih =>
    have later := ih (fun other inside => words other (List.mem_cons_of_mem _ inside)) apart.tail
    simp only [List.flatMap_cons, text, SpacedWord.lexemes, List.cons_append, List.append_assoc]
    refine (words piece List.mem_cons_self).lexes (Filler.lexes_flatMap piece.gap later) ?_ _
    intro name
    cases gap : piece.gap with
    | cons filler gap =>
      rw [List.flatMap_cons, List.append_assoc]
      exact filler.head?_text _
    | nil =>
      cases pieces with
      | nil => exact stops
      | cons next pieces =>
        have isWord := words next (List.mem_cons_of_mem _ List.mem_cons_self)
        have notName := (List.isChain_cons_cons.mp apart).1 name
        cases isWord' : next.word with
        | mk kind text =>
          rw [isWord'] at isWord notName
          cases isWord with
          | name => exact absurd gap (notName rfl)
          | mark plain => simp [SpacedWord.text, isWord', notPart_of_isPlainMark plain]

/-- Of pieces the words are left. -/
theorem filter_lexemes {pieces : List SpacedWord} (words : ∀ piece ∈ pieces, piece.word.IsWord) :
    (pieces.flatMap lexemes).filter isToken = pieces.map SpacedWord.word := by
  induction pieces with
  | nil => rfl
  | cons piece pieces ih =>
    have fillers : (piece.gap.flatMap Filler.lexemes).filter isToken = [] := by
      rw [List.filter_eq_nil_iff]
      intro lexeme inside
      obtain ⟨filler, _, inside⟩ := List.mem_flatMap.mp inside
      rw [filler.not_isToken lexeme inside]
      exact Bool.false_ne_true
    rw [List.flatMap_cons, List.filter_append, lexemes,
      List.filter_cons_of_pos (words piece List.mem_cons_self).isToken, fillers,
      ih fun other inside => words other (List.mem_cons_of_mem _ inside)]
    rfl

end SpacedWord

namespace Token

theorem ofLexemes_append (lexemes more : List Lexeme) (offset : Nat) :
    ofLexemes offset (lexemes ++ more) =
      ofLexemes offset lexemes ++
        ofLexemes (offset + byteSize (lexemes.flatMap Lexeme.text)) more := by
  induction lexemes generalizing offset with
  | nil => rfl
  | cons first rest ih =>
    rw [List.cons_append, ofLexemes, ofLexemes, ih, List.flatMap_cons, byteSize_append,
      ← Nat.add_assoc]
    split <;> rfl

theorem lexeme_ofLexemes (offset : Nat) (lexemes : List Lexeme) :
    (ofLexemes offset lexemes).map lexeme = lexemes.filter isToken := by
  induction lexemes generalizing offset with
  | nil => rfl
  | cons first rest ih =>
    rw [ofLexemes, List.filter_cons]
    split
    · rw [List.map_cons, ih]
      rfl
    · exact ih _

theorem ofSource_append {front more : List Char} (complete : Complete front)
    (start : more.head?.any isIdentifierStart = true) :
    ofSource (front ++ more) = ofSource front ++ ofLexemes (byteSize front) (lex more) := by
  unfold ofSource
  rw [lex_append complete start, ofLexemes_append, lex_text, Nat.zero_add]

/-- A text that begins with a letter begins with a token. -/
theorem ofLexemes_start {text : List Char} (start : text.head?.any isIdentifierStart = true)
    (offset : Nat) : ∃ first rest, ofLexemes offset (lex text) = first :: rest ∧
      first.offset = offset := by
  have lexes := lex_lexes text
  cases cut : lex text with
  | nil =>
    rw [cut] at lexes
    cases lexes
    cases start
  | cons first rest =>
    rw [cut] at lexes
    cases lexes with
    | @cons _ c rest after _ _ cut others =>
      have letter : Cut true c rest _ _ := .identifier (by simpa using start)
      have same := cut.next_eq.symm.trans letter.next_eq
      rw [Prod.mk.injEq] at same
      obtain ⟨rfl, rfl⟩ := same
      exact ⟨_, _, rfl, rfl⟩

/-- **The tokens of pieces are their words.** -/
theorem lexeme_pieces {pieces : List SpacedWord} (words : ∀ piece ∈ pieces, piece.word.IsWord)
    (apart : SpacedWord.Apart pieces) {c : Char} (plain : isPlainMark c = true) (rest : List Char)
    (offset : Nat) :
    ∃ more, (ofLexemes offset (lex (pieces.flatMap SpacedWord.text ++ c :: rest))).map lexeme =
      pieces.map SpacedWord.word ++ ⟨.mark, [c]⟩ :: more := by
  have notPart := notPart_of_isPlainMark plain
  have behind : ∀ lineStart, Lexes lineStart (c :: rest)
      (⟨.mark, [c]⟩ :: lexSteps rest.length false rest) := by
    intro lineStart
    exact .cons (cut_mark plain _ _) (lexSteps_lexes rest.length false rest (Nat.le_refl _))
  have lexes := SpacedWord.lexes_text words apart behind (by simpa using notPart) true
  rw [lex_eq_iff.mpr lexes, lexeme_ofLexemes, List.filter_append, SpacedWord.filter_lexemes words,
    List.filter_cons_of_pos rfl]
  exact ⟨_, rfl⟩

end Token
end Collage
