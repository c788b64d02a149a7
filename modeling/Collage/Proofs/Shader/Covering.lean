import Collage.Proofs.Shader.Searching
import Collage.Proofs.Shader.Spelling

/-!
# Tokens where they stand

Every token is cut out of the source at its offset, tokens stand one behind the other, and whatever
no token covers is a blank or belongs to a comment or a preprocessor line (`Faithful`).

The comments and preprocessor lines are described by their texts and by what follows them (`Gap`),
not by the way in which a source is cut.  The lexemes cover the source without a hole
(`exists_lexeme_at`), and one that is no token is such a gap (`Lexeme.Cut.gap`).
-/

namespace Collage

/-- What stands between tokens, and what follows it.  A preprocessor line needs a `fresh` line. -/
inductive Gap (fresh : Prop) : List Char → List Char → Prop
  | blank {c : Char} {back : List Char} : isPlainBlank c = true → Gap fresh [c] back
  | line {body back : List Char} : '\n' ∉ body → (∀ c ∈ back.head?, c = '\n') →
      Gap fresh ('/' :: '/' :: body) back
  | block {body back : List Char} : ¬ ['*', '/'] <:+: body ++ ['*'] →
      Gap fresh ('/' :: '*' :: (body ++ ['*', '/'])) back
  | unclosed {body : List Char} : ¬ ['*', '/'] <:+: body → Gap fresh ('/' :: '*' :: body) []
  | directive {body back : List Char} : fresh →
      ('#' :: body).IsChain (fun c d => d = '\n' → c = '\\') →
      (∀ c ∈ back.head?, c = '\n' ∧ ('#' :: body).getLast? ≠ some '\\') →
      Gap fresh ('#' :: body) back

namespace Token

/-- The byte behind a token. -/
def stop (token : Token) : ℕ :=
  token.offset + byteSize token.text

/-- No token has bytes in common with those from one place to another. -/
def Apart (tokens : List Token) (start stop : ℕ) : Prop :=
  ∀ token ∈ tokens, token.stop ≤ start ∨ stop ≤ token.offset

/-- No token stands before a place on its line. -/
def FreshLine (tokens : List Token) (front : List Char) : Prop :=
  ∃ before line, front = before ++ line ∧ (∀ c ∈ before.getLast?, c = '\n') ∧
    Apart tokens (byteSize before) (byteSize front)

/-- A byte is a blank or belongs to a comment or a preprocessor line. -/
def Skipped (source : List Char) (tokens : List Token) (i : ℕ) : Prop :=
  ∃ front gap back, source = front ++ (gap ++ back) ∧
    i ∈ Set.Ico (byteSize front) (byteSize (front ++ gap)) ∧
    Apart tokens (byteSize front) (byteSize (front ++ gap)) ∧ Gap (FreshLine tokens front) gap back

/-- Tokens are where and what they claim to be, and leave out no more than they may. -/
structure Faithful (source : List Char) (tokens : List Token) : Prop where
  text : ∀ token ∈ tokens, piece? source token.offset token.stop = some token.text
  nonempty : ∀ token ∈ tokens, token.text ≠ []
  increasing : tokens.Pairwise fun token next => token.offset < next.offset
  disjoint : tokens.Pairwise fun token next => token.stop ≤ next.offset
  complete : ∀ token ∈ tokens, token.isIdentifier = true →
    (bytesOf source)[token.stop]?.any isIdentifierByte = false
  covered : ∀ i < byteSize source,
    (∃ token ∈ tokens, i ∈ Set.Ico token.offset token.stop) ∨ Skipped source tokens i

end Token

namespace Lexeme

/-! ### Gaps -/

/-- A block comment ends at the first star with a stroke behind it, or not at all. -/
theorem blockSpan_cases (text : List Char) :
    (blockSpan text = (text, []) ∧ ¬ ['*', '/'] <:+: text) ∨
      ∃ body, (blockSpan text).1 = body ++ ['*', '/'] ∧ ¬ ['*', '/'] <:+: body ++ ['*'] := by
  fun_induction blockSpan text with
  | case1 rest => exact .inr ⟨[], rfl, by decide⟩
  | case2 => exact .inl ⟨rfl, by simp⟩
  | case3 c rest notEnd span after same ih =>
    rw [same] at ih
    rcases ih with ⟨open', notInside⟩ | ⟨body, closed, notInside⟩
    · refine .inl ⟨?_, ?_⟩
      · obtain ⟨rfl, rfl⟩ := Prod.mk.inj open'
        rfl
      · rw [List.infix_cons_iff, not_or]
        refine ⟨?_, notInside⟩
        rintro ⟨more, whole⟩
        obtain ⟨rfl, rfl⟩ := List.cons.inj whole
        exact notEnd more rfl rfl
    · refine .inr ⟨c :: body, congrArg _ closed, ?_⟩
      rw [List.cons_append, List.infix_cons_iff, not_or]
      refine ⟨?_, notInside⟩
      rintro ⟨more, whole⟩
      obtain ⟨rfl, slash⟩ := List.cons.inj whole
      -- the comment begins with the stroke that would have ended it
      have first : rest.head? = some '/' := by
        have whole := blockSpan_append rest
        rw [same] at whole
        dsimp only at closed whole
        rw [← whole, closed, List.append_assoc, ← List.singleton_append (x := '*'),
          List.append_assoc, ← List.append_assoc body, ← slash]
        rfl
      obtain ⟨more, rfl⟩ := List.head?_eq_some_iff.mp first
      exact notEnd more rfl rfl

/-- A line feed in a preprocessor line stands behind a backslash. -/
theorem directiveSpan_chain (previous : Char) (text : List Char) :
    (previous :: (directiveSpan previous text).1).IsChain fun c d => d = '\n' → c = '\\' := by
  fun_induction directiveSpan previous text with
  | case1 => exact .singleton _
  | case2 => exact .singleton _
  | case3 previous c rest go span after same ih =>
    rw [same] at ih
    refine .cons_cons (fun newLine => ?_) ih
    by_contra other
    exact go ⟨newLine, other⟩

theorem directiveSpan_last (previous : Char) (text : List Char) :
    ∀ d ∈ (directiveSpan previous text).2.head?, d = '\n' ∧
      (previous :: (directiveSpan previous text).1).getLast? ≠ some '\\' := by
  fun_induction directiveSpan previous text with
  | case1 => simp
  | case2 previous c rest stop => simpa using stop
  | case3 previous c rest go span after same ih =>
    rw [same] at ih
    simpa [List.getLast?_cons] using ih

variable {lineStart : Bool} {c : Char} {rest : List Char} {lexeme : Lexeme} {after : List Char}

/-- **What is no token is a gap.** -/
theorem Cut.gap (cut : Cut lineStart c rest lexeme after) (notToken : lexeme.isToken = false)
    {fresh : Prop} (first : lineStart = true → fresh) : Gap fresh lexeme.text after := by
  cases cut with
  | blank isBlank => exact .blank isBlank
  | @lineComment rest head =>
    obtain ⟨others, rfl⟩ := List.head?_eq_some_iff.mp head
    rw [List.takeWhile_cons, if_pos (by decide), List.dropWhile_cons, if_pos (by decide)]
    refine .line (fun inside => absurd (List.mem_takeWhile_imp inside) (by simp)) fun d first => ?_
    simpa using head?_dropWhile others d first
  | @blockComment rest =>
    have whole := blockSpan_append rest
    rcases blockSpan_cases rest with ⟨open', notInside⟩ | ⟨body, closed, notInside⟩
    · rw [open']
      exact .unclosed notInside
    · rw [closed]
      exact .block notInside
  | directive start =>
    exact .directive (first start) (directiveSpan_chain '#' _) (directiveSpan_last '#' _)
  | _ => cases notToken

/-! ### One lexeme among others -/

theorem Lexes.text {text : List Char} {lexemes : List Lexeme} (h : Lexes lineStart text lexemes) :
    lexemes.flatMap Lexeme.text = text := by
  induction h with
  | nil => rfl
  | cons cut _ ih => rw [List.flatMap_cons, ih, cut.append]

theorem Lexes.split {text : List Char} {before behind : List Lexeme}
    (h : Lexes lineStart text (before ++ lexeme :: behind)) :
    ∃ c rest, text = before.flatMap Lexeme.text ++ c :: rest ∧
      Cut (before.foldl lineStartAfter lineStart) c rest lexeme (behind.flatMap Lexeme.text) := by
  induction before generalizing lineStart text with
  | nil =>
    cases h with
    | @cons _ c rest _ _ _ cut others => exact ⟨c, rest, rfl, others.text ▸ cut⟩
  | cons first before ih =>
    cases h with
    | cons cut others =>
      obtain ⟨c, rest, rfl, found⟩ := ih others
      exact ⟨c, rest, by rw [List.flatMap_cons, List.append_assoc, cut.append], found⟩

/-- Where a preprocessor line may begin, only blanks and comments stand on the line. -/
theorem exists_line (lexemes : List Lexeme) (fresh : lexemes.foldl lineStartAfter true = true) :
    ∃ before line, lexemes = before ++ line ∧
      (∀ c ∈ (before.flatMap Lexeme.text).getLast?, c = '\n') ∧
      ∀ lexeme ∈ line, lexeme.isToken = false := by
  induction lexemes using List.reverseRecOn with
  | nil => exact ⟨[], [], rfl, by simp, by simp⟩
  | append_singleton lexemes last ih =>
    rw [List.foldl_append, List.foldl_cons, List.foldl_nil, lineStartAfter] at fresh
    split at fresh
    · cases fresh
    · next notToken =>
      rw [Bool.or_eq_true, decide_eq_true_eq] at fresh
      rcases fresh with fresh | newLine
      · obtain ⟨before, line, rfl, ends, skipped⟩ := ih fresh
        refine ⟨before, line ++ [last], List.append_assoc .., ends, fun lexeme inside => ?_⟩
        rcases List.mem_append.mp inside with inside | inside
        · exact skipped lexeme inside
        · rw [List.mem_singleton.mp inside]
          exact Bool.eq_false_iff.mpr notToken
      · exact ⟨lexemes ++ [last], [], (List.append_nil _).symm, by simp [newLine], by simp⟩

/-- **Lexemes leave out no byte.** -/
theorem exists_lexeme_at (lexemes : List Lexeme) {i : ℕ}
    (inside : i < byteSize (lexemes.flatMap Lexeme.text)) :
    ∃ before lexeme behind, lexemes = before ++ lexeme :: behind ∧
      i ∈ Set.Ico (byteSize (before.flatMap Lexeme.text))
        (byteSize (before.flatMap Lexeme.text ++ lexeme.text)) := by
  induction lexemes using List.reverseRecOn with
  | nil => cases inside
  | append_singleton lexemes last ih =>
    rcases Nat.lt_or_ge i (byteSize (lexemes.flatMap Lexeme.text)) with earlier | later
    · obtain ⟨before, lexeme, behind, rfl, here⟩ := ih earlier
      exact ⟨before, lexeme, behind ++ [last], by simp, here⟩
    · exact ⟨lexemes, last, [], rfl, later, by simpa using inside⟩

end Lexeme

namespace Token

variable {lexemes : List Lexeme} {token : Token}

/-! ### Tokens among lexemes -/

theorem bounds_of_mem_ofLexemes {offset : ℕ} (inside : token ∈ ofLexemes offset lexemes) :
    offset ≤ token.offset ∧ token.stop ≤ offset + byteSize (lexemes.flatMap Lexeme.text) := by
  obtain ⟨before, lexeme, behind, rfl, _, rfl⟩ := mem_ofLexemes.mp inside
  simp only [stop, List.flatMap_append, List.flatMap_cons, byteSize_append]
  omega

theorem pairwise_ofLexemes (lexemes : List Lexeme) (offset : ℕ) :
    (ofLexemes offset lexemes).Pairwise fun token next => token.stop ≤ next.offset := by
  induction lexemes generalizing offset with
  | nil => exact .nil
  | cons lexeme lexemes ih =>
    rw [ofLexemes]
    split
    · exact .cons (fun next inside => (bounds_of_mem_ofLexemes inside).1) (ih _)
    · exact ih _

theorem apart_ofLexemes (before : List Lexeme) {gap : List Lexeme} (behind : List Lexeme)
    (skipped : ∀ lexeme ∈ gap, lexeme.isToken = false) :
    Apart (ofLexemes 0 (before ++ (gap ++ behind))) (byteSize (before.flatMap Lexeme.text))
      (byteSize ((before ++ gap).flatMap Lexeme.text)) := by
  intro token inside
  have none : ∀ offset, ofLexemes offset gap = [] := by
    intro offset
    rw [List.eq_nil_iff_forall_not_mem]
    intro token inside
    obtain ⟨front, lexeme, back, rfl, isToken, rfl⟩ := mem_ofLexemes.mp inside
    rw [skipped lexeme (by simp)] at isToken
    cases isToken
  rw [ofLexemes_append, ofLexemes_append, none, List.nil_append, List.mem_append] at inside
  rcases inside with inside | inside
  · exact .inl (by simpa using (bounds_of_mem_ofLexemes inside).2)
  · exact .inr (by simpa using (bounds_of_mem_ofLexemes inside).1)

theorem exists_of_mem_ofSource {source : List Char} (inside : token ∈ ofSource source) :
    ∃ lineStart front c rest after, source = front ++ c :: rest ∧ token.offset = byteSize front ∧
      Lexeme.Cut lineStart c rest token.lexeme after := by
  obtain ⟨before, lexeme, behind, whole, _, rfl⟩ := mem_ofLexemes.mp inside
  obtain ⟨c, rest, same, cut⟩ := (whole ▸ Lexeme.lex_lexes source).split
  exact ⟨_, _, c, rest, _, same, Nat.zero_add _, cut⟩

/-- No name goes on behind an identifier. -/
theorem not_part_behind {source : List Char} (inside : token ∈ ofSource source)
    (identifier : token.isIdentifier = true) :
    (bytesOf source)[token.stop]?.any isIdentifierByte = false := by
  obtain ⟨_, front, c, rest, after, rfl, offset, cut⟩ := exists_of_mem_ofSource inside
  have behind : after.head?.any isIdentifierPart = false := by
    rw [Bool.eq_false_iff]
    intro part
    obtain ⟨d, first, part⟩ := (Option.any_eq_true ..).mp part
    obtain ⟨e, last, part'⟩ :=
      (Option.any_eq_true ..).mp (isName_of_mem inside identifier).any_ends.2
    have number := cut.touching first part last part'
    cases (of_decide_eq_true identifier).symm.trans number
  have here := getElem?_bytesOf (front ++ token.text) after 0
  rw [Nat.add_zero, ← List.head?_eq_getElem?, byteSize_append, ← offset, List.append_assoc] at here
  rw [← cut.append, stop]
  exact (congrArg _ here).trans ((any_head?_bytesOf Bytewise.identifierPart after).trans behind)

/-- A byte that no token covers is skipped. -/
theorem covered_ofSource {source : List Char} {i : ℕ} (small : i < byteSize source) :
    (∃ token ∈ ofSource source, i ∈ Set.Ico token.offset token.stop) ∨
      Skipped source (ofSource source) i := by
  rw [← Lexeme.lex_text source] at small
  obtain ⟨before, lexeme, behind, whole, here⟩ := Lexeme.exists_lexeme_at _ small
  obtain ⟨c, rest, same, cut⟩ := (whole ▸ Lexeme.lex_lexes source).split
  cases isToken : lexeme.isToken with
  | true =>
    refine .inl ⟨_, mem_ofLexemes.mpr ⟨before, lexeme, behind, whole, isToken, rfl⟩, ?_⟩
    rwa [stop, Nat.zero_add, ← byteSize_append]
  | false =>
    have apart := apart_ofLexemes before behind
      (show ∀ other ∈ [lexeme], other.isToken = false by simpa using isToken)
    rw [← List.singleton_append] at whole
    rw [← whole, List.flatMap_append, List.flatMap_singleton] at apart
    refine .inr ⟨_, lexeme.text, _, by rw [cut.append, same], here, apart, cut.gap isToken ?_⟩
    intro fresh
    obtain ⟨front, line, rfl, ends, skipped⟩ := Lexeme.exists_line before fresh
    refine ⟨_, _, List.flatMap_append, ends, ?_⟩
    rw [List.append_assoc] at whole
    unfold ofSource
    rw [whole]
    exact apart_ofLexemes front _ skipped

/-- **Tokens are where and what they claim to be**, and everything else is blank or belongs to a
comment or to a preprocessor line. -/
theorem faithful_ofSource (source : List Char) : Faithful source (ofSource source) := by
  have nonempty : ∀ token ∈ ofSource source, token.text ≠ [] := by
    intro token inside
    obtain ⟨_, _, _, _, _, _, _, cut⟩ := exists_of_mem_ofSource inside
    exact cut.ne_nil
  have disjoint := pairwise_ofLexemes (Lexeme.lex source) 0
  refine ⟨fun token inside => ?_, nonempty, ?_, disjoint, fun _ => not_part_behind,
    fun _ => covered_ofSource⟩
  · obtain ⟨_, front, c, rest, after, rfl, offset, cut⟩ := exists_of_mem_ofSource inside
    have piece := piece?_append front token.text after
    rw [byteSize_append, ← offset] at piece
    rw [← cut.append]
    exact piece
  · refine disjoint.imp_of_mem fun inside _ before => ?_
    have size := mt byteSize_eq_zero_iff.mp (nonempty _ inside)
    unfold stop at before
    omega

end Token
end Collage
