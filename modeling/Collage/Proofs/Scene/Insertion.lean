import Collage.Proofs.Shader.Occurrences
import Collage.Scene.Mangle

/-!
# Lexemes of a text with suffixes

`Mangle.apply` puts a suffix in at places of a source.  `inserted` says what becomes of a
piece of the source, and `applyFrom_eq` that `applyFrom` does this.  Where the places stand
behind parts of identifiers only (`Behind`), each sort of lexeme stays of its sort
(`Cut.inserted`): a comment may hold whatever is put in, an identifier goes on in it, and
behind a mark nothing is put in.  A number must not be touched, as it would end at the
underscore.  Therefore `Lexes.inserted`: the lexemes of the new text are the lexemes of the
old one with what is put into each of them.
-/

namespace Collage
namespace Mangle

/-! ### The suffix in a text -/

/-- What is put in at a place behind a character. -/
def addition (ends : List Nat) (suffix : List Char) (place : Nat) (previous : Option Char) :
    List Char :=
  if ends.contains place then insertion suffix previous else []

/-- A text that `offset` bytes come before, with the suffix behind each character that ends
at one of `ends`. -/
def inserted (ends : List Nat) (suffix : List Char) (offset : Nat) : List Char → List Char
  | [] => []
  | c :: rest =>
    c :: (addition ends suffix (offset + c.utf8Size) (some c) ++
      inserted ends suffix (offset + c.utf8Size) rest)

/-- Only what parts of identifiers end at some of `ends`. -/
def Behind (ends : List Nat) (offset : Nat) : List Char → Prop
  | [] => True
  | c :: rest =>
    (offset + c.utf8Size ∈ ends → isIdentifierPart c = true) ∧
      Behind ends (offset + c.utf8Size) rest

variable {ends : List Nat} {suffix : List Char} {offset : Nat}

theorem addition_of_mem {place : Nat} (h : place ∈ ends) (previous : Option Char) :
    addition ends suffix place previous = insertion suffix previous :=
  if_pos (List.contains_iff_mem.mpr h)

theorem addition_of_notMem {place : Nat} (h : place ∉ ends) (previous : Option Char) :
    addition ends suffix place previous = [] :=
  if_neg fun here => h (List.contains_iff_mem.mp here)

theorem applyFrom_eq (text : List Char) (previous : Option Char) (offset : Nat) :
    applyFrom ends suffix previous offset text =
      addition ends suffix offset previous ++ inserted ends suffix offset text := by
  induction text generalizing previous offset with
  | nil => rw [applyFrom, addition, inserted, List.append_nil]
  | cons c rest ih =>
    rw [applyFrom, inserted, ih]
    by_cases here : offset ∈ ends
    · rw [if_pos (List.contains_iff_mem.mpr here), addition_of_mem here]
    · rw [if_neg fun h => here (List.contains_iff_mem.mp h), addition_of_notMem here,
        List.nil_append]

theorem inserted_append (ends : List Nat) (suffix text more : List Char) (offset : Nat) :
    inserted ends suffix offset (text ++ more) =
      inserted ends suffix offset text ++ inserted ends suffix (offset + byteSize text) more := by
  induction text generalizing offset with
  | nil => simp [inserted]
  | cons c rest ih => simp [inserted, ih, Nat.add_assoc]

@[simp] theorem head?_inserted (text : List Char) :
    (inserted ends suffix offset text).head? = text.head? := by
  cases text <;> rfl

theorem behind_append {text more : List Char} {offset : Nat} :
    Behind ends offset (text ++ more) ↔
      Behind ends offset text ∧ Behind ends (offset + byteSize text) more := by
  induction text generalizing offset with
  | nil => simp [Behind]
  | cons c rest ih => simp [Behind, ih, and_assoc, Nat.add_assoc]

/-- Nothing is put in behind a character that is no part of an identifier. -/
theorem inserted_cons (suffix : List Char) {c : Char}
    (behind : offset + c.utf8Size ∈ ends → isIdentifierPart c = true)
    (notPart : isIdentifierPart c = false) (rest : List Char) :
    inserted ends suffix offset (c :: rest) =
      c :: inserted ends suffix (offset + c.utf8Size) rest := by
  have other : offset + c.utf8Size ∉ ends := by
    intro here
    rw [behind here] at notPart
    cases notPart
  rw [inserted, addition_of_notMem other, List.nil_append]

/-- Where no place lies inside a text, at most what is put in behind it is added. -/
theorem inserted_of_inner {text : List Char} (nonempty : text ≠ [])
    (inner : ∀ front back, text = front ++ back → front ≠ [] → back ≠ [] →
      offset + byteSize front ∉ ends) :
    inserted ends suffix offset text =
      text ++ addition ends suffix (offset + byteSize text) text.getLast? := by
  induction text generalizing offset with
  | nil => exact absurd rfl nonempty
  | cons c rest ih =>
    by_cases more : rest = []
    · subst more
      rw [inserted, inserted, List.append_nil]
      rfl
    · have notHere : offset + c.utf8Size ∉ ends := by
        simpa using inner [c] rest rfl (List.cons_ne_nil _ _) more
      rw [inserted, addition_of_notMem notHere, List.nil_append, ih more, byteSize_cons,
        List.getLast?_cons_of_ne_nil more, Nat.add_assoc]
      · rfl
      · intro front back whole some others
        have later := inner (c :: front) back (by rw [whole]; rfl) (List.cons_ne_nil _ _) others
        rwa [byteSize_cons, ← Nat.add_assoc] at later

theorem part_of_mem_addition (parts : ∀ c ∈ suffix, isIdentifierPart c = true) {place : Nat}
    {previous : Option Char} :
    ∀ c ∈ addition ends suffix place previous, isIdentifierPart c = true := by
  intro c inside
  unfold addition insertion at inside
  split at inside
  · split at inside
    · exact parts c inside
    · rcases List.mem_cons.mp inside with rfl | inside
      · decide
      · exact parts c inside
  · cases inside

/-! ### Spans -/

/-- What goes on in parts of identifiers goes on in all that is put in. -/
theorem span_inserted (ends : List Nat) (parts : ∀ c ∈ suffix, isIdentifierPart c = true)
    {p : Char → Bool} (goesOn : ∀ c, isIdentifierPart c = true → p c = true) (text : List Char)
    (offset : Nat) :
    (inserted ends suffix offset text).takeWhile p =
        inserted ends suffix offset (text.takeWhile p) ∧
      (inserted ends suffix offset text).dropWhile p =
        inserted ends suffix (offset + byteSize (text.takeWhile p)) (text.dropWhile p) := by
  induction text generalizing offset with
  | nil => exact ⟨rfl, rfl⟩
  | cons c rest ih =>
    have through : ∀ d ∈ addition ends suffix (offset + c.utf8Size) (some c), p d = true :=
      fun d inside => goesOn d (part_of_mem_addition parts d inside)
    cases go : p c with
    | false => simp [inserted, go]
    | true =>
      simp only [inserted, List.takeWhile_cons, List.dropWhile_cons, go, if_true]
      rw [List.takeWhile_append_of_pos through, List.dropWhile_append_of_pos through,
        (ih _).1, (ih _).2, byteSize_cons, Nat.add_assoc]
      exact ⟨rfl, rfl⟩

theorem blockSpan_append_of_parts {more : List Char}
    (parts : ∀ c ∈ more, isIdentifierPart c = true) (text : List Char) :
    Lexeme.blockSpan (more ++ text) =
      (more ++ (Lexeme.blockSpan text).1, (Lexeme.blockSpan text).2) := by
  induction more with
  | nil => rfl
  | cons c more ih =>
    have star : c ≠ '*' := (ne_of_part (parts c List.mem_cons_self)).2.2.1
    rw [List.cons_append, Lexeme.blockSpan.eq_3 _ _ (fun _ same => absurd same star),
      ih fun d inside => parts d (List.mem_cons_of_mem _ inside)]
    rfl

/-- A block comment ends where it did. -/
theorem blockSpan_inserted (parts : ∀ c ∈ suffix, isIdentifierPart c = true) (text : List Char)
    (offset : Nat) (behind : Behind ends offset text) :
    Lexeme.blockSpan (inserted ends suffix offset text) =
      (inserted ends suffix offset (Lexeme.blockSpan text).1,
        inserted ends suffix (offset + byteSize (Lexeme.blockSpan text).1)
          (Lexeme.blockSpan text).2) := by
  fun_induction Lexeme.blockSpan text generalizing offset with
  | case2 => rfl
  | case1 rest =>
    have closing := fun more => (inserted_cons suffix behind.1 (by decide) ('/' :: more)).trans
      (congrArg _ (inserted_cons suffix behind.2.1 (by decide) more))
    rw [closing rest, closing [], byteSize_cons, byteSize_cons, ← Nat.add_assoc, ← Nat.add_assoc]
    rfl
  | case3 c rest notEnd text after span ih =>
    have later := ih (offset + c.utf8Size) behind.2
    rw [span] at later
    rw [inserted, inserted, byteSize_cons, ← Nat.add_assoc]
    by_cases here : offset + c.utf8Size ∈ ends
    · have star : c ≠ '*' := (ne_of_part (behind.1 here)).2.2.1
      rw [Lexeme.blockSpan.eq_3 _ _ fun _ same => absurd same star,
        blockSpan_append_of_parts (part_of_mem_addition parts), later]
    · rw [addition_of_notMem here, List.nil_append, Lexeme.blockSpan.eq_3, later]
      · rfl
      · intro more star slash
        have first := congrArg List.head? slash
        rw [head?_inserted] at first
        obtain ⟨others, rfl⟩ := List.head?_eq_some_iff.mp first
        exact notEnd others star rfl

/-- Of the character before it, a preprocessor line only knows if it is a backslash. -/
theorem directiveSpan_congr {previous other : Char} (plain : previous ≠ '\\')
    (plain' : other ≠ '\\') (text : List Char) :
    Lexeme.directiveSpan previous text = Lexeme.directiveSpan other text := by
  cases text with
  | nil => rfl
  | cons c rest => simp only [Lexeme.directiveSpan, plain, plain', ne_eq, not_false_eq_true]

theorem directiveSpan_append_of_parts {more : List Char}
    (parts : ∀ c ∈ more, isIdentifierPart c = true) (text : List Char) {previous : Char}
    (plain : previous ≠ '\\') :
    Lexeme.directiveSpan previous (more ++ text) =
      (more ++ (Lexeme.directiveSpan previous text).1,
        (Lexeme.directiveSpan previous text).2) := by
  induction more generalizing previous with
  | nil => rfl
  | cons c more ih =>
    obtain ⟨_, _, _, _, line, plain'⟩ := ne_of_part (parts c List.mem_cons_self)
    rw [List.cons_append, Lexeme.directiveSpan, if_neg fun both => line both.1,
      ih (fun d inside => parts d (List.mem_cons_of_mem _ inside)) plain',
      directiveSpan_congr plain' plain]
    rfl

theorem directiveSpan_inserted (parts : ∀ c ∈ suffix, isIdentifierPart c = true)
    (previous : Char) (text : List Char) (offset : Nat) (behind : Behind ends offset text) :
    Lexeme.directiveSpan previous (inserted ends suffix offset text) =
      (inserted ends suffix offset (Lexeme.directiveSpan previous text).1,
        inserted ends suffix (offset + byteSize (Lexeme.directiveSpan previous text).1)
          (Lexeme.directiveSpan previous text).2) := by
  fun_induction Lexeme.directiveSpan previous text generalizing offset with
  | case1 => rfl
  | case2 previous c rest stop => exact if_pos stop
  | case3 previous c rest go text after span ih =>
    have later := ih (offset + c.utf8Size) behind.2
    rw [span] at later
    rw [inserted, inserted, byteSize_cons, ← Nat.add_assoc, Lexeme.directiveSpan, if_neg go]
    by_cases here : offset + c.utf8Size ∈ ends
    · have plain : c ≠ '\\' := (ne_of_part (behind.1 here)).2.2.2.2.2
      rw [directiveSpan_append_of_parts (part_of_mem_addition parts) _ plain, later]
    · rw [addition_of_notMem here, List.nil_append, later]
      rfl

theorem numberSpan_congr (previous : Char) (text : List Char) {other : List Char}
    (first : other.head? = (Lexeme.numberSpan previous text).2.head?) :
    Lexeme.numberSpan previous ((Lexeme.numberSpan previous text).1 ++ other) =
      ((Lexeme.numberSpan previous text).1, other) := by
  fun_induction Lexeme.numberSpan previous text with
  | case1 =>
    obtain rfl := List.head?_eq_none_iff.mp first
    rfl
  | case2 previous c rest sign go text after span ih =>
    rw [span] at ih
    rw [List.cons_append, Lexeme.numberSpan]
    dsimp only
    rw [if_pos go, ih first]
  | case3 previous c rest sign stop =>
    obtain ⟨more, rfl⟩ := List.head?_eq_some_iff.mp first
    rw [List.nil_append, Lexeme.numberSpan]
    dsimp only
    rw [if_neg stop]

end Mangle

namespace Lexeme

open Mangle

variable {ends : List Nat} {suffix : List Char} {offset : Nat}

/-! ### Lexemes -/

/-- The lexeme with what is put into it. -/
def withInserted (ends : List Nat) (suffix : List Char) (offset : Nat) (lexeme : Lexeme) : Lexeme :=
  ⟨lexeme.kind, inserted ends suffix offset lexeme.text⟩

/-- **A lexeme stays of its sort**, and what follows it stays what follows it. -/
theorem Cut.inserted (parts : ∀ c ∈ suffix, isIdentifierPart c = true) {lineStart : Bool} {c : Char}
    {rest after : List Char} {lexeme : Lexeme} (h : Cut lineStart c rest lexeme after)
    (behind : Behind ends offset (c :: rest))
    (number : lexeme.kind = .number → inserted ends suffix offset lexeme.text = lexeme.text) :
    ∃ rest', inserted ends suffix offset (c :: rest) = c :: rest' ∧
      Cut lineStart c rest' (lexeme.withInserted ends suffix offset)
        (inserted ends suffix (offset + byteSize lexeme.text) after) := by
  cases h with
  | blank blank =>
    have notPart : isIdentifierPart c = false := by
      rw [Bool.eq_false_iff]
      intro part
      rw [(ne_of_part part).1] at blank
      cases blank
    have whole := inserted_cons suffix behind.1 notPart
    refine ⟨_, whole rest, ?_⟩
    rw [withInserted, whole, byteSize_cons]
    exact .blank blank
  | lineComment head =>
    have whole := inserted_cons suffix behind.1 (by decide)
    have line : ∀ d, isIdentifierPart d = true → decide (d ≠ '\n') = true :=
      fun d part => decide_eq_true (ne_of_part part).2.2.2.2.1
    obtain ⟨text, after⟩ := span_inserted ends parts line rest (offset + '/'.utf8Size)
    refine ⟨_, whole rest, ?_⟩
    rw [withInserted, whole, ← text, byteSize_cons, ← Nat.add_assoc, ← after]
    exact .lineComment (by rwa [head?_inserted])
  | @blockComment rest =>
    have whole := fun more => (inserted_cons suffix behind.1 (by decide) ('*' :: more)).trans
      (congrArg _ (inserted_cons suffix behind.2.1 (by decide) more))
    have span := blockSpan_inserted parts rest _ behind.2.2
    refine ⟨_, whole rest, ?_⟩
    rw [withInserted, whole, byteSize_cons, byteSize_cons, ← Nat.add_assoc, ← Nat.add_assoc]
    have cut : Cut lineStart '/' ('*' :: Mangle.inserted ends suffix
        (offset + '/'.utf8Size + '*'.utf8Size) rest) _ _ := .blockComment
    rwa [span] at cut
  | directive start =>
    have whole := inserted_cons suffix behind.1 (by decide)
    have span := directiveSpan_inserted parts '#' rest _ behind.2
    refine ⟨_, whole rest, ?_⟩
    rw [withInserted, whole, byteSize_cons, ← Nat.add_assoc]
    have cut : Cut lineStart '#' (Mangle.inserted ends suffix (offset + '#'.utf8Size) rest) _ _ :=
      .directive start
    rwa [span] at cut
  | identifier start =>
    have through : ∀ d ∈ addition ends suffix (offset + c.utf8Size) (some c),
        isIdentifierPart d = true := part_of_mem_addition parts
    obtain ⟨text, after⟩ :=
      span_inserted ends parts (fun _ part => part) rest (offset + c.utf8Size)
    refine ⟨_, rfl, ?_⟩
    rw [withInserted, Mangle.inserted, ← text, byteSize_cons, ← Nat.add_assoc, ← after,
      ← List.takeWhile_append_of_pos through, ← List.dropWhile_append_of_pos through]
    exact .identifier start
  | number first =>
    have same := number rfl
    have span := numberSpan_append c rest
    have split := inserted_append ends suffix (c :: (numberSpan c rest).1)
      (numberSpan c rest).2 offset
    rw [List.cons_append, span, same] at split
    generalize after_eq : Mangle.inserted ends suffix
      (offset + byteSize (c :: (numberSpan c rest).1)) (numberSpan c rest).2 = after at split ⊢
    have head : after.head? = (numberSpan c rest).2.head? := by rw [← after_eq, head?_inserted]
    have cut : Cut lineStart c ((numberSpan c rest).1 ++ after) _ _ := .number (by
      rwa [List.head?_append, head, ← List.head?_append, span])
    rw [numberSpan_congr c rest head] at cut
    refine ⟨_, split, ?_⟩
    rwa [withInserted, same]
  | mark blank comment directive notPart point =>
    have whole := inserted_cons suffix behind.1 notPart
    refine ⟨_, whole rest, ?_⟩
    rw [withInserted, whole, byteSize_cons]
    exact .mark blank (by rwa [head?_inserted]) directive notPart (by rwa [head?_inserted])

/-- Lexemes with what is put into them. -/
def eachInserted (ends : List Nat) (suffix : List Char) : Nat → List Lexeme → List Lexeme
  | _, [] => []
  | offset, lexeme :: rest =>
    lexeme.withInserted ends suffix offset ::
      eachInserted ends suffix (offset + byteSize lexeme.text) rest

theorem lineStartAfter_withInserted {lineStart : Bool} {lexeme : Lexeme}
    (behind : Behind ends offset lexeme.text) :
    (lexeme.withInserted ends suffix offset).lineStartAfter lineStart =
      lexeme.lineStartAfter lineStart := by
  have same : Mangle.inserted ends suffix offset lexeme.text = ['\n'] ↔ lexeme.text = ['\n'] := by
    cases text : lexeme.text with
    | nil => simp [Mangle.inserted]
    | cons c rest =>
      rw [text] at behind
      by_cases line : c = '\n'
      · subst line
        rw [inserted_cons suffix behind.1 (by decide)]
        cases rest <;> simp [Mangle.inserted]
      · simp [Mangle.inserted, line]
  unfold lineStartAfter isToken withInserted
  simp only [same]

/-- **The lexemes of the new text are those of the old one with what is put into them**, if
nothing is put into a number or right behind one. -/
theorem Lexes.inserted (parts : ∀ c ∈ suffix, isIdentifierPart c = true) {lineStart : Bool}
    {source : List Char} {lexemes : List Lexeme} (h : Lexes lineStart source lexemes)
    (behind : Behind ends offset source)
    (numbers : ∀ token ∈ Token.ofLexemes offset lexemes, token.kind = .number →
      inserted ends suffix token.offset token.text = token.text) :
    Lexes lineStart (inserted ends suffix offset source)
      (eachInserted ends suffix offset lexemes) := by
  induction h generalizing offset with
  | nil => exact .nil
  | @cons lineStart c rest after lexeme lexemes cut _ ih =>
    have whole := cut.append
    have number : lexeme.kind = .number →
        Mangle.inserted ends suffix offset lexeme.text = lexeme.text := by
      intro kind
      refine numbers ⟨lexeme.kind, lexeme.text, offset⟩ ?_ kind
      exact Token.mem_ofLexemes.mpr ⟨[], lexeme, lexemes, rfl, by simp [isToken, kind], rfl⟩
    obtain ⟨rest', same, cut'⟩ := cut.inserted parts behind number
    rw [← whole, behind_append] at behind
    rw [same]
    refine .cons cut' ?_
    rw [lineStartAfter_withInserted behind.1]
    refine ih behind.2 fun token inside => numbers token ?_
    rw [Token.ofLexemes]
    split
    · exact List.mem_cons_of_mem _ inside
    · exact inside

end Lexeme

namespace Token

theorem lexeme_eachInserted (ends : List Nat) (suffix : List Char) (lexemes : List Lexeme)
    (offset place : Nat) :
    (ofLexemes place (Lexeme.eachInserted ends suffix offset lexemes)).map lexeme =
      (ofLexemes offset lexemes).map fun token =>
        token.lexeme.withInserted ends suffix token.offset := by
  induction lexemes generalizing offset place with
  | nil => rfl
  | cons first rest ih =>
    have kind : (first.withInserted ends suffix offset).isToken = first.isToken := rfl
    rw [Lexeme.eachInserted, ofLexemes, ofLexemes, kind]
    split
    · rw [List.map_cons, List.map_cons, ih]
      rfl
    · exact ih _ _

end Token
end Collage
