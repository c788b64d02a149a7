import Collage.Proofs.Shader.Lexing

/-!
# Where names stand

Names are sought in two ways.  `occurrences` goes through the text and leaves out the
letters of a place it has found; `mem_occurrences_iff` says that it finds every place at
which no identifier goes on at either side.  The names themselves are taken from the
tokens: those of declared uniforms and of defined functions are identifiers
(`isName_of_mem_uniformDeclarations`, `isName_of_mem_definedFunctions`).
-/

namespace Collage

/-! ### Places in a text -/

theorem append_inj_of_byteSize {front back front' back' : List Char}
    (whole : front ++ back = front' ++ back') (size : byteSize front = byteSize front') :
    front = front' ∧ back = back' := by
  rcases List.append_eq_append_iff.mp whole with ⟨between, rfl, rfl⟩ | ⟨between, rfl, rfl⟩
  · rw [byteSize_append] at size
    rw [byteSize_eq_zero_iff.mp (by omega : byteSize between = 0)]
    simp
  · rw [byteSize_append] at size
    rw [byteSize_eq_zero_iff.mp (by omega : byteSize between = 0)]
    simp

/-! ### The search -/

/-- A name stands as a whole at a place of a text that `offset` bytes and the character
`previous` come before. -/
def StandsFrom (name : List Char) (previous : Option Char) (offset : Nat) (text : List Char)
    (place : Nat) : Prop :=
  ∃ front back, text = front ++ (name ++ back) ∧ offset + byteSize front = place ∧
    (front.getLast?.or previous).any isIdentifierPart = false ∧
    back.head?.any isIdentifierPart = false

variable {name : List Char} {previous : Option Char} {offset place : Nat}

theorem not_standsFrom_nil (nonempty : name ≠ []) : ¬ StandsFrom name previous offset [] place := by
  rintro ⟨front, back, whole, _⟩
  simp [nonempty] at whole

/-- A name stands at the first place or at one behind it. -/
theorem standsFrom_cons {c : Char} {rest : List Char} :
    StandsFrom name previous offset (c :: rest) place ↔
      (∃ back, c :: rest = name ++ back ∧ offset = place ∧
        previous.any isIdentifierPart = false ∧ back.head?.any isIdentifierPart = false) ∨
      StandsFrom name (some c) (offset + c.utf8Size) rest place := by
  constructor
  · rintro ⟨front, back, whole, size, before, behind⟩
    cases front with
    | nil => exact .inl ⟨back, whole, size, by simpa using before, behind⟩
    | cons d front =>
      obtain ⟨rfl, rfl⟩ := List.cons.inj whole
      refine .inr ⟨front, back, rfl, ?_, ?_, behind⟩
      · rw [byteSize_cons] at size
        omega
      · rw [List.getLast?_cons] at before
        cases last : front.getLast? <;> simpa [last] using before
  · rintro (⟨back, whole, rfl, before, behind⟩ | ⟨front, back, rfl, size, before, behind⟩)
    · exact ⟨[], back, whole, rfl, by simpa using before, behind⟩
    · refine ⟨c :: front, back, rfl, ?_, ?_, behind⟩
      · rw [byteSize_cons]
        omega
      · rw [List.getLast?_cons]
        cases last : front.getLast? <;> simpa [last] using before

theorem standsFrom_append {c : Char} {rest back : List Char} (whole : c :: rest = name ++ back) :
    StandsFrom name previous offset (c :: rest) place ↔
      (offset = place ∧ previous.any isIdentifierPart = false ∧
        back.head?.any isIdentifierPart = false) ∨
      StandsFrom name (some c) (offset + c.utf8Size) rest place := by
  rw [standsFrom_cons]
  refine or_congr_left ⟨?_, fun stands => ⟨back, whole, stands⟩⟩
  rintro ⟨other, whole', stands⟩
  obtain rfl := List.append_cancel_left (whole.symm.trans whole')
  exact stands

/-- The search may leave out the next characters: an identifier goes on in all of them. -/
def MayLeave (previous : Option Char) (skip : Nat) (text : List Char) : Prop :=
  0 < skip → previous.any isIdentifierPart = true ∧
    ∀ c ∈ text.take (skip - 1), isIdentifierPart c = true

theorem MayLeave.next {skip : Nat} {c : Char} {rest : List Char}
    (h : MayLeave previous (skip + 1) (c :: rest)) : MayLeave (some c) skip rest := by
  intro more
  obtain ⟨skip, rfl⟩ := Nat.exists_eq_add_of_lt more
  have others := (h (Nat.succ_pos _)).2
  simp only [Nat.zero_add, Nat.add_sub_cancel, List.take_succ_cons, List.mem_cons] at others ⊢
  exact ⟨others c (.inl rfl), fun d inside => others d (.inr inside)⟩

theorem MayLeave.of_found {c : Char} {rest back : List Char}
    (parts : ∀ d ∈ name, isIdentifierPart d = true) (nonempty : name ≠ [])
    (whole : c :: rest = name ++ back) : MayLeave (some c) (name.length - 1) rest := by
  intro _
  obtain ⟨d, others, rfl⟩ := List.exists_cons_of_ne_nil nonempty
  rw [List.cons_append, List.cons.injEq] at whole
  obtain ⟨rfl, rfl⟩ := whole
  refine ⟨parts _ List.mem_cons_self, fun e inside => parts e (List.mem_cons_of_mem _ ?_)⟩
  rw [List.length_cons, Nat.add_sub_cancel,
    List.take_append_of_le_length (Nat.sub_le _ _)] at inside
  exact List.mem_of_mem_take inside

/-- The search finds all places of a name, whatever it may leave out. -/
theorem mem_occurrencesFrom (parts : ∀ c ∈ name, isIdentifierPart c = true)
    (nonempty : name ≠ []) : ∀ (text : List Char) (previous : Option Char) (offset skip : Nat),
    MayLeave previous skip text →
    (place ∈ occurrencesFrom name previous offset skip text ↔
      StandsFrom name previous offset text place)
  | [], _, _, _, _ => by
    unfold occurrencesFrom
    exact iff_of_false List.not_mem_nil (not_standsFrom_nil nonempty)
  | c :: rest, previous, offset, skip + 1, leave => by
    unfold occurrencesFrom
    dsimp only
    rw [mem_occurrencesFrom parts nonempty rest _ _ skip leave.next, standsFrom_cons]
    refine (or_iff_right ?_).symm
    rintro ⟨_, _, _, before, _⟩
    rw [(leave (Nat.succ_pos skip)).1] at before
    cases before
  | c :: rest, previous, offset, 0, _ => by
    unfold occurrencesFrom
    dsimp only
    by_cases found : name.isPrefixOf (c :: rest) = true
    · obtain ⟨back, whole⟩ := List.isPrefixOf_iff_prefix.mp found
      have later := mem_occurrencesFrom parts nonempty rest (some c) (offset + c.utf8Size) _
        (.of_found parts nonempty whole.symm)
      have behind : (c :: rest).drop name.length = back := by rw [← whole, List.drop_left]
      rw [if_pos found, behind, standsFrom_append whole.symm]
      split
      · next both =>
        simp only [Bool.and_eq_true, Bool.not_eq_true'] at both
        rw [List.mem_cons, later]
        simp only [both, and_true, eq_comm (a := place)]
      · next notBoth =>
        simp only [Bool.and_eq_true, Bool.not_eq_true'] at notBoth
        rw [later]
        exact (or_iff_right fun stands => notBoth stands.2).symm
    · have later := mem_occurrencesFrom parts nonempty rest (some c) (offset + c.utf8Size) 0
        (fun more => absurd more (Nat.lt_irrefl 0))
      rw [if_neg found, later, standsFrom_cons]
      refine (or_iff_right ?_).symm
      rintro ⟨back, whole, _⟩
      exact found (List.isPrefixOf_iff_prefix.mpr ⟨back, whole.symm⟩)

/-- What consists of parts of identifiers is found wherever no identifier goes on at either side. -/
theorem mem_occurrences_of_parts {source : List Char} (parts : ∀ c ∈ name, isIdentifierPart c = true)
    (nonempty : name ≠ []) :
    place ∈ occurrences source name ↔
      ∃ front back, source = front ++ (name ++ back) ∧ byteSize front = place ∧
        front.getLast?.any isIdentifierPart = false ∧
        back.head?.any isIdentifierPart = false := by
  unfold occurrences
  rw [if_neg (by simpa using nonempty),
    mem_occurrencesFrom parts nonempty source none 0 0 fun more => absurd more (Nat.lt_irrefl 0)]
  simp [StandsFrom]

/-- **The search finds a name exactly where no identifier goes on at either side.** -/
theorem mem_occurrences_iff {source : List Char} (h : IsName name) :
    place ∈ occurrences source name ↔
      ∃ front back, source = front ++ (name ++ back) ∧ byteSize front = place ∧
        front.getLast?.any isIdentifierPart = false ∧
        back.head?.any isIdentifierPart = false :=
  mem_occurrences_of_parts h.parts h.ne_nil

/-! ### Names from tokens -/

namespace Token

/-- The lexeme that a token is. -/
def lexeme (token : Token) : Lexeme := ⟨token.kind, token.text⟩

theorem isMark_iff {token : Token} {c : Char} :
    token.isMark c = true ↔ token.kind = .mark ∧ token.text = [c] := by
  simp [isMark]

theorem isMark_eq {token : Token} {c : Char} (h : token.isMark c = true) (d : Char) :
    token.isMark d = decide (c = d) := by
  obtain ⟨kind, text⟩ := isMark_iff.mp h
  simp [isMark, kind, text]

theorem not_isIdentifier_of_isMark {token : Token} {c : Char} (h : token.isMark c = true) :
    token.isIdentifier = false := by
  simp [isIdentifier, (isMark_iff.mp h).1]

theorem not_isWord_of_isMark {token : Token} {c : Char} (h : token.isMark c = true)
    (word : String) : token.isWord word = false := by
  simp [isWord, (isMark_iff.mp h).1]

theorem not_isMark_of_isIdentifier {token : Token} (h : token.isIdentifier = true) (c : Char) :
    token.isMark c = false := by
  cases mark : token.isMark c with
  | false => rfl
  | true =>
    rw [not_isIdentifier_of_isMark mark] at h
    cases h

/-- A token is a lexeme of the code, at the size of what comes before. -/
theorem mem_ofLexemes {token : Token} : ∀ {lexemes : List Lexeme} {offset : Nat},
    token ∈ ofLexemes offset lexemes ↔
      ∃ before lexeme behind, lexemes = before ++ lexeme :: behind ∧ lexeme.isToken = true ∧
        token = ⟨lexeme.kind, lexeme.text, offset + byteSize (before.flatMap Lexeme.text)⟩
  | [], offset => by simp [ofLexemes]
  | first :: rest, offset => by
    have here : (∃ before lexeme behind, first :: rest = before ++ lexeme :: behind ∧
          lexeme.isToken = true ∧
          token = ⟨lexeme.kind, lexeme.text, offset + byteSize (before.flatMap Lexeme.text)⟩) ↔
        (first.isToken = true ∧ token = ⟨first.kind, first.text, offset⟩) ∨
          token ∈ ofLexemes (offset + byteSize first.text) rest := by
      rw [mem_ofLexemes]
      constructor
      · rintro ⟨_ | ⟨_, before⟩, lexeme, behind, whole, isToken, rfl⟩
        · obtain ⟨rfl, rfl⟩ := List.cons.inj whole
          exact .inl ⟨isToken, by simp⟩
        · obtain ⟨rfl, rfl⟩ := List.cons.inj whole
          exact .inr ⟨before, lexeme, behind, rfl, isToken, by simp [Nat.add_assoc]⟩
      · rintro (⟨isToken, rfl⟩ | ⟨before, lexeme, behind, rfl, isToken, rfl⟩)
        · exact ⟨[], first, rest, rfl, isToken, by simp⟩
        · exact ⟨first :: before, lexeme, behind, rfl, isToken, by simp [Nat.add_assoc]⟩
    rw [here, ofLexemes]
    split
    · next isToken => simp [isToken]
    · next notToken => simp [notToken]

theorem isName_of_mem {source : List Char} {token : Token} (h : token ∈ ofSource source)
    (identifier : token.isIdentifier = true) : IsName token.text := by
  obtain ⟨before, lexeme, behind, whole, _, rfl⟩ := mem_ofLexemes.mp h
  refine (Lexeme.lex_lexes source).isName ?_ (by simpa [isIdentifier] using identifier)
  rw [whole]
  simp

theorem toList_word (token : Token) : token.word.toList = token.text :=
  String.toList_ofList

end Token

/-- The words of the identifiers among tokens. -/
def wordsOf (tokens : List Token) : List String :=
  (tokens.filter Token.isIdentifier).map Token.word

theorem wordsOf_subset {tokens others : List Token} (h : tokens ⊆ others) :
    wordsOf tokens ⊆ wordsOf others :=
  List.map_subset _ (List.filter_subset _ h)

theorem wordsOf_tail_subset (token : Token) (rest : List Token) :
    wordsOf rest ⊆ wordsOf (token :: rest) :=
  wordsOf_subset (List.subset_cons_self token rest)

theorem word_mem_wordsOf {tokens : List Token} {token : Token} (h : token ∈ tokens)
    (identifier : token.isIdentifier = true) : token.word ∈ wordsOf tokens :=
  List.mem_map_of_mem (List.mem_filter.mpr ⟨h, identifier⟩)

theorem isName_of_mem_wordsOf {source : List Char} {word : String}
    (h : word ∈ wordsOf (Token.ofSource source)) : IsName word.toList := by
  obtain ⟨token, inside, rfl⟩ := List.mem_map.mp h
  obtain ⟨inside, identifier⟩ := List.mem_filter.mp inside
  rw [token.toList_word]
  exact Token.isName_of_mem inside identifier

/-! ### Uniforms -/

/-- The names between commas are identifiers among the tokens, and what follows them are
tokens, too. -/
theorem declaredNames_subset (tokens : List Token) :
    (declaredNames tokens).1.map Token.word ⊆ wordsOf tokens ∧
      (declaredNames tokens).2.2 ⊆ tokens := by
  fun_induction declaredNames tokens with
  | case1 => exact ⟨List.nil_subset _, List.nil_subset _⟩
  | case3 | case4 => exact ⟨List.nil_subset _, List.Subset.refl _⟩
  | case2 name identifier =>
    have word := word_mem_wordsOf (List.mem_singleton_self name) identifier
    exact ⟨List.cons_subset.mpr ⟨word, List.nil_subset _⟩, List.nil_subset _⟩
  | case6 name mark rest identifier | case7 name mark rest identifier =>
    have word : name.word ∈ wordsOf (name :: mark :: rest) := word_mem_wordsOf List.mem_cons_self
      (by simpa using identifier)
    exact ⟨List.cons_subset.mpr ⟨word, List.nil_subset _⟩, List.subset_cons_self _ _⟩
  | case5 name mark rest identifier comma names semicolon after found ih =>
    rw [found] at ih
    have word : name.word ∈ wordsOf (name :: mark :: rest) := word_mem_wordsOf List.mem_cons_self
      (by simpa using identifier)
    have fewer : rest ⊆ name :: mark :: rest :=
      List.subset_cons_of_subset _ (List.subset_cons_self _ _)
    exact ⟨List.cons_subset.mpr ⟨word, List.Subset.trans ih.1 (wordsOf_subset fewer)⟩,
      List.Subset.trans ih.2 fewer⟩

theorem uniformStatement_subset (source : List Char) (tokens : List Token) :
    (uniformStatement source tokens).1.map (·.name) ⊆ wordsOf tokens ∧
      (uniformStatement source tokens).2 ⊆ tokens := by
  unfold uniformStatement
  extract_lets typed
  have fewer : typed ⊆ tokens := by
    cases tokens with
    | nil => exact List.nil_subset _
    | cons token rest =>
      dsimp only [typed]
      split
      · exact List.subset_cons_self _ _
      · exact List.Subset.refl _
  clear_value typed
  cases typed with
  | nil => exact ⟨List.nil_subset _, List.Subset.refl _⟩
  | cons type rest =>
    have fewer : rest ⊆ tokens := List.Subset.trans (List.subset_cons_self type rest) fewer
    obtain ⟨words, after⟩ := declaredNames_subset rest
    dsimp only
    split
    · exact ⟨List.nil_subset _, List.Subset.refl _⟩
    · split
      · exact ⟨List.nil_subset _, List.Subset.trans after fewer⟩
      · refine ⟨?_, List.Subset.trans after fewer⟩
        rw [List.map_map]
        exact List.Subset.trans words (wordsOf_subset fewer)

theorem uniformDeclarationsIn_subset (source : List Char) (steps : Nat) (tokens : List Token) :
    (uniformDeclarationsIn source steps tokens).map (·.name) ⊆ wordsOf tokens := by
  fun_induction uniformDeclarationsIn source steps tokens with
  | case1 | case2 => exact List.nil_subset _
  | case3 steps token rest opens found after statement ih =>
    obtain ⟨words, fewer⟩ := uniformStatement_subset source rest
    rw [statement] at words fewer
    have all : (found ++ uniformDeclarationsIn source steps after).map (·.name) ⊆ wordsOf rest := by
      rw [List.map_append]
      exact List.append_subset.mpr ⟨words, List.Subset.trans ih (wordsOf_subset fewer)⟩
    exact List.Subset.trans all (wordsOf_tail_subset token rest)
  | case4 steps token rest other ih =>
    exact List.Subset.trans ih (wordsOf_tail_subset token rest)

/-- **A declared uniform has the form of a name.** -/
theorem isName_of_mem_uniformDeclarations {source : List Char} {d : UniformDeclaration}
    (h : d ∈ uniformDeclarations source) : IsName d.name.toList :=
  isName_of_mem_wordsOf (uniformDeclarationsIn_subset _ _ _ (List.mem_map_of_mem h))

/-! ### Functions -/

theorem closeParenthesis_subset (depth : Nat) (tokens : List Token) :
    ∀ found ∈ closeParenthesis depth tokens, found.2.2 ⊆ tokens := by
  fun_induction closeParenthesis depth tokens with
  | case1 => simp
  | case3 token rest =>
    rintro _ ⟨⟩
    exact List.subset_cons_self _ _
  | case2 depth token rest _ ih | case4 token rest _ _ depth ih | case5 depth token rest _ _ ih =>
    intro found closed
    obtain ⟨inner, closed', rfl⟩ := Option.map_eq_some_iff.mp closed
    exact List.subset_cons_of_subset _ (ih inner closed')

/-- The functions found are identifiers among the tokens. -/
theorem functionsIn_subset (steps depth : Nat) (previous : Option Token) (seen : List String)
    (tokens : List Token) :
    functionsIn steps depth previous seen tokens ⊆ seen ++ wordsOf tokens := by
  have tail : ∀ {seen words : List String} (token : Token) (rest : List Token),
      words ⊆ seen ++ wordsOf rest → words ⊆ seen ++ wordsOf (token :: rest) :=
    fun token rest h => List.Subset.trans h
      (List.append_subset.mpr ⟨List.subset_append_left _ _,
        List.subset_append_of_subset_right _ (wordsOf_tail_subset token rest)⟩)
  fun_induction functionsIn steps depth previous seen tokens with
  | case1 | case2 => exact List.subset_append_left _ _
  | case3 | case4 | case6 | case7 | case8 =>
    apply tail
    assumption
  | case5 _ _ _ _ token _ _ typed opening inner call _ _ after closed =>
    rename_i ih
    have identifier : token.isIdentifier = true := by
      simp only [typed, Bool.and_eq_true] at call
      exact call.1.1.2
    have word : token.word ∈ wordsOf (token :: opening :: inner) :=
      word_mem_wordsOf List.mem_cons_self identifier
    have fewer : wordsOf after ⊆ wordsOf (token :: opening :: inner) :=
      wordsOf_subset (List.subset_cons_of_subset _ (List.subset_cons_of_subset _
        (closeParenthesis_subset 0 inner _ closed)))
    refine List.Subset.trans ih (List.append_subset.mpr
      ⟨?_, List.subset_append_of_subset_right _ fewer⟩)
    split
    · refine List.append_subset.mpr ⟨List.subset_append_left _ _, ?_⟩
      exact List.cons_subset.mpr ⟨List.mem_append_right _ word, List.nil_subset _⟩
    · exact List.subset_append_left _ _

/-- **A defined function has the form of a name.** -/
theorem isName_of_mem_definedFunctions {source : List Char} {function : String}
    (h : function ∈ definedFunctions source) : IsName function.toList :=
  isName_of_mem_wordsOf (by simpa using functionsIn_subset _ _ _ _ _ h)

end Collage
