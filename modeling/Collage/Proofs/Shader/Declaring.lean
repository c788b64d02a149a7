import Collage.Proofs.Shader.Occurrences

/-!
# Which statements declare uniforms

A source is a row of declarations (`GlobalDeclaration`), and a uniform is declared behind the
word `uniform`.  What stands there is a type and names, with a word for the precision in front
of them or not (`PlainStatement`), or something unusual: an array, an initial value, a layout,
a block.  Nothing more about it is needed than that it does not begin like a plain statement and
has a mark at its end, which stops the reading before the next declaration
(`declaredNames_append`).  Thus each declaration is read by itself
(`declarationsAmong_append`).

`uniformDeclarations_eq` says what is found: the names of all plain statements, in their order.
That includes two sorts of statements that were to be left out, those with qualifiers in front
of `uniform` and those of the members of a block.  The same theorem says that nothing else is
found that was to be left out.
-/

namespace Collage

/-! ### Statements -/

/-- The word `uniform` is not among tokens. -/
def IsFree (tokens : List Token) : Prop :=
  ∀ token ∈ tokens, token.isWord "uniform" = false

/-- Tokens end with one of some marks. -/
def EndsWith (marks : List Char) (tokens : List Token) : Prop :=
  tokens.getLast?.any (fun last => marks.any last.isMark) = true

/-- Tokens end with the mark that ends a statement or opens a block. -/
def IsClosed (tokens : List Token) : Prop :=
  EndsWith [';', '{'] tokens

/-- Names with commas between them and a semicolon behind the last. -/
inductive NameList
  | last (name semicolon : Token) (isName : name.isIdentifier = true)
      (isSemicolon : semicolon.isMark ';' = true)
  | more (name comma : Token) (isName : name.isIdentifier = true)
      (isComma : comma.isMark ',' = true) (others : NameList)

namespace NameList

def tokens : NameList → List Token
  | last name semicolon _ _ => [name, semicolon]
  | more name comma _ _ others => name :: comma :: others.tokens

def names : NameList → List Token
  | last name _ _ _ => [name]
  | more name _ _ _ others => name :: others.names

def semicolon : NameList → Token
  | last _ semicolon _ _ => semicolon
  | more _ _ _ _ others => others.semicolon

end NameList

theorem NameList.isMark_semicolon (list : NameList) : list.semicolon.isMark ';' = true := by
  induction list with
  | last _ _ _ isSemicolon => exact isSemicolon
  | more _ _ _ _ _ ih => exact ih

theorem NameList.semicolon_mem (list : NameList) : list.semicolon ∈ list.tokens := by
  induction list with
  | last => simp [semicolon, tokens]
  | more _ _ _ _ _ ih => simp [semicolon, tokens, ih]

/-- A type and names, which is what may follow the word `uniform`. -/
structure PlainStatement where
  precision : Option Token
  type : Token
  list : NameList
  isPrecision : ∀ word ∈ precision,
    word.isIdentifier = true ∧ precisionWords.contains word.word = true
  isType : type.isIdentifier = true
  notPrecision : precision = none → precisionWords.contains type.word = false

namespace PlainStatement

def tokens (statement : PlainStatement) : List Token :=
  statement.precision.toList ++ statement.type :: statement.list.tokens

/-- Each name with the type of all and what follows the semicolon on its line. -/
def declares (source : List Char) (statement : PlainStatement) : List UniformDeclaration :=
  statement.list.names.map fun name =>
    ⟨statement.type.word, name.word, name.offset,
      trailingText source (statement.list.semicolon.offset + 1)⟩

end PlainStatement

/-- What follows the word `uniform`, up to the end of the statement or to the members of a
block. -/
inductive UniformTail
  | plain (statement : PlainStatement)
  | unusual (tokens : List Token) (free : IsFree tokens)
      (closed : IsClosed tokens)
      (notPlain : ∀ statement : PlainStatement, ¬ statement.tokens <+: tokens)

namespace UniformTail

def tokens : UniformTail → List Token
  | plain statement => statement.tokens
  | unusual tokens _ _ _ => tokens

def declares (source : List Char) : UniformTail → List UniformDeclaration
  | plain statement => statement.declares source
  | unusual .. => []

def IsUnusual : UniformTail → Prop
  | plain _ => False
  | unusual .. => True

end UniformTail

/-- A statement of uniforms: `before` are the qualifiers in front. -/
structure UniformStatement where
  before : List Token
  keyword : Token
  tail : UniformTail
  free : IsFree before
  unended : ∀ token ∈ before, token.isMark ';' = false ∧ token.isMark '}' = false
  isKeyword : keyword.isWord "uniform" = true

def UniformStatement.tokens (statement : UniformStatement) : List Token :=
  statement.before ++ statement.keyword :: statement.tail.tokens

/-- A member of a block, which may repeat the word `uniform`. -/
inductive BlockMember
  | plain (tokens : List Token) (free : IsFree tokens)
  | uniform (statement : UniformStatement)

def BlockMember.tokens : BlockMember → List Token
  | plain tokens _ => tokens
  | uniform statement => statement.tokens

def BlockMember.declares (source : List Char) : BlockMember → List UniformDeclaration
  | plain .. => []
  | uniform statement => statement.tail.declares source

/-- A declaration of a source: code without the word `uniform`, such as a function, a structure or
a constant, a statement of uniforms, or a block of them. -/
inductive GlobalDeclaration
  | code (tokens : List Token) (free : IsFree tokens) (ended : EndsWith [';', '}'] tokens)
  | uniforms (statement : UniformStatement) (ended : EndsWith [';'] statement.tokens)
  | block (head : UniformStatement) (opens : EndsWith ['{'] head.tokens)
      (members : List BlockMember) (closing : List Token) (free : IsFree closing)
      (ended : EndsWith [';'] closing)

namespace GlobalDeclaration

def tokens : GlobalDeclaration → List Token
  | code tokens _ _ => tokens
  | uniforms statement _ => statement.tokens
  | block head _ members closing _ _ =>
    head.tokens ++ (members.flatMap BlockMember.tokens ++ closing)

/-- What a declaration is to declare: the names of a plain statement with nothing in front. -/
def promised (source : List Char) : GlobalDeclaration → List UniformDeclaration
  | uniforms ⟨[], _, tail, _, _, _⟩ _ => tail.declares source
  | _ => []

/-- What is found in it. -/
def found (source : List Char) : GlobalDeclaration → List UniformDeclaration
  | code .. => []
  | uniforms statement _ => statement.tail.declares source
  | block _ _ members _ _ _ => members.flatMap (BlockMember.declares source)

/-- A plain statement has nothing in front of `uniform`, and none is the member of a block. -/
def IsRegular : GlobalDeclaration → Prop
  | code .. => True
  | uniforms statement _ => statement.before = [] ∨ statement.tail.IsUnusual
  | block _ _ members _ _ _ =>
    ∀ statement, BlockMember.uniform statement ∈ members → statement.tail.IsUnusual

end GlobalDeclaration

/-! ### Names -/

theorem declaredNames_length (tokens : List Token) :
    (declaredNames tokens).2.2.length ≤ tokens.length := by
  fun_induction declaredNames tokens with
  | case5 name mark rest identifier comma names semicolon after found ih =>
    rw [found] at ih
    simp only [List.length_cons] at ih ⊢
    omega
  | _ => simp

theorem declaredNames_list (list : NameList) (rest : List Token) :
    declaredNames (list.tokens ++ rest) =
      (list.names, some list.semicolon.offset, list.semicolon :: rest) := by
  induction list with
  | last name semicolon isName isSemicolon =>
    have notComma : semicolon.isMark ',' = false := Token.isMark_eq isSemicolon ','
    simp [NameList.tokens, NameList.names, NameList.semicolon, declaredNames, isName, notComma,
      isSemicolon]
  | more name comma isName isComma others ih =>
    simp [NameList.tokens, NameList.names, NameList.semicolon, declaredNames, isName, isComma, ih]

theorem isClosed_singleton {last : Token} :
    IsClosed [last] ↔ last.isMark ';' = true ∨ last.isMark '{' = true := by
  simp [IsClosed, EndsWith]

theorem not_identifier_of_closed {last : Token} (h : IsClosed [last]) :
    last.isIdentifier = false := by
  rcases isClosed_singleton.mp h with mark | mark
  · exact Token.not_isIdentifier_of_isMark mark
  · exact Token.not_isIdentifier_of_isMark mark

theorem EndsWith.of_append {marks : List Char} (front : List Token) {rest : List Token}
    (h : EndsWith marks (front ++ rest)) (more : rest ≠ []) : EndsWith marks rest := by
  rwa [EndsWith, List.getLast?_append_of_ne_nil _ more] at h

theorem IsClosed.tail {first : Token} {rest : List Token} (h : IsClosed (first :: rest))
    (more : rest ≠ []) : IsClosed rest :=
  EndsWith.of_append [first] h more

/-- Where tokens are closed, reading stops among them: at the semicolon of a list of names, or
without one. -/
theorem declaredNames_append : ∀ {tokens : List Token}, IsClosed tokens → ∀ rest : List Token,
    (∃ (list : NameList) (behind : List Token), tokens = list.tokens ++ behind) ∨
      ∃ names behind, behind ⊆ tokens ∧
        declaredNames (tokens ++ rest) = (names, none, behind ++ rest)
  | [], closed, _ => by cases closed
  | [last], closed, rest => by
    have notName := not_identifier_of_closed closed
    refine .inr ⟨[], [last], List.Subset.refl _, ?_⟩
    cases rest <;> simp [declaredNames, notName]
  | name :: mark :: more, closed, rest => by
    have closed' := closed.tail (List.cons_ne_nil mark more)
    by_cases isName : name.isIdentifier = true
    · by_cases isComma : mark.isMark ',' = true
      · have nonempty : more ≠ [] := by
          rintro rfl
          have other := isClosed_singleton.mp closed'
          rw [Token.isMark_eq isComma, Token.isMark_eq isComma] at other
          exact absurd other (by decide)
        rcases declaredNames_append (closed'.tail nonempty) rest with
          ⟨list, behind, rfl⟩ | ⟨names, behind, inside, found⟩
        · exact .inl ⟨.more name mark isName isComma list, behind, rfl⟩
        · refine .inr ⟨name :: names, behind, ?_, ?_⟩
          · exact List.subset_cons_of_subset _ (List.subset_cons_of_subset _ inside)
          · simp [declaredNames, isName, isComma, found]
      · by_cases isSemicolon : mark.isMark ';' = true
        · exact .inl ⟨.last name mark isName isSemicolon, more, rfl⟩
        · refine .inr ⟨[name], mark :: more, List.subset_cons_self _ _, ?_⟩
          simp [declaredNames, isName, isComma, isSemicolon]
    · refine .inr ⟨[], name :: mark :: more, List.Subset.refl _, ?_⟩
      simp [declaredNames, isName]

/-! ### Statements -/

variable {source : List Char}

/-- Behind the type come names. -/
theorem uniformStatement_typed {precision : Option Token} {type : Token}
    (isType : type.isIdentifier = true)
    (isPrecision : ∀ word ∈ precision,
      word.isIdentifier = true ∧ precisionWords.contains word.word = true)
    (notPrecision : precision = none → precisionWords.contains type.word = false)
    (rest : List Token) :
    uniformStatement source (precision.toList ++ type :: rest) =
      match declaredNames rest with
      | (_, none, after) => ([], after)
      | (names, some offset, after) =>
        (names.map fun name =>
          ⟨type.word, name.word, name.offset, trailingText source (offset + 1)⟩, after) := by
  unfold uniformStatement
  cases precision with
  | none =>
    simp only [Option.toList_none, List.nil_append, notPrecision rfl, Bool.and_false,
      Bool.false_eq_true, if_false, isType, Bool.not_true]
    rcases declaredNames rest with ⟨names, _ | offset, after⟩ <;> rfl
  | some word =>
    obtain ⟨isWord, among⟩ := isPrecision word rfl
    simp only [Option.toList_some, List.cons_append, List.nil_append, isWord, among, Bool.and_true,
      if_true, isType, Bool.not_true, Bool.false_eq_true, if_false]
    rcases declaredNames rest with ⟨names, _ | offset, after⟩ <;> rfl

theorem uniformStatement_plain (statement : PlainStatement) (rest : List Token) :
    uniformStatement source (statement.tokens ++ rest) =
      (statement.declares source, statement.list.semicolon :: rest) := by
  rw [PlainStatement.tokens, List.append_assoc, List.cons_append,
    uniformStatement_typed statement.isType statement.isPrecision statement.notPrecision,
    declaredNames_list]
  rfl

theorem uniformStatement_untyped {precision : Option Token} {type : Token}
    (notType : type.isIdentifier = false)
    (isPrecision : ∀ word ∈ precision,
      word.isIdentifier = true ∧ precisionWords.contains word.word = true)
    (rest : List Token) :
    uniformStatement source (precision.toList ++ type :: rest) =
      ([], precision.toList ++ type :: rest) := by
  unfold uniformStatement
  cases precision with
  | none => simp [notType]
  | some word =>
    obtain ⟨isWord, among⟩ := isPrecision word rfl
    simp only [Option.toList_some, List.cons_append, List.nil_append, isWord, among, Bool.and_true,
      if_true, notType, Bool.not_false]

/-- A word for the precision stands in front or does not. -/
theorem exists_precision {tokens : List Token} (closed : IsClosed tokens) :
    ∃ precision type more, tokens = Option.toList precision ++ type :: more ∧
      (∀ word ∈ precision, word.isIdentifier = true ∧ precisionWords.contains word.word = true) ∧
      (type.isIdentifier = true → precision = none → precisionWords.contains type.word = false) ∧
      IsClosed (type :: more) := by
  cases tokens with
  | nil => cases closed
  | cons first others =>
    by_cases among : first.isIdentifier = true ∧ precisionWords.contains first.word = true
    · have nonempty : others ≠ [] := by
        rintro rfl
        rw [not_identifier_of_closed closed] at among
        cases among.1
      obtain ⟨type, more, rfl⟩ := List.exists_cons_of_ne_nil nonempty
      refine ⟨some first, type, more, rfl, ?_, ?_, closed.tail nonempty⟩
      · rintro _ ⟨⟩
        exact among
      · intro _ none
        cases none
    · refine ⟨none, first, others, rfl, ?_, fun isType _ => ?_, closed⟩
      · intro _ none
        cases none
      · exact Bool.eq_false_iff.mpr fun word => among ⟨isType, word⟩

/-- A plain statement has names, commas and one semicolon, at its end. -/
theorem PlainStatement.mem_tokens {statement : PlainStatement} {token : Token}
    (h : token ∈ statement.tokens) :
    token.isIdentifier = true ∨ token.isMark ',' = true ∨ token = statement.list.semicolon := by
  have listed : ∀ list : NameList, token ∈ list.tokens →
      token.isIdentifier = true ∨ token.isMark ',' = true ∨ token = list.semicolon := by
    intro list inside
    induction list with
    | last name semicolon isName _ =>
      simp only [NameList.tokens, List.mem_cons, List.not_mem_nil, or_false] at inside
      rcases inside with rfl | rfl
      · exact .inl isName
      · exact .inr (.inr rfl)
    | more name comma isName isComma others ih =>
      simp only [NameList.tokens, List.mem_cons] at inside
      rcases inside with rfl | rfl | inside
      · exact .inl isName
      · exact .inr (.inl isComma)
      · exact ih inside
  rcases List.mem_append.mp h with precision | behind
  · exact .inl (statement.isPrecision token (Option.mem_toList.mp precision)).1
  · rcases List.mem_cons.mp behind with rfl | inside
    · exact .inl statement.isType
    · exact listed _ inside

/-- **What has another mark before its first semicolon is no plain statement**: an array, an
initial value, a layout or a block. -/
theorem not_plain_of_mark {front back : List Token} {other : Token}
    (unended : ∀ token ∈ front, token.isMark ';' = false) (isOther : other.kind ≠ .identifier)
    (notComma : other.isMark ',' = false) (notEnd : other.isMark ';' = false)
    (statement : PlainStatement) : ¬ statement.tokens <+: front ++ other :: back := by
  intro plain
  have ended : statement.list.semicolon ∈ statement.tokens :=
    List.mem_append_right _ (List.mem_cons_of_mem _ statement.list.semicolon_mem)
  rcases List.prefix_or_prefix_of_prefix plain (List.prefix_append front _) with short | long
  · have notMark := unended _ (short.subset ended)
    rw [statement.list.isMark_semicolon] at notMark
    cases notMark
  · obtain ⟨more, whole⟩ := long
    rw [← whole, List.prefix_append_right_inj] at plain
    cases more with
    | nil =>
      rw [List.append_nil] at whole
      have notMark := unended _ (whole ▸ ended)
      rw [statement.list.isMark_semicolon] at notMark
      cases notMark
    | cons first more =>
      obtain ⟨rfl, _⟩ := List.cons_prefix_cons.mp plain
      have inside : first ∈ statement.tokens := by
        rw [← whole]
        simp
      rcases PlainStatement.mem_tokens inside with name | comma | rfl
      · exact isOther (by simpa [Token.isIdentifier] using name)
      · rw [comma] at notComma
        cases notComma
      · rw [statement.list.isMark_semicolon] at notEnd
        cases notEnd

/-- In what does not begin like a plain statement nothing is found. -/
theorem uniformStatement_unusual {tokens : List Token} (closed : IsClosed tokens)
    (notPlain : ∀ statement : PlainStatement, ¬ statement.tokens <+: tokens) (rest : List Token) :
    ∃ behind, behind ⊆ tokens ∧
      uniformStatement source (tokens ++ rest) = ([], behind ++ rest) := by
  obtain ⟨precision, type, more, rfl, isPrecision, notPrecision, closed'⟩ := exists_precision closed
  rw [List.append_assoc, List.cons_append]
  cases isType : type.isIdentifier with
  | false =>
    refine ⟨_, List.Subset.refl _, ?_⟩
    rw [uniformStatement_untyped isType isPrecision, List.append_assoc, List.cons_append]
  | true =>
    have nonempty : more ≠ [] := by
      rintro rfl
      rw [not_identifier_of_closed closed'] at isType
      cases isType
    rw [uniformStatement_typed isType isPrecision (notPrecision isType)]
    rcases declaredNames_append (closed'.tail nonempty) rest with
      ⟨list, behind, rfl⟩ | ⟨names, behind, inside, found⟩
    · refine absurd ⟨behind, ?_⟩
        (notPlain ⟨precision, type, list, isPrecision, isType, notPrecision isType⟩)
      rw [PlainStatement.tokens, List.append_assoc, List.cons_append]
    · refine ⟨behind, ?_, by rw [found]⟩
      exact List.subset_append_of_subset_right _ (List.subset_cons_of_subset _ inside)

/-! ### Each declaration is read by itself -/

theorem uniformStatement_length (source : List Char) (tokens : List Token) :
    (uniformStatement source tokens).2.length ≤ tokens.length := by
  unfold uniformStatement
  extract_lets typed
  have fewer : typed.length ≤ tokens.length := by
    cases tokens with
    | nil => exact Nat.le_refl _
    | cons token rest =>
      dsimp only [typed]
      split <;> simp
  clear_value typed
  cases typed with
  | nil => exact Nat.le_refl _
  | cons type rest =>
    have shorter := declaredNames_length rest
    rw [List.length_cons] at fewer
    dsimp only
    split
    · exact Nat.le_refl _
    · have fewer : rest.length ≤ tokens.length := by omega
      rcases read : declaredNames rest with ⟨names, _ | offset, after⟩
      all_goals
        rw [read] at shorter
        exact shorter.trans fewer

theorem uniformDeclarationsIn_steps : ∀ {steps steps' : Nat} {tokens : List Token},
    tokens.length < steps → tokens.length < steps' →
      uniformDeclarationsIn source steps tokens = uniformDeclarationsIn source steps' tokens
  | _ + 1, _ + 1, [], _, _ => rfl
  | steps + 1, steps' + 1, token :: rest, enough, enough' => by
    rw [List.length_cons] at enough enough'
    have shorter := uniformStatement_length source rest
    rw [uniformDeclarationsIn, uniformDeclarationsIn]
    split
    · dsimp only
      rw [uniformDeclarationsIn_steps (by omega) (by omega : _ < steps')]
    · exact uniformDeclarationsIn_steps (by omega) (by omega)

/-- The declarations among tokens. -/
def declarationsAmong (source : List Char) (tokens : List Token) : List UniformDeclaration :=
  uniformDeclarationsIn source (tokens.length + 1) tokens

theorem declarationsAmong_free {front : List Token} (free : IsFree front) (rest : List Token) :
    declarationsAmong source (front ++ rest) = declarationsAmong source rest := by
  induction front with
  | nil => rfl
  | cons token front ih =>
    rw [← ih fun other inside => free other (List.mem_cons_of_mem _ inside)]
    unfold declarationsAmong
    rw [List.cons_append, List.length_cons, uniformDeclarationsIn,
      if_neg (by simp [free token List.mem_cons_self])]

theorem declarationsAmong_keyword {keyword : Token} (isKeyword : keyword.isWord "uniform" = true)
    (rest : List Token) :
    declarationsAmong source (keyword :: rest) =
      (uniformStatement source rest).1 ++
        declarationsAmong source (uniformStatement source rest).2 := by
  have shorter := uniformStatement_length source rest
  unfold declarationsAmong
  rw [List.length_cons, uniformDeclarationsIn, if_pos isKeyword]
  dsimp only
  rw [uniformDeclarationsIn_steps (by omega) (Nat.lt_succ_self _)]

theorem IsFree.subset {tokens others : List Token} (h : IsFree others) (fewer : tokens ⊆ others) :
    IsFree tokens :=
  fun token inside => h token (fewer inside)

/-- A statement does not hide what follows it. -/
theorem declarationsAmong_statement (statement : UniformStatement) (rest : List Token) :
    declarationsAmong source (statement.tokens ++ rest) =
      statement.tail.declares source ++ declarationsAmong source rest := by
  rw [UniformStatement.tokens, List.append_assoc, List.cons_append,
    declarationsAmong_free statement.free, declarationsAmong_keyword statement.isKeyword]
  cases statement.tail with
  | plain plain =>
    rw [UniformTail.tokens, uniformStatement_plain]
    have free : IsFree [plain.list.semicolon] := by
      intro token inside
      obtain rfl := List.mem_singleton.mp inside
      exact Token.not_isWord_of_isMark plain.list.isMark_semicolon "uniform"
    exact congrArg _ (declarationsAmong_free free rest)
  | unusual tokens free closed notPlain =>
    obtain ⟨behind, inside, found⟩ := uniformStatement_unusual closed notPlain rest
    rw [UniformTail.tokens, found, declarationsAmong_free (free.subset inside)]
    rfl

theorem declarationsAmong_members (members : List BlockMember) (rest : List Token) :
    declarationsAmong source (members.flatMap BlockMember.tokens ++ rest) =
      members.flatMap (BlockMember.declares source) ++ declarationsAmong source rest := by
  induction members with
  | nil => rfl
  | cons member members ih =>
    rw [List.flatMap_cons, List.flatMap_cons, List.append_assoc, List.append_assoc, ← ih]
    cases member with
    | plain tokens free => exact declarationsAmong_free free _
    | uniform statement => exact declarationsAmong_statement statement _

theorem NameList.not_opens (list : NameList) : ¬ EndsWith ['{'] list.tokens := by
  induction list with
  | last name semicolon _ isSemicolon =>
    simp [EndsWith, tokens, Token.isMark_eq isSemicolon]
  | more name comma _ _ others ih =>
    exact fun opens => ih (opens.of_append [name, comma]
      (List.ne_nil_of_mem others.semicolon_mem))

theorem UniformStatement.not_opens (statement : UniformStatement) {plain : PlainStatement}
    (tail : statement.tail = .plain plain) : ¬ EndsWith ['{'] statement.tokens := by
  have whole : statement.tokens = (statement.before ++ statement.keyword ::
      (plain.precision.toList ++ [plain.type])) ++ plain.list.tokens := by
    simp [UniformStatement.tokens, tail, UniformTail.tokens, PlainStatement.tokens]
  rw [whole]
  exact fun opens => plain.list.not_opens
    (opens.of_append _ (List.ne_nil_of_mem plain.list.semicolon_mem))

/-- **Each declaration is read by itself.** -/
theorem declarationsAmong_append (declaration : GlobalDeclaration) (rest : List Token) :
    declarationsAmong source (declaration.tokens ++ rest) =
      declaration.found source ++ declarationsAmong source rest := by
  cases declaration with
  | code tokens free => exact declarationsAmong_free free rest
  | uniforms statement => exact declarationsAmong_statement statement rest
  | block head opens members closing free =>
    have nothing : head.tail.declares source = [] := by
      cases tail : head.tail with
      | plain statement => exact absurd opens (head.not_opens tail)
      | unusual => rfl
    rw [GlobalDeclaration.tokens, List.append_assoc, List.append_assoc,
      declarationsAmong_statement, nothing, List.nil_append, declarationsAmong_members,
      declarationsAmong_free free]
    rfl

/-! ### What is found and what was promised -/

theorem UniformTail.declares_eq_nil_iff {tail : UniformTail} :
    tail.declares source = [] ↔ tail.IsUnusual := by
  cases tail with
  | plain statement =>
    refine iff_of_false ?_ id
    cases list : statement.list <;> simp [declares, PlainStatement.declares, list, NameList.names]
  | unusual => exact iff_of_true rfl trivial

namespace GlobalDeclaration

theorem promised_eq (declaration : GlobalDeclaration) :
    declaration.promised source = declaration.found source ∨ declaration.promised source = [] := by
  match declaration with
  | code .. => exact .inl rfl
  | uniforms ⟨[], _, _, _, _, _⟩ _ => exact .inl rfl
  | uniforms ⟨_ :: _, _, _, _, _, _⟩ _ => exact .inr rfl
  | block .. => exact .inr rfl

/-- Which declarations are found as promised. -/
theorem found_eq_promised_iff (declaration : GlobalDeclaration) :
    declaration.found source = declaration.promised source ↔ declaration.IsRegular := by
  match declaration with
  | code .. => exact iff_of_true rfl trivial
  | uniforms ⟨[], _, _, _, _, _⟩ _ => exact iff_of_true rfl (.inl rfl)
  | uniforms ⟨_ :: _, _, tail, _, _, _⟩ _ =>
    refine UniformTail.declares_eq_nil_iff.trans ?_
    simp [IsRegular]
  | block _ _ members _ _ _ =>
    refine List.flatMap_eq_nil_iff.trans ?_
    constructor
    · exact fun nothing statement inside => UniformTail.declares_eq_nil_iff.mp (nothing _ inside)
    · intro unusual member inside
      cases member with
      | plain => rfl
      | uniform statement => exact UniformTail.declares_eq_nil_iff.mpr (unusual statement inside)

end GlobalDeclaration

/-- Where some of the parts of a list may be left out, the list is only the same if those were
empty. -/
theorem flatMap_eq_iff {α β : Type} {part kept : α → List β}
    (h : ∀ item, kept item = part item ∨ kept item = []) (items : List α) :
    items.flatMap part = items.flatMap kept ↔ ∀ item ∈ items, part item = kept item := by
  have fewer (items : List α) : (items.flatMap kept).length ≤ (items.flatMap part).length := by
    induction items with
    | nil => exact Nat.le_refl _
    | cons item items ih =>
      rw [List.flatMap_cons, List.flatMap_cons, List.length_append, List.length_append]
      rcases h item with same | none
      · rw [same]
        omega
      · rw [none, List.length_nil]
        omega
  induction items with
  | nil => simp
  | cons item items ih =>
    rw [List.flatMap_cons, List.flatMap_cons, List.forall_mem_cons]
    refine Iff.trans ?_ (and_congr_right fun _ => ih)
    rcases h item with same | none
    · rw [same, List.append_cancel_left_eq, and_iff_right rfl]
    · rw [none, List.nil_append]
      constructor
      · intro whole
        have size := congrArg List.length whole
        have fewer := fewer items
        rw [List.length_append] at size
        have nothing : part item = [] := List.length_eq_zero_iff.mp (by omega)
        exact ⟨nothing, by rwa [nothing] at whole⟩
      · rintro ⟨nothing, same⟩
        rw [nothing, same, List.nil_append]

/-! ### Where declarations stand -/

theorem dropBytes_append (front rest : List Char) :
    dropBytes (byteSize front) (front ++ rest) = rest := by
  induction front with
  | nil => cases rest <;> rfl
  | cons c front ih =>
    have positive := c.utf8Size_pos
    rw [List.cons_append, byteSize_cons, dropBytes, Nat.add_sub_cancel_left, ih]
    omega

theorem Token.exists_append {token : Token} (h : token ∈ Token.ofSource source) :
    ∃ front back, source = front ++ (token.text ++ back) ∧ byteSize front = token.offset := by
  obtain ⟨before, lexeme, behind, whole, _, rfl⟩ := Token.mem_ofLexemes.mp h
  refine ⟨before.flatMap Lexeme.text, behind.flatMap Lexeme.text, ?_, (Nat.zero_add _).symm⟩
  rw [← Lexeme.lex_text source, whole, List.flatMap_append, List.flatMap_cons]

/-- The name of a uniform stands where it is said to stand, and what trails is the rest of the line
behind a semicolon, without blanks at its ends. -/
structure StandsIn (source : List Char) (d : UniformDeclaration) : Prop where
  name : ∃ front back, source = front ++ (d.name.toList ++ back) ∧ byteSize front = d.offset
  trailing : ∃ front line back, source = front ++ ';' :: (line ++ back) ∧ '\n' ∉ line ∧
    (∀ c ∈ back.head?, c = '\n') ∧ d.trailing = String.ofList (trim line)

theorem NameList.names_subset (list : NameList) : list.names ⊆ list.tokens := by
  induction list with
  | last => simp [names, tokens]
  | more name comma _ _ others ih =>
    refine List.cons_subset_cons _ (List.subset_cons_of_subset _ ih)

theorem PlainStatement.standsIn {statement : PlainStatement}
    (inside : statement.tokens ⊆ Token.ofSource source) :
    ∀ d ∈ statement.declares source, StandsIn source d := by
  have listed : statement.list.tokens ⊆ Token.ofSource source := by
    refine List.Subset.trans ?_ inside
    exact List.subset_append_of_subset_right _ (List.subset_cons_self _ _)
  intro d declared
  obtain ⟨name, among, rfl⟩ := List.mem_map.mp declared
  constructor
  · rw [Token.toList_word]
    exact Token.exists_append (listed (statement.list.names_subset among))
  · obtain ⟨front, back, whole, size⟩ :=
      Token.exists_append (listed statement.list.semicolon_mem)
    rw [(Token.isMark_iff.mp statement.list.isMark_semicolon).2] at whole
    refine ⟨front, back.takeWhile (· ≠ '\n'), back.dropWhile (· ≠ '\n'), ?_, ?_, ?_, ?_⟩
    · rw [List.takeWhile_append_dropWhile]
      exact whole
    · intro line
      simpa using List.mem_takeWhile_imp line
    · intro c first
      simpa using Lexeme.head?_dropWhile back c first
    · have behind : dropBytes (statement.list.semicolon.offset + 1) source = back := by
        rw [whole, ← size, ← List.append_assoc]
        have size : byteSize front + 1 = byteSize (front ++ [';']) := by
          rw [byteSize_append]
          rfl
        rw [size, dropBytes_append]
      rw [trailingText, behind]

/-- What is found in a declaration is found in one of its plain statements. -/
theorem GlobalDeclaration.exists_plain {declaration : GlobalDeclaration} {d : UniformDeclaration}
    (h : d ∈ declaration.found source) :
    ∃ statement : PlainStatement, statement.tokens ⊆ declaration.tokens ∧
      d ∈ statement.declares source := by
  have plain : ∀ statement : UniformStatement, d ∈ statement.tail.declares source →
      ∃ plain : PlainStatement, plain.tokens ⊆ statement.tokens ∧ d ∈ plain.declares source := by
    rintro ⟨before, keyword, tail, free, unended, isKeyword⟩ declared
    cases tail with
    | unusual => cases declared
    | plain plain =>
      refine ⟨plain, ?_, declared⟩
      exact List.subset_append_of_subset_right _ (List.subset_cons_self _ _)
  cases declaration with
  | code => cases h
  | uniforms statement => exact plain statement h
  | block head opens members closing free =>
    obtain ⟨member, inside, declared⟩ := List.mem_flatMap.mp h
    cases member with
    | plain => cases declared
    | uniform statement =>
      obtain ⟨found, fewer, declared⟩ := plain statement declared
      refine ⟨found, List.Subset.trans fewer ?_, declared⟩
      refine List.subset_append_of_subset_right _ (List.subset_append_of_subset_left _ ?_)
      exact fun token within => List.mem_flatMap.mpr ⟨_, inside, within⟩

/-- **What is found are the names of all plain statements**, each where it stands.  It is what was
promised exactly if no plain statement has qualifiers in front of `uniform` or is the member of a
block. -/
theorem uniformDeclarations_eq {source : List Char} {declarations : List GlobalDeclaration}
    (written : Token.ofSource source = declarations.flatMap GlobalDeclaration.tokens) :
    uniformDeclarations source = declarations.flatMap (GlobalDeclaration.found source) ∧
      (∀ d ∈ uniformDeclarations source, StandsIn source d) ∧
      (uniformDeclarations source = declarations.flatMap (GlobalDeclaration.promised source) ↔
        ∀ declaration ∈ declarations, declaration.IsRegular) := by
  have each (declarations : List GlobalDeclaration) :
      declarationsAmong source (declarations.flatMap GlobalDeclaration.tokens) =
        declarations.flatMap (GlobalDeclaration.found source) := by
    induction declarations with
    | nil => rfl
    | cons declaration declarations ih =>
      rw [List.flatMap_cons, List.flatMap_cons, declarationsAmong_append, ih]
  have all : uniformDeclarations source =
      declarations.flatMap (GlobalDeclaration.found source) := by
    change declarationsAmong source (Token.ofSource source) = _
    rw [written, each]
  refine ⟨all, fun d inside => ?_, ?_⟩
  · rw [all] at inside
    obtain ⟨declaration, among, found⟩ := List.mem_flatMap.mp inside
    obtain ⟨statement, fewer, declared⟩ := GlobalDeclaration.exists_plain found
    refine statement.standsIn (List.Subset.trans fewer ?_) d declared
    rw [written]
    exact fun token within => List.mem_flatMap.mpr ⟨declaration, among, within⟩
  · rw [all, flatMap_eq_iff fun declaration => declaration.promised_eq]
    simp only [GlobalDeclaration.found_eq_promised_iff]

/-- Two uniforms with a comment behind them. -/
def UniformStatement.pair : UniformStatement where
  before := []
  keyword := ⟨.identifier, "uniform".toList, 0⟩
  tail := .plain {
    precision := some ⟨.identifier, "lowp".toList, 8⟩
    type := ⟨.identifier, "int".toList, 13⟩
    list := .more ⟨.identifier, ['a'], 17⟩ ⟨.mark, [','], 18⟩ rfl rfl
      (.last ⟨.identifier, ['b'], 19⟩ ⟨.mark, [';'], 20⟩ rfl rfl)
    isPrecision := by
      rintro _ ⟨⟩
      decide
    isType := rfl
    notPrecision := fun none => by cases none }
  free := fun _ inside => by cases inside
  unended := fun _ inside => by cases inside
  isKeyword := by decide

/-- An array on the next line. -/
def UniformStatement.arrayed : UniformStatement where
  before := []
  keyword := ⟨.identifier, "uniform".toList, 26⟩
  tail := .unusual
    ([⟨.identifier, "int".toList, 34⟩, ⟨.identifier, ['c'], 38⟩] ++ ⟨.mark, ['['], 39⟩ ::
      [⟨.number, ['2'], 40⟩, ⟨.mark, [']'], 41⟩, ⟨.mark, [';'], 42⟩])
    (by unfold IsFree; decide) (by unfold IsClosed EndsWith; decide)
    (not_plain_of_mark (by decide) (by decide) (by decide) (by decide))
  free := fun _ inside => by cases inside
  unended := fun _ inside => by cases inside
  isKeyword := by decide

theorem uniformDeclarations_eq_pair :
    uniformDeclarations "uniform lowp int a,b;//x \nuniform int c[2];".toList =
      [⟨"int", "a", 17, "//x"⟩, ⟨"int", "b", 19, "//x"⟩] := by
  have written : Token.ofSource "uniform lowp int a,b;//x \nuniform int c[2];".toList =
      [GlobalDeclaration.uniforms .pair (by unfold EndsWith; decide +kernel),
        .uniforms .arrayed (by unfold EndsWith; decide +kernel)].flatMap
          GlobalDeclaration.tokens := by
    decide +kernel
  have found := (uniformDeclarations_eq written).1
  rw [found]
  decide +kernel

/-- A uniform with a layout. -/
def UniformStatement.qualified : UniformStatement where
  before := [⟨.identifier, "layout".toList, 0⟩, ⟨.mark, ['('], 6⟩,
    ⟨.identifier, "location".toList, 7⟩, ⟨.mark, ['='], 16⟩, ⟨.number, ['0'], 18⟩,
    ⟨.mark, [')'], 19⟩]
  keyword := ⟨.identifier, "uniform".toList, 21⟩
  tail := .plain {
    precision := none
    type := ⟨.identifier, "float".toList, 29⟩
    list := .last ⟨.identifier, ['x'], 35⟩ ⟨.mark, [';'], 36⟩ rfl rfl
    isPrecision := fun _ none => by cases none
    isType := rfl
    notPrecision := fun _ => by decide }
  free := by unfold IsFree; decide
  unended := by decide
  isKeyword := by decide

/-- A uniform with a layout is found, although none was promised. -/
theorem exists_unpromised :
    ∃ (source : List Char) (declarations : List GlobalDeclaration),
      source = "layout(location = 0) uniform float x;".toList ∧
        Token.ofSource source = declarations.flatMap GlobalDeclaration.tokens ∧
        declarations.flatMap (GlobalDeclaration.promised source) = [] ∧
        uniformDeclarations source = [⟨"float", "x", 35, ""⟩] :=
  ⟨_, [.uniforms .qualified (by unfold EndsWith; decide +kernel)], rfl, by decide +kernel, rfl,
    by decide +kernel⟩

end Collage
