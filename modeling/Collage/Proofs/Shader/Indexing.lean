import Collage.Proofs.Shader.Declaring
import Collage.Proofs.Shader.Scanning

/-!
# Declarations by the indices of tokens

The declarations of a source may also be read by an index that moves on over the tokens, with what
trails a declaration cut out of the source between two bytes.  `declarations?` does so, and whatever
is beyond the tokens or the source, or would be cut inside a character, is nothing.

Reading from an index on is reading the tokens behind the first ones (`namesAt?_eq`,
`declarationsFrom?_eq`), and the piece of the source exists as the semicolon in front of it does.
-/

namespace Collage
namespace Scanner

/-! ### Reading by an index -/

/-- The identifier that stands at an index, if one does. -/
def identifierAt? (tokens : List Token) (index : ℕ) : Option Token :=
  tokens[index]?.filter Token.isIdentifier

/-- The names between commas from a token on, the semicolon that ends them, and where to go on. -/
def namesAt? (tokens : List Token) : ℕ → ℕ → Option (List Token × Option ℕ × ℕ)
  | 0, _ => none
  | turns + 1, cursor =>
    match identifierAt? tokens cursor with
    | none => some ([], none, cursor)
    | some name =>
      match tokens[cursor + 1]? with
      | some mark =>
        if mark.isMark ',' then do
          let (names, semicolon, stop) ← namesAt? tokens turns (cursor + 2)
          return (name :: names, semicolon, stop)
        else if mark.isMark ';' then some ([name], some mark.offset, cursor + 1)
        else some ([name], none, cursor + 1)
      | none => some ([name], none, cursor + 1)

/-- What trails a semicolon on its line. -/
def trailing? (source : List Char) (semicolon : ℕ) : Option String := do
  let line ← piece? source (semicolon + 1) (← lineEnd? (bytesOf source) semicolon)
  return String.ofList (trim line)

/-- The declarations of names that have a type. -/
def declared? (source : List Char) (type : Token) (names : List Token) :
    Option ℕ → Option (List UniformDeclaration)
  | none => some []
  | some semicolon => do
    let trailing ← trailing? source semicolon
    return names.map fun name => ⟨type.word, name.word, name.offset, trailing⟩

/-- Where the type stands behind the word that opens a statement. -/
def typeIndex (tokens : List Token) (index : ℕ) : ℕ :=
  if tokens[index]?.any fun token => token.isIdentifier && precisionWords.contains token.word then
    index + 1
  else index

/-- The declarations of the statement behind the word that opens it, and where to go on. -/
def statementAt? (source : List Char) (tokens : List Token) (index : ℕ) :
    Option (List UniformDeclaration × ℕ) :=
  let cursor := typeIndex tokens index
  match identifierAt? tokens cursor with
  | none => some ([], index)
  | some type => do
    let (names, semicolon, stop) ← namesAt? tokens (tokens.length + 1) (cursor + 1)
    let found ← declared? source type names semicolon
    return (found, max stop index)

/-- The declarations from a token on, given enough turns. -/
def declarationsFrom? (source : List Char) (tokens : List Token) :
    ℕ → ℕ → Option (List UniformDeclaration)
  | 0, _ => none
  | turns + 1, index =>
    if index < tokens.length then do
      let token ← tokens[index]?
      if token.isWord "uniform" then
        let (found, stop) ← statementAt? source tokens (index + 1)
        let later ← declarationsFrom? source tokens turns stop
        return found ++ later
      else declarationsFrom? source tokens turns (index + 1)
    else some []

/-- The uniforms that a source declares. -/
def declarations? (source : List Char) : Option (List UniformDeclaration) := do
  let tokens ← scan? source
  declarationsFrom? source tokens (tokens.length + 1) 0

/-! ### Names -/

theorem getElem?_behind {α : Type} (before rest : List α) (k : ℕ) :
    (before ++ rest)[before.length + k]? = rest[k]? := by
  rw [List.getElem?_append_right (Nat.le_add_right _ _), Nat.add_sub_cancel_left]

theorem head?_behind {α : Type} (before rest : List α) :
    (before ++ rest)[before.length]? = rest.head? := by
  rw [← Nat.add_zero before.length, getElem?_behind, List.head?_eq_getElem?]

theorem identifierAt?_eq (before rest : List Token) :
    identifierAt? (before ++ rest) before.length = rest.head?.filter Token.isIdentifier := by
  rw [identifierAt?, head?_behind]

/-- **Names are read from an index on as they are read from the tokens there.** -/
theorem namesAt?_eq (before rest : List Token) (turns : ℕ) (enough : rest.length < turns) :
    ∃ middle, rest = middle ++ (declaredNames rest).2.2 ∧
      namesAt? (before ++ rest) turns before.length =
        some ((declaredNames rest).1, (declaredNames rest).2.1, (before ++ middle).length) := by
  obtain ⟨turns, rfl⟩ := Nat.exists_eq_succ_of_ne_zero (by omega : turns ≠ 0)
  have first := identifierAt?_eq before rest
  fun_induction declaredNames rest generalizing before turns with
  | case1 => exact ⟨[], rfl, by rw [namesAt?, first]; simp⟩
  | case2 name identifier =>
    rw [List.head?_cons, Option.filter_some_pos identifier] at first
    exact ⟨[name], rfl, by rw [namesAt?, first]; simp⟩
  | case3 name notIdentifier =>
    rw [List.head?_cons, Option.filter_some_neg (by simpa using notIdentifier)] at first
    exact ⟨[], rfl, by rw [namesAt?, first]; simp⟩
  | case4 name mark rest notIdentifier =>
    rw [List.head?_cons, Option.filter_some_neg (by simpa using notIdentifier)] at first
    exact ⟨[], rfl, by rw [namesAt?, first]; simp⟩
  | case5 name mark rest identifier comma names semicolon after found ih =>
    rw [List.head?_cons, Option.filter_some_pos (by simpa using identifier)] at first
    simp only [List.length_cons] at enough
    obtain ⟨turns, rfl⟩ := Nat.exists_eq_succ_of_ne_zero (by omega : turns ≠ 0)
    obtain ⟨middle, whole, same⟩ := ih (before ++ [name, mark]) turns (by omega)
      (identifierAt?_eq _ _)
    rw [found] at whole same
    refine ⟨name :: mark :: middle, by rw [whole]; rfl, ?_⟩
    have further : (before ++ [name, mark]).length = before.length + 2 := List.length_append
    rw [further, List.append_assoc, List.append_assoc] at same
    change namesAt? (before ++ name :: mark :: rest) (turns + 1) (before.length + 2) = _ at same
    rw [namesAt?, first]
    simp only [getElem?_behind, List.getElem?_cons_succ, List.getElem?_cons_zero, if_pos comma,
      same]
    rfl
  | case6 name mark rest identifier notComma semicolon =>
    rw [List.head?_cons, Option.filter_some_pos (by simpa using identifier)] at first
    exact ⟨[name], rfl, by rw [namesAt?, first]; simp [notComma, semicolon]⟩
  | case7 name mark rest identifier notComma notSemicolon =>
    rw [List.head?_cons, Option.filter_some_pos (by simpa using identifier)] at first
    exact ⟨[name], rfl, by rw [namesAt?, first]; simp [notComma, notSemicolon]⟩

theorem exists_semicolon {tokens : List Token} {offset : ℕ}
    (ends : (declaredNames tokens).2.1 = some offset) :
    ∃ mark ∈ tokens, mark.isMark ';' = true ∧ mark.offset = offset := by
  fun_induction declaredNames tokens with
  | case5 name mark rest identifier comma names semicolon after found ih =>
    rw [found] at ih
    obtain ⟨last, inside, found⟩ := ih ends
    exact ⟨last, List.mem_cons_of_mem _ (List.mem_cons_of_mem _ inside), found⟩
  | case6 name mark rest identifier comma isSemicolon =>
    exact ⟨mark, by simp, isSemicolon, Option.some.inj ends⟩
  | _ => cases ends

theorem trailing?_eq {source : List Char} {mark : Token} (isMark : mark.isMark ';' = true)
    (stands : mark ∈ Token.ofSource source) :
    trailing? source mark.offset = some (trailingText source (mark.offset + 1)) := by
  obtain ⟨front, back, rfl, offset⟩ := Token.exists_append stands
  rw [(Token.isMark_iff.mp isMark).2, ← offset, List.singleton_append]
  have behind : byteSize front + 1 = byteSize (front ++ [';']) := by
    rw [byteSize_append]
    rfl
  have line := piece?_append (front ++ [';']) (back.takeWhile (· ≠ '\n'))
    (back.dropWhile (· ≠ '\n'))
  rw [List.takeWhile_append_dropWhile, List.append_assoc, List.append_assoc, ← behind] at line
  simp only [List.singleton_append] at line
  rw [trailing?, trailingText, behind, List.append_cons, dropBytes_append, ← List.append_cons,
    ← behind, lineEnd?_cons front (by decide)]
  simp only [Option.bind_eq_bind, Option.bind_some, line]
  rfl

/-! ### Statements -/

/-- The tokens of a statement from the type on. -/
def withoutPrecision : List Token → List Token
  | [] => []
  | token :: rest =>
    if token.isIdentifier && precisionWords.contains token.word then rest else token :: rest

theorem typeIndex_eq (before rest : List Token) :
    ∃ precision, rest = precision ++ withoutPrecision rest ∧
      typeIndex (before ++ rest) before.length = (before ++ precision).length := by
  rw [typeIndex, head?_behind]
  cases rest with
  | nil => exact ⟨[], rfl, by simp⟩
  | cons token rest =>
    rw [withoutPrecision, List.head?_cons, Option.any_some]
    split
    · exact ⟨[token], rfl, by simp⟩
    · exact ⟨[], rfl, by simp⟩

/-- Behind the type come names; without one there is no declaration, and the tokens are read
again. -/
theorem uniformStatement_eq (source : List Char) (tokens : List Token) :
    uniformStatement source tokens =
      match (withoutPrecision tokens).head?.filter Token.isIdentifier with
      | none => ([], tokens)
      | some type =>
        let (names, semicolon, after) := declaredNames (withoutPrecision tokens).tail
        (semicolon.elim [] fun offset => names.map fun name =>
          ⟨type.word, name.word, name.offset, trailingText source (offset + 1)⟩, after) := by
  unfold uniformStatement
  extract_lets typed
  have same : typed = withoutPrecision tokens := by cases tokens <;> rfl
  clear_value typed
  subst same
  cases typed : withoutPrecision tokens with
  | nil => rfl
  | cons type rest =>
    cases isType : type.isIdentifier with
    | false =>
      simp only [isType, Bool.not_false, if_true, List.head?_cons, Option.filter_some_neg isType]
    | true =>
      simp only [isType, Bool.not_true, Bool.false_eq_true, if_false, List.head?_cons,
        Option.filter_some_pos isType, List.tail_cons]
      rcases declaredNames rest with ⟨names, _ | offset, after⟩ <;> rfl

theorem declared?_eq {source : List Char} {tokens : List Token}
    (stands : tokens ⊆ Token.ofSource source) (type : Token) :
    declared? source type (declaredNames tokens).1 (declaredNames tokens).2.1 =
      some ((declaredNames tokens).2.1.elim [] fun offset => (declaredNames tokens).1.map fun name =>
        ⟨type.word, name.word, name.offset, trailingText source (offset + 1)⟩) := by
  cases ends : (declaredNames tokens).2.1 with
  | none => rfl
  | some offset =>
    obtain ⟨mark, inside, isMark, rfl⟩ := exists_semicolon ends
    rw [declared?, trailing?_eq isMark (stands inside)]
    rfl

/-- A statement is read from an index on as it is read from the tokens there. -/
theorem statementAt?_eq {source : List Char} (before rest : List Token)
    (stands : rest ⊆ Token.ofSource source) :
    ∃ middle, rest = middle ++ (uniformStatement source rest).2 ∧
      statementAt? source (before ++ rest) before.length =
        some ((uniformStatement source rest).1, (before ++ middle).length) := by
  obtain ⟨precision, whole, index⟩ := typeIndex_eq before rest
  rw [uniformStatement_eq, statementAt?, index]
  generalize withoutPrecision rest = typed at whole
  subst whole
  have first := identifierAt?_eq (before ++ precision) typed
  rw [List.append_assoc] at first
  rw [first]
  cases isType : typed.head?.filter Token.isIdentifier with
  | none => exact ⟨[], rfl, by simp⟩
  | some type =>
    obtain ⟨more, rfl⟩ : ∃ more, typed = type :: more :=
      List.head?_eq_some_iff.mp (Option.filter_eq_some_iff.mp isType).1
    have tokens : before ++ (precision ++ type :: more) =
        before ++ precision ++ [type] ++ more := by simp
    have cursor : (before ++ precision).length + 1 = (before ++ precision ++ [type]).length := by
      simp [Nat.add_assoc]
    have within : more ⊆ Token.ofSource source := fun other inside =>
      stands (List.mem_append_right _ (List.mem_cons_of_mem _ inside))
    obtain ⟨middle, whole, names⟩ := namesAt?_eq (before ++ precision ++ [type]) more
      ((before ++ (precision ++ type :: more)).length + 1)
      (by rw [tokens, List.length_append]; omega)
    have stop : max (before ++ precision ++ [type] ++ middle).length before.length =
        (before ++ (precision ++ type :: middle)).length := by
      simp
    refine ⟨precision ++ type :: middle, ?_, ?_⟩
    · rw [List.append_assoc, List.cons_append]
      exact congrArg (precision ++ type :: ·) whole
    · rw [← tokens] at names
      dsimp only
      rw [cursor, names]
      simp only [Option.bind_eq_bind, Option.bind_some, declared?_eq within, stop]
      rfl

/-- **Declarations are read from an index on as they are read from the tokens there.** -/
theorem declarationsFrom?_eq {source : List Char} (before rest : List Token)
    (stands : rest ⊆ Token.ofSource source) {turns : ℕ} (enough : rest.length < turns) :
    declarationsFrom? source (before ++ rest) turns before.length =
      some (uniformDeclarationsIn source turns rest) := by
  induction turns generalizing before rest with
  | zero => omega
  | succ turns ih =>
    cases rest with
    | nil =>
      rw [declarationsFrom?, if_neg (by simp)]
      rfl
    | cons token rest =>
      rw [List.length_cons] at enough
      have within : rest ⊆ Token.ofSource source :=
        List.Subset.trans (List.subset_cons_self _ _) stands
      have further : (before ++ [token]).length = before.length + 1 := List.length_append
      rw [declarationsFrom?, if_pos (by simp), head?_behind, uniformDeclarationsIn,
        List.append_cons, ← further]
      simp only [List.head?_cons, Option.bind_eq_bind, Option.bind_some]
      split
      · obtain ⟨middle, whole, statement⟩ := statementAt?_eq (before ++ [token]) rest within
        have shorter := congrArg List.length whole
        have later := ih (before ++ [token] ++ middle) (uniformStatement source rest).2
          (fun other inside => within (whole ▸ List.mem_append_right _ inside))
          (by rw [List.length_append] at shorter; omega)
        rw [List.append_assoc _ middle, ← whole] at later
        simp only [statement, Option.bind_some, later]
        rfl
      · exact ih (before ++ [token]) rest within (by omega)

/-- **Reading by an index finds the declarations of every source.** -/
theorem declarations?_eq (source : List Char) :
    declarations? source = some (uniformDeclarations source) := by
  rw [declarations?, scan?_eq]
  exact declarationsFrom?_eq [] (Token.ofSource source) (List.Subset.refl _) (Nat.lt_succ_self _)

end Scanner
end Collage
