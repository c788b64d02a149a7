import Collage.Proofs.Shader.Spelling
import Collage.Scene.Signature

/-!
# The signature of a distance layer is read as it is written

`Signature.ofSource` looks for a definition of `map` among the tokens and reads what stands
between its parentheses.  Where no definition stands earlier (`HoldsDefinition`) and the
parentheses of what does are balanced, the first definition is the one that is read:
declarations without a body are passed over, in front of it and behind it
(`candidates_append`, `chosen?_append`).

`Header` is a definition as it may be written, and its words may have any blanks and comments
between them.  `ofSource_definition`: from such a text come the names of its operands if all
are single ones or there is just one that takes several; else comes an error on the line where
the definition begins.
-/

namespace Collage
namespace Signature

open Lexeme

/-! ### Parentheses -/

/-- Whether tokens close the parentheses of which `depth` are open before them, and all that
they open themselves. -/
def balanced : Nat → List Token → Bool
  | depth, [] => depth == 0
  | depth, token :: rest =>
    if token.isMark '(' then balanced (depth + 1) rest
    else if token.isMark ')' then depth != 0 && balanced (depth - 1) rest
    else balanced depth rest

theorem isIdentifier_of_isWord {token : Token} {word : String} (h : token.isWord word = true) :
    token.isIdentifier = true := by
  simp only [Token.isWord, Bool.and_eq_true] at h
  exact h.1

theorem balanced_cons_name {token : Token} (name : token.isIdentifier = true) (depth : Nat)
    (rest : List Token) : balanced depth (token :: rest) = balanced depth rest := by
  rw [balanced, Token.not_isMark_of_isIdentifier name, Token.not_isMark_of_isIdentifier name]
  rfl

/-- A parenthesis closes behind what is balanced. -/
theorem closeParenthesis_append {inside : List Token} {close : Token} {depth : Nat}
    (closed : balanced depth inside = true) (closing : close.isMark ')' = true)
    (after : List Token) :
    closeParenthesis depth (inside ++ close :: after) = some (inside, close, after) := by
  induction inside generalizing depth with
  | nil =>
    obtain rfl : depth = 0 := by simpa [balanced] using closed
    simp [closeParenthesis, closing, Token.isMark_eq closing]
  | cons token inside ih =>
    rw [balanced] at closed
    rw [List.cons_append]
    unfold closeParenthesis
    dsimp only
    split at closed
    · next opens => rw [if_pos opens, ih closed, Option.map_some]
    · next notOpen =>
      rw [if_neg notOpen]
      split at closed
      · next closes =>
        rw [if_pos closes]
        cases depth with
        | zero => cases closed
        | succ depth =>
          dsimp only
          rw [ih (Bool.and_eq_true _ _ ▸ closed).2, Option.map_some]
      · next notClose => rw [if_neg notClose, ih closed, Option.map_some]

/-- Where a parenthesis closes, what is inside is balanced. -/
theorem of_closeParenthesis {depth : Nat} {tokens inside after : List Token} {close : Token}
    (h : closeParenthesis depth tokens = some (inside, close, after)) :
    tokens = inside ++ close :: after ∧ balanced depth inside = true ∧
      close.isMark ')' = true := by
  fun_induction closeParenthesis depth tokens generalizing inside with
  | case1 => cases h
  | case3 token rest notOpen closes =>
    cases h
    exact ⟨rfl, rfl, closes⟩
  | case2 depth token rest opens ih =>
    obtain ⟨⟨inner, close', after'⟩, found, same⟩ := Option.map_eq_some_iff.mp h
    cases same
    obtain ⟨rfl, closed, closing⟩ := ih found
    exact ⟨rfl, by rwa [balanced, if_pos opens], closing⟩
  | case4 token rest notOpen closes depth ih =>
    obtain ⟨⟨inner, close', after'⟩, found, same⟩ := Option.map_eq_some_iff.mp h
    cases same
    obtain ⟨rfl, closed, closing⟩ := ih found
    exact ⟨rfl, by rwa [balanced, if_neg notOpen, if_pos closes], closing⟩
  | case5 depth token rest notOpen notClose ih =>
    obtain ⟨⟨inner, close', after'⟩, found, same⟩ := Option.map_eq_some_iff.mp h
    cases same
    obtain ⟨rfl, closed, closing⟩ := ih found
    exact ⟨rfl, by rwa [balanced, if_neg notOpen, if_neg notClose], closing⟩

/-- What is balanced closes each of the parentheses that are open before it. -/
theorem exists_closeParenthesis {outer : Nat} : ∀ {tokens : List Token} {depth : Nat},
    balanced (outer + (depth + 1)) tokens = true →
      ∃ found, closeParenthesis depth tokens = some found
  | [], depth, closed => by simp [balanced] at closed
  | token :: rest, depth, closed => by
    rw [balanced] at closed
    unfold closeParenthesis
    dsimp only
    split at closed
    · next opens =>
      have later : ∃ found, closeParenthesis (depth + 1) rest = some found :=
        exists_closeParenthesis closed
      obtain ⟨found, same⟩ := later
      rw [if_pos opens, same]
      exact ⟨_, rfl⟩
    · next notOpen =>
      rw [if_neg notOpen]
      split at closed
      · next closes =>
        rw [if_pos closes]
        simp only [Bool.and_eq_true] at closed
        cases depth with
        | zero => exact ⟨_, rfl⟩
        | succ depth =>
          have later : ∃ found, closeParenthesis depth rest = some found :=
            exists_closeParenthesis closed.2
          obtain ⟨found, same⟩ := later
          dsimp only
          rw [same]
          exact ⟨_, rfl⟩
      · next notClose =>
        obtain ⟨found, same⟩ := exists_closeParenthesis closed
        rw [if_neg notClose, same]
        exact ⟨_, rfl⟩

/-! ### The first definition -/

/-- Somewhere among tokens stands a definition of `map` with the beginning of its body. -/
def HoldsDefinition (tokens : List Token) : Prop :=
  ∃ before result name opening inside close brace after,
    tokens = before ++ result :: name :: opening :: (inside ++ close :: brace :: after) ∧
      result.isWord "gSdfResult" = true ∧ name.isWord "map" = true ∧
      opening.isMark '(' = true ∧ balanced 0 inside = true ∧ close.isMark ')' = true ∧
      brace.isMark '{' = true

/-- The declaration that begins with a token, if there is one. -/
def candidateAt? (first : Token) : List Token → Option Candidate
  | name :: opening :: inner =>
    if first.isWord "gSdfResult" && name.isWord "map" && opening.isMark '(' then
      (closeParenthesis 0 inner).map fun (inside, _, after) =>
        ⟨first.offset, inside, after.head?.any (·.isMark '{')⟩
    else none
  | _ => none

theorem candidates_cons (first : Token) (rest : List Token) :
    candidates (first :: rest) = (candidateAt? first rest).toList ++ candidates rest := by
  cases rest with
  | nil => rfl
  | cons name rest => cases rest <;> rfl

/-- A declaration that is found with a body is a definition. -/
theorem holdsDefinition_of_mem {candidate : Candidate} :
    ∀ {tokens : List Token}, candidate ∈ candidates tokens → candidate.defined = true →
      HoldsDefinition tokens
  | [], inside, _ => by cases inside
  | first :: rest, inside, defined => by
    rw [candidates_cons, List.mem_append] at inside
    rcases inside with here | later
    · replace here := Option.mem_toList.mp here
      unfold candidateAt? at here
      split at here
      · next name opening inner =>
        split at here
        · next isMap =>
          obtain ⟨⟨inside, close, after⟩, closed, rfl⟩ := Option.map_eq_some_iff.mp here
          obtain ⟨rfl, within, closing⟩ := of_closeParenthesis closed
          obtain ⟨brace, first', body⟩ := (Option.any_eq_true ..).mp defined
          obtain ⟨others, rfl⟩ := List.head?_eq_some_iff.mp first'
          simp only [Bool.and_eq_true] at isMap
          exact ⟨[], first, name, opening, inside, close, brace, others, rfl, isMap.1.1,
            isMap.1.2, isMap.2, within, closing, body⟩
        · cases here
      · cases here
    · obtain ⟨before, result, name, opening, inside, close, brace, after, rfl, definition⟩ :=
        holdsDefinition_of_mem later defined
      exact ⟨first :: before, result, name, opening, inside, close, brace, after, rfl, definition⟩

section Behind

variable {result : Token} {more : List Token}

/-- What follows behind balanced tokens makes no difference to a declaration in them. -/
theorem candidateAt?_append (isResult : result.isWord "gSdfResult" = true) {outer : Nat}
    {first : Token} {rest : List Token} (closed : balanced outer (first :: rest) = true) :
    candidateAt? first (rest ++ result :: more) = candidateAt? first rest := by
  have notMap : result.isWord "map" = false := by
    simp only [Token.isWord, Bool.and_eq_true, decide_eq_true_eq] at isResult
    simp [Token.isWord, isResult.2]
  have notMark := Token.not_isMark_of_isIdentifier (isIdentifier_of_isWord isResult)
  rcases rest with _ | ⟨name, _ | ⟨opening, inner⟩⟩
  · cases more with
    | nil => rfl
    | cons other others => simp [candidateAt?, notMap]
  · simp [candidateAt?, notMark]
  · simp only [candidateAt?, List.cons_append]
    split
    · next isMap =>
      simp only [Bool.and_eq_true] at isMap
      rw [balanced_cons_name (isIdentifier_of_isWord isMap.1.1),
        balanced_cons_name (isIdentifier_of_isWord isMap.1.2), balanced, if_pos isMap.2] at closed
      obtain ⟨⟨inside, close, after⟩, found⟩ := exists_closeParenthesis closed
      obtain ⟨rfl, within, closing⟩ := of_closeParenthesis found
      rw [List.append_assoc, List.cons_append, closeParenthesis_append within closing,
        closeParenthesis_append within closing, Option.map_some, Option.map_some]
      cases after with
      | nil => simp [notMark]
      | cons next after => rfl
    · rfl

/-- **Declarations are found in each of two pieces of code put together.** -/
theorem candidates_append (isResult : result.isWord "gSdfResult" = true) :
    ∀ {front : List Token} {outer : Nat}, balanced outer front = true →
      candidates (front ++ result :: more) = candidates front ++ candidates (result :: more)
  | [], _, _ => rfl
  | first :: rest, outer, closed => by
    have later : ∃ outer, balanced outer rest = true := by
      rw [balanced] at closed
      split at closed
      · exact ⟨_, closed⟩
      · split at closed
        · exact ⟨outer - 1, (Bool.and_eq_true _ _ ▸ closed).2⟩
        · exact ⟨_, closed⟩
    obtain ⟨outer', later⟩ := later
    rw [List.cons_append, candidates_cons, candidates_cons, candidateAt?_append isResult closed,
      candidates_append isResult later, List.append_assoc]

end Behind

theorem chosen?_append {earlier later : List Candidate} {candidate : Candidate}
    (first : ∀ other ∈ earlier, other.defined = false) (defined : candidate.defined = true) :
    chosen? (earlier ++ candidate :: later) = some candidate := by
  have none : earlier.find? (·.defined) = none :=
    List.find?_eq_none.mpr fun other inside => by simp [first other inside]
  rw [chosen?, List.find?_append, none, List.find?_cons_of_pos defined]
  rfl

/-! ### Parameters -/

/-- The lexeme that is a name. -/
def nameOf (word : String) : Lexeme := ⟨.identifier, word.toList⟩

/-- The lexeme that is a mark. -/
def markOf (c : Char) : Lexeme := ⟨.mark, [c]⟩

theorem word_of_lexeme {token : Token} {word : String} (h : token.lexeme = nameOf word) :
    token.isIdentifier = true ∧ token.word = word ∧ token.isWord word = true := by
  obtain ⟨kind, text⟩ := Lexeme.mk.inj h
  refine ⟨by simp [Token.isIdentifier, kind], ?_, by simp [Token.isWord, kind, text]⟩
  rw [Token.word, text, String.ofList_toList]

theorem isMark_of_lexeme {token : Token} {c : Char} (h : token.lexeme = markOf c) (d : Char) :
    token.isMark d = decide (c = d) :=
  Token.isMark_eq (Token.isMark_iff.mpr (Lexeme.mk.inj h)) d

/-- Parameters with commas between them. -/
def listed (parameters : List (List String)) : List Lexeme :=
  [markOf ','].intercalate (parameters.map (·.map nameOf))

theorem listed_cons (parameter : List String) {others : List (List String)} (more : others ≠ []) :
    listed (parameter :: others) = parameter.map nameOf ++ markOf ',' :: listed others := by
  obtain ⟨other, others, rfl⟩ := List.exists_cons_of_ne_nil more
  simp [listed, List.intercalate]

theorem balanced_of_listed : ∀ {tokens : List Token},
    (∀ token ∈ tokens, token.isIdentifier = true ∨ token.lexeme = markOf ',') →
      balanced 0 tokens = true
  | [], _ => rfl
  | token :: rest, h => by
    have later := balanced_of_listed fun other inside => h other (List.mem_cons_of_mem _ inside)
    rcases h token List.mem_cons_self with name | comma
    · rwa [balanced_cons_name name]
    · have mark := isMark_of_lexeme comma
      rw [balanced, mark, mark]
      exact later

theorem mem_listed {lexeme : Lexeme} : ∀ {parameters : List (List String)},
    lexeme ∈ listed parameters →
      (∃ words ∈ parameters, ∃ word ∈ words, lexeme = nameOf word) ∨ lexeme = markOf ','
  | [], inside => by simp [listed, List.intercalate] at inside
  | [parameter], inside => by
    simp only [listed, List.intercalate, List.map_cons, List.map_nil, List.intersperse_singleton,
      List.flatten_cons, List.flatten_nil, List.append_nil, List.mem_map] at inside
    obtain ⟨word, within, rfl⟩ := inside
    exact .inl ⟨parameter, List.mem_singleton_self _, word, within, rfl⟩
  | parameter :: other :: others, inside => by
    rw [listed_cons _ (List.cons_ne_nil other others), List.mem_append, List.mem_cons] at inside
    rcases inside with name | comma | later
    · obtain ⟨word, within, rfl⟩ := List.mem_map.mp name
      exact .inl ⟨parameter, List.mem_cons_self, word, within, rfl⟩
    · exact .inr comma
    · refine (mem_listed later).imp_left ?_
      exact fun ⟨words, inside, written⟩ => ⟨words, List.mem_cons_of_mem _ inside, written⟩

/-- Names are the words of one parameter, up to a comma. -/
theorem splitParameters_names {words : List String} : ∀ {tokens : List Token},
    tokens.map Token.lexeme = words.map nameOf →
      splitParameters 0 tokens = [words] ∧
        ∀ {comma : Token} (_ : comma.lexeme = markOf ',') (rest : List Token),
          splitParameters 0 (tokens ++ comma :: rest) = words :: splitParameters 0 rest := by
  induction words with
  | nil =>
    intro tokens same
    obtain rfl := List.map_eq_nil_iff.mp same
    refine ⟨rfl, fun comma rest => ?_⟩
    rw [List.nil_append, splitParameters, isMark_of_lexeme comma]
    rfl
  | cons word words ih =>
    intro tokens same
    obtain ⟨token, others, rfl, first, later⟩ := List.map_eq_cons_iff.mp same
    obtain ⟨name, rfl, _⟩ := word_of_lexeme first
    obtain ⟨alone, before⟩ := ih later
    have notMark := Token.not_isMark_of_isIdentifier name
    constructor
    · simp [splitParameters, notMark, alone]
    · intro comma isComma rest
      simp [splitParameters, notMark, before isComma rest]

theorem splitParameters_listed : ∀ {parameters : List (List String)} {tokens : List Token},
    parameters ≠ [] → tokens.map Token.lexeme = listed parameters →
      splitParameters 0 tokens = parameters
  | [], _, nonempty, _ => absurd rfl nonempty
  | [parameter], tokens, _, same => (splitParameters_names (by simpa [listed] using same)).1
  | parameter :: other :: others, tokens, _, same => by
    have more := List.cons_ne_nil other others
    rw [listed_cons _ more] at same
    obtain ⟨first, behind, rfl, names, same⟩ := List.map_eq_append_iff.mp same
    obtain ⟨comma, rest, rfl, isComma, same⟩ := List.map_eq_cons_iff.mp same
    rw [(splitParameters_names names).2 isComma rest, splitParameters_listed more same]

/-! ### Definitions as they are written -/

namespace Parameter

def type : Parameter → String
  | one _ => "gSdf"
  | several _ => "gSdfVariadic"

def name : Parameter → String
  | one name => name
  | several name => name

def isOne : Parameter → Bool
  | one _ => true
  | several _ => false

end Parameter

/-- A word that changes nothing about a parameter. -/
inductive Qualifier
  | input
  | constant

def Qualifier.word : Qualifier → String
  | input => "in"
  | constant => "const"

/-- An operand with qualifiers anywhere among its words. -/
structure WrittenOperand where
  parameter : Parameter
  before : List Qualifier := []
  between : List Qualifier := []
  behind : List Qualifier := []
  isName : IsName parameter.name.toList
  notQualifier : parameter.name ≠ "in" ∧ parameter.name ≠ "const"

def WrittenOperand.words (operand : WrittenOperand) : List String :=
  operand.before.map Qualifier.word ++ operand.parameter.type ::
    (operand.between.map Qualifier.word ++ operand.parameter.name ::
      operand.behind.map Qualifier.word)

/-- A definition of `map`, up to its body. -/
structure Header where
  context : String
  isName : IsName context.toList
  operands : List WrittenOperand

namespace Header

/-- The words of its parameters. -/
def parameterWords (header : Header) : List (List String) :=
  ["inout", "gSdfContext", header.context] :: header.operands.map WrittenOperand.words

def lexemes (header : Header) : List Lexeme :=
  nameOf "gSdfResult" :: nameOf "map" :: markOf '(' ::
    (listed header.parameterWords ++ [markOf ')'])

def parameters (header : Header) : List Parameter :=
  header.operands.map WrittenOperand.parameter

end Header

/-- Qualifiers are left out. -/
theorem readParameter_words (operand : WrittenOperand) :
    readParameter operand.words = .ok operand.parameter := by
  have none (qualifiers : List Qualifier) :
      (qualifiers.map Qualifier.word).filter (fun word => word ≠ "in" ∧ word ≠ "const") = [] := by
    rw [List.filter_eq_nil_iff]
    intro word inside
    obtain ⟨qualifier, _, rfl⟩ := List.mem_map.mp inside
    cases qualifier <;> decide
  obtain ⟨parameter, before, between, behind, isName, notIn, notConst⟩ := operand
  unfold readParameter WrittenOperand.words
  have words : (before.map Qualifier.word ++ parameter.type ::
      (between.map Qualifier.word ++ parameter.name :: behind.map Qualifier.word)).filter
        (fun word => word ≠ "in" ∧ word ≠ "const") = [parameter.type, parameter.name] := by
    rw [List.filter_append, none, List.nil_append, List.filter_cons_of_pos, List.filter_append,
      none, List.nil_append, List.filter_cons_of_pos, none]
    · simp [notIn, notConst]
    · cases parameter <;> simp [Parameter.type]
  rw [words]
  cases parameter <;> rfl

theorem mapM_readParameter (operands : List WrittenOperand) :
    (operands.map WrittenOperand.words).mapM readParameter =
      .ok (operands.map WrittenOperand.parameter) := by
  induction operands with
  | nil => rfl
  | cons operand operands ih =>
    rw [List.map_cons, List.mapM_cons, readParameter_words, ih]
    rfl

theorem readParameters_eq {inside : List Token} {context : String} {others : List (List String)}
    (words : splitParameters 0 inside = ["inout", "gSdfContext", context] :: others) :
    readParameters inside = do
      let parameters ← others.mapM readParameter
      let (arity, names) ← arityOf parameters
      return (context, arity, names) := by
  rw [readParameters, words]
  rfl

theorem readParameters_listed (header : Header) {inside : List Token}
    (written : inside.map Token.lexeme = listed header.parameterWords) :
    readParameters inside =
      (arityOf header.parameters).map fun (arity, names) => (header.context, arity, names) := by
  have words := splitParameters_listed (List.cons_ne_nil _ _) written
  rw [readParameters_eq words, mapM_readParameter]
  change (arityOf header.parameters >>= _) = _
  cases arityOf header.parameters <;> rfl

/-! ### Arities -/

namespace Parameter

def single? : Parameter → Option String
  | one name => some name
  | several _ => none

def several? : Parameter → Option String
  | several name => some name
  | one _ => none

end Parameter

theorem arityOf_eq (parameters : List Parameter) :
    arityOf parameters =
      if (parameters.filterMap Parameter.several?).isEmpty then
        .ok (.fixed (parameters.filterMap Parameter.single?).length,
          parameters.filterMap Parameter.single?)
      else if !(parameters.filterMap Parameter.single?).isEmpty then .error .mixed
      else if (parameters.filterMap Parameter.several?).length = 1 then
        .ok (.variadic, parameters.filterMap Parameter.several?)
      else .error .severalVariadic :=
  rfl

theorem eq_ones {parameters : List Parameter}
    (none : parameters.filterMap Parameter.several? = []) :
    parameters = (parameters.filterMap Parameter.single?).map .one := by
  induction parameters with
  | nil => rfl
  | cons parameter parameters ih =>
    cases parameter with
    | one name => exact congrArg _ (ih none)
    | several name => cases none

theorem eq_severals {parameters : List Parameter}
    (none : parameters.filterMap Parameter.single? = []) :
    parameters = (parameters.filterMap Parameter.several?).map .several := by
  induction parameters with
  | nil => rfl
  | cons parameter parameters ih =>
    cases parameter with
    | one name => cases none
    | several name => exact congrArg _ (ih none)

theorem isEmpty_singles (parameters : List Parameter) :
    (!(parameters.filterMap Parameter.single?).isEmpty) = parameters.any Parameter.isOne := by
  induction parameters with
  | nil => rfl
  | cons parameter parameters ih =>
    cases parameter with
    | one name => rfl
    | several name => exact ih

theorem arityOf_ones (names : List String) :
    arityOf (names.map .one) = .ok (.fixed names.length, names) := by
  have several : (names.map Parameter.one).filterMap Parameter.several? = [] := by
    rw [List.filterMap_map, List.filterMap_eq_nil_iff]
    exact fun _ _ => rfl
  have single : (names.map Parameter.one).filterMap Parameter.single? = names := by
    rw [List.filterMap_map]
    exact List.filterMap_some
  rw [arityOf_eq, several, single]
  rfl

/-- Neither single operands nor one that takes several: then it says which rule is broken. -/
theorem arityOf_error {parameters : List Parameter}
    (notOnes : ∀ names : List String, parameters ≠ names.map .one)
    (notSeveral : ∀ name, parameters ≠ [.several name]) :
    arityOf parameters =
      .error (if parameters.any Parameter.isOne then .mixed else .severalVariadic) := by
  rw [arityOf_eq, isEmpty_singles, if_neg fun none => notOnes _ (eq_ones (by simpa using none))]
  split
  · rfl
  · next noOne =>
    rw [← isEmpty_singles, Bool.not_eq_true, Bool.not_eq_false', List.isEmpty_iff] at noOne
    refine if_neg fun single => ?_
    obtain ⟨name, one⟩ := List.length_eq_one_iff.mp single
    refine notSeveral name ?_
    have all := eq_severals noOne
    rwa [one] at all

/-! ### Where a definition begins -/

theorem lineOf_append (front rest : List Char) :
    lineOf (front ++ rest) (byteSize front) = front.count '\n' + 1 := by
  induction front with
  | nil => simp [lineOf]
  | cons c front ih =>
    have positive := c.utf8Size_pos
    rw [List.cons_append, byteSize_cons, lineOf, Nat.add_sub_cancel_left, ih, List.count_cons]
    · by_cases line : c = '\n' <;> simp [line]
    · omega

theorem takeBytes_append (front rest : List Char) :
    takeBytes (byteSize front) (front ++ rest) = front := by
  induction front with
  | nil => simp [takeBytes]
  | cons c front ih =>
    have positive := c.utf8Size_pos
    rw [List.cons_append, byteSize_cons, takeBytes, Nat.add_sub_cancel_left, ih]
    omega

/-- The tokens of a definition are chosen where they stand. -/
theorem candidates_of_header {header : Header} {tokens : List Token} {more : List Lexeme}
    (written : tokens.map Token.lexeme = header.lexemes ++ markOf '{' :: more) :
    ∃ result rest inside later, tokens = result :: rest ∧ result.isWord "gSdfResult" = true ∧
      inside.map Token.lexeme = listed header.parameterWords ∧
      candidates tokens = ⟨result.offset, inside, true⟩ :: later := by
  unfold Header.lexemes at written
  simp only [List.cons_append, List.append_assoc] at written
  obtain ⟨result, rest, rfl, isResult, written⟩ := List.map_eq_cons_iff.mp written
  obtain ⟨name, rest, rfl, isMap, written⟩ := List.map_eq_cons_iff.mp written
  obtain ⟨opening, rest, rfl, opens, written⟩ := List.map_eq_cons_iff.mp written
  obtain ⟨inside, rest, rfl, parameters, written⟩ := List.map_eq_append_iff.mp written
  obtain ⟨close, rest, rfl, closes, written⟩ := List.map_eq_cons_iff.mp written
  obtain ⟨brace, rest, rfl, isBrace, _⟩ := List.map_eq_cons_iff.mp written
  have closed : balanced 0 inside = true := by
    refine balanced_of_listed fun token within => ?_
    have lexeme : token.lexeme ∈ listed header.parameterWords :=
      parameters ▸ List.mem_map_of_mem within
    exact (mem_listed lexeme).imp_left fun ⟨_, _, _, _, name⟩ => (word_of_lexeme name).1
  have here : candidateAt? result (name :: opening :: (inside ++ close :: brace :: rest)) =
      some ⟨result.offset, inside, true⟩ := by
    rw [candidateAt?, (word_of_lexeme isResult).2.2, (word_of_lexeme isMap).2.2,
      isMark_of_lexeme opens, closeParenthesis_append closed (by rw [isMark_of_lexeme closes]; rfl)]
    simp [isMark_of_lexeme isBrace]
  have found := candidates_cons result (name :: opening :: (inside ++ close :: brace :: rest))
  rw [here] at found
  exact ⟨result, _, inside, _, rfl, (word_of_lexeme isResult).2.2, parameters, found⟩

theorem Parameter.isName_type : ∀ parameter : Parameter, IsName parameter.type.toList
  | .one _ => show IsName "gSdf".toList from isName_of_all (by decide) (by decide)
  | .several _ => show IsName "gSdfVariadic".toList from isName_of_all (by decide) (by decide)

theorem Qualifier.isName_of_mem {qualifiers : List Qualifier} {word : String}
    (h : word ∈ qualifiers.map Qualifier.word) : IsName word.toList := by
  obtain ⟨qualifier, _, rfl⟩ := List.mem_map.mp h
  cases qualifier <;> exact isName_of_all (by decide) (by decide)

theorem WrittenOperand.isName_of_mem {operand : WrittenOperand} {word : String}
    (h : word ∈ operand.words) : IsName word.toList := by
  simp only [WrittenOperand.words, List.mem_append, List.mem_cons] at h
  rcases h with before | rfl | between | rfl | behind
  · exact Qualifier.isName_of_mem before
  · exact operand.parameter.isName_type
  · exact Qualifier.isName_of_mem between
  · exact operand.isName
  · exact Qualifier.isName_of_mem behind

theorem Header.isName_of_mem {header : Header} {words : List String} {word : String}
    (parameter : words ∈ header.parameterWords) (h : word ∈ words) : IsName word.toList := by
  rcases List.mem_cons.mp parameter with rfl | parameter
  · simp only [List.mem_cons, List.not_mem_nil, or_false] at h
    rcases h with rfl | rfl | rfl
    · exact isName_of_all (by decide) (by decide)
    · exact isName_of_all (by decide) (by decide)
    · exact header.isName
  · obtain ⟨operand, _, rfl⟩ := List.mem_map.mp parameter
    exact WrittenOperand.isName_of_mem h

/-- The words of a definition are names and marks. -/
theorem Header.isWord (header : Header) : ∀ lexeme ∈ header.lexemes, lexeme.IsWord := by
  intro lexeme inside
  simp only [Header.lexemes, List.mem_cons, List.mem_append, List.not_mem_nil, or_false] at inside
  rcases inside with rfl | rfl | rfl | inside | rfl
  · exact .name (isName_of_all (by decide) (by decide))
  · exact .name (isName_of_all (by decide) (by decide))
  · exact .mark (by decide)
  · rcases mem_listed inside with ⟨words, parameter, word, within, rfl⟩ | rfl
    · exact .name (Header.isName_of_mem parameter within)
    · exact .mark (by decide)
  · exact .mark (by decide)

/-- What is read of a definition that stands behind a text. -/
def signatureBehind (front : List Char) (header : Header) : Except Diagnostic Signature :=
  match arityOf header.parameters with
  | .error e => .error ⟨front.count '\n' + 1, e.message, .error⟩
  | .ok (arity, names) => .ok ⟨arity, header.context, names, attributesOf front⟩

/-- A definition is found where it stands, behind code that has none. -/
theorem ofSource_append {front : List Char} {header : Header} {pieces : List SpacedWord}
    (rest : List Char) (complete : Complete front)
    (closed : balanced 0 (Token.ofSource front) = true)
    (first : ¬ HoldsDefinition (Token.ofSource front))
    (written : pieces.map SpacedWord.word = header.lexemes) (apart : SpacedWord.Apart pieces) :
    ofSource (String.ofList (front ++ (pieces.flatMap SpacedWord.text ++ '{' :: rest))) =
      signatureBehind front header := by
  have isWord : ∀ piece ∈ pieces, piece.word.IsWord := fun piece inside =>
    header.isWord _ (written ▸ List.mem_map_of_mem inside)
  have start : (pieces.flatMap SpacedWord.text ++ '{' :: rest).head?.any isIdentifierStart = true := by
    obtain ⟨piece, others, rfl, isResult, _⟩ := List.map_eq_cons_iff.mp written
    simp [SpacedWord.text, isResult, nameOf, isIdentifierStart]
  set text := front ++ (pieces.flatMap SpacedWord.text ++ '{' :: rest) with whole
  -- the tokens of the definition, of which the first stands behind `front`
  obtain ⟨more, lexemes⟩ := Token.lexeme_pieces isWord apart (c := '{') (by decide) rest
    (byteSize front)
  rw [written] at lexemes
  obtain ⟨result, others, inside, later, tokens, isResult, parameters, found⟩ :=
    candidates_of_header lexemes
  obtain ⟨_, _, tokens', offset⟩ := Token.ofLexemes_start start (byteSize front)
  obtain ⟨rfl, rfl⟩ := List.cons.inj (tokens.symm.trans tokens')
  have chosen : chosen? (candidates (Token.ofSource text)) =
      some ⟨byteSize front, inside, true⟩ := by
    rw [whole, Token.ofSource_append complete start, tokens, candidates_append isResult closed,
      ← tokens, found, ← offset]
    refine chosen?_append (fun other within => ?_) rfl
    rw [Bool.eq_false_iff]
    exact fun defined => first (holdsDefinition_of_mem within defined)
  unfold ofSource
  dsimp only
  rw [String.toList_ofList, chosen]
  dsimp only
  rw [readParameters_listed header parameters, whole, lineOf_append, takeBytes_append,
    signatureBehind]
  cases arityOf header.parameters <;> rfl

/-- **The first definition of `map` is read as it is written**, with any blanks and comments
between its words. -/
theorem ofSource_definition {front : List Char} (header : Header) {pieces : List SpacedWord}
    (rest : List Char) (complete : Complete front)
    (closed : balanced 0 (Token.ofSource front) = true)
    (first : ¬ HoldsDefinition (Token.ofSource front))
    (written : pieces.map SpacedWord.word = header.lexemes) (apart : SpacedWord.Apart pieces) :
    let result := ofSource
      (String.ofList (front ++ (pieces.flatMap SpacedWord.text ++ '{' :: rest)))
    (∀ names : List String, header.parameters = names.map .one →
      result = .ok ⟨.fixed names.length, header.context, names, attributesOf front⟩) ∧
    (∀ name, header.parameters = [.several name] →
      result = .ok ⟨.variadic, header.context, [name], attributesOf front⟩) ∧
    ((∀ names : List String, header.parameters ≠ names.map .one) →
      (∀ name, header.parameters ≠ [.several name]) →
        result = .error ⟨front.count '\n' + 1,
          (if header.parameters.any Parameter.isOne then .mixed
            else .severalVariadic : SignatureError).message, .error⟩) := by
  intro result
  have read : result = signatureBehind front header :=
    ofSource_append rest complete closed first written apart
  unfold signatureBehind at read
  refine ⟨fun names ones => ?_, fun name several => ?_, fun notOnes notSeveral => ?_⟩
  · rw [read, ones, arityOf_ones]
  · rw [read, several]
    rfl
  · rw [read, arityOf_error notOnes notSeveral]

/-- A definition with one operand. -/
def rounding : Header where
  context := "c"
  isName := isName_of_all (by decide) (by decide)
  operands := [⟨.one "a", [.constant], [], [], isName_of_all (by decide) (by decide), by decide⟩]

/-- It is written on three lines, with a comment inside. -/
def roundingPieces : List SpacedWord :=
  [⟨nameOf "gSdfResult", [.blank ' ' rfl]⟩, ⟨nameOf "map", []⟩, ⟨markOf '(', [.blank '\n' rfl]⟩,
    ⟨nameOf "inout", [.blank ' ' rfl]⟩, ⟨nameOf "gSdfContext", [.block ['*'] (by decide)]⟩,
    ⟨nameOf "c", []⟩, ⟨markOf ',', [.blank ' ' rfl]⟩, ⟨nameOf "const", [.blank ' ' rfl]⟩,
    ⟨nameOf "gSdf", [.blank ' ' rfl]⟩, ⟨nameOf "a", [.line [')'] (by decide)]⟩,
    ⟨markOf ')', [.blank ' ' rfl]⟩]

/-- A declaration stands in front, and all of the text is one source. -/
theorem ofSource_rounding :
    ofSource "gSdfResult map(int);gSdfResult map(\ninout gSdfContext/***/c, const gSdf a//)\n) \x7b" =
      .ok ⟨.fixed 1, "c", ["a"], attributesOf "gSdfResult map(int);".toList⟩ := by
  have text : "gSdfResult map(\ninout gSdfContext/***/c, const gSdf a//)\n) \x7b".toList =
      roundingPieces.flatMap SpacedWord.text ++ '{' :: [] := by decide +kernel
  have last : (lex "gSdfResult map(int);".toList).getLast? = some ⟨.mark, [';']⟩ := by
    decide +kernel
  have complete : Complete "gSdfResult map(int);".toList := by
    rintro _ same
    rw [last] at same
    cases same
    trivial
  have first : ¬ HoldsDefinition (Token.ofSource "gSdfResult map(int);".toList) := by
    rintro ⟨before, result, name, opening, inside, close, brace, after, whole, definition⟩
    have noBrace : ∀ token ∈ Token.ofSource "gSdfResult map(int);".toList,
        token.isMark '{' = false := by decide +kernel
    have body := noBrace brace (by rw [whole]; simp)
    rw [definition.2.2.2.2.2] at body
    cases body
  have apart : SpacedWord.Apart roundingPieces := by
    unfold SpacedWord.Apart
    decide +kernel
  have both := ofSource_definition rounding [] complete (by decide +kernel) first
    (by decide +kernel) apart
  have whole : String.ofList ("gSdfResult map(int);".toList ++
      (roundingPieces.flatMap SpacedWord.text ++ '{' :: [])) =
      "gSdfResult map(int);gSdfResult map(\ninout gSdfContext/***/c, const gSdf a//)\n) \x7b" := by
    rw [← text, ← String.toList_append, String.ofList_toList]
    rfl
  rw [whole] at both
  exact both.1 ["a"] rfl

end Signature
end Collage
