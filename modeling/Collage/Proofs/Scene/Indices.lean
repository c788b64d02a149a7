import Collage.Proofs.Scene.Signatures
import Collage.Proofs.Shader.Indexing

/-!
# Functions and signatures by the indices of tokens

The functions that a source defines and the signature of its `map` may be found by indices of
tokens, with the parameters taken from between two of them, and the comment in front of `map` and
the number of its line from the bytes before it.  `functions?` and `signature?` do so, and whatever
is beyond the tokens or the source, or would be cut inside a character, is nothing.

Parentheses decide where to go on.  The one that closes has an index of its own (`matching_eq`),
which is behind that of the one that opens, so that there are tokens between them
(`candidate?_eq`).
-/

namespace Collage
namespace Scanner

/-! ### Parentheses -/

/-- The index of the parenthesis that closes the last of `depth` ones, among tokens of which the
first has the given index. -/
def closing : ℕ → ℕ → List Token → Option ℕ
  | _, _, [] => none
  | depth, index, token :: rest =>
    if token.isMark '(' then closing (depth + 1) (index + 1) rest
    else if token.isMark ')' then
      match depth with
      | 0 => none
      | depth + 1 => if depth = 0 then some index else closing depth (index + 1) rest
    else closing depth (index + 1) rest

/-- The index of the parenthesis that closes the one at an index. -/
def matching (tokens : List Token) (opening : ℕ) : Option ℕ :=
  closing 0 opening (tokens.drop opening)

theorem map_further (found : Option (List Token × Token × List Token)) (token : Token)
    (index : ℕ) :
    (found.map fun found => (token :: found.1, found.2.1, found.2.2)).map
        (fun found => index + found.1.length) =
      found.map fun found => index + 1 + found.1.length := by
  rw [Option.map_map]
  refine Option.map_congr fun found _ => ?_
  simp [Nat.add_assoc, Nat.add_comm 1]

theorem closing_eq (depth index : ℕ) (tokens : List Token) :
    closing (depth + 1) index tokens =
      (closeParenthesis depth tokens).map fun found => index + found.1.length := by
  fun_induction closeParenthesis depth tokens generalizing index with
  | case1 => rfl
  | case2 depth token rest opens ih =>
    unfold closing
    rw [if_pos opens, ih, map_further]
  | case3 token rest notOpen closes =>
    unfold closing
    rw [if_neg notOpen, if_pos closes]
    rfl
  | case4 token rest notOpen closes depth ih =>
    unfold closing
    rw [if_neg notOpen, if_pos closes, map_further, ← ih]
    rfl
  | case5 depth token rest notOpen notClose ih =>
    unfold closing
    rw [if_neg notOpen, if_neg notClose, ih, map_further]

/-- **The partner of a parenthesis stands behind what is inside.** -/
theorem matching_eq (before : List Token) {opening : Token} (opens : opening.isMark '(' = true)
    (rest : List Token) :
    matching (before ++ opening :: rest) before.length =
      (closeParenthesis 0 rest).map fun found => before.length + 1 + found.1.length := by
  rw [matching, List.drop_left]
  unfold closing
  rw [if_pos opens, closing_eq]

/-! ### Functions -/

/-- Whether an identifier stands in front of an index. -/
def typed? (tokens : List Token) : ℕ → Option Bool
  | 0 => some false
  | index + 1 => (tokens[index]?).map Token.isIdentifier

/-- The index of the parenthesis that closes the parameters of a token, if it is a name with a type
in front of it. -/
def parametersEnd? (tokens : List Token) (index : ℕ) (token : Token) : Option (Option ℕ) :=
  if token.isIdentifier then do
    let typed ← typed? tokens index
    return if typed && tokens[index + 1]?.any (·.isMark '(') then matching tokens (index + 1)
      else none
  else some none

/-- The functions defined from a token on, that are not yet in `seen`, given enough turns. -/
def functionsFrom? (tokens : List Token) : ℕ → ℕ → List String → ℕ → Option (List String)
  | 0, _, _, _ => none
  | turns + 1, depth, seen, index =>
    if index < tokens.length then do
      let token ← tokens[index]?
      if token.isMark '{' then functionsFrom? tokens turns (depth + 1) seen (index + 1)
      else if token.isMark '}' then functionsFrom? tokens turns (depth - 1) seen (index + 1)
      else if depth = 0 then
        match ← parametersEnd? tokens index token with
        | some close =>
          let defined := tokens[close + 1]?.any (·.isMark '{') && !seen.contains token.word
          functionsFrom? tokens turns depth (if defined then seen ++ [token.word] else seen)
            (close + 1)
        | none => functionsFrom? tokens turns depth seen (index + 1)
      else functionsFrom? tokens turns depth seen (index + 1)
    else some seen

/-- The names of the functions that a source defines outside all braces. -/
def functions? (source : List Char) : Option (List String) := do
  let tokens ← scan? source
  functionsFrom? tokens (tokens.length + 1) 0 [] 0

theorem typed?_eq (before rest : List Token) :
    typed? (before ++ rest) before.length = some (before.getLast?.any Token.isIdentifier) := by
  rcases List.eq_nil_or_concat before with rfl | ⟨before, last, rfl⟩
  · rfl
  · simp [typed?]

/-- The parameters behind a token: those inside, the parenthesis, and what follows. -/
def parameters? (previous : Option Token) (token : Token) :
    List Token → Option (List Token × Token × List Token)
  | opening :: inner =>
    if token.isIdentifier && previous.any Token.isIdentifier && opening.isMark '(' then
      closeParenthesis 0 inner
    else none
  | [] => none

theorem of_parameters? {previous : Option Token} {token close : Token}
    {rest inside after : List Token}
    (found : parameters? previous token rest = some (inside, close, after)) :
    ∃ opening, rest = opening :: (inside ++ close :: after) := by
  cases rest with
  | nil => cases found
  | cons opening inner =>
    rw [parameters?] at found
    split at found
    · exact ⟨opening, congrArg _ (Signature.of_closeParenthesis found).1⟩
    · cases found

theorem parametersEnd?_eq (before : List Token) (token : Token) (rest : List Token) :
    parametersEnd? (before ++ token :: rest) before.length token =
      some ((parameters? before.getLast? token rest).map fun found =>
        before.length + 2 + found.1.length) := by
  have ahead : (before ++ token :: rest)[before.length + 1]? = rest.head? := by
    rw [getElem?_behind, List.getElem?_cons_succ, List.head?_eq_getElem?]
  rw [parametersEnd?, typed?_eq, ahead]
  simp only [Option.bind_eq_bind, Option.bind_some]
  by_cases identifier : token.isIdentifier = true
  · rw [if_pos identifier]
    cases rest with
    | nil => simp [parameters?]
    | cons opening inner =>
      rw [parameters?, identifier, Bool.true_and, List.head?_cons, Option.any_some]
      split
      · next both =>
        have opens : opening.isMark '(' = true := (Bool.and_eq_true_iff.mp both).2
        have partner := matching_eq (before ++ [token]) opens inner
        rw [List.append_assoc, List.length_append] at partner
        exact congrArg some partner
      · rfl
  · rw [if_neg identifier]
    cases rest with
    | nil => rfl
    | cons opening inner =>
      rw [parameters?, Bool.eq_false_iff.mpr identifier, Bool.false_and, Bool.false_and,
        if_neg Bool.false_ne_true]
      rfl

theorem functionsIn_cons (turns depth : ℕ) (previous : Option Token) (seen : List String)
    (token : Token) (rest : List Token) :
    functionsIn (turns + 1) depth previous seen (token :: rest) =
      if token.isMark '{' then functionsIn turns (depth + 1) (some token) seen rest
      else if token.isMark '}' then functionsIn turns (depth - 1) (some token) seen rest
      else
        match if depth = 0 then parameters? previous token rest else none with
        | some (_, close, after) =>
          functionsIn turns depth (some close)
            (if after.head?.any (·.isMark '{') && !seen.contains token.word then
              seen ++ [token.word] else seen) after
        | none => functionsIn turns depth (some token) seen rest := by
  rw [functionsIn]
  split
  · rfl
  split
  · rfl
  cases rest with
  | nil => rw [parameters?, ite_self]
  | cons opening inner =>
    dsimp only
    by_cases outside : depth = 0
    · rw [if_pos outside, parameters?, decide_eq_true outside, Bool.true_and]
      split
      · cases closeParenthesis 0 inner <;> rfl
      · rfl
    · rw [if_neg outside, decide_eq_false outside, Bool.false_and, Bool.false_and, Bool.false_and,
        if_neg Bool.false_ne_true]

/-- **Functions are found from an index on as they are found among the tokens there.** -/
theorem functionsFrom?_eq (before rest : List Token) (depth : ℕ) (seen : List String) {turns : ℕ}
    (enough : rest.length < turns) :
    functionsFrom? (before ++ rest) turns depth seen before.length =
      some (functionsIn turns depth before.getLast? seen rest) := by
  induction turns generalizing before rest depth seen with
  | zero => omega
  | succ turns ih =>
    cases rest with
    | nil =>
      rw [functionsFrom?, if_neg (by simp)]
      rfl
    | cons token rest =>
      rw [List.length_cons] at enough
      have next (depth : ℕ) : functionsFrom? (before ++ token :: rest) turns depth seen
          (before.length + 1) = some (functionsIn turns depth (some token) seen rest) := by
        have next := ih (before ++ [token]) rest depth seen (by omega)
        rwa [List.append_assoc, List.length_append, List.getLast?_concat] at next
      rw [functionsFrom?, if_pos (by simp), head?_behind, functionsIn_cons]
      simp only [List.head?_cons, Option.bind_eq_bind, Option.bind_some, next, parametersEnd?_eq]
      split
      · rfl
      split
      · rfl
      split
      · cases found : parameters? before.getLast? token rest with
        | none => rfl
        | some parameters =>
          obtain ⟨inside, close, after⟩ := parameters
          obtain ⟨opening, rfl⟩ := of_parameters? found
          -- the parenthesis that closes is the last of the tokens passed
          have size : (before ++ token :: opening :: (inside ++ [close])).length =
              before.length + 2 + inside.length + 1 := by
            simp only [List.length_append, List.length_cons, List.length_nil]
            omega
          have body := head?_behind (before ++ token :: opening :: (inside ++ [close])) after
          have later (seen : List String) :=
            ih (before ++ token :: opening :: (inside ++ [close])) after depth seen
              (by simp at enough; omega)
          have last : (before ++ token :: opening :: (inside ++ [close])).getLast? = some close := by
            simp [List.getLast?_cons]
          simp only [size, last, List.append_assoc, List.cons_append, List.nil_append] at body later
          simp only [Option.map_some, body, later]
      · rfl

/-- **Reading by an index finds the functions of every source.** -/
theorem functions?_eq (source : List Char) :
    functions? source = some (definedFunctions source) := by
  rw [functions?, scan?_eq]
  exact functionsFrom?_eq [] (Token.ofSource source) 0 [] (Nat.lt_succ_self _)

/-! ### Declarations of `map` -/

/-- The declaration of `map` at an index: that index and the one of the parenthesis that closes. -/
def declarationAt? (tokens : List Token) (index : ℕ) : Option (ℕ × ℕ) :=
  if tokens[index]?.any (·.isWord "gSdfResult") && tokens[index + 1]?.any (·.isWord "map") &&
      tokens[index + 2]?.any (·.isMark '(') then
    (matching tokens (index + 2)).map fun close => (index, close)
  else none

/-- The declarations of `map` from an index on. -/
def declarationsIn (tokens : List Token) (index count : ℕ) : List (ℕ × ℕ) :=
  (List.range' index count).filterMap (declarationAt? tokens)

/-- Whether a body follows a declaration. -/
def hasBody (tokens : List Token) (place : ℕ × ℕ) : Bool :=
  tokens[place.2 + 1]?.any (·.isMark '{')

/-- The first definition, or else the first declaration. -/
def chosenPlace? (tokens : List Token) (places : List (ℕ × ℕ)) : Option (ℕ × ℕ) :=
  (places.find? (hasBody tokens)).orElse fun _ => places.head?

/-- The tokens from one index up to another. -/
def between? (tokens : List Token) (start stop : ℕ) : Option (List Token) :=
  if start ≤ stop ∧ stop ≤ tokens.length then some ((tokens.take stop).drop start) else none

/-- What is read of a declaration. -/
def candidate? (tokens : List Token) (place : ℕ × ℕ) : Option Signature.Candidate := do
  let first ← tokens[place.1]?
  let inside ← between? tokens (place.1 + 3) place.2
  return ⟨first.offset, inside, hasBody tokens place⟩

theorem between?_eq (before inside after : List Token) :
    between? (before ++ (inside ++ after)) before.length (before ++ inside).length =
      some inside := by
  rw [between?, if_pos (by simp), ← List.append_assoc, List.take_left, List.drop_left]

/-- A declaration is read from its indices. -/
theorem candidate?_eq (before : List Token) (first name opening close : Token)
    (inside after : List Token) :
    candidate? (before ++ first :: name :: opening :: (inside ++ close :: after))
        (before.length, before.length + 3 + inside.length) =
      some ⟨first.offset, inside, after.head?.any (·.isMark '{')⟩ := by
  have opened : (before ++ [first, name, opening]).length = before.length + 3 :=
    List.length_append
  have closed : (before ++ [first, name, opening] ++ inside).length =
      before.length + 3 + inside.length := by
    rw [List.length_append, opened]
  have ended : (before ++ [first, name, opening] ++ inside ++ [close]).length =
      before.length + 3 + inside.length + 1 := by
    rw [List.length_append, closed]
    rfl
  have parameters := between?_eq (before ++ [first, name, opening]) inside (close :: after)
  have body := head?_behind (before ++ [first, name, opening] ++ inside ++ [close]) after
  rw [opened, closed] at parameters
  rw [ended] at body
  simp only [List.append_assoc, List.cons_append, List.nil_append] at parameters body
  rw [candidate?, hasBody, head?_behind]
  simp only [parameters, body]
  rfl

open Signature in
theorem map_declarationAt? (before : List Token) (first : Token) (rest : List Token) :
    (declarationAt? (before ++ first :: rest) before.length).map
        (candidate? (before ++ first :: rest)) =
      (candidateAt? first rest).map some := by
  have here : (before ++ first :: rest)[before.length]? = some first := head?_behind _ _
  have behind (k : ℕ) : (before ++ first :: rest)[before.length + (k + 1)]? = rest[k]? :=
    getElem?_behind _ _ _
  rw [declarationAt?, here, behind 0, behind 1]
  rcases rest with _ | ⟨name, _ | ⟨opening, inner⟩⟩
  · simp [candidateAt?]
  · simp [candidateAt?]
  · simp only [candidateAt?, List.getElem?_cons_zero, List.getElem?_cons_succ, Option.any_some]
    by_cases isMap : (first.isWord "gSdfResult" && name.isWord "map" && opening.isMark '(') = true
    · have opens : opening.isMark '(' = true := (Bool.and_eq_true_iff.mp isMap).2
      have partner := matching_eq (before ++ [first, name]) opens inner
      rw [List.append_assoc, List.length_append] at partner
      change matching (before ++ first :: name :: opening :: inner) (before.length + 2) = _ at partner
      rw [if_pos isMap, if_pos isMap, partner]
      cases closed : closeParenthesis 0 inner with
      | none => rfl
      | some found =>
        obtain ⟨inside, close, after⟩ := found
        obtain ⟨rfl, _, _⟩ := of_closeParenthesis closed
        exact congrArg some (candidate?_eq before first name opening close inside after)
    · rw [if_neg isMap, if_neg isMap]
      rfl

theorem map_declarationsIn (before rest : List Token) :
    (declarationsIn (before ++ rest) before.length rest.length).map (candidate? (before ++ rest)) =
      (Signature.candidates rest).map some := by
  induction rest generalizing before with
  | nil => rfl
  | cons first rest ih =>
    have later := ih (before ++ [first])
    rw [List.append_assoc, List.singleton_append, List.length_append, List.length_singleton] at later
    have here := map_declarationAt? before first rest
    unfold declarationsIn at later ⊢
    rw [Signature.candidates_cons, List.map_append, ← later, List.length_cons,
      List.range'_succ, List.filterMap_cons]
    cases found : declarationAt? (before ++ first :: rest) before.length with
    | none =>
      rw [found] at here
      rw [Option.map_eq_none_iff.mp here.symm]
      rfl
    | some place =>
      rw [found] at here
      obtain ⟨candidate, same, read⟩ := Option.map_eq_some_iff.mp here.symm
      rw [same, List.map_cons, ← read]
      rfl

theorem of_candidate? {tokens : List Token} {place : ℕ × ℕ} {candidate : Signature.Candidate}
    (read : candidate? tokens place = some candidate) :
    ∃ first, tokens[place.1]? = some first ∧
      between? tokens (place.1 + 3) place.2 = some candidate.inside ∧
      candidate.offset = first.offset ∧ candidate.defined = hasBody tokens place := by
  obtain ⟨first, found, read⟩ := Option.bind_eq_some_iff.mp read
  obtain ⟨inside, parameters, read⟩ := Option.bind_eq_some_iff.mp read
  cases read
  exact ⟨first, found, parameters, rfl, rfl⟩

theorem map_find?_hasBody {tokens : List Token} {places : List (ℕ × ℕ)}
    {candidates : List Signature.Candidate}
    (same : places.map (candidate? tokens) = candidates.map some) :
    (places.find? (hasBody tokens)).map (candidate? tokens) =
      (candidates.find? (·.defined)).map some := by
  induction places generalizing candidates with
  | nil =>
    rw [List.map_eq_nil_iff.mp same.symm]
    rfl
  | cons place places ih =>
    obtain ⟨candidate, others, rfl, read, same⟩ := List.map_eq_cons_iff.mp same.symm
    obtain ⟨_, _, _, _, defined⟩ := of_candidate? read.symm
    rw [List.find?_cons, List.find?_cons, defined]
    split
    · rw [Option.map_some, ← read, Option.map_some]
    · exact ih same.symm

/-- **The same declaration is chosen.** -/
theorem map_chosenPlace? {tokens : List Token} {places : List (ℕ × ℕ)}
    {candidates : List Signature.Candidate}
    (same : places.map (candidate? tokens) = candidates.map some) :
    (chosenPlace? tokens places).map (candidate? tokens) =
      (Signature.chosen? candidates).map some := by
  have defined := map_find?_hasBody same
  have first : places.head?.map (candidate? tokens) = candidates.head?.map some := by
    rw [← List.head?_map, same, List.head?_map]
  rw [chosenPlace?, Signature.chosen?]
  cases found : places.find? (hasBody tokens) with
  | none =>
    rw [found] at defined
    rw [Option.map_eq_none_iff.mp defined.symm]
    exact first
  | some place =>
    rw [found] at defined
    obtain ⟨candidate, chosen, read⟩ := Option.map_eq_some_iff.mp defined.symm
    rw [chosen]
    exact congrArg some read.symm

/-! ### Attributes and lines -/

/-- The byte at which a text last occurs in another. -/
def findLast? (needle : List Char) : List Char → Option ℕ
  | [] => if needle.isEmpty then some 0 else none
  | c :: rest =>
    match findLast? needle rest with
    | some found => some (c.utf8Size + found)
    | none => if needle.isPrefixOf (c :: rest) then some 0 else none

/-- The text of the comment that ends right before a byte, if one does. -/
def commentBefore? (source : List Char) (offset : ℕ) : Option (Option (List Char)) := do
  let front ← piece? source 0 offset
  match withoutEnd? ['*', '/'] (trimEnd front) with
  | none => return none
  | some body =>
    match findLast? ['/', '*'] body with
    | none => return none
    | some opening => return some (← piece? body (opening + 2) (byteSize body))

/-- The attributes that a comment gives. -/
def attributesIn (comment : Option (List Char)) : SceneAttributes :=
  let raw := do
    let inner := trim (← comment)
    if inner.head? = some '{' then Relaxed.parseObject inner else none
  match raw with
  | some raw => ⟨((Json.object raw).get? "halfExtents").bind Signature.halfExtentsOf, raw⟩
  | none => {}

theorem attributesOf_eq (source : List Char) :
    Signature.attributesOf source = attributesIn (Signature.closingComment? source) :=
  rfl

theorem findLast?_eq_none {needle text : List Char} (notInside : ¬ needle <:+: text) :
    findLast? needle text = none := by
  induction text with
  | nil =>
    have nonempty : needle.isEmpty = false := by
      cases needle with
      | nil => exact absurd List.nil_infix notInside
      | cons => rfl
    rw [findLast?, nonempty, if_neg Bool.false_ne_true]
  | cons c rest ih =>
    rw [List.infix_cons_iff, not_or, ← List.isPrefixOf_iff_prefix] at notInside
    rw [findLast?, ih notInside.2]
    exact if_neg notInside.1

theorem findLast?_append {needle rest : List Char} {c : Char} (here : needle <+: c :: rest)
    (last : ¬ needle <:+: rest) (front : List Char) :
    findLast? needle (front ++ c :: rest) = some (byteSize front) := by
  induction front with
  | nil =>
    rw [List.nil_append, findLast?, findLast?_eq_none last]
    exact if_pos (List.isPrefixOf_iff_prefix.mpr here)
  | cons d front ih =>
    rw [List.cons_append, findLast?, ih]
    rfl

theorem of_findLast? {needle text : List Char} {place : ℕ}
    (found : findLast? needle text = some place) :
    ∃ front back, text = front ++ (needle ++ back) ∧ byteSize front = place := by
  induction text generalizing place with
  | nil =>
    rw [findLast?] at found
    split at found
    · next nothing =>
      cases found
      exact ⟨[], [], by rw [List.isEmpty_iff.mp nothing]; rfl, rfl⟩
    · cases found
  | cons c rest ih =>
    rw [findLast?] at found
    split at found
    · next place later =>
      cases found
      obtain ⟨front, back, rfl, rfl⟩ := ih later
      exact ⟨c :: front, back, rfl, byteSize_cons c front⟩
    · split at found
      · next here =>
        cases found
        obtain ⟨back, whole⟩ := List.isPrefixOf_iff_prefix.mp here
        exact ⟨[], back, whole.symm, rfl⟩
      · cases found

/-- The last opening is the first one from the end. -/
theorem afterLastOpening_eq (text seen : List Char)
    (first : ¬ ['/', '*'] <:+: text.head?.toList ++ seen) :
    Signature.afterLastOpening text seen =
      (findLast? ['/', '*'] (text.reverse ++ seen)).bind fun opening =>
        piece? (text.reverse ++ seen) (opening + 2) (byteSize (text.reverse ++ seen)) := by
  fun_induction Signature.afterLastOpening text seen with
  | case1 rest seen =>
    have whole : ('*' :: '/' :: rest).reverse ++ seen = rest.reverse ++ '/' :: '*' :: seen := by
      simp
    have opened : byteSize rest.reverse + 2 = byteSize (rest.reverse ++ ['/', '*']) := by
      rw [byteSize_append]
      rfl
    have inner := piece?_append (rest.reverse ++ ['/', '*']) seen []
    rw [List.append_nil, List.append_assoc, ← opened] at inner
    have found : findLast? ['/', '*'] (rest.reverse ++ '/' :: '*' :: seen) =
        some (byteSize rest.reverse) :=
      findLast?_append (List.prefix_append ['/', '*'] seen) first rest.reverse
    rw [whole, found, Option.bind_some]
    exact inner.symm
  | case2 c rest seen notOpening ih =>
    rw [ih, List.reverse_cons, List.append_assoc, List.singleton_append]
    cases rest with
    | nil => exact first
    | cons d rest =>
      intro inside
      rcases List.infix_cons_iff.mp inside with ⟨more, whole⟩ | inside
      · obtain ⟨rfl, behind⟩ := List.cons.inj whole
        obtain ⟨rfl, _⟩ := List.cons.inj behind
        exact notOpening rest rfl rfl
      · exact first inside
  | case3 seen =>
    have none : findLast? ['/', '*'] seen = none := findLast?_eq_none first
    rw [List.reverse_nil, List.nil_append, none]
    rfl

/-- **A comment in front of a byte is cut out as its characters are.** -/
theorem commentBefore?_eq (front back : List Char) :
    commentBefore? (front ++ back) (byteSize front) = some (Signature.closingComment? front) := by
  have before := piece?_append [] front back
  rw [List.nil_append, List.nil_append, byteSize_nil] at before
  rw [commentBefore?, before, Signature.closingComment?]
  simp only [Option.bind_eq_bind, Option.bind_some]
  cases withoutEnd? ['*', '/'] (trimEnd front) with
  | none => rfl
  | some body =>
    have short : ¬ ['/', '*'] <:+: body.reverse.head?.toList ++ [] := by
      intro inside
      have short := inside.length_le
      rw [List.append_nil] at short
      cases head : body.reverse.head? <;> rw [head] at short <;> simp at short
    have inner := afterLastOpening_eq body.reverse [] short
    rw [List.reverse_reverse, List.append_nil] at inner
    rw [Option.bind_some, inner]
    dsimp only
    cases last : findLast? ['/', '*'] body with
    | none => rfl
    | some opening =>
      obtain ⟨before, after, rfl, rfl⟩ := of_findLast? last
      have opened : byteSize before + 2 = byteSize (before ++ ['/', '*']) := by
        rw [byteSize_append]
        rfl
      have piece := piece?_append (before ++ ['/', '*']) after []
      rw [List.append_nil, List.append_assoc, ← opened] at piece
      simp only [Option.bind_some, piece]
      rfl

/-- The line of a byte offset, by the line feeds before it. -/
def lineAt (bytes : List UInt8) (offset : ℕ) : ℕ :=
  (bytes.take offset).countP (fun byte => byteChar byte = '\n') + 1

theorem lineAt_eq (front back : List Char) :
    lineAt (bytesOf (front ++ back)) (byteSize front) = lineOf (front ++ back) (byteSize front) := by
  rw [lineAt, take_bytesOf, Signature.lineOf_append]
  congr 1
  induction front with
  | nil => rfl
  | cons c front ih =>
    have all : ∀ byte ∈ String.utf8EncodeChar c, decide (byteChar byte = '\n') = decide (c = '\n') :=
      fun byte inside => Bytewise.eq (by decide) c byte inside
    rw [bytesOf_cons, List.countP_append, ih, List.count_cons, Nat.add_comm]
    congr 1
    by_cases newLine : c = '\n'
    · subst newLine
      rfl
    · rw [if_neg (by simpa using newLine), List.countP_eq_zero]
      intro byte inside
      rw [all byte inside, decide_eq_false newLine]
      exact Bool.false_ne_true

/-- The signature of a source, by its tokens' indices and its bytes. -/
def signature? (source : String) : Option (Except Diagnostic Signature) := do
  let text := source.toList
  let tokens ← scan? text
  match chosenPlace? tokens (declarationsIn tokens 0 tokens.length) with
  | none => return .error ⟨0, SignatureError.message .missing, .error⟩
  | some (start, close) =>
    let first ← tokens[start]?
    let inside ← between? tokens (start + 3) close
    match Signature.readParameters inside with
    | .error e => return .error ⟨lineAt (bytesOf text) first.offset, e.message, .error⟩
    | .ok (context, arity, parameters) =>
      let comment ← commentBefore? text first.offset
      return .ok ⟨arity, context, parameters, attributesIn comment⟩

/-- **Reading by indices and bytes finds the signature of every source.** -/
theorem signature?_eq (source : String) : signature? source = some (Signature.ofSource source) := by
  have same := map_chosenPlace? (map_declarationsIn [] (Token.ofSource source.toList))
  simp only [List.nil_append, List.length_nil] at same
  rw [signature?, Signature.ofSource]
  simp only [scan?_eq, Option.bind_eq_bind, Option.bind_some]
  cases chosen : chosenPlace? (Token.ofSource source.toList)
    (declarationsIn (Token.ofSource source.toList) 0 (Token.ofSource source.toList).length) with
  | none =>
    rw [chosen] at same
    rw [Option.map_eq_none_iff.mp same.symm]
    rfl
  | some place =>
    rw [chosen] at same
    obtain ⟨candidate, found, read⟩ := Option.map_eq_some_iff.mp same.symm
    obtain ⟨first, here, inside, offset, _⟩ := of_candidate? read.symm
    obtain ⟨front, back, text, size⟩ := Token.exists_append (List.mem_of_getElem? here)
    rw [found]
    dsimp only
    rw [here, Option.bind_some, inside, Option.bind_some, offset, ← size]
    cases Signature.readParameters candidate.inside with
    | error e =>
      dsimp only
      rw [text, lineAt_eq]
      rfl
    | ok parameters =>
      obtain ⟨context, arity, names⟩ := parameters
      dsimp only
      rw [text, commentBefore?_eq, Signature.takeBytes_append, attributesOf_eq]
      rfl

end Scanner
end Collage
