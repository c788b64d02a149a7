import Collage.Proofs.Shader.Lexing
import Collage.Proofs.Text.Bytes

/-!
# A scanner over bytes

`Lexeme.lex` takes characters off the front of a source.  A source may also be scanned byte by byte
with an offset that moves on, which looks one byte ahead and one back and cuts out the texts of the
tokens.  `scan?` does so.  Whatever is beyond the end of the source, or would be cut inside a
character, is nothing, and so is a loop that has not come to its end after as many turns as the
source has bytes.

One turn of the scanner is one lexeme (`turn?_eq`), as each sort of lexeme is told by single bytes
and ends where its bytes end.  So the scanner comes to its end on every source, with the tokens of
the lexemes (`scan?_eq`).
-/

namespace Collage
namespace Scanner

/-! ### The scanner -/

/-- Goes on from byte to byte as long as something holds, at most up to the end. -/
def advance? (goesOn : ℕ → Option Bool) (size : ℕ) : ℕ → ℕ → Option ℕ
  | 0, _ => none
  | steps + 1, i =>
    if i < size then do
      if ← goesOn i then advance? goesOn size steps (i + 1) else return i
    else some i

/-- The byte before a place. -/
def before? (bytes : List UInt8) : ℕ → Option UInt8
  | 0 => none
  | i + 1 => bytes[i]?

/-- Whether a character of a sort stands right before a place. -/
def anyBefore? (p : Char → Bool) (bytes : List UInt8) (place : ℕ) : Option Bool :=
  if 0 < place then (before? bytes place).map fun byte => p (byteChar byte) else some false

/-- The end of the line on which a byte stands. -/
def lineEnd? (bytes : List UInt8) (i : ℕ) : Option ℕ :=
  if i ≤ bytes.length then
    some (i + ((bytes.drop i).takeWhile fun byte => byteChar byte ≠ '\n').length)
  else none

/-- The end of a preprocessor line, which a backslash at the end of a line carries on. -/
def directiveEnd? (bytes : List UInt8) : ℕ → ℕ → Option ℕ
  | 0, _ => none
  | steps + 1, i => do
    let stop ← lineEnd? bytes i
    let carried ← anyBefore? (· = '\\') bytes stop
    if carried && stop < bytes.length then directiveEnd? bytes steps (stop + 1) else return stop

/-- The byte at which a text first occurs in another. -/
def find? (needle : List Char) : List Char → Option ℕ
  | [] => if needle.isEmpty then some 0 else none
  | c :: rest =>
    if needle.isPrefixOf (c :: rest) then some 0
    else (find? needle rest).map (c.utf8Size + ·)

/-- The end of a block comment that begins at a byte. -/
def blockEnd? (source : List Char) (i : ℕ) : Option ℕ := do
  let rest ← piece? source (i + 2) (byteSize source)
  match find? ['*', '/'] rest with
  | some found => return i + 2 + found + 2
  | none => return byteSize source

/-- Whether an identifier goes on at a byte. -/
def identifierGoesOn? (bytes : List UInt8) (i : ℕ) : Option Bool :=
  (bytes[i]?).map fun byte => isIdentifierPart (byteChar byte)

/-- Whether a number goes on at a byte; for a sign this is told by the byte before it. -/
def numberGoesOn? (bytes : List UInt8) (i : ℕ) : Option Bool := do
  let c := byteChar (← bytes[i]?)
  let sign ←
    if c = '+' || c = '-' then
      (before? bytes i).map fun byte => byteChar byte = 'e' || byteChar byte = 'E'
    else some false
  return c.isAlphanum || c = '.' || sign

/-- What the token is that begins at a byte, and where it ends. -/
def tokenEnd? (source : List Char) (i : ℕ) (c : Char) : Option (LexemeKind × ℕ) :=
  let bytes := bytesOf source
  let span (kind : LexemeKind) (goesOn : ℕ → Option Bool) (start : ℕ) :=
    (advance? goesOn bytes.length (bytes.length + 1) start).map fun stop => (kind, stop)
  if isIdentifierStart c then span .identifier (identifierGoesOn? bytes) i
  else if c.isDigit || (c = '.' && (bytes[i + 1]?).any fun byte => (byteChar byte).isDigit) then
    span .number (numberGoesOn? bytes) (i + 1)
  else span .mark (fun j => some !isPlace source j) (i + 1)

/-- What a turn comes to: the token that was read, if it was one, where to go on, and whether a
preprocessor line may begin there. -/
structure Turn where
  token : Option Token
  stop : ℕ
  lineStart : Bool

/-- One turn of the scanner, at a byte of the source. -/
def turn? (source : List Char) (lineStart : Bool) (i : ℕ) : Option Turn := do
  let bytes := bytesOf source
  let c := byteChar (← bytes[i]?)
  let followed (d : Char) : Bool := (bytes[i + 1]?).any fun byte => byteChar byte = d
  if c = '\n' then return ⟨none, i + 1, true⟩
  else if isPlainBlank c then return ⟨none, i + 1, lineStart⟩
  else if c = '/' && followed '/' then return ⟨none, ← lineEnd? bytes i, lineStart⟩
  else if c = '/' && followed '*' then return ⟨none, ← blockEnd? source i, lineStart⟩
  else if c = '#' && lineStart then
    return ⟨none, ← directiveEnd? bytes (bytes.length + 1) i, lineStart⟩
  else
    let (kind, stop) ← tokenEnd? source i c
    let text ← piece? source i stop
    return ⟨some ⟨kind, text, i⟩, stop, false⟩

/-- The tokens from a byte on, given enough turns. -/
def scanFrom? (source : List Char) : ℕ → Bool → ℕ → Option (List Token)
  | 0, _, _ => none
  | turns + 1, lineStart, i =>
    if i < (bytesOf source).length then do
      let turn ← turn? source lineStart i
      let later ← scanFrom? source turns turn.lineStart turn.stop
      return turn.token.toList ++ later
    else some []

/-- The tokens of a source. -/
def scan? (source : List Char) : Option (List Token) :=
  scanFrom? source (byteSize source + 1) true 0

/-! ### Bytes at a place -/

variable {p : Char → Bool} {front : List Char}

theorem exists_byte (front : List Char) (c : Char) (rest : List Char) :
    ∃ byte ∈ String.utf8EncodeChar c,
      (bytesOf (front ++ c :: rest))[byteSize front]? = some byte := by
  obtain ⟨byte, more, same⟩ := List.exists_cons_of_ne_nil (String.utf8EncodeChar_ne_nil (c := c))
  have here := getElem?_bytesOf front (c :: rest) 0
  rw [Nat.add_zero, bytesOf_cons, same] at here
  exact ⟨byte, by simp [same], here⟩

theorem exists_byte_before {c : Char} (last : front.getLast? = some c) (rest : List Char) :
    ∃ byte ∈ String.utf8EncodeChar c,
      before? (bytesOf (front ++ rest)) (byteSize front) = some byte := by
  obtain ⟨front, rfl⟩ := List.getLast?_eq_some_iff.mp last
  obtain ⟨before, byte, same⟩ : ∃ before byte, String.utf8EncodeChar c = before ++ [byte] :=
    ⟨_, _, (List.dropLast_append_getLast String.utf8EncodeChar_ne_nil).symm⟩
  have size : byteSize (front ++ [c]) = (bytesOf front ++ before).length + 1 := by
    rw [← length_bytesOf, bytesOf_append, bytesOf_cons, same]
    simp [Nat.add_assoc]
  refine ⟨byte, by simp [same], ?_⟩
  rw [size, before?, bytesOf_append, bytesOf_append, bytesOf_cons, bytesOf_nil, List.append_nil, same,
    ← List.append_assoc, List.append_assoc, List.getElem?_append_right le_rfl]
  simp

theorem anyBefore?_eq (h : Bytewise p) (front rest : List Char) :
    anyBefore? p (bytesOf (front ++ rest)) (byteSize front) = some (front.getLast?.any p) := by
  cases last : front.getLast? with
  | none =>
    obtain rfl := List.getLast?_eq_none_iff.mp last
    rfl
  | some c =>
    obtain ⟨byte, inside, before⟩ := exists_byte_before last rest
    have positive : 0 < byteSize front := by
      rw [Nat.pos_iff_ne_zero, ne_eq, byteSize_eq_zero_iff]
      rintro rfl
      cases last
    rw [anyBefore?, if_pos positive, before, Option.map_some, h c byte inside, Option.any_some]

theorem any_next (h : Bytewise p) {c : Char} (narrow : c.utf8Size = 1) (rest : List Char) :
    ((bytesOf (front ++ c :: rest))[byteSize front + 1]?.any fun byte => p (byteChar byte)) =
      rest.head?.any p := by
  have here := getElem?_bytesOf (front ++ [c]) rest 0
  rw [Nat.add_zero, byteSize_append, byteSize_cons, byteSize_nil, narrow, ← List.append_cons,
    ← List.head?_eq_getElem?] at here
  rw [here, any_head?_bytesOf h]

/-! ### Spans -/

theorem advance?_step {goesOn : ℕ → Option Bool} {size i : ℕ} (more : i < size) {go : Bool}
    (test : goesOn i = some go) (steps : ℕ) :
    advance? goesOn size (steps + 1) i =
      if go then advance? goesOn size steps (i + 1) else some i := by
  rw [advance?, if_pos more, test]
  rfl

theorem inside_text (front : List Char) (c : Char) (rest : List Char) :
    byteSize front < byteSize (front ++ c :: rest) := by
  have positive := c.utf8Size_pos
  rw [byteSize_append, byteSize_cons]
  omega

theorem advance?_char {goesOn : ℕ → Option Bool} {go : Bool} {c : Char} (front rest : List Char)
    (test : goesOn (byteSize front) = some go) (narrow : go = true → c.toNat < 128) (steps : ℕ) :
    advance? goesOn (byteSize (front ++ c :: rest)) (steps + 1) (byteSize front) =
      if go then advance? goesOn (byteSize (front ++ c :: rest)) steps (byteSize (front ++ [c]))
      else some (byteSize front) := by
  rw [advance?_step (inside_text front c rest) test]
  refine ite_congr rfl (fun goes => ?_) fun _ => rfl
  rw [byteSize_append front [c], byteSize_cons, byteSize_nil, utf8Size_eq_one (narrow goes)]

theorem advance?_eq {goesOn : ℕ → Option Bool} {size i stop : ℕ} (low : i ≤ stop)
    (high : stop ≤ size) (through : ∀ k, i ≤ k → k < stop → goesOn k = some true)
    (stops : stop < size → goesOn stop = some false) {steps : ℕ} (enough : stop < i + steps) :
    advance? goesOn size steps i = some stop := by
  induction steps generalizing i with
  | zero => omega
  | succ steps ih =>
    by_cases more : i < stop
    · rw [advance?_step (more.trans_le high) (through i le_rfl more), if_pos rfl]
      exact ih more (fun k above => through k (by omega)) (by omega)
    · obtain rfl : i = stop := by omega
      by_cases inside : i < size
      · rw [advance?_step inside (stops inside), if_neg Bool.false_ne_true]
      · rw [advance?, if_neg inside]

theorem advance?_identifier (text front : List Char) (steps : ℕ)
    (enough : byteSize text < steps) :
    advance? (identifierGoesOn? (bytesOf (front ++ text))) (byteSize (front ++ text)) steps
        (byteSize front) =
      some (byteSize front + byteSize (text.takeWhile isIdentifierPart)) := by
  obtain ⟨steps, rfl⟩ := Nat.exists_eq_succ_of_ne_zero (by omega : steps ≠ 0)
  induction text generalizing front steps with
  | nil => simp [advance?]
  | cons c rest ih =>
    obtain ⟨byte, inside, here⟩ := exists_byte front c rest
    have test : identifierGoesOn? (bytesOf (front ++ c :: rest)) (byteSize front) =
        some (isIdentifierPart c) := by
      rw [identifierGoesOn?, here, Option.map_some, Bytewise.identifierPart c byte inside]
    have positive := c.utf8Size_pos
    rw [byteSize_cons] at enough
    obtain ⟨steps, rfl⟩ := Nat.exists_eq_succ_of_ne_zero (by omega : steps ≠ 0)
    have later := ih (front ++ [c]) steps (by omega)
    simp only [← List.append_cons] at later
    rw [advance?_char front rest test narrow_of_part, List.takeWhile_cons, later]
    split <;> simp [Nat.add_assoc]

/-- Whether a number goes on is told by a character and the one before it. -/
theorem numberGoesOn?_eq {previous : Char} (last : front.getLast? = some previous) (c : Char)
    (rest : List Char) :
    numberGoesOn? (bytesOf (front ++ c :: rest)) (byteSize front) =
      some (c.isAlphanum || c = '.' ||
        ((c = '+' || c = '-') && (previous = 'e' || previous = 'E'))) := by
  obtain ⟨byte, inside, here⟩ := exists_byte front c rest
  obtain ⟨byte', inside', before⟩ := exists_byte_before last (c :: rest)
  have mark {d : Char} (narrow : d.toNat < 128) := Bytewise.eq narrow c byte inside
  have letter {d : Char} (narrow : d.toNat < 128) := Bytewise.eq narrow previous byte' inside'
  unfold numberGoesOn?
  simp only [here, before, Option.bind_eq_bind, Option.bind_some, Option.map_some,
    Bytewise.alphanum c byte inside, mark (d := '.') (by decide), mark (d := '+') (by decide),
    mark (d := '-') (by decide), letter (d := 'e') (by decide), letter (d := 'E') (by decide)]
  cases (decide (c = '+') || decide (c = '-')) <;> simp

theorem narrow_of_number {c : Char} {exponent : Bool}
    (go : (c.isAlphanum || c = '.' || ((c = '+' || c = '-') && exponent)) = true) :
    c.toNat < 128 := by
  simp only [Bool.or_eq_true, Bool.and_eq_true, decide_eq_true_eq] at go
  rcases go with (part | rfl) | ⟨rfl | rfl, _⟩
  · exact narrow_of_part (by simp [isIdentifierPart, part])
  all_goals decide

theorem advance?_number (text : List Char) (previous : Char) (front : List Char)
    (last : front.getLast? = some previous) (steps : ℕ) (enough : byteSize text < steps) :
    advance? (numberGoesOn? (bytesOf (front ++ text))) (byteSize (front ++ text)) steps
        (byteSize front) =
      some (byteSize front + byteSize (Lexeme.numberSpan previous text).1) := by
  obtain ⟨steps, rfl⟩ := Nat.exists_eq_succ_of_ne_zero (by omega : steps ≠ 0)
  induction text generalizing front previous steps with
  | nil => simp [advance?, Lexeme.numberSpan]
  | cons c rest ih =>
    have test := numberGoesOn?_eq last c rest
    have positive := c.utf8Size_pos
    rw [byteSize_cons] at enough
    obtain ⟨steps, rfl⟩ := Nat.exists_eq_succ_of_ne_zero (by omega : steps ≠ 0)
    have later := ih c (front ++ [c]) (by simp) steps (by omega)
    simp only [← List.append_cons] at later
    rw [advance?_char front rest test narrow_of_number, Lexeme.numberSpan, later]
    dsimp only
    split <;> simp [Nat.add_assoc]

theorem advance?_mark (front : List Char) (c : Char) (rest : List Char) (steps : ℕ)
    (enough : c.utf8Size ≤ steps) :
    advance? (fun j => some !isPlace (front ++ c :: rest) j) (byteSize (front ++ c :: rest)) steps
        (byteSize front + 1) =
      some (byteSize front + c.utf8Size) := by
  have positive := c.utf8Size_pos
  refine advance?_eq (by omega) ?_ (fun k above below => ?_) (fun _ => ?_) (by omega)
  · rw [byteSize_append, byteSize_cons]
    omega
  · have notPlace : ¬ IsPlace (front ++ c :: rest) k := by
      intro place
      obtain ⟨middle, back, whole, rfl⟩ := place.behind (by omega)
      rw [byteSize_append] at above below
      cases middle with
      | nil => rw [byteSize_nil] at above; omega
      | cons d middle =>
        obtain ⟨rfl, _⟩ := List.cons.inj whole
        rw [byteSize_cons] at below
        omega
    rw [Bool.eq_false_iff.mpr (mt isPlace_iff.mp notPlace)]
    rfl
  · have place : IsPlace (front ++ c :: rest) (byteSize front + c.utf8Size) :=
      ⟨front ++ [c], rest, List.append_cons .., by simp⟩
    rw [isPlace_iff.mpr place]
    rfl

/-! ### Lines and comments -/

theorem lineEnd?_eq {line : List Char} (oneLine : '\n' ∉ line) (front after : List Char)
    (ends : ∀ c ∈ after.head?, c = '\n') :
    lineEnd? (bytesOf (front ++ (line ++ after))) (byteSize front) =
      some (byteSize (front ++ line)) := by
  have stops : (line ++ after).takeWhile (fun c => decide (c ≠ '\n')) = line := by
    rw [List.takeWhile_append_of_pos]
    · cases after with
      | nil => simp
      | cons c after =>
        obtain rfl := ends c rfl
        simp
    · exact fun c inside => decide_eq_true fun same => oneLine (same ▸ inside)
  have inside : byteSize front ≤ (bytesOf (front ++ (line ++ after))).length := by
    rw [length_bytesOf, byteSize_append]
    exact Nat.le_add_right _ _
  rw [lineEnd?, if_pos inside, drop_bytesOf,
    takeWhile_bytesOf (Bytewise.ne (d := '\n') (by decide)), stops, length_bytesOf, byteSize_append]

theorem lineEnd?_cons (front : List Char) {c : Char} (inLine : c ≠ '\n') (rest : List Char) :
    lineEnd? (bytesOf (front ++ c :: rest)) (byteSize front) =
      some (byteSize (front ++ c :: rest.takeWhile (· ≠ '\n'))) := by
  have oneLine : '\n' ∉ c :: rest.takeWhile (· ≠ '\n') := by
    simp only [List.mem_cons, not_or]
    exact ⟨inLine.symm, fun inside => absurd (List.mem_takeWhile_imp inside) (by simp)⟩
  have stop := lineEnd?_eq oneLine front (rest.dropWhile (· ≠ '\n'))
    fun d first => by simpa using Lexeme.head?_dropWhile rest d first
  rwa [List.cons_append, List.takeWhile_append_dropWhile] at stop

/-- One line of a directive: the character before its end tells whether it is carried on. -/
theorem directiveEnd?_line {line : List Char} (oneLine : '\n' ∉ line) {previous : Char}
    (last : (front ++ line).getLast? = some previous) {after : List Char}
    (ends : ∀ c ∈ after.head?, c = '\n') (steps : ℕ) :
    directiveEnd? (bytesOf (front ++ (line ++ after))) (steps + 1) (byteSize front) =
      if previous = '\\' ∧ after ≠ [] then
        directiveEnd? (bytesOf (front ++ (line ++ after))) steps (byteSize (front ++ line) + 1)
      else some (byteSize (front ++ line)) := by
  have carried := anyBefore?_eq (p := (· = '\\')) (Bytewise.eq (by decide)) (front ++ line) after
  have more : byteSize (front ++ line) < (bytesOf (front ++ (line ++ after))).length ↔
      after ≠ [] := by
    rw [length_bytesOf, ← List.append_assoc, byteSize_append (front ++ line), ne_eq,
      ← byteSize_eq_zero_iff]
    omega
  rw [List.append_assoc, last, Option.any_some] at carried
  simp only [directiveEnd?, lineEnd?_eq oneLine front after ends, Option.bind_eq_bind,
    Option.bind_some, carried, more, Bool.and_eq_true, decide_eq_true_eq]
  rfl

/-- **A preprocessor line ends by its bytes where it ends by its characters.** -/
theorem directiveEnd?_eq (text : List Char) (previous : Char) (front line : List Char)
    (oneLine : '\n' ∉ line) (last : (front ++ line).getLast? = some previous) (steps : ℕ)
    (enough : byteSize text < steps) :
    directiveEnd? (bytesOf (front ++ (line ++ text))) steps (byteSize front) =
      some (byteSize (front ++ line) + byteSize (Lexeme.directiveSpan previous text).1) := by
  obtain ⟨steps, rfl⟩ := Nat.exists_eq_succ_of_ne_zero (by omega : steps ≠ 0)
  induction text generalizing previous front line steps with
  | nil =>
    rw [directiveEnd?_line oneLine last (by simp), if_neg (by simp)]
    rfl
  | cons c rest ih =>
    have positive := c.utf8Size_pos
    rw [byteSize_cons] at enough
    obtain ⟨steps, rfl⟩ := Nat.exists_eq_succ_of_ne_zero (by omega : steps ≠ 0)
    by_cases newLine : c = '\n'
    · subst newLine
      have one : '\n'.utf8Size = 1 := rfl
      have size : byteSize (front ++ line) + 1 = byteSize (front ++ (line ++ ['\n'])) := by
        simp [one, Nat.add_assoc]
      rw [directiveEnd?_line oneLine last (by simp), Lexeme.directiveSpan]
      by_cases carried : previous = '\\'
      · -- the next line of the directive begins behind the line feed
        have next := ih '\n' (front ++ (line ++ ['\n'])) []
          List.not_mem_nil (by simp) steps (by omega)
        rw [if_pos ⟨carried, List.cons_ne_nil _ _⟩, if_neg (by simp [carried]), size]
        simpa [Nat.add_assoc] using next
      · rw [if_neg (by simp [carried]), if_pos ⟨rfl, carried⟩]
        rfl
    · have next := ih c front (line ++ [c]) (by simp [oneLine, Ne.symm newLine]) (by simp)
        (steps + 1) (by omega)
      rw [Lexeme.directiveSpan, if_neg (by simp [newLine])]
      simpa [Nat.add_assoc] using next

/-- The end of a block comment is where its two characters first stand. -/
theorem find?_blockSpan (text : List Char) :
    (find? ['*', '/'] text).elim (byteSize text) (· + 2) = byteSize (Lexeme.blockSpan text).1 := by
  fun_induction Lexeme.blockSpan text with
  | case1 rest => rfl
  | case2 => rfl
  | case3 c rest notEnd span after same ih =>
    have notHere : List.isPrefixOf ['*', '/'] (c :: rest) = false := by
      rw [Bool.eq_false_iff, ne_eq, List.isPrefixOf_iff_prefix]
      rintro ⟨more, whole⟩
      obtain ⟨rfl, rfl⟩ := List.cons.inj whole
      exact notEnd more rfl rfl
    rw [same] at ih
    rw [find?, notHere, if_neg Bool.false_ne_true]
    dsimp only at ih ⊢
    rw [byteSize_cons c span, ← ih]
    cases find? ['*', '/'] rest <;> simp [Nat.add_assoc]

theorem blockEnd?_eq (front rest : List Char) :
    blockEnd? (front ++ '/' :: '*' :: rest) (byteSize front) =
      some (byteSize front + byteSize ('/' :: '*' :: (Lexeme.blockSpan rest).1)) := by
  have opening : byteSize ['/', '*'] = 2 := rfl
  have span : byteSize ('/' :: '*' :: (Lexeme.blockSpan rest).1) =
      2 + byteSize (Lexeme.blockSpan rest).1 := by
    rw [← opening, ← byteSize_append]
    rfl
  have whole : front ++ '/' :: '*' :: rest = front ++ ['/', '*'] ++ (rest ++ []) := by simp
  have behind := piece?_append (front ++ ['/', '*']) rest []
  rw [← whole, byteSize_append, byteSize_append, byteSize_append, opening] at behind
  have size : byteSize (front ++ '/' :: '*' :: rest) = byteSize front + 2 + byteSize rest := by
    rw [whole, List.append_nil, byteSize_append, byteSize_append, opening]
  have found := find?_blockSpan rest
  rw [blockEnd?, size, behind, span, ← found]
  cases closed : find? ['*', '/'] rest <;> simp [closed, Nat.add_assoc]

/-! ### Turns -/

/-- The token that a lexeme becomes at a byte, if it becomes one. -/
def tokenOf? (lexeme : Lexeme) (offset : ℕ) : Option Token :=
  if lexeme.isToken then some ⟨lexeme.kind, lexeme.text, offset⟩ else none

theorem and_any_next (h : Bytewise p) {d : Char} (narrow : d.toNat < 128) (front : List Char)
    (c : Char) (rest : List Char) :
    (decide (c = d) && (bytesOf (front ++ c :: rest))[byteSize front + 1]?.any fun byte =>
      p (byteChar byte)) = (decide (c = d) && rest.head?.any p) := by
  by_cases same : c = d
  · rw [any_next h (utf8Size_eq_one (same ▸ narrow))]
  · simp [same]

/-- The token from a byte on, if nothing is skipped there. -/
theorem tokenEnd?_eq {lineStart : Bool} {c : Char} {rest after : List Char} {lexeme : Lexeme}
    (cut : Lexeme.Cut lineStart c rest lexeme after) (isToken : lexeme.isToken = true)
    (front : List Char) {byte : UInt8} (inside : byte ∈ String.utf8EncodeChar c) :
    tokenEnd? (front ++ c :: rest) (byteSize front) (byteChar byte) =
      some (lexeme.kind, byteSize (front ++ lexeme.text)) := by
  have start := Bytewise.identifierStart c byte inside
  have digit := Bytewise.digit c byte inside
  have point : decide (byteChar byte = '.') = decide (c = '.') :=
    Bytewise.eq (by decide) c byte inside
  have size : byteSize (front ++ c :: rest) = byteSize front + c.utf8Size + byteSize rest := by
    rw [byteSize_append, byteSize_cons, Nat.add_assoc]
  unfold tokenEnd?
  simp only [start, digit, point, length_bytesOf,
    and_any_next (d := '.') Bytewise.digit (by decide)]
  cases cut with
  | identifier isStart =>
    have stop := advance?_identifier (c :: rest) front (byteSize (front ++ c :: rest) + 1)
      (by rw [byteSize_append]; omega)
    rw [List.takeWhile_cons, if_pos (isIdentifierPart_of_start isStart)] at stop
    rw [if_pos isStart, stop, byteSize_append]
    rfl
  | number isNumber =>
    have notStart : isIdentifierStart c = false ∧ c.utf8Size = 1 := by
      rcases isNumber with isDigit | ⟨rfl, _⟩
      · exact ⟨not_start_of_digit isDigit, utf8Size_eq_one (narrow_of_digit isDigit)⟩
      · decide
    have stop := advance?_number rest c (front ++ [c]) (by simp)
      (byteSize (front ++ c :: rest) + 1) (by omega)
    have behind : byteSize (front ++ [c]) = byteSize front + 1 := by simp [notStart.2]
    rw [← List.append_cons, behind] at stop
    have condition : (c.isDigit || (decide (c = '.') && rest.head?.any Char.isDigit)) = true := by
      simpa using isNumber
    rw [notStart.1, if_neg Bool.false_ne_true, condition, if_pos rfl, stop]
    simp [notStart.2, Nat.add_assoc]
  | mark notBlank notComment notDirective notPart notNumber =>
    have notStart : isIdentifierStart c = false := by
      rw [Bool.eq_false_iff]
      exact fun isStart => absurd (isIdentifierPart_of_start isStart) (by simp [notPart])
    have notDigit : c.isDigit = false := by
      rw [Bool.eq_false_iff]
      exact fun isDigit => absurd (isIdentifierPart_of_digit isDigit) (by simp [notPart])
    have stop := advance?_mark front c rest (byteSize (front ++ c :: rest) + 1) (by omega)
    have condition : (decide (c = '.') && rest.head?.any Char.isDigit) = false := by
      simpa using notNumber
    rw [notStart, if_neg Bool.false_ne_true, notDigit, condition, Bool.or_self,
      if_neg Bool.false_ne_true, stop]
    simp
  | _ => cases isToken

theorem of_isToken {lineStart : Bool} {c : Char} {rest after : List Char} {lexeme : Lexeme}
    (cut : Lexeme.Cut lineStart c rest lexeme after) (isToken : lexeme.isToken = true) :
    isPlainBlank c = false ∧ ¬ (c = '/' ∧ (rest.head? = some '/' ∨ rest.head? = some '*')) ∧
      ¬ (c = '#' ∧ lineStart = true) := by
  have of_part (part : isIdentifierPart c = true) : isPlainBlank c = false ∧
      ¬ (c = '/' ∧ (rest.head? = some '/' ∨ rest.head? = some '*')) ∧
      ¬ (c = '#' ∧ lineStart = true) := by
    obtain ⟨blank, slash, _, hash, _⟩ := ne_of_part part
    exact ⟨blank, fun comment => slash comment.1, fun directive => hash directive.1⟩
  cases cut with
  | identifier isStart => exact of_part (isIdentifierPart_of_start isStart)
  | number isNumber =>
    rcases isNumber with isDigit | ⟨rfl, _⟩
    · exact of_part (isIdentifierPart_of_digit isDigit)
    · simp [isPlainBlank]
  | mark notBlank notComment notDirective => exact ⟨notBlank, notComment, notDirective⟩
  | _ => cases isToken

/-- Comments and preprocessor lines leave it as it is whether another one may begin. -/
theorem lineStartAfter_skipped {lexeme : Lexeme} (skipped : ¬ lexeme.isToken = true)
    (notLine : lexeme.text ≠ ['\n']) (lineStart : Bool) :
    lexeme.lineStartAfter lineStart = lineStart := by
  rw [Lexeme.lineStartAfter, if_neg skipped, decide_eq_false notLine, Bool.or_false]

/-- What a turn does is told by a character and the one behind it. -/
theorem turn?_char (front : List Char) (c : Char) (rest : List Char) (lineStart : Bool) :
    let source := front ++ c :: rest
    let i := byteSize front
    ∃ byte ∈ String.utf8EncodeChar c, turn? source lineStart i =
      if c = '\n' then some ⟨none, i + 1, true⟩
      else if isPlainBlank c then some ⟨none, i + 1, lineStart⟩
      else if c = '/' ∧ rest.head? = some '/' then do
        return ⟨none, ← lineEnd? (bytesOf source) i, lineStart⟩
      else if c = '/' ∧ rest.head? = some '*' then do
        return ⟨none, ← blockEnd? source i, lineStart⟩
      else if c = '#' && lineStart then do
        return ⟨none, ← directiveEnd? (bytesOf source) (byteSize source + 1) i, lineStart⟩
      else do
        let (kind, stop) ← tokenEnd? source i (byteChar byte)
        return ⟨some ⟨kind, ← piece? source i stop, i⟩, stop, false⟩ := by
  intro source i
  obtain ⟨byte, inside, here⟩ := exists_byte front c rest
  have blank := Bytewise.plainBlank c byte inside
  have mark {d : Char} (narrow : d.toNat < 128) : byteChar byte = d ↔ c = d := by
    simpa using Bytewise.eq narrow c byte inside
  have comment {d : Char} (narrow : d.toNat < 128) :
      (decide (c = '/') && (bytesOf source)[i + 1]?.any fun byte => decide (byteChar byte = d)) =
        decide (c = '/' ∧ rest.head? = some d) := by
    rw [and_any_next (Bytewise.eq narrow) (by decide), Bool.decide_and]
    cases rest.head? <;> simp
  refine ⟨byte, inside, ?_⟩
  unfold turn?
  simp only [source, i] at comment ⊢
  simp only [here, Option.bind_eq_bind, Option.bind_some, blank, mark (d := '\n') (by decide),
    mark (d := '/') (by decide), mark (d := '#') (by decide), comment (d := '/') (by decide),
    comment (d := '*') (by decide), decide_eq_true_eq, length_bytesOf]
  rfl

theorem turn?_token {lineStart : Bool} {c : Char} {rest after : List Char} {lexeme : Lexeme}
    (cut : Lexeme.Cut lineStart c rest lexeme after) (isToken : lexeme.isToken = true)
    (front : List Char) :
    turn? (front ++ c :: rest) lineStart (byteSize front) =
      some ⟨some ⟨lexeme.kind, lexeme.text, byteSize front⟩, byteSize (front ++ lexeme.text),
        false⟩ := by
  obtain ⟨notBlank, notComment, notDirective⟩ := of_isToken cut isToken
  obtain ⟨byte, inside, same⟩ := turn?_char front c rest lineStart
  have newLine : c ≠ '\n' := by
    rintro rfl
    cases notBlank
  have text := piece?_append front lexeme.text after
  rw [cut.append] at text
  rw [same, if_neg newLine, if_neg (by simp [notBlank]), if_neg fun h => notComment ⟨h.1, .inl h.2⟩,
    if_neg fun h => notComment ⟨h.1, .inr h.2⟩, if_neg (by simpa using notDirective),
    tokenEnd?_eq cut isToken front inside]
  simp only [Option.bind_eq_bind, Option.bind_some, text]
  rfl

theorem turn?_skipped {lineStart : Bool} {c : Char} {rest after : List Char} {lexeme : Lexeme}
    (cut : Lexeme.Cut lineStart c rest lexeme after) (isSkipped : ¬ lexeme.isToken = true)
    (front : List Char) :
    turn? (front ++ c :: rest) lineStart (byteSize front) =
      some ⟨none, byteSize (front ++ lexeme.text), lexeme.lineStartAfter lineStart⟩ := by
  obtain ⟨byte, inside, same⟩ := turn?_char front c rest lineStart
  have keeps (notLine : lexeme.text ≠ ['\n']) := lineStartAfter_skipped isSkipped notLine lineStart
  rw [same]
  cases cut with
  | blank isBlank =>
    have size : byteSize (front ++ [c]) = byteSize front + 1 := by
      simp [utf8Size_eq_one (narrow_of_blank isBlank)]
    by_cases newLine : c = '\n'
    · rw [if_pos newLine, size]
      simp [Lexeme.lineStartAfter, Lexeme.isToken, newLine]
    · rw [if_neg newLine, if_pos isBlank, size, keeps (by simpa using newLine)]
  | lineComment head =>
    rw [if_neg (by decide), if_neg (by decide), if_pos ⟨rfl, head⟩,
      lineEnd?_cons front (by decide), keeps (by simp)]
    rfl
  | blockComment =>
    rw [if_neg (by decide), if_neg (by decide), if_neg (by simp), if_pos ⟨rfl, rfl⟩, blockEnd?_eq,
      keeps (by simp), byteSize_append]
    rfl
  | directive fresh =>
    have stop := directiveEnd?_eq rest '#' front ['#'] (by simp) (by simp)
      (byteSize (front ++ '#' :: rest) + 1) (by simp; omega)
    rw [List.singleton_append] at stop
    rw [if_neg (by decide), if_neg (by decide), if_neg (by simp), if_neg (by simp),
      if_pos (by simpa using fresh), stop, keeps (by simp)]
    simp [Nat.add_assoc]
  | _ => exact absurd rfl isSkipped

/-- **One turn of the scanner is one lexeme.** -/
theorem turn?_eq {lineStart : Bool} {c : Char} {rest after : List Char} {lexeme : Lexeme}
    (cut : Lexeme.Cut lineStart c rest lexeme after) (front : List Char) :
    turn? (front ++ c :: rest) lineStart (byteSize front) =
      some ⟨tokenOf? lexeme (byteSize front), byteSize (front ++ lexeme.text),
        lexeme.lineStartAfter lineStart⟩ := by
  by_cases isToken : lexeme.isToken = true
  · rw [turn?_token cut isToken, tokenOf?, if_pos isToken, Lexeme.lineStartAfter, if_pos isToken]
  · rw [turn?_skipped cut isToken, tokenOf?, if_neg isToken]

/-! ### All turns -/

theorem ofLexemes_cons (offset : ℕ) (lexeme : Lexeme) (lexemes : List Lexeme) :
    Token.ofLexemes offset (lexeme :: lexemes) =
      (tokenOf? lexeme offset).toList ++
        Token.ofLexemes (offset + byteSize lexeme.text) lexemes := by
  rw [Token.ofLexemes, tokenOf?]
  split <;> rfl

theorem scanFrom?_eq {lineStart : Bool} {text : List Char} {lexemes : List Lexeme}
    (lexes : Lexeme.Lexes lineStart text lexemes) (front : List Char) {turns : ℕ}
    (enough : byteSize text < turns) :
    scanFrom? (front ++ text) turns lineStart (byteSize front) =
      some (Token.ofLexemes (byteSize front) lexemes) := by
  obtain ⟨turns, rfl⟩ := Nat.exists_eq_succ_of_ne_zero (by omega : turns ≠ 0)
  induction lexes generalizing front turns with
  | nil =>
    rw [scanFrom?, if_neg (by simp)]
    rfl
  | @cons lineStart c rest after lexeme lexemes cut others ih =>
    have shorter : byteSize after < byteSize (c :: rest) := by
      rw [← cut.append, byteSize_append]
      have nonempty := mt byteSize_eq_zero_iff.mp cut.ne_nil
      omega
    obtain ⟨turns, rfl⟩ := Nat.exists_eq_succ_of_ne_zero (by omega : turns ≠ 0)
    have later := ih (front ++ lexeme.text) turns (by omega)
    rw [List.append_assoc, cut.append] at later
    rw [scanFrom?, if_pos (by rw [length_bytesOf]; exact inside_text front c rest), turn?_eq cut]
    simp only [Option.bind_eq_bind, Option.bind_some, later]
    rw [ofLexemes_cons, ← byteSize_append]
    rfl

/-- **The scanner comes to its end on every source**, with the tokens of its lexemes. -/
theorem scan?_eq (source : List Char) : scan? source = some (Token.ofSource source) :=
  scanFrom?_eq (Lexeme.lex_lexes source) [] (Nat.lt_succ_self _)

end Scanner
end Collage
