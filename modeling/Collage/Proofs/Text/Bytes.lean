import Collage.Proofs.Document.Shorthand

/-!
# Texts as bytes

A place in a text is a byte offset, and a text can be read byte by byte.  A byte below 128 stands
for the character of that number and for no part of another one.  Therefore a sort of characters
below 128 is told by any byte of a character (`Bytewise`), and a name of such characters is spelled
by the bytes of a text exactly where it stands among its characters (`spelled_iff`).

`piece?` cuts a piece out of a text between two bytes and gives nothing where this would cut a
character, or where the text ends before.
-/

open Collage.Gradient (cut? cut?_eq_some_iff slice? slice?_eq_some_iff)

namespace Collage

/-- The bytes of a text in UTF-8. -/
def bytesOf (text : List Char) : List UInt8 :=
  text.flatMap String.utf8EncodeChar

/-- The character of one byte. -/
def byteChar (byte : UInt8) : Char :=
  Char.ofNat byte.toNat

@[simp] theorem bytesOf_nil : bytesOf [] = [] := rfl

@[simp] theorem bytesOf_cons (c : Char) (text : List Char) :
    bytesOf (c :: text) = String.utf8EncodeChar c ++ bytesOf text :=
  List.flatMap_cons

@[simp] theorem bytesOf_append (front back : List Char) :
    bytesOf (front ++ back) = bytesOf front ++ bytesOf back :=
  List.flatMap_append

@[simp] theorem length_bytesOf (text : List Char) : (bytesOf text).length = byteSize text := by
  induction text with
  | nil => rfl
  | cons c rest ih =>
    rw [bytesOf_cons, List.length_append, String.length_utf8EncodeChar, ih, byteSize_cons]

/-! ### Single bytes -/

theorem utf8Size_eq_one {c : Char} (narrow : c.toNat < 128) : c.utf8Size = 1 := by
  rw [Char.utf8Size_eq_one_iff, UInt32.le_iff_toNat_le]
  exact Nat.le_of_lt_succ narrow

theorem toNat_byteChar (byte : UInt8) : (byteChar byte).toNat = byte.toNat := by
  have small := byte.toNat_lt
  have valid : byte.toNat.isValidChar := .inl (by omega)
  rw [byteChar, Char.toNat_ofNat, if_pos valid]

theorem encode_narrow {c : Char} (narrow : c.toNat < 128) :
    ∃ byte, String.utf8EncodeChar c = [byte] ∧ byteChar byte = c := by
  have value : c.toNat = c.val.toNat := rfl
  refine ⟨_, String.utf8EncodeChar_eq_singleton (utf8Size_eq_one narrow), ?_⟩
  rw [byteChar, UInt32.toNat_toUInt8, Nat.mod_eq_of_lt (by omega), ← value, Char.ofNat_toNat]

/-- All bytes of another character are at least 128. -/
theorem encode_wide {c : Char} (wide : 128 ≤ c.toNat) :
    ∀ byte ∈ String.utf8EncodeChar c, 128 ≤ byte.toNat := by
  intro byte inside
  have value : c.toNat = c.val.toNat := rfl
  unfold String.utf8EncodeChar at inside
  simp only at inside
  split at inside
  · omega
  · split at inside
    · simp only [List.mem_cons, List.not_mem_nil, or_false] at inside
      rcases inside with rfl | rfl <;> rw [UInt8.toNat_ofNat'] <;> omega
    · split at inside
      all_goals simp only [List.mem_cons, List.not_mem_nil, or_false] at inside
      · rcases inside with rfl | rfl | rfl <;> rw [UInt8.toNat_ofNat'] <;> omega
      · rcases inside with rfl | rfl | rfl | rfl <;> rw [UInt8.toNat_ofNat'] <;> omega

theorem eq_of_mem_encode {c : Char} {byte : UInt8} (inside : byte ∈ String.utf8EncodeChar c)
    (low : byte.toNat < 128) : byteChar byte = c ∧ String.utf8EncodeChar c = [byte] := by
  have narrow : c.toNat < 128 := by
    by_contra wide
    exact absurd (encode_wide (Nat.not_lt.mp wide) byte inside) (Nat.not_le.mpr low)
  obtain ⟨only, same, char⟩ := encode_narrow narrow
  rw [same, List.mem_singleton] at inside
  exact ⟨inside ▸ char, inside ▸ same⟩

theorem narrow_of_digit {c : Char} (digit : c.isDigit = true) : c.toNat < 128 := by
  simp only [Char.isDigit, Bool.and_eq_true, decide_eq_true_eq, UInt32.le_iff_toNat_le] at digit
  have bounds : c.toNat ≤ 57 := digit.2
  omega

theorem narrow_of_alpha {c : Char} (alpha : c.isAlpha = true) : c.toNat < 128 := by
  simp only [Char.isAlpha, Char.isUpper, Char.isLower, Bool.or_eq_true, Bool.and_eq_true,
    decide_eq_true_eq, UInt32.le_iff_toNat_le] at alpha
  rcases alpha with capital | small
  · have bounds : c.toNat ≤ 90 := capital.2
    omega
  · have bounds : c.toNat ≤ 122 := small.2
    omega

theorem narrow_of_blank {c : Char} (blank : isPlainBlank c = true) : c.toNat < 128 := by
  simp only [isPlainBlank, Bool.or_eq_true, decide_eq_true_eq] at blank
  rcases blank with (((rfl | rfl) | rfl) | rfl) | rfl <;> decide

theorem narrow_of_part {c : Char} (part : isIdentifierPart c = true) : c.toNat < 128 := by
  simp only [isIdentifierPart, Char.isAlphanum, Bool.or_eq_true, decide_eq_true_eq] at part
  rcases part with (alpha | digit) | rfl
  · exact narrow_of_alpha alpha
  · exact narrow_of_digit digit
  · decide

/-! ### Sorts of characters -/

/-- What is told of a character by any of its bytes. -/
def Bytewise (p : Char → Bool) : Prop :=
  ∀ c, ∀ byte ∈ String.utf8EncodeChar c, p (byteChar byte) = p c

namespace Bytewise

variable {p : Char → Bool}

theorem of_narrow (narrow : ∀ c, p c = true → c.toNat < 128) : Bytewise p := by
  intro c byte inside
  rcases Nat.lt_or_ge byte.toNat 128 with low | high
  · rw [(eq_of_mem_encode inside low).1]
  · have none {d : Char} (wide : 128 ≤ d.toNat) : p d = false := by
      rw [Bool.eq_false_iff]
      exact fun yes => absurd (narrow d yes) (Nat.not_lt.mpr wide)
    have wide : 128 ≤ c.toNat := by
      by_contra narrow
      obtain ⟨only, same, char⟩ := encode_narrow (Nat.not_le.mp narrow)
      rw [same, List.mem_singleton] at inside
      rw [inside, ← toNat_byteChar, char] at high
      exact narrow high
    rw [none wide, none (by rwa [toNat_byteChar])]

theorem not (h : Bytewise p) : Bytewise fun c => !p c :=
  fun c byte inside => congrArg (!·) (h c byte inside)

theorem or {q : Char → Bool} (h : Bytewise p) (h' : Bytewise q) : Bytewise fun c => p c || q c :=
  fun c byte inside => congrArg₂ (· || ·) (h c byte inside) (h' c byte inside)

theorem eq {d : Char} (narrow : d.toNat < 128) : Bytewise fun c => decide (c = d) :=
  of_narrow fun _ same => (of_decide_eq_true same) ▸ narrow

theorem ne {d : Char} (narrow : d.toNat < 128) : Bytewise fun c => decide (c ≠ d) := by
  simpa only [ne_eq, decide_not] using (eq narrow).not

theorem digit : Bytewise Char.isDigit :=
  of_narrow fun _ => narrow_of_digit

theorem alpha : Bytewise Char.isAlpha :=
  of_narrow fun _ => narrow_of_alpha

theorem alphanum : Bytewise Char.isAlphanum :=
  alpha.or digit

theorem identifierStart : Bytewise isIdentifierStart :=
  alpha.or (eq (by decide))

theorem identifierPart : Bytewise isIdentifierPart :=
  alphanum.or (eq (by decide))

theorem plainBlank : Bytewise isPlainBlank :=
  of_narrow fun _ => narrow_of_blank

end Bytewise

/-! ### Bytes at a place -/

variable {p : Char → Bool}

theorem any_head?_bytesOf (h : Bytewise p) (text : List Char) :
    ((bytesOf text).head?.any fun byte => p (byteChar byte)) = text.head?.any p := by
  cases text with
  | nil => rfl
  | cons c rest =>
    obtain ⟨byte, more, same⟩ := List.exists_cons_of_ne_nil (String.utf8EncodeChar_ne_nil (c := c))
    have inside : byte ∈ String.utf8EncodeChar c := by simp [same]
    rw [bytesOf_cons, same]
    exact h c byte inside

theorem any_getLast?_bytesOf (h : Bytewise p) (text : List Char) :
    ((bytesOf text).getLast?.any fun byte => p (byteChar byte)) = text.getLast?.any p := by
  rcases List.eq_nil_or_concat text with rfl | ⟨front, c, rfl⟩
  · rfl
  · have nonempty := String.utf8EncodeChar_ne_nil (c := c)
    have same := h c _ (List.getLast_mem nonempty)
    rw [List.concat_eq_append, bytesOf_append, bytesOf_cons, bytesOf_nil, List.append_nil,
      List.getLast?_append_of_ne_nil _ nonempty, List.getLast?_eq_some_getLast nonempty,
      List.getLast?_concat]
    exact same

/-- A span of characters of a sort is the span of their bytes. -/
theorem takeWhile_bytesOf (h : Bytewise p) (text : List Char) :
    (bytesOf text).takeWhile (fun byte => p (byteChar byte)) = bytesOf (text.takeWhile p) := by
  induction text with
  | nil => rfl
  | cons c rest ih =>
    rw [bytesOf_cons, List.takeWhile_cons]
    cases go : p c with
    | true =>
      have all : ∀ byte ∈ String.utf8EncodeChar c, p (byteChar byte) = true := by
        intro byte inside
        rw [h c byte inside, go]
      rw [List.takeWhile_append_of_pos all, ih, if_pos rfl, bytesOf_cons]
    | false =>
      obtain ⟨byte, more, same⟩ :=
        List.exists_cons_of_ne_nil (String.utf8EncodeChar_ne_nil (c := c))
      have stop : p (byteChar byte) = false := (h c byte (by simp [same])).trans go
      simp [same, stop]

theorem drop_bytesOf (front back : List Char) :
    (bytesOf (front ++ back)).drop (byteSize front) = bytesOf back := by
  rw [bytesOf_append, ← length_bytesOf, List.drop_left]

theorem take_bytesOf (front back : List Char) :
    (bytesOf (front ++ back)).take (byteSize front) = bytesOf front := by
  rw [bytesOf_append, ← length_bytesOf, List.take_left]

theorem getElem?_bytesOf (front back : List Char) (index : ℕ) :
    (bytesOf (front ++ back))[byteSize front + index]? = (bytesOf back)[index]? := by
  rw [← List.getElem?_drop, drop_bytesOf]

/-! ### Places of characters -/

/-- A character begins at a byte, or the text ends there. -/
def IsPlace (text : List Char) (place : ℕ) : Prop :=
  ∃ front back, text = front ++ back ∧ byteSize front = place

/-- Whether a character begins at a byte or the text ends there. -/
def isPlace (text : List Char) (place : ℕ) : Bool :=
  (cut? place text).isSome

theorem isPlace_iff {text : List Char} {place : ℕ} :
    isPlace text place = true ↔ IsPlace text place := by
  rw [isPlace, Option.isSome_iff_exists]
  constructor
  · rintro ⟨⟨front, back⟩, cut⟩
    exact ⟨front, back, cut?_eq_some_iff.mp cut⟩
  · rintro ⟨front, back, cut⟩
    exact ⟨(front, back), cut?_eq_some_iff.mpr cut⟩

instance (text : List Char) (place : ℕ) : Decidable (IsPlace text place) :=
  decidable_of_iff _ isPlace_iff

theorem IsPlace.behind {front text : List Char} {place : ℕ} (h : IsPlace (front ++ text) place)
    (later : byteSize front ≤ place) :
    ∃ middle back, text = middle ++ back ∧ byteSize (front ++ middle) = place := by
  obtain ⟨front', back, whole, rfl⟩ := h
  rcases List.append_eq_append_iff.mp whole with ⟨middle, rfl, rfl⟩ | ⟨between, rfl, rfl⟩
  · exact ⟨middle, back, rfl, rfl⟩
  · rw [byteSize_append] at later
    obtain rfl := byteSize_eq_zero_iff.mp (by omega : byteSize between = 0)
    exact ⟨[], text, rfl, by simp⟩

/-- A byte below 128 is at the place of a character. -/
theorem isPlace_of_low {text : List Char} {place : ℕ} {byte : UInt8}
    (here : (bytesOf text)[place]? = some byte) (low : byte.toNat < 128) : IsPlace text place := by
  induction text generalizing place with
  | nil => cases here
  | cons c rest ih =>
    rw [bytesOf_cons] at here
    rcases Nat.lt_or_ge place (String.utf8EncodeChar c).length with first | later
    · rw [List.getElem?_append_left first] at here
      have alone := (eq_of_mem_encode (List.mem_of_getElem? here) low).2
      rw [alone, List.length_singleton] at first
      exact ⟨[], c :: rest, rfl, by rw [byteSize_nil]; omega⟩
    · rw [List.getElem?_append_right later] at here
      obtain ⟨front, back, rfl, size⟩ := ih here
      rw [String.length_utf8EncodeChar] at later size
      exact ⟨c :: front, back, rfl, by rw [byteSize_cons]; omega⟩

/-- The bytes of a name begin a text only where its characters do. -/
theorem prefix_of_bytesOf {name text : List Char} (narrow : ∀ c ∈ name, c.toNat < 128)
    (spelled : bytesOf name <+: bytesOf text) : name <+: text := by
  induction name generalizing text with
  | nil => exact List.nil_prefix
  | cons c name ih =>
    obtain ⟨byte, only, char⟩ := encode_narrow (narrow c List.mem_cons_self)
    rw [bytesOf_cons, only, List.singleton_append] at spelled
    cases text with
    | nil => exact absurd (List.prefix_nil.mp spelled) (by simp)
    | cons d rest =>
      obtain ⟨byte', more, same⟩ :=
        List.exists_cons_of_ne_nil (String.utf8EncodeChar_ne_nil (c := d))
      rw [bytesOf_cons, same, List.cons_append, List.cons_prefix_cons] at spelled
      obtain ⟨rfl, spelled⟩ := spelled
      have low : byte.toNat < 128 := by
        rw [← toNat_byteChar, char]
        exact narrow c List.mem_cons_self
      obtain ⟨rfl, alone⟩ := eq_of_mem_encode (c := d) (by simp [same]) low
      obtain rfl : more = [] := (List.cons.inj (same.symm.trans alone)).2
      rw [← char]
      exact (List.prefix_cons_inj _).mpr (ih (fun e inside => narrow e (by simp [inside])) spelled)

/-- **A name is spelled where it stands.** -/
theorem spelled_iff {name text : List Char} (nonempty : name ≠ [])
    (narrow : ∀ c ∈ name, c.toNat < 128) {place : ℕ} :
    bytesOf name <+: (bytesOf text).drop place ↔
      ∃ front back, text = front ++ (name ++ back) ∧ byteSize front = place := by
  constructor
  · intro spelled
    obtain ⟨c, others, rfl⟩ := List.exists_cons_of_ne_nil nonempty
    obtain ⟨byte, only, char⟩ := encode_narrow (narrow c List.mem_cons_self)
    have here : (bytesOf text)[place]? = some byte := by
      obtain ⟨more, same⟩ := spelled
      rw [← Nat.add_zero place, ← List.getElem?_drop, ← same, bytesOf_cons, only]
      rfl
    have low : byte.toNat < 128 := by
      rw [← toNat_byteChar, char]
      exact narrow c List.mem_cons_self
    obtain ⟨front, rest, rfl, rfl⟩ := isPlace_of_low here low
    rw [drop_bytesOf] at spelled
    obtain ⟨back, rfl⟩ := prefix_of_bytesOf narrow spelled
    exact ⟨front, back, rfl, rfl⟩
  · rintro ⟨front, back, rfl, rfl⟩
    rw [drop_bytesOf, bytesOf_append]
    exact List.prefix_append _ _

/-! ### Pieces -/

/-- The piece of a text between two bytes. -/
def piece? (text : List Char) (start stop : ℕ) : Option (List Char) :=
  if start ≤ stop then slice? text start (stop - start) else none

/-- **A piece is whole characters of the text.** -/
theorem piece?_eq_some_iff {text middle : List Char} {start stop : ℕ} :
    piece? text start stop = some middle ↔ ∃ front back, text = front ++ (middle ++ back) ∧
      byteSize front = start ∧ byteSize (front ++ middle) = stop := by
  unfold piece?
  constructor
  · intro found
    split at found
    · next ordered =>
      obtain ⟨front, back, rfl, rfl, size⟩ := slice?_eq_some_iff.mp found
      refine ⟨front, back, rfl, rfl, ?_⟩
      rw [byteSize_append]
      omega
    · cases found
  · rintro ⟨front, back, rfl, rfl, rfl⟩
    rw [byteSize_append, if_pos (Nat.le_add_right _ _)]
    exact slice?_eq_some_iff.mpr ⟨front, back, rfl, rfl, by omega⟩

theorem piece?_append (front middle back : List Char) :
    piece? (front ++ (middle ++ back)) (byteSize front) (byteSize (front ++ middle)) =
      some middle :=
  piece?_eq_some_iff.mpr ⟨front, back, rfl, rfl, rfl⟩

end Collage
