import Collage.Proofs.Shader.Occurrences
import Collage.Proofs.Text.Bytes

/-!
# A search by bytes

A name may be sought in the bytes of a source: it stands wherever they spell it and the bytes on
either side are no parts of identifiers.  `occurrences` sees characters, goes on behind what it has
found, and asks for the sides only afterwards.  Still it finds all of these places, each once and in
their order (`occurrences_complete`), as nothing else that is spelled overlaps with them
(`apart_of_spelled`).
-/

namespace Collage

/-- The bytes of letters, digits and underscores. -/
def isIdentifierByte (byte : UInt8) : Bool :=
  isIdentifierPart (byteChar byte)

/-- The bytes of a text at a place spell a name. -/
def Spelled (source name : List Char) (place : ℕ) : Prop :=
  bytesOf name <+: (bytesOf source).drop place

variable {source name : List Char} {place : ℕ}

/-! ### The order of places -/

theorem le_of_mem_occurrencesFrom (name text : List Char) {previous : Option Char}
    {offset skip : ℕ} :
    ∀ place ∈ occurrencesFrom name previous offset skip text, offset ≤ place := by
  induction text generalizing previous offset skip with
  | nil => intro place none; cases none
  | cons c rest ih =>
    intro place inside
    have later {skip : ℕ} (inside : place ∈ occurrencesFrom name (some c) (offset + c.utf8Size) skip
        rest) : offset ≤ place :=
      (Nat.le_add_right _ _).trans (ih place inside)
    unfold occurrencesFrom at inside
    dsimp only at inside
    split at inside
    · exact later inside
    · split at inside
      · split at inside
        · rcases List.mem_cons.mp inside with rfl | inside
          · exact le_rfl
          · exact later inside
        · exact later inside
      · exact later inside

theorem pairwise_occurrencesFrom (name text : List Char) {previous : Option Char}
    {offset skip : ℕ} : (occurrencesFrom name previous offset skip text).Pairwise (· < ·) := by
  induction text generalizing previous offset skip with
  | nil => exact .nil
  | cons c rest ih =>
    unfold occurrencesFrom
    dsimp only
    split
    · exact ih
    · split
      · split
        · refine .cons (fun place inside => ?_) ih
          have positive := c.utf8Size_pos
          have behind := le_of_mem_occurrencesFrom name rest place inside
          omega
        · exact ih
      · exact ih

theorem pairwise_occurrences (source name : List Char) :
    (occurrences source name).Pairwise (· < ·) := by
  unfold occurrences
  split
  · exact .nil
  · exact pairwise_occurrencesFrom name source

/-! ### Places by their bytes -/

theorem sides_iff (front back : List Char) :
    (((bytesOf (front ++ (name ++ back))).take (byteSize front)).getLast?.any isIdentifierByte =
        false ∧
      ((bytesOf (front ++ (name ++ back))).drop
        (byteSize front + byteSize name)).head?.any isIdentifierByte = false) ↔
      front.getLast?.any isIdentifierPart = false ∧
        back.head?.any isIdentifierPart = false := by
  rw [take_bytesOf, ← byteSize_append, ← List.append_assoc, drop_bytesOf]
  have last := any_getLast?_bytesOf Bytewise.identifierPart front
  have first := any_head?_bytesOf Bytewise.identifierPart back
  unfold isIdentifierByte
  rw [last, first]

theorem part_of_spelled (parts : ∀ c ∈ name, isIdentifierPart c = true)
    (spelled : Spelled source name place) (index : ℕ)
    (inside : index ∈ Set.Ico place (place + byteSize name)) :
    (bytesOf source)[index]?.any isIdentifierByte = true := by
  obtain ⟨more, same⟩ := spelled
  obtain ⟨before, behind⟩ := inside
  have small : index - place < (bytesOf name).length := by
    rw [length_bytesOf]
    omega
  have here : (bytesOf source)[index]? = (bytesOf name)[index - place]? := by
    rw [← Nat.add_sub_of_le before, ← List.getElem?_drop, ← same, List.getElem?_append_left small,
      Nat.add_sub_cancel_left]
  rw [here, List.getElem?_eq_getElem small]
  obtain ⟨c, among, byte⟩ := List.mem_flatMap.mp (List.getElem_mem small)
  exact (Bytewise.identifierPart c _ byte).trans (parts c among)

/-- **A spelled name does not overlap with one that has free sides**, as there would be a part of
the former beside the latter. -/
theorem apart_of_spelled (parts : ∀ c ∈ name, isIdentifierPart c = true) {other : ℕ}
    (spelled : Spelled source name other)
    (before : ((bytesOf source).take place).getLast?.any isIdentifierByte = false)
    (behind : ((bytesOf source).drop (place + byteSize name)).head?.any isIdentifierByte = false)
    (distinct : other ≠ place) : other + byteSize name ≤ place ∨ place + byteSize name ≤ other := by
  by_contra overlap
  rcases Nat.lt_or_gt_of_ne distinct with first | second
  · have part := part_of_spelled parts spelled (place - 1) ⟨by omega, by omega⟩
    obtain ⟨byte, here, _⟩ := (Option.any_eq_true ..).mp part
    obtain ⟨inside, _⟩ := List.getElem?_eq_some_iff.mp here
    have last : ((bytesOf source).take place).getLast? = (bytesOf source)[place - 1]? := by
      rw [List.getLast?_eq_getElem?, List.length_take_of_le (by omega),
        List.getElem?_take_of_lt (by omega)]
    rw [last, part] at before
    cases before
  · have part := part_of_spelled parts spelled (place + byteSize name)
      ⟨by omega, by omega⟩
    rw [List.head?_drop, part] at behind
    cases behind

/-- **The search is complete.**  It gives the places at which the bytes of the source spell the name
and no part of an identifier stands right before or right behind, and gives them in their order.  No
other place at which the name is spelled overlaps with one of these. -/
theorem occurrences_complete (source : List Char) (nonempty : name ≠ [])
    (parts : ∀ c ∈ name, isIdentifierPart c = true) :
    (occurrences source name).Pairwise (· < ·) ∧
    (∀ place, place ∈ occurrences source name ↔ Spelled source name place ∧
      ((bytesOf source).take place).getLast?.any isIdentifierByte = false ∧
      ((bytesOf source).drop (place + byteSize name)).head?.any isIdentifierByte = false) ∧
    ∀ place ∈ occurrences source name, ∀ other, Spelled source name other → other ≠ place →
      other + byteSize name ≤ place ∨ place + byteSize name ≤ other := by
  have narrow : ∀ c ∈ name, c.toNat < 128 := fun c inside => narrow_of_part (parts c inside)
  have places (place : ℕ) : place ∈ occurrences source name ↔ Spelled source name place ∧
      ((bytesOf source).take place).getLast?.any isIdentifierByte = false ∧
      ((bytesOf source).drop (place + byteSize name)).head?.any isIdentifierByte = false := by
    rw [mem_occurrences_of_parts parts nonempty, Spelled, spelled_iff nonempty narrow]
    constructor
    · rintro ⟨front, back, rfl, rfl, sides⟩
      exact ⟨⟨front, back, rfl, rfl⟩, (sides_iff front back).mpr sides⟩
    · rintro ⟨⟨front, back, rfl, rfl⟩, sides⟩
      exact ⟨front, back, rfl, rfl, (sides_iff front back).mp sides⟩
  refine ⟨pairwise_occurrences source name, places, fun place found other spelled distinct => ?_⟩
  obtain ⟨_, before, behind⟩ := (places place).mp found
  exact apart_of_spelled parts spelled before behind distinct

/-- A name that overlaps with itself, where letters and a character of two bytes stand beside it. -/
theorem occurrences_complete_overlapping :
    "aa".toList ≠ [] ∧ (∀ c ∈ "aa".toList, isIdentifierPart c = true) ∧
    occurrences "aaa éaa aaaa.aa".toList "aa".toList = [6, 14] ∧
    ∀ place, place ∈ [6, 14] ↔ Spelled "aaa éaa aaaa.aa".toList "aa".toList place ∧
      ((bytesOf "aaa éaa aaaa.aa".toList).take place).getLast?.any isIdentifierByte = false ∧
      ((bytesOf "aaa éaa aaaa.aa".toList).drop (place + byteSize "aa".toList)).head?.any
        isIdentifierByte = false := by
  have nonempty : "aa".toList ≠ [] := by decide
  have parts : ∀ c ∈ "aa".toList, isIdentifierPart c = true :=
    List.all_eq_true.mp rfl
  have found : occurrences "aaa éaa aaaa.aa".toList "aa".toList = [6, 14] := by
    cbv
  refine ⟨nonempty, parts, found, ?_⟩
  rw [← found]
  exact (occurrences_complete "aaa éaa aaaa.aa".toList nonempty parts).2.1

end Collage
