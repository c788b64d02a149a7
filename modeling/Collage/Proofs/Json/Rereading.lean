import Collage.Document.Form
import Collage.Proofs.Json.ReadAs
import Collage.Proofs.Json.Scalars

/-!
# Reading what was written

The text of a value over several lines is read as the value (`Json.rereads`), when
the numbers in it come back from their own texts (`Json.Legible`), whole numbers fit 64 bits
(`Json.Whole`) and it is not nested deeper than the reader goes.  The induction is on the
value.  What stands behind a part of it is a comma or a line feed, and the text of a part is
long enough for the steps that reading it takes.
-/

namespace Collage.Json

/-- The number with a point or an exponent that a whole text stands for. -/
def doubleFront? (text : String) : Option Float :=
  match readFront 0 text.toList with
  | .ok (.double x, []) => some x
  | _ => none

theorem doubleFront?_eq_some_iff {text : String} {x : Float} :
    doubleFront? text = some x ↔ readFront 0 text.toList = .ok (.double x, []) := by
  unfold doubleFront?
  split <;> simp_all

end Collage.Json

open Collage in
/-- Whether a double is finite and its text is read as it. -/
def Float.Legible (x : Float) : Prop :=
  ∃ text, x.decimalText? = some text ∧
    Json.readFront 0 text.toList = .ok (.double x, [])

open Collage in
/-- Whether a single-precision number is finite and its text is read as a double that rounds
to it. -/
def Float32.Legible (x : Float32) : Prop :=
  ∃ text y, x.decimalText? = some text ∧
    Json.readFront 0 text.toList = .ok (.double y, []) ∧ y.narrow = x

open Collage in
instance (x : Float) : Decidable x.Legible :=
  decidable_of_iff (x.decimalText?.bind Json.doubleFront? = some x) <| by
    simp only [Option.bind_eq_some_iff, Json.doubleFront?_eq_some_iff, Float.Legible]

open Collage in
instance (x : Float32) : Decidable x.Legible :=
  decidable_of_iff ((x.decimalText?.bind Json.doubleFront?).map Float.narrow = some x) <| by
    simp only [Option.map_eq_some_iff, Option.bind_eq_some_iff, Json.doubleFront?_eq_some_iff,
      Float32.Legible, ← exists_and_right, and_assoc]
    exact exists_comm

namespace Collage
namespace Json

/-! ### Values that come back -/

mutual

/-- Whether all values that are neither array nor object satisfy `p`. -/
def Each (p : Json → Prop) : Json → Prop
  | array items => EachItem p items
  | object entries => EachEntry p entries
  | scalar => p scalar

/-- The same of all items. -/
def EachItem (p : Json → Prop) : List Json → Prop
  | [] => True
  | item :: rest => Each p item ∧ EachItem p rest

/-- The same of the values of all entries. -/
def EachEntry (p : Json → Prop) : List (String × Json) → Prop
  | [] => True
  | (_, value) :: rest => Each p value ∧ EachEntry p rest

end

/-- Whether all fractional numbers are finite and are read from their texts. -/
def Legible : Json → Prop :=
  Each fun
    | double x => x.Legible
    | single x => x.Legible
    | _ => True

/-- Whether all whole numbers fit 64 bits. -/
def Whole : Json → Prop :=
  Each fun
    | int n => int64Lowest ≤ n ∧ n ≤ word64Highest
    | _ => True

/-! ### Texts of lists -/

/-- The beginning of a line at a level. -/
def gap (level : Nat) : List Char :=
  '\n' :: List.replicate (2 * level) ' '

/-- Parts on lines of their own, with a comma in front of each but the first. -/
def listed (level : Nat) : Bool → List String → List Char
  | _, [] => []
  | first, part :: rest =>
    (if first then [] else [',']) ++ (gap level ++ (part.toList ++ listed level false rest))

theorem isSpace_of_mem_gap {level : Nat} {c : Char} (inside : c ∈ gap level) : isSpace c := by
  rcases List.mem_cons.mp inside with rfl | inside
  · rfl
  · rw [List.eq_of_mem_replicate inside]
    rfl

theorem skipSpace_gap (level : Nat) (text : List Char) :
    skipSpace (gap level ++ text) = skipSpace text :=
  skipSpace_append (fun _ => isSpace_of_mem_gap) text

theorem ends_listed (level outer : Nat) (parts : List String) (text : List Char) :
    Ends (listed level false parts ++ (gap outer ++ text)) := by
  cases parts with
  | nil => exact .inr rfl
  | cons part rest => exact .inl rfl

theorem toList_intercalate_cons (separator part : String) (rest : List String) :
    (String.intercalate separator (part :: rest)).toList =
      part.toList ++ rest.flatMap fun other => separator.toList ++ other.toList := by
  induction rest generalizing part with
  | nil => rw [String.intercalate_singleton, List.flatMap_nil, List.append_nil]
  | cons other rest ih =>
    rw [String.intercalate_cons_cons, String.toList_append, String.toList_append, ih,
      List.flatMap_cons, List.append_assoc, List.append_assoc]

theorem listed_eq (level : Nat) (parts : List String) :
    listed level false parts =
      parts.flatMap fun part => ("," ++ ("\n" ++ indentation level)).toList ++ part.toList := by
  induction parts with
  | nil => rfl
  | cons part rest ih =>
    rw [listed, List.flatMap_cons, ih]
    simp [indentation, gap]

theorem toList_bracketed (opening closing : String) (level : Nat) (part : String)
    (rest : List String) : (bracketed opening closing level (part :: rest)).toList =
      opening.toList ++ (listed (level + 1) true (part :: rest) ++
        (gap level ++ closing.toList)) := by
  unfold bracketed
  simp only [String.toList_append, toList_intercalate_cons]
  rw [listed, listed_eq]
  simp [indentation, gap, List.append_assoc]

/-! ### Going on in a list -/

theorem readNext_end (first : Bool) (level : Nat) (rest : List Char) :
    readNext first (gap level ++ ']' :: rest) = .ok (false, rest) := by
  rw [readNext, skipSpace_gap]
  rfl

theorem readNext_first {text back : List Char} {c : Char} (visible : skipSpace text = c :: back)
    (something : c ≠ ']') : readNext true text = .ok (true, c :: back) := by
  unfold readNext
  rw [visible]
  split
  · rename_i same
    cases same
  · rename_i same
    exact absurd (List.cons.inj same).1 something
  · rename_i same
    cases same
    rfl

theorem readNext_comma {text back : List Char} {c : Char} (visible : skipSpace text = c :: back)
    (something : c ≠ ']') : readNext false (',' :: text) = .ok (true, c :: back) := by
  rw [readNext, skipSpace_of_visible rfl]
  split
  case h_1 same => cases same
  case h_2 same => exact absurd (List.cons.inj same).1 (by decide)
  case h_3 same =>
    cases same
    rw [if_neg (by decide), if_pos rfl, visible]
    split
    case h_1 same => cases same
    case h_2 same => exact absurd (List.cons.inj same).1 something
    case h_3 => rfl

theorem readNext_listed (first : Bool) {level : Nat} {part : String} {rest : List String}
    {text back : List Char} {c : Char}
    (visible : skipSpace (part.toList ++ (listed level false rest ++ text)) = c :: back)
    (something : c ≠ ']') :
    readNext first (listed level first (part :: rest) ++ text) = .ok (true, c :: back) := by
  rw [← skipSpace_gap level] at visible
  cases first with
  | true =>
    rw [listed, if_pos rfl, List.nil_append, List.append_assoc, List.append_assoc]
    exact readNext_first visible something
  | false =>
    rw [listed, if_neg (by decide), List.append_assoc, List.append_assoc, List.append_assoc]
    exact readNext_comma visible something

theorem readKeyOnly_end (first : Bool) (level : Nat) (rest : List Char) :
    readKeyOnly first (gap level ++ '}' :: rest) = .ok (none, rest) := by
  rw [readKeyOnly, skipSpace_gap]
  rfl

theorem readKeyOnly_first {text back : List Char} (visible : skipSpace text = '"' :: back) :
    readKeyOnly true text =
      (readString (back.length + 1) [] back).map fun (key, rest) => (some key, rest) := by
  unfold readKeyOnly
  rw [visible]
  change (do
    let (key, rest) ← readString (back.length + 1) [] back
    return (some key, rest)) = _
  cases readString (back.length + 1) [] back <;> rfl

theorem readKeyOnly_comma {text back : List Char} (visible : skipSpace text = '"' :: back) :
    readKeyOnly false (',' :: text) =
      (readString (back.length + 1) [] back).map fun (key, rest) => (some key, rest) := by
  unfold readKeyOnly
  rw [skipSpace_of_visible rfl]
  split
  case h_1 same => cases same
  case h_2 same => exact absurd (List.cons.inj same).1 (by decide)
  case h_3 same =>
    cases same
    rw [if_neg (by decide), if_pos rfl, visible]
    cases found : readString (back.length + 1) [] back <;>
      simp only [pure_bind, found] <;> rfl

/-- In front of an entry of an object the reader goes on to the colon behind its key. -/
theorem readKeyOnly_listed (first : Bool) (level : Nat) (key value : String)
    (rest : List String) (text : List Char) :
    readKeyOnly first (listed level first ((quoted key ++ ": " ++ value) :: rest) ++ text) =
      .ok (some key, ':' :: ' ' :: (value.toList ++ (listed level false rest ++ text))) := by
  have shown : (quoted key ++ ": " ++ value).toList ++ (listed level false rest ++ text) =
      '"' :: (key.toList.flatMap escapeChar ++
        '"' :: ':' :: ' ' :: (value.toList ++ (listed level false rest ++ text))) := by
    rw [String.toList_append, String.toList_append, toList_quoted]
    simp
  have visible : skipSpace (gap level ++ ((quoted key ++ ": " ++ value).toList ++
      (listed level false rest ++ text))) = _ :=
    (skipSpace_gap level _).trans ((congrArg skipSpace shown).trans (skipSpace_of_visible rfl _))
  cases first with
  | true =>
    rw [listed, if_pos rfl, List.nil_append, List.append_assoc, List.append_assoc,
      readKeyOnly_first visible, readString_quoted]
    rfl
  | false =>
    rw [listed, if_neg (by decide), List.append_assoc, List.append_assoc, List.append_assoc,
      List.singleton_append, readKeyOnly_comma visible, readString_quoted]
    rfl

theorem readKey_end (first : Bool) (level : Nat) (rest : List Char) :
    readKey first (gap level ++ '}' :: rest) = .ok (none, rest) := by
  rw [readKey, readKeyOnly_end]
  rfl

theorem readKey_listed (first : Bool) (level : Nat) (key value : String)
    (rest : List String) (text : List Char) :
    readKey first (listed level first ((quoted key ++ ": " ++ value) :: rest) ++ text) =
      .ok (some key, ' ' :: (value.toList ++ (listed level false rest ++ text))) := by
  rw [readKey, readKeyOnly_listed]
  rfl

/-! ### Whole values -/

/-- Whether the text of a value is read as the value, wherever it stands and whatever may
follow it. -/
def Rereads (json : Json) : Prop :=
  ∀ (level fuel : Nat) {depth : Nat} {rest : List Char}, json.depth ≤ depth → Ends rest →
    2 * (prettyAt level json).toList.length < fuel →
      ∃ found, ReadAs json found ∧
        readValue fuel depth ((prettyAt level json).toList ++ rest) = .ok (found, rest)

theorem readValue_string (text : String) (rest : List Char) (fuel depth : Nat) :
    readValue (fuel + 1) depth ((quoted text).toList ++ rest) = .ok (string text, rest) := by
  have shown : (quoted text).toList ++ rest =
      '"' :: (text.toList.flatMap escapeChar ++ '"' :: rest) := by
    rw [toList_quoted]
    simp
  rw [shown, readValue, skipSpace_of_visible rfl]
  dsimp only
  rw [if_neg (by decide), if_neg (by decide), readScalar, if_neg (by decide), if_neg (by decide),
    if_neg (by decide), if_pos rfl, readString_quoted]

theorem readValue_scalarText {json : Json} (flat : json.depth = 0) (legible : json.Legible)
    (whole : json.Whole) {rest : List Char} (ends : Ends rest) (fuel depth : Nat) :
    ∃ found, ReadAs json found ∧
      readValue (fuel + 1) depth ((scalarText json).toList ++ rest) = .ok (found, rest) := by
  cases json with
  | null => exact ⟨_, .null, by rw [readValue]; rfl⟩
  | bool value => cases value <;> exact ⟨_, .bool _, by rw [readValue]; rfl⟩
  | int n => exact ⟨_, .int n, readValue_int whole.1 whole.2 ends fuel depth⟩
  | double x =>
    obtain ⟨text, written, read⟩ : x.Legible := legible
    have shown : scalarText (double x) = text := congrArg (Option.getD · "null") written
    rw [shown]
    exact ⟨_, .double x, readValue_double read ends fuel depth⟩
  | single x =>
    obtain ⟨text, y, written, read, rounds⟩ : x.Legible := legible
    have shown : scalarText (single x) = text := congrArg (Option.getD · "null") written
    rw [shown]
    exact ⟨_, .single rounds, readValue_double read ends fuel depth⟩
  | string text => exact ⟨_, .string text, readValue_string text rest fuel depth⟩
  | array items =>
    rw [Json.depth] at flat
    cases flat
  | object entries =>
    rw [Json.depth] at flat
    cases flat

theorem prettyAt_of_flat {json : Json} (flat : json.depth = 0) (level : Nat) :
    prettyAt level json = scalarText json := by
  cases json with
  | array items =>
    rw [Json.depth] at flat
    cases flat
  | object entries =>
    rw [Json.depth] at flat
    cases flat
  | _ => rfl

theorem rereads_of_flat {json : Json} (flat : json.depth = 0) (legible : json.Legible)
    (whole : json.Whole) : json.Rereads := by
  intro level fuel depth rest _ ends long
  obtain ⟨fuel, rfl⟩ := Nat.exists_eq_succ_of_ne_zero (Nat.ne_zero_of_lt long)
  rw [prettyAt_of_flat flat]
  exact readValue_scalarText flat legible whole ends fuel depth

theorem length_listed_cons (level : Nat) (first : Bool) (part : String) (rest : List String) :
    part.toList.length + (listed level false rest).length + 1 ≤
      (listed level first (part :: rest)).length := by
  rw [listed, List.length_append, List.length_append, List.length_append, gap, List.length_cons]
  omega

theorem readValue_space (fuel depth : Nat) (text : List Char) :
    readValue fuel depth (' ' :: text) = readValue fuel depth text := by
  cases fuel with
  | zero => rfl
  | succ fuel =>
    rw [readValue, readValue]
    rfl

theorem readValue_skipSpace (fuel depth : Nat) (text : List Char) :
    readValue fuel depth (skipSpace text) = readValue fuel depth text := by
  cases fuel with
  | zero => rfl
  | succ fuel => rw [readValue, readValue, skipSpace_skipSpace]

/-- The items of an array, up to the closing bracket. -/
theorem readItems_listed (level outer : Nat) {depth : Nat} {rest : List Char} :
    ∀ {items : List Json}, (∀ item ∈ items, item.Rereads) → depthOfItems items ≤ depth →
      ∀ (first : Bool) (fuel : Nat) (seen : List Json),
        2 * (listed level first (prettyItems level items)).length < fuel →
          ∃ found, ReadAsItems items found ∧
            readItems fuel depth first seen
              (listed level first (prettyItems level items) ++ (gap outer ++ ']' :: rest)) =
                .ok (seen.reverse ++ found, rest)
  | [], _, _, first, fuel, seen, long => by
    obtain ⟨fuel, rfl⟩ := Nat.exists_eq_succ_of_ne_zero (Nat.ne_zero_of_lt long)
    refine ⟨[], .nil, ?_⟩
    rw [prettyItems, listed, List.nil_append, readItems, readNext_end, List.append_nil]
  | item :: items, each, shallow, first, fuel, seen, long => by
    obtain ⟨fuel, rfl⟩ := Nat.exists_eq_succ_of_ne_zero (Nat.ne_zero_of_lt long)
    obtain ⟨rereads, each⟩ := List.forall_mem_cons.mp each
    rw [depthOfItems] at shallow
    rw [prettyItems] at long ⊢
    have shorter := length_listed_cons level first (prettyAt level item) (prettyItems level items)
    obtain ⟨head, asHead, readHead⟩ := rereads level fuel (le_of_max_le_left shallow)
      (ends_listed level outer (prettyItems level items) (']' :: rest)) (by omega)
    obtain ⟨found, asItems, readRest⟩ := readItems_listed level outer each
      (le_of_max_le_right shallow) false fuel (head :: seen) (by omega)
    refine ⟨head :: found, .cons asHead asItems, ?_⟩
    obtain ⟨c, back, visible, something⟩ := exists_of_readValue readHead
    rw [readItems, readNext_listed first visible something]
    dsimp only
    rw [← visible, readValue_skipSpace, readHead]
    dsimp only
    rw [readRest, List.reverse_cons, List.append_assoc, List.singleton_append]

/-- The entries of an object, up to the closing brace. -/
theorem readEntries_listed (level outer : Nat) {depth : Nat} {rest : List Char} :
    ∀ {entries : List (String × Json)}, (∀ entry ∈ entries, entry.2.Rereads) →
      depthOfEntries entries ≤ depth →
        ∀ (first : Bool) (fuel : Nat) (seen : List (String × Json)),
          2 * (listed level first (prettyEntries level entries)).length < fuel →
            ∃ found, ReadAsEntries entries found ∧
              readEntries fuel depth first seen
                (listed level first (prettyEntries level entries) ++
                  (gap outer ++ '}' :: rest)) = .ok (seen.reverse ++ found, rest)
  | [], _, _, first, fuel, seen, long => by
    obtain ⟨fuel, rfl⟩ := Nat.exists_eq_succ_of_ne_zero (Nat.ne_zero_of_lt long)
    refine ⟨[], .nil, ?_⟩
    rw [prettyEntries, listed, List.nil_append, readEntries, readKey_end, List.append_nil]
  | (key, value) :: entries, each, shallow, first, fuel, seen, long => by
    obtain ⟨fuel, rfl⟩ := Nat.exists_eq_succ_of_ne_zero (Nat.ne_zero_of_lt long)
    obtain ⟨rereads, each⟩ := List.forall_mem_cons.mp each
    have rereads : value.Rereads := rereads
    rw [depthOfEntries] at shallow
    rw [prettyEntries] at long ⊢
    have shorter := length_listed_cons level first (quoted key ++ ": " ++ prettyAt level value)
      (prettyEntries level entries)
    have part : (prettyAt level value).toList.length ≤
        (quoted key ++ ": " ++ prettyAt level value).toList.length := by
      rw [String.toList_append, List.length_append]
      exact Nat.le_add_left _ _
    obtain ⟨head, asHead, readHead⟩ := rereads level fuel (le_of_max_le_left shallow)
      (ends_listed level outer (prettyEntries level entries) ('}' :: rest)) (by omega)
    obtain ⟨found, asEntries, readRest⟩ := readEntries_listed level outer each
      (le_of_max_le_right shallow) false fuel ((key, head) :: seen) (by omega)
    refine ⟨(key, head) :: found, .cons key asHead asEntries, ?_⟩
    rw [readEntries, readKey_listed]
    dsimp only
    rw [readValue_space, readHead]
    dsimp only
    rw [readRest, List.reverse_cons, List.append_assoc, List.singleton_append]

theorem readValue_array {fuel depth : Nat} {text rest : List Char} {items : List Json}
    (read : readItems fuel depth true [] text = .ok (items, rest)) :
    readValue (fuel + 1) (depth + 1) ('[' :: text) = .ok (array items, rest) := by
  rw [readValue, skipSpace_of_visible rfl]
  dsimp only
  rw [if_pos rfl, read]

theorem readValue_object {fuel depth : Nat} {text rest : List Char}
    {entries : List (String × Json)}
    (read : readEntries fuel depth true [] text = .ok (entries, rest)) :
    readValue (fuel + 1) (depth + 1) ('{' :: text) = .ok (object entries, rest) := by
  rw [readValue, skipSpace_of_visible rfl]
  dsimp only
  rw [if_neg (by decide), if_pos rfl, read]

theorem toList_prettyAt_array (level : Nat) (item : Json) (items : List Json) :
    (prettyAt level (array (item :: items))).toList =
      '[' :: (listed (level + 1) true (prettyItems (level + 1) (item :: items)) ++
        (gap level ++ [']'])) := by
  rw [prettyAt, prettyItems, toList_bracketed]
  rfl

theorem toList_prettyAt_object (level : Nat) (entry : String × Json)
    (entries : List (String × Json)) :
    (prettyAt level (object (entry :: entries))).toList =
      '{' :: (listed (level + 1) true (prettyEntries (level + 1) (entry :: entries)) ++
        (gap level ++ ['}'])) := by
  rw [prettyAt, prettyEntries, toList_bracketed]
  rfl

theorem rereads_array {items : List Json} (each : ∀ item ∈ items, item.Rereads) :
    (array items).Rereads := by
  intro level fuel depth rest shallow _ long
  obtain ⟨fuel, rfl⟩ := Nat.exists_eq_succ_of_ne_zero (Nat.ne_zero_of_lt long)
  rw [Json.depth] at shallow
  obtain ⟨depth, rfl⟩ := Nat.exists_eq_succ_of_ne_zero (Nat.ne_zero_of_lt shallow)
  cases items with
  | nil =>
    have shown : (prettyAt level (array [])).toList = ['[', ']'] := by
      rw [prettyAt]
      · rfl
      all_goals simp
    rw [shown] at long ⊢
    obtain ⟨fuel, rfl⟩ : ∃ less, fuel = less + 1 := ⟨fuel - 1, by grind⟩
    exact ⟨_, .array .nil, readValue_array (by rw [readItems]; rfl)⟩
  | cons item items =>
    rw [toList_prettyAt_array] at long ⊢
    obtain ⟨found, asItems, read⟩ := readItems_listed (level + 1) level each
      (Nat.le_of_succ_le_succ shallow) true fuel []
      (by simp only [List.length_cons, List.length_append] at long; omega)
    refine ⟨_, .array asItems, ?_⟩
    rw [List.cons_append, List.append_assoc, List.append_assoc]
    exact readValue_array read

theorem rereads_object {entries : List (String × Json)}
    (each : ∀ entry ∈ entries, entry.2.Rereads) : (object entries).Rereads := by
  intro level fuel depth rest shallow _ long
  obtain ⟨fuel, rfl⟩ := Nat.exists_eq_succ_of_ne_zero (Nat.ne_zero_of_lt long)
  rw [Json.depth] at shallow
  obtain ⟨depth, rfl⟩ := Nat.exists_eq_succ_of_ne_zero (Nat.ne_zero_of_lt shallow)
  cases entries with
  | nil =>
    have shown : (prettyAt level (object [])).toList = ['{', '}'] := by
      rw [prettyAt]
      · rfl
      all_goals simp
    rw [shown] at long ⊢
    obtain ⟨fuel, rfl⟩ : ∃ less, fuel = less + 1 := ⟨fuel - 1, by grind⟩
    exact ⟨_, .object .nil, readValue_object (by rw [readEntries]; rfl)⟩
  | cons entry entries =>
    rw [toList_prettyAt_object] at long ⊢
    obtain ⟨found, asEntries, read⟩ := readEntries_listed (level + 1) level each
      (Nat.le_of_succ_le_succ shallow) true fuel []
      (by simp only [List.length_cons, List.length_append] at long; omega)
    refine ⟨_, .object asEntries, ?_⟩
    rw [List.cons_append, List.append_assoc, List.append_assoc]
    exact readValue_object read

mutual

/-- **A value whose numbers come back is read from its text.** -/
theorem rereads : ∀ (json : Json), json.Legible → json.Whole → json.Rereads
  | array items, legible, whole => rereads_array (rereads_items items legible whole)
  | object entries, legible, whole => rereads_object (rereads_entries entries legible whole)
  | null, legible, whole => rereads_of_flat rfl legible whole
  | bool _, legible, whole => rereads_of_flat rfl legible whole
  | int _, legible, whole => rereads_of_flat rfl legible whole
  | double _, legible, whole => rereads_of_flat rfl legible whole
  | single _, legible, whole => rereads_of_flat rfl legible whole
  | string _, legible, whole => rereads_of_flat rfl legible whole

theorem rereads_items : ∀ (items : List Json), (array items).Legible → (array items).Whole →
    ∀ item ∈ items, item.Rereads
  | [], _, _ => fun _ inside => absurd inside List.not_mem_nil
  | item :: items, legible, whole => List.forall_mem_cons.mpr
    ⟨rereads item legible.1 whole.1, rereads_items items legible.2 whole.2⟩

theorem rereads_entries : ∀ (entries : List (String × Json)), (object entries).Legible →
    (object entries).Whole → ∀ entry ∈ entries, entry.2.Rereads
  | [], _, _ => fun _ inside => absurd inside List.not_mem_nil
  | (_, value) :: entries, legible, whole => List.forall_mem_cons.mpr
    ⟨rereads value legible.1 whole.1, rereads_entries entries legible.2 whole.2⟩

end

/-- The whole text of a value. -/
theorem read_pretty {json : Json} (legible : json.Legible) (whole : json.Whole)
    (shallow : json.depth ≤ depthLimit) :
    ∃ found, ReadAs json found ∧ read json.pretty = .ok found := by
  have ends : Ends [] := trivial
  obtain ⟨found, same, readText⟩ := rereads json legible whole 0
    (enoughFuel json.pretty.toList) shallow ends (by unfold enoughFuel pretty; omega)
  rw [List.append_nil] at readText
  refine ⟨found, same, ?_⟩
  unfold read readFront pretty
  unfold pretty at readText
  rw [readText]
  rfl

end Json
end Collage
