import Collage.Json.Shape
import Collage.Proofs.Number.Bits
import Mathlib.Data.String.Basic

/-!
# Values that are read as they were written

A written value comes back with every number as a double: one in single precision as some
double that rounds to it, if it does not stay as it is where nothing is printed.
`ReadAs written read` says that `read` may be what comes back.
The lemmas on `listOf`, `mapOf` and `sortEntries` say when what a decoder makes of it is
what was written, so that a decoder is shown to undo its encoder field by field.
-/

namespace Collage
namespace Json

/-! ### Sorted entries -/

/-- Entries in strict order of their keys. -/
def Sorted {α : Type} (entries : List (String × α)) : Prop :=
  (entries.map (·.1)).Pairwise (· < ·)

section

variable {α : Type} {entries : List (String × α)}

theorem mem_keys_insertEntry {key other : String} {value : α} :
    other ∈ (insertEntry key value entries).map (·.1) ↔
      other = key ∨ other ∈ entries.map (·.1) := by
  induction entries with
  | nil => simp [insertEntry]
  | cons entry rest ih =>
    obtain ⟨k, v⟩ := entry
    unfold insertEntry
    split
    · rename_i same
      simp [same]
    split
    · simp
    · simp only [List.map_cons, List.mem_cons, ih]
      exact or_left_comm

/-- Putting in an entry keeps entries sorted. -/
theorem Sorted.insertEntry (sorted : Sorted entries) (key : String) (value : α) :
    Sorted (Json.insertEntry key value entries) := by
  induction entries with
  | nil => exact List.pairwise_singleton _ _
  | cons entry rest ih =>
    obtain ⟨k, v⟩ := entry
    obtain ⟨first, others⟩ := List.pairwise_cons.mp sorted
    unfold Json.insertEntry
    split
    · rename_i same
      subst same
      exact List.pairwise_cons.mpr ⟨first, others⟩
    split
    · rename_i before
      refine List.pairwise_cons.mpr ⟨fun other inside => ?_, sorted⟩
      rcases List.mem_cons.mp inside with rfl | inside
      · exact before
      · exact before.trans (first other inside)
    · rename_i different behind
      refine List.pairwise_cons.mpr ⟨fun other inside => ?_, ih others⟩
      rcases mem_keys_insertEntry.mp inside with rfl | inside
      · exact lt_of_le_of_ne (not_lt.mp behind) (Ne.symm different)
      · exact first other inside

/-- Sorting gives sorted entries. -/
theorem sorted_sortEntries (entries : List (String × α)) : Sorted (sortEntries entries) := by
  have grown : ∀ (more start : List (String × α)), Sorted start →
      Sorted (more.foldl (fun sorted entry => insertEntry entry.1 entry.2 sorted) start) := by
    intro more
    induction more with
    | nil => exact fun _ sorted => sorted
    | cons entry more ih => exact fun start sorted => ih _ (sorted.insertEntry entry.1 entry.2)
  exact grown entries [] List.Pairwise.nil

theorem insertEntry_of_last {key : String} {value : α}
    (last : ∀ other ∈ entries.map (·.1), other < key) :
    insertEntry key value entries = entries ++ [(key, value)] := by
  induction entries with
  | nil => rfl
  | cons entry rest ih =>
    obtain ⟨k, v⟩ := entry
    have before : k < key := last k List.mem_cons_self
    unfold insertEntry
    rw [if_neg before.ne', if_neg before.asymm, ih fun other inside => last other (List.mem_cons_of_mem _ inside)]
    rfl

/-- Sorting leaves sorted entries as they are. -/
theorem sortEntries_of_sorted (sorted : Sorted entries) : sortEntries entries = entries := by
  have grown : ∀ (more start : List (String × α)), Sorted (start ++ more) →
      more.foldl (fun sorted entry => insertEntry entry.1 entry.2 sorted) start =
        start ++ more := by
    intro more
    induction more with
    | nil => exact fun start _ => (List.append_nil start).symm
    | cons entry more ih =>
      intro start sorted
      obtain ⟨key, value⟩ := entry
      have last : ∀ other ∈ start.map (·.1), other < key := by
        unfold Sorted at sorted
        rw [List.map_append, List.pairwise_append] at sorted
        exact fun other inside => sorted.2.2 other inside key List.mem_cons_self
      rw [List.foldl_cons]
      dsimp only
      rw [insertEntry_of_last last, ih (start ++ [(key, value)]) (by rwa [List.append_assoc, List.singleton_append]),
        List.append_assoc, List.singleton_append]
  exact grown entries [] sorted

theorem sorted_of_mapOf {decode : Json → Option α} {json : Json}
    (decoded : mapOf decode json = some entries) : Sorted entries := by
  unfold mapOf at decoded
  split at decoded
  · obtain ⟨pairs, -, same⟩ := Option.bind_eq_some_iff.mp decoded
    cases same
    exact sorted_sortEntries pairs
  · cases decoded

end

theorem mem_insertEntry {α : Type} {key : String} {value : α} {entry : String × α}
    {entries : List (String × α)} (inside : entry ∈ insertEntry key value entries) :
    entry = (key, value) ∨ entry ∈ entries := by
  induction entries with
  | nil => exact .inl (List.mem_singleton.mp inside)
  | cons first rest ih =>
    obtain ⟨k, v⟩ := first
    unfold insertEntry at inside
    split at inside
    · rcases List.mem_cons.mp inside with rfl | inside
      · exact .inl rfl
      · exact .inr (List.mem_cons_of_mem _ inside)
    split at inside
    · exact List.mem_cons.mp inside
    · rcases List.mem_cons.mp inside with rfl | inside
      · exact .inr List.mem_cons_self
      · exact (ih inside).imp_right (List.mem_cons_of_mem _)

theorem mem_sortEntries {α : Type} {entry : String × α} {entries : List (String × α)}
    (inside : entry ∈ sortEntries entries) : entry ∈ entries := by
  have grown : ∀ (more start : List (String × α)),
      entry ∈ more.foldl (fun sorted entry => insertEntry entry.1 entry.2 sorted) start →
        entry ∈ start ∨ entry ∈ more := by
    intro more
    induction more with
    | nil => exact fun _ => .inl
    | cons first more ih =>
      intro start inside
      rcases ih _ inside with inside | inside
      · rcases mem_insertEntry inside with rfl | inside
        · exact .inr List.mem_cons_self
        · exact .inl inside
      · exact .inr (List.mem_cons_of_mem _ inside)
  exact (grown entries [] inside).resolve_left List.not_mem_nil

/-- What a pass over a list gives comes from its items. -/
theorem exists_of_mem_mapM {α β : Type} {f : α → Option β} : ∀ {items : List α} {found : List β},
    items.mapM f = some found → ∀ b ∈ found, ∃ a, f a = some b
  | [], _, passed, b, inside => by
    cases passed
    cases inside
  | a :: items, _, passed, b, inside => by
    rw [List.mapM_cons] at passed
    obtain ⟨head, first, passed⟩ := Option.bind_eq_some_iff.mp passed
    obtain ⟨tail, rest, same⟩ := Option.bind_eq_some_iff.mp passed
    cases same
    rcases List.mem_cons.mp inside with rfl | inside
    · exact ⟨a, first⟩
    · exact exists_of_mem_mapM rest b inside

section

variable {α : Type} {decode : Json → Option α} {json : Json}

theorem exists_of_mem_listOf {values : List α} (decoded : listOf decode json = some values) :
    ∀ value ∈ values, ∃ item, decode item = some value := by
  obtain ⟨items, -, decoded⟩ := Option.bind_eq_some_iff.mp decoded
  exact exists_of_mem_mapM decoded

/-- Every decoded entry comes from some value. -/
theorem exists_of_mem_mapOf {entries : List (String × α)}
    (decoded : mapOf decode json = some entries) :
    ∀ entry ∈ entries, ∃ value, decode value = some entry.2 := by
  unfold mapOf at decoded
  split at decoded
  · obtain ⟨pairs, decodedPairs, same⟩ := Option.bind_eq_some_iff.mp decoded
    cases same
    intro entry inside
    obtain ⟨⟨key, value⟩, found⟩ := exists_of_mem_mapM decodedPairs entry (mem_sortEntries inside)
    obtain ⟨_, decodedValue, same⟩ := Option.bind_eq_some_iff.mp found
    cases same
    exact ⟨value, decodedValue⟩
  · cases decoded

end

/-! ### What comes back -/

mutual

/-- Whether a value may be read where another was written. -/
inductive ReadAs : Json → Json → Prop
  | null : ReadAs null null
  | bool (value : Bool) : ReadAs (bool value) (bool value)
  | int (value : Int) : ReadAs (int value) (int value)
  | double (value : Float) : ReadAs (double value) (double value)
  | single {value : Float32} {found : Float} (rounds : found.narrow = value) :
    ReadAs (single value) (double found)
  | kept (value : Float32) : ReadAs (single value) (single value)
  | string (value : String) : ReadAs (string value) (string value)
  | array {items found : List Json} (each : ReadAsItems items found) :
    ReadAs (array items) (array found)
  | object {entries found : List (String × Json)} (each : ReadAsEntries entries found) :
    ReadAs (object entries) (object found)

/-- The same item by item. -/
inductive ReadAsItems : List Json → List Json → Prop
  | nil : ReadAsItems [] []
  | cons {item found : Json} {items others : List Json} (first : ReadAs item found)
    (rest : ReadAsItems items others) : ReadAsItems (item :: items) (found :: others)

/-- The same entry by entry, under the same keys. -/
inductive ReadAsEntries : List (String × Json) → List (String × Json) → Prop
  | nil : ReadAsEntries [] []
  | cons (key : String) {value found : Json} {entries others : List (String × Json)}
    (first : ReadAs value found) (rest : ReadAsEntries entries others) :
    ReadAsEntries ((key, value) :: entries) ((key, found) :: others)

end

mutual

theorem ReadAs.refl : ∀ json : Json, ReadAs json json
  | .null => .null
  | .bool value => .bool value
  | .int value => .int value
  | .double value => .double value
  | .single value => .kept value
  | .string value => .string value
  | .array items => .array (ReadAsItems.refl items)
  | .object entries => .object (ReadAsEntries.refl entries)

theorem ReadAsItems.refl : ∀ items : List Json, ReadAsItems items items
  | [] => .nil
  | item :: rest => .cons (ReadAs.refl item) (ReadAsItems.refl rest)

theorem ReadAsEntries.refl : ∀ entries : List (String × Json), ReadAsEntries entries entries
  | [] => .nil
  | (key, value) :: rest => .cons key (ReadAs.refl value) (ReadAsEntries.refl rest)

end

section

variable {α : Type} {encode : α → Json} {decode : Json → Option α}

theorem ReadAsItems.mapM_eq {values : List α} {found : List Json}
    (read : ReadAsItems (values.map encode) found)
    (each : ∀ value ∈ values, ∀ json, ReadAs (encode value) json → decode json = some value) :
    found.mapM decode = some values := by
  induction values generalizing found with
  | nil =>
    cases read
    rfl
  | cons value values ih =>
    cases read with
    | cons first rest =>
      rw [List.mapM_cons, each value List.mem_cons_self _ first,
        ih rest fun other inside => each other (List.mem_cons_of_mem _ inside)]
      rfl

theorem ReadAs.listOf_eq {values : List α} {json : Json}
    (read : ReadAs (.array (values.map encode)) json)
    (each : ∀ value ∈ values, ∀ json, ReadAs (encode value) json → decode json = some value) :
    listOf decode json = some values := by
  cases read with
  | array items => exact items.mapM_eq each

/-- Sorted entries come back when their values do. -/
theorem ReadAs.mapOf_eq {entries : List (String × α)} {json : Json}
    (read : ReadAs (.object (entries.map fun (key, value) => (key, encode value))) json)
    (sorted : Sorted entries)
    (each : ∀ entry ∈ entries, ∀ json, ReadAs (encode entry.2) json →
      decode json = some entry.2) :
    mapOf decode json = some entries := by
  have all : ∀ (entries : List (String × α)) (found : List (String × Json)),
      ReadAsEntries (entries.map fun entry => (entry.1, encode entry.2)) found →
      (∀ entry ∈ entries, ∀ json, ReadAs (encode entry.2) json → decode json = some entry.2) →
      (found.mapM fun entry => do return (entry.1, ← decode entry.2)) = some entries := by
    intro entries
    induction entries with
    | nil =>
      intro found read _
      cases read
      rfl
    | cons entry entries ih =>
      intro found read each
      obtain ⟨key, value⟩ := entry
      cases read with
      | cons _ first rest =>
        rw [List.mapM_cons]
        dsimp only
        rw [each (key, value) List.mem_cons_self _ first,
          ih _ rest fun other inside => each other (List.mem_cons_of_mem _ inside)]
        rfl
  cases read with
  | object found =>
    refine (congrArg (Option.bind · fun decoded => some (sortEntries decoded))
      (all entries _ found each)).trans ?_
    exact congrArg some (sortEntries_of_sorted sorted)

end

/-! ### Records -/

section

variable {entries : List (String × Json)} {name : String}

theorem onlyEntry_of_mem {value : Json} (once : (entries.map (·.1)).Nodup)
    (inside : (name, value) ∈ entries) : onlyEntry name entries = some (some value) := by
  have only : entries.filter (·.1 = name) = [(name, value)] := by
    induction entries with
    | nil => cases inside
    | cons entry rest ih =>
      obtain ⟨fresh, others⟩ := List.nodup_cons.mp once
      rcases List.mem_cons.mp inside with rfl | inside
      · rw [List.filter_cons_of_pos (by simp), List.filter_eq_nil_iff.mpr]
        intro other there
        have : other.1 ∈ rest.map (·.1) := List.mem_map_of_mem there
        simp only [decide_eq_true_eq]
        rintro same
        exact fresh (same ▸ this)
      · rw [List.filter_cons_of_neg, ih others inside]
        simp only [decide_eq_true_eq]
        rintro same
        have : entry.1 ∈ rest.map (·.1) := same ▸ List.mem_map_of_mem inside
        exact fresh this
  rw [onlyEntry, only]

theorem onlyEntry_of_notMem (missing : name ∉ entries.map (·.1)) :
    onlyEntry name entries = some none := by
  have none : entries.filter (·.1 = name) = [] := by
    rw [List.filter_eq_nil_iff]
    intro other there same
    rw [decide_eq_true_eq] at same
    have : other.1 ∈ entries.map (·.1) := List.mem_map_of_mem there
    exact missing (same ▸ this)
  rw [onlyEntry, none]

theorem mapM_onlyEntry (once : (entries.map (·.1)).Nodup) :
    ∀ (names : List String) (values : List Json), values.length ≤ names.length →
      (∀ entry ∈ names.zip values, entry ∈ entries) →
      (∀ name ∈ names.drop values.length, name ∉ entries.map (·.1)) →
      (names.mapM fun name => onlyEntry name entries) =
        some (values.map some ++ List.replicate (names.length - values.length) none)
  | [], [], _, _, _ => rfl
  | name :: names, [], _, _, missing => by
    rw [List.mapM_cons, onlyEntry_of_notMem (missing name List.mem_cons_self),
      mapM_onlyEntry once names [] (Nat.zero_le _) (by simp)
        fun other inside => missing other (List.mem_cons_of_mem _ inside)]
    rfl
  | name :: names, value :: values, short, there, missing => by
    rw [List.mapM_cons, onlyEntry_of_mem once (there (name, value) List.mem_cons_self),
      mapM_onlyEntry once names values (Nat.le_of_succ_le_succ short)
        (fun other inside => there other (List.mem_cons_of_mem _ inside)) missing]
    rw [List.length_cons, List.length_cons, Nat.add_sub_add_right]
    rfl

end

theorem ReadAsEntries.zip {names : List String} {values : List Json}
    {found : List (String × Json)} (read : ReadAsEntries (names.zip values) found)
    (short : values.length ≤ names.length) :
    ∃ others, found = names.zip others ∧ ReadAsItems values others := by
  induction names generalizing values found with
  | nil =>
    obtain rfl := List.eq_nil_of_length_eq_zero (Nat.le_zero.mp short)
    cases read
    exact ⟨[], rfl, .nil⟩
  | cons name names ih =>
    cases values with
    | nil =>
      cases read
      exact ⟨[], rfl, .nil⟩
    | cons value values =>
      cases read with
      | cons _ first rest =>
        obtain ⟨others, rfl, items⟩ := ih rest (Nat.le_of_succ_le_succ short)
        exact ⟨_ :: others, rfl, .cons first items⟩

theorem ReadAsItems.length_eq {values found : List Json} (read : ReadAsItems values found) :
    found.length = values.length := by
  induction values generalizing found with
  | nil =>
    cases read
    rfl
  | cons value values ih =>
    cases read with
    | cons _ rest => exact congrArg Nat.succ (ih rest)

/-- An object that was written with the first of some fields, in order, comes back with
them. -/
theorem ReadAs.objectFields_eq (names : List String) (values : List Json) {json : Json}
    (read : ReadAs (.object (names.zip values)) json) (once : names.Nodup)
    (short : values.length ≤ names.length) :
    ∃ found, ReadAsItems values found ∧ objectFields names json =
      some (found.map some ++ List.replicate (names.length - values.length) none) := by
  cases read with
  | object each =>
    obtain ⟨found, rfl, items⟩ := each.zip short
    have keys : (names.zip found).map (·.1) = names.take values.length := by
      rw [← items.length_eq, List.zip_eq_zip_take_min, Nat.min_eq_right (items.length_eq ▸ short)]
      exact List.map_fst_zip (by rw [List.length_take, List.length_take]; omega)
    refine ⟨found, items, ?_⟩
    rw [← items.length_eq]
    refine mapM_onlyEntry ?_ names found (items.length_eq ▸ short) (fun _ => id) ?_
    · rw [keys]
      exact once.sublist (List.take_sublist _ _)
    · rw [keys, items.length_eq]
      intro name behind before
      exact List.disjoint_take_drop once le_rfl before behind

theorem ReadAs.recordFields_eq (names : List String) (values : List Json) {json : Json}
    (read : ReadAs (.object (names.zip values)) json) (once : names.Nodup)
    (short : values.length ≤ names.length) :
    ∃ found, ReadAsItems values found ∧ recordFields names json =
      some (found.map some ++ List.replicate (names.length - values.length) none) := by
  obtain ⟨found, items, fields⟩ := read.objectFields_eq names values once short
  refine ⟨found, items, ?_⟩
  cases read with
  | object => exact fields

/-! ### Numbers -/

theorem ReadAs.double?_eq {x : Float} {json : Json} (finite : x.isFinite)
    (read : ReadAs (ofDouble x) json) : json.double? = some x := by
  rw [ofDouble, if_pos finite] at read
  cases read
  rfl

theorem ReadAs.single?_eq {x : Float32} {json : Json} (finite : x.isFinite)
    (read : ReadAs (ofSingle x) json) : json.single? = some x := by
  rw [ofSingle, if_pos finite] at read
  cases read with
  | single rounds => exact congrArg some rounds
  | kept => rfl

mutual

/-- Whether all numbers in single precision are finite. -/
def SinglesFinite : Json → Prop
  | single value => value.isFinite
  | array items => SinglesFiniteIn items
  | object entries => SinglesFiniteAmong entries
  | _ => True

/-- The same of all items. -/
def SinglesFiniteIn : List Json → Prop
  | [] => True
  | item :: rest => SinglesFinite item ∧ SinglesFiniteIn rest

/-- The same of all entries. -/
def SinglesFiniteAmong : List (String × Json) → Prop
  | [] => True
  | (_, value) :: rest => SinglesFinite value ∧ SinglesFiniteAmong rest

end

mutual

/-- A value with every number widened is what may come back. -/
theorem readAs_widened : ∀ {json : Json}, json.SinglesFinite → ReadAs json json.widened
  | null, _ => .null
  | bool value, _ => .bool value
  | int value, _ => .int value
  | double value, _ => .double value
  | single value, finite => by
    rw [SinglesFinite] at finite
    rw [widened]
    exact .single (Float32.narrow_widen finite)
  | string value, _ => .string value
  | array items, finite => by
    rw [SinglesFinite] at finite
    rw [widened]
    exact .array (readAsItems_widened finite)
  | object entries, finite => by
    rw [SinglesFinite] at finite
    rw [widened]
    exact .object (readAsEntries_widened finite)

theorem readAsItems_widened : ∀ {items : List Json}, SinglesFiniteIn items →
    ReadAsItems items (widenedItems items)
  | [], _ => .nil
  | item :: rest, finite => by
    rw [SinglesFiniteIn] at finite
    rw [widenedItems]
    exact .cons (readAs_widened finite.1) (readAsItems_widened finite.2)

theorem readAsEntries_widened : ∀ {entries : List (String × Json)}, SinglesFiniteAmong entries →
    ReadAsEntries entries (widenedEntries entries)
  | [], _ => .nil
  | (key, value) :: rest, finite => by
    rw [SinglesFiniteAmong] at finite
    rw [widenedEntries]
    exact .cons key (readAs_widened finite.1) (readAsEntries_widened finite.2)

end

theorem singlesFinite_ofSingle (x : Float32) : (ofSingle x).SinglesFinite := by
  unfold ofSingle
  split
  · rename_i finite
    rw [SinglesFinite]
    exact finite
  · trivial

end Json
end Collage
