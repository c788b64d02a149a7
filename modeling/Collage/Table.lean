/-!
# Tables

A table gives values to keys and keeps them in the order in which the keys came.
`set` replaces the value of a key where it stands or adds the key at the end.

* `get?_set_self`, `get?_set_other`: what `set` changes and what it leaves.
* `get?_keep`: what `keep` leaves; `get?_erase_self`, `get?_erase_other`: the same for `erase`.
* `keys_set_of_mem`, `keys_set_of_notMem`, `keys_erase`: what becomes of the keys.
* `mem_values_set`, `map_values_modify`, `values_keep_sublist`, `perm_filterMap_set`: what becomes
  of the values.
* `perm_entries_erase`, `perm_entries_set`: what becomes of the entries, in whatever order, and
  `map_entries_set` where they stand.
-/

namespace Collage

/-- Values for keys, in the order in which the keys came. -/
structure Table (κ α : Type) where
  entries : List (κ × α) := []
  deriving Repr, Inhabited, BEq, DecidableEq

namespace Table

variable {κ α : Type} [DecidableEq κ]

/-- How many keys there are. -/
def size (t : Table κ α) : Nat :=
  t.entries.length

/-- The keys. -/
def keys (t : Table κ α) : List κ :=
  t.entries.map (·.1)

/-- The values. -/
def values (t : Table κ α) : List α :=
  t.entries.map (·.2)

/-- The value of a key among entries. -/
def find? (key : κ) : List (κ × α) → Option α
  | [] => none
  | (k, v) :: rest => if k = key then some v else find? key rest

/-- The value of a key. -/
def get? (t : Table κ α) (key : κ) : Option α :=
  find? key t.entries

/-- Whether a key is there. -/
def contains (t : Table κ α) (key : κ) : Bool :=
  (t.get? key).isSome

/-- Entries with a value set. -/
def put (key : κ) (value : α) : List (κ × α) → List (κ × α)
  | [] => [(key, value)]
  | (k, v) :: rest => if k = key then (key, value) :: rest else (k, v) :: put key value rest

/-- Sets the value of a key. -/
def set (t : Table κ α) (key : κ) (value : α) : Table κ α :=
  ⟨put key value t.entries⟩

/-- Takes a key away. -/
def erase (t : Table κ α) (key : κ) : Table κ α :=
  ⟨t.entries.filter (·.1 ≠ key)⟩

/-- Changes the value of a key that is there. -/
def modify (t : Table κ α) (key : κ) (f : α → α) : Table κ α :=
  ⟨t.entries.map fun (k, v) => if k = key then (k, f v) else (k, v)⟩

/-- Keeps the entries whose keys satisfy `p`. -/
def keep (t : Table κ α) (p : κ → Bool) : Table κ α :=
  ⟨t.entries.filter fun entry => p entry.1⟩

/-! ### What the operations do to a look-up -/

theorem get?_set_self (t : Table κ α) (key : κ) (value : α) :
    (t.set key value).get? key = some value := by
  obtain ⟨entries⟩ := t
  simp only [set, get?]
  induction entries with
  | nil => simp [put, find?]
  | cons entry rest ih =>
    obtain ⟨k, v⟩ := entry
    by_cases h : k = key <;> simp [put, find?, h, ih]

theorem get?_set_other (t : Table κ α) {key other : κ} (value : α) (different : other ≠ key) :
    (t.set key value).get? other = t.get? other := by
  obtain ⟨entries⟩ := t
  simp only [set, get?]
  induction entries with
  | nil => simp [put, find?, different.symm]
  | cons entry rest ih =>
    obtain ⟨k, v⟩ := entry
    by_cases h : k = key
    · simp [put, find?, h, different.symm]
    · simp [put, find?, h, ih]

/-- What is kept has the values that it had. -/
theorem get?_keep (t : Table κ α) (p : κ → Bool) (key : κ) :
    (t.keep p).get? key = if p key then t.get? key else none := by
  obtain ⟨entries⟩ := t
  simp only [keep, get?]
  induction entries with
  | nil => simp [find?]
  | cons entry rest ih =>
    obtain ⟨k, v⟩ := entry
    by_cases kept : p k
    · rw [List.filter_cons_of_pos (by exact kept)]
      by_cases h : k = key
      · subst h
        simp [find?, kept]
      · simp [find?, h, ih]
    · rw [List.filter_cons_of_neg (by exact kept), ih]
      by_cases h : k = key
      · subst h
        simp [kept]
      · simp [find?, h]

theorem get?_erase_self (t : Table κ α) (key : κ) : (t.erase key).get? key = none :=
  (t.get?_keep (· ≠ key) key).trans (by simp)

theorem get?_erase_other (t : Table κ α) {key other : κ} (different : other ≠ key) :
    (t.erase key).get? other = t.get? other :=
  (t.get?_keep (· ≠ key) other).trans (by simp [different])

/-! ### What the operations do to the keys -/

theorem get?_eq_none_iff {t : Table κ α} {key : κ} : t.get? key = none ↔ key ∉ t.keys := by
  obtain ⟨entries⟩ := t
  simp only [get?, keys]
  induction entries with
  | nil => simp [find?]
  | cons entry rest ih =>
    obtain ⟨k, v⟩ := entry
    by_cases h : k = key
    · simp [find?, h]
    · simp [find?, h, ih, Ne.symm h]

theorem keys_set_of_mem {t : Table κ α} {key : κ} (inside : key ∈ t.keys) (value : α) :
    (t.set key value).keys = t.keys := by
  obtain ⟨entries⟩ := t
  simp only [set, keys] at *
  induction entries with
  | nil => simp at inside
  | cons entry rest ih =>
    obtain ⟨k, v⟩ := entry
    by_cases h : k = key
    · simp [put, h]
    · have later : key ∈ rest.map (·.1) := by simpa [Ne.symm h] using inside
      simp [put, h, ih later]

theorem keys_set_of_notMem {t : Table κ α} {key : κ} (outside : key ∉ t.keys) (value : α) :
    (t.set key value).keys = t.keys ++ [key] := by
  obtain ⟨entries⟩ := t
  simp only [set, keys] at *
  induction entries with
  | nil => rfl
  | cons entry rest ih =>
    obtain ⟨k, v⟩ := entry
    have different : k ≠ key := fun h => outside (by simp [h])
    have later : key ∉ rest.map (·.1) := fun h => outside (by simp [h])
    simp [put, different, ih later]

theorem mem_keys_set {t : Table κ α} {key other : κ} {value : α} :
    other ∈ (t.set key value).keys ↔ other ∈ t.keys ∨ other = key := by
  by_cases inside : key ∈ t.keys
  · rw [keys_set_of_mem inside]
    exact (or_iff_left_of_imp fun same => same ▸ inside).symm
  · rw [keys_set_of_notMem inside, List.mem_append, List.mem_singleton]

theorem keys_erase (t : Table κ α) (key : κ) :
    (t.erase key).keys = t.keys.filter (· ≠ key) := by
  simp only [erase, keys, List.filter_map]
  rfl

/-! ### What the operations do to the values -/

theorem mem_values_of_get? {t : Table κ α} {key : κ} {value : α} (found : t.get? key = some value) :
    value ∈ t.values := by
  obtain ⟨entries⟩ := t
  simp only [get?, values] at *
  induction entries with
  | nil => simp [find?] at found
  | cons entry rest ih =>
    obtain ⟨k, v⟩ := entry
    by_cases h : k = key
    · simp only [find?, h, if_true, Option.some.injEq] at found
      simp [found]
    · simp only [find?, h, if_false] at found
      simp [ih found]

theorem mem_values_set {t : Table κ α} {key : κ} {value other : α}
    (inside : other ∈ (t.set key value).values) : other = value ∨ other ∈ t.values := by
  obtain ⟨entries⟩ := t
  simp only [set, values] at *
  induction entries with
  | nil =>
    left
    simpa [put] using inside
  | cons entry rest ih =>
    obtain ⟨k, v⟩ := entry
    by_cases h : k = key
    · simp only [put, h, if_true, List.map_cons, List.mem_cons] at inside ⊢
      exact inside.imp_right .inr
    · simp only [put, h, if_false, List.map_cons, List.mem_cons] at inside ⊢
      rcases inside with rfl | inside
      · exact .inr (.inl rfl)
      · exact (ih inside).imp_right .inr

/-- What `f` leaves of a value stays what it was. -/
theorem map_values_modify {β : Type} {f : α → α} {view : α → β} (same : ∀ v, view (f v) = view v)
    (t : Table κ α) (key : κ) : (t.modify key f).values.map view = t.values.map view := by
  simp only [modify, values, List.map_map]
  refine List.map_congr_left fun entry _ => ?_
  by_cases h : entry.1 = key <;> simp [h, same]

/-- Changing a value leaves the keys. -/
theorem isSome_get?_modify (t : Table κ α) (key : κ) (f : α → α) (asked : κ) :
    ((t.modify key f).get? asked).isSome = (t.get? asked).isSome := by
  obtain ⟨entries⟩ := t
  simp only [modify, get?]
  induction entries with
  | nil => rfl
  | cons entry rest ih =>
    obtain ⟨k, v⟩ := entry
    by_cases changed : k = key <;> by_cases found : k = asked <;>
      simp_all [find?]

omit [DecidableEq κ] in
theorem values_keep_sublist (t : Table κ α) (p : κ → Bool) :
    (t.keep p).values.Sublist t.values :=
  List.filter_sublist.map _

/-- A value that is set comes for the one that its key had, whatever is asked of values. -/
theorem perm_filterMap_set {β : Type} (view : α → Option β) (t : Table κ α) (key : κ) (value : α) :
    ((t.set key value).values.filterMap view ++ ((t.get? key).bind view).toList).Perm
      (t.values.filterMap view ++ (view value).toList) := by
  obtain ⟨entries⟩ := t
  simp only [set, get?, values]
  induction entries with
  | nil =>
    cases viewed : view value <;> simp [put, find?, viewed]
  | cons entry rest ih =>
    obtain ⟨k, v⟩ := entry
    by_cases h : k = key
    · cases viewed : view v with
      | none =>
        cases again : view value with
        | none => simp [put, find?, h, viewed, again]
        | some shown =>
          simpa [put, find?, h, viewed, again] using (List.perm_append_singleton shown _).symm
      | some seen =>
        cases again : view value with
        | none => simp [put, find?, h, viewed, again]
        | some shown =>
          have moved : ∀ more : List β, (shown :: (more ++ [seen])).Perm (seen :: (more ++ [shown])) :=
            fun more => ((List.perm_append_singleton seen more).cons shown).trans
              ((List.Perm.swap _ _ _).trans ((List.perm_append_singleton shown more).symm.cons seen))
          simpa [put, find?, h, viewed, again] using moved _
    · cases viewed : view v with
      | none => simpa [put, find?, h, viewed] using ih
      | some seen => simpa [put, find?, h, viewed] using ih.cons seen

/-! ### What the operations do to the entries

Keys that came by `set` stand in a table once. -/

theorem mem_entries_of_get? {t : Table κ α} {key : κ} {value : α}
    (found : t.get? key = some value) : (key, value) ∈ t.entries := by
  obtain ⟨entries⟩ := t
  simp only [get?] at *
  induction entries with
  | nil => simp [find?] at found
  | cons entry rest ih =>
    obtain ⟨k, v⟩ := entry
    by_cases h : k = key
    · simp only [find?, h, if_true, Option.some.injEq] at found
      simp [h, found]
    · simp only [find?, h, if_false] at found
      exact List.mem_cons_of_mem _ (ih found)

theorem get?_of_mem_entries {t : Table κ α} (once : t.keys.Nodup) {key : κ} {value : α}
    (inside : (key, value) ∈ t.entries) : t.get? key = some value := by
  obtain ⟨entries⟩ := t
  simp only [get?, keys] at *
  induction entries with
  | nil => cases inside
  | cons entry rest ih =>
    obtain ⟨k, v⟩ := entry
    obtain ⟨new, once⟩ := List.nodup_cons.mp once
    rcases List.mem_cons.mp inside with same | inside
    · cases same
      simp [find?]
    · have different : k ≠ key := fun same =>
        new (same ▸ List.mem_map.mpr ⟨_, inside, rfl⟩)
      simpa [find?, different] using ih once inside

theorem erase_of_notMem {t : Table κ α} {key : κ} (outside : key ∉ t.keys) : t.erase key = t := by
  obtain ⟨entries⟩ := t
  simp only [erase, keys] at *
  congr 1
  refine List.filter_eq_self.mpr fun entry inside => ?_
  simp only [ne_eq, decide_eq_true_eq]
  exact fun same => outside (same ▸ List.mem_map.mpr ⟨_, inside, rfl⟩)

/-- A key that is taken away takes its entry with it. -/
theorem perm_entries_erase {t : Table κ α} (once : t.keys.Nodup) {key : κ} {value : α}
    (inside : (key, value) ∈ t.entries) : t.entries.Perm ((key, value) :: (t.erase key).entries) := by
  obtain ⟨entries⟩ := t
  simp only [erase, keys] at *
  induction entries with
  | nil => cases inside
  | cons entry rest ih =>
    obtain ⟨k, v⟩ := entry
    obtain ⟨new, once⟩ := List.nodup_cons.mp once
    rcases List.mem_cons.mp inside with same | inside
    · cases same
      have others := erase_of_notMem (t := ⟨rest⟩) new
      simp only [erase, mk.injEq] at others
      rw [List.filter_cons_of_neg (by simp), others]
    · have different : k ≠ key := fun same =>
        new (same ▸ List.mem_map.mpr ⟨_, inside, rfl⟩)
      rw [List.filter_cons_of_pos (by simpa using different)]
      exact ((ih once inside).cons _).trans (.swap _ _ _)

/-- A key that is set has one entry, whatever it had before. -/
theorem perm_entries_set {t : Table κ α} (once : t.keys.Nodup) (key : κ) (value : α) :
    (t.set key value).entries.Perm ((key, value) :: (t.erase key).entries) := by
  obtain ⟨entries⟩ := t
  simp only [set, erase, keys] at *
  induction entries with
  | nil => exact .refl _
  | cons entry rest ih =>
    obtain ⟨k, v⟩ := entry
    obtain ⟨new, once⟩ := List.nodup_cons.mp once
    by_cases h : k = key
    · subst h
      have others := erase_of_notMem (t := ⟨rest⟩) new
      simp only [erase, mk.injEq] at others
      rw [List.filter_cons_of_neg (by simp), others]
      simp [put]
    · rw [List.filter_cons_of_pos (by simpa using h)]
      simp only [put, h, if_false]
      exact ((ih once).cons _).trans (.swap _ _ _)

/-- What a value that is set shares with the one that its key had stays as it is. -/
theorem map_entries_set {β : Type} {view : κ × α → β} {t : Table κ α} {key : κ} {old value : α}
    (found : t.get? key = some old) (same : view (key, value) = view (key, old)) :
    (t.set key value).entries.map view = t.entries.map view := by
  obtain ⟨entries⟩ := t
  simp only [get?, set] at *
  induction entries with
  | nil => cases found
  | cons entry rest ih =>
    obtain ⟨k, v⟩ := entry
    by_cases h : k = key
    · subst h
      simp only [find?, if_true, Option.some.injEq] at found
      simp [put, found, same]
    · simp only [find?, h, if_false] at found
      simp [put, h, ih found]

theorem nodup_keys_erase {t : Table κ α} (once : t.keys.Nodup) (key : κ) :
    (t.erase key).keys.Nodup := by
  rw [keys_erase]
  exact once.filter _

theorem nodup_keys_set {t : Table κ α} (once : t.keys.Nodup) (key : κ) (value : α) :
    (t.set key value).keys.Nodup := by
  refine ((perm_entries_set once key value).map _).nodup_iff.mpr (List.nodup_cons.mpr ⟨?_, ?_⟩)
  · intro inside
    have inside : key ∈ (t.erase key).keys := inside
    simp [keys_erase] at inside
  · exact nodup_keys_erase once key

end Table
end Collage
