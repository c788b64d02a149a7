import Collage.Proofs.Json.Scalars
import Collage.Proofs.Program.Logs
import Collage.Proofs.Scene.Renaming
import Collage.Proofs.Uniform.Reconcile

/-!
# How much a comment can list

An array that is read has no more items than the reader has steps (`Json.itemCount_read_le`), and
these are bounded by the length of the text.  So no source that fits into memory lists more choices
for a uniform than double precision can number (`Uniform.countable_of_length_le`).
-/

namespace Collage

/-! ### Arrays that are read -/

namespace Json

/-- How many items an array has; anything else has none. -/
def itemCount : Json → Nat
  | array items => items.length
  | _ => 0

section

variable {negative : Bool} {text rest : List Char} {json : Json}

theorem depth_readExponent {significand : Nat} {start : Int}
    (read : readExponent negative significand start text = .ok (json, rest)) :
    json.depth = 0 := by
  rw [readExponent_eq] at read
  dsimp only at read
  split at read
  · cases read
  · split at read <;> cases read
    rfl

theorem depth_finishNumber {significand : Nat} {exponent : Int}
    (read : finishNumber negative significand exponent text = .ok (json, rest)) :
    json.depth = 0 := by
  cases text with
  | nil =>
    rw [finishNumber] at read
    split at read <;> cases read
    rfl
  | cons c text =>
    rw [finishNumber] at read
    split at read
    · exact depth_readExponent read
    · split at read <;> cases read
      rfl

theorem depth_settle {value : Nat}
    (read : readMagnitude.settle negative value text = .ok (json, rest)) :
    json.depth = 0 := by
  unfold readMagnitude.settle at read
  split at read
  · cases read
    rfl
  · split at read <;> cases read <;> rfl

theorem depth_readMagnitude (read : readMagnitude negative text = .ok (json, rest)) :
    json.depth = 0 := by
  have places : ∀ {whole : Significand} {text : List Char},
      readPlaces negative whole text = .ok (json, rest) → json.depth = 0 := by
    intro whole text read
    cases text with
    | nil =>
      rw [readPlaces] at read
      split at read
      · exact depth_finishNumber read
      · exact depth_settle read
    | cons c text =>
      rw [readPlaces] at read
      split at read
      · split at read
        · cases read
        · exact depth_finishNumber read
      · split at read
        · exact depth_finishNumber read
        · exact depth_settle read
  rw [readMagnitude_eq] at read
  split at read
  · cases read
  · split at read
    · cases read
    · exact places read

theorem depth_readScalar {c : Char} (read : readScalar c text = .ok (json, rest)) :
    json.depth = 0 := by
  unfold readScalar at read
  split at read
  · rw [eq_of_readWord read]
    rfl
  split at read
  · rw [eq_of_readWord read]
    rfl
  split at read
  · rw [eq_of_readWord read]
    rfl
  split at read
  · split at read <;> cases read
    rfl
  split at read
  · exact depth_readMagnitude read
  split at read
  · exact depth_readMagnitude read
  · cases read

end

/-- **An array has no more items than the reader has steps.** -/
theorem length_readItems_le : ∀ (fuel depth : Nat) (first : Bool) (seen : List Json)
    (text : List Char) {items : List Json} {rest : List Char},
    readItems fuel depth first seen text = .ok (items, rest) → items.length ≤ seen.length + fuel
  | 0, _, _, _, _, _, _, read => by
    rw [readItems] at read
    cases read
  | fuel + 1, depth, first, seen, text, items, rest, read => by
    rw [readItems] at read
    split at read
    · cases read
    · cases read
      rw [List.length_reverse]
      exact Nat.le_add_right _ _
    · split at read
      · cases read
      · have fewer := length_readItems_le fuel depth false _ _ read
        rw [List.length_cons] at fewer
        omega

theorem itemCount_readValue_le {fuel depth : Nat} {text rest : List Char} {json : Json}
    (read : readValue fuel depth text = .ok (json, rest)) : json.itemCount ≤ fuel := by
  cases fuel with
  | zero =>
    rw [readValue] at read
    cases read
  | succ fuel =>
    rw [readValue] at read
    split at read
    · cases read
    split at read
    · split at read
      · cases read
      · split at read
        · rename_i items after found
          cases read
          have fewer := length_readItems_le _ _ _ _ _ found
          rw [List.length_nil, Nat.zero_add] at fewer
          exact Nat.le_succ_of_le fewer
        · cases read
    split at read
    · split at read
      · cases read
      · split at read <;> cases read
        exact Nat.zero_le _
    · have flat := depth_readScalar read
      cases json with
      | array items =>
        rw [Json.depth] at flat
        cases flat
      | _ => exact Nat.zero_le _

theorem itemCount_readEntries_le {bound : Nat} : ∀ (fuel depth : Nat) (first : Bool)
    (seen : List (String × Json)) (text : List Char) {entries : List (String × Json)}
    {rest : List Char}, fuel ≤ bound → (∀ entry ∈ seen, entry.2.itemCount ≤ bound) →
    readEntries fuel depth first seen text = .ok (entries, rest) →
    ∀ entry ∈ entries, entry.2.itemCount ≤ bound
  | 0, _, _, _, _, _, _, _, _, read => by
    rw [readEntries] at read
    cases read
  | fuel + 1, depth, first, seen, text, entries, rest, most, known, read => by
    rw [readEntries] at read
    split at read
    · cases read
    · cases read
      exact fun entry inside => known entry (List.mem_reverse.mp inside)
    · split at read
      · cases read
      · rename_i found
        refine itemCount_readEntries_le fuel depth false _ _ (by omega)
          (List.forall_mem_cons.mpr ⟨?_, known⟩) read
        exact (itemCount_readValue_le found).trans (by omega)

/-- The entries of an object that is read have no more items than the text has room for. -/
theorem itemCount_read_le {text : String} {entries : List (String × Json)}
    (read : Json.read text = .ok (.object entries)) :
    ∀ entry ∈ entries, entry.2.itemCount ≤ 2 * text.length + 2 := by
  have front : ∃ rest, readValue (2 * text.length + 2) depthLimit text.toList =
      .ok (.object entries, rest) := by
    unfold Json.read readFront enoughFuel at read
    rw [String.length_toList] at read
    cases found : readValue (2 * text.length + 2) depthLimit text.toList with
    | error fault =>
      rw [found] at read
      cases read
    | ok pair =>
      obtain ⟨value, rest⟩ := pair
      rw [found] at read
      change (do expectEnd rest; return value : Except Fault Json) = _ at read
      cases ended : expectEnd rest with
      | error fault =>
        rw [ended] at read
        cases read
      | ok _ =>
        rw [ended] at read
        cases read
        exact ⟨rest, rfl⟩
  obtain ⟨rest, found⟩ := front
  rw [readValue] at found
  split at found
  · cases found
  split at found
  · split at found
    · cases found
    · split at found <;> cases found
  split at found
  · split at found
    · cases found
    · split at found
      · rename_i entries after inner
        cases found
        exact itemCount_readEntries_le _ _ _ _ _ (Nat.le_succ _) (List.forall_mem_nil _) inner
      · cases found
  · have flat := depth_readScalar found
    rw [Json.depth] at flat
    cases flat

theorem itemCount_canonical (json : Json) : json.canonical.itemCount = json.itemCount := by
  have each : ∀ items : List Json, (canonicalItems items).length = items.length := by
    intro items
    induction items with
    | nil => rw [canonicalItems]
    | cons item rest ih => rw [canonicalItems, List.length_cons, ih, List.length_cons]
  cases json with
  | array items =>
    rw [canonical]
    exact each items
  | object entries =>
    rw [canonical]
    rfl
  | _ => rfl

/-- What is in sorted entries was in the entries, sorted itself. -/
theorem exists_of_mem_canonical {entries sorted : List (String × Json)} {entry : String × Json}
    (same : (object entries).canonical = object sorted) (inside : entry ∈ sorted) :
    ∃ source ∈ entries, entry.2 = source.2.canonical := by
  have each : ∀ entries : List (String × Json), entry ∈ canonicalEntries entries →
      ∃ source ∈ entries, entry.2 = source.2.canonical := by
    intro entries inside
    induction entries with
    | nil => cases inside
    | cons first rest ih =>
      obtain ⟨key, value⟩ := first
      rw [canonicalEntries] at inside
      rcases List.mem_cons.mp inside with rfl | inside
      · exact ⟨_, List.mem_cons_self, rfl⟩
      · obtain ⟨source, there, same⟩ := ih inside
        exact ⟨source, List.mem_cons_of_mem _ there, same⟩
  rw [canonical] at same
  cases same
  exact each entries (mem_sortEntries inside)

end Json

/-! ### Comments -/

theorem length_trimEnd_le (text : List Char) : (trimEnd text).length ≤ text.length := by
  have most := (List.dropWhile_sublist isBlank (l := text.reverse)).length_le
  rw [List.length_reverse] at most
  rwa [trimEnd, List.length_reverse]

theorem length_trim_le (text : List Char) : (trim text).length ≤ text.length :=
  (length_trimEnd_le _).trans (List.dropWhile_sublist isBlank).length_le

theorem length_of_withoutEnd? {ending text rest : List Char}
    (found : withoutEnd? ending text = some rest) : rest.length ≤ text.length := by
  obtain ⟨back, cut, rfl⟩ := Option.map_eq_some_iff.mp found
  have whole := congrArg List.length (Diagnostic.eq_append_of_withoutStart? cut)
  rw [List.length_reverse, List.length_append] at whole
  rw [List.length_reverse]
  omega

namespace Relaxed

/-- A string takes two characters for one at most, besides the quote that ends it. -/
theorem length_stringSpan_le (quote : Char) (text : List Char) :
    (stringSpan quote text).1.length + 2 * (stringSpan quote text).2.length ≤
      2 * text.length + 1 := by
  fun_induction stringSpan quote text with
  | case1 => exact le_rfl
  | case2 c rest inner after found ih =>
    rw [found] at ih
    simp only [List.length_cons] at ih ⊢
    omega
  | case3 c rest =>
    simp only [List.length_cons, List.length_nil]
    omega
  | case4 c rest _ other inner after found ih =>
    rw [found] at ih
    split <;> simp only [List.length_cons] at ih ⊢ <;> omega

/-- The strict notation takes three characters for one at most: a key of one letter gets two
quotes. -/
theorem length_quoteKeysSteps_le (steps : Nat) (last : Option Char) (text : List Char) :
    (quoteKeysSteps steps last text).length ≤ 3 * text.length := by
  fun_induction quoteKeysSteps steps last text with
  | case1 | case2 => exact Nat.zero_le _
  | case3 steps last c rest quote inner after found ih =>
    have short := length_stringSpan_le c rest
    rw [found] at short
    simp only [List.length_cons, List.length_append, List.cons_append] at short ⊢
    omega
  | case4 steps last c rest quote key word after isKey shown ih =>
    have parts : (rest.takeWhile isKeyPart).length + after.length = rest.length := by
      rw [← List.length_append, List.takeWhile_append_dropWhile]
    have shownLength : shown.length ≤ word.length + 2 := by
      dsimp only [shown]
      split
      · simp
      · exact Nat.le_add_right _ _
    have wordLength : word.length = (rest.takeWhile isKeyPart).length + 1 := List.length_cons
    rw [List.length_append, List.length_cons]
    omega
  | case5 steps last c rest quote key ih =>
    rw [List.length_cons, List.length_cons]
    omega

theorem length_commentBody_le (text : List Char) : (commentBody text).length ≤ text.length := by
  have trimmed := length_trim_le text
  unfold commentBody
  split
  · rename_i rest same
    rw [same] at trimmed
    have inner := length_trim_le rest
    simp only [List.length_cons] at trimmed
    omega
  · rename_i rest same
    rw [same] at trimmed
    have inner := length_trim_le ((withoutEnd? ['*', '/'] (trimEnd rest)).getD rest)
    have ended : ((withoutEnd? ['*', '/'] (trimEnd rest)).getD rest).length ≤ rest.length := by
      cases cut : withoutEnd? ['*', '/'] (trimEnd rest) with
      | none => exact le_rfl
      | some front => exact (length_of_withoutEnd? cut).trans (length_trimEnd_le rest)
    simp only [List.length_cons] at trimmed
    omega
  · exact trimmed

/-- **What a comment lists** has no more items than six for each of its characters, and fourteen. -/
theorem itemCount_parseObject_le {text : List Char} {entries : List (String × Json)}
    (parsed : parseObject text = some entries) :
    ∀ entry ∈ entries, entry.2.itemCount ≤ 6 * text.length + 14 := by
  intro entry inside
  unfold parseObject at parsed
  extract_lets body wrapped at parsed
  split at parsed
  · cases parsed
  split at parsed
  case h_2 => cases parsed
  rename_i json read
  split at parsed
  case h_2 => cases parsed
  rename_i sorted canonical
  cases parsed
  have bodyLength : body.length ≤ text.length := length_commentBody_le text
  have wrappedLength : wrapped.length ≤ body.length + 2 := by
    dsimp only [wrapped]
    split
    · exact Nat.le_add_right _ _
    · simp
  have quoted := length_quoteKeysSteps_le wrapped.length none wrapped
  cases json with
  | object source =>
    obtain ⟨origin, there, same⟩ := Json.exists_of_mem_canonical canonical inside
    have few := Json.itemCount_read_le read origin there
    rw [String.length_ofList] at few
    rw [same, Json.itemCount_canonical]
    unfold quoteKeys at few
    omega
  | _ => cases canonical

end Relaxed

/-! ### Declarations -/

/-- What follows a declaration on its line stands in the source. -/
theorem length_trailingText_le (source : List Char) (offset : Nat) :
    (trailingText source offset).length ≤ source.length := by
  have dropped : ∀ (source : List Char) (offset : Nat),
      (dropBytes offset source).length ≤ source.length := by
    intro source offset
    fun_induction dropBytes offset source with
    | case1 | case2 => exact le_rfl
    | case3 offset c rest _ ih => exact ih.trans (Nat.le_succ _)
  rw [trailingText, String.length_ofList]
  exact (length_trim_le _).trans <|
    (List.takeWhile_sublist _).length_le.trans (dropped source offset)

theorem trailing_uniformStatement {source : List Char} {tokens : List Token}
    {d : UniformDeclaration} (inside : d ∈ (uniformStatement source tokens).1) :
    ∃ offset, d.trailing = trailingText source offset := by
  unfold uniformStatement at inside
  extract_lets typed at inside
  clear_value typed
  cases typed with
  | nil => cases inside
  | cons type rest =>
    dsimp only at inside
    split at inside
    · cases inside
    · split at inside
      · cases inside
      · obtain ⟨name, -, rfl⟩ := List.mem_map.mp inside
        exact ⟨_, rfl⟩

theorem length_trailing_le {source : List Char} {d : UniformDeclaration}
    (inside : d ∈ uniformDeclarations source) : d.trailing.length ≤ source.length := by
  have stands : ∀ (steps : Nat) (tokens : List Token),
      d ∈ uniformDeclarationsIn source steps tokens →
      ∃ offset, d.trailing = trailingText source offset := by
    intro steps tokens
    fun_induction uniformDeclarationsIn source steps tokens with
    | case1 | case2 => exact fun inside => absurd inside List.not_mem_nil
    | case3 steps token rest opens found after statement ih =>
      intro inside
      rcases List.mem_append.mp inside with first | later
      · exact trailing_uniformStatement (by rw [statement]; exact first)
      · exact ih later
    | case4 steps token rest other ih => exact ih
  obtain ⟨offset, same⟩ := stands _ _ inside
  rw [same]
  exact length_trailingText_le source offset

theorem Metadata.length_options_le {comment : String} {names : List Json}
    (listed : (Metadata.parse comment).options = some (.array names)) :
    names.length ≤ 6 * comment.length + 14 := by
  unfold Metadata.parse at listed
  split at listed
  · rename_i raw parsed
    obtain ⟨entry, found, same⟩ := Option.map_eq_some_iff.mp listed
    have few := Relaxed.itemCount_parseObject_le parsed entry
      (List.mem_reverse.mp (List.mem_of_find?_eq_some found))
    rwa [same, String.length_toList] at few
  · cases listed

namespace Uniform

/-- **No source that fits into memory** lists more choices than double precision can number. -/
theorem countable_of_length_le {source : List Char} (small : source.length ≤ 2 ^ 50) :
    ∀ d ∈ declared source, d.settings.Countable := by
  intro d inside names listed
  obtain ⟨declaration, there, same⟩ := List.mem_filterMap.mp inside
  obtain ⟨kind, -, rfl⟩ := Option.map_eq_some_iff.mp same
  have few := Metadata.length_options_le listed
  have short := length_trailing_le (Mangle.mem_firstOfEach there)
  omega

end Uniform
end Collage
