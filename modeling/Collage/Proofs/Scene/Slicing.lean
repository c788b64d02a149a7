import Collage.Proofs.Scene.Indices
import Collage.Proofs.Scene.InPlace
import Collage.Proofs.Scene.Renaming
import Collage.Proofs.Shader.Covering

/-!
# Nothing is cut inside a character

The names of a layer are sought with a look at the bytes on either side, and the suffix is put in by
copying the source from place to place.  `occurrences?`, `layerSpans?` and `mangled?` do so, again
with nothing for whatever is beyond the source or would be cut inside a character.  A name ends
where a character begins, as it stands there with all its characters
(`isPlace_of_mem_occurrences`).

`scanning_safe` puts this together with the scanner and with the reading by indices: on no source
does any of it fail, and the tokens are faithful to the source.
-/

namespace Collage
namespace Scanner

/-! ### Names and their suffixes -/

/-- The places at which a name is spelled, each sought behind the last one, in a text that `offset`
bytes come before and of which the first `skip` characters belong to the last one. -/
def matchesFrom (name : List Char) (offset skip : ℕ) : List Char → List ℕ
  | [] => []
  | c :: rest =>
    match skip with
    | skip + 1 => matchesFrom name (offset + c.utf8Size) skip rest
    | 0 =>
      if name.isPrefixOf (c :: rest) then
        offset :: matchesFrom name (offset + c.utf8Size) (name.length - 1) rest
      else matchesFrom name (offset + c.utf8Size) 0 rest

/-- Whether no name goes on at either side of the bytes from a place on. -/
def free? (bytes : List UInt8) (size place : ℕ) : Option Bool := do
  let before ← anyBefore? isIdentifierPart bytes place
  return !before && !bytes[place + size]?.any isIdentifierByte

/-- The places at which no name goes on at either side. -/
def freePlaces? (bytes : List UInt8) (size : ℕ) : List ℕ → Option (List ℕ)
  | [] => some []
  | place :: places => do
    let free ← free? bytes size place
    let later ← freePlaces? bytes size places
    return if free then place :: later else later

/-- The places at which a name stands as a whole identifier. -/
def occurrences? (source name : List Char) : Option (List ℕ) :=
  if name.isEmpty then some []
  else freePlaces? (bytesOf source) (byteSize name) (matchesFrom name 0 0 source)

/-- The places of all names in a source that have to be kept apart. -/
def layerSpans? (source : List Char) (uniforms : List (String × List ℕ)) :
    Option (List Mangle.Span) := do
  let functions ← functions? source
  let fixed := ["map", "gSdfMap"].filter (!functions.contains ·)
  let spans ← (functions ++ fixed).mapM fun name => do
    let places ← occurrences? source name.toList
    return places.map fun offset => (offset, name.utf8ByteSize)
  return (uniforms.flatMap fun (name, offsets) =>
    offsets.map fun offset => (offset, name.utf8ByteSize)) ++ spans.flatten

/-- The code of a layer with its suffix behind all of these names. -/
def mangled? (source : List Char) (uniforms : List (String × List ℕ)) (suffix : List Char) :
    Option (List Char) := do
  let spans ← layerSpans? source uniforms
  Mangle.copied? source suffix 0 (Mangle.stops source spans)

theorem free?_eq (front name back : List Char) :
    free? (bytesOf (front ++ (name ++ back))) (byteSize name) (byteSize front) =
      some (!front.getLast?.any isIdentifierPart && !back.head?.any isIdentifierPart) := by
  have behind := getElem?_bytesOf (front ++ name) back 0
  have next : (bytesOf back).head?.any isIdentifierByte = back.head?.any isIdentifierPart :=
    any_head?_bytesOf Bytewise.identifierPart back
  rw [Nat.add_zero, ← List.head?_eq_getElem?, byteSize_append, List.append_assoc] at behind
  rw [free?, anyBefore?_eq Bytewise.identifierPart, behind, next]
  rfl

theorem freePlaces?_eq (name text front : List Char) (skip : ℕ) :
    freePlaces? (bytesOf (front ++ text)) (byteSize name)
        (matchesFrom name (byteSize front) skip text) =
      some (occurrencesFrom name front.getLast? (byteSize front) skip text) := by
  induction text generalizing front skip with
  | nil => rfl
  | cons c rest ih =>
    have later (skip : ℕ) := ih (front ++ [c]) skip
    have size : byteSize (front ++ [c]) = byteSize front + c.utf8Size := by simp
    simp only [← List.append_cons, size, List.getLast?_concat] at later
    cases skip with
    | succ skip => exact later skip
    | zero =>
      rw [matchesFrom, occurrencesFrom]
      dsimp only
      by_cases here : name.isPrefixOf (c :: rest) = true
      · obtain ⟨back, whole⟩ := List.isPrefixOf_iff_prefix.mp here
        have free := free?_eq front name back
        rw [whole] at free
        have behind : (c :: rest).drop name.length = back := by rw [← whole, List.drop_left]
        rw [if_pos here, if_pos here, freePlaces?, free, later, behind]
        simp only [Option.bind_eq_bind, Option.bind_some]
        split <;> rfl
      · rw [if_neg here, if_neg here, later]

theorem occurrences?_eq (source name : List Char) :
    occurrences? source name = some (occurrences source name) := by
  rw [occurrences?, occurrences]
  split
  · rfl
  · exact freePlaces?_eq name source [] 0

theorem layerSpans?_eq (source : String) (uniforms : List (String × List ℕ)) :
    layerSpans? source.toList uniforms = some (Mangle.layerSpans source uniforms) := by
  rw [layerSpans?, functions?_eq, Mangle.layerSpans]
  simp only [occurrences?_eq, Option.bind_eq_bind, Option.bind_some, List.mapM_pure,
    List.flatMap_def]
  rfl

/-- A name that is found stands there with all its characters. -/
theorem exists_of_mem_occurrencesFrom (name text : List Char) {previous : Option Char}
    {offset skip place : ℕ} (inside : place ∈ occurrencesFrom name previous offset skip text) :
    ∃ front back, text = front ++ (name ++ back) ∧ offset + byteSize front = place := by
  induction text generalizing previous offset skip with
  | nil => cases inside
  | cons c rest ih =>
    have later {skip : ℕ} (inside : place ∈ occurrencesFrom name (some c) (offset + c.utf8Size) skip
        rest) : ∃ front back, c :: rest = front ++ (name ++ back) ∧
          offset + byteSize front = place := by
      obtain ⟨front, back, rfl, rfl⟩ := ih inside
      exact ⟨c :: front, back, rfl, by rw [byteSize_cons, Nat.add_assoc]⟩
    unfold occurrencesFrom at inside
    dsimp only at inside
    split at inside
    · exact later inside
    · split at inside
      · next here =>
        obtain ⟨back, whole⟩ := List.isPrefixOf_iff_prefix.mp here
        split at inside
        · rcases List.mem_cons.mp inside with rfl | inside
          · exact ⟨[], back, whole.symm, rfl⟩
          · exact later inside
        · exact later inside
      · exact later inside

/-- **A name ends where a character begins.** -/
theorem isPlace_of_mem_occurrences {source name : List Char} {place : ℕ}
    (inside : place ∈ occurrences source name) : IsPlace source (place + byteSize name) := by
  unfold occurrences at inside
  split at inside
  · cases inside
  · obtain ⟨front, back, rfl, rfl⟩ := exists_of_mem_occurrencesFrom name source inside
    exact ⟨front ++ name, back, (List.append_assoc ..).symm, by rw [byteSize_append, Nat.zero_add]⟩

theorem isPlace_of_mem_layerSpans {source : String} {names : List String} {span : Mangle.Span}
    (inside : span ∈ Mangle.layerSpans source
      (names.map fun name => (name, occurrences source.toList name.toList))) :
    IsPlace source.toList (span.1 + span.2) := by
  have found : ∃ name : String, ∃ offset ∈ occurrences source.toList name.toList,
      (offset, name.utf8ByteSize) = span := by
    rcases List.mem_append.mp inside with inside | inside
    · obtain ⟨_, named, inside⟩ := List.mem_flatMap.mp inside
      obtain ⟨name, _, rfl⟩ := List.mem_map.mp named
      exact ⟨name, List.mem_map.mp inside⟩
    · obtain ⟨name, _, inside⟩ := List.mem_flatMap.mp inside
      exact ⟨name, List.mem_map.mp inside⟩
  obtain ⟨name, offset, stands, rfl⟩ := found
  rw [Mangle.utf8ByteSize_eq]
  exact isPlace_of_mem_occurrences stands

/-- **No suffix is put into a character.** -/
theorem mangled?_eq (source : String) (names : List String) (suffix : String) :
    let uniforms := names.map fun name => (name, occurrences source.toList name.toList)
    mangled? source.toList uniforms suffix.toList =
      some (Mangle.apply source (Mangle.layerSpans source uniforms) suffix).toList := by
  intro uniforms
  have places : ∀ stop ∈ Mangle.stops source.toList (Mangle.layerSpans source uniforms),
      IsPlace source.toList stop :=
    Mangle.isPlace_of_mem_stops fun span inside _ => isPlace_of_mem_layerSpans inside
  rw [mangled?, layerSpans?_eq, Mangle.toList_apply]
  exact Mangle.copied?_eq (Mangle.pairwise_stops _ _) [] source.toList
    (fun stop _ => Nat.zero_le stop) places

/-! ### Everything together -/

/-- **A source is scanned safely and faithfully, whatever it is.**  The scanner comes to its end
without a look beyond the source or a cut inside a character.  Its tokens are pieces of the source,
one behind the other, and all else is blank or belongs to a comment or a preprocessor line.  What is
built on them is as safe: reading the uniforms, the functions and the signature of a layer, and
putting its suffix in. -/
theorem scanning_safe (source : String) (names : List String) (suffix : String) :
    let text := source.toList
    let uniforms := names.map fun name => (name, occurrences text name.toList)
    scan? text = some (Token.ofSource text) ∧
    Token.Faithful text (Token.ofSource text) ∧
    declarations? text = some (uniformDeclarations text) ∧
    functions? text = some (definedFunctions text) ∧
    signature? source = some (Signature.ofSource source) ∧
    (∀ name, occurrences? text name = some (occurrences text name)) ∧
    mangled? text uniforms suffix.toList =
      some (Mangle.apply source (Mangle.layerSpans source uniforms) suffix).toList := by
  intro text uniforms
  exact ⟨scan?_eq text, Token.faithful_ofSource text, declarations?_eq text, functions?_eq text,
    signature?_eq source, occurrences?_eq text, mangled?_eq source names suffix⟩

end Scanner
end Collage
