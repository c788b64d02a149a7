import Collage.Proofs.Document.Layers
import Collage.Proofs.Json.Rereading

/-!
# Reading documents that were written

The text of a document is read as the document (`Layer.read_pretty`), when the document is
`Proper` and `Layer.Writable`: its numbers are finite and come back from their own texts, and it
is not nested deeper than the reader goes.  The root is read entry by entry, its type first
(`Layer.readRootEntries_listed`), and everything in an entry as any other value.
-/

namespace Collage

open Json (ReadAs ReadAsEntries Each EachItem EachEntry Whole)

namespace Json

/-! ### Whole numbers -/

section

variable {α : Type} {p : Json → Prop} {encode : α → Json}

theorem eachItem_map {values : List α} (each : ∀ value ∈ values, Each p (encode value)) :
    EachItem p (values.map encode) := by
  induction values with
  | nil => trivial
  | cons value values ih =>
    obtain ⟨first, rest⟩ := List.forall_mem_cons.mp each
    exact ⟨first, ih rest⟩

theorem eachEntry_map {entries : List (String × α)}
    (each : ∀ entry ∈ entries, Each p (encode entry.2)) :
    EachEntry p (entries.map fun entry => (entry.1, encode entry.2)) := by
  induction entries with
  | nil => trivial
  | cons entry entries ih =>
    obtain ⟨first, rest⟩ := List.forall_mem_cons.mp each
    exact ⟨first, ih rest⟩

theorem eachEntry_zip : ∀ (names : List String) {values : List Json},
    (∀ value ∈ values, Each p value) → EachEntry p (names.zip values)
  | [], _, _ => trivial
  | _ :: _, [], _ => trivial
  | _ :: names, _ :: _, each =>
    ⟨each _ List.mem_cons_self,
      eachEntry_zip names fun value inside => each value (List.mem_cons_of_mem _ inside)⟩

end

theorem whole_ofDouble (x : Float) : (ofDouble x).Whole := by
  unfold ofDouble
  split <;> trivial

theorem whole_ofSingle (x : Float32) : (ofSingle x).Whole := by
  unfold ofSingle
  split <;> trivial

theorem legible_ofDouble {x : Float} (legible : x.Legible) : (ofDouble x).Legible := by
  unfold ofDouble
  split
  · exact legible
  · trivial

theorem legible_ofSingle {x : Float32} (legible : x.Legible) : (ofSingle x).Legible := by
  unfold ofSingle
  split
  · exact legible
  · trivial

end Json

theorem ButtonBindings.whole_encode (bindings : ButtonBindings) : (encode bindings).Whole :=
  @Json.eachEntry_map _ _ Json.string _ fun _ _ => trivial

theorem AxisBinding.whole_encode (binding : AxisBinding) : binding.encode.Whole := by
  cases binding with
  | axis name => trivial
  | buttons values otherwise =>
    exact ⟨Json.eachEntry_map fun entry _ => Json.whole_ofDouble entry.2,
      Json.whole_ofDouble otherwise, trivial⟩

theorem AxisBindings.whole_encode (bindings : AxisBindings) : (encode bindings).Whole :=
  Json.eachEntry_map fun entry _ => entry.2.whole_encode

theorem Curve.whole_encode (curve : Curve) : curve.encode.Whole := by
  refine ⟨Json.whole_ofDouble _, Json.whole_ofDouble _, ?_, trivial⟩
  cases curve.input with
  | time duration looping => exact ⟨trivial, Json.whole_ofDouble duration, trivial, trivial⟩
  | button bindings => exact ⟨trivial, bindings.whole_encode, trivial⟩
  | axis bindings => exact ⟨trivial, bindings.whole_encode, trivial⟩
  | _ => exact ⟨trivial, trivial⟩

theorem Value.whole_encodePayload {value : Value} (proper : value.Proper) :
    value.encodePayload.Whole := by
  have word : ∀ {n : Int}, int64Lowest ≤ n ∧ n ≤ int64Highest → (Json.int n).Whole :=
    fun fits => ⟨fits.1, fits.2.trans (by decide)⟩
  cases value with
  | float value => exact Json.whole_ofDouble value
  | int value => exact word proper
  | vector values => exact Json.eachItem_map fun value _ => Json.whole_ofDouble value
  | intVector values => exact Json.eachItem_map fun value inside => word (proper value inside)
  | bool value => trivial
  | boolVector values => exact Json.eachItem_map fun _ _ => trivial
  | choice code => exact word proper
  | sampler texture => exact ⟨trivial, trivial, trivial, trivial⟩
  | gradient ramp =>
    refine ⟨Json.eachItem_map fun stop _ => ⟨Json.whole_ofSingle _, ?_, trivial⟩, trivial⟩
    exact Json.eachItem_map fun channel _ => Json.whole_ofSingle channel
  | button bindings => exact ButtonBindings.whole_encode bindings
  | axis bindings => exact AxisBindings.whole_encode bindings

theorem ShaderValue.whole_encode {value : ShaderValue} (proper : value.Proper) :
    value.encode.Whole := by
  obtain ⟨name, payload, curve⟩ := value
  cases curve with
  | none => exact ⟨trivial, trivial, Value.whole_encodePayload proper.1, trivial⟩
  | some curve =>
    exact ⟨trivial, trivial, Value.whole_encodePayload proper.1, curve.whole_encode, trivial⟩

namespace Layer

mutual

/-- The integers that are written for a proper layer fit 64 bits. -/
theorem whole_encode : ∀ {layer : Layer}, layer.Proper → layer.encode.Whole
  | group head blend opacity children, proper => by
    rw [encode_eq]
    refine ⟨trivial, Json.eachEntry_zip _ ?_⟩
    rw [fieldValues]
    simp only [List.forall_mem_cons]
    exact ⟨trivial, trivial, trivial, trivial, Json.whole_ofSingle _,
      Json.eachItem_map (whole_encodeAll proper.2), List.forall_mem_nil _⟩
  | code language head blend opacity source values, proper => by
    rw [encode_eq]
    refine ⟨trivial, Json.eachEntry_zip _ ?_⟩
    rw [fieldValues]
    simp only [List.forall_mem_cons]
    exact ⟨trivial, trivial, trivial, trivial, Json.whole_ofSingle _, trivial,
      Json.eachItem_map fun value inside => ShaderValue.whole_encode (proper value inside),
      List.forall_mem_nil _⟩
  | distance head source values operands, proper => by
    rw [encode_eq]
    refine ⟨trivial, Json.eachEntry_zip _ ?_⟩
    rw [fieldValues]
    simp only [List.forall_mem_cons]
    exact ⟨trivial, trivial, trivial, trivial,
      Json.eachItem_map fun value inside => ShaderValue.whole_encode (proper.1 value inside),
      Json.eachItem_map (whole_encodeAll proper.2), List.forall_mem_nil _⟩

theorem whole_encodeAll : ∀ {layers : List Layer},
    AllIn (fun layer => ∀ value ∈ layer.values, value.Proper) layers →
      ∀ layer ∈ layers, layer.encode.Whole
  | [], _ => fun _ inside => absurd inside List.not_mem_nil
  | _ :: _, proper => List.forall_mem_cons.mpr ⟨whole_encode proper.1, whole_encodeAll proper.2⟩

end

/-! ### Reading the root -/

open Json (listed gap prettyAt prettyEntries quoted depthLimit enoughFuel)

theorem readTag_typeName (layer : Layer) (depth : Nat) (rest : List Char) :
    readTag depth (' ' :: ((quoted layer.typeName).toList ++ rest)) =
      .ok (layer.typeIndex, rest) := by
  have shown : (quoted layer.typeName).toList ++ rest =
      '"' :: (layer.typeName.toList.flatMap Json.escapeChar ++ '"' :: rest) := by
    rw [Json.toList_quoted]
    simp
  have visible : Json.skipSpace (' ' :: ((quoted layer.typeName).toList ++ rest)) =
      (quoted layer.typeName).toList ++ rest := by
    rw [shown]
    rfl
  unfold readTag
  rw [visible, shown]
  change (Json.readFront depth ('"' :: (layer.typeName.toList.flatMap Json.escapeChar ++
    '"' :: rest)) >>= _) = _
  rw [← shown, Json.readFront, enoughFuel, Json.readValue_string]
  simp only [bind, Except.bind, layer.tagIndex_typeName]
  rfl

section

variable {fuel : Nat} {index : Option Nat} {first : Bool} {seen : List (String × Json)}
  {text rest behind : List Char}

theorem readRootEntries_type {found : Nat}
    (keyed : Json.readKeyOnly first text = .ok (some "type", ':' :: rest))
    (tagged : readTag (depthLimit - 1) rest = .ok (found, behind)) :
    readRootEntries (fuel + 1) none first seen text =
      readRootEntries fuel (some found) false seen behind := by
  rw [readRootEntries, keyed]
  change (readTag (depthLimit - 1) rest >>= _) = _
  rw [tagged]
  rfl

theorem readRootEntries_other {key : String} {value : Json} (other : key ≠ "type")
    (keyed : Json.readKeyOnly first text = .ok (some key, ':' :: rest))
    (found : Json.readFront (depthLimit - 1) rest = .ok (value, behind)) :
    readRootEntries (fuel + 1) index first seen text =
      readRootEntries fuel index false ((key, value) :: seen) behind := by
  rw [readRootEntries, keyed]
  change (if key = "type" then _ else Json.readFront (depthLimit - 1) rest >>= _) = _
  rw [if_neg other, found]
  rfl

end

/-- The entries of a root behind its type. -/
theorem readRootEntries_listed (index : Nat) (rest : List Char) :
    ∀ {entries : List (String × Json)}, (∀ entry ∈ entries, entry.2.Rereads) →
      "type" ∉ entries.map (·.1) → Json.depthOfEntries entries ≤ depthLimit - 1 →
        ∀ (first : Bool) (fuel : Nat) (seen : List (String × Json)),
          (listed 1 first (prettyEntries 1 entries)).length < fuel →
            ∃ found, ReadAsEntries entries found ∧
              readRootEntries fuel (some index) first seen
                (listed 1 first (prettyEntries 1 entries) ++ (gap 0 ++ '}' :: rest)) =
                  .ok ((index, .object (seen.reverse ++ found)), rest)
  | [], _, _, _, first, fuel, seen, long => by
    obtain ⟨fuel, rfl⟩ := Nat.exists_eq_succ_of_ne_zero (Nat.ne_zero_of_lt long)
    refine ⟨[], .nil, ?_⟩
    rw [prettyEntries, listed, List.nil_append, readRootEntries, Json.readKeyOnly_end,
      List.append_nil]
    rfl
  | (key, value) :: entries, each, other, shallow, first, fuel, seen, long => by
    obtain ⟨fuel, rfl⟩ := Nat.exists_eq_succ_of_ne_zero (Nat.ne_zero_of_lt long)
    obtain ⟨rereads, each⟩ := List.forall_mem_cons.mp each
    have rereads : value.Rereads := rereads
    rw [Json.depthOfEntries] at shallow
    rw [List.map_cons, List.mem_cons, not_or] at other
    rw [prettyEntries] at long ⊢
    have shorter := Json.length_listed_cons 1 first (quoted key ++ ": " ++ prettyAt 1 value)
      (prettyEntries 1 entries)
    let behind := listed 1 false (prettyEntries 1 entries) ++ (gap 0 ++ '}' :: rest)
    obtain ⟨head, asHead, readHead⟩ := rereads 1
      (enoughFuel (' ' :: ((prettyAt 1 value).toList ++ behind))) (le_of_max_le_left shallow)
      (Json.ends_listed 1 0 (prettyEntries 1 entries) ('}' :: rest))
      (by unfold enoughFuel; simp only [List.length_cons, List.length_append]; omega)
    obtain ⟨found, asEntries, readRest⟩ := readRootEntries_listed index rest each other.2
      (le_of_max_le_right shallow) false fuel ((key, head) :: seen) (by omega)
    refine ⟨(key, head) :: found, .cons key asHead asEntries, ?_⟩
    have readFront : Json.readFront (depthLimit - 1)
        (' ' :: ((prettyAt 1 value).toList ++ behind)) = .ok (head, behind) := by
      rw [Json.readFront, Json.readValue_space]
      exact readHead
    rw [readRootEntries_other (Ne.symm other.1) (Json.readKeyOnly_listed _ _ _ _ _ _) readFront,
      readRest, List.reverse_cons, List.append_assoc, List.singleton_append]

/-- Whether all that is written of a document can be read again: its numbers are finite and are
read from their own texts, and it is not nested too deep. -/
structure Writable (document : Layer) : Prop where
  finite : document.Finite
  legible : document.encode.Legible
  shallow : document.encode.depth ≤ depthLimit

/-- What stands in the text of a document behind the first brace. -/
def rootLines (document : Layer) : List Char :=
  listed 1 true ((quoted "type" ++ ": " ++ quoted document.typeName) ::
    prettyEntries 1 (document.fieldNames.zip document.fieldValues)) ++ (gap 0 ++ ['}'])

theorem toList_pretty (document : Layer) :
    document.pretty.toList = '{' :: document.rootLines := by
  unfold pretty Json.pretty
  rw [encode_eq, Json.toList_prettyAt_object]
  rfl

theorem read_of_brace {text : String} {inner : List Char} (begins : text.toList = '{' :: inner) :
    Layer.read text = (do
      let ((index, body), rest) ← readRootEntries (2 * inner.length + 2) none true [] inner
      match decodeRoot index body with
      | none => throw .mismatched
      | some layer =>
        Json.expectEnd rest
        return layer) := by
  unfold Layer.read
  rw [begins, Json.skipSpace_of_visible rfl]
  rfl

/-- **A document is read from its text.** -/
theorem read_pretty {document : Layer} (proper : document.Proper) (writable : document.Writable) :
    Layer.read document.pretty = .ok document := by
  obtain ⟨finite, legible, shallow⟩ := writable
  have whole := whole_encode proper
  rw [encode_eq] at legible whole shallow
  have each := Json.rereads_entries _ legible whole
  rw [Json.depth, Json.depthOfEntries] at shallow
  let fields := document.fieldNames.zip document.fieldValues
  let tag := quoted "type" ++ ": " ++ quoted document.typeName
  let parts := prettyEntries 1 fields
  have others : "type" ∉ fields.map (·.1) := by
    intro inside
    obtain ⟨⟨name, value⟩, pair, same⟩ := List.mem_map.mp inside
    exact document.type_notMem_fieldNames (same ▸ (List.of_mem_zip pair).1)
  have long : (listed 1 false parts).length < 2 * document.rootLines.length + 1 := by
    have shorter := Json.length_listed_cons 1 true tag parts
    have whole : document.rootLines.length =
        (listed 1 true (tag :: parts)).length + (gap 0 ++ ['}']).length := List.length_append
    omega
  obtain ⟨found, asEntries, readRest⟩ := readRootEntries_listed document.typeIndex []
    (List.forall_mem_cons.mp each).2 others (by omega) false (2 * document.rootLines.length + 1)
    [] long
  have root : readRootEntries (2 * document.rootLines.length + 2) none true []
      document.rootLines = _ :=
    readRootEntries_type
      (Json.readKeyOnly_listed true 1 "type" (quoted document.typeName) parts (gap 0 ++ ['}']))
      (readTag_typeName document (depthLimit - 1) _)
  rw [read_of_brace document.toList_pretty, root, readRest]
  simp only [bind, Except.bind, List.reverse_nil, List.nil_append,
    decodeRoot_fields proper finite (.object asEntries)]
  rfl

/-! ### Texts that are written out -/

/-- What a flat layer consists of.  Layers contain each other and cannot be compared by
evaluation; these can. -/
def flatParts? : Layer → Option ((CodeLanguage × LayerHead) × (BlendMode × Float32) ×
    String × List ShaderValue)
  | code language head blend opacity source values =>
    some ((language, head), (blend, opacity), source, values)
  | _ => none

/-- A text is read as a flat layer if what is read consists of the same. -/
theorem read_eq_code {text : String} {language : CodeLanguage} {head : LayerHead}
    {blend : BlendMode} {opacity : Float32} {source : String} {values : List ShaderValue}
    (parts : (Layer.read text).toOption.bind flatParts? =
      some ((language, head), (blend, opacity), source, values)) :
    Layer.read text = .ok (code language head blend opacity source values) := by
  obtain ⟨layer, ended, same⟩ := Option.bind_eq_some_iff.mp parts
  cases found : Layer.read text with
  | error fault =>
    rw [found] at ended
    cases ended
  | ok other =>
    rw [found] at ended
    cases ended
    cases layer with
    | code =>
      cases same
      rfl
    | group => cases same
    | distance => cases same

end Layer
end Collage
