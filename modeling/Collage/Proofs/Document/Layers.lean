import Collage.Proofs.Document.Decoding

/-!
# Decoding layers

A layer is decoded from its written form as it was, when all its numbers are finite and its
bindings and integers are `Proper` (`Layer.decodeInner_encode`).  Whatever a decoder gives is
`Proper` (`Layer.proper_of_decodeRoot`), so this asks nothing of a layer that was read.
-/

namespace Collage

open Json (ReadAs ReadAsItems ReadAsEntries Sorted splitTag tagIndex)

/-! ### What can be written -/

namespace CurveInput

/-- Whether bindings are sorted. -/
def Proper : CurveInput → Prop
  | button bindings => Sorted bindings
  | axis bindings => bindings.Proper
  | _ => True

/-- Whether all numbers are finite. -/
def Finite : CurveInput → Prop
  | time duration _ => duration.isFinite
  | axis bindings => bindings.Finite
  | _ => True

end CurveInput

/-- Whether bindings are sorted. -/
def Curve.Proper (curve : Curve) : Prop :=
  curve.input.Proper

/-- Whether all numbers are finite. -/
def Curve.Finite (curve : Curve) : Prop :=
  curve.min.isFinite ∧ curve.max.isFinite ∧ curve.input.Finite

/-- Whether bindings are sorted and integers fit 64 bits. -/
def ShaderValue.Proper (value : ShaderValue) : Prop :=
  value.value.Proper ∧ ∀ curve ∈ value.curve, curve.Proper

/-- Whether all numbers are finite. -/
def ShaderValue.Finite (value : ShaderValue) : Prop :=
  value.value.Finite ∧ ∀ curve ∈ value.curve, curve.Finite

namespace Layer

/-- How far a layer covers what lies below it; a distance layer has no say in it. -/
def opacity? : Layer → Option Float32
  | group _ _ opacity _ => some opacity
  | code _ _ _ opacity _ _ => some opacity
  | distance .. => none

mutual

/-- Whether a layer and all it holds satisfy `p`. -/
def All (p : Layer → Prop) : Layer → Prop
  | group head blend opacity children => p (group head blend opacity children) ∧ AllIn p children
  | code language head blend opacity source values =>
    p (code language head blend opacity source values)
  | distance head source values operands =>
    p (distance head source values operands) ∧ AllIn p operands

/-- The same of layers. -/
def AllIn (p : Layer → Prop) : List Layer → Prop
  | [] => True
  | layer :: rest => All p layer ∧ AllIn p rest

end

/-- Whether the bindings in all layers are sorted and their integers fit 64 bits. -/
def Proper : Layer → Prop :=
  All fun layer => ∀ value ∈ layer.values, value.Proper

/-- Whether all numbers in all layers are finite. -/
def Finite : Layer → Prop :=
  All fun layer => (∀ opacity ∈ layer.opacity?, opacity.isFinite) ∧
    ∀ value ∈ layer.values, value.Finite

end Layer

instance : (input : CurveInput) → Decidable input.Proper
  | .button bindings => inferInstanceAs (Decidable (Sorted bindings))
  | .axis bindings => inferInstanceAs (Decidable (AxisBindings.Proper bindings))
  | .time .. | .audioVolume | .audioPeak | .audioTrough | .audioReactive => .isTrue trivial

instance : (input : CurveInput) → Decidable input.Finite
  | .time duration _ => inferInstanceAs (Decidable (duration.isFinite = true))
  | .axis bindings => inferInstanceAs (Decidable (AxisBindings.Finite bindings))
  | .button _ | .audioVolume | .audioPeak | .audioTrough | .audioReactive => .isTrue trivial

instance (curve : Curve) : Decidable curve.Proper :=
  inferInstanceAs (Decidable curve.input.Proper)

instance (curve : Curve) : Decidable curve.Finite :=
  inferInstanceAs (Decidable (curve.min.isFinite ∧ curve.max.isFinite ∧ curve.input.Finite))

instance (value : ShaderValue) : Decidable value.Proper :=
  inferInstanceAs (Decidable (value.value.Proper ∧ ∀ curve ∈ value.curve, curve.Proper))

instance (value : ShaderValue) : Decidable value.Finite :=
  inferInstanceAs (Decidable (value.value.Finite ∧ ∀ curve ∈ value.curve, curve.Finite))

namespace Layer

section

variable {p : Layer → Prop} [DecidablePred p]

mutual

/-- It can be decided what all layers satisfy if it can be decided for each. -/
def decideAll : (layer : Layer) → Decidable (layer.All p)
  | group _ _ _ children => @instDecidableAnd _ _ inferInstance (decideAllIn children)
  | code .. => inferInstanceAs (Decidable (p _))
  | distance _ _ _ operands => @instDecidableAnd _ _ inferInstance (decideAllIn operands)

/-- The same of layers. -/
def decideAllIn : (layers : List Layer) → Decidable (AllIn p layers)
  | [] => .isTrue trivial
  | layer :: rest => @instDecidableAnd _ _ (decideAll layer) (decideAllIn rest)

end

instance (layer : Layer) : Decidable (layer.All p) :=
  decideAll layer

end

instance (layer : Layer) : Decidable layer.Proper :=
  inferInstanceAs (Decidable (layer.All fun layer => ∀ value ∈ layer.values, value.Proper))

instance (layer : Layer) : Decidable layer.Finite :=
  inferInstanceAs (Decidable (layer.All fun layer =>
    (∀ opacity ∈ layer.opacity?, opacity.isFinite) ∧ ∀ value ∈ layer.values, value.Finite))

end Layer

/-! ### Tagged records -/

namespace Json

theorem ReadAsEntries.keys_eq : ∀ {entries found : List (String × Json)},
    ReadAsEntries entries found → found.map (·.1) = entries.map (·.1)
  | [], _, .nil => rfl
  | (_, _) :: _, _, .cons key _ rest => congrArg (key :: ·) rest.keys_eq

/-- A tagged record comes apart into its tag and its fields. -/
theorem ReadAs.splitTag_eq {tag name : String} (names : List String) (values : List Json)
    {json : Json} (read : ReadAs (.object ((tag, .string name) :: names.zip values)) json)
    (fresh : tag ∉ names) :
    ∃ body, splitTag tag json = some (.string name, body) ∧
      ReadAs (.object (names.zip values)) body := by
  cases read with
  | object each =>
    cases each with
    | @cons _ _ found _ others first rest =>
      cases first
      have other : ∀ entry ∈ others, entry.1 ≠ tag := by
        rintro ⟨key, value⟩ inside rfl
        have there : key ∈ (names.zip values).map (·.1) :=
          rest.keys_eq ▸ List.mem_map_of_mem inside
        obtain ⟨⟨_, _⟩, pair, rfl⟩ := List.mem_map.mp there
        exact fresh (List.of_mem_zip pair).1
      have alone : onlyEntry tag ((tag, .string name) :: others) = some (some (.string name)) := by
        rw [onlyEntry, List.filter_cons_of_pos (by simp), List.filter_eq_nil_iff.mpr]
        intro entry inside same
        exact other entry inside (of_decide_eq_true same)
      have behind : ((tag, Json.string name) :: others).filter (·.1 ≠ tag) = others := by
        rw [List.filter_cons_of_neg (by simp), List.filter_eq_self]
        exact fun entry inside => decide_eq_true (other entry inside)
      refine ⟨.object others, ?_, .object rest⟩
      have split : splitTag tag (.object ((tag, .string name) :: others)) =
          (onlyEntry tag ((tag, .string name) :: others)).bind fun found => found.bind fun value =>
            some (value, .object (((tag, .string name) :: others).filter (·.1 ≠ tag))) := rfl
      rw [split, alone, behind]
      rfl

end Json

/-! ### Curves -/

theorem CurveInput.decode_encode {input : CurveInput} (proper : input.Proper)
    (finite : input.Finite) (byNumber : Bool) {json : Json} (read : ReadAs input.encode json) :
    decode byNumber json = some input := by
  cases input with
  | time duration looping =>
    obtain ⟨body, tagged, read⟩ := read.splitTag_eq ["duration", "repeat"]
      [Json.ofDouble duration, .bool looping] (by decide)
    obtain ⟨found, items, fields⟩ := read.recordFields_eq ["duration", "repeat"]
      [Json.ofDouble duration, .bool looping] (by decide) (by simp)
    obtain _ | ⟨first, _ | ⟨⟨⟩, _ | _⟩⟩ := items
    unfold decode
    rw [tagged]
    simp [Json.tagIndex, names, List.idxOf?, List.findIdx?_cons, fields, Json.orElse,
      first.double?_eq finite, Json.bool?]
  | button bindings =>
    obtain ⟨body, tagged, read⟩ := read.splitTag_eq ["bindings"]
      [ButtonBindings.encode bindings] (by decide)
    obtain ⟨found, items, fields⟩ := read.recordFields_eq ["bindings"]
      [ButtonBindings.encode bindings] (by decide) (by simp)
    obtain _ | ⟨first, _ | _⟩ := items
    unfold decode
    rw [tagged]
    simp [Json.tagIndex, names, List.idxOf?, List.findIdx?_cons, fields, Json.required,
      ButtonBindings.decode_encode proper first]
  | axis bindings =>
    obtain ⟨body, tagged, read⟩ := read.splitTag_eq ["bindings"]
      [AxisBindings.encode bindings] (by decide)
    obtain ⟨found, items, fields⟩ := read.recordFields_eq ["bindings"]
      [AxisBindings.encode bindings] (by decide) (by simp)
    obtain _ | ⟨first, _ | _⟩ := items
    unfold decode
    rw [tagged]
    simp [Json.tagIndex, names, List.idxOf?, List.findIdx?_cons, fields, Json.required,
      AxisBindings.decode_encode proper finite first]
  | audioVolume | audioPeak | audioTrough | audioReactive =>
    obtain ⟨body, tagged, ⟨_⟩⟩ := read.splitTag_eq [] [] (by decide)
    unfold decode
    rw [tagged]
    rfl

theorem Curve.decode_encode {curve : Curve} (proper : curve.Proper) (finite : curve.Finite)
    (byNumber : Bool) {json : Json} (read : ReadAs curve.encode json) :
    decode byNumber json = some curve := by
  obtain ⟨found, items, fields⟩ := read.recordFields_eq ["min", "max", "input"]
    [Json.ofDouble curve.min, Json.ofDouble curve.max, curve.input.encode] (by decide) (by simp)
  obtain _ | ⟨min, _ | ⟨max, _ | ⟨input, _ | _⟩⟩⟩ := items
  unfold decode
  rw [fields]
  simp [Json.orElse, Json.required, min.double?_eq finite.1, max.double?_eq finite.2.1,
    CurveInput.decode_encode proper finite.2.2 byNumber input]

/-! ### Values -/

theorem Value.decode_encode {value : Value} (proper : value.Proper) (finite : value.Finite)
    {json : Json} (read : ReadAs value.encodePayload json) :
    ∃ index, Json.nameIndex typeNames (.string value.typeName) = some index ∧
      decodePayload index json = some value := by
  have int64 : ∀ {n : Int}, int64Lowest ≤ n ∧ n ≤ int64Highest → ∀ {json : Json},
      ReadAs (.int n) json → json.int64? = some n := by
    rintro n fits json ⟨⟩
    exact if_pos fits
  cases value with
  | float value => exact ⟨0, rfl, congrArg (Option.map float) (read.double?_eq finite)⟩
  | int value => exact ⟨1, rfl, congrArg (Option.map int) (int64 proper read)⟩
  | vector values =>
    refine ⟨2, rfl, congrArg (Option.map vector) (read.listOf_eq fun value inside json read => ?_)⟩
    exact read.double?_eq (finite value inside)
  | intVector values =>
    refine ⟨3, rfl, congrArg (Option.map intVector)
      (read.listOf_eq fun value inside json read => ?_)⟩
    exact int64 (proper value inside) read
  | bool value =>
    cases read
    exact ⟨4, rfl, rfl⟩
  | boolVector values =>
    refine ⟨5, rfl, congrArg (Option.map boolVector)
      (read.listOf_eq fun value inside json read => ?_)⟩
    cases read
    rfl
  | choice code => exact ⟨6, rfl, congrArg (Option.map choice) (int64 proper read)⟩
  | sampler texture =>
    exact ⟨7, rfl, congrArg (Option.map sampler) (TextureDescriptor.decode_encode texture read)⟩
  | gradient ramp =>
    exact ⟨8, rfl, congrArg (Option.map gradient) (Gradient.decode_encode finite read)⟩
  | button bindings =>
    exact ⟨9, rfl, congrArg (Option.map button) (ButtonBindings.decode_encode proper read)⟩
  | axis bindings =>
    exact ⟨10, rfl, congrArg (Option.map axis) (AxisBindings.decode_encode proper finite read)⟩

theorem ShaderValue.decode_encode {value : ShaderValue} (proper : value.Proper)
    (finite : value.Finite) (byNumber : Bool) {json : Json} (read : ReadAs value.encode json) :
    decode byNumber json = some value := by
  obtain ⟨name, payload, curve⟩ := value
  cases curve with
  | none =>
    obtain ⟨found, items, fields⟩ := read.objectFields_eq ["name", "type", "value", "curve"]
      [.string name, .string payload.typeName, payload.encodePayload] (by decide) (by simp)
    obtain _ | ⟨⟨⟩, _ | ⟨⟨⟩, _ | ⟨value, _ | _⟩⟩⟩ := items
    obtain ⟨index, kind, decoded⟩ := Value.decode_encode proper.1 finite.1 value
    unfold decode
    rw [fields]
    simp [Json.required, Json.optional, Json.string?, kind, decoded]
  | some curve =>
    obtain ⟨found, items, fields⟩ := read.objectFields_eq ["name", "type", "value", "curve"]
      [.string name, .string payload.typeName, payload.encodePayload, curve.encode]
      (by decide) (by simp)
    obtain _ | ⟨⟨⟩, _ | ⟨⟨⟩, _ | ⟨value, _ | ⟨follows, _ | _⟩⟩⟩⟩ := items
    obtain ⟨index, kind, decoded⟩ := Value.decode_encode proper.1 finite.1 value
    have bent := Curve.decode_encode (proper.2 curve rfl) (finite.2 curve rfl) byNumber follows
    unfold decode
    rw [fields]
    cases follows with
    | object => simp [Json.required, Json.optional, Json.string?, kind, decoded, bent]

theorem BlendMode.decode_name (mode : BlendMode) : decode (.string mode.name) = some mode := by
  cases mode <;> rfl

/-! ### Depth -/

namespace Json

theorem depth_le_of_mem_items {item : Json} {items : List Json} (inside : item ∈ items) :
    item.depth ≤ depthOfItems items := by
  induction items with
  | nil => cases inside
  | cons first rest ih =>
    rw [depthOfItems]
    rcases List.mem_cons.mp inside with rfl | inside
    · exact Nat.le_max_left _ _
    · exact (ih inside).trans (Nat.le_max_right _ _)

theorem depth_le_of_mem_entries {key : String} {value : Json} {entries : List (String × Json)}
    (inside : (key, value) ∈ entries) : value.depth ≤ depthOfEntries entries := by
  induction entries with
  | nil => cases inside
  | cons first rest ih =>
    rw [depthOfEntries]
    rcases List.mem_cons.mp inside with rfl | inside
    · exact Nat.le_max_left _ _
    · exact (ih inside).trans (Nat.le_max_right _ _)

mutual

theorem ReadAs.depth_eq : ∀ {json found : Json}, ReadAs json found → found.depth = json.depth
  | _, _, .null => rfl
  | _, _, .bool _ => rfl
  | _, _, .int _ => rfl
  | _, _, .double _ => rfl
  | _, _, .single _ => rfl
  | _, _, .kept _ => rfl
  | _, _, .string _ => rfl
  | _, _, .array each => by rw [depth, depth, each.depth_eq]
  | _, _, .object each => by rw [depth, depth, each.depth_eq]

theorem ReadAsItems.depth_eq : ∀ {items found : List Json}, ReadAsItems items found →
    depthOfItems found = depthOfItems items
  | _, _, .nil => rfl
  | _, _, .cons first rest => by rw [depthOfItems, depthOfItems, first.depth_eq, rest.depth_eq]

theorem ReadAsEntries.depth_eq : ∀ {entries found : List (String × Json)},
    ReadAsEntries entries found → depthOfEntries found = depthOfEntries entries
  | _, _, .nil => rfl
  | _, _, .cons _ first rest => by
    rw [depthOfEntries, depthOfEntries, first.depth_eq, rest.depth_eq]

end

end Json

/-! ### Layers -/

namespace Layer

theorem All.here {p : Layer → Prop} {layer : Layer} (all : layer.All p) : p layer := by
  cases layer with
  | code => exact all
  | group | distance => exact all.1

theorem AllIn.of_mem {p : Layer → Prop} {layers : List Layer} (all : AllIn p layers) :
    ∀ layer ∈ layers, layer.All p := by
  induction layers with
  | nil => exact fun _ inside => absurd inside List.not_mem_nil
  | cons layer layers ih => exact List.forall_mem_cons.mpr ⟨all.1, ih all.2⟩

theorem All.children {p : Layer → Prop} {layer : Layer} (all : layer.All p) :
    ∀ child ∈ layer.children, child.All p := by
  cases layer with
  | code => exact fun _ inside => absurd inside List.not_mem_nil
  | group | distance => exact AllIn.of_mem all.2

theorem encodeAll_eq (layers : List Layer) : encodeAll layers = layers.map encode := by
  induction layers with
  | nil => rfl
  | cons layer layers ih => rw [encodeAll, ih, List.map_cons]

/-- The place of the kind of a layer among the names of kinds. -/
def typeIndex : Layer → Nat
  | group .. => 0
  | code .shader .. => 1
  | distance .. => 2
  | code .script .. => 3

theorem tagIndex_typeName (layer : Layer) (byNumber : Bool) :
    tagIndex byNumber typeNames (.string layer.typeName) = some layer.typeIndex := by
  cases layer with
  | code language => cases language <;> rfl
  | group | distance => rfl

/-- The names of the fields of a layer behind its type. -/
def fieldNames : Layer → List String
  | group .. => ["id", "name", "visible", "blendMode", "opacity", "layers"]
  | code .. => ["id", "name", "visible", "blendMode", "opacity", "code", "values"]
  | distance .. => ["id", "name", "visible", "code", "values", "layers"]

/-- The fields of a layer behind its type. -/
def fieldValues : Layer → List Json
  | group head blend opacity children =>
    [.string head.id, .string head.name, .bool head.visible, .string blend.name,
      Json.ofSingle opacity, .array (children.map encode)]
  | code _ head blend opacity source values =>
    [.string head.id, .string head.name, .bool head.visible, .string blend.name,
      Json.ofSingle opacity, .string source, .array (values.map ShaderValue.encode)]
  | distance head source values operands =>
    [.string head.id, .string head.name, .bool head.visible, .string source,
      .array (values.map ShaderValue.encode), .array (operands.map encode)]

theorem type_notMem_fieldNames (layer : Layer) : "type" ∉ layer.fieldNames := by
  cases layer <;> simp [fieldNames]

theorem encode_eq (layer : Layer) : layer.encode =
    .object (("type", .string layer.typeName) :: layer.fieldNames.zip layer.fieldValues) := by
  cases layer with
  | code language => cases language <;> rw [encode] <;> rfl
  | group | distance =>
    rw [encode, encodeAll_eq]
    rfl

/-- A layer inside another is written two levels further in. -/
theorem depth_encode_child {layer child : Layer} (inside : child ∈ layer.children) :
    child.encode.depth + 2 ≤ layer.encode.depth := by
  have written : ∃ name, (name, Json.array (layer.children.map encode)) ∈
      ("type", Json.string layer.typeName) :: layer.fieldNames.zip layer.fieldValues := by
    cases layer with
    | code => cases inside
    | group => exact ⟨"layers", by simp [fieldNames, fieldValues, children]⟩
    | distance => exact ⟨"layers", by simp [fieldNames, fieldValues, children]⟩
  obtain ⟨name, written⟩ := written
  have outer := Json.depth_le_of_mem_entries written
  have inner := Json.depth_le_of_mem_items (List.mem_map_of_mem (f := encode) inside)
  rw [encode_eq layer, Json.depth]
  rw [Json.depth] at outer
  omega

theorem decodeValues_encode {values : List ShaderValue} (proper : ∀ value ∈ values, value.Proper)
    (finite : ∀ value ∈ values, value.Finite) {json : Json}
    (read : ReadAs (.array (values.map ShaderValue.encode)) json) :
    decodeValues (some json) = some values :=
  read.listOf_eq fun value inside _ read =>
    ShaderValue.decode_encode (proper value inside) (finite value inside) true read

theorem decodeCode_fields {language : CodeLanguage} {head : LayerHead} {blend : BlendMode}
    {opacity : Float32} {source : String} {values : List ShaderValue}
    (proper : ∀ value ∈ values, value.Proper) (finite : ∀ value ∈ values, value.Finite)
    (clear : opacity.isFinite) {body : Json}
    (read : ReadAs (.object ((code language head blend opacity source values).fieldNames.zip
      (code language head blend opacity source values).fieldValues)) body) :
    decodeCode language body = some (code language head blend opacity source values) := by
  obtain ⟨found, items, fields⟩ := read.recordFields_eq
    ["id", "name", "visible", "blendMode", "opacity", "code", "values"]
    (code language head blend opacity source values).fieldValues (by decide) (by simp [fieldValues])
  obtain _ | ⟨⟨⟩, _ | ⟨⟨⟩, _ | ⟨⟨⟩, _ | ⟨⟨⟩, _ | ⟨seen, _ | ⟨⟨⟩, _ | ⟨stored, _ | _⟩⟩⟩⟩⟩⟩⟩ := items
  unfold decodeCode
  rw [fields]
  simp [decodeHead, Json.required, Json.orElse, Json.string?, Json.bool?, BlendMode.decode_name,
    seen.single?_eq clear, decodeValues_encode proper finite stored, fieldValues]

/-- The fields of a layer are decoded as it when the layers in it are. -/
theorem decodeBody_fields {layer : Layer} (proper : ∀ value ∈ layer.values, value.Proper)
    (clear : ∀ opacity ∈ layer.opacity?, opacity.isFinite)
    (finite : ∀ value ∈ layer.values, value.Finite) {inner : Json → Option (List Layer)}
    (own : ∀ json, ReadAs (.array (layer.children.map encode)) json →
      inner json = some layer.children)
    {body : Json} (read : ReadAs (.object (layer.fieldNames.zip layer.fieldValues)) body) :
    decodeBody inner layer.typeIndex body = some layer := by
  cases layer with
  | group head blend opacity children =>
    obtain ⟨found, items, fields⟩ := read.recordFields_eq
      ["id", "name", "visible", "blendMode", "opacity", "layers"]
      (group head blend opacity children).fieldValues (by decide) (by simp [fieldValues])
    obtain _ | ⟨⟨⟩, _ | ⟨⟨⟩, _ | ⟨⟨⟩, _ | ⟨⟨⟩, _ | ⟨seen, _ | ⟨inside, _ | _⟩⟩⟩⟩⟩⟩ := items
    unfold decodeBody typeIndex
    rw [fields]
    simp [decodeHead, Json.required, Json.orElse, Json.string?, Json.bool?,
      BlendMode.decode_name, seen.single?_eq (clear opacity rfl), own _ inside, fieldValues,
      Layer.children]
  | code language head blend opacity source values =>
    have decoded := decodeCode_fields proper finite (clear opacity rfl) read
    cases language <;> exact decoded
  | distance head source values operands =>
    obtain ⟨found, items, fields⟩ := read.recordFields_eq
      ["id", "name", "visible", "code", "values", "layers"]
      (distance head source values operands).fieldValues (by decide) (by simp [fieldValues])
    obtain _ | ⟨⟨⟩, _ | ⟨⟨⟩, _ | ⟨⟨⟩, _ | ⟨⟨⟩, _ | ⟨stored, _ | ⟨inside, _ | _⟩⟩⟩⟩⟩⟩ := items
    unfold decodeBody typeIndex
    rw [fields]
    simp [decodeHead, Json.required, Json.orElse, Json.string?, Json.bool?,
      decodeValues_encode proper finite stored, own _ inside, fieldValues, Layer.children,
      Layer.values]

/-- **A layer inside another is decoded as it was encoded.** -/
theorem decodeInner_encode {depth : Nat} : ∀ {layer : Layer}, layer.Proper → layer.Finite →
    layer.encode.depth ≤ depth → ∀ {json : Json}, ReadAs layer.encode json →
      decodeInner depth json = some layer := by
  induction depth with
  | zero =>
    intro layer _ _ shallow
    rw [encode_eq, Json.depth] at shallow
    cases shallow
  | succ depth ih =>
    intro layer proper finite shallow json read
    rw [encode_eq] at read
    obtain ⟨body, tagged, read⟩ := read.splitTag_eq layer.fieldNames layer.fieldValues
      layer.type_notMem_fieldNames
    obtain ⟨clear, values⟩ := All.here finite
    have own : ∀ json, ReadAs (.array (layer.children.map encode)) json →
        Json.listOf (decodeInner depth) json = some layer.children := by
      intro json read
      refine read.listOf_eq fun child inside json read => ?_
      have deeper := depth_encode_child inside
      exact ih (All.children proper child inside) (All.children finite child inside) (by omega)
        read
    rw [decodeInner, tagged]
    exact (congrArg (Option.bind · fun index =>
      decodeBody (Json.listOf (decodeInner depth)) index body) (layer.tagIndex_typeName true)).trans
        (decodeBody_fields (All.here proper) clear values own read)

/-- **A root is decoded as it was encoded.** -/
theorem decodeRoot_fields {layer : Layer} (proper : layer.Proper) (finite : layer.Finite)
    {body : Json} (read : ReadAs (.object (layer.fieldNames.zip layer.fieldValues)) body) :
    decodeRoot layer.typeIndex body = some layer := by
  obtain ⟨clear, values⟩ := All.here finite
  refine decodeBody_fields (All.here proper) clear values (fun json found => ?_) read
  refine found.listOf_eq fun child inside json read' => ?_
  have deeper := depth_encode_child inside
  have whole : layer.encode.depth = body.depth := by
    rw [read.depth_eq, encode_eq, Json.depth, Json.depth, Json.depthOfEntries]
    exact congrArg (· + 1) (Nat.zero_max _)
  exact decodeInner_encode (All.children proper child inside) (All.children finite child inside)
    (by omega) read'

/-- **Documents survive encoding.**  A proper document with finite numbers is decoded from its
written form, and from whatever this is read as when it was printed. -/
theorem survives_encoding {document : Layer} (proper : document.Proper)
    (finite : document.Finite) :
    decode document.encode = some document ∧
      ∀ json, ReadAs document.encode json → decode json = some document := by
  have decoded : ∀ json, ReadAs document.encode json → decode json = some document := by
    intro json read
    rw [encode_eq] at read
    obtain ⟨body, tagged, read⟩ := read.splitTag_eq document.fieldNames document.fieldValues
      document.type_notMem_fieldNames
    rw [decode, tagged]
    exact (congrArg (Option.bind · fun index => decodeRoot index body)
      (document.tagIndex_typeName false)).trans (decodeRoot_fields proper finite read)
  exact ⟨decoded _ (.refl _), decoded⟩

/-- A document with layers and values of every kind. -/
def motleyDocument : Layer :=
  .group ⟨"root", "All \"kinds\"", true⟩ .passThrough 0.75
    [.code .shader ⟨"s", "", true⟩ .multiply 1 "uniform float x;"
      [⟨"x", .float 0.1, some ⟨-1, 1, .time 2 false⟩⟩, ⟨"n", .int (-3), some ⟨0, 1, .audioPeak⟩⟩,
        ⟨"v", .vector [0, 0.5], some ⟨0, 1, .audioVolume⟩⟩, ⟨"w", .intVector [1, 2], none⟩,
        ⟨"b", .bool true, some ⟨0, 1, .audioTrough⟩⟩, ⟨"c", .boolVector [true, false], none⟩,
        ⟨"e", .choice 7, some ⟨0, 1, .audioReactive⟩⟩,
        ⟨"t", .sampler ⟨"a.png", .nearest, .mirror⟩, none⟩,
        ⟨"g", .gradient ⟨[⟨0, 0, 0, 0, 1⟩, ⟨1, 1, 0.5, 0.25, 1⟩]⟩, none⟩,
        ⟨"j", .button [("gamepad", "a"), ("keyboard", "Space")],
          some ⟨0, 1, .button [("keyboard", "Enter")]⟩⟩,
        ⟨"a", .axis [("gamepad", .axis "leftX"), ("keyboard", .buttons [("a", -1), ("d", 1)] 0)],
          some ⟨0, 1, .axis [("mouse", .axis "x")]⟩⟩],
      .code .script ⟨"js", "", false⟩ .normal 0.5 "export default 1;" [],
      .distance ⟨"sdf", "", true⟩ "" []
        [.distance ⟨"inner", "", true⟩ "" [⟨"r", .float 2, none⟩] []]]

/-- Layers, values and curves of every kind. -/
theorem survives_encoding_motley :
    decode motleyDocument.encode = some motleyDocument ∧
      ∀ json, ReadAs motleyDocument.encode json → decode json = some motleyDocument :=
  survives_encoding (by decide +kernel) (by decide +kernel)

end Layer

/-! ### What decoders give -/

theorem Value.proper_of_decodePayload {index : Nat} {json : Json} {value : Value}
    (decoded : decodePayload index json = some value) : value.Proper := by
  have int64 : ∀ {json : Json} {n : Int}, json.int64? = some n →
      int64Lowest ≤ n ∧ n ≤ int64Highest := by
    intro json n found
    unfold Json.int64? at found
    split at found
    · split at found
      · rename_i fits
        cases found
        exact fits
      · cases found
    · cases found
  unfold decodePayload at decoded
  split at decoded
  all_goals obtain ⟨payload, found, rfl⟩ := Option.map_eq_some_iff.mp decoded
  · trivial
  · exact int64 found
  · trivial
  · intro n inside
    obtain ⟨_, found⟩ := Json.exists_of_mem_listOf found n inside
    exact int64 found
  · trivial
  · trivial
  · exact int64 found
  · trivial
  · trivial
  · exact Json.sorted_of_mapOf found
  · exact AxisBindings.proper_of_decode found

theorem CurveInput.proper_of_decode {byNumber : Bool} {json : Json} {input : CurveInput}
    (decoded : decode byNumber json = some input) : input.Proper := by
  have bare : ∀ {input found : CurveInput} {json : Json},
      CurveInput.bare input json = some found → input.Proper → found.Proper := by
    intro input found json decoded proper
    unfold CurveInput.bare at decoded
    split at decoded
    · cases decoded
      exact proper
    · cases decoded
      exact proper
    · cases decoded
  unfold decode at decoded
  obtain ⟨⟨tag, rest⟩, -, decoded⟩ := Option.bind_eq_some_iff.mp decoded
  obtain ⟨index, -, decoded⟩ := Option.bind_eq_some_iff.mp decoded
  split at decoded
  · obtain ⟨fields, -, decoded⟩ := Option.bind_eq_some_iff.mp decoded
    split at decoded
    · obtain ⟨duration, -, decoded⟩ := Option.bind_eq_some_iff.mp decoded
      obtain ⟨looping, -, decoded⟩ := Option.bind_eq_some_iff.mp decoded
      cases decoded
      trivial
    · cases decoded
  · obtain ⟨fields, -, decoded⟩ := Option.bind_eq_some_iff.mp decoded
    split at decoded
    · obtain ⟨bindings, found, decoded⟩ := Option.bind_eq_some_iff.mp decoded
      cases decoded
      obtain ⟨json, -, found⟩ := Option.bind_eq_some_iff.mp found
      exact Json.sorted_of_mapOf found
    · cases decoded
  · obtain ⟨fields, -, decoded⟩ := Option.bind_eq_some_iff.mp decoded
    split at decoded
    · obtain ⟨bindings, found, decoded⟩ := Option.bind_eq_some_iff.mp decoded
      cases decoded
      obtain ⟨json, -, found⟩ := Option.bind_eq_some_iff.mp found
      exact AxisBindings.proper_of_decode found
    · cases decoded
  all_goals exact bare decoded trivial

theorem Curve.proper_of_decode {byNumber : Bool} {json : Json} {curve : Curve}
    (decoded : decode byNumber json = some curve) : curve.Proper := by
  unfold decode at decoded
  obtain ⟨fields, -, decoded⟩ := Option.bind_eq_some_iff.mp decoded
  split at decoded
  · obtain ⟨min, -, decoded⟩ := Option.bind_eq_some_iff.mp decoded
    obtain ⟨max, -, decoded⟩ := Option.bind_eq_some_iff.mp decoded
    obtain ⟨input, found, decoded⟩ := Option.bind_eq_some_iff.mp decoded
    cases decoded
    obtain ⟨json, -, found⟩ := Option.bind_eq_some_iff.mp found
    exact CurveInput.proper_of_decode found
  · cases decoded

theorem ShaderValue.proper_of_decode {byNumber : Bool} {json : Json} {value : ShaderValue}
    (decoded : decode byNumber json = some value) : value.Proper := by
  unfold decode at decoded
  obtain ⟨fields, -, decoded⟩ := Option.bind_eq_some_iff.mp decoded
  split at decoded
  · obtain ⟨name, -, decoded⟩ := Option.bind_eq_some_iff.mp decoded
    obtain ⟨index, -, decoded⟩ := Option.bind_eq_some_iff.mp decoded
    obtain ⟨payload, found, decoded⟩ := Option.bind_eq_some_iff.mp decoded
    obtain ⟨curve, bent, decoded⟩ := Option.bind_eq_some_iff.mp decoded
    cases decoded
    obtain ⟨json, -, found⟩ := Option.bind_eq_some_iff.mp found
    refine ⟨Value.proper_of_decodePayload found, ?_⟩
    rintro curve rfl
    unfold Json.optional at bent
    split at bent
    · cases bent
    · cases bent
    · obtain ⟨curve, bent, same⟩ := Option.map_eq_some_iff.mp bent
      cases same
      exact Curve.proper_of_decode bent
  · cases decoded

namespace Layer

theorem proper_of_decodeValues {json : Option Json} {values : List ShaderValue}
    (decoded : decodeValues json = some values) : ∀ value ∈ values, value.Proper := by
  unfold decodeValues Json.orElse at decoded
  split at decoded
  · cases decoded
    exact fun _ inside => absurd inside List.not_mem_nil
  · intro value inside
    obtain ⟨_, found⟩ := Json.exists_of_mem_listOf decoded value inside
    exact ShaderValue.proper_of_decode found

theorem allIn_of_forall {p : Layer → Prop} {layers : List Layer}
    (each : ∀ layer ∈ layers, layer.All p) : AllIn p layers := by
  induction layers with
  | nil => trivial
  | cons layer layers ih =>
    obtain ⟨first, rest⟩ := List.forall_mem_cons.mp each
    exact ⟨first, ih rest⟩

theorem proper_of_decodeCode {language : CodeLanguage} {body : Json} {layer : Layer}
    (decoded : decodeCode language body = some layer) : layer.Proper := by
  unfold decodeCode at decoded
  obtain ⟨fields, -, decoded⟩ := Option.bind_eq_some_iff.mp decoded
  split at decoded
  · obtain ⟨head, -, decoded⟩ := Option.bind_eq_some_iff.mp decoded
    obtain ⟨blend, -, decoded⟩ := Option.bind_eq_some_iff.mp decoded
    obtain ⟨opacity, -, decoded⟩ := Option.bind_eq_some_iff.mp decoded
    obtain ⟨source, -, decoded⟩ := Option.bind_eq_some_iff.mp decoded
    obtain ⟨values, found, decoded⟩ := Option.bind_eq_some_iff.mp decoded
    cases decoded
    exact proper_of_decodeValues found
  · cases decoded

/-- The fields of a layer give a proper one when its inner layers are. -/
theorem proper_of_decodeBody {inner : Json → Option (List Layer)}
    (own : ∀ json layers, inner json = some layers → ∀ layer ∈ layers, layer.Proper)
    {index : Nat} {body : Json} {layer : Layer}
    (decoded : decodeBody inner index body = some layer) : layer.Proper := by
  have inside : ∀ {json : Option Json} {layers : List Layer},
      Json.orElse [] inner json = some layers →
        AllIn (fun layer => ∀ value ∈ layer.values, value.Proper) layers := by
    intro json layers found
    refine allIn_of_forall fun layer inside => ?_
    cases json with
    | none =>
      cases found
      cases inside
    | some json => exact own json layers found layer inside
  unfold decodeBody at decoded
  split at decoded
  · obtain ⟨fields, -, decoded⟩ := Option.bind_eq_some_iff.mp decoded
    split at decoded
    · obtain ⟨head, -, decoded⟩ := Option.bind_eq_some_iff.mp decoded
      obtain ⟨blend, -, decoded⟩ := Option.bind_eq_some_iff.mp decoded
      obtain ⟨opacity, -, decoded⟩ := Option.bind_eq_some_iff.mp decoded
      obtain ⟨layers, found, decoded⟩ := Option.bind_eq_some_iff.mp decoded
      cases decoded
      exact ⟨fun _ inside => absurd inside List.not_mem_nil, inside found⟩
    · cases decoded
  · exact proper_of_decodeCode decoded
  · obtain ⟨fields, -, decoded⟩ := Option.bind_eq_some_iff.mp decoded
    split at decoded
    · obtain ⟨head, -, decoded⟩ := Option.bind_eq_some_iff.mp decoded
      obtain ⟨source, -, decoded⟩ := Option.bind_eq_some_iff.mp decoded
      obtain ⟨values, stored, decoded⟩ := Option.bind_eq_some_iff.mp decoded
      obtain ⟨layers, found, decoded⟩ := Option.bind_eq_some_iff.mp decoded
      cases decoded
      exact ⟨proper_of_decodeValues stored, inside found⟩
    · cases decoded
  · exact proper_of_decodeCode decoded

theorem proper_of_decodeInner {depth : Nat} : ∀ {json : Json} {layer : Layer},
    decodeInner depth json = some layer → layer.Proper := by
  induction depth with
  | zero =>
    intro json layer decoded
    cases decoded
  | succ depth ih =>
    intro json layer decoded
    rw [decodeInner] at decoded
    obtain ⟨⟨tag, body⟩, -, decoded⟩ := Option.bind_eq_some_iff.mp decoded
    obtain ⟨index, -, decoded⟩ := Option.bind_eq_some_iff.mp decoded
    refine proper_of_decodeBody (fun json layers found layer inside => ?_) decoded
    obtain ⟨_, found⟩ := Json.exists_of_mem_listOf found layer inside
    exact ih found

/-- **A layer that was decoded is proper.** -/
theorem proper_of_decodeRoot {index : Nat} {body : Json} {layer : Layer}
    (decoded : decodeRoot index body = some layer) : layer.Proper := by
  refine proper_of_decodeBody (fun json layers found layer inside => ?_) decoded
  obtain ⟨_, found⟩ := Json.exists_of_mem_listOf found layer inside
  exact proper_of_decodeInner found

end Layer
end Collage
