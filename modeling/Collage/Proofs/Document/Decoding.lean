import Collage.Document.Form
import Collage.Proofs.Json.ReadAs

/-!
# Decoding what was encoded

Each decoder of the document format takes back what its encoder wrote, when the numbers in
it are finite and it is `Proper`: integers fit 64 bits, and bindings are sorted.  The
statements are about whatever may be read where the written form was written (`ReadAs`),
so that they serve for texts and for values that never were texts alike.
-/

namespace Collage

open Json (ReadAs ReadAsItems Sorted)

/-! ### What can be written -/

/-- Whether bindings are sorted. -/
def AxisBinding.Proper : AxisBinding → Prop
  | axis _ => True
  | buttons values _ => Sorted values

/-- Whether all numbers are finite. -/
def AxisBinding.Finite : AxisBinding → Prop
  | axis _ => True
  | buttons values otherwise => (∀ entry ∈ values, entry.2.isFinite) ∧ otherwise.isFinite

/-- Whether bindings are sorted, also those within. -/
def AxisBindings.Proper (bindings : AxisBindings) : Prop :=
  Sorted bindings ∧ ∀ entry ∈ bindings, entry.2.Proper

/-- Whether all numbers are finite. -/
def AxisBindings.Finite (bindings : AxisBindings) : Prop :=
  ∀ entry ∈ bindings, entry.2.Finite

/-- Whether all numbers are finite. -/
def GradientStop.Finite (stop : GradientStop Float32) : Prop :=
  stop.position.isFinite ∧ ∀ channel ∈ stop.color.toList, channel.isFinite

/-- Whether all numbers are finite. -/
def Gradient.Finite (ramp : Gradient Float32) : Prop :=
  ∀ stop ∈ ramp.stops, stop.Finite

namespace Value

/-- Whether bindings are sorted and integers fit 64 bits. -/
def Proper : Value → Prop
  | int value => int64Lowest ≤ value ∧ value ≤ int64Highest
  | intVector values => ∀ value ∈ values, int64Lowest ≤ value ∧ value ≤ int64Highest
  | choice code => int64Lowest ≤ code ∧ code ≤ int64Highest
  | button bindings => Sorted bindings
  | axis bindings => bindings.Proper
  | _ => True

/-- Whether all numbers are finite. -/
def Finite : Value → Prop
  | float value => value.isFinite
  | vector values => ∀ value ∈ values, value.isFinite
  | gradient ramp => ramp.Finite
  | axis bindings => bindings.Finite
  | _ => True

end Value

section

variable {α : Type} (entries : List (String × α))

instance : Decidable (Sorted entries) :=
  inferInstanceAs (Decidable (List.Pairwise (· < ·) (entries.map (·.1))))

end

instance : (binding : AxisBinding) → Decidable binding.Proper
  | .axis _ => .isTrue trivial
  | .buttons values _ => inferInstanceAs (Decidable (Sorted values))

instance : (binding : AxisBinding) → Decidable binding.Finite
  | .axis _ => .isTrue trivial
  | .buttons values otherwise =>
    inferInstanceAs (Decidable ((∀ entry ∈ values, entry.2.isFinite) ∧ otherwise.isFinite))

instance (bindings : AxisBindings) : Decidable bindings.Proper :=
  inferInstanceAs (Decidable (Sorted bindings ∧ ∀ entry ∈ bindings, entry.2.Proper))

instance (bindings : AxisBindings) : Decidable bindings.Finite :=
  inferInstanceAs (Decidable (∀ entry ∈ bindings, entry.2.Finite))

instance (stop : GradientStop Float32) : Decidable stop.Finite :=
  inferInstanceAs (Decidable (stop.position.isFinite ∧
    ∀ channel ∈ stop.color.toList, channel.isFinite))

instance (ramp : Gradient Float32) : Decidable ramp.Finite :=
  inferInstanceAs (Decidable (∀ stop ∈ ramp.stops, stop.Finite))

instance : (value : Value) → Decidable value.Proper
  | .int value | .choice value =>
    inferInstanceAs (Decidable (int64Lowest ≤ value ∧ value ≤ int64Highest))
  | .intVector values =>
    inferInstanceAs (Decidable (∀ value ∈ values, int64Lowest ≤ value ∧ value ≤ int64Highest))
  | .button bindings => inferInstanceAs (Decidable (Sorted bindings))
  | .axis bindings => inferInstanceAs (Decidable (AxisBindings.Proper bindings))
  | .float _ | .vector _ | .bool _ | .boolVector _ | .sampler _ | .gradient _ => .isTrue trivial

instance : (value : Value) → Decidable value.Finite
  | .float value => inferInstanceAs (Decidable (value.isFinite = true))
  | .vector values => inferInstanceAs (Decidable (∀ value ∈ values, value.isFinite))
  | .gradient ramp => inferInstanceAs (Decidable ramp.Finite)
  | .axis bindings => inferInstanceAs (Decidable (AxisBindings.Finite bindings))
  | .int _ | .intVector _ | .bool _ | .boolVector _ | .choice _ | .sampler _ | .button _ =>
    .isTrue trivial

/-! ### Textures and gradients -/

theorem TextureFilter.named_name (filter : TextureFilter) :
    Json.named named (.string filter.name) = some filter := by
  cases filter <;> rfl

theorem TextureWrap.named_name (wrap : TextureWrap) :
    Json.named named (.string wrap.name) = some wrap := by
  cases wrap <;> rfl

theorem TextureDescriptor.decode_encode (texture : TextureDescriptor) {json : Json}
    (read : ReadAs texture.encode json) : decode json = some texture := by
  obtain ⟨found, items, fields⟩ := read.recordFields_eq ["url", "filter", "wrap"]
    [.string texture.url, .string texture.filter.name, .string texture.wrap.name]
    (by decide) (by simp)
  obtain _ | ⟨⟨⟩, _ | ⟨⟨⟩, _ | ⟨⟨⟩, _ | _⟩⟩⟩ := items
  unfold decode
  rw [fields]
  simp [Json.required, Json.orElse, Json.string?, TextureFilter.named_name,
    TextureWrap.named_name]

theorem GradientStop.decode_encode {stop : GradientStop Float32} (finite : stop.Finite)
    {json : Json} (read : ReadAs stop.encode json) : decode json = some stop := by
  obtain ⟨found, items, fields⟩ := read.recordFields_eq ["position", "color"]
    [Json.ofSingle stop.position, .array (stop.color.toList.map Json.ofSingle)]
    (by decide) (by simp)
  obtain _ | ⟨position, _ | ⟨color, _ | _⟩⟩ := items
  have channels := color.listOf_eq fun channel inside json read =>
    read.single?_eq (finite.2 channel inside)
  unfold decode
  rw [fields]
  simp [Json.required, position.single?_eq finite.1, channels]
  rfl

theorem Gradient.decode_encode {ramp : Gradient Float32} (finite : ramp.Finite)
    {json : Json} (read : ReadAs ramp.encode json) : decode json = some ramp := by
  obtain ⟨found, items, fields⟩ := read.recordFields_eq ["stops"]
    [.array (ramp.stops.map GradientStop.encode)] (by decide) (by simp)
  obtain _ | ⟨stops, _ | _⟩ := items
  have all := stops.listOf_eq fun stop inside json read =>
    GradientStop.decode_encode (finite stop inside) read
  unfold decode
  rw [fields]
  simp [Json.required, all]

/-! ### Bindings -/

theorem ButtonBindings.decode_encode {bindings : ButtonBindings} (sorted : Sorted bindings)
    {json : Json} (read : ReadAs (encode bindings) json) : decode json = some bindings := by
  have written : ReadAs (.object (bindings.map fun entry => (entry.1, Json.string entry.2)))
      json := read
  refine written.mapOf_eq sorted fun entry _ json read => ?_
  cases read
  rfl

theorem AxisBinding.decode_encode {binding : AxisBinding} (proper : binding.Proper)
    (finite : binding.Finite) {json : Json} (read : ReadAs binding.encode json) :
    decode json = some binding := by
  cases binding with
  | axis name =>
    cases read
    rfl
  | buttons values otherwise =>
    cases read with
    | object each =>
      obtain _ | ⟨_, buttons, _ | ⟨_, default, _ | _⟩⟩ := each
      have all := buttons.mapOf_eq proper fun entry inside json read =>
        read.double?_eq (finite.1 entry inside)
      simp [decode, Json.objectFields, Json.onlyEntry, Json.required, Json.orElse, all,
        default.double?_eq finite.2]

theorem AxisBindings.decode_encode {bindings : AxisBindings} (proper : bindings.Proper)
    (finite : bindings.Finite) {json : Json} (read : ReadAs (encode bindings) json) :
    decode json = some bindings :=
  read.mapOf_eq proper.1 fun entry inside _ read =>
    AxisBinding.decode_encode (proper.2 entry inside) (finite entry inside) read

theorem AxisBinding.proper_of_decode {json : Json} {binding : AxisBinding}
    (decoded : decode json = some binding) : binding.Proper := by
  unfold decode at decoded
  split at decoded
  · cases decoded
    trivial
  · obtain ⟨fields, -, decoded⟩ := Option.bind_eq_some_iff.mp decoded
    split at decoded
    · obtain ⟨values, decodedValues, decoded⟩ := Option.bind_eq_some_iff.mp decoded
      obtain ⟨otherwise, -, decoded⟩ := Option.bind_eq_some_iff.mp decoded
      cases decoded
      obtain ⟨json, -, decodedValues⟩ := Option.bind_eq_some_iff.mp decodedValues
      exact Json.sorted_of_mapOf decodedValues
    · cases decoded

theorem AxisBindings.proper_of_decode {json : Json} {bindings : AxisBindings}
    (decoded : decode json = some bindings) : bindings.Proper :=
  ⟨Json.sorted_of_mapOf decoded, fun _ inside =>
    have ⟨_, decodedValue⟩ := Json.exists_of_mem_mapOf decoded _ inside
    AxisBinding.proper_of_decode decodedValue⟩

/-! ### Values -/

namespace Json

theorem singlesFiniteIn_map {α : Type} {encode : α → Json} (each : ∀ x, (encode x).SinglesFinite)
    (values : List α) : SinglesFiniteIn (values.map encode) := by
  induction values with
  | nil => trivial
  | cons value values ih => exact ⟨each value, ih⟩

theorem singlesFiniteAmong_map {α : Type} {encode : α → Json}
    (each : ∀ x, (encode x).SinglesFinite) (entries : List (String × α)) :
    SinglesFiniteAmong (entries.map fun (key, value) => (key, encode value)) := by
  induction entries with
  | nil => trivial
  | cons entry entries ih => exact ⟨each entry.2, ih⟩

theorem singlesFinite_ofDouble (x : Float) : (ofDouble x).SinglesFinite := by
  unfold ofDouble
  split <;> trivial

end Json

theorem AxisBinding.singlesFinite_encode (binding : AxisBinding) :
    binding.encode.SinglesFinite := by
  cases binding with
  | axis name => trivial
  | buttons values otherwise =>
    refine ⟨?_, Json.singlesFinite_ofDouble otherwise, trivial⟩
    exact Json.singlesFiniteAmong_map Json.singlesFinite_ofDouble values

namespace Value

/-- The written form of a value holds finite numbers only. -/
theorem singlesFinite_encodePayload (value : Value) : value.encodePayload.SinglesFinite := by
  cases value with
  | float value => exact Json.singlesFinite_ofDouble value
  | int | bool | choice => trivial
  | vector values => exact Json.singlesFiniteIn_map Json.singlesFinite_ofDouble values
  | intVector values =>
    change Json.SinglesFiniteIn (values.map Json.int)
    refine Json.singlesFiniteIn_map (fun _ => ?_) values
    trivial
  | boolVector values =>
    change Json.SinglesFiniteIn (values.map Json.bool)
    refine Json.singlesFiniteIn_map (fun _ => ?_) values
    trivial
  | sampler texture => exact ⟨trivial, trivial, trivial, trivial⟩
  | gradient ramp =>
    refine ⟨Json.singlesFiniteIn_map (fun stop => ?_) ramp.stops, trivial⟩
    exact ⟨Json.singlesFinite_ofSingle _,
      Json.singlesFiniteIn_map Json.singlesFinite_ofSingle _, trivial⟩
  | button bindings =>
    change Json.SinglesFiniteAmong (bindings.map fun entry => (entry.1, Json.string entry.2))
    refine Json.singlesFiniteAmong_map (fun _ => ?_) bindings
    trivial
  | axis bindings => exact Json.singlesFiniteAmong_map AxisBinding.singlesFinite_encode bindings

theorem readAs_toJson (value : Value) : ReadAs value.encodePayload value.toJson :=
  Json.readAs_widened value.singlesFinite_encodePayload

end Value
end Collage
