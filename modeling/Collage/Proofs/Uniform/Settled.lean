import Collage.Proofs.Document.Decoding
import Collage.Uniform.Kind

/-!
# Values that fit a uniform

Reading a value as one of a uniform gives a value that `Fits` the uniform
(`UniformKind.fits_coerce`), its default does from the start (`UniformKind.fits_classify`),
and reading the written form of a value that fits gives the value back as long as its
numbers are finite (`UniformKind.coerce_toJson`): coercion settles after one step.
-/

namespace Collage

open Json (Sorted)

/-! ### Numbers -/

namespace Coercion

/-- A number that is read as itself: one that is defined, and no negative zero. -/
def Plain (x : Float) : Prop :=
  numberOrZero (.double x) = x

/-- An integer that is read as itself. -/
def Whole (n : Int) : Prop :=
  integer (.int n) = n

theorem plain_zero : Plain 0 := by
  unfold Plain numberOrZero number
  dsimp only
  split <;> rfl

theorem plain_numberOrZero (json : Json) : Plain (numberOrZero json) := by
  have eq : ∀ x : Float, numberOrZero (.double x) = if x.isNaN || x == 0 then 0 else x :=
    fun _ => rfl
  unfold numberOrZero
  dsimp only
  split
  · exact plain_zero
  · rename_i proper
    rw [Plain, eq, if_neg proper]

theorem integer_eq (json : Json) : integer json = (number json).integerPart .floor := by
  unfold integer numberOrZero
  dsimp only
  split
  · rename_i improper
    rw [Float.integerPart_of_beq_zero (by decide +kernel : ((0 : Float) == 0) = true)]
    rcases Bool.or_eq_true_iff.mp improper with undefined | zero
    · exact (Float.integerPart_of_isNaN undefined).symm
    · exact (Float.integerPart_of_beq_zero zero).symm
  · rfl

theorem whole_of_settles {n : Int} (settles : BinaryFormat.Settles n) : Whole n :=
  (integer_eq _).trans (Float.integerPart_nearest settles)

theorem whole_integer (json : Json) : Whole (integer json) := by
  rw [integer_eq]
  exact whole_of_settles (Float.settles_integerPart _)

theorem whole_of_natAbs_le {n : Int} (few : n.natAbs ≤ 2 ^ 53) : Whole n := by
  refine whole_of_settles (.inl ⟨BinaryFormat.holds_of_natAbs_le few, ?_, ?_⟩)
  · have least : int64Lowest = -2 ^ 63 := rfl
    omega
  · have greatest : int64Highest = 2 ^ 63 - 1 := rfl
    omega

/-! ### Components -/

section

variable {α : Type} {convert : Json → α}

theorem length_componentsOf :
    ∀ (defaults : List α) (items : List Json),
      (componentsOf convert defaults items).length = defaults.length
  | [], _ => rfl
  | _ :: defaults, [] => congrArg Nat.succ (length_componentsOf defaults [])
  | _ :: defaults, item :: items => by
    cases item <;> exact congrArg Nat.succ (length_componentsOf defaults items)

theorem length_components (defaults : List α) (raw : Json) :
    (components convert defaults raw).length = defaults.length := by
  cases raw with
  | array items => exact length_componentsOf defaults items
  | _ => rfl

theorem forall_componentsOf {P : α → Prop} (converted : ∀ json, P (convert json)) :
    ∀ (defaults : List α) (items : List Json), (∀ x ∈ defaults, P x) →
      ∀ x ∈ componentsOf convert defaults items, P x
  | [], _, _ => fun _ inside => absurd inside List.not_mem_nil
  | _ :: defaults, [], fine => by
    obtain ⟨first, rest⟩ := List.forall_mem_cons.mp fine
    exact List.forall_mem_cons.mpr ⟨first, forall_componentsOf converted defaults [] rest⟩
  | _ :: defaults, item :: items, fine => by
    obtain ⟨first, rest⟩ := List.forall_mem_cons.mp fine
    have others := forall_componentsOf converted defaults items rest
    cases item <;> exact List.forall_mem_cons.mpr ⟨by first | exact first | exact converted _, others⟩

theorem forall_components {P : α → Prop} (converted : ∀ json, P (convert json))
    {defaults : List α} (fine : ∀ x ∈ defaults, P x) (raw : Json) :
    ∀ x ∈ components convert defaults raw, P x := by
  cases raw with
  | array items => exact forall_componentsOf converted defaults items fine
  | _ => exact fine

/-- Components that are read as themselves are all kept. -/
theorem componentsOf_map {encode : α → Json} {values : List α}
    (each : ∀ x ∈ values, encode x ≠ .null ∧ convert (encode x) = x) :
    ∀ {defaults : List α}, values.length = defaults.length →
      componentsOf convert defaults (values.map encode) = values := by
  induction values with
  | nil =>
    intro defaults same
    rw [List.eq_nil_of_length_eq_zero same.symm]
    rfl
  | cons x values ih =>
    intro defaults same
    obtain ⟨⟨something, first⟩, rest⟩ := List.forall_mem_cons.mp each
    cases defaults with
    | nil => cases same
    | cons fallback defaults =>
      rw [List.map_cons]
      have tail := ih rest (Nat.succ.inj same)
      generalize encode x = item at something first
      cases item with
      | null => exact absurd rfl something
      | _ => exact congrArg₂ List.cons first tail

end

end Coercion

/-! ### Choices -/

namespace EnumOptions

theorem containsCode_of_mem {options : EnumOptions} {option : String × Int}
    (inside : option ∈ options) : options.containsCode option.2 :=
  List.any_eq_true.mpr ⟨option, inside, decide_eq_true rfl⟩

theorem containsCode_of_codeOf? {options : EnumOptions} {name : String} {code : Int}
    (found : options.codeOf? name = some code) : options.containsCode code := by
  obtain ⟨option, there, rfl⟩ := Option.map_eq_some_iff.mp found
  exact containsCode_of_mem (List.mem_of_find?_eq_some there)

theorem containsCode_firstCode {options : EnumOptions} (some : options ≠ []) :
    options.containsCode options.firstCode := by
  cases options with
  | nil => exact absurd rfl some
  | cons option rest => exact containsCode_of_mem List.mem_cons_self

/-- The choices that a setting lists, of which there may be none. -/
def listed : Json → EnumOptions
  | .string "blendMode" => BlendMode.all.map fun mode => (mode.name, (mode.code : Int))
  | .array names =>
    (names.mapIdx fun (code : Nat) (name : Json) =>
      (name.string?.map fun n => (n, (code : Int)))).filterMap id
  | .object entries => entries.map fun (name, code) => (name, Coercion.integer code)
  | _ => []

theorem ofJson?_eq (json : Json) :
    ofJson? json = if (listed json).isEmpty then none else some (listed json) :=
  rfl

theorem eq_listed_of_ofJson? {json : Json} {options : EnumOptions}
    (found : ofJson? json = some options) : options = listed json ∧ options ≠ [] := by
  rw [ofJson?_eq] at found
  split at found
  · cases found
  · rename_i some
    cases found
    exact ⟨rfl, fun none => some (List.isEmpty_iff.mpr none)⟩

end EnumOptions

namespace Metadata

/-- Whether no list of choices has more names than a double can number. -/
def Countable (settings : Metadata) : Prop :=
  ∀ names, settings.options = some (.array names) → names.length ≤ 2 ^ 53

end Metadata

/-- The codes of choices are read as themselves. -/
theorem EnumOptions.whole_of_ofJson? {json : Json} {options : EnumOptions}
    (found : ofJson? json = some options)
    (few : ∀ names, json = .array names → names.length ≤ 2 ^ 53) :
    ∀ option ∈ options, Coercion.Whole option.2 := by
  obtain ⟨rfl, -⟩ := eq_listed_of_ofJson? found
  intro option inside
  unfold listed at inside
  split at inside
  · obtain ⟨mode, -, rfl⟩ := List.mem_map.mp inside
    refine Coercion.whole_of_natAbs_le ?_
    cases mode <;> decide
  · rename_i names
    obtain ⟨entry, there, rfl⟩ := List.mem_filterMap.mp inside
    obtain ⟨index, bound, same⟩ := List.mem_mapIdx.mp there
    obtain ⟨name, -, rfl⟩ := Option.map_eq_some_iff.mp same
    refine Coercion.whole_of_natAbs_le ?_
    have := few names rfl
    rw [Int.natAbs_natCast]
    omega
  · obtain ⟨entry, -, rfl⟩ := List.mem_map.mp inside
    exact Coercion.whole_integer _
  · cases inside

/-! ### Kinds -/

namespace UniformKind

/-- Whether a value is one of the uniform: of its kind and size, with numbers that are read
as themselves, a code that there is, a gradient with a stop, and sorted bindings. -/
def Fits : UniformKind → Value → Prop
  | float .., .float value => Coercion.Plain value
  | int .., .int value => Coercion.Whole value
  | vector default .., .vector values =>
    values.length = default.length ∧ ∀ value ∈ values, Coercion.Plain value
  | intVector default _, .intVector values =>
    values.length = default.length ∧ ∀ value ∈ values, Coercion.Whole value
  | bool _, .bool _ => True
  | boolVector default, .boolVector values => values.length = default.length
  | choice options _, .choice code => options.containsCode code
  | sampler _, .sampler _ => True
  | gradient _, .gradient ramp => ramp.stops ≠ []
  | button _, .button bindings => Sorted bindings
  | axis _, .axis bindings => bindings.Proper
  | _, _ => False

/-- Whether all codes of a choice are read as themselves. -/
def WholeCodes : UniformKind → Prop
  | choice options _ => ∀ option ∈ options, Coercion.Whole option.2
  | _ => True

theorem Fits.kind_eq {kind : UniformKind} {value : Value} (fits : kind.Fits value) :
    value.kind = kind.valueKind := by
  cases kind <;> cases value <;> first
    | rfl
    | exact fits.elim
    | exact congrArg ValueKind.vector fits.1
    | exact congrArg ValueKind.intVector fits.1
    | exact congrArg ValueKind.boolVector fits

theorem containsCode_coerceChoice {options : EnumOptions} {fallback : Int}
    (fits : options.containsCode fallback) (raw : Json) :
    options.containsCode (coerceChoice options fallback raw) := by
  have checked : ∀ code, options.containsCode
      (if options.containsCode code then code else fallback) := by
    intro code
    split
    · assumption
    · exact fits
  unfold coerceChoice
  dsimp only
  split
  · exact checked _
  · exact checked _
  · exact checked _
  · rename_i name
    cases found : options.codeOf? name with
    | none => exact fits
    | some code => exact EnumOptions.containsCode_of_codeOf? found
  · exact fits

theorem stops_coerceGradient {fallback : Gradient Float32} (fits : fallback.stops ≠ [])
    (raw : Json) : (coerceGradient fallback raw).stops ≠ [] := by
  unfold coerceGradient
  split
  · rename_i shorthand
    cases found : Gradient.ofShorthand? shorthand with
    | none => exact List.cons_ne_nil _ _
    | some ramp =>
      obtain ⟨entries, -, found⟩ := Option.bind_eq_some_iff.mp found
      split at found
      · cases found
      · rename_i enough
        cases found
        intro none
        rw [Option.getD_some] at none
        have := congrArg List.length none
        rw [List.length_mapIdx, List.length_nil] at this
        omega
  · cases found : (Gradient.decode raw).filter (!·.stops.isEmpty) with
    | none => exact fits
    | some ramp =>
      have := (Option.filter_eq_some_iff.mp found).2
      intro none
      rw [Option.getD_some] at none
      rw [none] at this
      cases this

/-- **Whatever is read fits**, when the default does. -/
theorem fits_coerce {kind : UniformKind} (fits : kind.Fits kind.defaultValue) (raw : Json) :
    kind.Fits (kind.coerce raw) := by
  cases kind with
  | float | int =>
    first
    | exact Coercion.plain_numberOrZero raw
    | exact Coercion.whole_integer raw
  | vector default =>
    exact ⟨Coercion.length_components default raw,
      Coercion.forall_components Coercion.plain_numberOrZero fits.2 raw⟩
  | intVector default =>
    exact ⟨Coercion.length_components default raw,
      Coercion.forall_components Coercion.whole_integer fits.2 raw⟩
  | bool | sampler => trivial
  | boolVector default => exact Coercion.length_components default raw
  | choice options default => exact containsCode_coerceChoice fits raw
  | gradient default => exact stops_coerceGradient fits raw
  | button default =>
    change Sorted ((ButtonBindings.decode raw).getD default)
    cases decoded : ButtonBindings.decode raw with
    | none => exact fits
    | some bindings => exact Json.sorted_of_mapOf decoded
  | axis default =>
    change AxisBindings.Proper ((AxisBindings.decode raw).getD default)
    cases decoded : AxisBindings.decode raw with
    | none => exact fits
    | some bindings => exact AxisBindings.proper_of_decode decoded

theorem plain_zeroVector (size : Nat) (color : Bool) :
    ∀ x ∈ zeroVector size color, Coercion.Plain x := by
  unfold zeroVector
  split
  · have one : Coercion.Plain 1 := by
      unfold Coercion.Plain Coercion.numberOrZero Coercion.number
      exact if_neg (by decide +kernel)
    simp [Coercion.plain_zero, one]
  · intro x inside
    rw [List.eq_of_mem_replicate inside]
    exact Coercion.plain_zero

theorem proper_axis (raw : Json) : ((AxisBindings.decode raw).getD []).Proper := by
  cases decoded : AxisBindings.decode raw with
  | none => exact ⟨List.Pairwise.nil, List.forall_mem_nil _⟩
  | some bindings => exact AxisBindings.proper_of_decode decoded

theorem sorted_button (raw : Json) : Sorted ((ButtonBindings.decode raw).getD []) := by
  cases decoded : ButtonBindings.decode raw with
  | none => exact List.Pairwise.nil
  | some bindings => exact Json.sorted_of_mapOf decoded

/-- **The default fits** the uniform that it belongs to. -/
theorem fits_classify {type : String} {settings : Metadata} {kind : UniformKind}
    (classified : classify type settings = some kind) : kind.Fits kind.defaultValue := by
  have whole : ∀ size, ∀ n ∈ List.replicate size (0 : Int), Coercion.Whole n := by
    intro size n inside
    rw [List.eq_of_mem_replicate inside]
    exact Coercion.whole_of_natAbs_le (by decide)
  unfold classify at classified
  dsimp only at classified
  split at classified
  case h_1 =>
    split at classified
    · cases classified
      exact proper_axis _
    · cases classified
      exact Coercion.plain_numberOrZero _
  case h_2 =>
    split at classified
    · rename_i options found
      cases classified
      obtain ⟨json, -, found⟩ := Option.bind_eq_some_iff.mp found
      exact containsCode_coerceChoice (EnumOptions.containsCode_firstCode
        (EnumOptions.eq_listed_of_ofJson? found).2) _
    · cases classified
      exact Coercion.whole_integer _
  case h_3 =>
    cases classified
    trivial
  case h_4 | h_5 | h_6 =>
    split at classified
    · cases classified
      exact sorted_button _
    · cases classified
      exact ⟨rfl, Coercion.forall_components Coercion.plain_numberOrZero
        (plain_zeroVector _ _) _⟩
  case h_7 | h_8 | h_9 =>
    cases classified
    exact ⟨rfl, Coercion.forall_components Coercion.whole_integer (whole _) _⟩
  case h_10 | h_11 | h_12 =>
    cases classified
    rfl
  case h_13 =>
    split at classified
    · cases classified
      exact stops_coerceGradient (List.cons_ne_nil _ _) _
    · cases classified
      trivial
  case h_14 => cases classified

/-- The codes of a choice are read as themselves. -/
theorem wholeCodes_classify {type : String} {settings : Metadata} {kind : UniformKind}
    (countable : settings.Countable) (classified : classify type settings = some kind) :
    kind.WholeCodes := by
  cases kind with
  | choice options default =>
    have found : settings.options.bind EnumOptions.ofJson? = some options := by
      unfold classify at classified
      dsimp only at classified
      split at classified
      case h_2 =>
        split at classified
        · rename_i found
          cases classified
          exact found
        · cases classified
      all_goals first | cases classified | (split at classified <;> cases classified)
    obtain ⟨json, given, found⟩ := Option.bind_eq_some_iff.mp found
    exact EnumOptions.whole_of_ofJson? found fun names same => countable names (same ▸ given)
  | _ => trivial

/-! ### The written form of a value that fits -/

theorem widenedItems_map {α : Type} (encode : α → Json) (values : List α) :
    Json.widenedItems (values.map encode) = values.map fun value => (encode value).widened := by
  induction values with
  | nil => rfl
  | cons value values ih => exact congrArg (_ :: ·) ih

theorem widened_ofDouble {x : Float} (finite : x.isFinite) : (Json.ofDouble x).widened = .double x := by
  rw [Json.ofDouble, if_pos finite]
  rfl

theorem toJson_vector {values : List Float} (finite : ∀ x ∈ values, x.isFinite) :
    (Value.vector values).toJson = .array (values.map .double) := by
  rw [Value.toJson, Value.encodePayload, Json.widened, widenedItems_map]
  exact congrArg Json.array (List.map_congr_left fun x inside => widened_ofDouble (finite x inside))

/-- **Coercion settles**: the written form of a value that fits is read as the value, when its
numbers are finite. -/
theorem coerce_toJson {kind : UniformKind} {value : Value} (fits : kind.Fits value)
    (finite : value.Finite) (whole : kind.WholeCodes) : kind.coerce value.toJson = value := by
  have read := value.readAs_toJson
  cases kind <;> cases value <;> try exact fits.elim
  case float.float value =>
    rw [Value.toJson, Value.encodePayload, widened_ofDouble finite]
    exact congrArg Value.float fits
  case int.int value => exact congrArg Value.int fits
  case vector.vector values =>
    rw [toJson_vector finite]
    refine congrArg Value.vector (Coercion.componentsOf_map (fun x inside => ⟨?_, ?_⟩) fits.1)
    · exact Json.noConfusion
    · exact fits.2 x inside
  case intVector.intVector values =>
    rw [Value.toJson, Value.encodePayload, Json.widened, widenedItems_map]
    refine congrArg Value.intVector (Coercion.componentsOf_map (fun n inside => ⟨?_, ?_⟩) fits.1)
    · exact Json.noConfusion
    · exact fits.2 n inside
  case bool.bool value => rfl
  case boolVector.boolVector values =>
    rw [Value.toJson, Value.encodePayload, Json.widened, widenedItems_map]
    refine congrArg Value.boolVector (Coercion.componentsOf_map (fun _ _ => ⟨?_, rfl⟩) fits)
    exact Json.noConfusion
  case choice.choice options default code =>
    obtain ⟨option, inside, same⟩ := List.any_eq_true.mp fits
    have same : option.2 = code := of_decide_eq_true same
    have same : Coercion.integer (.int code) = code := same ▸ whole option inside
    have checked : (if options.containsCode (Coercion.integer (.int code)) then
        Coercion.integer (.int code) else default) = code := by
      rw [same]
      exact if_pos fits
    exact congrArg Value.choice checked
  case sampler.sampler default texture =>
    have decoded := TextureDescriptor.decode_encode texture read
    exact congrArg (fun found => Value.sampler (found.getD default)) decoded
  case gradient.gradient default ramp =>
    have decoded := Gradient.decode_encode finite read
    have kept : (Gradient.decode (Value.gradient ramp).toJson).filter (!·.stops.isEmpty) =
        some ramp := by
      rw [decoded]
      have some : ramp.stops ≠ [] := fits
      exact Option.filter_some_pos (by simpa using some)
    exact congrArg (fun found => Value.gradient (found.getD default)) kept
  case button.button default bindings =>
    have decoded := ButtonBindings.decode_encode fits read
    exact congrArg (fun found => Value.button (found.getD default)) decoded
  case axis.axis default bindings =>
    have decoded := AxisBindings.decode_encode fits finite read
    exact congrArg (fun found => Value.axis (found.getD default)) decoded

end UniformKind
end Collage
