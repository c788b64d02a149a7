import Collage.Proofs.Uniform.Adoption

/-!
# Which values survive being read again

A value goes through its written form whenever the code of its layer is compiled again.  A valid
value (`UniformKind.Valid`) comes out as it went in exactly if its integers do
(`UniformKind.kept_iff`): they pass through double precision, which holds what has no more than
fifty-three binary digits besides zeros at the end, and takes the greatest integer of sixty-four
bits for what it is (`Coercion.whole_iff_exact`).  A larger one is replaced by a neighbour
(`UniformKind.exists_altered`).
-/

namespace Collage

/-! ### Numbers -/

namespace Coercion

/-- An integer with at most fifty-three binary digits besides zeros at the end, or the greatest one
of sixty-four bits. -/
def Exact (n : Int) : Prop :=
  (∃ mantissa zeros : Nat, n.natAbs = mantissa * 2 ^ zeros ∧ mantissa < 2 ^ 53) ∨
    n = int64Highest

theorem holds_of_short {n : Int} (word : n.natAbs ≤ 2 ^ 63) {mantissa zeros : Nat}
    (exact : n.natAbs = mantissa * 2 ^ zeros) (short : mantissa < 2 ^ 53) :
    BinaryFormat.Holds n := by
  rcases Nat.eq_zero_or_pos mantissa with rfl | some
  · exact ⟨0, 0, by rw [exact, Nat.zero_mul, Nat.zero_mul], by decide, by decide⟩
  · have most : zeros ≤ 63 := by
      refine (Nat.pow_le_pow_iff_right (by decide : 1 < 2)).mp (le_trans ?_ word)
      rw [exact]
      exact Nat.le_mul_of_pos_left _ some
    exact ⟨mantissa, zeros, exact, short, by omega⟩

/-- **An integer is read as itself** exactly if it has few digits, or is the greatest one. -/
theorem whole_iff_exact {n : Int} (low : int64Lowest ≤ n) (high : n ≤ int64Highest) :
    Whole n ↔ Exact n := by
  constructor
  · intro whole
    have settles : BinaryFormat.Settles (integer (.int n)) := by
      rw [integer_eq]
      exact Float.settles_integerPart _
    rw [whole] at settles
    rcases settles with ⟨⟨mantissa, zeros, exact, short, -⟩, -, -⟩ | greatest
    · exact .inl ⟨mantissa, zeros, exact, short⟩
    · exact .inr greatest
  · rintro (⟨mantissa, zeros, exact, short⟩ | rfl)
    · have word : n.natAbs ≤ 2 ^ 63 := by
        have least : int64Lowest = -2 ^ 63 := rfl
        have greatest : int64Highest = 2 ^ 63 - 1 := rfl
        omega
      exact whole_of_settles (.inl ⟨holds_of_short word exact short, low, high⟩)
    · exact whole_of_settles (.inr rfl)

theorem plain_of_finite {x : Float} (finite : x.isFinite) (unsigned : x ≠ -0) : Plain x := by
  have defined : x.isNaN = false := by
    rw [Float.isNaN_eq_decide_eq_nan, decide_eq_false_iff_not]
    rintro rfl
    exact absurd finite (by decide +kernel)
  have read : numberOrZero (.double x) = if x.isNaN || x == 0 then 0 else x := rfl
  rw [Plain, read, defined, Bool.false_or]
  split
  · rename_i zero
    obtain ⟨-, -, same | ⟨rfl, -⟩ | ⟨negative, -⟩⟩ := Float.beq_iff_ne_nan_and_eq.mp zero
    · exact same.symm
    · rfl
    · exact absurd negative unsigned
  · rfl

end Coercion

/-! ### Values -/

/-- Whether no number that is read on its own is negative zero. -/
def Value.Unsigned : Value → Prop
  | float value => value ≠ -0
  | vector values => ∀ value ∈ values, value ≠ -0
  | _ => True

namespace UniformKind

/-- Whether a value has one of the codes, or a stop, when it needs one. -/
def Offers : UniformKind → Value → Prop
  | choice options _, .choice code => options.containsCode code
  | gradient _, .gradient ramp => ramp.stops ≠ []
  | _, _ => True

/-- Whether a value is a valid one of the uniform. -/
structure Valid (kind : UniformKind) (value : Value) : Prop where
  kind_eq : value.kind = kind.valueKind
  proper : value.Proper
  finite : value.Finite
  unsigned : value.Unsigned
  offers : kind.Offers value

/-- Whether all integers of a value are exact.  A code that is not may still be the default, as
long as the one that it is taken for is no code. -/
def Keeps : UniformKind → Value → Prop
  | int .., .int value => Coercion.Exact value
  | intVector .., .intVector values => ∀ value ∈ values, Coercion.Exact value
  | choice options default, .choice code =>
    Coercion.Exact code ∨
      code = default ∧ ¬ options.containsCode (Coercion.integer (.int code))
  | _, _ => True

variable {kind : UniformKind} {value : Value}

theorem coerce_intVector (default : List Int) (range : NumericRange) {values : List Int}
    (same : values.length = default.length) :
    (intVector default range).coerce (Value.intVector values).toJson =
      .intVector (values.map fun value => Coercion.integer (.int value)) := by
  rw [Value.toJson, Value.encodePayload, Json.widened, widenedItems_map]
  refine congrArg Value.intVector ?_
  induction values generalizing default with
  | nil =>
    rw [List.eq_nil_of_length_eq_zero same.symm]
    rfl
  | cons value values ih =>
    cases default with
    | nil => cases same
    | cons fallback default => exact congrArg (_ :: ·) (ih default (Nat.succ.inj same))

/-- A code that belongs to a choice is read as itself exactly if it is kept. -/
theorem coerce_choice_iff {options : EnumOptions} {default code : Int}
    (listed : options.containsCode code) (low : int64Lowest ≤ code) (high : code ≤ int64Highest) :
    (choice options default).coerce (Value.choice code).toJson = .choice code ↔
      (choice options default).Keeps (.choice code) := by
  have read : (choice options default).coerce (Value.choice code).toJson =
      .choice (if options.containsCode (Coercion.integer (.int code)) then
        Coercion.integer (.int code) else default) := rfl
  rw [read, Value.choice.injEq, Keeps, ← Coercion.whole_iff_exact low high, Coercion.Whole]
  split
  · rename_i there
    simp [there]
  · rename_i gone
    constructor
    · intro same
      exact .inr ⟨same.symm, gone⟩
    · rintro (whole | ⟨same, -⟩)
      · exact absurd listed (whole ▸ gone)
      · exact same.symm

/-- **A valid value is read as itself** exactly if its integers are kept. -/
theorem Valid.coerce_toJson_iff (valid : kind.Valid value) :
    kind.coerce value.toJson = value ↔ kind.Keeps value := by
  obtain ⟨same, proper, finite, unsigned, offers⟩ := valid
  -- what holds no integers fits, and is read as itself whatever it is
  have settled (fits : kind.Fits value) (whole : kind.WholeCodes) (keeps : kind.Keeps value) :
      kind.coerce value.toJson = value ↔ kind.Keeps value :=
    iff_of_true (coerce_toJson fits finite whole) keeps
  cases kind <;> cases value <;> try exact ValueKind.noConfusion same
  case float.float default range value =>
    exact settled (Coercion.plain_of_finite finite unsigned) trivial trivial
  case int.int default range value =>
    have read : (int default range).coerce (Value.int value).toJson =
        .int (Coercion.integer (.int value)) := rfl
    rw [read, Value.int.injEq]
    exact Coercion.whole_iff_exact proper.1 proper.2
  case vector.vector default range color values =>
    exact settled ⟨ValueKind.vector.inj same, fun x inside =>
      Coercion.plain_of_finite (finite x inside) (unsigned x inside)⟩ trivial trivial
  case intVector.intVector default range values =>
    rw [coerce_intVector default range (ValueKind.intVector.inj same), Value.intVector.injEq]
    have each : values.map (fun value => Coercion.integer (.int value)) = values ↔
        ∀ value ∈ values, Coercion.Whole value := by
      have inj := List.map_inj_left (l := values) (g := id)
        (f := fun value => Coercion.integer (.int value))
      rwa [List.map_id] at inj
    exact each.trans <| forall₂_congr fun n inside =>
      Coercion.whole_iff_exact (proper n inside).1 (proper n inside).2
  case bool.bool => exact settled trivial trivial trivial
  case boolVector.boolVector => exact settled (ValueKind.boolVector.inj same) trivial trivial
  case choice.choice options default code =>
    exact coerce_choice_iff offers proper.1 proper.2
  case sampler.sampler => exact settled trivial trivial trivial
  case gradient.gradient => exact settled offers trivial trivial
  case button.button => exact settled proper trivial trivial
  case axis.axis => exact settled proper trivial trivial

end UniformKind

/-! ### Compiling again -/

namespace Uniform

variable {source : String} {previous : List ShaderValue} {place : Nat} {d : Declared}

/-- The uniform at a place is the one that is declared there, with what it takes over. -/
theorem getElem?_extract (source : String) (previous : List ShaderValue) (place : Nat) :
    (extract source previous)[place]? = (declared source.toList)[place]?.map fun d =>
      d.uniform source.toList
        (reconciled ((declared source.toList).map (·.declaration.name)) previous place d) := by
  have unfolded : extract source previous =
      List.zipWith (Declared.uniform source.toList) (declared source.toList)
        (reconcile previous (declared source.toList)) := rfl
  have turns : reconcile previous (declared source.toList) =
      (declared source.toList).zipIdx.map fun turn =>
        reconciled ((declared source.toList).map (·.declaration.name)) previous turn.2 turn.1 := by
    rw [reconcile, reconcileFrom_eq]
    refine takeTurns_eq (nodup_declared _) ?_ (fun turn inside => ?_) (List.forall_mem_nil _)
    · rw [List.zipIdx_map_snd]
      exact List.nodup_range'
    · exact List.mem_zipIdx_iff_getElem?.mp inside
  rw [unfolded, turns, List.getElem?_zipWith, List.getElem?_map, List.getElem?_zipIdx]
  cases (declared source.toList)[place]? with
  | none => rfl
  | some d => simp

/-- A uniform with a stored value of its name and its kind is given it as it is read again. -/
theorem reconciled_named (names : List String) (place : Nat) {stored : ShaderValue}
    (named : previous.find? (·.name = d.declaration.name) = some stored)
    (same : stored.value.kind = d.kind.valueKind) :
    (reconciled names previous place d).value = d.kind.coerce stored.value.toJson := by
  obtain ⟨isNamed, found, bound, there, before⟩ := List.find?_eq_some_iff_getElem.mp named
  have first : previous.findIdx? (·.name = d.declaration.name) = some found := by
    refine List.findIdx?_eq_some_iff_getElem.mpr ⟨bound, ?_, fun earlier less => ?_⟩
    · rw [there]
      exact isNamed
    · simpa using before earlier less
  have adopts : adopted? names previous place d = some found := by
    rw [adopted?, first, Option.some_or]
  rw [reconciled, adopts, Option.bind_some, List.getElem?_eq_getElem bound, there,
    Option.filter_some, if_pos (decide_eq_true same)]

end Uniform

namespace UniformKind

/-- **What survives.**  A valid value of a uniform comes out of its written form as it went in, and
stays the value of a uniform that is compiled again with it, exactly if its integers are kept. -/
theorem lossless_iff {kind : UniformKind} {value : Value} (valid : kind.Valid value) :
    (kind.coerce value.toJson = value ↔ kind.Keeps value) ∧
    ∀ (source : String) (previous : List ShaderValue) (place : Nat) (d : Uniform.Declared)
      (stored : ShaderValue), (Uniform.declared source.toList)[place]? = some d →
      d.kind = kind → previous.find? (·.name = d.declaration.name) = some stored →
      stored.value = value →
      ∃ uniform, (Uniform.extract source previous)[place]? = some uniform ∧
        uniform.name = d.declaration.name ∧
        (uniform.value.value = value ↔ kind.Keeps value) := by
  refine ⟨valid.coerce_toJson_iff, ?_⟩
  rintro source previous place d stored there rfl named rfl
  refine ⟨_, (Uniform.getElem?_extract source previous place).trans (congrArg _ there), rfl, ?_⟩
  have given := Uniform.reconciled_named
    ((Uniform.declared source.toList).map (·.declaration.name)) place named valid.kind_eq
  rw [← valid.coerce_toJson_iff, ← given]
  rfl

theorem valid_int {n : Int} (low : int64Lowest ≤ n) (high : n ≤ int64Highest) :
    (int 0 {}).Valid (.int n) :=
  ⟨rfl, ⟨low, high⟩, trivial, trivial, trivial⟩

/-- The greatest integer has sixty-three binary digits, and is kept. -/
theorem lossless_iff_greatest :
    (int 0 {}).Valid (.int int64Highest) ∧ (int 0 {}).Keeps (.int int64Highest) ∧
      (int 0 {}).coerce (Value.int int64Highest).toJson = .int int64Highest := by
  have valid : (int 0 {}).Valid (.int int64Highest) := valid_int (by decide) le_rfl
  exact ⟨valid, .inr rfl, (lossless_iff valid).1.mpr (.inr rfl)⟩

/-- **Not every valid value survives**: the integer after the fifty-third power of two becomes that
power, also when a uniform is compiled again. -/
theorem exists_altered :
    (int 0 {}).Valid (.int 9007199254740993) ∧
    (int 0 {}).coerce (Value.int 9007199254740993).toJson = .int 9007199254740992 ∧
    (Uniform.extract "uniform int seed;" [⟨"seed", .int 9007199254740993, none⟩]).map
      (·.value.value) = [.int 9007199254740992] :=
  ⟨valid_int (by decide) (by decide), by decide +kernel, by decide +kernel⟩

end UniformKind
end Collage
