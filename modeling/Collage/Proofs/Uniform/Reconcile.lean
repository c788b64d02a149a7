import Collage.Proofs.Uniform.Settled
import Collage.Tree.Edit

/-!
# Uniforms and their values

The uniforms of a layer are at any time those that its code declares, each with a value
that fits it (`Uniform.Carries`): extracting them gives this, whatever was stored before, and
editing a value keeps it.  When uniforms are extracted again with the very values that they
carry, each finds its own value first, and keeps it (`Uniform.extract_values`).
-/

namespace Collage
namespace Uniform

/-- The uniform of a declaration in a source, with a value. -/
def Declared.uniform (source : List Char) (declared : Declared) (value : ShaderValue) : Uniform :=
  ⟨declared.declaration.name, declared.declaration.type, declared.kind, declared.settings, none,
    Collage.occurrences source declared.declaration.name.toList, value⟩

/-- The uniform before a program has been asked where it keeps it. -/
def unplaced (uniform : Uniform) : Uniform :=
  { uniform with location := none }

/-- Whether a value is one that a declared uniform may have. -/
structure Declared.Settled (declared : Declared) (value : ShaderValue) : Prop where
  name : value.name = declared.declaration.name
  fits : declared.kind.Fits value.value
  curve : value.curve.isSome → declared.kind.acceptsCurve

/-- Whether a uniform is the one that was declared, with a value that it may have. -/
structure Declared.Backs (source : List Char) (declared : Declared) (uniform : Uniform) :
    Prop where
  same : uniform.unplaced = declared.uniform source uniform.value
  settled : declared.Settled uniform.value

/-- Whether uniforms are those that a source declares, with values that they may have. -/
def Carries (source : String) (uniforms : List Uniform) : Prop :=
  List.Forall₂ (Declared.Backs source.toList) (declared source.toList) uniforms

/-! ### Declared uniforms -/

theorem classify_of_mem_declared {source : List Char} {d : Declared}
    (inside : d ∈ declared source) : ∃ comment, d.settings = Metadata.parse comment ∧
      UniformKind.classify d.declaration.type d.settings = some d.kind := by
  obtain ⟨declaration, -, same⟩ := List.mem_filterMap.mp inside
  obtain ⟨kind, classified, rfl⟩ := Option.map_eq_some_iff.mp same
  exact ⟨_, rfl, classified⟩

theorem fits_defaultValue {source : List Char} {d : Declared} (inside : d ∈ declared source) :
    d.kind.Fits d.kind.defaultValue := by
  obtain ⟨comment, -, classified⟩ := classify_of_mem_declared inside
  exact UniformKind.fits_classify classified

theorem isSome_filter {α : Type} {option : Option α} {b : Bool}
    (kept : (option.filter fun _ => b).isSome) : b = true := by
  obtain ⟨x, kept⟩ := Option.isSome_iff_exists.mp kept
  exact (Option.filter_eq_some_iff.mp kept).2

theorem Declared.settled_freshValue {d : Declared} (fits : d.kind.Fits d.kind.defaultValue) :
    d.Settled (freshValue d) :=
  ⟨rfl, fits, isSome_filter⟩

theorem Declared.settled_keptValue {d : Declared} (fits : d.kind.Fits d.kind.defaultValue)
    (stored : ShaderValue) : d.Settled (keptValue d stored) := by
  unfold keptValue
  split
  · exact ⟨rfl, UniformKind.fits_coerce fits _, isSome_filter⟩
  · exact settled_freshValue fits

/-- Whatever was stored, the values of uniforms are ones that they may have. -/
theorem settled_reconcileFrom (names : List String) (previous : List ShaderValue) :
    ∀ (uniforms : List Declared) (consumed : List Nat) (index : Nat),
      (∀ d ∈ uniforms, d.kind.Fits d.kind.defaultValue) →
      List.Forall₂ Declared.Settled uniforms
        (reconcileFrom names previous consumed index uniforms)
  | [], _, _, _ => .nil
  | d :: rest, consumed, index, fits => by
    obtain ⟨first, others⟩ := List.forall_mem_cons.mp fits
    unfold reconcileFrom
    split
    · refine .cons ?_ (settled_reconcileFrom names previous rest _ _ others)
      split
      · exact Declared.settled_keptValue first _
      · exact Declared.settled_freshValue first
    · exact .cons (Declared.settled_freshValue first)
        (settled_reconcileFrom names previous rest _ _ others)

theorem forall₂_zipWith {α β γ : Type} {R : α → β → Prop} {S : α → γ → Prop} {f : α → β → γ}
    (each : ∀ a b, R a b → S a (f a b)) {as : List α} {bs : List β} (related : List.Forall₂ R as bs) :
    List.Forall₂ S as (List.zipWith f as bs) := by
  induction related with
  | nil => exact .nil
  | cons first _ ih => exact .cons (each _ _ first) ih

/-- **Extracted uniforms** are those that the source declares. -/
theorem carries_extract (source : String) (previous : List ShaderValue) :
    Carries source (extract source previous) :=
  forall₂_zipWith (fun _ _ settled => ⟨rfl, settled⟩)
    (settled_reconcileFrom _ previous _ [] 0 fun _ inside => fits_defaultValue inside)

/-! ### Editing -/

theorem Declared.Backs.withValue {source : List Char} {d : Declared} {uniform : Uniform}
    (backs : d.Backs source uniform) (fits : d.kind.Fits d.kind.defaultValue)
    (value : ShaderValue) : d.Backs source (uniform.withValue value) := by
  have name : uniform.name = d.declaration.name := congrArg Uniform.name backs.same
  have kind : uniform.kind = d.kind := congrArg Uniform.kind backs.same
  refine ⟨?_, name, ?_, ?_⟩
  · have same := congrArg (fun u : Uniform => { u with value := (uniform.withValue value).value })
      backs.same
    exact same
  · have fits := UniformKind.fits_coerce fits value.value.toJson
    rwa [← kind] at fits ⊢
  · rw [← kind]
    exact isSome_filter

/-- **An edit** keeps the uniforms and gives one of them another value that it may have. -/
theorem Carries.editUniform? {source : String} {uniforms edited : List Uniform}
    {value : ShaderValue} (carries : Carries source uniforms)
    (done : CompiledTree.editUniform? value uniforms = some edited) : Carries source edited := by
  have each : ∀ {ds : List Declared} {uniforms edited : List Uniform},
      List.Forall₂ (Declared.Backs source.toList) ds uniforms →
      (∀ d ∈ ds, d.kind.Fits d.kind.defaultValue) →
      CompiledTree.editUniform? value uniforms = some edited →
      List.Forall₂ (Declared.Backs source.toList) ds edited := by
    intro ds uniforms edited related
    induction related generalizing edited with
    | nil => exact fun _ done => by cases done
    | cons backs rest ih =>
      intro fits done
      obtain ⟨first, others⟩ := List.forall_mem_cons.mp fits
      unfold CompiledTree.editUniform? at done
      split at done
      · cases done
        exact .cons (backs.withValue first value) rest
      · obtain ⟨after, later, rfl⟩ := Option.map_eq_some_iff.mp done
        exact .cons backs (ih others later)
  exact each carries (fun _ inside => fits_defaultValue inside) done

/-! ### Extracting again -/

/-- A value that a uniform may have is kept as it is, when its numbers are finite. -/
theorem Declared.Settled.keptValue_eq {d : Declared} {value : ShaderValue}
    (settled : d.Settled value) (finite : value.value.Finite) (whole : d.kind.WholeCodes) :
    keptValue d value = value := by
  have curve : (value.curve.filter fun _ => d.kind.acceptsCurve) = value.curve := by
    cases given : value.curve with
    | none => rfl
    | some curve => exact Option.filter_some_pos (settled.curve (by rw [given]; rfl))
  unfold keptValue
  rw [if_pos settled.fits.kind_eq, UniformKind.coerce_toJson settled.fits finite whole, curve,
    ← settled.name]

/-- With their own values stored in order, each of the uniforms takes over its own: all before
it are taken, and it has the name. -/
theorem reconcileFrom_own (names : List String) (previous : List ShaderValue) :
    ∀ (uniforms : List Declared) (values : List ShaderValue) (consumed : List Nat) (index : Nat),
      previous.drop index = values → (∀ i, i ∈ consumed ↔ i < index) →
      List.Forall₂ (fun d value => value.name = d.declaration.name ∧ keptValue d value = value)
        uniforms values →
      reconcileFrom names previous consumed index uniforms = values
  | [], values, _, _, _, _, own => by
    cases own
    rfl
  | d :: rest, values, consumed, index, behind, taken, own => by
    obtain ⟨value, others, ⟨name, kept⟩, ownOthers, rfl⟩ := List.forall₂_cons_left_iff.mp own
    have here : previous[index]? = some value := by
      rw [← Nat.add_zero index, ← List.getElem?_drop, behind]
      rfl
    have after : previous.drop (index + 1) = others := by
      rw [← List.drop_drop, behind, List.drop_one, List.tail_cons]
    have prior : priorIndex names previous consumed index d = some index := by
      unfold priorIndex
      dsimp only
      rw [List.find?_range_eq_some.mpr ⟨?_, ?_, ?_⟩]
      · rfl
      · simp [taken, here, name]
      · exact List.mem_range.mpr (List.getElem?_eq_some_iff.mp here).1
      · intro i before
        simp [taken, before]
    unfold reconcileFrom
    rw [prior]
    dsimp only
    rw [here]
    dsimp only
    rw [kept, reconcileFrom_own names previous rest others (index :: consumed) (index + 1) after
      (fun i => by rw [List.mem_cons, taken]; omega) ownOthers]

/-- **Extracting again with the values that uniforms carry** gives them the same values, when
their numbers are finite. -/
theorem Carries.extract_values {source : String} {uniforms : List Uniform}
    (carries : Carries source uniforms) (finite : ∀ uniform ∈ uniforms, uniform.value.value.Finite)
    (countable : ∀ uniform ∈ uniforms, uniform.settings.Countable) :
    extract source (uniforms.map (·.value)) = uniforms.map unplaced := by
  have own : ∀ {ds : List Declared} {uniforms : List Uniform},
      List.Forall₂ (Declared.Backs source.toList) ds uniforms → (∀ d ∈ ds, d ∈ declared source.toList) →
      (∀ uniform ∈ uniforms, uniform.value.value.Finite) →
      (∀ uniform ∈ uniforms, uniform.settings.Countable) →
      List.Forall₂ (fun d value => value.name = d.declaration.name ∧ keptValue d value = value)
        ds (uniforms.map (·.value)) ∧
      List.zipWith (Declared.uniform source.toList) ds (uniforms.map (·.value)) =
        uniforms.map unplaced := by
    intro ds uniforms related
    induction related with
    | nil => exact fun _ _ _ => ⟨.nil, rfl⟩
    | @cons d uniform ds uniforms backs rest ih =>
      intro inside finite countable
      obtain ⟨finiteFirst, finite⟩ := List.forall_mem_cons.mp finite
      obtain ⟨countableFirst, countable⟩ := List.forall_mem_cons.mp countable
      obtain ⟨insideFirst, inside⟩ := List.forall_mem_cons.mp inside
      obtain ⟨others, rebuilt⟩ := ih inside finite countable
      obtain ⟨comment, -, classified⟩ := classify_of_mem_declared insideFirst
      have known : uniform.settings = d.settings := congrArg Uniform.settings backs.same
      have whole : d.kind.WholeCodes :=
        UniformKind.wholeCodes_classify (known ▸ countableFirst) classified
      refine ⟨.cons ⟨backs.settled.name, backs.settled.keptValue_eq finiteFirst whole⟩ others, ?_⟩
      rw [List.map_cons, List.zipWith_cons_cons, rebuilt, ← backs.same, List.map_cons]
  obtain ⟨own, rebuilt⟩ := own carries (fun _ => id) finite countable
  have kept : reconcile (uniforms.map (·.value)) (declared source.toList) =
      uniforms.map (·.value) :=
    reconcileFrom_own _ _ _ _ [] 0 (List.drop_zero) (fun i => by simp) own
  have unfolded : extract source (uniforms.map (·.value)) =
      List.zipWith (Declared.uniform source.toList) (declared source.toList)
        (reconcile (uniforms.map (·.value)) (declared source.toList)) := rfl
  rw [unfolded, kept, rebuilt]

end Uniform
end Collage
