import Collage.Proofs.Program.Standing
import Collage.Proofs.Tree.Values
import Collage.Proofs.Uniform.Extent

/-!
# Extracting uniforms again

Compiling a layer again with the values that its uniforms carry changes nothing
(`Uniform.extract_again`).  Each uniform finds its own value first, and a value that was read once
is read as itself; where the program keeps the uniforms does not change either, since a device
forgets no location.
-/

namespace Collage

/-! ### Looking up locations again -/

namespace Device

/-- Whether a device has become another one by looking up locations. -/
def Surveyed (before after : Device) : Prop :=
  ∃ more, after = { before with locations := before.locations ++ more }

theorem Surveyed.refl (device : Device) : Surveyed device device :=
  ⟨[], by rw [List.append_nil]⟩

theorem Surveyed.trans {first second third : Device} (front : Surveyed first second)
    (back : Surveyed second third) : Surveyed first third := by
  obtain ⟨some, rfl⟩ := front
  obtain ⟨others, rfl⟩ := back
  exact ⟨some ++ others, by rw [List.append_assoc]⟩

theorem surveyed_uniformLocation (program : Handle) (name : String) (device : Device) :
    Surveyed device (device.uniformLocation program name).2 := by
  unfold uniformLocation
  split
  · exact .refl device
  · cases device.locations.idxOf? (program, name) with
    | none => exact ⟨[(program, name)], rfl⟩
    | some place => exact .refl device

/-- A location that was looked up is found where it was, without a change. -/
theorem uniformLocation_again (program : Handle) (name : String) {device later : Device}
    (since : Surveyed (device.uniformLocation program name).2 later) :
    later.uniformLocation program name = ((device.uniformLocation program name).1, later) := by
  obtain ⟨more, rfl⟩ := since
  have behind (front back : List (Handle × String)) : (front ++ back).idxOf? (program, name) =
      (front.idxOf? (program, name)).or
        ((back.idxOf? (program, name)).map (· + front.length)) := List.findIdx?_append
  cases keeps : device.keepsUniform program name with
  | false =>
    have gone : device.uniformLocation program name = (none, device) := by
      rw [uniformLocation, keeps]
      rfl
    rw [gone, uniformLocation]
    exact if_pos (congrArg (!·) keeps)
  | true =>
    -- asked again, the device still has the name where it was, in front of all that came later
    have again (locations : List (Handle × String)) {place : Nat}
        (there : locations.idxOf? (program, name) = some place) :
        uniformLocation program name { device with locations } =
          (some place, { device with locations }) := by
      have same : keepsUniform program name { device with locations } = true := keeps
      rw [uniformLocation, same, if_neg (by decide), there]
    cases known : device.locations.idxOf? (program, name) with
    | none =>
      have first : device.uniformLocation program name = (some device.locations.length,
          { device with locations := device.locations ++ [(program, name)] }) := by
        rw [uniformLocation, keeps, if_neg (by decide), known]
      rw [first]
      refine again _ ?_
      rw [behind, behind, known]
      simp
    | some place =>
      rw [again device.locations known]
      exact again _ (by rw [behind, known]; rfl)

end Device

namespace CompiledTree

open Device (Surveyed)

theorem locate_cons (program : Handle) (uniform : Uniform) (rest : List Uniform)
    (device : Device) : locate program (uniform :: rest) device =
      let first := device.uniformLocation program uniform.name
      let others := locate program rest first.2
      ({ uniform with location := first.1 } :: others.1, others.2) := by
  unfold locate
  rw [List.mapM_cons]
  rfl

theorem surveyed_locate (program : Handle) : ∀ (uniforms : List Uniform) (device : Device),
    Surveyed device (locate program uniforms device).2
  | [], device => .refl device
  | uniform :: rest, device => by
    rw [locate_cons]
    exact (device.surveyed_uniformLocation program uniform.name).trans
      (surveyed_locate program rest _)

theorem locate_again (program : Handle) : ∀ (uniforms : List Uniform) {device later : Device},
    Surveyed (locate program uniforms device).2 later →
    locate program uniforms later = ((locate program uniforms device).1, later)
  | [], _, _, _ => rfl
  | uniform :: rest, device, later, since => by
    rw [locate_cons] at since
    rw [locate_cons, locate_cons, Device.uniformLocation_again program uniform.name
      ((surveyed_locate program rest _).trans since)]
    dsimp only
    rw [locate_again program rest since]

end CompiledTree

namespace Uniform

/-- A uniform where a program keeps it. -/
def placed (resolve : String → Option Nat) (uniform : Uniform) : Uniform :=
  { uniform with location := resolve uniform.name }

/-- The uniforms that a source declares, given the stored values, where a program keeps them. -/
def extractAt (resolve : String → Option Nat) (source : String) (previous : List ShaderValue) :
    List Uniform :=
  (extract source previous).map (placed resolve)

theorem values_extractAt (resolve : String → Option Nat) (source : String)
    (previous : List ShaderValue) :
    (extractAt resolve source previous).map (·.value) =
      (extract source previous).map (·.value) := by
  rw [extractAt, List.map_map]
  rfl

/-- **Extraction is idempotent**: uniforms that are extracted with the values which they were given
are the same again, with the same values in the same places, as long as their numbers are finite;
and so are those for which a device is asked where a program keeps them.

The bound on the source is none that a source can reach, as it would take a petabyte; without one, a
comment could list more choices than double precision can number. -/
theorem extract_again {source : String} (small : source.length ≤ 2 ^ 50)
    {previous : List ShaderValue}
    (finite : ∀ uniform ∈ extract source previous, uniform.value.value.Finite) :
    (∀ resolve : String → Option Nat,
      extractAt resolve source ((extractAt resolve source previous).map (·.value)) =
        extractAt resolve source previous) ∧
    ∀ (program : Handle) (device : Device) (located : List Uniform) (later : Device),
      CompiledTree.locate program (extract source previous) device = (located, later) →
      CompiledTree.locate program (extract source (located.map (·.value))) later =
        (located, later) := by
  have carries := carries_extract source previous
  have kept := carries.extract_values finite fun uniform inside => by
    obtain ⟨d, there, backs⟩ := exists_of_mem_right carries inside
    have known : uniform.settings = d.settings := congrArg Uniform.settings backs.same
    rw [← String.length_toList] at small
    exact known ▸ countable_of_length_le small d there
  rw [unplaced_extract] at kept
  constructor
  · intro resolve
    rw [values_extractAt, extractAt, kept]
    rfl
  · intro program device located later found
    have values : located.map (·.value) = (extract source previous).map (·.value) := by
      have same := congrArg (List.map (·.value))
        (CompiledTree.locate_unplaced program (extract source previous) device)
      rwa [found, List.map_map, List.map_map] at same
    rw [values, kept]
    have again := CompiledTree.locate_again program (extract source previous) (.refl
      (CompiledTree.locate program (extract source previous) device).2)
    rwa [found] at again

/-- A layer with uniforms of many kinds, one of them with an integer that is not read as itself. -/
theorem extract_again_motley :
    let source := "uniform float speed; // min: 0, default: 0.5\n" ++
      "uniform int mode; // enum: ['off', 'on'], default: 'on'\nuniform int seed;\n" ++
      "uniform sampler2D sky; // type: 'gradient'\nuniform vec4 jump; // type: 'button'"
    let previous : List ShaderValue := [⟨"seed", .int 9007199254740993, none⟩,
      ⟨"pace", .float 2.5, none⟩, ⟨"jump", .button [("keyboard", "Space")], none⟩]
    let resolve := fun name => ["mode", "sky"].idxOf? name
    source.length ≤ 2 ^ 50 ∧
    (extract source previous).map (·.value.value) = [.float 0.5, .choice 1, .int 9007199254740992,
      .gradient Gradient.standard, .button [("keyboard", "Space")]] ∧
    extractAt resolve source ((extractAt resolve source previous).map (·.value)) =
      extractAt resolve source previous := by
  intro source previous resolve
  have written : WrittenOut source _ :=
    .append (.append (.of_characters _) (.of_characters _)) (.of_characters _)
  rw [WrittenOut] at written
  have small : source.length ≤ 2 ^ 50 := by
    rw [← String.length_toList, written]
    decide +kernel
  have values : (extract source previous).map (·.value.value) = [.float 0.5, .choice 1,
      .int 9007199254740992, .gradient Gradient.standard, .button [("keyboard", "Space")]] := by
    rw [extract, written]
    decide +kernel
  refine ⟨small, values, (extract_again small fun uniform inside => ?_).1 resolve⟩
  have among := List.mem_map_of_mem (f := fun uniform : Uniform => uniform.value.value) inside
  rw [values] at among
  have all : ∀ value ∈ [Value.float 0.5, .choice 1, .int 9007199254740992,
      .gradient Gradient.standard, .button [("keyboard", "Space")]], value.Finite := by
    decide +kernel
  exact all _ among

end Uniform
end Collage
