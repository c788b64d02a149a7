import Collage.Program.Build
import Collage.Proofs.Frame.Outcome
import Mathlib.Data.Multiset.MapFold
import Mathlib.Data.Multiset.UnionInter

/-!
# The ledger of a device

`Device.Holds` says which shaders and programs there are on a device, and what they
were made from; in whatever order, and each with a handle of its own that was not
deleted before.  Every call about shaders and programs has a lemma that says what it
adds to the ledger or takes from it, and so has a `ProgramBuilder`: building a program
adds the program and nothing else, and adds nothing when it fails (`build_ok`,
`build_error`).

A call that deletes has a lemma only for what is there.  So a development that goes by
the ledger deletes nothing twice.

What a device of some traits may compile and link, and why it may not, is said without the
number of what it was asked for before: `Supports` and `Lacks` of a language version,
`Accepts` and `Refuses` of a source.
-/

namespace Collage

/-- The shader or program that a call deletes. -/
def DeviceEvent.deleted? : DeviceEvent → Option Handle
  | .deleteShader handle => some handle
  | .deleteProgram handle => some handle
  | _ => none

/-- The vertex shader of a language version. -/
def vertexObject (version : String) : ShaderObject :=
  let source := ShaderLibrary.vertex version
  ⟨.vertex, source, Device.declaredUniforms source.toList⟩

/-- The shader that a fragment source becomes. -/
def fragmentObject (source : String) : ShaderObject :=
  ⟨.fragment, source, Device.declaredUniforms source.toList⟩

namespace DeviceTraits

/-- A device may compile the vertex shader of a version. -/
def Supports (traits : DeviceTraits) (version : String) : Prop :=
  traits.vertexFailure = none ∧
    ∃ asked, Device.shaderLog? traits asked .vertex (ShaderLibrary.vertex version) = none

/-- A device may give a log instead of the vertex shader of a version. -/
def Lacks (traits : DeviceTraits) (version log : String) : Prop :=
  traits.vertexFailure = some log ∨ (traits.vertexFailure = none ∧
    ∃ asked, Device.shaderLog? traits asked .vertex (ShaderLibrary.vertex version) = some log)

/-- A device may compile and link a fragment source with the vertex shader of a version. -/
def Accepts (traits : DeviceTraits) (version source : String) : Prop :=
  (∃ asked, Device.shaderLog? traits asked .fragment source = none) ∧
    ∃ asked, Device.linkLog? traits asked (vertexObject version) (fragmentObject source) = none

/-- A device may give a log instead of a program of a fragment source. -/
def Refuses (traits : DeviceTraits) (version source log : String) : Prop :=
  (∃ asked, Device.shaderLog? traits asked .fragment source = some log) ∨
    ((∃ asked, Device.shaderLog? traits asked .fragment source = none) ∧
      ∃ asked, Device.linkLog? traits asked (vertexObject version) (fragmentObject source) =
        some log)

end DeviceTraits

namespace Device

/-- The shaders and programs that were deleted, the last first. -/
def deletions (device : Device) : List Handle :=
  device.events.filterMap DeviceEvent.deleted?

/-- The handles of shaders and programs that are there or were deleted. -/
def spent (shaders : Multiset (Handle × ShaderObject)) (programs : Multiset (Handle × String))
    (deletions : List Handle) : Multiset Handle :=
  shaders.map Prod.fst + programs.map Prod.fst + (deletions : Multiset Handle)

/-- A device of some traits has these shaders, and these programs with the fragment sources
that they were linked from. -/
structure Holds (traits : DeviceTraits) (shaders : Multiset (Handle × ShaderObject))
    (programs : Multiset (Handle × String)) (device : Device) : Prop where
  behaves : device.traits = traits
  compiled : (device.shaders.entries : Multiset (Handle × ShaderObject)) = shaders
  linked : (device.linkedFrom.entries : Multiset (Handle × String)) = programs
  declared : (device.programs.entries : Multiset (Handle × List String)) =
    programs.map fun entry => (entry.1, declaredUniforms entry.2.toList)
  once : (spent shaders programs device.deletions).Nodup
  below : ∀ handle ∈ spent shaders programs device.deletions, handle < device.nextHandle

namespace Holds

variable {traits : DeviceTraits} {shaders : Multiset (Handle × ShaderObject)}
  {programs : Multiset (Handle × String)} {device later : Device}

/-! ### The tables -/

theorem keys_shaders (h : Holds traits shaders programs device) :
    (device.shaders.keys : Multiset Handle) = shaders.map Prod.fst := by
  rw [← h.compiled]
  rfl

theorem keys_linkedFrom (h : Holds traits shaders programs device) :
    (device.linkedFrom.keys : Multiset Handle) = programs.map Prod.fst := by
  rw [← h.linked]
  rfl

theorem keys_programs (h : Holds traits shaders programs device) :
    (device.programs.keys : Multiset Handle) = programs.map Prod.fst := by
  have same : (device.programs.keys : Multiset Handle) =
      (device.programs.entries : Multiset (Handle × List String)).map Prod.fst := rfl
  rw [same, h.declared, Multiset.map_map]
  rfl

theorem once_shaders (h : Holds traits shaders programs device) : device.shaders.keys.Nodup := by
  rw [← Multiset.coe_nodup, h.keys_shaders]
  exact Multiset.nodup_of_le ((Multiset.le_add_right _ _).trans (Multiset.le_add_right _ _)) h.once

theorem once_handles (h : Holds traits shaders programs device) :
    (programs.map Prod.fst).Nodup :=
  Multiset.nodup_of_le ((Multiset.le_add_left _ _).trans (Multiset.le_add_right _ _)) h.once

theorem once_linkedFrom (h : Holds traits shaders programs device) :
    device.linkedFrom.keys.Nodup := by
  rw [← Multiset.coe_nodup, h.keys_linkedFrom]
  exact h.once_handles

theorem once_programs (h : Holds traits shaders programs device) :
    device.programs.keys.Nodup := by
  rw [← Multiset.coe_nodup, h.keys_programs]
  exact h.once_handles

theorem once_deletions (h : Holds traits shaders programs device) : device.deletions.Nodup := by
  rw [← Multiset.coe_nodup]
  exact Multiset.nodup_of_le (Multiset.le_add_left _ _) h.once

theorem get?_shader (h : Holds traits shaders programs device) {handle : Handle}
    {object : ShaderObject} (inside : (handle, object) ∈ shaders) :
    device.shaders.get? handle = some object :=
  Table.get?_of_mem_entries h.once_shaders (by rwa [← Multiset.mem_coe, h.compiled])

theorem get?_linkedFrom (h : Holds traits shaders programs device) {handle : Handle}
    {source : String} (inside : (handle, source) ∈ programs) :
    device.linkedFrom.get? handle = some source :=
  Table.get?_of_mem_entries h.once_linkedFrom (by rwa [← Multiset.mem_coe, h.linked])

theorem mem_of_get?_linkedFrom (h : Holds traits shaders programs device) {handle : Handle}
    {source : String} (found : device.linkedFrom.get? handle = some source) :
    (handle, source) ∈ programs := by
  rw [← h.linked, Multiset.mem_coe]
  exact Table.mem_entries_of_get? found

theorem get?_program (h : Holds traits shaders programs device) {handle : Handle}
    {source : String} (inside : (handle, source) ∈ programs) :
    device.programs.get? handle = some (declaredUniforms source.toList) := by
  refine Table.get?_of_mem_entries h.once_programs ?_
  rw [← Multiset.mem_coe, h.declared]
  exact Multiset.mem_map_of_mem (fun entry => (entry.1, declaredUniforms entry.2.toList)) inside

theorem below_shader (h : Holds traits shaders programs device) {handle : Handle}
    (inside : handle ∈ shaders.map Prod.fst) : handle < device.nextHandle :=
  h.below handle (Multiset.mem_add.mpr (.inl (Multiset.mem_add.mpr (.inl inside))))

/-- What is in the ledger of some traits is there on a device that agrees in all that the
ledger is about, and has perhaps given handles besides. -/
theorem of_same (h : Holds traits shaders programs device)
    (sameTraits : later.traits = device.traits) (sameShaders : later.shaders = device.shaders)
    (sameLinked : later.linkedFrom = device.linkedFrom)
    (samePrograms : later.programs = device.programs)
    (deleted : later.deletions = device.deletions)
    (handles : device.nextHandle ≤ later.nextHandle) : Holds traits shaders programs later :=
  ⟨sameTraits.trans h.behaves, sameShaders ▸ h.compiled, sameLinked ▸ h.linked,
    samePrograms ▸ h.declared, deleted ▸ h.once, fun handle inside =>
      Nat.lt_of_lt_of_le (h.below handle (deleted ▸ inside)) handles⟩

theorem next_notMem (h : Holds traits shaders programs device) :
    device.nextHandle ∉ spent shaders programs device.deletions :=
  fun inside => Nat.lt_irrefl _ (h.below _ inside)

/-! ### Calls -/

/-- A shader that compiles gets the next handle. -/
theorem createShader_ok (h : Holds traits shaders programs device) {stage : ShaderStage}
    {source : String} {handle : Handle}
    (created : device.createShader stage source = (.ok handle, later)) :
    Holds traits ((handle, ⟨stage, source, declaredUniforms source.toList⟩) ::ₘ shaders) programs
        later ∧
      (stage = .vertex → traits.vertexFailure = none) ∧
      ∃ asked, shaderLog? traits asked stage source = none := by
  have compiled : (stage = .vertex → device.traits.vertexFailure = none) ∧
      shaderLog? device.traits device.stats.shadersCompiled stage source = none ∧
      handle = device.nextHandle ∧ later = { device with
        stats.shadersCompiled := device.stats.shadersCompiled + 1
        nextHandle := device.nextHandle + 1
        shaders := device.shaders.set device.nextHandle
          ⟨stage, source, declaredUniforms source.toList⟩
        events := .createShader stage (some device.nextHandle) :: device.events } := by
    unfold createShader at created
    dsimp only at created
    split at created
    · cases created
    · next _ _ notBoth =>
      split at created
      · cases created
      · next accepted =>
        cases created
        refine ⟨fun isVertex => ?_, accepted, rfl, rfl⟩
        exact Option.eq_none_iff_forall_ne_some.mpr fun log broken => notBoth log isVertex broken
  obtain ⟨works, accepted, rfl, rfl⟩ := compiled
  rw [h.behaves] at works accepted
  refine ⟨?_, works, _, accepted⟩
  have new : device.nextHandle ∉ device.shaders.keys := by
    rw [← Multiset.mem_coe, h.keys_shaders]
    exact fun inside => Nat.lt_irrefl _ (h.below_shader inside)
  have entries := Table.perm_entries_set h.once_shaders device.nextHandle
    (⟨stage, source, declaredUniforms source.toList⟩ : ShaderObject)
  rw [Table.erase_of_notMem new] at entries
  refine ⟨h.behaves, (Multiset.coe_eq_coe.mpr entries).trans ?_, h.linked, h.declared, ?_, ?_⟩
  · rw [← Multiset.cons_coe, h.compiled]
  · simp only [spent, Multiset.map_cons, Multiset.cons_add]
    exact Multiset.nodup_cons.mpr ⟨h.next_notMem, h.once⟩
  · simp only [spent, Multiset.map_cons, Multiset.cons_add, Multiset.mem_cons]
    rintro handle (rfl | inside)
    · exact Nat.lt_succ_self _
    · exact Nat.lt_succ_of_lt (h.below handle inside)

/-- A shader that does not compile changes nothing. -/
theorem createShader_error (h : Holds traits shaders programs device) {stage : ShaderStage}
    {source log : String} (failed : device.createShader stage source = (.error log, later)) :
    Holds traits shaders programs later ∧
      ((stage = .vertex ∧ traits.vertexFailure = some log) ∨
        ((stage = .vertex → traits.vertexFailure = none) ∧
          ∃ asked, shaderLog? traits asked stage source = some log)) := by
  obtain rfl := h.behaves
  unfold createShader at failed
  dsimp only at failed
  split at failed
  · next broken =>
    cases failed
    exact ⟨h, .inl ⟨rfl, broken⟩⟩
  · next _ _ notBoth =>
    split at failed
    · next refused =>
      cases failed
      refine ⟨h.of_same rfl rfl rfl rfl rfl (Nat.le_refl _), .inr ⟨fun isVertex => ?_, _, refused⟩⟩
      exact Option.eq_none_iff_forall_ne_some.mpr fun log broken => notBoth log isVertex broken
    · cases failed

/-- A shader that is deleted is there no more. -/
theorem deleteShader {entry : Handle × ShaderObject}
    (h : Holds traits (entry ::ₘ shaders) programs device) :
    Holds traits shaders programs (device.deleteShader entry.1) := by
  have inside : entry ∈ device.shaders.entries := by
    rw [← Multiset.mem_coe, h.compiled]
    exact Multiset.mem_cons_self _ _
  have entries := Multiset.coe_eq_coe.mpr (Table.perm_entries_erase h.once_shaders inside)
  rw [h.compiled, ← Multiset.cons_coe, Multiset.cons_inj_right] at entries
  have moved : spent shaders programs (device.deleteShader entry.1).deletions =
      spent (entry ::ₘ shaders) programs device.deletions := by
    have deleted : (device.deleteShader entry.1).deletions = entry.1 :: device.deletions := rfl
    rw [deleted, spent, spent, ← Multiset.cons_coe, Multiset.map_cons, Multiset.add_cons,
      Multiset.cons_add, Multiset.cons_add]
  exact ⟨h.behaves, entries.symm, h.linked, h.declared, moved ▸ h.once, moved ▸ h.below⟩

/-- A program that links gets the next handle. -/
theorem linkProgram_ok (h : Holds traits shaders programs device) {vertex fragment handle : Handle}
    {source : String} (compiled : (fragment, fragmentObject source) ∈ shaders)
    (linked : device.linkProgram vertex fragment = (.ok handle, later)) :
    Holds traits shaders ((handle, source) ::ₘ programs) later ∧
      ∀ above, (vertex, above) ∈ shaders →
        ∃ asked, linkLog? traits asked above (fragmentObject source) = none := by
  have became : (∀ above, (vertex, above) ∈ shaders →
        linkLog? device.traits device.linksAsked above (fragmentObject source) = none) ∧
      handle = device.nextHandle ∧ later = { device with
        linksAsked := device.linksAsked + 1
        nextHandle := device.nextHandle + 1
        programs := device.programs.set device.nextHandle (declaredUniforms source.toList)
        linkedFrom := device.linkedFrom.set device.nextHandle source
        stats.programsLinked := device.stats.programsLinked + 1
        events := .linkProgram vertex fragment (some device.nextHandle) :: device.events } := by
    unfold linkProgram at linked
    dsimp only at linked
    split at linked
    · cases linked
    · next shader outcome =>
      unfold linkOutcome at outcome
      rw [h.get?_shader compiled] at outcome
      simp only [fragmentObject, decide_true, Option.filter_some, if_true] at outcome
      split at outcome
      · cases outcome
      · next found foundVertex =>
        split at outcome
        · cases outcome
        · next accepted =>
          cases outcome
          cases linked
          refine ⟨fun above inside => ?_, rfl, rfl⟩
          rw [h.get?_shader inside] at foundVertex
          cases Option.eq_some_of_filter_eq_some foundVertex
          exact accepted
  obtain ⟨accepted, rfl, rfl⟩ := became
  rw [h.behaves] at accepted
  refine ⟨?_, fun above inside => ⟨_, accepted above inside⟩⟩
  have newHandle : device.nextHandle ∉ programs.map Prod.fst := fun inside =>
    h.next_notMem (Multiset.mem_add.mpr (.inl (Multiset.mem_add.mpr (.inr inside))))
  have newLinked := Table.perm_entries_set h.once_linkedFrom device.nextHandle source
  rw [Table.erase_of_notMem (by rwa [← Multiset.mem_coe, h.keys_linkedFrom])] at newLinked
  have newDeclared := Table.perm_entries_set h.once_programs device.nextHandle
    (declaredUniforms source.toList)
  rw [Table.erase_of_notMem (by rwa [← Multiset.mem_coe, h.keys_programs])] at newDeclared
  refine ⟨h.behaves, h.compiled, (Multiset.coe_eq_coe.mpr newLinked).trans ?_,
    (Multiset.coe_eq_coe.mpr newDeclared).trans ?_, ?_, ?_⟩
  · rw [← Multiset.cons_coe, h.linked]
  · rw [← Multiset.cons_coe, h.declared, Multiset.map_cons]
  · simp only [spent, Multiset.map_cons, Multiset.add_cons, Multiset.cons_add]
    exact Multiset.nodup_cons.mpr ⟨h.next_notMem, h.once⟩
  · simp only [spent, Multiset.map_cons, Multiset.add_cons, Multiset.cons_add, Multiset.mem_cons]
    rintro handle (rfl | inside)
    · exact Nat.lt_succ_self _
    · exact Nat.lt_succ_of_lt (h.below handle inside)

/-- Shaders that do not link change nothing. -/
theorem linkProgram_error (h : Holds traits shaders programs device) {vertex fragment : Handle}
    {log : String} (failed : device.linkProgram vertex fragment = (.error log, later)) :
    Holds traits shaders programs later ∧
      ∀ version source, (vertex, vertexObject version) ∈ shaders →
        (fragment, fragmentObject source) ∈ shaders →
        ∃ asked, linkLog? traits asked (vertexObject version) (fragmentObject source) =
          some log := by
  unfold linkProgram at failed
  dsimp only at failed
  split at failed
  · next outcome =>
    cases failed
    refine ⟨h.of_same rfl rfl rfl rfl rfl (Nat.le_refl _), fun version source above below => ?_⟩
    unfold linkOutcome at outcome
    rw [h.get?_shader below, h.get?_shader above] at outcome
    simp only [fragmentObject, vertexObject, decide_true, Option.filter_some, if_true] at outcome
    split at outcome
    · next refused =>
      cases outcome
      exact ⟨_, h.behaves ▸ refused⟩
    · cases outcome
  · cases failed

/-- A program that is deleted is there no more. -/
theorem deleteProgram {entry : Handle × String}
    (h : Holds traits shaders (entry ::ₘ programs) device) :
    Holds traits shaders programs (device.deleteProgram entry.1) := by
  have insideLinked : entry ∈ device.linkedFrom.entries := by
    rw [← Multiset.mem_coe, h.linked]
    exact Multiset.mem_cons_self _ _
  have insideDeclared : (entry.1, declaredUniforms entry.2.toList) ∈ device.programs.entries := by
    rw [← Multiset.mem_coe, h.declared, Multiset.map_cons]
    exact Multiset.mem_cons_self _ _
  have linked := Multiset.coe_eq_coe.mpr (Table.perm_entries_erase h.once_linkedFrom insideLinked)
  rw [h.linked, ← Multiset.cons_coe, Multiset.cons_inj_right] at linked
  have declared :=
    Multiset.coe_eq_coe.mpr (Table.perm_entries_erase h.once_programs insideDeclared)
  rw [h.declared, ← Multiset.cons_coe, Multiset.map_cons, Multiset.cons_inj_right] at declared
  have moved : spent shaders programs (device.deleteProgram entry.1).deletions =
      spent shaders (entry ::ₘ programs) device.deletions := by
    have deleted : (device.deleteProgram entry.1).deletions = entry.1 :: device.deletions := rfl
    rw [deleted, spent, spent, ← Multiset.cons_coe, Multiset.map_cons, Multiset.add_cons,
      Multiset.add_cons, Multiset.cons_add]
  exact ⟨h.behaves, h.compiled, linked.symm, declared.symm, moved ▸ h.once, moved ▸ h.below⟩

theorem deleteAll : ∀ (entries : List (Handle × String)) {device : Device},
    Holds traits shaders ((entries : Multiset (Handle × String)) + programs) device →
    Holds traits shaders programs
      ((entries.map Prod.fst).foldl (fun device program => device.deleteProgram program) device)
  | [], _, h => by simpa using h
  | entry :: rest, _, h => by
    rw [← Multiset.cons_coe, Multiset.cons_add] at h
    exact deleteAll rest h.deleteProgram

/-- Looking up a location changes nothing. -/
theorem uniformLocation (h : Holds traits shaders programs device) (program : Handle)
    (name : String) : Holds traits shaders programs (device.uniformLocation program name).2 := by
  unfold Device.uniformLocation
  split
  · exact h
  · split
    · exact h
    · exact h.of_same rfl rfl rfl rfl rfl (Nat.le_refl _)

end Holds
end Device

/-! ### Builders -/

namespace ProgramBuilder

open Device Collage.Action

variable {traits : DeviceTraits} {shaders : Multiset (Handle × ShaderObject)}
  {programs : Multiset (Handle × String)} {device later : Device}

/-- What a builder is in the ledger. -/
def entry (builder : ProgramBuilder) : Handle × ShaderObject :=
  (builder.vertex, vertexObject builder.version)

/-- **Making a builder** adds its vertex shader, or nothing. -/
theorem create_yields (h : Holds traits shaders programs device) (version : String) :
    (create version).Yields device
      (fun builder later => builder.version = version ∧ traits.Supports version ∧
        Holds traits (builder.entry ::ₘ shaders) programs later)
      fun failure later => Holds traits shaders programs later ∧
        ∃ log, traits.Lacks version log ∧ failure = .builtinShader "fullscreen vertex" log := by
  unfold Yields runOn ExceptT.run create
  cases created : device.createShader .vertex (ShaderLibrary.vertex version) with
  | mk outcome later =>
    cases outcome with
    | error log =>
      obtain ⟨holds, reason⟩ := h.createShader_error created
      exact ⟨holds, log, reason.imp And.right fun ⟨works, asked⟩ => ⟨works rfl, asked⟩, rfl⟩
    | ok vertex =>
      obtain ⟨holds, works, accepted⟩ := h.createShader_ok created
      exact ⟨rfl, ⟨works rfl, accepted⟩, holds⟩

/-- **Building a program** adds it and nothing else. -/
theorem build_ok (h : Holds traits shaders programs device) {builder : ProgramBuilder}
    (there : builder.entry ∈ shaders) {source : String} {program : Handle}
    (built : builder.build source device = (.ok program, later)) :
    traits.Accepts builder.version source ∧
      Holds traits shaders ((program, source) ::ₘ programs) later := by
  unfold build at built
  cases created : device.createShader .fragment source with
  | mk outcome mid =>
    rw [created] at built
    cases outcome with
    | error log => cases built
    | ok fragment =>
      obtain ⟨holds, -, compiles⟩ := h.createShader_ok created
      cases linked : mid.linkProgram builder.vertex fragment with
      | mk outcome last =>
        simp only [linked] at built
        cases built
        obtain ⟨holds, links⟩ := holds.linkProgram_ok (Multiset.mem_cons_self _ _) linked
        exact ⟨⟨compiles, links _ (Multiset.mem_cons_of_mem there)⟩, holds.deleteShader⟩

/-- A program that cannot be built leaves nothing behind. -/
theorem build_error (h : Holds traits shaders programs device) {builder : ProgramBuilder}
    (there : builder.entry ∈ shaders) {source log : String}
    (failed : builder.build source device = (.error log, later)) :
    traits.Refuses builder.version source log ∧ Holds traits shaders programs later := by
  unfold build at failed
  cases created : device.createShader .fragment source with
  | mk outcome mid =>
    rw [created] at failed
    cases outcome with
    | error log =>
      cases failed
      obtain ⟨holds, reason⟩ := h.createShader_error created
      refine ⟨.inl ?_, holds⟩
      exact reason.elim (fun ⟨isVertex, _⟩ => nomatch isVertex) And.right
    | ok fragment =>
      obtain ⟨holds, -, compiles⟩ := h.createShader_ok created
      cases linked : mid.linkProgram builder.vertex fragment with
      | mk outcome last =>
        simp only [linked] at failed
        cases failed
        obtain ⟨holds, refused⟩ := holds.linkProgram_error linked
        exact ⟨.inr ⟨compiles, refused _ _ (Multiset.mem_cons_of_mem there)
          (Multiset.mem_cons_self _ _)⟩, holds.deleteShader⟩

end ProgramBuilder

theorem Device.Holds.lookUp {traits : DeviceTraits} {shaders : Multiset (Handle × ShaderObject)}
    {programs : Multiset (Handle × String)} {α : Type} {next : Option Nat → StateM Device α}
    (kept : ∀ location device, Device.Holds traits shaders programs device →
      Device.Holds traits shaders programs (next location device).2)
    (program : Handle) (name : String) (device : Device)
    (h : Device.Holds traits shaders programs device) :
    Device.Holds traits shaders programs
      ((do next (← Device.uniformLocation program name) : StateM Device α) device).2 :=
  kept _ _ (h.uniformLocation program name)

theorem BuiltinLocations.resolve_holds {traits : DeviceTraits}
    {shaders : Multiset (Handle × ShaderObject)} {programs : Multiset (Handle × String)}
    (program : Handle) (device : Device) (h : Device.Holds traits shaders programs device) :
    Device.Holds traits shaders programs (resolve program device).2 := by
  revert device
  unfold resolve
  iterate 14
    refine Device.Holds.lookUp (fun _ => ?_) program _
  exact fun _ => id

end Collage
