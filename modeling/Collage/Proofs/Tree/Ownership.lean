import Collage.Proofs.Device.Ledger
import Collage.Tree.Compile
import Collage.Tree.Edit

/-!
# What compiled trees own

A compiled tree owns one vertex shader and the programs of its layers.  `Owned` ties the
programs that a tree records to entries of the device's ledger: the handles are the same,
and each program was linked from a source with the fingerprint of the one that the tree
records.

Compiling is followed pass by pass.  What an earlier tree leaves is in the ledger beside
all that has nothing to do with it (`Left`); the distance layers add nothing to the ledger
(`compileDistance_holds`); a shader layer moves a program from what is left to the new
tree, or adds one, or does neither (`compileCode_holds`).  `compile_yields` puts the passes
together: the new tree owns what was left and used again and what was built, and where
compiling fails nothing of the earlier tree is left.
-/

namespace Collage

open Device Collage.Action

/-! ### Many steps on a state -/

/-- A pass over items: an invariant of the items so far, of what they became and of the
state. -/
theorem mapM_invariant {σ ι α : Type} (step : ι → StateM σ α) (I : List ι → List α → σ → Prop) :
    ∀ (items seen : List ι) (done : List α) (state : σ),
      (∀ item ∈ items, ∀ seen done state, I seen done state →
        I (seen ++ [item]) (done ++ [(step item state).1]) (step item state).2) →
      I seen done state →
      I (seen ++ items) (done ++ ((items.mapM step : StateM σ (List α)) state).1)
        ((items.mapM step : StateM σ (List α)) state).2
  | [], seen, done, state, _, start => by
    rw [List.mapM_nil]
    change I (seen ++ []) (done ++ []) state
    rwa [List.append_nil, List.append_nil]
  | item :: rest, seen, done, state, next, start => by
    have first := next item List.mem_cons_self seen done state start
    have others := mapM_invariant step I rest _ _ _
      (fun other inside => next other (List.mem_cons_of_mem _ inside)) first
    rw [List.mapM_cons]
    rw [List.append_assoc, List.append_assoc] at others
    exact others

theorem exists_of_mem_right {α β : Type} {R : α → β → Prop} {as : List α} {bs : List β}
    (related : List.Forall₂ R as bs) {b : β} (inside : b ∈ bs) : ∃ a ∈ as, R a b := by
  induction related with
  | nil => cases inside
  | cons first _ ih =>
    rcases List.mem_cons.mp inside with rfl | inside
    · exact ⟨_, List.mem_cons_self, first⟩
    · obtain ⟨a, there, related⟩ := ih inside
      exact ⟨a, List.mem_cons_of_mem _ there, related⟩

/-! ### What a tree records -/

/-- The program of a shader layer with the source that the layer records for it. -/
def CompiledLayer.linked? (layer : CompiledLayer) : Option (Handle × String) :=
  match layer.kind with
  | .shader shader => shader.program.map (·, shader.source)
  | _ => none

theorem CompiledLayer.program?_eq (layer : CompiledLayer) :
    layer.program? = layer.linked?.map Prod.fst := by
  unfold program? linked?
  cases layer.kind with
  | shader shader => simp [Function.comp_def]
  | group | distance | script => rfl

namespace CompiledTree

/-- The programs of a tree with the sources that its layers record for them. -/
def linked (tree : CompiledTree) : List (Handle × String) :=
  tree.layers.filterMap CompiledLayer.linked?

theorem programs_eq (tree : CompiledTree) : tree.programs = tree.linked.map Prod.fst := by
  rw [programs, linked, List.map_filterMap]
  exact List.filterMap_congr fun layer _ => layer.program?_eq

/-- Spreading sound changes nothing that does not say whether a layer listens. -/
theorem map_spreadAudio {β : Type} (view : CompiledLayer → β)
    (same : ∀ layer usesAudio, view { layer with usesAudio } = view layer)
    (layers : List CompiledLayer) : (spreadAudio layers).map view = layers.map view := by
  unfold spreadAudio
  generalize layers.any _ = sceneAudio
  generalize 0 = place
  induction layers generalizing place with
  | nil => rfl
  | cons layer rest ih => rw [spreadAudioFrom, List.map_cons, List.map_cons, same, ih]

theorem filterMap_spreadAudio {β : Type} (view : CompiledLayer → Option β)
    (same : ∀ layer usesAudio, view { layer with usesAudio } = view layer)
    (layers : List CompiledLayer) : (spreadAudio layers).filterMap view = layers.filterMap view := by
  have joined := congrArg (fun found => found.filterMap fun one => one)
    (map_spreadAudio view same layers)
  simpa [List.filterMap_map, Function.comp_def] using joined

end CompiledTree

/-! ### What stands behind a recorded program -/

/-- An entry of the ledger stands behind what a layer records: the program is the same, its
source may be built, and it has the fingerprint of the one recorded. -/
structure Backs (traits : DeviceTraits) (version : String) (entry recorded : Handle × String) :
    Prop where
  program : entry.1 = recorded.1
  source : fingerprint entry.2 = fingerprint recorded.2
  accepted : traits.Accepts version entry.2

/-- Entries of the ledger of which a tree is the owner. -/
structure CompiledTree.Owned (traits : DeviceTraits) (tree : CompiledTree)
    (entries : List (Handle × String)) : Prop where
  supported : traits.Supports tree.builder.version
  backed : List.Forall₂ (Backs traits tree.builder.version) entries tree.linked

theorem CompiledTree.Owned.programs_eq {traits : DeviceTraits} {tree : CompiledTree}
    {entries : List (Handle × String)} (owned : tree.Owned traits entries) :
    entries.map Prod.fst = tree.programs := by
  rw [CompiledTree.programs_eq]
  refine List.forall₂_eq_eq_eq ▸ ?_
  rw [List.forall₂_map_left_iff, List.forall₂_map_right_iff]
  exact owned.backed.imp fun _ _ backs => backs.program

variable {traits : DeviceTraits} {version : String}
  {shaders : Multiset (Handle × ShaderObject)} {programs : Multiset (Handle × String)}
  {device later : Device}

/-- A tree that is destroyed takes all that it owns with it. -/
theorem CompiledTree.Owned.destroy {tree : CompiledTree} {entries : List (Handle × String)}
    (owned : tree.Owned traits entries)
    (h : Holds traits (tree.builder.entry ::ₘ shaders)
      ((entries : Multiset (Handle × String)) + programs) device) :
    Holds traits shaders programs (tree.destroy device) := by
  have deleted := h.deleteAll
  rw [owned.programs_eq] at deleted
  exact deleted.deleteShader

/-! ### What an earlier tree leaves -/

namespace Legacy

/-- A table of programs by the fingerprints of the sources that they were linked from. -/
structure Spare (traits : DeviceTraits) (version : String) (kept : Multiset (Handle × String))
    (table : Table UInt64 Handle) : Prop where
  once : table.keys.Nodup
  entries : (table.entries : Multiset (UInt64 × Handle)) =
    kept.map fun entry => (fingerprint entry.2, entry.1)
  accepted : ∀ entry ∈ kept, traits.Accepts version entry.2

namespace Spare

variable {kept : Multiset (Handle × String)} {table : Table UInt64 Handle}

theorem empty : Spare traits version 0 {} :=
  ⟨List.nodup_nil, rfl, fun _ inside => absurd inside (Multiset.notMem_zero _)⟩

/-- A program that is found was linked from a source of that fingerprint. -/
theorem take (spare : Spare traits version kept table) {key : UInt64} {program : Handle}
    (found : table.get? key = some program) :
    ∃ source others, fingerprint source = key ∧ kept = (program, source) ::ₘ others ∧
      Spare traits version others (table.erase key) := by
  have inside := Table.mem_entries_of_get? found
  have fromKept : (key, program) ∈ kept.map fun entry => (fingerprint entry.2, entry.1) := by
    rw [← spare.entries]
    exact inside
  obtain ⟨⟨_, source⟩, there, same⟩ := Multiset.mem_map.mp fromKept
  cases same
  obtain ⟨others, rfl⟩ := Multiset.exists_cons_of_mem there
  refine ⟨source, others, rfl, rfl, Table.nodup_keys_erase spare.once _, ?_,
    fun entry inside => spare.accepted entry (Multiset.mem_cons_of_mem inside)⟩
  have erased := Multiset.coe_eq_coe.mpr (Table.perm_entries_erase spare.once inside)
  rw [spare.entries, Multiset.map_cons, ← Multiset.cons_coe, Multiset.cons_inj_right] at erased
  exact erased.symm

theorem keep (once : table.keys.Nodup) {entry recorded : Handle × String}
    (backs : Backs traits version entry recorded)
    (others : Spare traits version kept (table.erase (fingerprint recorded.2))) :
    Spare traits version (entry ::ₘ kept) (table.set (fingerprint recorded.2) recorded.1) := by
  refine ⟨Table.nodup_keys_set once _ _, ?_, ?_⟩
  · have set := Multiset.coe_eq_coe.mpr
      (Table.perm_entries_set once (fingerprint recorded.2) recorded.1)
    rw [set, ← Multiset.cons_coe, others.entries, Multiset.map_cons, backs.source, backs.program]
  · intro other inside
    rcases Multiset.mem_cons.mp inside with rfl | inside
    · exact backs.accepted
    · exact others.accepted other inside

theorem deletePrograms (spare : Spare traits version kept table)
    (h : Holds traits shaders (kept + programs) device) :
    Holds traits shaders programs (Legacy.deletePrograms table device) := by
  obtain ⟨entries⟩ := table
  have same := spare.entries
  unfold Legacy.deletePrograms Table.values
  dsimp only at same ⊢
  clear spare
  induction entries generalizing kept device with
  | nil =>
    obtain rfl := Multiset.map_eq_zero.mp same.symm
    rwa [Multiset.zero_add] at h
  | cons entry rest ih =>
    have first : entry ∈ kept.map fun entry => (fingerprint entry.2, entry.1) := by
      rw [← same]
      exact List.mem_cons_self
    obtain ⟨one, there, rfl⟩ := Multiset.mem_map.mp first
    obtain ⟨others, rfl⟩ := Multiset.exists_cons_of_mem there
    rw [← Multiset.cons_coe, Multiset.map_cons, Multiset.cons_inj_right] at same
    rw [Multiset.cons_add] at h
    exact ih h.deleteProgram same

end Spare

/-- Keeps a program under the fingerprint of a source. -/
def keepLinked (kept : Table UInt64 Handle × Device) (recorded : Handle × String) :
    Table UInt64 Handle × Device :=
  (kept.1.set (fingerprint recorded.2) recorded.1,
    match kept.1.get? (fingerprint recorded.2) with
    | some older => kept.2.deleteProgram older
    | none => kept.2)

theorem foldl_keepProgram (tree : CompiledTree) (kept : Table UInt64 Handle × Device) :
    tree.layers.foldl keepProgram kept = tree.linked.foldl keepLinked kept := by
  rw [CompiledTree.linked, List.foldl_filterMap]
  congr 1
  funext kept layer
  obtain ⟨_, _, _, _, _, _, _, _, _, kind⟩ := layer
  cases kind with
  | shader shader =>
    obtain ⟨program, _, _, _, _⟩ := shader
    cases program <;> rfl
  | group | distance | script => rfl

/-- Every program of a tree is kept or deleted. -/
theorem keepLinked_holds {recorded : List (Handle × String)} {entries : List (Handle × String)}
    (backed : List.Forall₂ (Backs traits version) entries recorded)
    {kept : Multiset (Handle × String)} {table : Table UInt64 Handle}
    (spare : Spare traits version kept table)
    (h : Holds traits shaders (kept + ((entries : Multiset (Handle × String)) + programs)) device) :
    ∃ left ≤ kept + (entries : Multiset (Handle × String)),
      Spare traits version left (recorded.foldl keepLinked (table, device)).1 ∧
      Holds traits shaders (left + programs) (recorded.foldl keepLinked (table, device)).2 := by
  induction backed generalizing kept table device with
  | nil => exact ⟨kept, Multiset.le_add_right _ _, spare, by simpa using h⟩
  | @cons entry recorded entries rest backs _ ih =>
    rw [List.foldl_cons]
    cases found : table.get? (fingerprint recorded.2) with
    | none =>
      have same := Table.erase_of_notMem (Table.get?_eq_none_iff.mp found)
      have next : keepLinked (table, device) recorded =
          (table.set (fingerprint recorded.2) recorded.1, device) := by
        rw [keepLinked]
        dsimp only
        rw [found]
      rw [next]
      obtain ⟨left, among, spare, holds⟩ :=
        ih (Spare.keep spare.once backs (same.symm ▸ spare)) (by
          rwa [Multiset.cons_add, ← Multiset.add_cons, ← Multiset.cons_add, Multiset.cons_coe])
      refine ⟨left, among.trans (le_of_eq ?_), spare, holds⟩
      rw [Multiset.cons_add, ← Multiset.add_cons, Multiset.cons_coe]
    | some older =>
      obtain ⟨source, others, -, rfl, erased⟩ := spare.take found
      have next : keepLinked (table, device) recorded =
          (table.set (fingerprint recorded.2) recorded.1, device.deleteProgram older) := by
        rw [keepLinked]
        dsimp only
        rw [found]
      rw [next]
      rw [Multiset.cons_add] at h
      obtain ⟨left, among, spare, holds⟩ := ih (Spare.keep spare.once backs erased) (by
        rw [Multiset.cons_add, ← Multiset.add_cons, ← Multiset.cons_add, Multiset.cons_coe]
        exact h.deleteProgram)
      refine ⟨left, among.trans ?_, spare, holds⟩
      rw [Multiset.cons_add, ← Multiset.add_cons, Multiset.cons_coe]
      exact Multiset.add_le_add_right (Multiset.le_cons_self _ _)

/-- What an earlier tree leaves of the programs that it owned is in the ledger beside the rest;
where it leaves nothing to build with, it leaves no program either. -/
def Left (traits : DeviceTraits) (version : String) (shaders : Multiset (Handle × ShaderObject))
    (programs owned : Multiset (Handle × String)) (legacy : Legacy) (device : Device) : Prop :=
  match legacy.builder with
  | some builder => builder.version = version ∧ traits.Supports version ∧
      ∃ kept ≤ owned, Spare traits version kept legacy.programs ∧
        Holds traits (builder.entry ::ₘ shaders) (kept + programs) device
  | none => legacy.programs = {} ∧ Holds traits shaders programs device

/-- **What a tree owned is left or deleted.** -/
theorem ofTree_left {tree : CompiledTree} {entries : List (Handle × String)}
    (owned : tree.Owned traits entries)
    (h : Holds traits (tree.builder.entry ::ₘ shaders)
      ((entries : Multiset (Handle × String)) + programs) device) (version : String) :
    Left traits version shaders programs entries (ofTree version tree device).1
      (ofTree version tree device).2 := by
  rw [← Multiset.zero_add (_ + _)] at h
  obtain ⟨left, among, spare, holds⟩ := keepLinked_holds owned.backed Spare.empty h
  rw [Multiset.zero_add] at among
  rw [← foldl_keepProgram] at spare holds
  unfold ofTree
  dsimp only
  split
  · next same => exact ⟨same, same ▸ owned.supported, left, among, same ▸ spare, holds⟩
  · exact ⟨rfl, (spare.deletePrograms holds).deleteShader⟩

end Legacy

namespace CompiledTree

/-- **There is a builder for what is left**, or nothing is left at all. -/
theorem builderFor_yields {legacy : Legacy} {owned : Multiset (Handle × String)}
    (left : legacy.Left traits version shaders programs owned device) :
    (builderFor version legacy.builder).Yields device
      (fun builder later => builder.version = version ∧ traits.Supports version ∧
        ∃ kept ≤ owned, Legacy.Spare traits version kept legacy.programs ∧
          Holds traits (builder.entry ::ₘ shaders) (kept + programs) later)
      fun failure later => Holds traits shaders programs later ∧
        ∃ log, traits.Lacks version log ∧ failure = .builtinShader "fullscreen vertex" log := by
  unfold Legacy.Left at left
  cases given : legacy.builder with
  | some builder =>
    rw [given] at left
    exact Yields.pure left
  | none =>
    rw [given] at left
    obtain ⟨nothing, holds⟩ := left
    refine (ProgramBuilder.create_yields holds version).mono ?_ fun _ _ => id
    rintro builder later ⟨same, supported, holds⟩
    exact ⟨same, supported, 0, Multiset.zero_le _, nothing ▸ Legacy.Spare.empty,
      by rwa [Multiset.zero_add]⟩

/-! ### A shader layer by its program -/

/-- The program of a shader layer. -/
def wrappedFor (version : String) (scene : Option Scene) (source : String) : WrappedSource :=
  WrappedSource.layer version source ((includedScene scene source).map (·.code))

/-- **What becomes of a shader layer.**  Its program is refused, and it has the errors; or there is
a program, and what the layer reads is located in it. -/
theorem compileShader_cases (builder : ProgramBuilder) (legacy : Legacy) (scene : Option Scene)
    (layer : Layer) (source : String) (start : CompiledLayer) (state : BuildState) :
    (∃ errors after,
      programFor builder (wrappedFor builder.version scene source) state = (.error errors, after) ∧
      compileShader builder legacy scene layer source start state =
        (doneShader start source (Uniform.extract source (legacy.valuesFor layer)) errors
          { source := (wrappedFor builder.version scene source).text
            usesScene := (includedScene scene source).isSome }, after)) ∨
    ∃ program later spare found,
      programFor builder (wrappedFor builder.version scene source) state =
        (.ok program, later, spare) ∧
      locateAll program (Uniform.extract source (legacy.valuesFor layer))
        (includedScene scene source) later = found ∧
      compileShader builder legacy scene layer source start state =
        (doneShader start source found.1.1 []
          ⟨some program, (wrappedFor builder.version scene source).text, found.1.2.1, found.1.2.2,
            (includedScene scene source).isSome⟩, found.2, spare) := by
  unfold compileShader
  dsimp only
  rw [← wrappedFor]
  cases programFor builder (wrappedFor builder.version scene source) state with
  | mk outcome after =>
    cases outcome with
    | error errors => exact .inl ⟨errors, after, rfl, rfl⟩
    | ok program =>
      obtain ⟨later, spare⟩ := after
      refine .inr ⟨program, later, spare, _, rfl, rfl, ?_⟩
      dsimp only
      cases locateAll program (Uniform.extract source (legacy.valuesFor layer))
        (includedScene scene source) later
      rfl

/-! ### The passes -/

variable {builder : ProgramBuilder} {legacy : Legacy}

theorem distanceErrors_holds (there : builder.entry ∈ shaders)
    (h : Holds traits shaders programs device) (source : String) (signature : Signature) :
    Holds traits shaders programs (distanceErrors builder source signature device).2 := by
  unfold distanceErrors
  dsimp only
  cases built : builder.build
      (WrappedSource.standalone builder.version source (some signature.arity)).text device with
  | mk outcome later =>
    cases outcome with
    | error log => exact (ProgramBuilder.build_error h there built).2
    | ok program => exact (ProgramBuilder.build_ok h there built).2.deleteProgram

/-- A distance layer is built on its own and deleted again; no layer has a program yet. -/
theorem compileDistance_holds (legacy : Legacy) (there : builder.entry ∈ shaders)
    (h : Holds traits shaders programs device) (placed : PlacedLayer) :
    (compileDistance builder legacy placed device).1.linked? = none ∧
      Holds traits shaders programs (compileDistance builder legacy placed device).2 := by
  obtain ⟨layer, parent, children⟩ := placed
  cases layer with
  | group head blend opacity inside => exact ⟨rfl, h⟩
  | code language head blend opacity source values => cases language <;> exact ⟨rfl, h⟩
  | distance head source values operands =>
    unfold compileDistance
    dsimp only
    cases Signature.ofSource source with
    | error error => exact ⟨rfl, h⟩
    | ok signature => exact ⟨rfl, distanceErrors_holds there h source signature⟩

theorem locate_holds (program : Handle) : ∀ (uniforms : List Uniform) {device : Device},
    Holds traits shaders programs device →
    Holds traits shaders programs (locate program uniforms device).2
  | [], _, h => h
  | uniform :: rest, device, h => by
    unfold locate
    rw [List.mapM_cons]
    exact locate_holds program rest (h.uniformLocation program uniform.name)

theorem locateScene_holds (program : Handle) (scene : Scene) (device : Device)
    (h : Holds traits shaders programs device) :
    Holds traits shaders programs (locateScene program scene device).2 := by
  unfold locateScene
  induction scene.bindings generalizing device with
  | nil => exact h
  | cons binding rest ih =>
    rw [List.mapM_cons]
    exact ih _ (h.uniformLocation program binding.name)

theorem locateAll_holds (program : Handle) (uniforms : List Uniform) (included : Option Scene)
    (device : Device) (h : Holds traits shaders programs device) :
    Holds traits shaders programs (locateAll program uniforms included device).2 := by
  unfold locateAll
  have own := locate_holds program uniforms h
  revert own
  cases locate program uniforms device with
  | mk uniforms mid =>
    intro own
    have builtins := BuiltinLocations.resolve_holds program mid own
    dsimp only
    revert builtins
    cases BuiltinLocations.resolve program mid with
    | mk builtins last =>
      intro holds
      cases included with
      | none => exact holds
      | some scene => exact locateScene_holds program scene last holds

/-- A program for a source: it was left, or it is new; the ledger has it either way. -/
theorem programFor_ok {kept : Multiset (Handle × String)} {table spare : Table UInt64 Handle}
    {wrapped : WrappedSource} {program : Handle}
    (there : builder.entry ∈ shaders)
    (left : Legacy.Spare traits builder.version kept table)
    (h : Holds traits shaders (kept + programs) device)
    (found : programFor builder wrapped (device, table) = (.ok program, later, spare)) :
    ∃ source, ∃ others ≤ kept,
      Backs traits builder.version (program, source) (program, wrapped.text) ∧
      ((program, source) ∈ kept ∨ source = wrapped.text) ∧
      Legacy.Spare traits builder.version others spare ∧
      Holds traits shaders (others + (program, source) ::ₘ programs) later := by
  unfold programFor at found
  dsimp only at found
  cases known : table.get? (fingerprint wrapped.text) with
  | some older =>
    rw [known] at found
    cases found
    obtain ⟨source, others, same, rfl, spare⟩ := left.take known
    refine ⟨source, others, Multiset.le_cons_self _ _,
      ⟨rfl, same, left.accepted _ (Multiset.mem_cons_self _ _)⟩,
      .inl (Multiset.mem_cons_self _ _), spare, ?_⟩
    rwa [Multiset.add_cons, ← Multiset.cons_add]
  | none =>
    rw [known] at found
    dsimp only at found
    cases built : builder.build wrapped.text device with
    | mk outcome final =>
      rw [built] at found
      cases outcome with
      | error log => cases found
      | ok new =>
        cases found
        obtain ⟨accepted, holds⟩ := ProgramBuilder.build_ok h there built
        refine ⟨wrapped.text, kept, le_rfl, ⟨rfl, rfl, accepted⟩, .inr rfl, left, ?_⟩
        rwa [Multiset.add_cons]

/-- A source that becomes no program leaves all as it was. -/
theorem programFor_error {table spare : Table UInt64 Handle} {wrapped : WrappedSource}
    {errors : List Diagnostic} (there : builder.entry ∈ shaders)
    (h : Holds traits shaders programs device)
    (failed : programFor builder wrapped (device, table) = (.error errors, later, spare)) :
    (∃ log, traits.Refuses builder.version wrapped.text log ∧
      errors = failureDiagnostics wrapped log) ∧
      spare = table ∧ Holds traits shaders programs later := by
  unfold programFor at failed
  dsimp only at failed
  cases known : table.get? (fingerprint wrapped.text) with
  | some older =>
    rw [known] at failed
    cases failed
  | none =>
    rw [known] at failed
    dsimp only at failed
    cases built : builder.build wrapped.text device with
    | mk outcome final =>
      rw [built] at failed
      cases outcome with
      | ok new => cases failed
      | error log =>
        cases failed
        obtain ⟨refused, holds⟩ := ProgramBuilder.build_error h there built
        exact ⟨⟨log, refused, rfl⟩, rfl, holds⟩

/-- What the last pass has reached: the layers so far own `entries`, of which each was owned by
the earlier tree or is new, and `kept` is left. -/
structure Reached (traits : DeviceTraits) (version : String)
    (shaders : Multiset (Handle × ShaderObject)) (programs owned : Multiset (Handle × String))
    (layers : List CompiledLayer) (state : BuildState) (entries : List (Handle × String))
    (kept : Multiset (Handle × String)) : Prop where
  backed : List.Forall₂ (Backs traits version) entries (layers.filterMap CompiledLayer.linked?)
  origin : ∀ entry ∈ entries, entry ∈ owned ∨ entry ∈ layers.filterMap CompiledLayer.linked?
  spare : Legacy.Spare traits version kept state.2
  among : kept ≤ owned
  holds : Holds traits shaders (kept + ((entries : Multiset (Handle × String)) + programs)) state.1

variable {owned : Multiset (Handle × String)}

theorem Reached.plain {layers : List CompiledLayer} {state : BuildState}
    {entries : List (Handle × String)} {kept : Multiset (Handle × String)}
    (h : Reached traits version shaders programs owned layers state entries kept)
    {layer : CompiledLayer} (plain : layer.linked? = none) :
    Reached traits version shaders programs owned (layers ++ [layer]) state entries kept := by
  have same : (layers ++ [layer]).filterMap CompiledLayer.linked? =
      layers.filterMap CompiledLayer.linked? := by
    rw [List.filterMap_append, List.filterMap_cons_none plain, List.filterMap_nil, List.append_nil]
  exact ⟨same ▸ h.backed, same ▸ h.origin, h.spare, h.among, h.holds⟩

/-- A shader layer: a program changes hands or comes in, or the layer has errors. -/
theorem compileShader_reached (there : builder.entry ∈ shaders) {layers : List CompiledLayer}
    {state : BuildState} {entries : List (Handle × String)} {kept : Multiset (Handle × String)}
    (h : Reached traits builder.version shaders programs owned layers state entries kept)
    (scene : Option Scene) (layer : Layer) (source : String) (start : CompiledLayer) :
    ∃ entries kept, Reached traits builder.version shaders programs owned
      (layers ++ [(compileShader builder legacy scene layer source start state).1])
      (compileShader builder legacy scene layer source start state).2 entries kept := by
  obtain ⟨device, table⟩ := state
  obtain ⟨errors, ⟨later, spare⟩, failed, made⟩ |
      ⟨program, later, spare, found, built, located, made⟩ :=
    compileShader_cases builder legacy scene layer source start (device, table)
  · obtain ⟨-, rfl, holds⟩ := programFor_error there h.holds failed
    have reached : Reached traits builder.version shaders programs owned layers (later, spare)
        entries kept := ⟨h.backed, h.origin, h.spare, h.among, holds⟩
    rw [made]
    exact ⟨entries, kept, reached.plain rfl⟩
  · obtain ⟨linkedFrom, others, fewer, backs, origin, spared, holds⟩ :=
      programFor_ok there h.spare h.holds built
    have holds := locateAll_holds program (Uniform.extract source (legacy.valuesFor layer))
      (includedScene scene source) later holds
    rw [located] at holds
    rw [made]
    refine ⟨entries ++ [(program, linkedFrom)], others, ?_, ?_, spared, fewer.trans h.among, ?_⟩
    · rw [List.filterMap_append]
      exact List.rel_append h.backed (.cons backs .nil)
    · rw [List.filterMap_append]
      intro entry inside
      rcases List.mem_append.mp inside with inside | inside
      · exact (h.origin entry inside).imp_right (List.mem_append_left _)
      · cases List.mem_singleton.mp inside
        rcases origin with old | rfl
        · exact .inl (Multiset.mem_of_le h.among old)
        · exact .inr (List.mem_append_right _ List.mem_cons_self)
    · rw [← Multiset.coe_add, Multiset.add_comm (entries : Multiset (Handle × String)),
        Multiset.coe_singleton, Multiset.singleton_add, Multiset.cons_add]
      exact holds

theorem compileCode_shader (builder : ProgramBuilder) (legacy : Legacy) (scene : Option Scene)
    (head : LayerHead) (blend : BlendMode) (opacity : Float32) (source : String)
    (values : List ShaderValue) (parent : Option Nat) (children : List Nat)
    (start : CompiledLayer) :
    compileCode builder legacy scene
        (⟨.code .shader head blend opacity source values, parent, children⟩, start) =
      compileShader builder legacy scene (.code .shader head blend opacity source values) source
        start :=
  rfl

theorem compileCode_reached (there : builder.entry ∈ shaders) {layers : List CompiledLayer}
    {state : BuildState} {entries : List (Handle × String)} {kept : Multiset (Handle × String)}
    (h : Reached traits builder.version shaders programs owned layers state entries kept)
    (scene : Option Scene) (placed : PlacedLayer) {start : CompiledLayer}
    (plain : start.linked? = none) :
    ∃ entries kept, Reached traits builder.version shaders programs owned
      (layers ++ [(compileCode builder legacy scene (placed, start) state).1])
      (compileCode builder legacy scene (placed, start) state).2 entries kept := by
  obtain ⟨layer, parent, children⟩ := placed
  cases layer with
  | group head blend opacity inside => exact ⟨entries, kept, h.plain plain⟩
  | distance head source values operands => exact ⟨entries, kept, h.plain plain⟩
  | code language head blend opacity source values =>
    cases language with
    | script => exact ⟨entries, kept, h.plain plain⟩
    | shader =>
      rw [compileCode_shader]
      exact compileShader_reached there h scene _ source start

/-- **The last pass** leaves programs to the new tree and deletes the others that were
left. -/
theorem compileCodes_holds (there : builder.entry ∈ shaders)
    {kept : Multiset (Handle × String)} (among : kept ≤ owned)
    (spare : Legacy.Spare traits builder.version kept legacy.programs)
    (h : Holds traits shaders (kept + programs) device) (scene : Option Scene)
    {pairs : List (PlacedLayer × CompiledLayer)} (plain : ∀ pair ∈ pairs, pair.2.linked? = none) :
    ∃ entries : List (Handle × String),
      List.Forall₂ (Backs traits builder.version) entries
        ((compileCodes builder legacy scene pairs device).1.filterMap CompiledLayer.linked?) ∧
      (∀ entry ∈ entries, entry ∈ owned ∨ entry ∈
        (compileCodes builder legacy scene pairs device).1.filterMap CompiledLayer.linked?) ∧
      Holds traits shaders ((entries : Multiset (Handle × String)) + programs)
        (compileCodes builder legacy scene pairs device).2 := by
  have reached := mapM_invariant (compileCode builder legacy scene) (fun _ layers state => ∃ entries kept,
      Reached traits builder.version shaders programs owned layers state entries kept)
    pairs [] [] (device, legacy.programs) ?_
    ⟨[], kept, .nil, List.forall_mem_nil _, spare, among, by simpa using h⟩
  · obtain ⟨entries, kept, backed, origin, spare, -, holds⟩ := reached
    exact ⟨entries, backed, origin, spare.deletePrograms holds⟩
  · rintro ⟨placed, start⟩ inside - layers state ⟨entries, kept, reached⟩
    exact compileCode_reached there reached scene placed (plain _ inside)

/-- **The first pass** adds nothing. -/
theorem compileDistances_holds (legacy : Legacy) (there : builder.entry ∈ shaders)
    (h : Holds traits shaders programs device) (placed : List PlacedLayer) :
    (∀ layer ∈ ((placed.mapM (compileDistance builder legacy) :
        StateM Device (List CompiledLayer)) device).1, layer.linked? = none) ∧
      Holds traits shaders programs ((placed.mapM (compileDistance builder legacy) :
        StateM Device (List CompiledLayer)) device).2 := by
  refine mapM_invariant (compileDistance builder legacy) (fun _ layers device =>
    (∀ layer ∈ layers, layer.linked? = none) ∧ Holds traits shaders programs device)
    placed [] [] device ?_ ⟨List.forall_mem_nil _, h⟩
  rintro placed - - layers device ⟨plain, holds⟩
  obtain ⟨isPlain, holds⟩ := compileDistance_holds legacy there holds placed
  refine ⟨fun layer inside => ?_, holds⟩
  rcases List.mem_append.mp inside with inside | inside
  · exact plain layer inside
  · cases List.mem_singleton.mp inside
    exact isPlain

/-- All of compiling, in the order in which it is done. -/
theorem compile_eq (document : Layer) (previous : Option CompiledTree) (version : String)
    (device : Device) :
    (compile document previous version).runOn device =
      let (legacy, device) := Legacy.ofPrevious version previous device
      match (builderFor version legacy.builder).runOn device with
      | (.error failure, device) => (.error failure, device)
      | (.ok builder, device) =>
        let (layers, device) := (document.placed.mapM (compileDistance builder legacy) :
          StateM Device (List CompiledLayer)) device
        let scene := buildScene document document.placed layers
        let (layers, device) :=
          compileCodes builder legacy scene (document.placed.zip layers) device
        (.ok ⟨spreadAudio layers, scene, builder⟩, device) := by
  have given : (modifyGet (Legacy.ofPrevious version previous) : Action Device Legacy).runOn
      device = (.ok (Legacy.ofPrevious version previous device).1,
        (Legacy.ofPrevious version previous device).2) := rfl
  unfold compile
  rw [runOn_bind, given]
  cases Legacy.ofPrevious version previous device with
  | mk legacy device =>
    dsimp only
    rw [runOn_bind]
    cases (builderFor version legacy.builder).runOn device with
    | mk outcome mid => cases outcome <;> rfl

/-- **Compiling is finding a builder and two passes**: after there is a builder nothing fails. -/
theorem compile_by_passes {document : Layer} {previous : Option CompiledTree} {version : String}
    {device : Device} {start : ProgramBuilder → Device → Prop} {ok : CompiledTree → Device → Prop}
    {failed : Failure → Device → Prop}
    (built : (builderFor version (Legacy.ofPrevious version previous device).1.builder).Yields
      (Legacy.ofPrevious version previous device).2 start failed)
    (passes : ∀ builder mid, start builder mid →
      let legacy := (Legacy.ofPrevious version previous device).1
      let first := (document.placed.mapM (compileDistance builder legacy) :
        StateM Device (List CompiledLayer)) mid
      let scene := buildScene document document.placed first.1
      let last := compileCodes builder legacy scene (document.placed.zip first.1) first.2
      ok ⟨spreadAudio last.1, scene, builder⟩ last.2) :
    (compile document previous version).Yields device ok failed := by
  unfold Yields at built ⊢
  rw [compile_eq]
  dsimp only
  revert built
  cases (builderFor version (Legacy.ofPrevious version previous device).1.builder).runOn
      (Legacy.ofPrevious version previous device).2 with
  | mk outcome mid =>
    cases outcome with
    | error failure => exact id
    | ok builder => exact passes builder mid

/-- **Compiling** gives a tree that owns all that is added to the ledger beside the rest; where
it fails, only the rest is there. -/
theorem compile_yields (document : Layer) {previous : Option CompiledTree}
    (left : (Legacy.ofPrevious version previous device).1.Left traits version shaders programs
      owned (Legacy.ofPrevious version previous device).2) :
    (compile document previous version).Yields device
      (fun tree later => tree.builder.version = version ∧ ∃ entries, tree.Owned traits entries ∧
        (∀ entry ∈ entries, entry ∈ owned ∨ entry ∈ tree.linked) ∧
        Holds traits (tree.builder.entry ::ₘ shaders)
          ((entries : Multiset (Handle × String)) + programs) later)
      fun _ later => Holds traits shaders programs later := by
  refine compile_by_passes ((builderFor_yields left).mono (fun _ _ => id) fun _ _ built => built.1) ?_
  rintro builder mid ⟨rfl, supported, kept, among, spare, holds⟩
  generalize (Legacy.ofPrevious builder.version previous device).1 = legacy at spare ⊢
  have there : builder.entry ∈ builder.entry ::ₘ shaders := Multiset.mem_cons_self _ _
  obtain ⟨plain, holds⟩ := compileDistances_holds legacy there holds document.placed
  obtain ⟨entries, backed, origin, holds⟩ := compileCodes_holds there among spare holds
    (buildScene document document.placed _) fun pair inside =>
      plain pair.2 (List.of_mem_zip inside).2
  refine ⟨rfl, entries, ⟨supported, ?_⟩, ?_, holds⟩
  all_goals
    unfold linked
    dsimp only
    rwa [filterMap_spreadAudio CompiledLayer.linked? fun _ _ => rfl]

end CompiledTree
end Collage
