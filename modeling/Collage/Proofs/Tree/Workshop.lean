import Collage.Proofs.Tree.Ownership
import Mathlib.Data.List.Perm.Basic

/-!
# Histories of compiling

A `Workshop` is a device and the compiled trees on it that are still there.  A document is
compiled with one of them as the earlier tree or with none, trees are edited, and trees are
destroyed; a tree that was used up or destroyed is there no more.

`Kept` says that the device's ledger is that of the start and what the trees own, tree by
tree.  Each call keeps it (`Kept.call`), so every history does (`Kept.run`).
`run_accounts` reads off what that means for the handles: nothing is leaked, nothing is
deleted twice, and trees share nothing.
-/

namespace Collage

open Device Collage.Action

/-! ### Calls -/

/-- A call about compiled trees; earlier ones are named by their places. -/
inductive TreeCall
  | compile (document : Layer) (previous : Option Nat) (version : String)
  | edit (place : Nat) (id : String) (value : ShaderValue)
  | destroy (place : Nat)

/-- A device, and the compiled trees that have not been used up or destroyed. -/
structure Workshop where
  device : Device
  trees : List CompiledTree := []

namespace Workshop

/-- The tree that is given as the earlier one. -/
def given (workshop : Workshop) (previous : Option Nat) : Option CompiledTree :=
  previous.bind fun place => workshop.trees[place]?

/-- The trees without the one that is given as the earlier one. -/
def others (workshop : Workshop) : Option Nat → List CompiledTree
  | some place => workshop.trees.eraseIdx place
  | none => workshop.trees

/-- What becomes of a workshop in a call.  A place where no tree stands means nothing. -/
def call (workshop : Workshop) : TreeCall → Workshop
  | .compile document previous version =>
    match (CompiledTree.compile document (workshop.given previous) version).runOn
        workshop.device with
    | (.ok tree, device) => ⟨device, tree :: workshop.others previous⟩
    | (.error _, device) => ⟨device, workshop.others previous⟩
  | .edit place id value =>
    match workshop.trees[place]? with
    | some tree =>
      match tree.setValue id value with
      | .ok (_, edited) => { workshop with trees := workshop.trees.set place edited }
      | .error _ => workshop
    | none => workshop
  | .destroy place =>
    match workshop.trees[place]? with
    | some tree => ⟨tree.destroy workshop.device, workshop.trees.eraseIdx place⟩
    | none => workshop

/-- A history of calls, the first of them first. -/
def run (workshop : Workshop) (calls : List TreeCall) : Workshop :=
  calls.foldl call workshop

theorem run_singleton (workshop : Workshop) (call : TreeCall) :
    workshop.run [call] = workshop.call call :=
  rfl

theorem call_compile {device after : Device} {trees : List CompiledTree} {document : Layer}
    {version : String} {tree : CompiledTree}
    (ended : (CompiledTree.compile document none version).runOn device = (.ok tree, after)) :
    call ⟨device, trees⟩ (.compile document none version) = ⟨after, tree :: trees⟩ := by
  have nothing : (⟨device, trees⟩ : Workshop).given none = none := rfl
  unfold call
  dsimp only
  rw [nothing, ended]
  rfl

/-- Destroys all trees that are there. -/
def destroyAll (workshop : Workshop) : Device :=
  workshop.trees.foldl (fun device tree => tree.destroy device) workshop.device

end Workshop

/-- A device whose tables of shaders and programs agree, and whose handles were given and
deleted once each. -/
def Device.Tidy (device : Device) : Prop :=
  Holds device.traits device.shaders.entries device.linkedFrom.entries device

theorem Device.tidy_new (traits : DeviceTraits) : Tidy { traits } :=
  ⟨rfl, rfl, rfl, rfl, Multiset.nodup_zero, fun _ inside => absurd inside (Multiset.notMem_zero _)⟩

/-! ### What editing leaves alone -/

namespace CompiledTree

/-- Editing changes nothing that does not ask for uniforms. -/
theorem map_setValue {β : Type} (view : CompiledLayer → β)
    (same : ∀ layer uniforms, view { layer with uniforms } = view layer)
    {tree edited : CompiledTree} {id : String} {value : ShaderValue} {known : Bool}
    (done : tree.setValue id value = .ok (known, edited)) :
    edited.layers.map view = tree.layers.map view := by
  unfold setValue at done
  split at done
  · cases done
  · split at done
    · cases done
      rfl
    · cases done
      refine List.ext_getElem? fun n => ?_
      rw [List.getElem?_map, List.getElem?_map, List.getElem?_modify]
      cases tree.layers[n]? with
      | none => rfl
      | some layer =>
        split <;> simp [same]

theorem linked_setValue {tree edited : CompiledTree} {id : String} {value : ShaderValue}
    {known : Bool} (done : tree.setValue id value = .ok (known, edited)) :
    edited.linked = tree.linked ∧ edited.builder = tree.builder := by
  have joined := congrArg (fun found => found.filterMap fun one => one)
    (map_setValue CompiledLayer.linked? (fun _ _ => rfl) done)
  refine ⟨by simpa [linked, List.filterMap_map, Function.comp_def] using joined, ?_⟩
  unfold setValue at done
  split at done
  · cases done
  · split at done <;> cases done <;> rfl

theorem Owned.edit {traits : DeviceTraits} {tree edited : CompiledTree}
    {entries : List (Handle × String)} (owned : tree.Owned traits entries) {id : String}
    {value : ShaderValue} {known : Bool} (done : tree.setValue id value = .ok (known, edited)) :
    edited.Owned traits entries := by
  obtain ⟨linked, builder⟩ := linked_setValue done
  exact ⟨builder ▸ owned.supported, by rw [linked, builder]; exact owned.backed⟩

end CompiledTree

/-! ### The ledger of a workshop -/

/-- A tree with the entries of the ledger that it owns. -/
abbrev Estate := CompiledTree × List (Handle × String)

namespace Workshop

/-- The vertex shaders of trees. -/
def builders (estates : List Estate) : Multiset (Handle × ShaderObject) :=
  (estates.map fun estate => estate.1.builder.entry : List (Handle × ShaderObject))

/-- The programs of trees. -/
def entries (estates : List Estate) : Multiset (Handle × String) :=
  (estates.flatMap Prod.snd : List (Handle × String))

theorem builders_cons (estate : Estate) (estates : List Estate) :
    builders (estate :: estates) = estate.1.builder.entry ::ₘ builders estates :=
  rfl

theorem entries_cons (estate : Estate) (estates : List Estate) :
    entries (estate :: estates) = (estate.2 : Multiset (Handle × String)) + entries estates :=
  rfl

theorem builders_of_perm {estates others : List Estate} (perm : estates.Perm others) :
    builders estates = builders others :=
  Multiset.coe_eq_coe.mpr (perm.map _)

theorem entries_of_perm {estates others : List Estate} (perm : estates.Perm others) :
    entries estates = entries others :=
  Multiset.coe_eq_coe.mpr (perm.flatMap_right _)

/-- The trees of a workshop own all that its device has more than at the start. -/
structure Kept (start : Device) (workshop : Workshop) (estates : List Estate) : Prop where
  trees : estates.map Prod.fst = workshop.trees
  owned : ∀ estate ∈ estates, estate.1.Owned start.traits estate.2
  holds : Holds start.traits (builders estates + start.shaders.entries)
    (entries estates + start.linkedFrom.entries) workshop.device

variable {start : Device} {workshop : Workshop} {estates : List Estate}

/-- One tree, and what there is without it. -/
theorem Kept.split (kept : Kept start workshop estates) {place : Nat} {tree : CompiledTree}
    (found : workshop.trees[place]? = some tree) :
    ∃ owned, tree.Owned start.traits owned ∧
      (estates.eraseIdx place).map Prod.fst = workshop.trees.eraseIdx place ∧
      Holds start.traits
        (tree.builder.entry ::ₘ (builders (estates.eraseIdx place) + start.shaders.entries))
        ((owned : Multiset (Handle × String)) +
          (entries (estates.eraseIdx place) + start.linkedFrom.entries)) workshop.device := by
  rw [← kept.trees, List.getElem?_map] at found
  obtain ⟨⟨_, owned⟩, there, rfl⟩ := Option.map_eq_some_iff.mp found
  obtain ⟨inside, same⟩ := List.getElem?_eq_some_iff.mp there
  have perm := (List.getElem_cons_eraseIdx_perm inside).symm
  rw [same] at perm
  refine ⟨owned, kept.owned _ (List.mem_of_getElem? there), ?_, ?_⟩
  · rw [← kept.trees, List.eraseIdx_map]
  · have holds := kept.holds
    rw [builders_of_perm perm, entries_of_perm perm, builders_cons, entries_cons,
      Multiset.cons_add, Multiset.add_assoc] at holds
    exact holds

/-- What the tree that is given as the earlier one leaves, and what the others own. -/
theorem Kept.left (kept : Kept start workshop estates) (previous : Option Nat)
    (version : String) :
    ∃ (others : List Estate) (owned : Multiset (Handle × String)),
      others.map Prod.fst = workshop.others previous ∧
      (∀ estate ∈ others, estate ∈ estates) ∧
      (Legacy.ofPrevious version (workshop.given previous) workshop.device).1.Left start.traits
        version (builders others + start.shaders.entries)
        (entries others + start.linkedFrom.entries) owned
        (Legacy.ofPrevious version (workshop.given previous) workshop.device).2 := by
  cases previous with
  | none => exact ⟨estates, 0, kept.trees, fun _ => id, rfl, kept.holds⟩
  | some place =>
    cases found : workshop.trees[place]? with
    | none =>
      have outside := List.getElem?_eq_none_iff.mp found
      have given : workshop.given (some place) = none := found
      rw [given]
      refine ⟨estates, 0, ?_, fun _ => id, rfl, kept.holds⟩
      rw [others, List.eraseIdx_of_length_le outside, kept.trees]
    | some tree =>
      obtain ⟨owned, isOwned, trees, holds⟩ := kept.split found
      have given : workshop.given (some place) = some tree := found
      rw [given]
      exact ⟨estates.eraseIdx place, owned, trees, fun _ => List.mem_of_mem_eraseIdx,
        Legacy.ofTree_left isOwned holds version⟩

theorem map_set_of_same {α β : Type} {f : α → β} {items : List α} {place : Nat} {old new : α}
    (there : items[place]? = some old) (same : f new = f old) :
    (items.set place new).map f = items.map f := by
  refine List.ext_getElem? fun n => ?_
  rw [List.getElem?_map, List.getElem?_map, List.getElem?_set]
  by_cases here : place = n
  · subst here
    have inside := (List.getElem?_eq_some_iff.mp there).1
    rw [if_pos rfl, if_pos inside, there, Option.map_some, Option.map_some, same]
  · rw [if_neg here]

/-- Editing changes nothing of what trees own. -/
theorem Kept.edit (kept : Kept start workshop estates) {place : Nat} {tree edited : CompiledTree}
    {id : String} {value : ShaderValue} {known : Bool}
    (found : workshop.trees[place]? = some tree)
    (done : tree.setValue id value = .ok (known, edited)) :
    ∃ estates, Kept start { workshop with trees := workshop.trees.set place edited } estates := by
  rw [← kept.trees, List.getElem?_map] at found
  obtain ⟨⟨_, owned⟩, there, rfl⟩ := Option.map_eq_some_iff.mp found
  obtain ⟨-, builder⟩ := CompiledTree.linked_setValue done
  refine ⟨estates.set place (edited, owned), ?_, ?_, ?_⟩
  · rw [← kept.trees, List.map_set]
  · intro estate inside
    rcases List.mem_or_eq_of_mem_set inside with inside | rfl
    · exact kept.owned estate inside
    · exact (kept.owned _ (List.mem_of_getElem? there)).edit done
  · have sameBuilders : builders (estates.set place (edited, owned)) = builders estates := by
      unfold builders
      rw [map_set_of_same there]
      dsimp only
      rw [builder]
    have sameEntries : entries (estates.set place (edited, owned)) = entries estates := by
      have same : (edited, owned).2 = owned := rfl
      unfold entries
      rw [List.flatMap_def, List.flatMap_def, map_set_of_same there same]
    rw [sameBuilders, sameEntries]
    exact kept.holds

/-- **A call keeps the ledger.** -/
theorem Kept.call (kept : Kept start workshop estates) (call : TreeCall) :
    ∃ estates, Kept start (workshop.call call) estates := by
  cases call with
  | compile document previous version =>
    obtain ⟨others, _, trees, inside, left⟩ := kept.left previous version
    have yields := CompiledTree.compile_yields document left
    unfold Workshop.call
    unfold Yields at yields
    dsimp only
    cases ran : (CompiledTree.compile document (workshop.given previous) version).runOn
        workshop.device with
    | mk outcome device =>
      rw [ran] at yields
      cases outcome with
      | error failure => exact ⟨others, trees, fun e there => kept.owned e (inside e there), yields⟩
      | ok tree =>
        obtain ⟨-, owned, isOwned, -, holds⟩ := yields
        refine ⟨(tree, owned) :: others, congrArg (tree :: ·) trees, ?_, ?_⟩
        · intro estate there
          rcases List.mem_cons.mp there with rfl | there
          · exact isOwned
          · exact kept.owned _ (inside _ there)
        · rw [builders_cons, entries_cons, Multiset.cons_add, Multiset.add_assoc]
          exact holds
  | edit place id value =>
    unfold Workshop.call
    dsimp only
    cases found : workshop.trees[place]? with
    | none => exact ⟨estates, kept⟩
    | some tree =>
      dsimp only
      cases done : tree.setValue id value with
      | error failure => exact ⟨estates, kept⟩
      | ok outcome => exact kept.edit found done
  | destroy place =>
    unfold Workshop.call
    dsimp only
    cases found : workshop.trees[place]? with
    | none => exact ⟨estates, kept⟩
    | some tree =>
      obtain ⟨owned, isOwned, trees, holds⟩ := kept.split found
      exact ⟨estates.eraseIdx place, trees,
        fun estate there => kept.owned estate (List.mem_of_mem_eraseIdx there),
        isOwned.destroy holds⟩

/-- **A history keeps the ledger.** -/
theorem Kept.run (kept : Kept start workshop estates) (calls : List TreeCall) :
    ∃ estates, Kept start (workshop.run calls) estates := by
  induction calls generalizing workshop estates with
  | nil => exact ⟨estates, kept⟩
  | cons call rest ih =>
    obtain ⟨next, kept⟩ := kept.call call
    exact ih kept

theorem kept_start (tidy : start.Tidy) : Kept start ⟨start, []⟩ [] := by
  refine ⟨rfl, List.forall_mem_nil _, ?_⟩
  have nothing : builders [] = 0 ∧ entries [] = 0 := ⟨rfl, rfl⟩
  rw [nothing.1, nothing.2, Multiset.zero_add, Multiset.zero_add]
  exact tidy

/-- Where compiling fails, nothing of the earlier tree is there any more. -/
theorem Kept.failed (kept : Kept start workshop estates) {document : Layer}
    {previous : Option Nat} {version : String} {failure : Failure} {after : Device}
    (failed : (CompiledTree.compile document (workshop.given previous) version).runOn
      workshop.device = (.error failure, after)) {tree : CompiledTree}
    (used : workshop.given previous = some tree) :
    (∀ program ∈ tree.programs, program ∉ after.programs.keys) ∧
      tree.builder.vertex ∉ after.shaders.keys := by
  obtain ⟨place, rfl, found⟩ := Option.bind_eq_some_iff.mp used
  obtain ⟨owned, isOwned, trees, holds⟩ := kept.split found
  have left : (Legacy.ofPrevious version (some tree) workshop.device).1.Left start.traits version
      (builders (estates.eraseIdx place) + start.shaders.entries)
      (entries (estates.eraseIdx place) + start.linkedFrom.entries) owned
      (Legacy.ofPrevious version (some tree) workshop.device).2 :=
    Legacy.ofTree_left isOwned holds version
  rw [used] at failed
  have after := Yields.of_error failed (CompiledTree.compile_yields document left)
  constructor
  · intro program inside alive
    rw [← isOwned.programs_eq] at inside
    rw [← Multiset.mem_coe, after.keys_programs] at alive
    have once := holds.once_handles
    rw [Multiset.map_add, Multiset.nodup_add] at once
    exact Multiset.disjoint_left.mp once.2.2 (by simpa using inside) alive
  · intro alive
    rw [← Multiset.mem_coe, after.keys_shaders] at alive
    have once := holds.once_shaders
    rw [← Multiset.coe_nodup, holds.keys_shaders, Multiset.map_cons] at once
    exact (Multiset.nodup_cons.mp once).1 alive

/-! ### Accounts -/

/-- Nothing is leaked and nothing is deleted twice, next to what was there at the start. -/
structure Accounts (start : Device) (workshop : Workshop) : Prop where
  /-- the programs alive are those of the trees, each once -/
  programs : workshop.device.programs.keys.Perm
    (workshop.trees.flatMap CompiledTree.programs ++ start.programs.keys)
  programs_once : workshop.device.programs.keys.Nodup
  /-- the shaders alive are the vertex shaders of the trees, each once -/
  shaders : workshop.device.shaders.keys.Perm
    (workshop.trees.map (·.builder.vertex) ++ start.shaders.keys)
  shaders_once : workshop.device.shaders.keys.Nodup
  vertex : ∀ tree ∈ workshop.trees, workshop.device.shaders.get? tree.builder.vertex =
    some (vertexObject tree.builder.version)
  deleted_once : workshop.device.deletions.Nodup
  /-- a compilation that fails leaves nothing of the tree that it used up -/
  failed : ∀ document previous version failure after,
    (CompiledTree.compile document (workshop.given previous) version).runOn workshop.device =
        (.error failure, after) →
      ∀ tree ∈ workshop.given previous, (∀ program ∈ tree.programs, program ∉ after.programs.keys) ∧
        tree.builder.vertex ∉ after.shaders.keys
  /-- without the trees there is what there was at the start -/
  programs_end : workshop.destroyAll.programs.keys.Perm start.programs.keys
  shaders_end : workshop.destroyAll.shaders.keys.Perm start.shaders.keys
  deleted_end : workshop.destroyAll.deletions.Nodup

theorem Kept.destroyAll (kept : Kept start workshop estates) :
    Holds start.traits start.shaders.entries start.linkedFrom.entries workshop.destroyAll := by
  obtain ⟨device, trees⟩ := workshop
  obtain ⟨rfl, owned, holds⟩ := kept
  unfold Workshop.destroyAll
  dsimp only at holds ⊢
  induction estates generalizing device with
  | nil =>
    have nothing : builders [] = 0 ∧ entries [] = 0 := ⟨rfl, rfl⟩
    rwa [nothing.1, nothing.2, Multiset.zero_add, Multiset.zero_add] at holds
  | cons estate rest ih =>
    rw [builders_cons, entries_cons, Multiset.cons_add, Multiset.add_assoc] at holds
    rw [List.map_cons, List.foldl_cons]
    exact ih _ (fun other inside => owned other (List.mem_cons_of_mem _ inside))
      ((owned estate List.mem_cons_self).destroy holds)

/-- The handles of the programs that trees own are those that they record. -/
theorem Kept.programs_eq (kept : Kept start workshop estates) :
    (entries estates).map Prod.fst = (workshop.trees.flatMap CompiledTree.programs : List Handle) := by
  rw [← kept.trees, entries, Multiset.map_coe, List.flatMap_map, List.map_flatMap]
  refine congrArg _ (List.flatMap_congr fun estate inside => ?_)
  exact (kept.owned estate inside).programs_eq

theorem Kept.accounts (tidy : start.Tidy) (kept : Kept start workshop estates) :
    Accounts start workshop := by
  have programs := kept.holds.keys_programs
  rw [Multiset.map_add, kept.programs_eq, ← tidy.keys_programs, Multiset.coe_add] at programs
  have shaders := kept.holds.keys_shaders
  rw [Multiset.map_add, ← tidy.keys_shaders] at shaders
  have final := kept.destroyAll
  refine ⟨Multiset.coe_eq_coe.mp programs, kept.holds.once_programs, ?_, kept.holds.once_shaders,
    ?_, kept.holds.once_deletions, ?_, ?_, ?_, final.once_deletions⟩
  · refine Multiset.coe_eq_coe.mp (shaders.trans ?_)
    rw [← Multiset.coe_add, builders, Multiset.map_coe, List.map_map, ← kept.trees, List.map_map]
    rfl
  · intro tree inside
    rw [← kept.trees] at inside
    obtain ⟨estate, there, rfl⟩ := List.mem_map.mp inside
    refine kept.holds.get?_shader (Multiset.mem_add.mpr (.inl ?_))
    exact Multiset.mem_coe.mpr (List.mem_map.mpr ⟨estate, there, rfl⟩)
  · intro document previous version failure after failed tree used
    exact kept.failed failed used
  · exact Multiset.coe_eq_coe.mp (final.keys_programs.trans tidy.keys_programs.symm)
  · exact Multiset.coe_eq_coe.mp (final.keys_shaders.trans tidy.keys_shaders.symm)

/-- **Every history of compiling balances.**  Whatever is compiled, with whatever earlier trees,
and wherever the device refuses: the trees that are there own all that is alive and was not
at the start, each thing once. -/
theorem run_accounts (tidy : start.Tidy) (calls : List TreeCall) :
    Accounts start (run ⟨start, []⟩ calls) := by
  obtain ⟨estates, kept⟩ := (kept_start tidy).run calls
  exact kept.accounts tidy

/-- A group of shader layers, two of them with the same code. -/
def gallery : Layer :=
  let picture (id code : String) : Layer := .code .shader ⟨id, "", true⟩ .normal 1 code []
  .group ⟨"root", "", true⟩ .normal 1
    [picture "left" "void main() \x7b\x7d", picture "right" "void main() \x7b\x7d",
      picture "torn" "#error torn"]

/-- The programs of the first two layers are built, and the third is refused.  When the group is
compiled again one of the programs is taken over; another version has programs of its own.  At last
the device has no memory for a vertex shader, so that the first tree is used up for nothing. -/
theorem run_accounts_gallery :
    let traits : DeviceTraits :=
      { shaderRefusal := fun asked _ _ => if asked = 10 then some "no memory" else none }
    Accounts { traits } (run ⟨{ traits }, []⟩
      [.compile gallery none "300 es", .compile gallery (some 0) "300 es",
        .compile gallery none "330", .edit 0 "left" ⟨"speed", .float 2, none⟩,
        .compile gallery (some 1) "100", .destroy 0]) :=
  run_accounts (tidy_new _) _

end Workshop
end Collage
