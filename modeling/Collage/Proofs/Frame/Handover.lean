import Collage.Proofs.Frame.Accountable
import Collage.Proofs.Frame.Creating
import Collage.Proofs.Frame.Reached
import Collage.Proofs.Tree.Backstage

/-!
# A renderer gives back what it owns

A renderer is created on a device where there is something already, and where trees are compiled
before and between frames.  `Lives start renderer trees` says that this renderer and these trees
have come about on the device `start`: frames and previews may have failed anywhere, pictures of
script layers may have come back in any order, but a new size was reached.

There is then on the device what there was at the start, what the trees own and what the
renderer owns (`Lives.houses`, by induction on what was done), and nothing else.  So when the
renderer is destroyed, which it can be since no target is in use, there is what there was at the
start and what the trees own (`hands_back`).
-/

namespace Collage

open Collage.Action

namespace Stock

/-- A stock with the vertex shader and the programs of a renderer. -/
def addStanding (stock : Stock) (standing : StandingPrograms) (entries : List (Handle × String)) :
    Stock :=
  { stock with
    shaders := standing.builder.entry ::ₘ stock.shaders
    programs := (entries : Multiset (Handle × String)) + stock.programs }

/-- A stock with what trees own. -/
def addTrees (stock : Stock) (estates : List Estate) : Stock :=
  { stock with
    shaders := Workshop.builders estates + stock.shaders
    programs := Workshop.entries estates + stock.programs }

end Stock

theorem Device.neat_new (traits : DeviceTraits) : Neat { traits } :=
  ⟨tidy_new traits, rfl, rfl, List.nodup_nil, List.nodup_nil,
    fun _ inside => absurd inside (Multiset.notMem_zero _),
    fun _ inside => absurd inside (Multiset.notMem_zero _)⟩

namespace Renderer

variable {ℓ : Type} {stock : Stock} {device : Device} {renderer : Renderer ℓ}

/-- What a renderer owns, its programs included, and a stock are all that there is on its
device. -/
def OwnsAll (stock : Stock) (renderer : Renderer ℓ) : Prop :=
  ∃ entries : List (Handle × String), entries.map Prod.fst = renderer.programs.handles ∧
    renderer.Owns (stock.addStanding renderer.programs entries)

theorem OwnsAll.of_owns {after : Renderer ℓ} (h : renderer.OwnsAll stock)
    (owns : ∀ stock, renderer.Owns stock → after.Owns stock)
    (programs : after.programs = renderer.programs) : after.OwnsAll stock := by
  obtain ⟨entries, handles, owned⟩ := h
  exact ⟨entries, programs ▸ handles, programs ▸ owns _ owned⟩

theorem Accountable.ownsAll {after : Renderer ℓ} (h : Accountable renderer after)
    (owns : renderer.OwnsAll stock) : after.OwnsAll stock :=
  owns.of_owns h.owns h.programs

/-! ### The beginning -/

/-- **A renderer that is created owns what there is more than before.** -/
theorem create_ownsAll (h : device.Stocked stock) (options : RendererOptions) (loader : ℓ) :
    (create options loader).Yields device (fun renderer _ => renderer.OwnsAll stock)
      fun _ _ => True := by
  have standing : (StandingPrograms.create options.version).Yields device
      (fun programs built => ∃ entries : List (Handle × String),
        entries.map Prod.fst = programs.handles ∧
          built.Stocked (stock.addStanding programs entries)) fun _ _ => True := by
    refine ((Yields.of_after (StandingPrograms.create_backstage options.version device)).and
      (StandingPrograms.create_adds h.holds options.version)).mono ?_ fun _ _ _ => trivial
    rintro programs built ⟨same, entries, handles, holds⟩
    exact ⟨entries, handles, h.of_ledger same holds⟩
  have pool : ∀ programs built, (∃ entries : List (Handle × String),
      entries.map Prod.fst = programs.handles ∧
        built.Stocked (stock.addStanding programs entries)) →
      (RenderTargets.create options.width options.height options.antiAlias).Yields built
        (fun pool laid => ∃ entries : List (Handle × String),
          entries.map Prod.fst = programs.handles ∧
            laid.Stocked ((stock.addStanding programs entries).addCanvases pool.handles))
        fun _ _ => True := by
    rintro programs built ⟨entries, handles, stocked⟩
    exact (RenderTargets.create_stocked stocked _ _ _).mono
      (fun _ _ stocked => ⟨entries, handles, stocked⟩) fun _ _ => id
  refine create_by_parts standing pool (fun _ _ _ _ _ _ _ => trivial) ?_
  rintro programs pool laid ⟨entries, handles, stocked⟩ spectrum made created
  refine ⟨entries, handles, owns_iff_targets.mpr ?_⟩
  rw [← Stock.addTextures_nil (Stock.addCanvases _ _)] at stocked
  exact (stocked.cons_texture created (.refl _)).of_same (Device.sameStock_uploadTexture _ _ _ _ _)

/-! ### The end -/

/-- **A renderer can be destroyed between frames**, and all that it owns is there no more. -/
theorem destroy_stocked (idle : renderer.targets.Idle) (owns : renderer.OwnsAll stock) :
    (destroy : Action (Renderer ℓ) Unit).Yields renderer
      (fun _ after => after.device.Stocked stock) fun _ _ => False := by
  obtain ⟨entries, handles, owns⟩ := owns
  have deleted : RenderTargets.delete.Yields (renderer.device, renderer.targets)
      (fun _ after => after.1.Stocked _) fun _ _ => False :=
    RenderTargets.delete_stocked idle owns
  unfold destroy
  refine Yields.bind (Yields.within deleted) ?_ fun _ _ ⟨_, never, _⟩ => never
  rintro _ _ ⟨⟨device, targets⟩, left, rfl⟩
  refine Yields.modified ?_
  -- what is deleted last stands first
  have parts : (stock.addStanding renderer.programs entries).addTextures renderer.others =
      (((stock.addStanding renderer.programs entries).addTextures [renderer.spectrum]).addTextures
        renderer.external.handles).addTextures renderer.textures.handles := by
    rw [← Stock.addTextures_append, ← Stock.addTextures_append]
    exact Stock.addTextures_perm _ ((List.perm_append_singleton _ _).symm.trans
      (List.append_assoc _ _ _ ▸ .refl _))
  dsimp only at left ⊢
  rw [parts] at left
  have stripped := (ExternalLayers.clear_stocked renderer.external
    (TextureCache.clear_stocked renderer.textures left)).deleteTextures [renderer.spectrum]
  exact stripped.of_ledger (renderer.programs.release_backstage _)
    (StandingPrograms.release_holds handles stripped.holds)

/-! ### Between the beginning and the end -/

/-- What there was at the start, what trees own and what a renderer owns are all that there is on
its device. -/
def Houses (start : Device) (renderer : Renderer ℓ) (trees : List CompiledTree) : Prop :=
  ∃ estates : List Estate, estates.map Prod.fst = trees ∧
    (∀ estate ∈ estates, estate.1.Owned start.traits estate.2) ∧
    renderer.OwnsAll (start.stock.addTrees estates)

theorem Houses.of_ownsAll {start : Device} {trees : List CompiledTree} {after : Renderer ℓ}
    (h : renderer.Houses start trees)
    (owns : ∀ stock, renderer.OwnsAll stock → after.OwnsAll stock) : after.Houses start trees := by
  obtain ⟨estates, same, owned, all⟩ := h
  exact ⟨estates, same, owned, owns _ all⟩

/-- To trees what a renderer owns is there from the start, and so it is not touched when they are
compiled, edited and destroyed. -/
theorem Houses.call {start : Device} {trees : List CompiledTree} (h : renderer.Houses start trees)
    (call : TreeCall) :
    Houses start
      { renderer with device := (Workshop.call ⟨renderer.device, trees⟩ call).device }
      (Workshop.call ⟨renderer.device, trees⟩ call).trees := by
  obtain ⟨estates, rfl, owned, entries, handles, owns⟩ := h
  let shared : Device := { start with
    shaders := ⟨renderer.programs.builder.entry :: start.shaders.entries⟩
    linkedFrom := ⟨entries ++ start.linkedFrom.entries⟩ }
  -- the same ledger, with the renderer's part beside what was there, or first
  have moved : ∀ (estates : List Estate) (device : Device),
      Device.Holds start.traits (Workshop.builders estates + shared.shaders.entries)
        (Workshop.entries estates + shared.linkedFrom.entries) device ↔
      Device.Holds start.traits
        ((start.stock.addTrees estates).addStanding renderer.programs entries).shaders
        ((start.stock.addTrees estates).addStanding renderer.programs entries).programs device := by
    intro estates device
    dsimp only [shared, Stock.addStanding, Stock.addTrees, Device.stock]
    rw [← Multiset.cons_coe, Multiset.add_cons, ← Multiset.coe_add,
      ← Multiset.add_assoc (Workshop.entries estates), Multiset.add_comm (Workshop.entries estates),
      Multiset.add_assoc]
  have kept : Workshop.Kept shared ⟨renderer.device, estates.map Prod.fst⟩ estates :=
    ⟨rfl, owned, (moved estates renderer.device).mpr owns.holds⟩
  obtain ⟨later, kept⟩ := kept.call call
  exact ⟨later, kept.trees, kept.owned, entries, handles,
    owns.of_ledger (Workshop.call_backstage ⟨renderer.device, estates.map Prod.fst⟩ call)
      ((moved later _).mp kept.holds)⟩

section

variable [TextureLoader ℓ]

/-- The renderers and trees that can come about on a device. -/
inductive Lives (start : Device) : Renderer ℓ → List CompiledTree → Prop
  | created (calls : List TreeCall) {options : RendererOptions} {loader : ℓ} {later : Device}
      {renderer : Renderer ℓ} :
      (create options loader).runOn (Workshop.run ⟨start, []⟩ calls).device =
        (.ok renderer, later) → Lives start renderer (Workshop.run ⟨start, []⟩ calls).trees
  | rendered {renderer : Renderer ℓ} {trees : List CompiledTree} (tree : CompiledTree)
      (input : FrameInput) : Lives start renderer trees →
      Lives start ((render tree input).runOn renderer).2 trees
  | previewed {renderer : Renderer ℓ} {trees : List CompiledTree} (tree : CompiledTree)
      (ids : List String) (width height : Nat) (date : List Float32) :
      Lives start renderer trees →
      Lives start ((previews tree ids width height date).runOn renderer).2 trees
  | read {renderer : Renderer ℓ} {trees : List CompiledTree} : Lives start renderer trees →
      Lives start (output.runOn renderer).2 trees
  | resized {renderer after : Renderer ℓ} {trees : List CompiledTree} (width height : Nat) :
      Lives start renderer trees → (resize width height).runOn renderer = (.ok (), after) →
      Lives start after trees
  | pruned {renderer : Renderer ℓ} {trees : List CompiledTree} (tree : CompiledTree) :
      Lives start renderer trees → Lives start (prune tree renderer) trees
  | connected {renderer : Renderer ℓ} {trees : List CompiledTree} : Lives start renderer trees →
      Lives start { renderer with external := renderer.external.connect } trees
  | delivered {renderer : Renderer ℓ} {trees : List CompiledTree} (result : ExternalResult) :
      Lives start renderer trees →
      Lives start { renderer with external := renderer.external.deliver result } trees
  | loaded {renderer : Renderer ℓ} {trees : List CompiledTree} (loader : ℓ) :
      Lives start renderer trees → Lives start { renderer with loader } trees
  /-- trees are compiled, edited and destroyed between frames -/
  | called {renderer : Renderer ℓ} {trees : List CompiledTree} (call : TreeCall) :
      Lives start renderer trees →
      Lives start { renderer with device := (Workshop.call ⟨renderer.device, trees⟩ call).device }
        (Workshop.call ⟨renderer.device, trees⟩ call).trees

variable {start : Device} {trees : List CompiledTree}

theorem run_stocked (neat : start.Neat) (calls : List TreeCall) :
    ∃ estates : List Estate, estates.map Prod.fst = (Workshop.run ⟨start, []⟩ calls).trees ∧
      (∀ estate ∈ estates, estate.1.Owned start.traits estate.2) ∧
      (Workshop.run ⟨start, []⟩ calls).device.Stocked (start.stock.addTrees estates) := by
  obtain ⟨estates, kept⟩ := (Workshop.kept_start neat.holds).run calls
  exact ⟨estates, kept.trees, kept.owned,
    neat.of_ledger (Workshop.run_backstage ⟨start, []⟩ calls) kept.holds⟩

theorem Lives.reached (neat : start.Neat) (lives : Lives start renderer trees) :
    Reached renderer := by
  induction lives with
  | created calls created =>
    obtain ⟨_, -, -, stocked⟩ := run_stocked neat calls
    exact .created stocked.fresh created
  | rendered tree input _ ih => exact .rendered tree input ih
  | previewed tree ids width height date _ ih => exact .previewed tree ids width height date ih
  | read _ ih => exact .read ih
  | @resized renderer after trees width height _ ended ih =>
    have reached := Reached.resized width height ih
    rwa [ended] at reached
  | pruned tree _ ih => exact .pruned tree ih
  | connected _ ih => exact .connected ih
  | delivered result _ ih => exact .delivered result ih
  | loaded loader _ ih => exact .loaded loader ih
  | @called renderer trees call _ ih =>
    exact .programmed ih (Workshop.call_backstage ⟨renderer.device, trees⟩ call).calm

theorem Lives.houses (neat : start.Neat) (lives : Lives start renderer trees) :
    renderer.Houses start trees := by
  induction lives with
  | created calls created =>
    obtain ⟨estates, trees, owned, stocked⟩ := run_stocked neat calls
    have owns := Yields.of_ok created (create_ownsAll stocked _ _)
    exact ⟨estates, trees, owned, owns⟩
  | rendered tree input _ ih =>
    exact ih.of_ownsAll fun _ => (Keeps.after_iff.mp (render_accountable tree input) _).ownsAll
  | previewed tree ids width height date _ ih =>
    exact ih.of_ownsAll fun _ =>
      (Keeps.after_iff.mp (previews_accountable tree ids width height date) _).ownsAll
  | read _ ih => exact ih.of_ownsAll fun _ => (Keeps.after_iff.mp output_accountable _).ownsAll
  | resized width height lives ended ih =>
    refine ih.of_ownsAll fun stock ⟨entries, handles, owns⟩ => ?_
    obtain ⟨owns, programs⟩ :=
      Yields.of_ok ended (resize_owns width height (lives.reached neat).sound.idle owns)
    exact ⟨entries, programs ▸ handles, programs ▸ owns⟩
  | pruned tree _ ih => exact ih.of_ownsAll fun _ => (prune_accountable tree _).ownsAll
  | connected _ ih => exact ih
  | delivered result _ ih =>
    refine ih.of_ownsAll fun _ => Accountable.ownsAll (.of_same (.refl _) ?_ rfl rfl)
    unfold ExternalLayers.deliver
    split <;> exact .refl _
  | loaded loader _ ih => exact ih
  | called call _ ih => exact ih.call call

/-- What is there when a renderer has been destroyed: what there was at the start, and what trees
own. -/
structure HandsBack (start : Device) (renderer : Renderer ℓ) (trees : List CompiledTree) :
    Prop where
  destroyed : (destroy.runOn renderer).1 = .ok ()
  textures : (destroy.runOn renderer).2.device.textures.keys.Perm start.textures.keys
  framebuffers : (destroy.runOn renderer).2.device.framebuffers.keys.Perm start.framebuffers.keys
  programs : (destroy.runOn renderer).2.device.programs.keys.Perm
    (trees.flatMap CompiledTree.programs ++ start.programs.keys)
  shaders : (destroy.runOn renderer).2.device.shaders.keys.Perm
    (trees.map (·.builder.vertex) ++ start.shaders.keys)

/-- **A renderer hands back all that it owns**, whatever was done with it and wherever that
failed: it can be destroyed, and then there is what there was before it was created, and what
compiled trees own. -/
theorem hands_back (neat : start.Neat) (lives : Lives start renderer trees) :
    renderer.HandsBack start trees := by
  obtain ⟨estates, same, owned, owns⟩ := lives.houses neat
  have left := destroy_stocked (lives.reached neat).sound.idle owns
  unfold Yields at left
  cases ran : (destroy : Action (Renderer ℓ) Unit).runOn renderer with
  | mk outcome after =>
    rw [ran] at left
    cases outcome with
    | error failure => exact left.elim
    | ok _ =>
      have kept : Workshop.Kept start ⟨after.device, trees⟩ estates := ⟨same, owned, left.holds⟩
      have accounts := kept.accounts neat.holds
      refine ⟨?_, ?_, ?_, ?_, ?_⟩ <;> rw [ran]
      · exact Multiset.coe_eq_coe.mp left.textures
      · exact Multiset.coe_eq_coe.mp (left.keys_framebuffers.trans neat.keys_framebuffers.symm)
      · exact accounts.programs
      · exact accounts.shaders

end

/-- A renderer on a new device, with which a frame was drawn and previews were tried of a layer
that there is not. -/
theorem hands_back_new : ∃ renderer : Renderer NoLoader,
    Lives {} renderer [] ∧ renderer.HandsBack {} [] := by
  obtain ⟨renderer, later, created⟩ := create_succeeds {} rfl rfl NoLoader.mk
    DeviceTraits.obliging_new (Device.tidy_new {})
  have lives := Lives.previewed veiled ["none"] 4 4 [] (.rendered veiled {} (.created [] created))
  exact ⟨_, lives, hands_back (Device.neat_new {}) lives⟩

end Renderer
end Collage
