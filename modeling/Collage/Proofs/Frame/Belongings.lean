import Collage.Proofs.Device.Stock
import Collage.Proofs.Frame.Leftovers

/-!
# What a renderer owns

A renderer owns the canvases of its targets and the textures of its cache, of its script layers
and of the sound.  Three parts of it create and delete images, the pool, the textures of uniforms
and those of script layers, and each of them is `Accountable`: whatever it does, and wherever
that fails, there is what it owns, and besides what there was besides, whichever stock that is.
-/

namespace Collage

open Collage.Action

namespace Stock

/-- A stock with more textures. -/
def addTextures (stock : Stock) (textures : List Handle) : Stock :=
  { stock with textures := (textures : Multiset Handle) + stock.textures }

/-- A stock with more framebuffers, each with its texture. -/
def addCanvases (stock : Stock) (canvases : List (Handle × Handle)) : Stock :=
  { stock with
    textures := (canvases.map Prod.snd : List Handle) + stock.textures
    framebuffers := (canvases : Multiset (Handle × Handle)) + stock.framebuffers }

variable (stock : Stock)

theorem addTextures_perm {textures others : List Handle} (perm : textures.Perm others) :
    stock.addTextures textures = stock.addTextures others := by
  rw [addTextures, addTextures, Multiset.coe_eq_coe.mpr perm]

@[simp]
theorem addTextures_nil : stock.addTextures [] = stock := by
  simp [addTextures]

theorem addTextures_append (textures others : List Handle) :
    stock.addTextures (textures ++ others) = (stock.addTextures others).addTextures textures := by
  simp only [addTextures, ← Multiset.coe_add, Multiset.add_assoc]

theorem addCanvases_addTextures (canvases : List (Handle × Handle)) (textures : List Handle) :
    (stock.addCanvases canvases).addTextures textures =
      (stock.addTextures textures).addCanvases canvases := by
  simp only [addTextures, addCanvases]
  rw [← Multiset.add_assoc, Multiset.add_comm (textures : Multiset Handle), Multiset.add_assoc]

theorem addCanvases_perm {canvases others : List (Handle × Handle)} (perm : canvases.Perm others) :
    stock.addCanvases canvases = stock.addCanvases others := by
  rw [addCanvases, addCanvases, Multiset.coe_eq_coe.mpr perm,
    Multiset.coe_eq_coe.mpr (perm.map Prod.snd)]

@[simp]
theorem addCanvases_nil : stock.addCanvases [] = stock := by
  simp [addCanvases]

theorem addCanvases_append (canvases others : List (Handle × Handle)) :
    stock.addCanvases (canvases ++ others) = (stock.addCanvases others).addCanvases canvases := by
  simp only [addCanvases, List.map_append, ← Multiset.coe_add, Multiset.add_assoc]

/-- One canvas more, at the end. -/
theorem addCanvases_concat (canvases : List (Handle × Handle)) (canvas : Handle × Handle) :
    stock.addCanvases (canvases ++ [canvas]) =
      (stock.addCanvases canvases).addCanvases [canvas] := by
  rw [← addCanvases_append, addCanvases_perm stock List.perm_append_comm]

end Stock

variable {stock : Stock} {device : Device}

/-! ### The pool -/

namespace RenderTargets

/-- Between two states of a pool and its device what there was besides has stayed. -/
def Accountable (before after : State) : Prop :=
  ∀ stock : Stock, before.1.Stocked (stock.addCanvases before.2.handles) →
    after.1.Stocked (stock.addCanvases after.2.handles)

theorem concat_stocked {pool : RenderTargets} {width height : Nat} {canvas : Handle × Handle}
    {later : Device} (h : device.Stocked (stock.addCanvases pool.handles))
    (created : device.createFramebuffer width height = (.ok canvas, later)) :
    later.Stocked (stock.addCanvases (pool.handles ++ [canvas])) := by
  rw [Stock.addCanvases_concat]
  exact h.createFramebuffer created

theorem request_accountable : Keeps Accountable request := by
  rintro ⟨device, pool⟩
  unfold request
  refine Yields.get ?_
  dsimp only
  split
  · exact Yields.throw fun _ => id
  split
  · refine Yields.modify (Yields.pure fun stock stocked => ?_)
    exact (handles_withUse pool _ _).symm ▸ stocked
  · refine (Yields.within (newFramebuffer_yields _ _ device)).bind ?_ ?_
    · rintro ⟨framebuffer, texture⟩ _ ⟨later, created, rfl⟩
      refine Yields.modify (Yields.pure fun stock stocked => ?_)
      dsimp only [handles]
      rw [List.map_append]
      exact concat_stocked stocked created
    · rintro _ _ ⟨later, ⟨cause, failed, -⟩, rfl⟩ stock stocked
      exact stocked.of_same (device.sameStock_of_createFramebuffer_error failed)

theorem handles_release {pool changed : RenderTargets} {id : Nat}
    (released : pool.release id = .ok changed) : changed.handles = pool.handles := by
  obtain ⟨use, unused, rfl⟩ := eq_of_release released
  exact handles_withUse pool id use

theorem handles_reclaim (pool : RenderTargets) : pool.reclaim.2.handles = pool.handles := by
  simp only [handles, reclaim, List.map_map]
  refine List.map_congr_left fun target _ => ?_
  simp only [Function.comp_apply]
  split <;> rfl

/-- A ladder that is built is there. -/
theorem buildLadder_stocked : ∀ (steps factor : Nat) {pool : RenderTargets} {device : Device},
    device.Stocked (stock.addCanvases pool.handles) →
    (buildLadder steps factor pool).Yields device
      (fun pool later => later.Stocked (stock.addCanvases pool.handles)) fun _ _ => True
  | 0, _, _, _, h => Yields.pure h
  | steps + 1, factor, pool, device, h => by
    unfold buildLadder
    split
    · exact Yields.pure h
    · refine (newFramebuffer_yields _ _ device).bind ?_ fun _ _ _ => trivial
      rintro ⟨framebuffer, texture⟩ later created
      refine buildLadder_stocked steps (factor / 2) ?_
      dsimp only [handles]
      rw [List.map_append]
      exact concat_stocked h created

theorem create_stocked (h : device.Stocked stock) (width height antiAlias : Nat) :
    (create width height antiAlias).Yields device
      (fun pool later => later.Stocked (stock.addCanvases pool.handles)) fun _ _ => True := by
  unfold create
  refine Yields.get (buildLadder_stocked _ _ ?_)
  exact stock.addCanvases_nil.symm ▸ h

/-- **A pool that is deleted is there no more**, if nothing of it is in use. -/
theorem delete_stocked {pool : RenderTargets} (idle : pool.Idle)
    (h : device.Stocked (stock.addCanvases pool.handles)) {failed : Failure → State → Prop} :
    delete.Yields (device, pool) (fun _ after => after.1.Stocked stock) failed := by
  have deleted : ∀ (targets : List RenderTarget) (device : Device),
      device.Stocked (stock.addCanvases
        (targets.map fun target => (target.framebuffer, target.texture))) →
      (targets.foldl (fun device target => device.deleteFramebuffer target.framebuffer)
        device).Stocked stock := by
    intro targets
    induction targets with
    | nil => exact fun device h => by simpa using h
    | cons target rest ih =>
      intro device h
      refine ih _ ?_
      rw [List.map_cons, ← List.singleton_append, Stock.addCanvases_append] at h
      exact Device.Stocked.deleteFramebuffer h
  have none : pool.inUse.length = 0 := idle.inUse_perm.length_eq
  unfold delete
  refine Yields.get ?_
  dsimp only
  rw [if_neg (by simp [idle.alive]), if_neg (by omega)]
  exact Yields.modified (deleted pool.targets device h)

theorem resize_accountable (width height : Nat) : Keeps Accountable (resize width height) := by
  have resized : ∀ (stock : Stock) (targets : List RenderTarget) (device : Device),
      (∀ target ∈ targets, (target.framebuffer, target.texture) ∈ stock.framebuffers ∧
        target.texture ∈ stock.textures) → device.Stocked stock →
      (targets.foldl (fun device target => device.resizeFramebuffer target.framebuffer
        (max width 1) (max height 1)) device).Stocked stock := by
    intro stock targets
    induction targets with
    | nil => exact fun _ _ h => h
    | cons target rest ih =>
      intro device known h
      obtain ⟨framebuffer, texture⟩ := known target List.mem_cons_self
      exact ih _ (fun other inside => known other (List.mem_cons_of_mem _ inside))
        (h.resizeFramebuffer framebuffer texture _ _)
  rintro ⟨device, pool⟩
  unfold resize
  refine Yields.get ?_
  dsimp only
  split
  · exact Yields.throw fun _ => id
  split
  · exact Yields.throw fun _ => id
  · refine Yields.modified fun stock stocked => ?_
    have same := handles_resized pool (max width 1) (max height 1)
    refine same.symm ▸ resized _ pool.targets device (fun target inside => ?_) stocked
    have canvas : (target.framebuffer, target.texture) ∈ pool.handles :=
      List.mem_map_of_mem inside
    exact ⟨Multiset.mem_add.mpr (.inl canvas),
      Multiset.mem_add.mpr (.inl (List.mem_map_of_mem (f := Prod.snd) canvas))⟩

end RenderTargets

theorem Device.Stocked.cons_texture {others textures : List Handle} {texture : Handle}
    {later : Device} {filter : TextureFilter} {wrap : TextureWrap}
    (h : device.Stocked (stock.addTextures others))
    (created : device.createTexture filter wrap = (.ok texture, later))
    (perm : textures.Perm (texture :: others)) : later.Stocked (stock.addTextures textures) := by
  have added : stock.addTextures (texture :: others) =
      { stock.addTextures others with
        textures := texture ::ₘ (stock.addTextures others).textures } := by
    simp only [Stock.addTextures, ← Multiset.cons_coe, Multiset.cons_add]
  rw [Stock.addTextures_perm _ perm, added]
  exact h.createTexture created

theorem Device.Stocked.keep_textures {others gone kept : List Handle}
    (h : device.Stocked (stock.addTextures others)) (parts : (gone ++ kept).Perm others) :
    (gone.foldl (fun device texture => device.deleteTexture texture) device).Stocked
      (stock.addTextures kept) := by
  rw [← Stock.addTextures_perm _ parts, Stock.addTextures_append] at h
  exact h.deleteTextures gone

/-! ### Textures of uniforms -/

namespace TextureCache

variable {ℓ : Type}

/-- Between two states of a cache and its device what there was besides has stayed. -/
def Accountable (before after : State ℓ) : Prop :=
  ∀ stock : Stock, before.device.Stocked (stock.addTextures before.cache.handles) →
    after.device.Stocked (stock.addTextures after.cache.handles)

instance : Std.Refl (@Accountable ℓ) := ⟨fun _ _ => id⟩

instance : IsTrans (State ℓ) Accountable :=
  ⟨fun _ _ _ h h' stock stocked => h' stock (h stock stocked)⟩

theorem handles_set {cache : TextureCache} {key : TextureKey} (absent : cache.get? key = none)
    (entry : CachedTexture) :
    (TextureCache.handles (cache.set key entry)).Perm (entry.texture :: cache.handles) := by
  have perm := cache.perm_filterMap_set (fun entry : CachedTexture => some entry.texture) key entry
  rw [absent] at perm
  simp only [List.filterMap_eq_map', Option.bind_none, Option.toList_none, List.append_nil,
    Option.toList_some] at perm
  exact perm.trans (List.perm_append_singleton _ _)

theorem Found.accountable {key : TextureKey} {width height : Nat} {bytes : List UInt8}
    {state after : State ℓ} {texture : Handle}
    (found : Found key width height bytes state texture after) : Accountable state after := by
  intro stock stocked
  cases found with
  | known there => exact stocked
  | made loader ready absent created =>
    exact (stocked.cons_texture created (handles_set absent _)).of_same
      (Device.sameStock_uploadTexture _ _ _ _ _)

theorem Failed.accountable {key : TextureKey} {state after : State ℓ} {failure : Failure}
    (h : Failed key state failure after) : Accountable state after := by
  obtain ⟨-, filter, wrap, cause, later, failed, -, rfl⟩ := h
  exact fun stock stocked =>
    stocked.of_same (state.device.sameStock_of_createTexture_error failed)

theorem poll_accountable [TextureLoader ℓ] (state : State ℓ) : Accountable state (poll state) := by
  refine poll_leads _ Std.Refl.refl (IsTrans.trans _ _ _)
    (fun state key _ ready stock stocked => ?_)
    (fun state key _ ready _ _ _ _ stock stocked => ?_) state
  · exact (handles_modify state.cache key ready).symm ▸ stocked
  · exact (handles_modify state.cache key ready).symm ▸
      stocked.of_same (Device.sameStock_uploadTexture _ _ _ _ _)

theorem deleteEntries_eq (entries : List (TextureKey × CachedTexture)) (device : Device) :
    deleteEntries entries device = (entries.map (·.2.texture)).foldl
      (fun device texture => device.deleteTexture texture) device := by
  rw [deleteEntries, List.foldl_map]

theorem handles_eq (cache : TextureCache) :
    TextureCache.handles cache = cache.entries.map (·.2.texture) := by
  rw [handles, Table.values, List.map_map]
  rfl

theorem retain_stocked (live : List TextureKey) (cache : TextureCache)
    (h : device.Stocked (stock.addTextures cache.handles)) :
    (retain live device cache).1.Stocked
      (stock.addTextures (TextureCache.handles (retain live device cache).2)) := by
  unfold retain
  dsimp only
  rw [deleteEntries_eq, handles_eq]
  rw [handles_eq] at h
  have parts := List.filter_append_perm (fun entry => live.contains entry.1) cache.entries
  refine h.keep_textures (List.perm_append_comm.trans ?_)
  rw [Table.keep, ← List.map_append]
  exact parts.map _

theorem clear_stocked (cache : TextureCache)
    (h : device.Stocked (stock.addTextures cache.handles)) :
    (clear device cache).1.Stocked stock := by
  unfold clear
  rw [deleteEntries_eq, ← handles_eq]
  exact h.deleteTextures cache.handles

end TextureCache

/-! ### Textures of script layers -/

namespace ExternalLayers

/-- Between two states of the layers and their device what there was besides has stayed. -/
def Accountable (before after : State) : Prop :=
  ∀ stock : Stock, before.1.Stocked (stock.addTextures before.2.handles) →
    after.1.Stocked (stock.addTextures after.2.handles)

instance : Std.Refl Accountable := ⟨fun _ _ => id⟩

instance : IsTrans State Accountable := ⟨fun _ _ _ h h' stock stocked => h' stock (h stock stocked)⟩

theorem handles_set_same {layers : ExternalLayers} {layer : String} {state : ExternalState}
    (same : state.texture = layers.texture? layer) :
    (handles { layers with states := layers.states.set layer state }).Perm layers.handles := by
  have perm := layers.states.perm_filterMap_set (·.texture) layer state
  rw [same, texture?] at perm
  exact (List.perm_append_right_iff _).mp perm

theorem handles_set_new {layers : ExternalLayers} {layer : String} {state : ExternalState}
    {texture : Handle} (none : layers.texture? layer = none)
    (some : state.texture = some texture) :
    (handles { layers with states := layers.states.set layer state }).Perm
      (texture :: layers.handles) := by
  have perm := layers.states.perm_filterMap_set (·.texture) layer state
  rw [some, ← texture?, none, Option.toList_none, List.append_nil, Option.toList_some] at perm
  exact perm.trans (List.perm_append_singleton _ _)

theorem handles_request (layers : ExternalLayers) (layer : String)
    (make : Nat → ExternalRequest) :
    (layers.request layer make).2.handles.Perm layers.handles := by
  unfold request
  split
  · refine handles_set_same ?_
    dsimp only [texture?, stateOf]
    cases layers.states.get? layer <;> rfl
  · exact .refl _

/-- **Taking what has come back is accountable**, whether a result can be shown or not. -/
theorem tracksDrain_accountable : TracksDrain Accountable fun _ => Accountable where
  toTraces := Keeps.traces
  waits _ _ _ := id
  same _ _ _ _ same _ stocked := Stock.addTextures_perm _ (handles_set_same same) ▸ stocked
  shown _ _ _ _ _ _ _ _ known same _ stocked :=
    Stock.addTextures_perm _ (handles_set_same (same.trans known.symm)) ▸
      stocked.of_same (Device.sameStock_uploadTexture _ _ _ _ _)
  made none created _ stocked := stocked.cons_texture created (handles_set_new none rfl)
  refused _ _ _ _ failed _ stocked :=
    stocked.of_same (Device.sameStock_of_createTexture_error _ failed)

theorem retain_stocked (live : List String) (layers : ExternalLayers)
    (h : device.Stocked (stock.addTextures layers.handles)) :
    (retain live device layers).1.Stocked
      (stock.addTextures (retain live device layers).2.handles) := by
  have parts := List.filter_append_perm (fun entry => live.contains entry.1) layers.states.entries
  refine h.keep_textures (List.perm_append_comm.trans ?_)
  unfold retain handles
  dsimp only [Table.keep, Table.values]
  rw [← List.filterMap_append, ← List.map_append]
  exact (parts.map _).filterMap _

theorem clear_stocked (layers : ExternalLayers)
    (h : device.Stocked (stock.addTextures layers.handles)) :
    (clear device layers).1.Stocked stock :=
  h.deleteTextures layers.handles

end ExternalLayers
end Collage
