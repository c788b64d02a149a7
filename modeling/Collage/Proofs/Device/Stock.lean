import Collage.Proofs.Device.Programs

/-!
# The stock of a device

`Device.Stocked` says what there is on a device: the shaders and programs of the ledger, and
besides them textures, and framebuffers each with its texture, in whatever order.  Every call
that creates or deletes an image has a lemma that says what it adds to the stock or takes from
it; every other call about images leaves the stock as it is (`SameStock`), and a call about
programs changes the ledger only (`Stocked.of_ledger`).

As in the ledger, a call that deletes has a lemma only for what is there.
-/

namespace Collage

/-- Shaders, programs and textures, and framebuffers with their textures. -/
structure Stock where
  traits : DeviceTraits
  shaders : Multiset (Handle × ShaderObject)
  programs : Multiset (Handle × String)
  textures : Multiset Handle
  framebuffers : Multiset (Handle × Handle)

namespace Device

/-- The framebuffers of a device with their textures. -/
def canvases (device : Device) : List (Handle × Handle) :=
  device.framebuffers.entries.map fun entry => (entry.1, entry.2.texture)

/-- What there is on a device, each thing once, and handles to come are none of it. -/
structure Stocked (stock : Stock) (device : Device) : Prop where
  holds : Holds stock.traits stock.shaders stock.programs device
  textures : (device.textures.keys : Multiset Handle) = stock.textures
  framebuffers : (device.canvases : Multiset (Handle × Handle)) = stock.framebuffers
  once : stock.textures.Nodup
  apart : (stock.framebuffers.map Prod.fst).Nodup
  below : ∀ texture ∈ stock.textures, texture < device.nextHandle
  under : ∀ framebuffer ∈ stock.framebuffers.map Prod.fst, framebuffer < device.nextHandle

/-- What there is on a device by its own account. -/
def stock (device : Device) : Stock where
  traits := device.traits
  shaders := device.shaders.entries
  programs := device.linkedFrom.entries
  textures := device.textures.keys
  framebuffers := device.canvases

/-- A device whose tables agree, and whose handles were given once each. -/
def Neat (device : Device) : Prop :=
  Stocked device.stock device

/-- Between two states of a device nothing was created that can be there, or deleted. -/
structure SameStock (before after : Device) : Prop where
  traits : after.traits = before.traits
  shaders : after.shaders = before.shaders
  linked : after.linkedFrom = before.linkedFrom
  programs : after.programs = before.programs
  deletions : after.deletions = before.deletions
  textures : after.textures.keys = before.textures.keys
  canvases : after.canvases = before.canvases
  handles : before.nextHandle ≤ after.nextHandle

theorem SameStock.refl (device : Device) : SameStock device device :=
  ⟨rfl, rfl, rfl, rfl, rfl, rfl, rfl, Nat.le_refl _⟩

/-! ### Calls that change nothing -/

section

variable (device : Device)

theorem sameStock_useProgram (handle : Handle) : SameStock device (device.useProgram handle) :=
  ⟨rfl, rfl, rfl, rfl, rfl, rfl, rfl, Nat.le_refl _⟩

theorem sameStock_setUniform (location : Nat) (value : UniformData) :
    SameStock device (device.setUniform location value) := by
  unfold setUniform
  dsimp only
  split
  · exact ⟨rfl, rfl, rfl, rfl, rfl, rfl, rfl, Nat.le_refl _⟩
  · split <;> exact ⟨rfl, rfl, rfl, rfl, rfl, rfl, rfl, Nat.le_refl _⟩

theorem sameStock_uploadTexture (texture : Handle) (width height : Nat) (bytes : List UInt8) :
    SameStock device (device.uploadTexture texture width height bytes) :=
  ⟨rfl, rfl, rfl, rfl, rfl, rfl, rfl, Nat.le_refl _⟩

theorem sameStock_bindFramebuffer (handle : Option Handle) (width height : Nat) :
    SameStock device (device.bindFramebuffer handle width height) :=
  ⟨rfl, rfl, rfl, rfl, rfl, rfl, rfl, Nat.le_refl _⟩

theorem sameStock_bindTexture (unit : Nat) (texture : Option Handle) :
    SameStock device (device.bindTexture unit texture) :=
  ⟨rfl, rfl, rfl, rfl, rfl, rfl, rfl, Nat.le_refl _⟩

theorem sameStock_draw : SameStock device device.draw :=
  ⟨rfl, rfl, rfl, rfl, rfl, rfl, rfl, Nat.le_refl _⟩

theorem sameStock_readPixels (width height : Nat) :
    SameStock device (device.readPixels width height).2 :=
  ⟨rfl, rfl, rfl, rfl, rfl, rfl, rfl, Nat.le_refl _⟩

theorem sameStock_clear (color : Color Float32) : SameStock device (device.clear color) := by
  unfold clear
  cases drawn : device.bound.bind fun handle =>
      (device.framebuffers.get? handle).map fun t => (handle, t) with
  | none =>
    dsimp only
    rw [drawn]
    exact ⟨rfl, rfl, rfl, rfl, rfl, rfl, rfl, Nat.le_refl _⟩
  | some pair =>
    obtain ⟨handle, target⟩ := pair
    dsimp only
    rw [drawn]
    obtain ⟨bound, -, found⟩ := Option.bind_eq_some_iff.mp drawn
    obtain ⟨_, there, same⟩ := Option.map_eq_some_iff.mp found
    cases same
    exact ⟨rfl, rfl, rfl, rfl, rfl, rfl, Table.map_entries_set there rfl, Nat.le_refl _⟩

theorem sameStock_of_createTexture_error {later : Device} {filter : TextureFilter}
    {wrap : TextureWrap} {cause : DeviceFailure}
    (failed : device.createTexture filter wrap = (.error cause, later)) : SameStock device later := by
  obtain rfl := createTexture_error failed
  exact ⟨rfl, rfl, rfl, rfl, rfl, rfl, rfl, Nat.le_refl _⟩

theorem sameStock_of_createFramebuffer_error {later : Device} {width height : Nat}
    {cause : DeviceFailure}
    (failed : device.createFramebuffer width height = (.error cause, later)) :
    SameStock device later := by
  rcases createFramebuffer_error failed with rfl | rfl <;>
    exact ⟨rfl, rfl, rfl, rfl, rfl, rfl, rfl, Nat.le_refl _⟩

end

namespace Stocked

variable {stock : Stock} {device later : Device}

theorem of_same (h : Stocked stock device) (same : SameStock device later) :
    Stocked stock later :=
  ⟨h.holds.of_same same.traits same.shaders same.linked same.programs same.deletions same.handles,
    same.textures ▸ h.textures, same.canvases ▸ h.framebuffers, h.once, h.apart,
    fun texture inside => Nat.lt_of_lt_of_le (h.below texture inside) same.handles,
    fun framebuffer inside => Nat.lt_of_lt_of_le (h.under framebuffer inside) same.handles⟩

theorem of_ledger (h : Stocked stock device) (same : Backstage device later)
    {shaders : Multiset (Handle × ShaderObject)} {programs : Multiset (Handle × String)}
    (holds : Holds stock.traits shaders programs later) :
    Stocked { stock with shaders, programs } later := by
  refine ⟨holds, same.textures ▸ h.textures, ?_, h.once, h.apart,
    fun texture inside => Nat.lt_of_lt_of_le (h.below texture inside) same.handles,
    fun framebuffer inside => Nat.lt_of_lt_of_le (h.under framebuffer inside) same.handles⟩
  rw [canvases, same.framebuffers]
  exact h.framebuffers

/-! ### The tables -/

theorem once_textures (h : Stocked stock device) : device.textures.keys.Nodup := by
  rw [← Multiset.coe_nodup, h.textures]
  exact h.once

theorem keys_framebuffers (h : Stocked stock device) :
    (device.framebuffers.keys : Multiset Handle) = stock.framebuffers.map Prod.fst := by
  rw [← h.framebuffers, canvases, Multiset.map_coe, List.map_map]
  rfl

theorem once_framebuffers (h : Stocked stock device) : device.framebuffers.keys.Nodup := by
  rw [← Multiset.coe_nodup, h.keys_framebuffers]
  exact h.apart

theorem fresh (h : Stocked stock device) : device.Fresh := by
  refine ⟨h.once_framebuffers, fun handle inside => h.under handle ?_⟩
  rwa [← h.keys_framebuffers, Multiset.mem_coe]

theorem next_texture (h : Stocked stock device) : device.nextHandle ∉ stock.textures :=
  fun inside => Nat.lt_irrefl _ (h.below _ inside)

theorem add_texture (h : Stocked stock device) :
    ((device.textures.set device.nextHandle ()).keys : Multiset Handle) =
      device.nextHandle ::ₘ stock.textures := by
  have absent : device.nextHandle ∉ device.textures.keys := by
    rw [← Multiset.mem_coe, h.textures]
    exact h.next_texture
  rw [Table.keys_set_of_notMem absent, ← Multiset.coe_add, h.textures, Multiset.coe_singleton,
    Multiset.add_comm, Multiset.singleton_add]

theorem erase_texture (h : Stocked stock device) {texture : Handle} {others : Multiset Handle}
    (same : stock.textures = texture ::ₘ others) :
    ((device.textures.erase texture).keys : Multiset Handle) = others := by
  have keys := h.textures.trans same
  have inside : texture ∈ device.textures.keys := by
    rw [← Multiset.mem_coe, keys]
    exact Multiset.mem_cons_self _ _
  obtain ⟨entry, there, rfl⟩ := List.mem_map.mp inside
  have gone := Multiset.coe_eq_coe.mpr
    ((Table.perm_entries_erase h.once_textures there).map Prod.fst)
  rw [List.map_cons, ← Multiset.cons_coe] at gone
  exact (Multiset.cons_inj_right _).mp (gone.symm.trans keys)

theorem exists_framebuffer (h : Stocked stock device) {framebuffer texture : Handle}
    (inside : (framebuffer, texture) ∈ stock.framebuffers) :
    ∃ object : FramebufferObject, (framebuffer, object) ∈ device.framebuffers.entries ∧
      device.framebuffers.get? framebuffer = some object ∧ object.texture = texture := by
  rw [← h.framebuffers, Multiset.mem_coe] at inside
  obtain ⟨⟨_, object⟩, there, same⟩ := List.mem_map.mp inside
  cases same
  exact ⟨object, there, Table.get?_of_mem_entries h.once_framebuffers there, rfl⟩

/-! ### Calls that create and delete -/

theorem createTexture (h : Stocked stock device) {filter : TextureFilter} {wrap : TextureWrap}
    {texture : Handle} (created : device.createTexture filter wrap = (.ok texture, later)) :
    Stocked { stock with textures := texture ::ₘ stock.textures } later := by
  obtain ⟨rfl, rfl⟩ := createTexture_ok created
  refine ⟨h.holds.of_same rfl rfl rfl rfl rfl (Nat.le_succ _), h.add_texture, h.framebuffers,
    Multiset.nodup_cons.mpr ⟨h.next_texture, h.once⟩, h.apart, ?_,
    fun framebuffer inside => Nat.lt_succ_of_lt (h.under framebuffer inside)⟩
  intro texture inside
  rcases Multiset.mem_cons.mp inside with rfl | inside
  · exact Nat.lt_succ_self _
  · exact Nat.lt_succ_of_lt (h.below texture inside)

theorem deleteTexture {texture : Handle}
    (h : Stocked { stock with textures := texture ::ₘ stock.textures } device) :
    Stocked stock (device.deleteTexture texture) :=
  ⟨h.holds.of_same rfl rfl rfl rfl rfl (Nat.le_refl _), h.erase_texture rfl, h.framebuffers,
    (Multiset.nodup_cons.mp h.once).2, h.apart,
    fun other inside => h.below other (Multiset.mem_cons_of_mem inside), h.under⟩

theorem deleteTextures : ∀ (textures : List Handle) {device : Device},
    Stocked { stock with textures := (textures : Multiset Handle) + stock.textures } device →
    Stocked stock (textures.foldl (fun device texture => device.deleteTexture texture) device)
  | [], _, h => by simpa using h
  | texture :: rest, _, h => by
    rw [← Multiset.cons_coe, Multiset.cons_add] at h
    refine deleteTextures rest ?_
    exact deleteTexture h

/-- A framebuffer that is created is there, and so is its texture. -/
theorem createFramebuffer (h : Stocked stock device) {width height : Nat}
    {framebuffer texture : Handle}
    (created : device.createFramebuffer width height = (.ok (framebuffer, texture), later)) :
    Stocked { stock with
      textures := texture ::ₘ stock.textures
      framebuffers := (framebuffer, texture) ::ₘ stock.framebuffers } later := by
  obtain ⟨rfl, rfl, rfl⟩ := createFramebuffer_ok created
  have new : device.nextHandle + 1 ∉ stock.framebuffers.map Prod.fst := fun inside =>
    Nat.not_succ_lt_self (h.under _ inside)
  have absent : device.nextHandle + 1 ∉ device.framebuffers.keys := by
    rwa [← Multiset.mem_coe, h.keys_framebuffers]
  have entries := Table.perm_entries_set h.once_framebuffers (device.nextHandle + 1)
    (⟨device.nextHandle, Color.constant 0⟩ : FramebufferObject)
  rw [Table.erase_of_notMem absent] at entries
  refine ⟨h.holds.of_same rfl rfl rfl rfl rfl (Nat.le_add_right _ 2), h.add_texture, ?_,
    Multiset.nodup_cons.mpr ⟨h.next_texture, h.once⟩, ?_, ?_, ?_⟩
  · refine (Multiset.coe_eq_coe.mpr (entries.map fun entry => (entry.1, entry.2.texture))).trans ?_
    rw [List.map_cons, ← Multiset.cons_coe]
    exact congrArg _ h.framebuffers
  · rw [Multiset.map_cons]
    exact Multiset.nodup_cons.mpr ⟨new, h.apart⟩
  · intro texture inside
    rcases Multiset.mem_cons.mp inside with rfl | inside
    · exact Nat.lt_add_of_pos_right (by decide)
    · exact Nat.lt_add_right 2 (h.below texture inside)
  · rw [Multiset.map_cons]
    intro framebuffer inside
    rcases Multiset.mem_cons.mp inside with rfl | inside
    · exact Nat.lt_succ_self _
    · exact Nat.lt_add_right 2 (h.under framebuffer inside)

/-- A framebuffer that is deleted takes its texture with it. -/
theorem deleteFramebuffer {framebuffer texture : Handle}
    (h : Stocked { stock with
      textures := texture ::ₘ stock.textures
      framebuffers := (framebuffer, texture) ::ₘ stock.framebuffers } device) :
    Stocked stock (device.deleteFramebuffer framebuffer) := by
  obtain ⟨object, inside, found, rfl⟩ := h.exists_framebuffer (Multiset.mem_cons_self _ _)
  have entries := (Table.perm_entries_erase h.once_framebuffers inside).map
    fun entry => (entry.1, entry.2.texture)
  have gone := Multiset.coe_eq_coe.mpr entries
  rw [List.map_cons, ← Multiset.cons_coe] at gone
  have left := (Multiset.cons_inj_right _).mp (gone.symm.trans h.framebuffers)
  unfold Device.deleteFramebuffer
  rw [found]
  refine ⟨h.holds.of_same rfl rfl rfl rfl rfl (Nat.le_refl _), h.erase_texture rfl, left,
    (Multiset.nodup_cons.mp h.once).2, ?_,
    fun other inside => h.below other (Multiset.mem_cons_of_mem inside), ?_⟩
  · have apart := h.apart
    rw [Multiset.map_cons] at apart
    exact (Multiset.nodup_cons.mp apart).2
  · intro other inside
    refine h.under other ?_
    rw [Multiset.map_cons]
    exact Multiset.mem_cons_of_mem inside

theorem resizeFramebuffer (h : Stocked stock device) {framebuffer texture : Handle}
    (inside : (framebuffer, texture) ∈ stock.framebuffers) (there : texture ∈ stock.textures)
    (width height : Nat) : Stocked stock (device.resizeFramebuffer framebuffer width height) := by
  obtain ⟨object, -, found, rfl⟩ := h.exists_framebuffer inside
  rw [← h.textures, Multiset.mem_coe] at there
  unfold Device.resizeFramebuffer
  rw [found]
  exact h.of_same ⟨rfl, rfl, rfl, rfl, rfl, Table.keys_set_of_mem there (), rfl, Nat.le_refl _⟩

end Stocked
end Device
end Collage
