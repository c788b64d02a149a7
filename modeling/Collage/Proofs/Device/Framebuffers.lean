import Collage.Device.Basic
import Mathlib.Data.List.Nodup
import Mathlib.Order.Defs.Unbundled

/-!
# Framebuffers of a device

Only four calls of a device add framebuffers, take them away or count requests for
them.  `createFramebuffer_ok` and `createFramebuffer_error` say all that creating one can
do, `keys_deleteFramebuffer` what deleting one does; every other call is calm, that is,
it leaves the framebuffers that there are and asks for none (`Calm`).

In a fresh device (`Fresh`) handles to come are no framebuffers yet, so that what is
created is added behind those that there are.

Which texture a framebuffer draws to is read off the calls (`attached`).  As handles are
never given twice, nothing changes it later: `Onward` says so of any two states of a
device, and that its handles only grow.
-/

namespace Collage
namespace Device

/-- Framebuffers have keys of their own, and handles to come are none of them. -/
structure Fresh (device : Device) : Prop where
  once : device.framebuffers.keys.Nodup
  below : ∀ handle ∈ device.framebuffers.keys, handle < device.nextHandle

/-- The texture that was created with a framebuffer, among calls. -/
def attachment (handle : Handle) : List DeviceEvent → Option Handle
  | [] => none
  | .createFramebuffer _ _ (some (framebuffer, texture)) :: earlier =>
    if framebuffer = handle then some texture else attachment handle earlier
  | _ :: earlier => attachment handle earlier

/-- The texture that a framebuffer draws to. -/
def attached (device : Device) (handle : Handle) : Option Handle :=
  attachment handle device.events

/-- Between two states of a device no framebuffer was asked for or deleted. -/
structure Calm (before after : Device) : Prop where
  keys : after.framebuffers.keys = before.framebuffers.keys
  asked : after.framebuffersAsked = before.framebuffersAsked
  handles : before.nextHandle ≤ after.nextHandle
  attached : after.attached = before.attached

namespace Calm

theorem refl (device : Device) : Calm device device :=
  ⟨rfl, rfl, Nat.le_refl _, rfl⟩

theorem trans {a b c : Device} (h : Calm a b) (h' : Calm b c) : Calm a c :=
  ⟨h'.keys.trans h.keys, h'.asked.trans h.asked, Nat.le_trans h.handles h'.handles,
    h'.attached.trans h.attached⟩

theorem fresh {before after : Device} (h : Calm before after) (fresh : Fresh before) :
    Fresh after := by
  refine ⟨h.keys ▸ fresh.once, fun handle inside => ?_⟩
  rw [h.keys] at inside
  exact Nat.lt_of_lt_of_le (fresh.below handle inside) h.handles

theorem foldl {α : Type} {step : Device → α → Device}
    (calm : ∀ device item, Calm device (step device item)) :
    ∀ (items : List α) (device : Device), Calm device (items.foldl step device)
  | [], device => refl device
  | item :: rest, device => (calm device item).trans (foldl calm rest (step device item))

end Calm

/-- Between two states of a device handles were given only, and what the framebuffers draw
to has stayed the same. -/
structure Onward (before after : Device) : Prop where
  handles : before.nextHandle ≤ after.nextHandle
  attached : ∀ handle < before.nextHandle, after.attached handle = before.attached handle

/-- A handle was given between two states of a device. -/
structure Made (before after : Device) (handle : Handle) : Prop where
  new : before.nextHandle ≤ handle
  given : handle < after.nextHandle

/-- Of the later textures each was there or was made in between. -/
def Gains (before after : Device) (old new : List Handle) : Prop :=
  ∀ texture ∈ new, texture ∈ old ∨ Made before after texture

namespace Onward

variable {a b c : Device}

theorem refl (device : Device) : Onward device device :=
  ⟨Nat.le_refl _, fun _ _ => rfl⟩

theorem trans (h : Onward a b) (h' : Onward b c) : Onward a c :=
  ⟨Nat.le_trans h.handles h'.handles, fun handle below =>
    (h'.attached handle (Nat.lt_of_lt_of_le below h.handles)).trans (h.attached handle below)⟩

theorem made_left (h' : Onward b c) {handle : Handle} (made : Made a b handle) :
    Made a c handle :=
  ⟨made.new, Nat.lt_of_lt_of_le made.given h'.handles⟩

theorem made_right (h : Onward a b) {handle : Handle} (made : Made b c handle) :
    Made a c handle :=
  ⟨Nat.le_trans h.handles made.new, made.given⟩

end Onward

namespace Gains

variable {a b c : Device} {old mid new : List Handle}

theorem refl (old : List Handle) : Gains a b old old :=
  fun _ inside => .inl inside

theorem append {more added : List Handle} (h : Gains a b old new) (h' : Gains a b more added) :
    Gains a b (old ++ more) (new ++ added) := by
  intro texture inside
  rcases List.mem_append.mp inside with inside | inside
  · exact (h texture inside).imp_left (List.mem_append_left _)
  · exact (h' texture inside).imp_left (List.mem_append_right _)

theorem cons {handle : Handle} (h : Gains a b old new) :
    Gains a b (handle :: old) (handle :: new) :=
  append (.refl [handle]) h

theorem trans (first : Onward a b) (second : Onward b c) (h : Gains a b old mid)
    (h' : Gains b c mid new) : Gains a c old new := by
  intro texture inside
  rcases h' texture inside with inside | made
  · exact (h texture inside).imp_right second.made_left
  · exact .inr (first.made_right made)

end Gains

theorem Calm.onward {before after : Device} (h : Calm before after) : Onward before after :=
  ⟨h.handles, fun handle _ => congrFun h.attached handle⟩

/-! ### Calm calls -/

section

variable (device : Device)

theorem calm_useProgram (handle : Handle) : Calm device (device.useProgram handle) :=
  ⟨rfl, rfl, Nat.le_refl _, rfl⟩

theorem calm_setUniform (location : Nat) (value : UniformData) :
    Calm device (device.setUniform location value) := by
  unfold setUniform
  dsimp only
  split
  · exact ⟨rfl, rfl, Nat.le_refl _, rfl⟩
  · split <;> exact ⟨rfl, rfl, Nat.le_refl _, rfl⟩

theorem calm_uploadTexture (texture : Handle) (width height : Nat) (bytes : List UInt8) :
    Calm device (device.uploadTexture texture width height bytes) :=
  ⟨rfl, rfl, Nat.le_refl _, rfl⟩

theorem calm_deleteTexture (handle : Handle) : Calm device (device.deleteTexture handle) :=
  ⟨rfl, rfl, Nat.le_refl _, rfl⟩

theorem calm_bindFramebuffer (handle : Option Handle) (width height : Nat) :
    Calm device (device.bindFramebuffer handle width height) :=
  ⟨rfl, rfl, Nat.le_refl _, rfl⟩

theorem calm_bindTexture (unit : Nat) (texture : Option Handle) :
    Calm device (device.bindTexture unit texture) :=
  ⟨rfl, rfl, Nat.le_refl _, rfl⟩

theorem calm_clear (color : Color Float32) : Calm device (device.clear color) := by
  unfold clear
  cases drawn : device.bound.bind fun handle =>
      (device.framebuffers.get? handle).map fun t => (handle, t) with
  | none =>
    dsimp only
    rw [drawn]
    exact ⟨rfl, rfl, Nat.le_refl _, rfl⟩
  | some pair =>
    obtain ⟨handle, target⟩ := pair
    dsimp only
    rw [drawn]
    refine ⟨Table.keys_set_of_mem ?_ _, rfl, Nat.le_refl _, rfl⟩
    by_contra absent
    obtain ⟨bound, _, found⟩ := Option.bind_eq_some_iff.mp drawn
    obtain ⟨_, there, same⟩ := Option.map_eq_some_iff.mp found
    cases same
    rw [Table.get?_eq_none_iff.mpr absent] at there
    cases there

theorem calm_draw : Calm device device.draw :=
  ⟨rfl, rfl, Nat.le_refl _, rfl⟩

theorem calm_readPixels (width height : Nat) : Calm device (device.readPixels width height).2 :=
  ⟨rfl, rfl, Nat.le_refl _, rfl⟩

theorem calm_resizeFramebuffer (handle : Handle) (width height : Nat) :
    Calm device (device.resizeFramebuffer handle width height) := by
  unfold resizeFramebuffer
  cases device.framebuffers.get? handle <;> exact ⟨rfl, rfl, Nat.le_refl _, rfl⟩

end

/-! ### Creating and deleting -/

/-- A texture gets the next handle. -/
theorem createTexture_ok {device later : Device} {filter : TextureFilter} {wrap : TextureWrap}
    {texture : Handle} (h : device.createTexture filter wrap = (.ok texture, later)) :
    texture = device.nextHandle ∧ later = { device with
      texturesAsked := device.texturesAsked + 1
      nextHandle := device.nextHandle + 1
      textures := device.textures.set texture ()
      events := .createTexture texture filter wrap :: device.events } := by
  unfold createTexture at h
  dsimp only at h
  split at h
  · cases h
  · cases h
    exact ⟨rfl, rfl⟩

theorem createTexture_error {device later : Device} {filter : TextureFilter} {wrap : TextureWrap}
    {cause : DeviceFailure} (h : device.createTexture filter wrap = (.error cause, later)) :
    later = { device with texturesAsked := device.texturesAsked + 1 } := by
  unfold createTexture at h
  dsimp only at h
  split at h
  · cases h
    rfl
  · cases h

/-- A framebuffer and its texture get the next two handles. -/
theorem createFramebuffer_ok {device later : Device} {width height : Nat}
    {framebuffer texture : Handle}
    (h : device.createFramebuffer width height = (.ok (framebuffer, texture), later)) :
    texture = device.nextHandle ∧ framebuffer = device.nextHandle + 1 ∧
      later = { device with
        framebuffersAsked := device.framebuffersAsked + 1
        nextHandle := device.nextHandle + 2
        textures := device.textures.set texture ()
        framebuffers := device.framebuffers.set framebuffer ⟨texture, Color.constant 0⟩
        stats.framebuffersCreated := device.stats.framebuffersCreated + 1
        events := .createFramebuffer width height (some (framebuffer, texture)) ::
          device.events } := by
  unfold createFramebuffer at h
  dsimp only at h
  split at h
  · cases h
  · split at h
    · cases h
    · cases h
      exact ⟨rfl, rfl, rfl⟩

/-- Where none is created, it is counted that one was asked for. -/
theorem createFramebuffer_error {device later : Device} {width height : Nat}
    {cause : DeviceFailure}
    (h : device.createFramebuffer width height = (.error cause, later)) :
    later = { device with framebuffersAsked := device.framebuffersAsked + 1 } ∨
    later = { device with
      framebuffersAsked := device.framebuffersAsked + 1
      events := .createFramebuffer width height none :: device.events } := by
  unfold createFramebuffer at h
  dsimp only at h
  split at h
  · cases h
    exact .inl rfl
  · split at h
    · cases h
      exact .inr rfl
    · cases h

theorem calm_createTexture (device : Device) (filter : TextureFilter) (wrap : TextureWrap) :
    Calm device (device.createTexture filter wrap).2 := by
  cases created : device.createTexture filter wrap with
  | mk outcome later =>
    cases outcome with
    | error cause =>
      obtain rfl := createTexture_error created
      exact ⟨rfl, rfl, Nat.le_refl _, rfl⟩
    | ok texture =>
      obtain ⟨rfl, rfl⟩ := createTexture_ok created
      exact ⟨rfl, rfl, Nat.le_succ _, rfl⟩

theorem made_createTexture {device later : Device} {filter : TextureFilter} {wrap : TextureWrap}
    {texture : Handle} (h : device.createTexture filter wrap = (.ok texture, later)) :
    Calm device later ∧ Made device later texture := by
  have calm := device.calm_createTexture filter wrap
  rw [h] at calm
  obtain ⟨rfl, rfl⟩ := createTexture_ok h
  exact ⟨calm, Nat.le_refl _, Nat.lt_succ_self _⟩

/-- In a fresh device a framebuffer is added behind those that there are. -/
theorem createFramebuffer_fresh {device later : Device} {width height : Nat}
    {framebuffer texture : Handle} (fresh : device.Fresh)
    (h : device.createFramebuffer width height = (.ok (framebuffer, texture), later)) :
    later.Fresh ∧ later.framebuffers.keys = device.framebuffers.keys ++ [framebuffer] := by
  obtain ⟨rfl, rfl, rfl⟩ := createFramebuffer_ok h
  have new : device.nextHandle + 1 ∉ device.framebuffers.keys := fun inside =>
    Nat.not_succ_lt_self (fresh.below _ inside)
  have keys := Table.keys_set_of_notMem new
    (⟨device.nextHandle, Color.constant 0⟩ : FramebufferObject)
  refine ⟨⟨?_, fun handle inside => ?_⟩, keys⟩
  · rw [keys, ← List.concat_eq_append]
    exact fresh.once.concat new
  · rw [keys, List.mem_append, List.mem_singleton] at inside
    rcases inside with inside | rfl
    · exact Nat.lt_add_right 2 (fresh.below handle inside)
    · exact Nat.lt_succ_self _

theorem onward_createFramebuffer (device : Device) (width height : Nat) :
    Onward device (device.createFramebuffer width height).2 := by
  cases created : device.createFramebuffer width height with
  | mk outcome later =>
    cases outcome with
    | error cause =>
      rcases createFramebuffer_error created with rfl | rfl <;>
        exact ⟨Nat.le_refl _, fun _ _ => rfl⟩
    | ok handles =>
      obtain ⟨framebuffer, texture⟩ := handles
      obtain ⟨rfl, rfl, rfl⟩ := createFramebuffer_ok created
      refine ⟨Nat.le_add_right _ 2, fun handle below => if_neg fun same => ?_⟩
      exact Nat.not_succ_lt_self (same ▸ below)

theorem onward_deleteFramebuffer (device : Device) (handle : Handle) :
    Onward device (device.deleteFramebuffer handle) := by
  unfold deleteFramebuffer
  cases device.framebuffers.get? handle <;> exact ⟨Nat.le_refl _, fun _ _ => rfl⟩

/-- Deleting a framebuffer takes its key away. -/
theorem keys_deleteFramebuffer (device : Device) (handle : Handle) :
    (device.deleteFramebuffer handle).framebuffers.keys =
      device.framebuffers.keys.filter (· ≠ handle) := by
  unfold deleteFramebuffer
  cases found : device.framebuffers.get? handle with
  | none =>
    have absent := Table.get?_eq_none_iff.mp found
    refine (List.filter_eq_self.mpr fun key inside => ?_).symm
    simp only [ne_eq, decide_eq_true_eq]
    rintro rfl
    exact absent inside
  | some target => exact Table.keys_erase _ _

end Device
end Collage
