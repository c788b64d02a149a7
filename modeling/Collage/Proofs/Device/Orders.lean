import Collage.Device.Basic
import Mathlib.Data.List.Basic

/-!
# What a device is told to draw

Of the calls of a device, those that name programs, give them values, fill and draw are its
`orders`: they say what is drawn with which values, and no handle of a texture or a framebuffer
stands in them.  `Tells news before after` says which orders came between two states of a
device, and that it behaves and knows locations as before.

Two devices are `Abreast` when they have been told the same since certain moments, and
stay so when they are told the same (`Abreast.tell`), whatever handles they gave meanwhile.
-/

namespace Collage

/-- Whether a call says what is drawn. -/
def DeviceEvent.isOrder : DeviceEvent → Bool
  | useProgram _ | setUniform _ _ _ | clear _ | draw => true
  | _ => false

/-- Whether a device never runs out of memory. -/
structure DeviceTraits.Ample (traits : DeviceTraits) : Prop where
  textures : ∀ asked, traits.texturesExhausted asked = false
  framebuffers : ∀ asked, traits.framebuffersExhausted asked = false

namespace Device

/-- The calls that say what is drawn, the newest first. -/
def orders (device : Device) : List DeviceEvent :=
  device.events.filter DeviceEvent.isOrder

/-- The orders that came between two states of a device. -/
structure Tells (news : List DeviceEvent) (before after : Device) : Prop where
  traits : after.traits = before.traits
  locations : after.locations = before.locations
  orders : after.orders = news ++ before.orders

namespace Tells

theorem refl (device : Device) : Tells [] device device :=
  ⟨rfl, rfl, rfl⟩

theorem trans {a b c : Device} {news more : List DeviceEvent} (h : Tells news a b)
    (h' : Tells more b c) : Tells (more ++ news) a c :=
  ⟨h'.traits.trans h.traits, h'.locations.trans h.locations, by
    rw [h'.orders, h.orders, List.append_assoc]⟩

theorem silent_trans {a b c : Device} {more : List DeviceEvent} (h : Tells [] a b)
    (h' : Tells more b c) : Tells more a c := by
  have both := h.trans h'
  rwa [List.append_nil] at both

theorem foldl {α : Type} {step : Device → α → Device}
    (h : ∀ device a, Tells [] device (step device a)) :
    ∀ (steps : List α) (device : Device), Tells [] device (steps.foldl step device)
  | [], device => .refl device
  | a :: rest, device => (h device a).silent_trans (foldl h rest _)

end Tells

/-- A later state of a device that was told nothing meanwhile that is drawn. -/
abbrev Silent (before after : Device) : Prop :=
  Tells [] before after

/-- A later state of a device, whatever it was told meanwhile. -/
def Follows (before after : Device) : Prop :=
  ∃ news, Tells news before after

theorem Tells.follows {before after : Device} {news : List DeviceEvent}
    (h : Tells news before after) : Follows before after :=
  ⟨news, h⟩

theorem Follows.refl (device : Device) : Follows device device :=
  ⟨[], .refl device⟩

theorem Follows.trans {a b c : Device} (h : Follows a b) (h' : Follows b c) : Follows a c := by
  obtain ⟨news, told⟩ := h
  obtain ⟨more, told'⟩ := h'
  exact ⟨more ++ news, told.trans told'⟩

section

variable (device : Device)

theorem tells_useProgram (handle : Handle) :
    Tells [.useProgram handle] device (device.useProgram handle) :=
  ⟨rfl, rfl, rfl⟩

/-- The name of a location. -/
def nameAt (location : Nat) : String :=
  (device.locations[location]?).elim "" (·.2)

theorem tells_setUniform (location : Nat) (value : UniformData) :
    Tells [.setUniform location (device.nameAt location) value] device
      (device.setUniform location value) := by
  unfold setUniform nameAt
  dsimp only
  cases device.locations[location]? with
  | none => exact ⟨rfl, rfl, rfl⟩
  | some entry =>
    dsimp only
    split <;> exact ⟨rfl, rfl, rfl⟩

theorem tells_clear (color : Color Float32) : Tells [.clear color] device (device.clear color) := by
  unfold clear
  dsimp only
  split <;> exact ⟨rfl, rfl, rfl⟩

theorem tells_draw : Tells [.draw] device device.draw :=
  ⟨rfl, rfl, rfl⟩

theorem tells_bindFramebuffer (handle : Option Handle) (width height : Nat) :
    Tells [] device (device.bindFramebuffer handle width height) :=
  ⟨rfl, rfl, rfl⟩

theorem tells_bindTexture (unit : Nat) (texture : Option Handle) :
    Tells [] device (device.bindTexture unit texture) :=
  ⟨rfl, rfl, rfl⟩

theorem tells_uploadTexture (texture : Handle) (width height : Nat) (bytes : List UInt8) :
    Tells [] device (device.uploadTexture texture width height bytes) :=
  ⟨rfl, rfl, rfl⟩

theorem tells_readPixels (width height : Nat) :
    Tells [] device (device.readPixels width height).2 :=
  ⟨rfl, rfl, rfl⟩

theorem tells_createTexture (filter : TextureFilter) (wrap : TextureWrap) :
    Tells [] device (device.createTexture filter wrap).2 := by
  unfold createTexture
  dsimp only
  split <;> exact ⟨rfl, rfl, rfl⟩

theorem tells_createFramebuffer (width height : Nat) :
    Tells [] device (device.createFramebuffer width height).2 := by
  unfold createFramebuffer
  dsimp only
  split
  · exact ⟨rfl, rfl, rfl⟩
  · split <;> exact ⟨rfl, rfl, rfl⟩

theorem tells_resizeFramebuffer (handle : Handle) (width height : Nat) :
    Tells [] device (device.resizeFramebuffer handle width height) := by
  unfold resizeFramebuffer
  dsimp only
  split <;> exact ⟨rfl, rfl, rfl⟩

theorem tells_deleteFramebuffer (handle : Handle) :
    Tells [] device (device.deleteFramebuffer handle) := by
  unfold deleteFramebuffer
  dsimp only
  split <;> exact ⟨rfl, rfl, rfl⟩

end

/-! ### Two devices -/

/-- Two devices that behave alike and know the same locations. -/
structure Alike (device other : Device) : Prop where
  traits : device.traits = other.traits
  ample : other.traits.Ample
  locations : device.locations = other.locations

/-- Two such devices that were told the same, one since `said` and the other since `said'`. -/
structure Abreast (said said' : List DeviceEvent) (device other : Device) : Prop
    extends Alike device other where
  told : ∃ news, device.orders = news ++ said ∧ other.orders = news ++ said'

theorem Alike.tells {device other after later : Device} {news more : List DeviceEvent}
    (h : Alike device other) (left : Tells news device after) (right : Tells more other later) :
    Alike after later :=
  ⟨left.traits.trans (h.traits.trans right.traits.symm), right.traits.symm ▸ h.ample,
    left.locations.trans (h.locations.trans right.locations.symm)⟩

/-- **Devices that are told the same stay abreast.** -/
theorem Abreast.tell {said said' news : List DeviceEvent} {device other after later : Device}
    (h : Abreast said said' device other) (left : Tells news device after)
    (right : Tells news other later) : Abreast said said' after later := by
  obtain ⟨earlier, told, told'⟩ := h.told
  refine ⟨h.toAlike.tells left right, news ++ earlier, ?_, ?_⟩
  · rw [left.orders, told, List.append_assoc]
  · rw [right.orders, told', List.append_assoc]

theorem Abreast.setUniform {said said' : List DeviceEvent} {device other : Device}
    (h : Abreast said said' device other) (location : Nat) (value : UniformData) :
    Abreast said said' (device.setUniform location value) (other.setUniform location value) := by
  refine h.tell (device.tells_setUniform location value) ?_
  unfold nameAt
  rw [h.locations]
  exact other.tells_setUniform location value

theorem createTexture_ample {device : Device} (ample : device.traits.Ample) (filter : TextureFilter)
    (wrap : TextureWrap) : ∃ handle, (device.createTexture filter wrap).1 = .ok handle := by
  unfold createTexture
  dsimp only
  rw [ample.textures, if_neg Bool.false_ne_true]
  exact ⟨_, rfl⟩

/-- Two results are both there, or they are the same failure. -/
def SameOutcome {α β : Type} (result : Except DeviceFailure α) (result' : Except DeviceFailure β) :
    Prop :=
  (∃ value value', result = .ok value ∧ result' = .ok value') ∨
    ∃ failure, result = .error failure ∧ result' = .error failure

theorem SameOutcome.symm {α β : Type} {result : Except DeviceFailure α}
    {result' : Except DeviceFailure β} (h : SameOutcome result result') :
    SameOutcome result' result := by
  obtain ⟨value, value', good, good'⟩ | ⟨failure, bad, bad'⟩ := h
  · exact .inl ⟨value', value, good', good⟩
  · exact .inr ⟨failure, bad', bad⟩

theorem Alike.createFramebuffer {device other : Device} (h : Alike device other)
    (width height : Nat) :
    SameOutcome (device.createFramebuffer width height).1
      (other.createFramebuffer width height).1 := by
  unfold Device.createFramebuffer
  dsimp only
  rw [h.traits, h.ample.framebuffers, h.ample.framebuffers, if_neg Bool.false_ne_true,
    if_neg Bool.false_ne_true]
  split
  · exact .inr ⟨_, rfl, rfl⟩
  · exact .inl ⟨_, _, rfl, rfl⟩

theorem Alike.createTexture {device other : Device} (h : Alike device other)
    (filter filter' : TextureFilter) (wrap wrap' : TextureWrap) :
    SameOutcome (device.createTexture filter wrap).1 (other.createTexture filter' wrap').1 := by
  obtain ⟨texture, created⟩ := createTexture_ample (h.traits.symm ▸ h.ample) filter wrap
  obtain ⟨texture', created'⟩ := createTexture_ample h.ample filter' wrap'
  exact .inl ⟨texture, texture', created, created'⟩

end Device
end Collage
