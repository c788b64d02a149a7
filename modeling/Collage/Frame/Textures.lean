import Collage.Device.Basic
import Collage.Folder

/-!
# Textures of uniforms

A sampler or a gradient is shown by a texture, and `TextureCache` keeps one
texture for each different sampler or gradient.  The texture of a sampler starts
as one transparent pixel and is then filled by a loader, which is asked again
until it says that the texture is final; gradients are filled at once.
-/

namespace Collage

/-- What fills the textures of samplers, perhaps in several steps. -/
class TextureLoader (ℓ : Type) where
  /-- begins to load a texture -/
  load : TextureDescriptor → Handle → ℓ → ℓ
  /-- gives what to show when there is something new, and whether the texture is
  final -/
  update : Handle → ℓ → (Option Picture × Bool) × ℓ

/-- Leaves every texture as it starts. -/
structure NoLoader where
  deriving Repr, DecidableEq, Inhabited

instance : TextureLoader NoLoader where
  load _ _ loader := loader
  update _ loader := ((none, true), loader)

/-! ### Loading from files -/

/-- Loads textures from a folder, and knows the paths of textures that are not loaded
yet. -/
structure FileLoader where
  folder : Folder := {}
  pending : Table Handle String := {}
  deriving Repr, Inhabited

namespace FileLoader

/-- The path that a texture's address means. -/
def pathOf (url : String) : String :=
  match withoutStart? "file://".toList url.toList with
  | some path => String.ofList path
  | none => url

/-- A texture is loaded the first time it is asked for; where no picture is found it
stays as it is. -/
instance : TextureLoader FileLoader where
  load descriptor texture loader :=
    { loader with pending := loader.pending.set texture (pathOf descriptor.url) }
  update texture loader :=
    match loader.pending.get? texture with
    | none => ((none, true), loader)
    | some path =>
      ((loader.folder.picture? path, true),
        { loader with pending := loader.pending.erase texture })

end FileLoader

/-! ### The cache -/

/-- What a texture of the cache shows. -/
inductive TextureKey
  | sampler (descriptor : TextureDescriptor)
  | gradient (bits : List UInt32)
  deriving Repr, DecidableEq, Inhabited

/-- What a value shows, when it shows a texture. -/
def TextureKey.ofValue? : Value → Option TextureKey
  | .sampler descriptor => some (.sampler descriptor)
  | .gradient ramp => some (.gradient ramp.key)
  | _ => none

/-- A texture and whether it is final. -/
structure CachedTexture where
  texture : Handle
  ready : Bool
  deriving Repr, DecidableEq, Inhabited

/-- Textures by what they show. -/
abbrev TextureCache := Table TextureKey CachedTexture

namespace TextureCache

/-- The state that a cache works on: a device, a loader and the cache. -/
structure State (ℓ : Type) where
  device : Device
  loader : ℓ
  cache : TextureCache

/-- How many textures are not final. -/
def pending (cache : TextureCache) : Nat :=
  (cache.values.filter (!·.ready)).length

/-- The width of the texture of a gradient. -/
def gradientWidth : Nat := 256

/-- Creates a texture; the failure is that of the device. -/
def newTexture (filter : TextureFilter) (wrap : TextureWrap) : Action Device Handle := fun device =>
  match device.createTexture filter wrap with
  | (.ok handle, device) => (.ok handle, device)
  | (.error failure, device) => (.error (.device failure), device)

section

variable {ℓ : Type} [TextureLoader ℓ]

/-- An action on the device alone. -/
def onDevice {α : Type} (action : Action Device α) : Action (State ℓ) α :=
  Action.within State.device (fun state device => { state with device := device }) action

/-- The texture of a sampler. -/
def sampler (descriptor : TextureDescriptor) : Action (State ℓ) Handle := do
  match (← get).cache.get? (.sampler descriptor) with
  | some entry => return entry.texture
  | none =>
    let texture ← onDevice (newTexture descriptor.filter descriptor.wrap)
    modify fun state => { state with
      device := state.device.uploadTexture texture 1 1 [0, 0, 0, 0]
      loader := TextureLoader.load descriptor texture state.loader
      cache := state.cache.set (.sampler descriptor) ⟨texture, false⟩ }
    return texture

/-- The bytes of the texture of a gradient. -/
def gradientBytes (gradient : Gradient Float32) : List UInt8 :=
  (gradient.rasterize gradientWidth).flatMap fun color => color.toList.map Nat.toUInt8

/-- The texture of a gradient. -/
def gradient (gradient : Gradient Float32) : Action (State ℓ) Handle := do
  match (← get).cache.get? (.gradient gradient.key) with
  | some entry => return entry.texture
  | none =>
    let texture ← onDevice (newTexture .linear .clamp)
    modify fun state => { state with
      device := state.device.uploadTexture texture gradientWidth 1 (gradientBytes gradient)
      cache := state.cache.set (.gradient gradient.key) ⟨texture, true⟩ }
    return texture

/-- Asks the loader for one texture. -/
def pollEntry (state : State ℓ) (key : TextureKey) (entry : CachedTexture) : State ℓ :=
  if entry.ready then state
  else
    let ((picture, final), loader) := TextureLoader.update entry.texture state.loader
    let device :=
      match picture with
      | some p => state.device.uploadTexture entry.texture p.width p.height p.bytesFromBottom
      | none => state.device
    { device := device, loader := loader,
      cache := state.cache.modify key fun e => { e with ready := final } }

/-- Asks the loader for every texture that is not final. -/
def poll (state : State ℓ) : State ℓ :=
  state.cache.entries.foldl (fun state (key, entry) => pollEntry state key entry) state

end

/-- Deletes the textures of entries. -/
def deleteEntries (entries : List (TextureKey × CachedTexture)) (device : Device) : Device :=
  entries.foldl (fun device entry => device.deleteTexture entry.2.texture) device

/-- Deletes every texture that shows something else than `live`. -/
def retain (live : List TextureKey) (device : Device) (cache : TextureCache) :
    Device × TextureCache :=
  (deleteEntries (cache.entries.filter fun entry => !live.contains entry.1) device,
    cache.keep live.contains)

/-- Deletes every texture. -/
def clear (device : Device) (cache : TextureCache) : Device × TextureCache :=
  (deleteEntries cache.entries device, {})

end TextureCache
end Collage
