import Collage.Proofs.Device.Orders

/-!
# What a device is told, in words

The orders of a device name programs by handles and uniforms by locations.  A `Lexicon` says what
these stand for: a program for the source that it was linked from, and a location for a name.  In
words (`Lexicon.word?`) orders can be compared of devices on which the same programs have other
handles.

Two devices are in `Tandem` when they have been told the same in words since certain moments, and
were asked for as many textures and framebuffers: so what is created on one is created on the
other too.
-/

namespace Collage

/-- An order in words: a program is the source that it was linked from. -/
inductive Word
  | program (source : String)
  | value (name : String) (value : UniformData)
  | clear (color : Color Float32)
  | draw
  deriving Repr, DecidableEq

/-- What the programs and the locations of a device stand for. -/
structure Lexicon where
  linkedFrom : Table Handle String
  locations : List (Handle × String)

namespace Lexicon

variable (lexicon : Lexicon)

/-- The source that a program was linked from. -/
def source (program : Handle) : String :=
  (lexicon.linkedFrom.get? program).getD ""

/-- The name of the uniform at a location. -/
def name (location : Nat) : String :=
  (lexicon.locations[location]?).elim "" (·.2)

/-- An order in words. -/
def word? : DeviceEvent → Option Word
  | .useProgram program => some (.program (lexicon.source program))
  | .setUniform location _ value => some (.value (lexicon.name location) value)
  | .clear color => some (.clear color)
  | .draw => some .draw
  | _ => none

/-- The orders that came between two states of a device, in words and the oldest first. -/
def words (before after : Device) : List Word :=
  ((after.orders.take (after.orders.length - before.orders.length)).filterMap
    lexicon.word?).reverse

end Lexicon

namespace Device

/-- What the programs and the locations of a device stand for. -/
def lexicon (device : Device) : Lexicon :=
  ⟨device.linkedFrom, device.locations⟩

theorem source_lexicon {device : Device} {program : Handle} {source : String}
    (found : device.linkedFrom.get? program = some source) :
    device.lexicon.source program = source := by
  unfold lexicon Lexicon.source
  dsimp only
  rw [found, Option.getD_some]

/-- Between two states of a device orders came that are these words, the newest first; it was asked
for no texture and no framebuffer. -/
structure Recites (lexicon : Lexicon) (words : List Word) (before after : Device) : Prop where
  tells : ∃ news, Tells news before after ∧ news.filterMap lexicon.word? = words
  textures : after.texturesAsked = before.texturesAsked
  framebuffers : after.framebuffersAsked = before.framebuffersAsked

section

variable {lexicon : Lexicon} (device : Device)

theorem recites_useProgram (handle : Handle) :
    Recites lexicon [.program (lexicon.source handle)] device (device.useProgram handle) :=
  ⟨⟨_, device.tells_useProgram handle, rfl⟩, rfl, rfl⟩

theorem recites_setUniform (location : Nat) (value : UniformData) :
    Recites lexicon [.value (lexicon.name location) value] device
      (device.setUniform location value) := by
  have same : (device.setUniform location value).texturesAsked = device.texturesAsked ∧
      (device.setUniform location value).framebuffersAsked = device.framebuffersAsked := by
    unfold setUniform
    dsimp only
    split
    · exact ⟨rfl, rfl⟩
    · split <;> exact ⟨rfl, rfl⟩
  exact ⟨⟨_, device.tells_setUniform location value, rfl⟩, same.1, same.2⟩

theorem recites_clear (color : Color Float32) :
    Recites lexicon [.clear color] device (device.clear color) := by
  have same : (device.clear color).texturesAsked = device.texturesAsked ∧
      (device.clear color).framebuffersAsked = device.framebuffersAsked := by
    unfold clear
    dsimp only
    split <;> exact ⟨rfl, rfl⟩
  exact ⟨⟨_, device.tells_clear color, rfl⟩, same.1, same.2⟩

theorem recites_draw : Recites lexicon [.draw] device device.draw :=
  ⟨⟨_, device.tells_draw, rfl⟩, rfl, rfl⟩

end

/-- Between two states of a device it was told nothing that is drawn, and asked for nothing. -/
structure Hushed (before after : Device) : Prop where
  silent : Silent before after
  textures : after.texturesAsked = before.texturesAsked
  framebuffers : after.framebuffersAsked = before.framebuffersAsked

theorem Hushed.refl (device : Device) : Hushed device device :=
  ⟨.refl device, rfl, rfl⟩

theorem Hushed.trans {a b c : Device} (h : Hushed a b) (h' : Hushed b c) : Hushed a c :=
  ⟨h.silent.silent_trans h'.silent, h'.textures.trans h.textures,
    h'.framebuffers.trans h.framebuffers⟩

theorem Hushed.recites {lexicon : Lexicon} {before after : Device} (h : Hushed before after) :
    Recites lexicon [] before after :=
  ⟨⟨[], h.silent, rfl⟩, h.textures, h.framebuffers⟩

section

variable (device : Device)

theorem hushed_bindFramebuffer (handle : Option Handle) (width height : Nat) :
    Hushed device (device.bindFramebuffer handle width height) :=
  ⟨device.tells_bindFramebuffer handle width height, rfl, rfl⟩

theorem hushed_bindTexture (unit : Nat) (texture : Option Handle) :
    Hushed device (device.bindTexture unit texture) :=
  ⟨device.tells_bindTexture unit texture, rfl, rfl⟩

theorem hushed_uploadTexture (texture : Handle) (width height : Nat) (bytes : List UInt8) :
    Hushed device (device.uploadTexture texture width height bytes) :=
  ⟨device.tells_uploadTexture texture width height bytes, rfl, rfl⟩

end

/-! ### Two devices -/

/-- What two devices are compared by: what their programs and locations are taken to stand for, and
what they had been told before. -/
structure Pairing where
  lexicon : Lexicon
  lexicon' : Lexicon
  said : List DeviceEvent
  said' : List DeviceEvent

/-- Two devices that behave alike, were asked for as much, and were told the same in words. -/
structure Tandem (pairing : Pairing) (device other : Device) : Prop where
  traits : device.traits = other.traits
  textures : device.texturesAsked = other.texturesAsked
  framebuffers : device.framebuffersAsked = other.framebuffersAsked
  told : ∃ news news', device.orders = news ++ pairing.said ∧
    other.orders = news' ++ pairing.said' ∧
    news.filterMap pairing.lexicon.word? = news'.filterMap pairing.lexicon'.word?

namespace Tandem

variable {pairing : Pairing} {device other after later : Device} {words : List Word}

theorem onward (h : Tandem pairing device other) {news news' : List DeviceEvent}
    (left : Tells news device after) (right : Tells news' other later)
    (same : news.filterMap pairing.lexicon.word? = news'.filterMap pairing.lexicon'.word?)
    (textures : after.texturesAsked = later.texturesAsked)
    (framebuffers : after.framebuffersAsked = later.framebuffersAsked) :
    Tandem pairing after later := by
  obtain ⟨earlier, earlier', told, told', before⟩ := h.told
  refine ⟨left.traits.trans (h.traits.trans right.traits.symm), textures, framebuffers,
    news ++ earlier, news' ++ earlier', ?_, ?_, ?_⟩
  · rw [left.orders, told, List.append_assoc]
  · rw [right.orders, told', List.append_assoc]
  · rw [List.filterMap_append, List.filterMap_append, same, before]

/-- **Devices that are told the same words stay in tandem.** -/
theorem recite (h : Tandem pairing device other) (left : Recites pairing.lexicon words device after)
    (right : Recites pairing.lexicon' words other later) : Tandem pairing after later := by
  obtain ⟨news, tells, spoken⟩ := left.tells
  obtain ⟨news', tells', spoken'⟩ := right.tells
  refine h.onward tells tells' (spoken.trans spoken'.symm) ?_ ?_
  · rw [left.textures, right.textures, h.textures]
  · rw [left.framebuffers, right.framebuffers, h.framebuffers]

/-- Both create a framebuffer, or neither does. -/
theorem createFramebuffer (h : Tandem pairing device other) (width height : Nat) :
    Tandem pairing (device.createFramebuffer width height).2
        (other.createFramebuffer width height).2 ∧
      SameOutcome (device.createFramebuffer width height).1
        (other.createFramebuffer width height).1 := by
  have asked : ∀ device : Device,
      (device.createFramebuffer width height).2.texturesAsked = device.texturesAsked ∧
      (device.createFramebuffer width height).2.framebuffersAsked =
        device.framebuffersAsked + 1 := by
    intro device
    unfold Device.createFramebuffer
    dsimp only
    split
    · exact ⟨rfl, rfl⟩
    · split <;> exact ⟨rfl, rfl⟩
  obtain ⟨textures, framebuffers⟩ := asked device
  obtain ⟨textures', framebuffers'⟩ := asked other
  refine ⟨h.onward (device.tells_createFramebuffer width height)
    (other.tells_createFramebuffer width height) rfl ?_ ?_, ?_⟩
  · rw [textures, textures', h.textures]
  · rw [framebuffers, framebuffers', h.framebuffers]
  · unfold Device.createFramebuffer
    dsimp only
    rw [h.traits, h.framebuffers]
    split
    · exact .inr ⟨_, rfl, rfl⟩
    · split
      · exact .inr ⟨_, rfl, rfl⟩
      · exact .inl ⟨_, _, rfl, rfl⟩

/-- Both create a texture, or neither does, whatever textures they are. -/
theorem createTexture (h : Tandem pairing device other) (filter filter' : TextureFilter)
    (wrap wrap' : TextureWrap) :
    Tandem pairing (device.createTexture filter wrap).2 (other.createTexture filter' wrap').2 ∧
      SameOutcome (device.createTexture filter wrap).1
        (other.createTexture filter' wrap').1 := by
  have asked : ∀ (device : Device) filter wrap,
      (device.createTexture filter wrap).2.texturesAsked = device.texturesAsked + 1 ∧
      (device.createTexture filter wrap).2.framebuffersAsked = device.framebuffersAsked := by
    intro device filter wrap
    unfold Device.createTexture
    dsimp only
    split <;> exact ⟨rfl, rfl⟩
  obtain ⟨textures, framebuffers⟩ := asked device filter wrap
  obtain ⟨textures', framebuffers'⟩ := asked other filter' wrap'
  refine ⟨h.onward (device.tells_createTexture filter wrap)
    (other.tells_createTexture filter' wrap') rfl ?_ ?_, ?_⟩
  · rw [textures, textures', h.textures]
  · rw [framebuffers, framebuffers', h.framebuffers]
  · unfold Device.createTexture
    dsimp only
    rw [h.traits, h.textures]
    split
    · exact .inr ⟨_, rfl, rfl⟩
    · exact .inl ⟨_, _, rfl, rfl⟩

theorem setUniform (h : Tandem pairing device other) {location location' : Nat}
    (same : pairing.lexicon.name location = pairing.lexicon'.name location')
    (value : UniformData) :
    Tandem pairing (device.setUniform location value) (other.setUniform location' value) :=
  h.recite (device.recites_setUniform location value)
    (same ▸ other.recites_setUniform location' value)

theorem words_eq {first second : Device} (h : Tandem pairing device other)
    (said : pairing.said = first.orders) (said' : pairing.said' = second.orders) :
    pairing.lexicon.words first device = pairing.lexicon'.words second other := by
  obtain ⟨news, news', told, told', same⟩ := h.told
  have recent : ∀ more earlier : List DeviceEvent,
      (more ++ earlier).take ((more ++ earlier).length - earlier.length) = more := by
    intro more earlier
    rw [List.length_append, Nat.add_sub_cancel, List.take_left]
  unfold Lexicon.words
  rw [told, told', ← said, ← said', recent, recent, same]

end Tandem
end Device
end Collage
