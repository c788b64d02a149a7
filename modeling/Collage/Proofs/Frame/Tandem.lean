import Collage.Proofs.Frame.InStep
import Collage.Proofs.Frame.Spread

/-!
# Frames of two trees

Two renderers are in `Tandem` when they differ in handles only and their devices are in tandem.
If two trees consist of pieces with the same cues, but for groups that are seen through, a frame of
the one does on the one renderer what a frame of the other does on the other: both give the same
stats or fail in the same way, and both devices are told the same in words (`render_tandem`).
-/

namespace Collage

open Collage.Action

/-! ### The course -/

theorem Device.Tandem.companions {pairing : Device.Pairing} :
    Device.Companions (Device.Tandem pairing) where
  framebuffer h := h.createFramebuffer
  texture h := h.createTexture
  hushed h left right := h.recite left.recites right.recites

/-- Caches with textures for the same keys. -/
def TextureCache.SameKeys (cache other : TextureCache) : Prop :=
  ∀ key, (cache.get? key).isSome = (other.get? key).isSome

theorem TextureCache.SameKeys.set {cache other : TextureCache} (h : SameKeys cache other)
    (key : TextureKey) (entry entry' : CachedTexture) :
    SameKeys (cache.set key entry) (other.set key entry') := by
  intro asked
  by_cases own : asked = key
  · rw [own, Table.get?_set_self, Table.get?_set_self]
    rfl
  · rw [Table.get?_set_other _ _ own, Table.get?_set_other _ _ own]
    exact h asked

namespace TextureCache

variable {ℓ : Type} {pairing : Device.Pairing} {key : TextureKey} {width height : Nat}
  {bytes : List UInt8} {state other after later : State ℓ} {texture texture' : Handle}
  {failure failure' : Failure}

/-- Both caches have a texture, or both devices have created it. -/
theorem Found.tandem (related : Device.Tandem pairing state.device other.device)
    (same : SameKeys state.cache other.cache)
    (left : Found key width height bytes state texture after)
    (right : Found key width height bytes other texture' later) :
    Device.Tandem pairing after.device later.device ∧ SameKeys after.cache later.cache := by
  -- the key is in both caches or in neither, so that both look it up or both create a texture
  have known := same key
  cases left with
  | known there =>
    cases right with
    | known there' => exact ⟨related, same⟩
    | made loader' ready' absent' created' => simp [there, absent'] at known
  | @made filter wrap texture device loader ready absent created =>
    cases right with
    | known there' => simp [absent, there'] at known
    | @made filter' wrap' texture' device' loader' ready' absent' created' =>
      have both := (related.createTexture filter filter' wrap wrap').1
      rw [created, created'] at both
      exact ⟨Device.Tandem.companions.upload both _ _ _ _ _, same.set _ _ _⟩

/-- Neither device could create a texture. -/
theorem Failed.tandem (related : Device.Tandem pairing state.device other.device)
    (same : SameKeys state.cache other.cache) (left : Failed key state failure after)
    (right : Failed key other failure' later) :
    failure = failure' ∧
      Device.Tandem pairing after.device later.device ∧ SameKeys after.cache later.cache := by
  obtain ⟨_, filter, wrap, cause, device, refused, rfl, rfl⟩ := left
  obtain ⟨_, filter', wrap', cause', device', refused', rfl, rfl⟩ := right
  have both := related.createTexture filter filter' wrap wrap'
  rw [refused, refused'] at both
  obtain ⟨tandem, ⟨_, _, created, _⟩ | ⟨_, same', same''⟩⟩ := both
  · cases created
  · cases same'
    cases same''
    exact ⟨rfl, tandem, same⟩

theorem Found.not_failed (same : (state.cache.get? key).isSome = (other.cache.get? key).isSome)
    (agree : ∀ filter filter' wrap wrap', Device.SameOutcome
      (state.device.createTexture filter wrap).1 (other.device.createTexture filter' wrap').1)
    (left : Found key width height bytes state texture after) :
    ¬ Failed key other failure later := by
  rintro ⟨absent', filter', wrap', cause, device', refused, _, _⟩
  cases left with
  | known there => simp [there, absent'] at same
  | @made filter wrap texture device loader ready absent created =>
    have outcome := agree filter filter' wrap wrap'
    rw [created, refused] at outcome
    obtain ⟨_, _, _, none⟩ | ⟨_, none, _⟩ := outcome <;> cases none

end TextureCache

/-- The course of frames of two trees: what programs and locations stand for is compared. -/
def Device.Pairing.course (ℓ : Type) (pairing : Device.Pairing) : Course ℓ where
  device := Device.Tandem pairing
  program program program' := pairing.lexicon.source program = pairing.lexicon'.source program'
  location location location' := pairing.lexicon.name location = pairing.lexicon'.name location'
  watched _ := True
  input := Eq
  cached := TextureCache.SameKeys
  companions := Device.Tandem.companions
  useProgram {left right} h handle handle' same :=
    h.recite (left.recites_useProgram handle) (same ▸ right.recites_useProgram handle')
  setUniform h _ _ same value := h.setUniform same value
  clear h _ := h.recite (Device.recites_clear _ _) (Device.recites_clear _ _)
  draw h := h.recite (Device.recites_draw _) (Device.recites_draw _)
  begins h _ := h ▸ rfl
  reads h _ _ _ _ _ := h ▸ ⟨rfl, rfl⟩
  polls h left right key := (left key).trans ((h key).trans (right key).symm)
  looks found _ _ related same := by
    have agree := fun filter filter' wrap wrap' =>
      (related.createTexture filter filter' wrap wrap').2
    refine Together.of_yields (found _) (found _) ?_ ?_ ?_ ?_
    · exact fun _ _ _ _ left right => left.tandem related same right
    · exact fun _ _ _ _ left right => left.tandem related same right
    · exact fun _ _ _ _ left => left.not_failed (same _) agree
    · exact fun _ _ _ _ failed right =>
        right.not_failed (same _).symm (fun _ _ _ _ => (agree _ _ _ _).symm) failed

namespace Renderer

variable {ℓ : Type} {pairing : Device.Pairing} {first second : Renderer ℓ}

/-- Two renderers that differ in handles only, on devices in tandem. -/
abbrev Tandem (pairing : Device.Pairing) (left right : Renderer ℓ) : Prop :=
  Beside (pairing.course ℓ) left right

/-! ### Pieces -/

/-- Programs with the same cue mean the same and are given the same. -/
theorem sameProgram_of_cue {tree tree' : CompiledTree} {layer layer' : CompiledLayer}
    {shader shader' : LayerProgram} {program program' : Handle}
    (same : pairing.lexicon.programCue tree layer shader program =
      pairing.lexicon'.programCue tree' layer' shader' program') :
    (pairing.course ℓ).SameProgram tree tree' layer layer' shader shader' program program' := by
  simp only [Lexicon.programCue, ProgramCue.mk.injEq] at same
  obtain ⟨source, names, given⟩ := same
  refine ⟨source, ?_, ?_⟩
  · rw [← List.forall₂_eq_eq_eq, List.forall₂_map_left_iff, List.forall₂_map_right_iff] at names
    refine names.imp fun slot slot' name => ?_
    cases slot <;> cases slot'
    · exact .none
    · cases name
    · cases name
    · exact .some (Option.some_inj.mp name)
  · rw [← List.forall₂_eq_eq_eq, List.forall₂_map_left_iff, List.forall₂_map_right_iff] at given
    refine given.imp fun placed placed' one => ?_
    simp only [Lexicon.given, GivenUniform.mk.injEq] at one
    exact ⟨one.1, one.2.1, one.2.2⟩

section

variable [TextureLoader ℓ] {tree tree' : CompiledTree}

mutual

/-- **Pieces with the same cue are drawn in the same way.** -/
theorem compositePiece_inStep (frame : FrameContext) : ∀ (piece piece' : Piece)
    (scale : Float32) (read : Nat),
    pairing.lexicon.cue tree piece = pairing.lexicon'.cue tree' piece' →
    InStep (pairing.course ℓ) [] Eq
      (compositePiece tree frame scale read piece : Action (Renderer ℓ) Nat)
      (compositePiece tree' frame scale read piece')
  | .group layer inside, .group layer' inside', scale, read, same => by
    rw [Lexicon.cue, Lexicon.cue] at same
    injection same with blend opacity within
    rw [compositePiece, compositePiece, blend]
    split
    · rw [opacity]
      exact compositePieces_inStep frame inside inside' _ read within
    · exact compositeIsolated_inStep frame blend opacity scale read fun start =>
        compositePieces_inStep frame inside inside' 1 start within
  | .shader layer shader, .shader layer' shader', scale, read, same => by
    rw [Lexicon.cue, Lexicon.cue] at same
    injection same with blend opacity program
    rw [compositePiece, compositePiece]
    have means : Option.Rel ((pairing.course ℓ).SameProgram tree tree' layer layer' shader shader')
        shader.program shader'.program := by
      revert program
      cases shader.program <;> cases shader'.program <;> intro program
      · exact .none
      · cases program
      · cases program
      · exact .some (sameProgram_of_cue (Option.some_inj.mp program))
    exact (compositeShader_inStep frame blend opacity means (fun _ _ => trivial) scale read).weaken
      (List.forall_mem_nil _)
  | .script layer code, .script layer' code', scale, read, same => by
    rw [Lexicon.cue, Lexicon.cue] at same
    injection same with id blend opacity code uniforms
    subst code
    rw [compositePiece, compositePiece]
    exact compositeScript_inStep frame _ id blend opacity uniforms (fun _ _ => trivial) scale read
  | .group .., .shader .., _, _, same => by simp [Lexicon.cue] at same
  | .group .., .script .., _, _, same => by simp [Lexicon.cue] at same
  | .shader .., .group .., _, _, same => by simp [Lexicon.cue] at same
  | .shader .., .script .., _, _, same => by simp [Lexicon.cue] at same
  | .script .., .group .., _, _, same => by simp [Lexicon.cue] at same
  | .script .., .shader .., _, _, same => by simp [Lexicon.cue] at same

theorem compositePieces_inStep (frame : FrameContext) : ∀ (pieces pieces' : List Piece)
    (scale : Float32) (read : Nat),
    pairing.lexicon.cues tree pieces = pairing.lexicon'.cues tree' pieces' →
    InStep (pairing.course ℓ) [] Eq
      (compositePieces tree frame scale read pieces : Action (Renderer ℓ) Nat)
      (compositePieces tree' frame scale read pieces')
  | [], [], _, _, _ => .pure rfl
  | [], _ :: _, _, _, same => by simp [Lexicon.cues] at same
  | _ :: _, [], _, _, same => by simp [Lexicon.cues] at same
  | piece :: rest, piece' :: rest', scale, read, same => by
    rw [Lexicon.cues, Lexicon.cues, List.cons.injEq] at same
    rw [compositePieces, compositePieces]
    refine (compositePieces_inStep frame rest rest' scale read same.2).andThen ?_
    rintro read _ rfl
    exact compositePiece_inStep frame piece piece' scale read same.1

end

/-! ### Frames -/

/-- **Trees of pieces with the same cues are drawn in the same way**, whatever groups there are
that are seen through: frames give the same stats or fail in the same way, and the devices are told
the same in words. -/
theorem render_tandem (h : Tandem pairing first second)
    (same : Cue.spreadIn (pairing.lexicon.cues tree (LayerTree.piecesIn tree.drawn)) =
      Cue.spreadIn (pairing.lexicon'.cues tree' (LayerTree.piecesIn tree'.drawn)))
    (input : FrameInput) :
    Together (render tree input) (render tree' input) first second
      (fun stats stats' after later => stats = stats' ∧ Tandem pairing after later)
      (Tandem pairing) := by
  have composited : ∀ frame read, InStep (pairing.course ℓ) [] Eq
      (compositeTree tree frame read : Action (Renderer ℓ) Nat)
      (compositeTree tree' frame read) := by
    intro frame read
    rw [← Lexicon.cues_spreadIn, ← Lexicon.cues_spreadIn] at same
    rw [compositeTree_pieces, compositeTree_pieces, ← compositePieces_spreadIn tree,
      ← compositePieces_spreadIn tree']
    exact compositePieces_inStep frame _ _ 1 read same
  refine (render_inStep h composited input).mono ?_ fun _ _ abreast => abreast.toBeside
  exact fun _ _ _ _ ⟨same, abreast⟩ => ⟨same, abreast.toBeside⟩

end

end Renderer
end Collage
