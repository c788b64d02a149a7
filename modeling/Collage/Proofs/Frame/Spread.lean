import Collage.Proofs.Frame.Pieces
import Collage.Proofs.Number.One

/-!
# Groups that are seen through

A pass-through group of full opacity does nothing of its own: its pieces are drawn onto what is
below, as opaque as if the group were not there (`compositePieces_spreadIn`).  For this it is needed
that one is neutral.  So what decides how pieces are drawn are their cues, with what is in such
groups in the place of these (`Cue.spreadIn`).
-/

namespace Collage

mutual

/-- A piece, with what is in pass-through groups of full opacity in the place of these. -/
def Piece.spread : Piece → List Piece
  | .group layer inside =>
    if layer.blend = .passThrough ∧ layer.opacity = 1 then Piece.spreadIn inside
    else [.group layer (Piece.spreadIn inside)]
  | .shader layer made => [.shader layer made]
  | .script layer code => [.script layer code]

/-- The same of several pieces. -/
def Piece.spreadIn : List Piece → List Piece
  | [] => []
  | piece :: rest => Piece.spread piece ++ Piece.spreadIn rest

end

mutual

/-- A cue, with what is in pass-through groups of full opacity in the place of these. -/
def Cue.spread : Cue → List Cue
  | .group blend opacity inside =>
    if blend = .passThrough ∧ opacity = 1 then Cue.spreadIn inside
    else [.group blend opacity (Cue.spreadIn inside)]
  | .shader blend opacity program => [.shader blend opacity program]
  | .script id blend opacity code uniforms => [.script id blend opacity code uniforms]

/-- The same of several cues. -/
def Cue.spreadIn : List Cue → List Cue
  | [] => []
  | cue :: rest => Cue.spread cue ++ Cue.spreadIn rest

end

theorem Cue.spreadIn_append (others : List Cue) : ∀ cues : List Cue,
    Cue.spreadIn (cues ++ others) = Cue.spreadIn cues ++ Cue.spreadIn others
  | [] => rfl
  | cue :: rest => by
    rw [List.cons_append, spreadIn, spreadIn, spreadIn_append others rest, List.append_assoc]

/-! ### Cues -/

namespace Lexicon

variable (lexicon : Lexicon) (tree : CompiledTree)

theorem cues_append (others : List Piece) : ∀ pieces : List Piece,
    lexicon.cues tree (pieces ++ others) = lexicon.cues tree pieces ++ lexicon.cues tree others
  | [] => rfl
  | piece :: rest => by
    rw [List.cons_append, cues, cues_append others rest, cues, List.cons_append]

mutual

theorem cues_spread : ∀ piece : Piece,
    lexicon.cues tree piece.spread = (lexicon.cue tree piece).spread
  | .group layer inside => by
    rw [Piece.spread, cue, Cue.spread]
    split
    · exact cues_spreadIn inside
    · rw [cues, cues, cue, cues_spreadIn inside]
  | .shader .. => rfl
  | .script .. => rfl

theorem cues_spreadIn : ∀ pieces : List Piece,
    lexicon.cues tree (Piece.spreadIn pieces) = Cue.spreadIn (lexicon.cues tree pieces)
  | [] => rfl
  | piece :: rest => by
    rw [Piece.spreadIn, cues_append, cues_spread piece, cues_spreadIn rest, cues, Cue.spreadIn]

end

end Lexicon

/-! ### Compositing -/

namespace Renderer

variable {ℓ : Type} [TextureLoader ℓ] (tree : CompiledTree) (frame : FrameContext)

theorem within_one : Float32.within 0 1 1 = 1 := by
  decide +kernel

mutual

theorem compositePieces_spread : ∀ (piece : Piece) (scale : Float32) (read : Nat),
    (compositePieces tree frame scale read piece.spread : Action (Renderer ℓ) Nat) =
      compositePiece tree frame scale read piece
  | .group layer inside, scale, read => by
    rw [Piece.spread, compositePiece]
    by_cases through : layer.blend = .passThrough
    · rw [if_pos through]
      by_cases full : layer.opacity = 1
      · rw [if_pos ⟨through, full⟩, full, within_one, Float32.mul_one]
        exact compositePieces_spreadIn inside scale read
      · rw [if_neg fun both => full both.2, compositePieces_single, compositePiece, if_pos through]
        exact compositePieces_spreadIn inside _ read
    · rw [if_neg fun both => through both.1, compositePieces_single, compositePiece,
        if_neg through, if_neg through]
      exact congrArg (compositeIsolated frame layer scale read)
        (funext fun read => compositePieces_spreadIn inside 1 read)
  | .shader .., _, _ => compositePieces_single ..
  | .script .., _, _ => compositePieces_single ..

/-- **Pass-through groups of full opacity are seen through.** -/
theorem compositePieces_spreadIn : ∀ (pieces : List Piece) (scale : Float32) (read : Nat),
    (compositePieces tree frame scale read (Piece.spreadIn pieces) : Action (Renderer ℓ) Nat) =
      compositePieces tree frame scale read pieces
  | [], _, _ => rfl
  | piece :: rest, scale, read => by
    rw [Piece.spreadIn, compositePieces_append, compositePieces_spreadIn rest, compositePieces]
    exact congrArg _ (funext fun read => compositePieces_spread piece scale read)

end

end Renderer
end Collage
