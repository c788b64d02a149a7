import Collage.Proofs.Device.Words
import Collage.Proofs.Frame.Balance
import Collage.Proofs.Uniform.Reconcile

/-!
# What is drawn of a tree

A frame draws the visible layers of a tree that are no distance layers; these are its `Piece`s,
nested as groups are.  Compositing a tree is compositing its pieces (`compositeTree_pieces`), so
places and layers that are not drawn are gone.

A piece with nothing in it that depends on handles is a `Cue`: programs are the sources that they
were linked from, and locations the names that are found there.
-/

namespace Collage

/-! ### Pieces -/

/-- A layer that a frame draws. -/
inductive Piece
  | group (layer : CompiledLayer) (inside : List Piece)
  | shader (layer : CompiledLayer) (shader : LayerProgram)
  | script (layer : CompiledLayer) (code : String)

namespace LayerTree

mutual

/-- What is drawn of a layer and of what is inside it. -/
def pieces : LayerTree → List Piece
  | node layer inside =>
    if layer.visible then
      match layer.kind with
      | .group _ => [.group layer (piecesIn inside)]
      | .shader shader => [.shader layer shader]
      | .script code => [.script layer code]
      | .distance .. => []
    else []

/-- The same of several layers. -/
def piecesIn : List LayerTree → List Piece
  | [] => []
  | tree :: rest => pieces tree ++ piecesIn rest

end

theorem piecesIn_eq_flatMap (trees : List LayerTree) : piecesIn trees = trees.flatMap pieces := by
  induction trees with
  | nil => rfl
  | cons tree rest ih => rw [piecesIn, ih, List.flatMap_cons]

theorem piecesIn_append (trees others : List LayerTree) :
    piecesIn (trees ++ others) = piecesIn trees ++ piecesIn others := by
  simp only [piecesIn_eq_flatMap, List.flatMap_append]

theorem piecesIn_singleton (tree : LayerTree) : piecesIn [tree] = pieces tree :=
  List.append_nil _

theorem piecesIn_toList (tree : Option LayerTree) :
    piecesIn tree.toList = (tree.map pieces).getD [] := by
  cases tree with
  | none => rfl
  | some tree => exact List.append_nil _

end LayerTree

namespace Renderer

variable {ℓ : Type} [TextureLoader ℓ]

mutual

/-- Composites a piece. -/
def compositePiece (tree : CompiledTree) (frame : FrameContext) (scale : Float32) (read : Nat) :
    Piece → Action (Renderer ℓ) Nat
  | .group layer inside =>
    if layer.blend = .passThrough then
      compositePieces tree frame (scale * Float32.within 0 1 layer.opacity) read inside
    else
      compositeIsolated frame layer scale read fun read =>
        compositePieces tree frame 1 read inside
  | .shader layer shader => compositeShader tree frame layer shader scale read
  | .script layer code => compositeScript frame layer code scale read

/-- Composites pieces, the last one first. -/
def compositePieces (tree : CompiledTree) (frame : FrameContext) (scale : Float32) (read : Nat) :
    List Piece → Action (Renderer ℓ) Nat
  | [] => return read
  | piece :: rest => do
    let read ← compositePieces tree frame scale read rest
    compositePiece tree frame scale read piece

end

section

variable (tree : CompiledTree) (frame : FrameContext) (scale : Float32)

theorem compositePieces_append (read : Nat) : ∀ pieces others : List Piece,
    (compositePieces tree frame scale read (pieces ++ others) : Action (Renderer ℓ) Nat) =
      compositePieces tree frame scale read others >>= fun read =>
        compositePieces tree frame scale read pieces
  | [], others => by
    rw [List.nil_append]
    exact (bind_pure _).symm
  | piece :: rest, others => by
    rw [List.cons_append, compositePieces, compositePieces_append read rest others, bind_assoc]
    rfl

theorem compositePieces_single (read : Nat) (piece : Piece) :
    (compositePieces tree frame scale read [piece] : Action (Renderer ℓ) Nat) =
      compositePiece tree frame scale read piece := by
  rw [compositePieces, compositePieces, pure_bind]

open LayerTree

/-- **Layers are composited as their pieces are.** -/
theorem composing_pieces : Composing tree frame
    fun scale views (draw : Nat → Action (Renderer ℓ) Nat) =>
      ∀ read, draw read = compositePieces tree frame scale read (piecesIn views) where
  nothing _ := rfl
  hidden hidden _ := by
    rw [piecesIn_singleton, pieces, if_neg (Bool.eq_false_iff.mp hidden)]
    rfl
  distance visible kind _ := by
    rw [piecesIn_singleton, pieces, if_pos visible, kind]
    rfl
  shader visible kind _ := by
    rw [piecesIn_singleton, pieces, if_pos visible, kind]
    dsimp only
    rw [compositePieces_single, compositePiece]
  script visible kind _ := by
    rw [piecesIn_singleton, pieces, if_pos visible, kind]
    dsimp only
    rw [compositePieces_single, compositePiece]
  through visible kind through inside read := by
    rw [piecesIn_singleton, pieces, if_pos visible, kind]
    dsimp only
    rw [compositePieces_single, compositePiece, if_pos through, inside]
  isolated visible kind alone inside read := by
    rw [piecesIn_singleton, pieces, if_pos visible, kind]
    dsimp only
    rw [compositePieces_single, compositePiece, if_neg alone]
    exact congrArg _ (funext inside)
  followed rest first read := by
    dsimp only
    rw [rest, piecesIn, compositePieces_append]
    refine congrArg _ (funext fun read => ?_)
    rw [first, piecesIn_singleton]

/-- **A tree is composited as its pieces are.** -/
theorem compositeTree_pieces (read : Nat) :
    (compositeTree tree frame read : Action (Renderer ℓ) Nat) =
      compositePieces tree frame 1 read (piecesIn tree.drawn) :=
  (composing_pieces tree frame).drawn read

end

end Renderer

/-! ### Cues -/

/-- The places where a program keeps the uniforms that every layer has, in the order in which they
are written. -/
def BuiltinLocations.slots (locations : BuiltinLocations) : List (Option Nat) :=
  [locations.resolution, locations.time, locations.deltaTime, locations.frame, locations.pointer,
    locations.date, locations.previousLayer, locations.blendMode, locations.opacity,
    locations.audioVolume, locations.audioPeak, locations.audioTrough, locations.audioReactive,
    locations.audioSpectrum]

/-- A uniform that a program is given: the layer it belongs to, and its name in the program. -/
structure GivenUniform where
  layer : String
  name : String
  uniform : Uniform

/-- What a program is, and what it is given. -/
structure ProgramCue where
  source : String
  /-- the names of the uniforms that every layer has, of those that the program keeps -/
  builtins : List (Option String)
  given : List GivenUniform

/-- What decides how a piece is drawn. -/
inductive Cue
  | group (blend : BlendMode) (opacity : Float32) (inside : List Cue)
  | shader (blend : BlendMode) (opacity : Float32) (program : Option ProgramCue)
  | script (id : String) (blend : BlendMode) (opacity : Float32) (code : String)
      (uniforms : List Uniform)

namespace Lexicon

variable (lexicon : Lexicon) (tree : CompiledTree)

/-- A uniform by the name that is found where a program keeps it. -/
def given (placed : Renderer.PlacedUniform) : GivenUniform :=
  ⟨placed.layer, lexicon.name placed.location, placed.uniform.unplaced⟩

/-- A program and what it is given, by names. -/
def programCue (layer : CompiledLayer) (shader : LayerProgram) (program : Handle) : ProgramCue where
  source := lexicon.source program
  builtins := shader.builtins.slots.map (Option.map lexicon.name)
  given := (Renderer.placedUniforms tree layer shader).map lexicon.given

mutual

/-- What decides how a piece is drawn. -/
def cue : Piece → Cue
  | .group layer inside => .group layer.blend layer.opacity (cues inside)
  | .shader layer shader =>
    .shader layer.blend layer.opacity (shader.program.map (lexicon.programCue tree layer shader))
  | .script layer code =>
    .script layer.id layer.blend layer.opacity code (layer.uniforms.map Uniform.unplaced)

/-- The same of several pieces. -/
def cues : List Piece → List Cue
  | [] => []
  | piece :: rest => cue piece :: cues rest

end

end Lexicon
end Collage
