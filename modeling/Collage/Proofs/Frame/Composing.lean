import Collage.Frame.Composite
import Collage.Proofs.Frame.LayerTree

/-!
# What holds of compositing a tree

Layers are composited place by place, with steps for how deep they are nested, and a layer that is
not there or is hidden is passed over.  What is said of a frame is said of layers as they are drawn
instead, and this module goes from one to the other.

`Renderer.Composing tree frame P` are the rules that a property `P` has to keep: `P scale views draw`
is about layers with those inside them, `views`, and what composites them at a scale, `draw`.  It
has to hold of each layer on its own, if need be from what it is of the layers inside a group, and
of layers one after another.  Then it holds of a tree (`Composing.drawn`).
-/

namespace Collage
namespace Renderer

variable {ℓ : Type}

theorem compositeEach_cons (step : Nat → Nat → Action (Renderer ℓ) Nat) (read first : Nat)
    (rest : List Nat) :
    compositeEach step read (first :: rest) =
      compositeEach step read rest >>= fun read => step read first := by
  unfold compositeEach
  rw [List.reverse_cons, List.foldlM_append]
  simp only [List.foldlM_cons, List.foldlM_nil, bind_pure]

variable [TextureLoader ℓ]

/-- The rules by which a property of layers and of what composites them holds of whole trees. -/
structure Composing (tree : CompiledTree) (frame : FrameContext)
    (P : Float32 → List LayerTree → (Nat → Action (Renderer ℓ) Nat) → Prop) : Prop where
  nothing : ∀ {scale}, P scale [] pure
  hidden : ∀ {scale layer inside}, layer.visible = false → P scale [.node layer inside] pure
  distance : ∀ {scale layer inside signature children}, layer.visible = true →
    layer.kind = .distance signature children → P scale [.node layer inside] pure
  shader : ∀ {scale layer inside shader}, layer.visible = true → layer.kind = .shader shader →
    P scale [.node layer inside] fun read => compositeShader tree frame layer shader scale read
  script : ∀ {scale layer inside code}, layer.visible = true → layer.kind = .script code →
    P scale [.node layer inside] fun read => compositeScript frame layer code scale read
  through : ∀ {scale layer inside children draw}, layer.visible = true →
    layer.kind = .group children → layer.blend = .passThrough →
    P (scale * Float32.within 0 1 layer.opacity) inside draw → P scale [.node layer inside] draw
  isolated : ∀ {scale layer inside children draw}, layer.visible = true →
    layer.kind = .group children → layer.blend ≠ .passThrough → P 1 inside draw →
    P scale [.node layer inside] fun read => compositeIsolated frame layer scale read draw
  followed : ∀ {scale view rest draw first}, P scale rest draw → P scale [view] first →
    P scale (view :: rest) fun read => draw read >>= first

variable {tree : CompiledTree} {frame : FrameContext}

theorem compositeLayer_absent (scale : Float32) (read : Nat) : ∀ {steps place : Nat},
    tree.unfold steps place = none →
    (compositeLayer tree frame steps scale read place : Action (Renderer ℓ) Nat) = pure read
  | 0, _, _ => rfl
  | steps + 1, place, absent => by
    rw [CompiledTree.unfold, Option.map_eq_none_iff] at absent
    rw [compositeLayer, absent]
    rfl

namespace Composing

variable {P : Float32 → List LayerTree → (Nat → Action (Renderer ℓ) Nat) → Prop}

/-- Layers one after another, of which some are not there. -/
theorem each (h : Composing tree frame P) {scale : Float32} {view : Nat → Option LayerTree}
    {step : Nat → Nat → Action (Renderer ℓ) Nat}
    (shown : ∀ place here, view place = some here → P scale [here] fun read => step read place)
    (absent : ∀ place read, view place = none → step read place = pure read) :
    ∀ places : List Nat, P scale (places.filterMap view) fun read => compositeEach step read places
  | [] => h.nothing
  | place :: rest => by
    have others := h.each shown absent rest
    simp only [compositeEach_cons]
    cases seen : view place with
    | none =>
      rw [List.filterMap_cons_none seen]
      simpa only [absent place _ seen, bind_pure] using others
    | some here =>
      rw [List.filterMap_cons_some seen]
      exact h.followed others (shown place here seen)

/-- **A layer with those inside it**, by induction on the nesting. -/
theorem layer (h : Composing tree frame P) : ∀ (steps : Nat) (scale : Float32) (place : Nat)
    (view : LayerTree), tree.unfold steps place = some view →
    P scale [view] fun read => compositeLayer tree frame steps scale read place := by
  intro steps
  induction steps with
  | zero =>
    intro scale place view seen
    cases seen
  | succ steps ih =>
    intro scale place view seen
    obtain ⟨layer, found, rfl⟩ := Option.map_eq_some_iff.mp seen
    have inside : ∀ scale children, P scale (children.filterMap (tree.unfold steps)) fun read =>
        compositeEach (compositeLayer tree frame steps scale) read children := fun scale =>
      h.each (ih scale) fun _ read absent => compositeLayer_absent scale read absent
    unfold compositeLayer
    rw [found, Option.filter_some]
    by_cases visible : layer.visible = true
    · rw [if_pos visible]
      dsimp only
      cases kind : layer.kind with
      | group children =>
        have members : layer.members = children := by rw [CompiledLayer.members, kind]
        rw [members]
        dsimp only
        split
        · next through => exact h.through visible kind through (inside _ children)
        · next alone => exact h.isolated visible kind alone (inside 1 children)
      | shader shader => exact h.shader visible kind
      | script code => exact h.script visible kind
      | distance signature children => exact h.distance visible kind
    · rw [if_neg visible]
      exact h.hidden (Bool.eq_false_iff.mpr visible)

/-- **A whole tree**, as it is drawn. -/
theorem drawn (h : Composing tree frame P) :
    P 1 tree.drawn fun read => compositeTree tree frame read := by
  unfold compositeTree CompiledTree.drawn
  have root : P 1 (tree.unfold tree.layers.length CompiledTree.rootPlace).toList fun read =>
      compositeLayer tree frame tree.layers.length 1 read CompiledTree.rootPlace := by
    cases seen : tree.unfold tree.layers.length CompiledTree.rootPlace with
    | none =>
      simp only [compositeLayer_absent _ _ seen]
      exact h.nothing
    | some view => exact h.layer _ 1 _ view seen
  cases (tree.layer? CompiledTree.rootPlace).filter (·.visible) with
  | none => exact root
  | some layer =>
    obtain ⟨_, _, _, _, _, _, _, _, _, kind⟩ := layer
    cases kind with
    | group children =>
      exact h.each (h.layer _ 1) (fun _ read absent => compositeLayer_absent 1 read absent) children
    | _ => exact root

end Composing
end Renderer
end Collage
