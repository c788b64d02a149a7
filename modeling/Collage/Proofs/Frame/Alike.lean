import Collage.Proofs.Frame.InStep

/-!
# Frames of one tree

A frame of a tree reads the keys of the layers that are shown of it: of those with a program in any
case (`sureInputs`), and of scripts when requests are made for them (`scriptInputs`).

Two renderers are `Alike` for some keys if they differ in handles only, and in what they remember of
textures and of other keys.  Memory has to be `Ample`, because what one renderer has already, the
other one may still have to create.  Then a frame that reads no other keys gives the same stats on
both, and both devices are told the same, value by value (`render_together`).
-/

namespace Collage

open Collage.Action

/-! ### What layers read -/

namespace LayerTree

mutual

/-- The layers in a tree that a frame draws, the groups taken apart. -/
def shown : LayerTree → List CompiledLayer
  | node layer inside =>
    if layer.visible then
      match layer.kind with
      | .group _ => shownIn inside
      | _ => [layer]
    else []

/-- The same of several layers. -/
def shownIn : List LayerTree → List CompiledLayer
  | [] => []
  | tree :: rest => shown tree ++ shownIn rest

end

end LayerTree

/-- The keys that a script layer reads when a request is made for it. -/
def CompiledLayer.scriptInputs (layer : CompiledLayer) : List InputKey :=
  match layer.kind with
  | .script _ => layer.uniforms.flatMap (·.inputs layer.id)
  | _ => []

namespace LayerTree

/-- The keys that are read whenever trees are drawn. -/
def sureInputs (tree : CompiledTree) (views : List LayerTree) : List InputKey :=
  (shownIn views).flatMap (·.shaderInputs tree)

/-- The keys that are read when requests are made for scripts in trees. -/
def scriptInputs (views : List LayerTree) : List InputKey :=
  (shownIn views).flatMap (·.scriptInputs)

/-- All keys that may be read when trees are drawn are among `keys`. -/
structure Watched (keys : List InputKey) (tree : CompiledTree) (views : List LayerTree) : Prop where
  sure : ∀ key ∈ sureInputs tree views, key ∈ keys
  script : ∀ key ∈ scriptInputs views, key ∈ keys

theorem sureInputs_cons (tree : CompiledTree) (view : LayerTree) (rest : List LayerTree) :
    sureInputs tree (view :: rest) = sureInputs tree [view] ++ sureInputs tree rest := by
  simp only [sureInputs, shownIn, List.flatMap_append, List.append_nil]

theorem shownIn_node (layer : CompiledLayer) (inside : List LayerTree) :
    shownIn [.node layer inside] = if layer.visible then
      match layer.kind with
      | .group _ => shownIn inside
      | _ => [layer]
    else [] := by
  rw [shownIn, shownIn, List.append_nil, shown]

section

variable {layer : CompiledLayer} {inside : List LayerTree}

theorem shownIn_group {children : List Nat} (visible : layer.visible = true)
    (kind : layer.kind = .group children) : shownIn [.node layer inside] = shownIn inside := by
  rw [shownIn_node, if_pos visible, kind]

theorem sureInputs_shader {shader : LayerProgram} (visible : layer.visible = true)
    (kind : layer.kind = .shader shader) (tree : CompiledTree) :
    sureInputs tree [.node layer inside] = Renderer.shaderInputs tree layer shader := by
  rw [sureInputs, shownIn_node, if_pos visible, kind, List.flatMap_singleton,
    CompiledLayer.shaderInputs, kind]

theorem sureInputs_script {code : String} (visible : layer.visible = true)
    (kind : layer.kind = .script code) (tree : CompiledTree) :
    sureInputs tree [.node layer inside] = [] := by
  rw [sureInputs, shownIn_node, if_pos visible, kind, List.flatMap_singleton,
    CompiledLayer.shaderInputs, kind]

theorem scriptInputs_script {code : String} (visible : layer.visible = true)
    (kind : layer.kind = .script code) :
    scriptInputs [.node layer inside] = layer.uniforms.flatMap (·.inputs layer.id) := by
  rw [scriptInputs, shownIn_node, if_pos visible, kind, List.flatMap_singleton,
    CompiledLayer.scriptInputs, kind]

theorem sureInputs_distance {signature : Option Signature} {children : List Nat}
    (visible : layer.visible = true) (kind : layer.kind = .distance signature children)
    (tree : CompiledTree) : sureInputs tree [.node layer inside] = [] := by
  rw [sureInputs, shownIn_node, if_pos visible, kind, List.flatMap_singleton,
    CompiledLayer.shaderInputs, kind]

end

theorem Watched.mono {keys : List InputKey} {tree : CompiledTree} {views fewer : List LayerTree}
    (h : Watched keys tree views) (inside : ∀ layer ∈ shownIn fewer, layer ∈ shownIn views) :
    Watched keys tree fewer := by
  constructor
  · intro key known
    obtain ⟨layer, shown, read⟩ := List.mem_flatMap.mp known
    exact h.sure key (List.mem_flatMap.mpr ⟨layer, inside layer shown, read⟩)
  · intro key known
    obtain ⟨layer, shown, read⟩ := List.mem_flatMap.mp known
    exact h.script key (List.mem_flatMap.mpr ⟨layer, inside layer shown, read⟩)

theorem Watched.group {keys : List InputKey} {tree : CompiledTree} {layer : CompiledLayer}
    {inside : List LayerTree} {children : List Nat} (h : Watched keys tree [.node layer inside])
    (visible : layer.visible = true) (kind : layer.kind = .group children) :
    Watched keys tree inside :=
  h.mono fun _ known => by rwa [shownIn_group visible kind]

end LayerTree

/-! ### Renderers that are alike -/

theorem TextureCache.Failed.not_ample {ℓ : Type} {key : TextureKey}
    {state after : TextureCache.State ℓ} {failure : Failure} (failed : Failed key state failure after) :
    ¬ state.device.traits.Ample := by
  intro ample
  obtain ⟨_, filter, wrap, cause, later, refused, _⟩ := failed
  obtain ⟨texture, created⟩ := Device.createTexture_ample ample filter wrap
  rw [refused] at created
  cases created

theorem Device.Abreast.companions {said said' : List DeviceEvent} :
    Device.Companions (Device.Abreast said said') where
  framebuffer {left right} h width height :=
    ⟨h.tell (left.tells_createFramebuffer width height)
        (right.tells_createFramebuffer width height),
      h.toAlike.createFramebuffer width height⟩
  texture {left right} h filter filter' wrap wrap' :=
    ⟨h.tell (left.tells_createTexture filter wrap) (right.tells_createTexture filter' wrap'),
      h.toAlike.createTexture filter filter' wrap wrap'⟩
  hushed h left right := h.tell left.silent right.silent

/-- The course of two frames of one tree that may read some keys, since devices had been told
something. -/
def Course.sameTree (ℓ : Type) (keys : List InputKey) (said said' : List DeviceEvent) :
    Course ℓ where
  device := Device.Abreast said said'
  program := Eq
  location := Eq
  watched key := key ∈ keys
  input := InputState.Alike keys
  cached _ _ := True
  companions := Device.Abreast.companions
  useProgram h _ _ same := same ▸ h.tell (Device.tells_useProgram _ _) (Device.tells_useProgram _ _)
  setUniform h _ _ same value := same ▸ h.setUniform _ value
  clear h _ := h.tell (Device.tells_clear _ _) (Device.tells_clear _ _)
  draw h := h.tell (Device.tells_draw _) (Device.tells_draw _)
  begins h _ := ⟨rfl, h.lookup⟩
  reads h _ _ _ reads inside := ⟨reads.value (h.mono inside), reads.alike h inside⟩
  polls _ _ _ := trivial
  looks found _ _ related _ := by
    refine Together.of_yields (found _) (found _) ?_ ?_ ?_ ?_
    · exact fun _ _ _ _ left right => ⟨related.tell left.tells right.tells, trivial⟩
    · exact fun _ _ _ _ _ failed => absurd related.ample failed.not_ample
    · exact fun _ _ _ _ _ failed => failed.not_ample related.ample
    · exact fun _ _ _ _ failed => absurd (related.traits.symm ▸ related.ample) failed.not_ample

theorem Course.sameProgram_refl {ℓ : Type} {keys : List InputKey} {said said' : List DeviceEvent}
    (tree : CompiledTree) (layer : CompiledLayer) (shader : LayerProgram) :
    Option.Rel ((Course.sameTree ℓ keys said said').SameProgram tree tree layer layer shader shader)
      shader.program shader.program := by
  cases shader.program with
  | none => exact .none
  | some program =>
    exact .some ⟨rfl, samePlaces_self fun _ _ => rfl, List.forall₂_same.mpr fun _ _ =>
      ⟨rfl, rfl, rfl⟩⟩

namespace Renderer

variable {ℓ : Type} {keys : List InputKey} {said said' : List DeviceEvent}
  {first second : Renderer ℓ}

/-- Two renderers differ in handles only, and in what is remembered of textures and of other keys
than `keys`. -/
abbrev Alike (keys : List InputKey) (left right : Renderer ℓ) : Prop :=
  Beside (.sameTree ℓ keys left.device.orders right.device.orders) left right

theorem Alike.refl {renderer : Renderer ℓ} (ample : renderer.device.traits.Ample) :
    Alike keys renderer renderer where
  device := ⟨⟨rfl, ample, rfl⟩, [], rfl, rfl⟩
  options := rfl
  programs := rfl
  shares := ⟨fun _ _ => rfl, fun _ _ => rfl⟩
  clock := rfl
  levels := rfl
  targets := rfl
  external := .refl _
  input := .refl _ _
  textures := trivial

/-- Renderers that are beside each other on such a course are alike from now on. -/
theorem Beside.alike (h : Beside (.sameTree ℓ keys said said') first second) :
    Alike keys first second :=
  { h with
    device := { h.device with told := ⟨[], rfl, rfl⟩ }
    shares := ⟨fun _ _ => rfl, fun _ _ => rfl⟩ }

open LayerTree

section

variable [TextureLoader ℓ]

/-- **Layers read the keys of what is shown of them.** -/
theorem composing_inStep (tree : CompiledTree) (frame : FrameContext) : Composing tree frame
    fun _ views (draw : Nat → Action (Renderer ℓ) Nat) => Watched keys tree views →
      ∀ read, InStep (.sameTree ℓ keys said said') (sureInputs tree views) Eq (draw read)
        (draw read) where
  nothing _ _ := .pure rfl
  hidden hidden _ _ := by
    rw [sureInputs, shownIn_node, if_neg (Bool.eq_false_iff.mp hidden)]
    exact .pure rfl
  distance visible kind _ _ := by
    rw [sureInputs_distance visible kind]
    exact .pure rfl
  shader visible kind watched read := by
    have inside := watched.sure
    rw [sureInputs_shader visible kind] at inside ⊢
    exact compositeShader_inStep frame rfl rfl (Course.sameProgram_refl tree _ _) inside _ read
  script visible kind watched read := by
    have inside := watched.script
    rw [scriptInputs_script visible kind] at inside
    rw [sureInputs_script visible kind]
    exact compositeScript_inStep frame _ rfl rfl rfl rfl inside _ read
  through visible kind _ inside watched read := by
    rw [sureInputs, shownIn_group visible kind]
    exact inside (watched.group visible kind) read
  isolated visible kind _ inside watched read := by
    rw [sureInputs, shownIn_group visible kind]
    exact compositeIsolated_inStep frame rfl rfl _ read (inside (watched.group visible kind))
  followed := by
    -- the first layer is drawn last, so what the others read comes in front
    intro scale view rest draw first others last watched read
    have before := others (watched.mono fun _ => List.mem_append_right _)
    have own : Watched keys tree [view] := watched.mono fun layer inside => by
      rw [shownIn, shownIn, List.append_nil] at inside
      exact List.mem_append_left _ inside
    have both : InStep (.sameTree ℓ keys said said')
        (sureInputs tree rest ++ sureInputs tree [view]) Eq _ _ :=
      (before read).bind fun read read' same => by
        cases same
        exact last own read
    refine both.weaken fun key known => ?_
    rw [sureInputs_cons] at known
    exact List.mem_append.mpr (List.mem_append.mp known).symm

/-- **A frame does the same on renderers that are alike**: it gives the same stats or fails in the
same way, and the devices are told the same.  If it ends well, what it surely reads is fresh. -/
theorem render_together (h : Alike keys first second) {tree : CompiledTree}
    (watched : Watched keys tree tree.drawn) (input : FrameInput) :
    Together (render tree input) (render tree input) first second
      (fun stats stats' after later => stats = stats' ∧
        Abreast (.sameTree ℓ keys first.device.orders second.device.orders)
          (sureInputs tree tree.drawn) after later)
      (Abreast (.sameTree ℓ keys first.device.orders second.device.orders) []) :=
  render_inStep h (fun frame => (composing_inStep tree frame).drawn watched) input

end

end Renderer
end Collage
