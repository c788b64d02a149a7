import Collage.Proofs.Document.Coats
import Collage.Proofs.Frame.Reference
import Collage.Proofs.Frame.Spread

/-!
# Groups of normal layers

Pictures are colours at points here.  A layer that is blended normally lays coats on the picture
below it (`Studio.Lays`): which ones may depend on the frame and on what went before, but not on
that picture.  Layers in a row lay their coats in a row (`Studio.lays_each`).

A group that is drawn on its own lays its coats on a transparent picture, and what comes of it on
the picture below; a group that is passed through lays them on the picture below at once.  If the
group is blended normally, too, and with full opacity, this is the same
(`normal_group_seen_through`).
-/

namespace Collage
namespace Studio

open Arithmetic (Exact)
open Compositing

variable {P K α : Type} [Field K] [LinearOrder K] [Arithmetic α]

/-- Coats over a picture. -/
def coated (place : P → α × α) (ι : K → α) (coats : P → List (Coat K)) (below : P → Color α)
    (p : P) : Color α :=
  layered (place p).1 (place p).2 ((coats p).map (Coat.map ι)) (below p)

/-- A step lays coats on the picture below, whatever that picture is. -/
def Lays (place : P → α × α) (ι : K → α)
    (step : (P → Color α) → StateM (Memory (P → Color α)) (P → Color α))
    (coats : Memory (P → Color α) → P → List (Coat K)) : Prop :=
  (∀ memory p, ∀ coat ∈ coats memory p, coat.Valid) ∧
    ∃ after : Memory (P → Color α) → Memory (P → Color α), ∀ below memory,
      (step below).run memory = (coated place ι (coats memory) below, after memory)

variable {place : P → α × α} {ι : K → α}
  {step next : (P → Color α) → StateM (Memory (P → Color α)) (P → Color α)}

theorem lays_nothing : Lays place ι pure fun _ _ => [] :=
  ⟨fun _ _ _ among => absurd among List.not_mem_nil, id, fun _ _ => rfl⟩

/-- Coats are laid on coats. -/
theorem Lays.followedBy {coats more : Memory (P → Color α) → P → List (Coat K)}
    (first : Lays place ι step coats) (second : Lays place ι next more) :
    ∃ all, Lays place ι (fun below => step below >>= next) all ∧
      ∃ after : Memory (P → Color α) → Memory (P → Color α),
        ∀ memory p, all memory p = coats memory p ++ more (after memory) p := by
  obtain ⟨valid, after, stepped⟩ := first
  obtain ⟨valid', after', followed⟩ := second
  refine ⟨fun memory p => coats memory p ++ more (after memory) p, ⟨?_, after' ∘ after, ?_⟩, after,
    fun _ _ => rfl⟩
  · intro memory p coat among
    rcases List.mem_append.mp among with among | among
    · exact valid memory p coat among
    · exact valid' (after memory) p coat among
  · intro below memory
    rw [StateT.run_bind, stepped]
    refine (followed _ _).trans (Prod.ext ?_ rfl)
    funext p
    simp only [coated, layered, List.map_append, List.foldl_append]

variable (place ι) (studio : Studio (P → Color α))

/-- A layer lays coats. -/
def LaysCoats (tree : LayerTree) : Prop :=
  ∃ coats, Lays place ι (studio.paint tree 1) coats

/-- A layer lays at least one coat on every point. -/
def Covers (tree : LayerTree) : Prop :=
  ∃ coats, Lays place ι (studio.paint tree 1) coats ∧ ∀ memory p, coats memory p ≠ []

variable {place ι studio}

/-- **Layers lay their coats one after the other.** -/
theorem lays_each {inside : List LayerTree}
    (each : ∀ tree ∈ inside, studio.LaysCoats place ι tree) :
    ∃ coats, Lays place ι (studio.paintEach inside 1) coats ∧
      ((∃ tree ∈ inside, studio.Covers place ι tree) → ∀ memory p, coats memory p ≠ []) := by
  induction inside with
  | nil =>
    refine ⟨fun _ _ => [], ?_, fun ⟨_, among, _⟩ => absurd among List.not_mem_nil⟩
    have nothing : studio.paintEach [] 1 = pure := funext fun below => by rw [paintEach]
    rw [nothing]
    exact lays_nothing
  | cons tree rest ih =>
    obtain ⟨first, others⟩ := List.forall_mem_cons.mp each
    obtain ⟨coats, lays, covered⟩ := ih others
    have then_ : studio.paintEach (tree :: rest) 1 =
        fun below => studio.paintEach rest 1 below >>= studio.paint tree 1 :=
      funext fun below => by rw [paintEach]
    rw [then_]
    -- the coats of the layer itself, some of which cover if there are such
    obtain ⟨more, laysMore, coveredMore⟩ : ∃ more, Lays place ι (studio.paint tree 1) more ∧
        (studio.Covers place ι tree → ∀ memory p, more memory p ≠ []) := by
      by_cases covers : studio.Covers place ι tree
      · obtain ⟨more, laysMore, nonempty⟩ := covers
        exact ⟨more, laysMore, fun _ => nonempty⟩
      · obtain ⟨more, laysMore⟩ := first
        exact ⟨more, laysMore, fun covering => absurd covering covers⟩
    obtain ⟨all, laysAll, after, same⟩ := lays.followedBy laysMore
    refine ⟨all, laysAll, fun ⟨one, among, covers⟩ memory p => ?_⟩
    rw [same]
    rcases List.mem_cons.mp among with rfl | among
    · exact List.append_ne_nil_of_right_ne_nil _ (coveredMore covers _ p)
    · exact List.append_ne_nil_of_left_ne_nil (covered ⟨one, among, covers⟩ memory p) _

/-- A transparent picture is black and does not cover, and a picture that is laid over another with
full opacity is blended with it point by point. -/
structure BlendsNormally (place : P → α × α) (studio : Studio (P → Color α)) : Prop where
  transparent : studio.painter.fill Renderer.transparent =
    fun _ => Color.constant Arithmetic.zero
  overlay (picture below : P → Color α) (memory : Memory (P → Color α)) :
    ((studio.overlay picture .normal 1 below).run memory).1 = fun p =>
      blend .normal Arithmetic.one (place p).1 (place p).2 (picture p) (below p)

/-- A visible group of full opacity in which all layers lay coats, and one of them on all points. -/
structure NormalGroup (place : P → α × α) (ι : K → α) (studio : Studio (P → Color α))
    (layer : CompiledLayer) (inside : List LayerTree) : Prop where
  group : ∃ children, layer.kind = .group children
  visible : layer.visible = true
  full : layer.opacity = 1
  lays : ∀ tree ∈ inside, studio.LaysCoats place ι tree
  covers : ∃ tree ∈ inside, studio.Covers place ι tree

theorem paint_passThrough {layer : CompiledLayer} {inside : List LayerTree}
    (h : NormalGroup place ι studio layer inside) :
    studio.paint (.node { layer with blend := .passThrough } inside) 1 =
      studio.paintEach inside 1 := by
  obtain ⟨children, group⟩ := h.group
  funext below
  rw [paint, if_pos h.visible]
  simp only [group, h.full, Renderer.within_one, Float32.mul_one]
  rfl

theorem paint_isolated {layer : CompiledLayer} {inside : List LayerTree}
    (h : NormalGroup place ι studio layer inside) (below : P → Color α) :
    studio.paint (.node { layer with blend := .normal } inside) 1 below =
      studio.paintEach inside 1 (studio.painter.fill Renderer.transparent) >>= fun picture =>
        studio.overlay picture .normal 1 below := by
  obtain ⟨children, group⟩ := h.group
  rw [paint, if_pos h.visible]
  simp only [group, h.full, Float32.mul_one]
  rfl

/-- **Normal colours may be put together before they are laid over what is below them**, and so a
normal group of full opacity looks as if its layers were drawn without it. -/
theorem normal_group_seen_through [IsStrictOrderedRing K] (exact : Exact ι) :
    (∀ (x y : α) (coats : List (Coat K)) (backdrop : Color K), coats ≠ [] →
      (∀ coat ∈ coats, coat.Valid) → backdrop.Valid →
      blend .normal Arithmetic.one x y
          (layered x y (coats.map (Coat.map ι)) (Color.constant Arithmetic.zero))
          (backdrop.map ι) =
        layered x y (coats.map (Coat.map ι)) (backdrop.map ι)) ∧
    ∀ (P : Type) (place : P → α × α) (studio : Studio (P → Color α)),
      BlendsNormally place studio →
      ∀ (layer : CompiledLayer) (inside : List LayerTree),
        NormalGroup place ι studio layer inside →
        ∀ (below : P → Color K) (memory : Memory (P → Color α)), (∀ p, (below p).Valid) →
          ((studio.paint (.node { layer with blend := .normal } inside) 1
              fun p => (below p).map ι).run memory).1 =
            ((studio.paint (.node { layer with blend := .passThrough } inside) 1
              fun p => (below p).map ι).run memory).1 := by
  refine ⟨fun x y coats backdrop nonempty valid b => blend_layered exact x y nonempty valid b, ?_⟩
  intro P place studio blends layer inside group below memory valid
  obtain ⟨coats, ⟨validCoats, after, painted⟩, covered⟩ := lays_each group.lays
  rw [paint_passThrough group, paint_isolated group, StateT.run_bind, painted, painted]
  refine (blends.overlay _ _ _).trans (funext fun p => ?_)
  rw [blends.transparent]
  exact blend_layered exact _ _ (covered group.covers memory p) (validCoats memory p) (valid p)

/-! ### A group of one layer -/

open Arithmetic (Fraction exact_of)

/-- A red that covers a half. -/
def halfRed : Coat ℚ :=
  ⟨⟨1, 0, 0, 1⟩, 1 / 2⟩

/-- Pictures of one point: a program lays a picture on the one below if it is given one, and else
a coat of red. -/
def redPainter : Painter (Unit → Color Fraction) where
  unknown _ _ := Color.constant Arithmetic.zero
  fill _ _ := Color.constant Arithmetic.zero
  upload _ _ _ _ := Color.constant Arithmetic.zero
  draw _ _ _ units point :=
    let below := ((units Renderer.previousUnit).map (· point)).getD (Color.constant Arithmetic.zero)
    match units Renderer.firstFreeUnit with
    | some picture =>
      blend .normal Arithmetic.one Arithmetic.zero Arithmetic.zero (picture point) below
    | none => layered Arithmetic.zero Arithmetic.zero [halfRed.map Fraction.of] below

/-- A studio that paints red. -/
def redStudio : Studio (Unit → Color Fraction) where
  painter := redPainter
  tree := ⟨[], none, default⟩
  frame := {}
  levels := {}
  builtins _ _ _ := []
  size := (1, 1)
  texture := ⟨2, 0, {}⟩
  spectrum _ := Color.constant Arithmetic.zero
  scripts _ := none
  requests := 0

/-- The point of its pictures. -/
def onePoint (_ : Unit) : Fraction × Fraction :=
  (Arithmetic.zero, Arithmetic.zero)

/-- A layer with a program. -/
def redLayer : LayerTree :=
  .node ⟨"red", "", none, true, .normal, 1, [], [], false, .shader { program := some 1 }⟩ []

/-- A group. -/
def redGroup : CompiledLayer :=
  ⟨"group", "", none, true, .normal, 1, [], [], false, .group [1]⟩

theorem halfRed_valid : halfRed.Valid := by
  constructor
  · constructor <;> norm_num [halfRed]
  · norm_num [halfRed]

theorem redStudio_blendsNormally : BlendsNormally onePoint redStudio :=
  ⟨rfl, fun _ _ _ => rfl⟩

theorem redLayer_lays : Lays onePoint Fraction.of (redStudio.paint redLayer 1)
    fun _ _ => [halfRed] := by
  refine ⟨fun _ _ coat among => ?_, id, fun _ _ => ?_⟩
  · rw [List.mem_singleton.mp among]
    exact halfRed_valid
  · unfold redLayer
    rw [paint]
    rfl

theorem redGroup_normal : NormalGroup onePoint Fraction.of redStudio redGroup [redLayer] where
  group := ⟨[1], rfl⟩
  visible := rfl
  full := rfl
  lays _ among := by
    rw [List.mem_singleton.mp among]
    exact ⟨_, redLayer_lays⟩
  covers := ⟨redLayer, List.mem_singleton_self _, _, redLayer_lays,
    fun _ _ => List.cons_ne_nil _ _⟩

/-- What there is before anything was painted. -/
def blankMemory : Memory (Unit → Color Fraction) :=
  ⟨{}, fun _ => 0, fun _ _ => none, fun _ => none⟩

/-- Two coats over a grey that covers a half, and a group of one layer over it. -/
theorem normal_group_seen_through_red :
    [halfRed, halfRed] ≠ [] ∧ (∀ coat ∈ [halfRed, halfRed], coat.Valid) ∧
    (Color.constant (1 / 2 : ℚ)).Valid ∧ BlendsNormally onePoint redStudio ∧
    NormalGroup onePoint Fraction.of redStudio redGroup [redLayer] ∧
    blend .normal Arithmetic.one Arithmetic.zero Arithmetic.zero
        (layered Arithmetic.zero Arithmetic.zero ([halfRed, halfRed].map (Coat.map Fraction.of))
          (Color.constant Arithmetic.zero)) ((Color.constant (1 / 2 : ℚ)).map Fraction.of) =
      layered Arithmetic.zero Arithmetic.zero ([halfRed, halfRed].map (Coat.map Fraction.of))
        ((Color.constant (1 / 2 : ℚ)).map Fraction.of) ∧
    ((redStudio.paint (.node { redGroup with blend := .normal } [redLayer]) 1
        fun _ => (Color.constant (1 / 2 : ℚ)).map Fraction.of).run blankMemory).1 =
      ((redStudio.paint (.node { redGroup with blend := .passThrough } [redLayer]) 1
        fun _ => (Color.constant (1 / 2 : ℚ)).map Fraction.of).run blankMemory).1 := by
  have nonempty : [halfRed, halfRed] ≠ [] := List.cons_ne_nil _ _
  have valid : ∀ coat ∈ [halfRed, halfRed], coat.Valid := by simp [halfRed_valid]
  have backdrop : (Color.constant (1 / 2 : ℚ)).Valid := by
    constructor <;> norm_num [Color.constant]
  obtain ⟨coats, groups⟩ := normal_group_seen_through exact_of
  exact ⟨nonempty, valid, backdrop, redStudio_blendsNormally, redGroup_normal,
    coats _ _ _ _ nonempty valid backdrop,
    groups Unit onePoint redStudio redStudio_blendsNormally redGroup [redLayer] redGroup_normal
      (fun _ => Color.constant (1 / 2)) blankMemory fun _ => backdrop⟩

end Studio
end Collage
