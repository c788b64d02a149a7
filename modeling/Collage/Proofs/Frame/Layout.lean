import Collage.Proofs.Frame.Balance
import Collage.Proofs.Frame.Counting

/-!
# What is left of a history of sizes

The `Layout` of a pool is its level of anti-aliasing, the size at which layers are drawn and the
sizes of its ladder.  A new pool is laid out as its size and its level say (`create_layout`), and
the level is the highest one that was asked for at which the size still fits.

When a renderer gets another size its pool is made anew only if it has anti-aliasing; otherwise
the targets stay and there is no ladder.  So the level is that of a new pool until for some size
nothing but the level one fits, and from then on it is one (`Stands.resize`, and `Stands.resizeAll`
for sizes one after another).  `layout_resized_iff` says when the layout is nevertheless that of a
new pool for the last size, and `exists_layout_kept` gives sizes for which it is not.
-/

namespace Collage

/-- How a pool is laid out. -/
structure Layout where
  level : Nat
  /-- the size at which layers are drawn -/
  size : Nat × Nat
  /-- the sizes of the ladder -/
  rungs : List (Nat × Nat)
  deriving Repr, DecidableEq

namespace RenderTargets

open Collage.Action

/-- The sizes of the ladder. -/
def rungs (pool : RenderTargets) : List (Nat × Nat) :=
  pool.ladder.filterMap fun id => (pool.targets[id]?).map fun target => (target.width, target.height)

/-- How a pool is laid out. -/
def layout (pool : RenderTargets) : Layout :=
  ⟨pool.antiAlias, pool.renderSize, pool.rungs⟩

/-! ### The level -/

theorem lowerLevel_fits (longest maxDimension : Nat) : ∀ (steps level : Nat),
    level < twoPow (steps + 1) → ∀ lowered, lowerLevel longest maxDimension steps level = lowered →
      1 < lowered → longest * lowered ≤ maxDimension
  | 0, level, small, lowered, same, above => by
    rw [lowerLevel] at same
    exact absurd small (Nat.not_lt.mpr (same ▸ above))
  | steps + 1, level, small, lowered, same, above => by
    rw [lowerLevel] at same
    split at same
    · rw [twoPow_succ] at small
      exact lowerLevel_fits longest maxDimension steps (level / 2) (by omega) lowered same above
    · next fits =>
      subst same
      exact Nat.le_of_not_lt fun large => fits ⟨above, large⟩

theorem raiseLevel_lt (requested : Nat) : ∀ (steps level : Nat), level < twoPow 32 →
    raiseLevel requested steps level < twoPow 32
  | 0, _, small => small
  | steps + 1, level, small => by
    rw [raiseLevel]
    split
    · exact raiseLevel_lt requested steps _ (Nat.mod_lt _ (by decide))
    · exact small

theorem achievableAntiAlias_fits {width height requested maxDimension : Nat}
    (above : 1 < achievableAntiAlias width height requested maxDimension) :
    max (max width height) 1 * achievableAntiAlias width height requested maxDimension ≤
      maxDimension := by
  refine lowerLevel_fits _ _ 33 _ ?_ _ rfl above
  exact Nat.lt_trans (raiseLevel_lt requested endless 1 (by decide)) (by decide)

theorem half_achievableAntiAlias_fits {width height side : Nat} (requested maxDimension : Nat)
    (small : side ≤ max (max width height) 1) :
    side * (achievableAntiAlias width height requested maxDimension / 2) ≤ maxDimension := by
  by_cases single : achievableAntiAlias width height requested maxDimension < 2
  · rw [Nat.div_eq_of_lt single, Nat.mul_zero]
    exact Nat.zero_le _
  · exact Nat.le_trans (Nat.mul_le_mul small (Nat.div_le_self _ 2))
      (achievableAntiAlias_fits (by omega))

theorem achievableAntiAlias_max (width height requested maxDimension : Nat) :
    achievableAntiAlias (max width 1) (max height 1) requested maxDimension =
      achievableAntiAlias width height requested maxDimension := by
  unfold achievableAntiAlias
  congr 1
  omega

/-! ### A new pool -/

/-- A number and its halves, down to two, given enough steps. -/
def halvings : Nat → Nat → List Nat
  | 0, _ => []
  | steps + 1, factor => if factor < 2 then [] else factor :: halvings steps (factor / 2)

end RenderTargets

/-- The layout for an output of a size at a level. -/
def Layout.of (size : Nat × Nat) (level : Nat) : Layout where
  level := level
  size := (max size.1 1 * level, max size.2 1 * level)
  rungs := (RenderTargets.halvings 32 (level / 2)).map fun factor =>
    (max size.1 1 * factor, max size.2 1 * factor)

theorem Layout.of_congr {size other : Nat × Nat}
    (same : (max size.1 1, max size.2 1) = (max other.1 1, max other.2 1)) (level : Nat) :
    Layout.of size level = Layout.of other level := by
  obtain ⟨first, second⟩ := Prod.mk.inj same
  rw [Layout.of, Layout.of, first, second]

theorem Layout.of_inj {size : Nat × Nat} {level other : Nat} :
    Layout.of size level = Layout.of size other ↔ level = other :=
  ⟨fun same => congrArg Layout.level same, fun same => same ▸ rfl⟩

namespace RenderTargets

open Collage.Action

/-- A pool for an output of a size that is laid out for it at a level. -/
structure Laid (size : Nat × Nat) (level : Nat) (pool : RenderTargets) : Prop where
  output : pool.outputSize = (max size.1 1, max size.2 1)
  layout : pool.layout = Layout.of size level

theorem sizes_by_place : ∀ targets : List RenderTarget,
    ((List.range targets.length).filterMap fun id =>
      (targets[id]?).map fun target => (target.width, target.height)) =
      targets.map fun target => (target.width, target.height)
  | [] => rfl
  | target :: rest => by
    rw [List.length_cons, List.range_succ_eq_map, List.filterMap_cons, List.getElem?_cons_zero,
      Option.map_some, List.map_cons, List.filterMap_map, ← sizes_by_place rest]
    rfl

theorem Laddered.rungs_eq {pool : RenderTargets} (h : Laddered pool) :
    pool.rungs = pool.targets.map fun target => (target.width, target.height) := by
  rw [rungs, h.ladder, sizes_by_place]

theorem newFramebuffer_fits {width height : Nat} (device : Device)
    (wide : 0 < width ∧ width ≤ device.traits.maxDimension)
    (high : 0 < height ∧ height ≤ device.traits.maxDimension) :
    (newFramebuffer width height).Yields device
      (fun _ later => later.traits = device.traits)
      fun _ _ => ∃ asked, device.traits.framebuffersExhausted asked = true := by
  refine ((newFramebuffer_yields width height device).and
    (newFramebuffer_silent width height device)).mono ?_ ?_
  · rintro handles later ⟨-, told⟩
    exact told.traits
  · rintro failure later ⟨⟨cause, failed, -⟩, -⟩
    unfold Device.createFramebuffer at failed
    dsimp only at failed
    split at failed
    · next exhausted => exact ⟨_, exhausted⟩
    · rw [if_neg (by omega)] at failed
      cases failed

/-- **Each rung that is added has half the size of the one before.** -/
theorem buildLadder_sizes : ∀ (steps factor : Nat) {pool : RenderTargets} (device : Device),
    0 < pool.width ∧ pool.width * factor ≤ device.traits.maxDimension →
    0 < pool.height ∧ pool.height * factor ≤ device.traits.maxDimension →
    (buildLadder steps factor pool).Yields device
      (fun built _ => built.outputSize = pool.outputSize ∧
        built.targets.map (fun target => (target.width, target.height)) =
          pool.targets.map (fun target => (target.width, target.height)) ++
            (halvings steps factor).map fun factor => (pool.width * factor, pool.height * factor))
      fun _ _ => ∃ asked, device.traits.framebuffersExhausted asked = true
  | 0, _, pool, _, _, _ => Yields.pure ⟨rfl, by rw [halvings, List.map_nil, List.append_nil]⟩
  | steps + 1, factor, pool, device, wide, high => by
    unfold buildLadder
    split
    · next last => exact Yields.pure ⟨rfl, by
        rw [halvings, if_pos last, List.map_nil, List.append_nil]⟩
    · next more =>
      have half : ∀ {side most : Nat}, side * factor ≤ most → side * (factor / 2) ≤ most :=
        fun fits => Nat.le_trans (Nat.mul_le_mul_left _ (Nat.div_le_self factor 2)) fits
      have some : 0 < factor := by omega
      refine (newFramebuffer_fits device ⟨Nat.mul_pos wide.1 some, wide.2⟩
        ⟨Nat.mul_pos high.1 some, high.2⟩).bind ?_ fun _ _ exhausted => exhausted
      rintro ⟨framebuffer, texture⟩ later same
      rw [← same] at wide high ⊢
      refine Yields.mono (buildLadder_sizes steps (factor / 2) later ⟨wide.1, half wide.2⟩
        ⟨high.1, half high.2⟩) ?_ fun _ _ exhausted => exhausted
      rintro built _ ⟨output, sizes⟩
      refine ⟨output, ?_⟩
      rw [sizes, halvings, if_neg more, List.map_append, List.map_cons, List.append_assoc]
      rfl

/-- A pool is created by building a ladder for it, of which the largest rung fits. -/
theorem create_by_ladder {width height antiAlias : Nat} {device : Device}
    {ok : RenderTargets → Device → Prop} {failed : Failure → Device → Prop}
    (built : ∀ level,
      level = achievableAntiAlias width height antiAlias device.traits.maxDimension →
      0 < max width 1 ∧ max width 1 * (level / 2) ≤ device.traits.maxDimension →
      0 < max height 1 ∧ max height 1 * (level / 2) ≤ device.traits.maxDimension →
      (buildLadder 32 (level / 2)
        { width := max width 1, height := max height 1, antiAlias := level }).Yields
        device ok failed) :
    (create width height antiAlias).Yields device ok failed := by
  unfold create
  refine Yields.get (built _ rfl ⟨Nat.le_max_right _ _, ?_⟩ ⟨Nat.le_max_right _ _, ?_⟩)
  · exact half_achievableAntiAlias_fits antiAlias _ (by omega)
  · exact half_achievableAntiAlias_fits antiAlias _ (by omega)

/-- **A new pool is laid out for its size at the level that fits**; it can only fail for want of
memory. -/
theorem create_layout (width height antiAlias : Nat) (device : Device) :
    (create width height antiAlias).Yields device
      (fun pool _ => pool.Laid (width, height)
        (achievableAntiAlias width height antiAlias device.traits.maxDimension))
      fun _ _ => ∃ asked, device.traits.framebuffersExhausted asked = true := by
  refine create_by_ladder fun level is wide high => ?_
  rw [← is]
  refine Yields.mono (Yields.and
    (buildLadder_laddered 32 (level / 2) device ⟨rfl, rfl, rfl, List.forall_mem_nil _⟩)
    (buildLadder_sizes 32 (level / 2) device wide high)) ?_ fun _ _ failed => failed.2
  rintro pool _ ⟨⟨ladder, same, -⟩, output, sizes⟩
  refine ⟨output, ?_⟩
  have drawn : pool.renderSize = (max width 1 * level, max height 1 * level) := by
    obtain ⟨first, second⟩ := Prod.mk.inj output
    rw [renderSize, first, second, same]
  rw [layout, ladder.rungs_eq, sizes, same, drawn]
  rfl

/-! ### Another size -/

theorem rungs_resized (pool : RenderTargets) (width height : Nat) :
    (pool.resized width height).rungs = pool.rungs.map fun _ => (width, height) := by
  rw [rungs, rungs, List.map_filterMap]
  refine List.filterMap_congr fun id _ => ?_
  rw [resized, List.getElem?_map, Option.map_map, Option.map_map]
  rfl

/-- **Without anti-aliasing a pool that gets another size is laid out for it.** -/
theorem Laid.resized {pool : RenderTargets} {size : Nat × Nat} (h : pool.Laid size 1)
    (width height : Nat) :
    (pool.resized (max width 1) (max height 1)).Laid (width, height) 1 := by
  have single : pool.antiAlias = 1 := congrArg Layout.level h.layout
  have bare : pool.rungs = [] := congrArg Layout.rungs h.layout
  have none : (pool.resized (max width 1) (max height 1)).rungs = [] := by
    rw [rungs_resized, bare, List.map_nil]
  refine ⟨rfl, ?_⟩
  rw [RenderTargets.layout, none, renderSize, RenderTargets.resized, single]
  rfl

end RenderTargets

namespace Renderer

open Collage.Action

variable {ℓ : Type} {start renderer : Renderer ℓ} {size : Nat × Nat} {level : Nat}

/-- The level of a new pool for a size. -/
def levelFor (renderer : Renderer ℓ) (size : Nat × Nat) : Nat :=
  RenderTargets.achievableAntiAlias size.1 size.2 renderer.options.antiAlias
    renderer.device.traits.maxDimension

/-- The level at another size; it never leaves one. -/
def levelAfter (renderer : Renderer ℓ) (level : Nat) (size : Nat × Nat) : Nat :=
  if level = 1 then 1 else renderer.levelFor size

/-- A renderer whose pool is laid out for a size, at the level one or that of a new pool, with
the options and the device of its start. -/
structure Stands (start : Renderer ℓ) (size : Nat × Nat) (level : Nat) (renderer : Renderer ℓ) :
    Prop where
  laid : renderer.targets.Laid size level
  either : level = 1 ∨ level = start.levelFor size
  antiAlias : renderer.options.antiAlias = start.options.antiAlias
  traits : renderer.device.traits = start.device.traits

/-- **Another size** in place. -/
theorem Stands.inPlace (h : Stands start size 1 renderer) (width height : Nat) :
    (onTargets (RenderTargets.resize width height) : Action (Renderer ℓ) Unit).Yields renderer
      (fun _ after => Stands start (width, height) 1 after) fun _ _ => True := by
  refine (onTargets_yields ((RenderTargets.resize_yields width height renderer.device
    renderer.targets).and (RenderTargets.resize_silent width height _))).mono ?_
    fun _ _ _ => trivial
  rintro _ _ ⟨⟨device, targets⟩, ⟨⟨-, -, rfl⟩, told⟩, rfl⟩
  exact ⟨h.laid.resized width height, .inl rfl, h.antiAlias, told.traits.trans h.traits⟩

/-- **Another size** by new targets. -/
theorem Stands.rebuilt (h : Stands start size level renderer) (width height : Nat) :
    (rebuildTargets width height : Action (Renderer ℓ) Unit).Yields renderer
      (fun _ after => Stands start (width, height) (start.levelFor (width, height)) after)
      fun _ _ => True := by
  unfold rebuildTargets
  refine Yields.get (Yields.bind (Yields.within ((RenderTargets.create_layout width height
    renderer.options.antiAlias renderer.device).and (RenderTargets.create_silent width height
    renderer.options.antiAlias renderer.device))) ?_ fun _ _ _ => trivial)
  rintro rebuilt _ ⟨later, ⟨laid, told⟩, rfl⟩
  refine Yields.modify ((Yields.within (RenderTargets.delete_silent _)).mono ?_
    fun _ _ _ => trivial)
  rintro _ _ ⟨⟨device, targets⟩, deleted, rfl⟩
  rw [h.antiAlias, h.traits] at laid
  exact ⟨laid, .inr rfl, h.antiAlias, deleted.traits.trans (told.traits.trans h.traits)⟩

theorem levelFor_congr {other : Nat × Nat}
    (same : (max size.1 1, max size.2 1) = (max other.1 1, max other.2 1)) :
    renderer.levelFor size = renderer.levelFor other := by
  obtain ⟨first, second⟩ := Prod.mk.inj same
  rw [levelFor, ← RenderTargets.achievableAntiAlias_max, first, second,
    RenderTargets.achievableAntiAlias_max]
  rfl

theorem Stands.congr (h : Stands start size level renderer) {other : Nat × Nat}
    (same : (max size.1 1, max size.2 1) = (max other.1 1, max other.2 1)) :
    Stands start other (start.levelAfter level other) renderer := by
  have kept : start.levelAfter level other = level := by
    rw [levelAfter, ← levelFor_congr same]
    split
    · next single => exact single.symm
    · next more => exact (h.either.resolve_left more).symm
  rw [kept]
  exact ⟨⟨h.laid.output.trans same, h.laid.layout.trans (Layout.of_congr same level)⟩,
    levelFor_congr same ▸ h.either, h.antiAlias, h.traits⟩

/-- **A renderer that gets another size** stands there at the level one if it had that, and else
at the level of a new pool. -/
theorem Stands.resize (h : Stands start size level renderer) (width height : Nat) :
    (resize width height).Yields renderer
      (fun _ after => Stands start (width, height) (start.levelAfter level (width, height)) after)
      fun _ _ => True := by
  have current : renderer.targets.antiAlias = level := congrArg Layout.level h.laid.layout
  unfold Renderer.resize
  refine Yields.get ?_
  split
  · next same =>
    rw [h.laid.output] at same
    exact Yields.pure (h.congr same)
  · split
    · next single =>
      obtain rfl := current.symm.trans single
      exact (h.inPlace width height).bind (fun _ _ stands => Yields.modified
        ⟨stands.laid, .inl rfl, stands.antiAlias, stands.traits⟩) fun _ _ _ => trivial
    · next more =>
      rw [current] at more
      rw [levelAfter, if_neg more]
      exact (h.rebuilt width height).bind (fun _ _ stands => Yields.modified
        ⟨stands.laid, .inr rfl, stands.antiAlias, stands.traits⟩) fun _ _ _ => trivial

/-! ### Sizes one after another -/

/-- Sets sizes one after another. -/
def resizeAll : List (Nat × Nat) → Action (Renderer ℓ) Unit
  | [] => pure ()
  | (width, height) :: rest => do
    resize width height
    resizeAll rest

/-- **Sizes one after another.** -/
theorem Stands.resizeAll : ∀ (sizes : List (Nat × Nat)) {size : Nat × Nat} {level : Nat}
    {renderer : Renderer ℓ}, Stands start size level renderer →
    (resizeAll sizes).Yields renderer
      (fun _ after => Stands start (sizes.getLastD size) (sizes.foldl start.levelAfter level) after)
      fun _ _ => True
  | [], _, _, _, h => Yields.pure h
  | (width, height) :: rest, size, level, renderer, h => by
    rw [Renderer.resizeAll]
    refine (h.resize width height).bind (fun _ after stands => ?_) fun _ _ _ => trivial
    exact (Stands.resizeAll rest stands).mono (fun _ _ stands => by
      rwa [List.getLastD_cons]) fun _ _ _ => trivial

theorem foldl_levelAfter_eq_one : ∀ (sizes : List (Nat × Nat)) (level : Nat),
    sizes.foldl start.levelAfter level = 1 ↔
      level = 1 ∨ ∃ size ∈ sizes, start.levelFor size = 1
  | [], level => by simp
  | size :: rest, level => by
    have step : start.levelAfter level size = 1 ↔ level = 1 ∨ start.levelFor size = 1 := by
      rw [levelAfter]
      split <;> simp [*]
    rw [List.foldl_cons, foldl_levelAfter_eq_one rest, step, List.exists_mem_cons_iff, or_assoc]

theorem foldl_levelAfter_eq_iff (first : Nat × Nat) (sizes : List (Nat × Nat)) :
    sizes.foldl start.levelAfter (start.levelFor first) = start.levelFor (sizes.getLastD first) ↔
      start.levelFor (sizes.getLastD first) = 1 ∨
        ∀ size ∈ (first :: sizes).dropLast, start.levelFor size ≠ 1 := by
  rcases List.eq_nil_or_concat sizes with rfl | ⟨before, last, rfl⟩
  · simp
  · have single : before.foldl start.levelAfter (start.levelFor first) = 1 ↔ _ :=
      foldl_levelAfter_eq_one before (start.levelFor first)
    rw [List.concat_eq_append, List.foldl_append, ← List.cons_append, List.dropLast_concat,
      List.getLastD_concat, List.foldl_cons, List.foldl_nil, levelAfter, List.forall_mem_cons]
    split
    · next one =>
      have reached : ¬ (start.levelFor first ≠ 1 ∧ ∀ size ∈ before, start.levelFor size ≠ 1) :=
        fun above => (single.mp one).elim above.1 fun ⟨size, inside, at_size⟩ =>
          above.2 size inside at_size
      exact ⟨fun at_last => .inl at_last.symm, fun at_last =>
        (at_last.resolve_right reached).symm⟩
    · next more =>
      have above := not_or.mp (mt single.mpr more)
      exact iff_of_true rfl (.inr ⟨above.1, fun size inside one => above.2 ⟨size, inside, one⟩⟩)

/-! ### The beginning -/

/-- A renderer with a new pool for a size. -/
def Furnished (size : Nat × Nat) (renderer : Renderer ℓ) : Prop :=
  ∃ earlier later, earlier.traits = renderer.device.traits ∧
    (RenderTargets.create size.1 size.2 renderer.options.antiAlias).runOn earlier =
      (.ok renderer.targets, later)

/-- **A renderer that is made is furnished for the size of its options.** -/
theorem create_furnished (options : RendererOptions) (loader : ℓ) (device : Device) :
    (create options loader).Yields device
      (fun renderer _ => Furnished (options.width, options.height) renderer) fun _ _ => True := by
  have any : (StandingPrograms.create options.version).Yields device (fun _ _ => True)
      fun _ _ => True := Yields.after_iff.mpr trivial
  have pool : ∀ earlier, (RenderTargets.create options.width options.height
      options.antiAlias).Yields earlier (fun targets later => ∃ earlier : Device,
        (RenderTargets.create options.width options.height options.antiAlias).runOn earlier =
          (.ok targets, later) ∧ later.traits = earlier.traits) fun _ _ => True := fun earlier =>
    (RenderTargets.create_silent _ _ _ earlier).ran.mono
      (fun _ _ ⟨created, told⟩ => ⟨earlier, created, told.traits⟩) fun _ _ _ => trivial
  refine create_by_parts any (fun _ earlier _ => pool earlier) (fun _ _ _ _ _ _ _ => trivial) ?_
  rintro programs targets later ⟨earlier, created, same⟩ spectrum last made
  have kept := (later.tells_createTexture .linear .clamp).traits
  rw [made] at kept
  exact ⟨earlier, later, (kept.trans same).symm, created⟩

theorem Furnished.stands (h : Furnished size renderer) :
    Stands renderer size (renderer.levelFor size) renderer := by
  obtain ⟨earlier, later, same, created⟩ := h
  have laid := Yields.of_ok created (RenderTargets.create_layout _ _ _ _)
  rw [same] at laid
  exact ⟨laid, .inr rfl, rfl, rfl⟩

/-- **After sizes that were set one after another** the pool is laid out as a new one for the last
just if nothing fits there but the level one, or more did at all sizes before. -/
theorem layout_resized_iff (first : Nat × Nat) (sizes : List (Nat × Nat)) (renderer : Renderer ℓ)
    (furnished : Furnished first renderer) (device : Device)
    (same : device.traits.maxDimension = renderer.device.traits.maxDimension) :
    (resizeAll sizes).Yields renderer
      (fun _ after =>
        (RenderTargets.create (sizes.getLastD first).1 (sizes.getLastD first).2
          renderer.options.antiAlias).Yields device
          (fun fresh _ => after.targets.layout = fresh.layout ↔
            renderer.levelFor (sizes.getLastD first) = 1 ∨
              ∀ size ∈ (first :: sizes).dropLast, renderer.levelFor size ≠ 1)
          fun _ _ => ∃ asked, device.traits.framebuffersExhausted asked = true)
      fun _ _ => True := by
  refine (furnished.stands.resizeAll sizes).mono (fun _ after stands => ?_) fun _ _ _ => trivial
  refine (RenderTargets.create_layout _ _ _ device).mono (fun fresh _ laid => ?_) fun _ _ => id
  rw [same] at laid
  rw [stands.laid.layout, laid.layout, ← foldl_levelAfter_eq_iff]
  exact Layout.of_inj

/-- A renderer for an output of eight by eight with anti-aliasing, on a device whose textures have
at most sixty-four pixels a side. -/
def narrow : Renderer NoLoader where
  device := ((RenderTargets.create 8 8 4).runOn { traits := { maxDimension := 64 } }).2
  options := { width := 8, height := 8, antiAlias := 4 }
  targets :=
    { targets := [⟨2, 1, 16, 16, .permanent⟩], ladder := [0], width := 8, height := 8,
      antiAlias := 4 }
  programs := default
  spectrum := 0
  loader := {}
  external := ExternalLayers.create 2

theorem narrow_furnished : Furnished (8, 8) narrow := by
  have same : narrow.device.traits = { maxDimension := 64 } := by
    have made : narrow.device =
        ((RenderTargets.create 8 8 4).runOn { traits := { maxDimension := 64 } }).2 := by
      rw [narrow]
    rw [made]
    exact (Keeps.after_iff.mp (RenderTargets.create_silent 8 8 4) _).traits
  exact ⟨{ traits := { maxDimension := 64 } }, _, same.symm, runOn_eq_ok (by decide +kernel)⟩

theorem layout_resized_iff_narrow :
    Furnished (8, 8) narrow ∧ (resizeAll [(64, 64), (8, 8)]).Yields narrow
      (fun _ after => (RenderTargets.create 8 8 4).Yields narrow.device
        (fun fresh _ => after.targets.layout = fresh.layout ↔
          narrow.levelFor (8, 8) = 1 ∨
            ∀ size ∈ [(8, 8), (64, 64)], narrow.levelFor size ≠ 1)
        fun _ _ => ∃ asked, narrow.device.traits.framebuffersExhausted asked = true)
      fun _ _ => True := by
  have furnished := narrow_furnished
  have four : narrow.options.antiAlias = 4 := rfl
  -- of `narrow` itself, whatever is said would be run to see what it says
  generalize narrow = renderer at furnished four ⊢
  refine ⟨furnished, ?_⟩
  rw [← four]
  exact layout_resized_iff (8, 8) [(64, 64), (8, 8)] renderer furnished renderer.device rfl

/-- **The layout can depend on the sizes before**: where nothing but the level one fits the
renderer loses its anti-aliasing, and at the size that it began with it does not have it again. -/
theorem exists_layout_kept : ∃ after fresh later, Furnished (8, 8) narrow ∧
    (resizeAll [(64, 64), (8, 8)]).runOn narrow = (.ok (), after) ∧
    (RenderTargets.create 8 8 narrow.options.antiAlias).runOn after.device = (.ok fresh, later) ∧
    after.targets.layout = ⟨1, (8, 8), []⟩ ∧ fresh.layout = ⟨4, (32, 32), [(16, 16)]⟩ := by
  let fresh : RenderTargets :=
    { targets := [⟨4, 3, 16, 16, .permanent⟩], ladder := [0], width := 8, height := 8,
      antiAlias := 4 }
  exact ⟨_, fresh, _, narrow_furnished, runOn_eq_ok (by decide +kernel),
    runOn_eq_ok (by decide +kernel), by decide +kernel, by decide +kernel⟩

end Renderer
end Collage
