import Collage.Proofs.Device.Orders
import Collage.Proofs.Frame.Pool

/-!
# The life of a pool

A pool begins with its ladder: `create_yields` says that nothing of it is in use, and that
no texture is shared, whatever other textures there are.  It stays so when all targets get
another size (`resize_yields`).  A pool that is deleted takes its framebuffers with it and
leaves all others (`delete_yields`).  In all of this the device is told nothing that is drawn,
and behaves as before (`Follows`).
-/

namespace Collage
namespace RenderTargets

open Collage.Action

variable {device later : Device} {pool : RenderTargets} {others : List Handle}

/-- A pool on a device that has gone on: nothing is in use, and no texture is shared. -/
structure Begun (before : Device) (others : List Handle) (pool : RenderTargets)
    (device : Device) : Prop where
  idle : pool.Idle
  fresh : device.Fresh
  onward : Device.Onward before device
  apart : pool.Apart device others

/-! ### Creating -/

/-- A rung is added to the ladder. -/
theorem Holding.rung {held : List Nat} (h : pool.Holding held) {target : RenderTarget}
    (permanent : target.use = .permanent) :
    Holding { pool with
      targets := pool.targets ++ [target]
      ladder := pool.ladder ++ [pool.targets.length] } held := by
  have isNew : pool.targets.length ∉ pool.ladder := fun rung =>
    Nat.lt_irrefl _ (h.lt_of_rung rung)
  refine ⟨h.alive, ?_, h.once, fun id => ?_, fun id inside => ?_,
    fun id inside => (h.taken id inside).append _, fun id inside => (h.free id inside).append _,
    h.sized_append fun moved => absurd permanent moved⟩
  · dsimp only
    rw [← List.concat_eq_append]
    exact h.ladder.concat isNew
  · rw [h.known id, List.length_append, List.length_singleton, List.mem_append,
      List.mem_singleton]
    constructor
    · rintro ⟨inside, notRung⟩
      refine ⟨Nat.lt_succ_of_lt inside, ?_⟩
      rintro (rung | rfl)
      · exact notRung rung
      · exact Nat.lt_irrefl _ inside
    · rintro ⟨inside, notRung⟩
      refine ⟨?_, fun rung => notRung (.inl rung)⟩
      exact Nat.lt_of_le_of_ne (Nat.le_of_lt_succ inside) fun same => notRung (.inr same)
  · rcases List.mem_append.mp inside with inside | inside
    · exact (h.rungs id inside).append _
    · cases List.mem_singleton.mp inside
      exact permanent ▸ UsedAs.last target

theorem fresh_of_error {cause : DeviceFailure} {width height : Nat} (fresh : device.Fresh)
    (failed : device.createFramebuffer width height = (.error cause, later)) :
    later.Fresh ∧ Device.Onward device later := by
  rcases Device.createFramebuffer_error failed with rfl | rfl
  · exact ⟨⟨fresh.once, fresh.below⟩, Nat.le_refl _, fun _ _ => rfl⟩
  · exact ⟨⟨fresh.once, fresh.below⟩, Nat.le_refl _, fun _ _ => rfl⟩

/-- **Each rung that is added leaves the pool idle and apart.** -/
theorem buildLadder_yields {before : Device} : ∀ (steps factor : Nat) {pool : RenderTargets}
    {device : Device}, Begun before others pool device →
    (buildLadder steps factor pool).Yields device (Begun before others)
      fun _ later => later.Fresh ∧ Device.Onward before later
  | 0, _, _, _, h => Yields.pure h
  | steps + 1, factor, pool, device, h => by
    unfold buildLadder
    split
    · exact Yields.pure h
    · refine (newFramebuffer_yields _ _ device).bind ?_ ?_
      · rintro ⟨framebuffer, texture⟩ later created
        refine buildLadder_yields steps (factor / 2)
          ⟨h.idle.rung rfl, (Device.createFramebuffer_fresh h.fresh created).1, ?_, ?_⟩
        · have onward := device.onward_createFramebuffer (pool.width * factor)
            (pool.height * factor)
          rw [created] at onward
          exact h.onward.trans onward
        · refine h.apart.append created ?_
          rw [handles, List.map_append]
          rfl
      · rintro failure later ⟨cause, failed, _⟩
        obtain ⟨fresh, onward⟩ := fresh_of_error h.fresh failed
        exact ⟨fresh, h.onward.trans onward⟩

/-- **A pool begins with nothing in use and with textures of its own.** -/
theorem create_yields (width height antiAlias : Nat) (fresh : device.Fresh)
    (given : ∀ texture ∈ others, texture < device.nextHandle) :
    (create width height antiAlias).Yields device (Begun device others)
      fun _ later => later.Fresh ∧ Device.Onward device later := by
  unfold create
  refine Yields.get (buildLadder_yields 32 _ ⟨idle_empty, fresh, .refl device, ?_⟩)
  exact ⟨given, List.forall_mem_nil _, List.nodup_nil, List.forall_mem_nil _,
    List.forall_mem_nil _⟩

/-! ### Another size -/

/-- All targets in another size. -/
def resized (pool : RenderTargets) (width height : Nat) : RenderTargets :=
  { pool with
    width
    height
    targets := pool.targets.map fun target => { target with width, height } }

theorem handles_resized (pool : RenderTargets) (width height : Nat) :
    (pool.resized width height).handles = pool.handles := by
  rw [handles, handles, resized, List.map_map]
  rfl

/-- Who holds a target does not depend on its size; without anti-aliasing it is that at which
layers are drawn. -/
theorem Holding.resized {held : List Nat} (h : pool.Holding held) (single : pool.antiAlias = 1)
    (width height : Nat) : (pool.resized width height).Holding held := by
  have used : ∀ {id use}, pool.UsedAs id use → (pool.resized width height).UsedAs id use := by
    rintro id use ⟨target, found, same⟩
    exact ⟨{ target with width, height }, by
      rw [RenderTargets.resized, List.getElem?_map, found, Option.map_some], same⟩
  refine ⟨h.alive, h.ladder, h.once, fun id => ?_, fun id inside => used (h.rungs id inside),
    fun id inside => used (h.taken id inside), fun id inside => used (h.free id inside),
    fun id target found moved => ?_⟩
  · refine (h.known id).trans ?_
    rw [RenderTargets.resized, List.length_map]
  · rw [RenderTargets.resized, List.getElem?_map] at found
    obtain ⟨before, there, rfl⟩ := Option.map_eq_some_iff.mp found
    have level : (pool.resized width height).antiAlias = 1 := single
    rw [renderSize, level, Nat.mul_one, Nat.mul_one]
    rfl

/-- **A pool that gets another size** keeps its targets, or it refuses. -/
theorem resize_yields (width height : Nat) (device : Device) (pool : RenderTargets) :
    (resize width height).Yields (device, pool)
      (fun _ after => pool.antiAlias = 1 ∧ Device.Calm device after.1 ∧
        after.2 = pool.resized (max width 1) (max height 1))
      fun _ after => after = (device, pool) := by
  unfold resize
  refine Yields.get ?_
  dsimp only
  split
  · exact Yields.throw rfl
  · split
    · exact Yields.throw rfl
    · next single =>
      refine Yields.modified ⟨not_not.mp single, ?_, rfl⟩
      exact Device.Calm.foldl (fun device target =>
        device.calm_resizeFramebuffer target.framebuffer _ _) pool.targets device

/-! ### The end of a pool -/

theorem keys_foldl_deleteFramebuffer (targets : List RenderTarget) (device : Device) :
    (targets.foldl (fun device target => device.deleteFramebuffer target.framebuffer)
      device).framebuffers.keys =
      device.framebuffers.keys.filter (· ∉ targets.map (·.framebuffer)) := by
  induction targets generalizing device with
  | nil => simp
  | cons target rest ih =>
    rw [List.foldl_cons, ih, Device.keys_deleteFramebuffer, List.filter_filter]
    refine List.filter_congr fun key _ => ?_
    by_cases same : key = target.framebuffer <;> simp [same]

theorem onward_foldl_deleteFramebuffer (targets : List RenderTarget) (device : Device) :
    Device.Onward device (targets.foldl
      (fun device target => device.deleteFramebuffer target.framebuffer) device) := by
  induction targets generalizing device with
  | nil => exact .refl device
  | cons target rest ih => exact (device.onward_deleteFramebuffer _).trans (ih _)

/-- **A pool of which nothing is in use can be deleted**; its framebuffers go with it. -/
theorem delete_yields (device : Device) {pool : RenderTargets} (idle : pool.Idle)
    {failed : Failure → State → Prop} :
    delete.Yields (device, pool)
      (fun _ after => Device.Onward device after.1 ∧ after.1.framebuffers.keys =
        device.framebuffers.keys.filter (· ∉ pool.framebuffers)) failed := by
  have none : pool.inUse.length = 0 := idle.inUse_perm.length_eq
  unfold delete
  refine Yields.get ?_
  dsimp only
  rw [if_neg (by simp [idle.alive]), if_neg (by omega)]
  have keys := keys_foldl_deleteFramebuffer pool.targets device
  have same : pool.framebuffers = pool.targets.map (·.framebuffer) := by
    rw [framebuffers, handles, List.map_map]
    rfl
  rw [← same] at keys
  exact Yields.modified ⟨onward_foldl_deleteFramebuffer _ _, keys⟩

theorem delete_after (device : Device) {pool : RenderTargets} (idle : pool.Idle) :
    Device.Onward device (delete.runOn (device, pool)).2.1 ∧
      (delete.runOn (device, pool)).2.1.framebuffers.keys =
        device.framebuffers.keys.filter (· ∉ pool.framebuffers) := by
  have deleted : delete.Yields (device, pool)
      (fun _ after => Device.Onward device after.1 ∧ after.1.framebuffers.keys =
        device.framebuffers.keys.filter (· ∉ pool.framebuffers))
      (fun _ after => Device.Onward device after.1 ∧ after.1.framebuffers.keys =
        device.framebuffers.keys.filter (· ∉ pool.framebuffers)) := delete_yields device idle
  exact Yields.after_iff.mp deleted

theorem fresh_of_filter (fresh : device.Fresh) (onward : Device.Onward device later)
    {gone : Handle → Bool} (keys : later.framebuffers.keys =
      device.framebuffers.keys.filter gone) : later.Fresh := by
  refine ⟨keys ▸ fresh.once.filter _, fun handle inside => ?_⟩
  rw [keys] at inside
  exact Nat.lt_of_lt_of_le (fresh.below handle (List.mem_filter.mp inside).1) onward.handles

/-! ### What the device is told -/

instance : Std.Refl Device.Silent := ⟨Device.Tells.refl⟩

instance : IsTrans Device Device.Silent := ⟨fun _ _ _ => Device.Tells.silent_trans⟩

/-- The device is told nothing that is drawn. -/
def Silent (before after : State) : Prop :=
  Device.Silent before.1 after.1

instance : Std.Refl Silent := ⟨fun _ => Device.Tells.refl _⟩

instance : IsTrans State Silent := ⟨fun _ _ _ => Device.Tells.silent_trans⟩

theorem newFramebuffer_silent (width height : Nat) :
    Keeps Device.Silent (newFramebuffer width height) := by
  intro device
  have told := device.tells_createFramebuffer width height
  unfold Yields runOn ExceptT.run newFramebuffer
  revert told
  cases device.createFramebuffer width height with
  | mk result after => cases result <;> exact id

theorem buildLadder_silent : ∀ (steps factor : Nat) (pool : RenderTargets),
    Keeps Device.Silent (buildLadder steps factor pool)
  | 0, _, _ => Keeps.pure _
  | steps + 1, factor, pool => by
    unfold buildLadder
    split
    · exact Keeps.pure _
    · exact Keeps.bind (newFramebuffer_silent _ _) fun handles =>
        buildLadder_silent steps (factor / 2) _

theorem create_silent (width height antiAlias : Nat) :
    Keeps Device.Silent (create width height antiAlias) :=
  Keeps.get fun _ => buildLadder_silent _ _ _

theorem request_silent : Keeps Silent request := by
  unfold request
  refine Keeps.get fun state => ?_
  dsimp only
  split
  · exact Keeps.throw _
  split
  · exact Keeps.bind (Keeps.modify fun _ => Device.Tells.refl _) fun _ => Keeps.pure _
  · refine Keeps.bind (Keeps.within (newFramebuffer_silent _ _) fun _ _ silent => silent)
      fun handles => ?_
    exact Keeps.bind (Keeps.modify fun _ => Device.Tells.refl _) fun _ => Keeps.pure _

theorem resize_silent (width height : Nat) : Keeps Silent (resize width height) := by
  have told : ∀ (targets : List RenderTarget) (device : Device), Device.Silent device
      (targets.foldl (fun device target => device.resizeFramebuffer target.framebuffer
        (max width 1) (max height 1)) device) :=
    Device.Tells.foldl fun device target => device.tells_resizeFramebuffer target.framebuffer _ _
  unfold resize
  refine Keeps.get fun state => ?_
  dsimp only
  split
  · exact Keeps.throw _
  split
  · exact Keeps.throw _
  · exact Keeps.modify fun state => told state.2.targets state.1

theorem delete_silent : Keeps Silent delete := by
  have told : ∀ (targets : List RenderTarget) (device : Device), Device.Silent device
      (targets.foldl (fun device target => device.deleteFramebuffer target.framebuffer) device) :=
    Device.Tells.foldl fun device target => device.tells_deleteFramebuffer target.framebuffer
  unfold delete
  refine Keeps.get fun state => ?_
  dsimp only
  split
  · exact Keeps.throw _
  split
  · exact Keeps.throw _
  · exact Keeps.modify fun state => told state.2.targets state.1

end RenderTargets
end Collage
