import Collage.Proofs.Frame.Lifetime
import Collage.Report.Device

/-!
# Counting who holds a target

`RenderTargets.Call` is what can be asked of a pool, in any order and on any device, and
`history` makes calls one after another and writes down what was done.
`Counted start events pool` says how a pool stands after that: its permanent targets are
the ladder that it began with, its free targets are those that nobody holds, each once,
and any other target is held by as many as the events tell (`outstanding`).

`Call.run_yields` is the step: a call keeps `Counted` if it ends well, and it fails for
the reasons that `Refuses` lists and for no others, and then the pool is as it was.
`history_counted` is the run: it holds of a new pool (`create_counted`) after any calls,
and the next call yields what it should.
-/

namespace Collage
namespace RenderTargets

open Collage.Action

/-! ### Calls -/

/-- What can be asked of a pool. -/
inductive Call
  | request
  | retain (id : Nat)
  | release (id : Nat)
  | reclaim
  | resize (width height : Nat)
  | delete

/-- What was done with a pool. -/
inductive Event
  | requested (id : Nat)
  | retained (id : Nat)
  | released (id : Nat)
  | reclaimed (count : Nat)
  | resized (width height : Nat)
  | deleted
  deriving DecidableEq

/-- Whether all targets were taken back. -/
def Event.isReclaim : Event → Bool
  | .reclaimed _ => true
  | _ => false

/-- Changes the pool alone; it stays as it is if that fails. -/
def exchange (event : Event) (change : RenderTargets → Except Failure RenderTargets) :
    Action State Event := fun (device, pool) =>
  match change pool with
  | .ok changed => (.ok event, (device, changed))
  | .error failure => (.error failure, (device, pool))

/-- Makes a call. -/
def Call.run : Call → Action State Event
  | .request => do return .requested (← RenderTargets.request)
  | .retain id => exchange (.retained id) (·.retain id)
  | .release id => exchange (.released id) (·.release id)
  | .reclaim => fun (device, pool) =>
    (.ok (.reclaimed pool.reclaim.1), (device, pool.reclaim.2))
  | .resize width height => do
    RenderTargets.resize width height
    return .resized width height
  | .delete => do
    RenderTargets.delete
    return .deleted

/-- What was done by calls, each on a device in any state, and the pool after them; the
newest event comes first. -/
def history : List (Device × Call) → List Event × RenderTargets → List Event × RenderTargets
  | [], past => past
  | (device, call) :: rest, (events, pool) =>
    match call.run.runOn (device, pool) with
    | (.ok event, after) => history rest (event :: events, after.2)
    | (.error _, after) => history rest (events, after.2)

/-! ### How many hold a target -/

/-- The count of a target: how many hold it, or minus one if it is permanent. -/
def countOf (pool : RenderTargets) (id : Nat) : Option Int :=
  pool.targets[id]?.map (·.use.count)

/-- How many hold a target by what was done since it was requested last: it was retained
and released, or taken back from all. -/
def outstanding (events : List Event) (id : Nat) : Int :=
  let since := events.takeWhile (· ≠ .requested id)
  if since.any Event.isReclaim then 0
  else 1 + since.count (.retained id) - since.count (.released id)

/-- A pool after what was done with it since it began. -/
structure Counted (start : RenderTargets) (events : List Event) (pool : RenderTargets) :
    Prop where
  /-- the permanent targets are those of the ladder -/
  ladder_iff : ∀ id, id ∈ pool.ladder ↔ pool.countOf id = some (-1)
  /-- the ladder is that of the beginning, until the pool is deleted -/
  ladder_kept : pool.deleted = false →
    pool.ladder = start.ladder ∧ ∀ id ∈ pool.ladder, pool.targets[id]? = start.targets[id]?
  /-- a pool that was deleted has no targets -/
  gone : pool.deleted = true → pool.targets = []
  /-- the free targets are those that nobody holds -/
  free_iff : ∀ id, id ∈ pool.unused ↔ pool.countOf id = some 0
  /-- no target is free twice -/
  once : pool.unused.Nodup
  /-- all but the ladder were requested, and are held as often as it was done -/
  held : ∀ id count, pool.countOf id = some count → id ∉ pool.ladder →
    0 ≤ count ∧ .requested id ∈ events ∧ count = outstanding events id
  /-- all but the ladder have the size at which layers are drawn -/
  sized : ∀ id target, pool.targets[id]? = some target → id ∉ pool.ladder →
    (target.width, target.height) = pool.renderSize
  /-- there is no ladder without anti-aliasing -/
  single : pool.antiAlias = 1 → pool.ladder = []

/-- Why a target can be neither held by more nor given back: nobody holds it. -/
def Unheld (pool : RenderTargets) (id : Nat) (failure : Failure) : Prop :=
  pool.countOf id = none ∧ failure = .unknownTarget id ∨
  pool.countOf id = some (-1) ∧ failure = .permanentTarget id ∨
  pool.countOf id = some 0 ∧ failure = .doubleRelease id

/-- Why a call is refused: what the failure is, and when it is that. -/
def Refuses (device : Device) (pool : RenderTargets) : Call → Failure → Prop
  | .request, failure =>
    pool.deleted = true ∧ failure = .targetsDeleted ∨
    pool.deleted = false ∧ pool.unused = [] ∧ ∃ cause,
      (device.createFramebuffer pool.renderSize.1 pool.renderSize.2).1 = .error cause ∧
      failure = .device cause
  | .retain id, failure | .release id, failure => Unheld pool id failure
  | .reclaim, _ => False
  | .resize _ _, failure =>
    pool.deleted = true ∧ failure = .targetsDeleted ∨
    pool.deleted = false ∧ pool.antiAlias ≠ 1 ∧ failure = .resizeWithAntiAlias pool.antiAlias
  | .delete, failure =>
    pool.deleted = true ∧ failure = .targetsDeleted ∨
    pool.deleted = false ∧ 0 < pool.inUse.length ∧ failure = .targetsInUse pool.inUse.length

/-- A target that is handed out was free or is new, and is held by one then. -/
def HandsOut (pool changed : RenderTargets) : Event → Prop
  | .requested id =>
    (pool.countOf id = none ∨ pool.countOf id = some 0) ∧ changed.countOf id = some 1
  | _ => True

/-! ### The view of a pool by its counts -/

section

variable {start pool : RenderTargets} {events : List Event} {id : Nat} {device : Device}

theorem countOf_eq_some_iff {count : Int} :
    pool.countOf id = some count ↔
      ∃ target, pool.targets[id]? = some target ∧ target.use.count = count :=
  Option.map_eq_some_iff

theorem countOf_eq_none_iff : pool.countOf id = none ↔ pool.targets.length ≤ id := by
  rw [countOf, Option.map_eq_none_iff, List.getElem?_eq_none_iff]

theorem countOf_withUse (pool : RenderTargets) (id : Nat) (use : TargetUse) (other : Nat) :
    (pool.withUse id use).countOf other =
      if other = id then (pool.countOf id).map fun _ => use.count else pool.countOf other := by
  unfold countOf withUse
  rw [List.getElem?_modify]
  by_cases same : other = id
  · subst same
    cases pool.targets[other]? <;> simp
  · cases pool.targets[other]? <;> simp [same, Ne.symm same]

theorem countOf_append (pool : RenderTargets) (target : RenderTarget) (other : Nat) :
    countOf { pool with targets := pool.targets ++ [target] } other =
      if other = pool.targets.length then some target.use.count else pool.countOf other := by
  unfold countOf
  dsimp only
  split
  · next same =>
    rw [same, List.getElem?_concat_length]
    rfl
  · next different =>
    rcases Nat.lt_or_gt_of_ne different with before | beyond
    · rw [List.getElem?_append_left before]
    · rw [List.getElem?_eq_none (Nat.le_of_lt beyond),
        List.getElem?_eq_none (by rw [List.length_append, List.length_singleton]; omega)]

theorem countOf_reclaim (pool : RenderTargets) (id : Nat) :
    pool.reclaim.2.countOf id =
      (pool.countOf id).map fun count => if count = -1 then -1 else 0 := by
  unfold countOf reclaim
  dsimp only
  rw [List.getElem?_map]
  cases pool.targets[id]? with
  | none => rfl
  | some target =>
    cases use : target.use with
    | permanent => simp [use, TargetUse.count]
    | held count =>
      have other : ¬ (count : Int) = -1 := by omega
      simp [use, TargetUse.count, other]

theorem use_of_count {target : RenderTarget} {count : Nat} (h : target.use.count = count) :
    target.use = .held count := by
  cases use : target.use with
  | permanent =>
    rw [use, TargetUse.count] at h
    omega
  | held other =>
    rw [use, TargetUse.count] at h
    rw [Int.ofNat.inj h]

/-- A target in use is listed where those in use are. -/
theorem mem_inUse_iff :
    id ∈ pool.inUse ↔ ∃ count : Nat, pool.countOf id = some ((count : Int) + 1) := by
  unfold inUse
  rw [List.mem_filter, List.mem_range]
  constructor
  · rintro ⟨inside, used⟩
    rw [List.getElem?_eq_getElem inside] at used
    match found : pool.targets[id], used with
    | ⟨_, _, _, _, .held (count + 1)⟩, _ =>
      exact ⟨count, countOf_eq_some_iff.mpr
        ⟨_, (List.getElem?_eq_getElem inside).trans (congrArg some found), rfl⟩⟩
  · rintro ⟨count, counted⟩
    obtain ⟨target, found, same⟩ := countOf_eq_some_iff.mp counted
    refine ⟨(List.getElem?_eq_some_iff.mp found).1, ?_⟩
    have use : target.use = .held (count + 1) := use_of_count same
    obtain ⟨_, _, _, _, _⟩ := target
    cases use
    rw [found]

/-! ### What was done last -/

theorem outstanding_requested (events : List Event) (id : Nat) :
    outstanding (.requested id :: events) id = 1 := by
  simp [outstanding]

theorem outstanding_reclaimed (events : List Event) (count id : Nat) :
    outstanding (.reclaimed count :: events) id = 0 := by
  simp [outstanding, Event.isReclaim]

theorem outstanding_cons {event : Event} (other : event ≠ .requested id)
    (notTaken : event.isReclaim = false) (notRetained : event ≠ .retained id)
    (notReleased : event ≠ .released id) (events : List Event) :
    outstanding (event :: events) id = outstanding events id := by
  simp [outstanding, other, notTaken, notRetained, notReleased]

/-- What is done with a target that is held adds to what was done since it was requested. -/
theorem outstanding_cons_of_held {event : Event} (h : outstanding events id ≠ 0)
    (other : event ≠ .requested id) (notTaken : event.isReclaim = false) :
    outstanding (event :: events) id = outstanding events id +
      (if event = .retained id then 1 else 0) - (if event = .released id then 1 else 0) := by
  unfold outstanding at *
  by_cases taken : (events.takeWhile (· ≠ .requested id)).any Event.isReclaim = true
  · rw [if_pos taken] at h
    exact absurd rfl h
  · have since : (event :: events).takeWhile (· ≠ .requested id) =
        event :: events.takeWhile (· ≠ .requested id) := by simp [other]
    rw [since, if_neg taken, if_neg (by simpa [notTaken] using taken), List.count_cons,
      List.count_cons]
    simp only [beq_iff_eq]
    split <;> split <;> omega

theorem outstanding_retained (h : outstanding events id ≠ 0) :
    outstanding (.retained id :: events) id = outstanding events id + 1 := by
  rw [outstanding_cons_of_held h (by simp) rfl, if_pos rfl, if_neg (by simp), Int.sub_zero]

theorem outstanding_released (h : outstanding events id ≠ 0) :
    outstanding (.released id :: events) id = outstanding events id - 1 := by
  rw [outstanding_cons_of_held h (by simp) rfl, if_neg (by simp), if_pos rfl, Int.add_zero]

/-! ### One call -/

namespace Counted

theorem notMem_ladder (h : Counted start events pool) {count : Int}
    (counted : pool.countOf id = some count) (other : count ≠ -1) : id ∉ pool.ladder := by
  intro rung
  rw [(h.ladder_iff id).mp rung] at counted
  exact other (Option.some.inj counted).symm

theorem lt_of_rung (h : Counted start events pool) (rung : id ∈ pool.ladder) :
    id < pool.targets.length := by
  obtain ⟨_, found, _⟩ := countOf_eq_some_iff.mp ((h.ladder_iff id).mp rung)
  exact (List.getElem?_eq_some_iff.mp found).1

/-- A target that is not of the ladder is held by another number, as the event tells, and is
free if that is none. -/
theorem moved (h : Counted start events pool) {before after : Nat} {event : Event}
    {unused : List Nat} (was : pool.countOf id = some before)
    (asked : .requested id ∈ event :: events)
    (now : outstanding (event :: events) id = after)
    (others : ∀ place ≠ id, outstanding (event :: events) place = outstanding events place)
    (free : ∀ place, place ∈ unused ↔ if place = id then after = 0 else place ∈ pool.unused)
    (once : unused.Nodup) :
    Counted start (event :: events) { pool.withUse id (.held after) with unused } := by
  have notRung : id ∉ pool.ladder := h.notMem_ladder was (by omega)
  have counts : ∀ place, countOf { pool.withUse id (.held after) with unused } place =
      if place = id then some (after : Int) else pool.countOf place := by
    intro place
    refine (countOf_withUse pool id (.held after) place).trans ?_
    rw [was]
    rfl
  constructor
  case ladder_iff =>
    intro place
    rw [counts]
    split
    · next same =>
      subst same
      refine ⟨fun rung => absurd rung notRung, fun equal => ?_⟩
      have := Option.some.inj equal
      omega
    · exact h.ladder_iff place
  case ladder_kept =>
    intro alive
    obtain ⟨same, kept⟩ := h.ladder_kept alive
    refine ⟨same, fun place rung => ?_⟩
    have different : id ≠ place := fun equal => notRung (equal ▸ rung)
    rw [← kept place rung]
    simp [withUse, different]
  case gone =>
    intro deleted
    have none := h.gone deleted
    obtain ⟨_, found, _⟩ := countOf_eq_some_iff.mp was
    rw [none, List.getElem?_nil] at found
    cases found
  case free_iff =>
    intro place
    rw [counts, free]
    split
    · constructor
      · intro zero
        rw [zero]
        rfl
      · intro equal
        have := Option.some.inj equal
        omega
    · exact h.free_iff place
  case once => exact once
  case held =>
    intro place count counted outside
    rw [counts] at counted
    split at counted
    · next same =>
      subst same
      cases counted
      exact ⟨Int.natCast_nonneg after, asked, now.symm⟩
    · next different =>
      obtain ⟨positive, known, same⟩ := h.held place count counted outside
      exact ⟨positive, List.mem_cons_of_mem _ known, by rw [others place different, same]⟩
  case sized =>
    intro place target found outside
    change ((pool.withUse id (.held after)).targets)[place]? = some target at found
    rw [withUse, List.getElem?_modify] at found
    obtain ⟨old, there, rfl⟩ := Option.map_eq_some_iff.mp found
    have size := h.sized place old there outside
    split <;> exact size
  case single => exact h.single

/-- A new target is held by one. -/
theorem grown (h : Counted start events pool) (alive : pool.deleted = false)
    {target : RenderTarget} (use : target.use = .held 1)
    (size : (target.width, target.height) = pool.renderSize) :
    Counted start (.requested pool.targets.length :: events)
      { pool with targets := pool.targets ++ [target] } := by
  have counts := countOf_append pool target
  rw [use] at counts
  have notRung : pool.targets.length ∉ pool.ladder := fun rung =>
    Nat.lt_irrefl _ (h.lt_of_rung rung)
  constructor
  case ladder_iff =>
    intro place
    rw [counts]
    split
    · next same =>
      subst same
      exact ⟨fun rung => absurd rung notRung, fun equal => by cases equal⟩
    · exact h.ladder_iff place
  case ladder_kept =>
    intro _
    obtain ⟨same, kept⟩ := h.ladder_kept alive
    refine ⟨same, fun place rung => ?_⟩
    rw [← kept place rung]
    exact List.getElem?_append_left (h.lt_of_rung rung)
  case gone =>
    intro deleted
    exact absurd deleted (by simp [alive])
  case free_iff =>
    intro place
    rw [counts]
    split
    · next same =>
      subst same
      refine ⟨fun free => ?_, fun equal => by cases equal⟩
      have none := countOf_eq_none_iff.mpr (Nat.le_refl pool.targets.length)
      rw [(h.free_iff _).mp free] at none
      cases none
    · exact h.free_iff place
  case once => exact h.once
  case held =>
    intro place count counted outside
    rw [counts] at counted
    split at counted
    · next same =>
      subst same
      cases counted
      exact ⟨by decide, List.mem_cons_self, (outstanding_requested _ _).symm⟩
    · next different =>
      obtain ⟨positive, known, same⟩ := h.held place count counted outside
      refine ⟨positive, List.mem_cons_of_mem _ known, same.trans ?_⟩
      exact (outstanding_cons (by simpa using Ne.symm different) rfl (by simp) (by simp) _).symm
  case sized =>
    intro place other found outside
    dsimp only at found
    rcases Nat.lt_or_ge place pool.targets.length with before | beyond
    · rw [List.getElem?_append_left before] at found
      exact h.sized place other found outside
    · rw [List.getElem?_append_right beyond] at found
      cases List.mem_singleton.mp (List.mem_of_getElem? found)
      exact size
  case single => exact h.single

/-- After all was taken back, all but the ladder are free. -/
theorem reclaim (h : Counted start events pool) :
    Counted start (.reclaimed pool.reclaim.1 :: events) pool.reclaim.2 := by
  have counts := countOf_reclaim pool
  have apart : ∀ place ∈ pool.inUse, place ∉ pool.unused := by
    intro place used free
    obtain ⟨count, counted⟩ := mem_inUse_iff.mp used
    rw [(h.free_iff place).mp free] at counted
    have := Option.some.inj counted
    omega
  constructor
  case ladder_iff =>
    intro place
    rw [counts]
    refine (h.ladder_iff place).trans ?_
    cases pool.countOf place with
    | none => simp
    | some count => by_cases permanent : count = -1 <;> simp [permanent]
  case ladder_kept =>
    intro alive
    obtain ⟨same, kept⟩ := h.ladder_kept alive
    refine ⟨same, fun place rung => ?_⟩
    obtain ⟨target, found, permanent⟩ := countOf_eq_some_iff.mp ((h.ladder_iff place).mp rung)
    rw [← kept place rung, RenderTargets.reclaim, List.getElem?_map, found]
    cases use : target.use with
    | permanent => simp [use]
    | held count =>
      rw [use, TargetUse.count] at permanent
      omega
  case gone =>
    intro deleted
    have none := h.gone deleted
    simp [RenderTargets.reclaim, none]
  case free_iff =>
    intro place
    have listed : place ∈ pool.reclaim.2.unused ↔ place ∈ pool.unused ∨ place ∈ pool.inUse :=
      List.mem_append
    rw [counts, listed, h.free_iff, mem_inUse_iff]
    cases counted : pool.countOf place with
    | none => simp
    | some count =>
      by_cases permanent : count = -1
      · subst permanent
        simp
        omega
      · obtain ⟨positive, _⟩ := h.held place count counted (h.notMem_ladder counted permanent)
        simp only [Option.some.injEq, Option.map_some, if_neg permanent, iff_true]
        rcases Int.lt_or_eq_of_le positive with more | zero
        · exact .inr ⟨(count - 1).toNat, by omega⟩
        · exact .inl zero.symm
  case once =>
    refine List.nodup_append.mpr ⟨h.once, List.nodup_range.filter _, ?_⟩
    rintro place free _ used rfl
    exact apart place used free
  case held =>
    intro place count counted outside
    rw [counts] at counted
    obtain ⟨old, before, rfl⟩ := Option.map_eq_some_iff.mp counted
    by_cases permanent : old = -1
    · subst permanent
      exact absurd ((h.ladder_iff place).mpr before) outside
    · obtain ⟨_, known, _⟩ := h.held place old before outside
      rw [if_neg permanent]
      exact ⟨Int.le_refl 0, List.mem_cons_of_mem _ known, (outstanding_reclaimed _ _ _).symm⟩
  case sized =>
    intro place target found outside
    rw [RenderTargets.reclaim, List.getElem?_map] at found
    obtain ⟨old, there, rfl⟩ := Option.map_eq_some_iff.mp found
    have size := h.sized place old there outside
    split <;> exact size
  case single => exact h.single

/-- Without anti-aliasing, targets keep their counts when they get another size. -/
theorem resized (h : Counted start events pool) (single : pool.antiAlias = 1)
    (width height : Nat) (event : Event) (other : ∀ place, outstanding (event :: events) place =
      outstanding events place) :
    Counted start (event :: events) (pool.resized width height) := by
  have none := h.single single
  have counts : ∀ place, (pool.resized width height).countOf place = pool.countOf place := by
    intro place
    rw [countOf, RenderTargets.resized, List.getElem?_map, Option.map_map]
    rfl
  constructor
  case ladder_iff =>
    intro place
    rw [counts]
    exact h.ladder_iff place
  case ladder_kept =>
    intro alive
    refine ⟨(h.ladder_kept alive).1, fun place rung => ?_⟩
    rw [show (pool.resized width height).ladder = [] from none] at rung
    cases rung
  case gone =>
    intro deleted
    rw [RenderTargets.resized, h.gone deleted]
    rfl
  case free_iff =>
    intro place
    rw [counts]
    exact h.free_iff place
  case once => exact h.once
  case held =>
    intro place count counted outside
    rw [counts] at counted
    obtain ⟨positive, known, same⟩ := h.held place count counted outside
    exact ⟨positive, List.mem_cons_of_mem _ known, by rw [other, same]⟩
  case sized =>
    intro place target found _
    rw [RenderTargets.resized, List.getElem?_map] at found
    obtain ⟨_, _, rfl⟩ := Option.map_eq_some_iff.mp found
    have level : (pool.resized width height).antiAlias = 1 := single
    rw [renderSize, level, Nat.mul_one, Nat.mul_one]
    rfl
  case single => exact fun _ => none

/-- A pool that was deleted has nothing that could be counted. -/
theorem deleted (start pool : RenderTargets) (events : List Event) :
    Counted start events
      { pool with targets := [], unused := [], ladder := [], deleted := true } := by
  constructor
  case ladder_iff =>
    intro place
    simp [countOf]
  case ladder_kept =>
    intro alive
    cases alive
  case gone => exact fun _ => rfl
  case free_iff =>
    intro place
    simp [countOf]
  case once => exact List.nodup_nil
  case held =>
    intro place count counted
    simp [countOf] at counted
  case sized =>
    intro place target found
    simp at found
  case single => exact fun _ => rfl

/-! ### Each call -/

theorem again (h : Counted start events pool) {others : List Nat}
    (free : pool.unused = others ++ [id]) :
    Counted start (.requested id :: events)
      { pool.withUse id (.held 1) with unused := others } := by
  have was : pool.countOf id = some 0 := (h.free_iff id).mp (by simp [free])
  have once := h.once
  rw [free, List.nodup_append] at once
  have notLeft : id ∉ others := fun left => once.2.2 id left id List.mem_cons_self rfl
  have before : pool.countOf id = some ((0 : Nat) : Int) := was
  refine h.moved before List.mem_cons_self (outstanding_requested events id)
    (fun place different => ?_) (fun place => ?_) once.1
  · exact outstanding_cons (by simpa using Ne.symm different) rfl (by simp) (by simp) _
  · split
    · next same =>
      subst same
      simp [notLeft]
    · next different => simp [free, different]

/-- **A request hands out a target that nobody holds, or is refused.** -/
theorem request_yields (h : Counted start events pool) (device : Device) :
    Call.request.run.Yields (device, pool)
      (fun event after => Counted start (event :: events) after.2 ∧
        HandsOut pool after.2 event ∧ ∀ failure, ¬ Refuses device pool .request failure)
      fun failure after => after.2 = pool ∧ Refuses device pool .request failure := by
  cases dead : pool.deleted with
  | true =>
    refine (RenderTargets.request_deleted device dead).bind (fun _ _ never => never.elim) ?_
    rintro _ _ ⟨rfl, rfl⟩
    exact ⟨rfl, .inl ⟨dead, rfl⟩⟩
  | false =>
    refine (RenderTargets.request_yields device dead).bind ?_ ?_
    · rintro id ⟨later, changed⟩ handout
      refine Yields.pure ?_
      cases handout with
      | again free =>
        have was : pool.countOf id = some 0 := (h.free_iff id).mp (by simp [free])
        refine ⟨h.again free, ⟨.inr was, ?_⟩, ?_⟩
        · exact (countOf_withUse pool id (.held 1) id).trans (by rw [if_pos rfl, was]; rfl)
        · rintro failure (⟨deleted, _⟩ | ⟨_, none, _⟩)
          · rw [dead] at deleted
            cases deleted
          · simp [free] at none
      | grown full created =>
        refine ⟨h.grown dead rfl rfl, ⟨.inl (countOf_eq_none_iff.mpr (Nat.le_refl _)), ?_⟩, ?_⟩
        · exact (countOf_append pool _ _).trans (if_pos rfl)
        · rintro failure (⟨deleted, _⟩ | ⟨_, _, cause, failed, _⟩)
          · rw [dead] at deleted
            cases deleted
          · rw [created] at failed
            cases failed
    · rintro failure after ⟨full, cause, later, failed, rfl, rfl⟩
      exact ⟨rfl, .inr ⟨dead, full, cause, by rw [failed], rfl⟩⟩

/-- A target is held by some, as the events tell, or it cannot be given back. -/
theorem holders_cases (h : Counted start events pool) (id : Nat) :
    (∃ count : Nat, pool.countOf id = some ((count : Int) + 1) ∧
      pool.holders id = .ok (count + 1) ∧ outstanding events id = (count : Int) + 1 ∧
      .requested id ∈ events) ∨
    ∃ failure, pool.holders id = .error failure ∧ Unheld pool id failure := by
  unfold holders
  cases found : pool.targets[id]? with
  | none => exact .inr ⟨_, rfl, .inl ⟨by rw [countOf, found]; rfl, rfl⟩⟩
  | some target =>
    have counted : pool.countOf id = some target.use.count := by rw [countOf, found]; rfl
    dsimp only
    cases use : target.use with
    | permanent =>
      rw [use] at counted
      exact .inr ⟨_, rfl, .inr (.inl ⟨counted, rfl⟩)⟩
    | held count =>
      rw [use] at counted
      cases count with
      | zero => exact .inr ⟨_, rfl, .inr (.inr ⟨counted, rfl⟩)⟩
      | succ count =>
        have same : pool.countOf id = some ((count : Int) + 1) := counted
        obtain ⟨_, known, equal⟩ := h.held id _ same (h.notMem_ladder same (by omega))
        exact .inl ⟨count, same, rfl, equal.symm, known⟩

theorem not_unheld {count : Nat} (counted : pool.countOf id = some ((count : Int) + 1))
    (failure : Failure) : ¬ Unheld pool id failure := by
  rintro (⟨other, _⟩ | ⟨other, _⟩ | ⟨other, _⟩)
  · rw [counted] at other
    cases other
  · rw [counted, Option.some.injEq] at other
    omega
  · rw [counted, Option.some.injEq] at other
    omega

theorem exchange_yields (h : Counted start events pool) (device : Device) {id : Nat}
    (event : Event) (change : Nat → RenderTargets)
    (counts : ∀ count : Nat, pool.countOf id = some ((count : Int) + 1) →
      outstanding events id = (count : Int) + 1 → .requested id ∈ events →
      Counted start (event :: events) (change (count + 1))) :
    (exchange event fun pool => (pool.holders id).map change).Yields (device, pool)
      (fun event' after => event' = event ∧ Counted start (event :: events) after.2 ∧
        ∀ failure, ¬ Unheld pool id failure)
      fun failure after => after.2 = pool ∧ Unheld pool id failure := by
  have ran : (exchange event fun pool => (pool.holders id).map change).runOn (device, pool) =
      match (pool.holders id).map change with
      | .ok changed => (.ok event, (device, changed))
      | .error failure => (.error failure, (device, pool)) := rfl
  unfold Yields
  rw [ran]
  rcases h.holders_cases id with ⟨count, counted, holders, known, asked⟩ |
    ⟨failure, holders, refused⟩
  · rw [holders]
    exact ⟨rfl, counts count counted known asked, not_unheld counted⟩
  · rw [holders]
    exact ⟨rfl, refused⟩

/-- **A target that is held can be held by one more.** -/
theorem retain_yields (h : Counted start events pool) (device : Device) (id : Nat) :
    (Call.retain id).run.Yields (device, pool)
      (fun event after => Counted start (event :: events) after.2 ∧
        HandsOut pool after.2 event ∧ ∀ failure, ¬ Refuses device pool (.retain id) failure)
      fun failure after => after.2 = pool ∧ Refuses device pool (.retain id) failure := by
  refine (h.exchange_yields device (.retained id)
    (fun count => pool.withUse id (.held (count + 1))) ?_).mono ?_ ?_
  · intro count counted known asked
    have was : pool.countOf id = some ((count + 1 : Nat) : Int) := by rw [counted]; rfl
    refine h.moved was (List.mem_cons_of_mem _ asked) ?_ ?_ (fun place => ?_) h.once
    · rw [outstanding_retained (by omega), known]
      rfl
    · intro place different
      exact outstanding_cons (by simp) rfl (by simpa using Ne.symm different) (by simp) _
    · split
      · next same =>
        subst same
        refine ⟨fun free => ?_, fun zero => by omega⟩
        rw [(h.free_iff place).mp free, Option.some.injEq] at counted
        omega
      · exact Iff.rfl
  · rintro _ after ⟨rfl, counted, never⟩
    exact ⟨counted, trivial, never⟩
  · exact fun _ _ failed => failed

/-- **A target that is held can be given back, and is free if nobody else holds it.** -/
theorem release_yields (h : Counted start events pool) (device : Device) (id : Nat) :
    (Call.release id).run.Yields (device, pool)
      (fun event after => Counted start (event :: events) after.2 ∧
        HandsOut pool after.2 event ∧ ∀ failure, ¬ Refuses device pool (.release id) failure)
      fun failure after => after.2 = pool ∧ Refuses device pool (.release id) failure := by
  refine (h.exchange_yields device (.released id)
    (fun count =>
      if count = 1 then
        { pool.withUse id (.held (count - 1)) with unused := pool.unused ++ [id] }
      else pool.withUse id (.held (count - 1))) ?_).mono ?_ ?_
  · intro count counted known asked
    have notFree : id ∉ pool.unused := by
      intro free
      rw [(h.free_iff id).mp free, Option.some.injEq] at counted
      omega
    have now : outstanding (.released id :: events) id = count := by
      rw [outstanding_released (by omega), known]
      omega
    have others : ∀ place ≠ id,
        outstanding (.released id :: events) place = outstanding events place := fun place other =>
      outstanding_cons (by simp) rfl (by simp) (by simpa using Ne.symm other) _
    have was : pool.countOf id = some ((count + 1 : Nat) : Int) := by rw [counted]; rfl
    have listed := List.mem_cons_of_mem (.released id) asked
    dsimp only
    split
    · next last =>
      have none : count = 0 := by omega
      subst none
      refine h.moved was listed now others (fun place => ?_) ?_
      · split
        · next same => simp [same]
        · next different => simp [different]
      · refine List.nodup_append.mpr ⟨h.once, List.nodup_singleton id, ?_⟩
        rintro place free _ isId rfl
        exact notFree (List.mem_singleton.mp isId ▸ free)
    · next more =>
      refine h.moved was listed now others (fun place => ?_) h.once
      split
      · next same =>
        subst same
        exact ⟨fun free => absurd free notFree, fun zero => by omega⟩
      · exact Iff.rfl
  · rintro _ after ⟨rfl, counted, never⟩
    exact ⟨counted, trivial, never⟩
  · exact fun _ _ failed => failed

/-- **All targets get another size without anti-aliasing, and none with it.** -/
theorem resize_yields (h : Counted start events pool) (device : Device) (width height : Nat) :
    (Call.resize width height).run.Yields (device, pool)
      (fun event after => Counted start (event :: events) after.2 ∧
        HandsOut pool after.2 event ∧
        ∀ failure, ¬ Refuses device pool (.resize width height) failure)
      fun failure after =>
        after.2 = pool ∧ Refuses device pool (.resize width height) failure := by
  suffices changes : (RenderTargets.resize width height).Yields (device, pool)
      (fun _ after => pool.deleted = false ∧ pool.antiAlias = 1 ∧
        after.2 = pool.resized (max width 1) (max height 1))
      fun failure after =>
        after.2 = pool ∧ Refuses device pool (.resize width height) failure by
    refine changes.bind ?_ fun _ _ failed => failed
    rintro _ ⟨later, changed⟩ ⟨alive, single, rfl⟩
    refine Yields.pure ⟨h.resized single _ _ _ fun place => ?_, trivial, ?_⟩
    · exact outstanding_cons (by simp) rfl (by simp) (by simp) _
    · rintro failure (⟨dead, _⟩ | ⟨_, smooth, _⟩)
      · rw [alive] at dead
        cases dead
      · exact smooth single
  unfold RenderTargets.resize
  refine Yields.get ?_
  dsimp only
  split
  · next dead => exact Yields.throw ⟨rfl, .inl ⟨dead, rfl⟩⟩
  · next alive =>
    have alive := Bool.eq_false_iff.mpr alive
    split
    · next smooth => exact Yields.throw ⟨rfl, .inr ⟨alive, smooth, rfl⟩⟩
    · next single => exact Yields.modified ⟨alive, not_not.mp single, rfl⟩

/-- **A pool of which nothing is in use can be deleted, once.** -/
theorem delete_yields (start : RenderTargets) (events : List Event) (device : Device)
    (pool : RenderTargets) : Call.delete.run.Yields (device, pool)
      (fun event after => Counted start (event :: events) after.2 ∧
        HandsOut pool after.2 event ∧ ∀ failure, ¬ Refuses device pool .delete failure)
      fun failure after => after.2 = pool ∧ Refuses device pool .delete failure := by
  suffices ends : RenderTargets.delete.Yields (device, pool)
      (fun _ after => pool.deleted = false ∧ pool.inUse.length = 0 ∧
        after.2 = { pool with targets := [], unused := [], ladder := [], deleted := true })
      fun failure after => after.2 = pool ∧ Refuses device pool .delete failure by
    refine ends.bind ?_ fun _ _ failed => failed
    rintro _ ⟨later, changed⟩ ⟨alive, none, rfl⟩
    refine Yields.pure ⟨.deleted start pool _, trivial, ?_⟩
    rintro failure (⟨dead, _⟩ | ⟨_, some, _⟩)
    · rw [alive] at dead
      cases dead
    · omega
  unfold RenderTargets.delete
  refine Yields.get ?_
  dsimp only
  split
  · next dead => exact Yields.throw ⟨rfl, .inl ⟨dead, rfl⟩⟩
  · next alive =>
    have alive := Bool.eq_false_iff.mpr alive
    split
    · next used => exact Yields.throw ⟨rfl, .inr ⟨alive, used, rfl⟩⟩
    · next none => exact Yields.modified ⟨alive, Nat.eq_zero_of_not_pos none, rfl⟩

end Counted

/-- What a call yields: a target that is handed out was held by nobody, and a call that is
refused leaves the pool, is refused for a reason, and for no reason if it is not. -/
def Call.Answers (pool : RenderTargets) (device : Device) (call : Call) : Prop :=
  call.run.Yields (device, pool)
    (fun event after => HandsOut pool after.2 event ∧ ∀ failure, ¬ Refuses device pool call failure)
    fun failure after => after.2 = pool ∧ Refuses device pool call failure

/-- **Each call counts who holds what, or is refused and changes nothing.** -/
theorem Call.run_yields (h : Counted start events pool) (device : Device) (call : Call) :
    call.run.Yields (device, pool)
      (fun event after => Counted start (event :: events) after.2 ∧
        HandsOut pool after.2 event ∧ ∀ failure, ¬ Refuses device pool call failure)
      fun failure after => after.2 = pool ∧ Refuses device pool call failure := by
  cases call with
  | request => exact h.request_yields device
  | retain id => exact h.retain_yields device id
  | release id => exact h.release_yields device id
  | reclaim => exact ⟨h.reclaim, trivial, fun _ => id⟩
  | resize width height => exact h.resize_yields device width height
  | delete => exact Counted.delete_yields start events device pool

/-! ### Any calls -/

/-- A pool of which only the ladder has been made. -/
structure Laddered (pool : RenderTargets) : Prop where
  alive : pool.deleted = false
  unused : pool.unused = []
  ladder : pool.ladder = List.range pool.targets.length
  permanent : ∀ target ∈ pool.targets, target.use = .permanent

/-- A pool with a ladder only is counted, and it has no ladder without anti-aliasing. -/
theorem Laddered.counted (h : Laddered pool) (single : pool.antiAlias = 1 → pool.ladder = []) :
    Counted pool [] pool := by
  have counts : ∀ id count, pool.countOf id = some count → count = -1 ∧ id ∈ pool.ladder := by
    intro id count counted
    obtain ⟨target, found, rfl⟩ := countOf_eq_some_iff.mp counted
    refine ⟨by rw [h.permanent target (List.mem_of_getElem? found)]; rfl, ?_⟩
    rw [h.ladder, List.mem_range]
    exact (List.getElem?_eq_some_iff.mp found).1
  constructor
  case ladder_iff =>
    intro id
    refine ⟨fun rung => ?_, fun counted => (counts id _ counted).2⟩
    rw [h.ladder, List.mem_range] at rung
    rw [countOf_eq_some_iff]
    refine ⟨pool.targets[id], List.getElem?_eq_getElem rung, ?_⟩
    rw [h.permanent _ (List.getElem_mem rung)]
    rfl
  case ladder_kept => exact fun _ => ⟨rfl, fun _ _ => rfl⟩
  case gone =>
    intro dead
    rw [h.alive] at dead
    cases dead
  case free_iff =>
    intro id
    rw [h.unused]
    constructor
    · exact fun free => absurd free List.not_mem_nil
    · intro counted
      cases (counts id 0 counted).1
  case once =>
    rw [h.unused]
    exact List.nodup_nil
  case held => exact fun id count counted outside => absurd (counts id count counted).2 outside
  case sized =>
    intro id target found outside
    exact absurd (counts id _ (countOf_eq_some_iff.mpr ⟨target, found, rfl⟩)).2 outside
  case single => exact single

/-- Each rung that is made belongs to the ladder. -/
theorem buildLadder_laddered : ∀ (steps factor : Nat) {pool : RenderTargets} (device : Device),
    Laddered pool → (buildLadder steps factor pool).Yields device
      (fun built _ => Laddered built ∧ built.antiAlias = pool.antiAlias ∧
        (factor = 0 → built.ladder = pool.ladder)) fun _ _ => True
  | 0, _, _, _, h => Yields.pure ⟨h, rfl, fun _ => rfl⟩
  | steps + 1, factor, pool, device, h => by
    unfold buildLadder
    split
    · exact Yields.pure ⟨h, rfl, fun _ => rfl⟩
    · next enough =>
      refine (newFramebuffer_yields _ _ device).bind ?_ fun _ _ _ => trivial
      rintro ⟨framebuffer, texture⟩ later _
      have laid : Laddered { pool with
          targets := pool.targets ++ [⟨framebuffer, texture, pool.width * factor,
            pool.height * factor, .permanent⟩]
          ladder := pool.ladder ++ [pool.targets.length] } := by
        refine ⟨h.alive, h.unused, ?_, fun target inside => ?_⟩
        · dsimp only
          rw [List.length_append, List.length_singleton, List.range_succ, h.ladder]
        · rcases List.mem_append.mp inside with inside | inside
          · exact h.permanent target inside
          · cases List.mem_singleton.mp inside
            rfl
      refine (buildLadder_laddered steps (factor / 2) later laid).mono ?_ fun _ _ _ => trivial
      rintro built _ ⟨laddered, level, _⟩
      exact ⟨laddered, level, fun none => absurd none (by omega)⟩

/-- **A new pool is counted.** -/
theorem create_counted (width height antiAlias : Nat) (device : Device) :
    (create width height antiAlias).Yields device (fun start _ => Counted start [] start)
      fun _ _ => True := by
  unfold create
  refine Yields.get ((buildLadder_laddered 32 _ device
    ⟨rfl, rfl, rfl, List.forall_mem_nil _⟩).mono ?_ fun _ _ _ => trivial)
  rintro start _ ⟨laddered, level, none⟩
  refine laddered.counted fun single => none ?_
  dsimp only at level
  rw [← level, single]

theorem history_counted (h : Counted start events pool) (calls : List (Device × Call)) :
    Counted start (history calls (events, pool)).1 (history calls (events, pool)).2 := by
  induction calls generalizing events pool with
  | nil => exact h
  | cons first rest ih =>
    obtain ⟨device, call⟩ := first
    have stepped := Call.run_yields h device call
    unfold Yields at stepped
    rw [history]
    cases ran : call.run.runOn (device, pool) with
    | mk outcome after =>
      rw [ran] at stepped
      cases outcome with
      | ok event => exact ih stepped.1
      | error failure => exact ih (stepped.1 ▸ h)

/-- **After any calls a pool knows who holds what**: its targets are counted, and so is what
the next call yields. -/
theorem pool_counts {width height antiAlias : Nat} {device later : Device}
    (created : (create width height antiAlias).runOn device = (.ok start, later))
    (calls : List (Device × Call)) :
    Counted start (history calls ([], start)).1 (history calls ([], start)).2 ∧
      ∀ (device : Device) (call : Call), call.Answers (history calls ([], start)).2 device := by
  have new := Yields.of_ok created (create_counted width height antiAlias device)
  have counted := history_counted new calls
  exact ⟨counted, fun device call =>
    (Call.run_yields counted device call).mono (fun _ _ h => h.2) fun _ _ h => h⟩

/-- A target that two hold and one gives back, one that nobody gives back, and a rung that
cannot be given back, before all are taken back. -/
theorem pool_counts_shared :
    let calls : List (Device × Call) := [({}, .request), ({}, .retain 1), ({}, .release 1),
      ({}, .request), ({}, .release 0), ({}, .reclaim), ({}, .release 2)]
    ∃ start later, (create 2 2 4).runOn {} = (.ok start, later) ∧ start.ladder = [0] ∧
      (history calls ([], start)).1 =
        [.reclaimed 2, .requested 2, .released 1, .retained 1, .requested 1] ∧
      Counted start (history calls ([], start)).1 (history calls ([], start)).2 ∧
      ∀ (device : Device) (call : Call), call.Answers (history calls ([], start)).2 device := by
  intro calls
  let start : RenderTargets :=
    { targets := [⟨2, 1, 4, 4, .permanent⟩], ladder := [0], width := 2, height := 2,
      antiAlias := 4 }
  have created := Action.runOn_eq_ok
    (show ((create 2 2 4).runOn {}).1.toOption = some start by decide +kernel)
  exact ⟨start, _, created, rfl, by decide +kernel, pool_counts created calls⟩

end

end RenderTargets
end Collage
