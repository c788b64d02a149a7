import Collage.Frame.Targets
import Collage.Proofs.Device.Framebuffers
import Collage.Proofs.Frame.Outcome
import Mathlib.Data.List.Induction
import Mathlib.Data.List.Perm.Basic

/-!
# The balance of the pool

`RenderTargets.Holding pool held` says that of the targets of a pool exactly those of
`held` are in use, each by one holder, that the ladder is permanent, and that all other
targets are free and stand in the list of free targets once.  It is what every user of
the pool relies on:

* `request_yields` says all that a request can do; `Handout.holding` and
  `Handout.grew` say what it means for the balance and for the size.
* `Holding.release`: a target that was held is free when it was given back.
* `Holding.reclaim`: whatever was in use, nothing is afterwards.

`Apart` says that no texture belongs to two targets, or to a target and to something
else.  `Grew limit` compares two states of a pool and its device: how far the pool may
have grown, that it did not ask for targets if it was large enough, that every new
framebuffer of the device belongs to a new target, and that textures stayed apart.
-/

namespace Collage

namespace RenderTargets

/-! ### Targets that are held -/

/-- There is a target at this place, and it is used in this way. -/
def UsedAs (pool : RenderTargets) (id : Nat) (use : TargetUse) : Prop :=
  ∃ target, pool.targets[id]? = some target ∧ target.use = use

/-- The targets that are held, each by one; all others but the ladder are free. -/
structure Holding (pool : RenderTargets) (held : List Nat) : Prop where
  alive : pool.deleted = false
  /-- no rung of the ladder comes twice -/
  ladder : pool.ladder.Nodup
  /-- no target is held twice, free twice, or both -/
  once : (held ++ pool.unused).Nodup
  /-- the targets that are held or free are those besides the ladder -/
  known : ∀ id, id ∈ held ++ pool.unused ↔ id < pool.targets.length ∧ id ∉ pool.ladder
  rungs : ∀ id ∈ pool.ladder, pool.UsedAs id .permanent
  taken : ∀ id ∈ held, pool.UsedAs id (.held 1)
  free : ∀ id ∈ pool.unused, pool.UsedAs id (.held 0)
  /-- all but the ladder have the size at which layers are drawn -/
  sized : ∀ (id : Nat) (target : RenderTarget), pool.targets[id]? = some target →
    target.use ≠ .permanent → (target.width, target.height) = pool.renderSize

/-- No target is in use. -/
abbrev Idle (pool : RenderTargets) : Prop :=
  pool.Holding []

theorem idle_empty {width height antiAlias : Nat} :
    Idle { width := width, height := height, antiAlias := antiAlias } :=
  ⟨rfl, List.nodup_nil, List.nodup_nil, by simp, by simp, by simp, by simp, by simp⟩

/-- A list has as many items of a sort as there are places at which they stand. -/
theorem length_filter_eq_range {α : Type} (p : α → Bool) (items : List α) :
    (items.filter p).length =
      ((List.range items.length).filter fun i => (items[i]?).any p).length := by
  induction items using List.reverseRecOn with
  | nil => rfl
  | append_singleton items last ih =>
    have inner : ∀ i ∈ List.range items.length,
        ((items ++ [last])[i]?).any p = (items[i]?).any p := by
      intro i inside
      rw [List.getElem?_append_left (List.mem_range.mp inside)]
    rw [List.filter_append, List.length_append, ih, List.length_append, List.length_singleton,
      List.range_succ, List.filter_append, List.length_append, List.filter_congr inner]
    simp [List.filter_cons]
    split <;> rfl

namespace UsedAs

variable {pool : RenderTargets} {id other : Nat} {use given : TargetUse}

theorem lt (h : pool.UsedAs id use) : id < pool.targets.length := by
  obtain ⟨_, found, _⟩ := h
  exact (List.getElem?_eq_some_iff.mp found).1

theorem unique (h : pool.UsedAs id use) (h' : pool.UsedAs id given) : use = given := by
  obtain ⟨target, found, rfl⟩ := h
  obtain ⟨_, again, rfl⟩ := h'
  rw [found] at again
  cases again
  rfl

theorem withUse_self (h : pool.UsedAs id use) (given : TargetUse) :
    (pool.withUse id given).UsedAs id given := by
  obtain ⟨target, found, _⟩ := h
  exact ⟨{ target with use := given }, by simp [withUse, found], rfl⟩

theorem withUse_other (h : pool.UsedAs other use) (different : id ≠ other) (given : TargetUse) :
    (pool.withUse id given).UsedAs other use := by
  obtain ⟨target, found, same⟩ := h
  exact ⟨target, by simp [withUse, found, different], same⟩

theorem append (h : pool.UsedAs id use) (more : List RenderTarget) :
    UsedAs { pool with targets := pool.targets ++ more } id use := by
  have inside := h.lt
  obtain ⟨target, found, same⟩ := h
  exact ⟨target, by rw [List.getElem?_append_left inside, found], same⟩

theorem last (target : RenderTarget) :
    UsedAs { pool with targets := pool.targets ++ [target] } pool.targets.length target.use :=
  ⟨target, List.getElem?_concat_length .., rfl⟩

end UsedAs

namespace Holding

variable {pool : RenderTargets} {held : List Nat}

theorem perm {others : List Nat} (h : pool.Holding held) (same : held.Perm others) :
    pool.Holding others := by
  refine ⟨h.alive, h.ladder, ((same.append_right _).nodup_iff).mp h.once, fun id => ?_, h.rungs, ?_,
    h.free, h.sized⟩
  · rw [← h.known, (same.append_right pool.unused).mem_iff]
  · intro id inside
    exact h.taken id (same.mem_iff.mpr inside)

theorem permanent_iff (h : pool.Holding held) {id : Nat} (inside : id < pool.targets.length) :
    pool.UsedAs id .permanent ↔ id ∈ pool.ladder := by
  refine ⟨fun permanent => ?_, h.rungs id⟩
  by_contra outside
  rcases List.mem_append.mp ((h.known id).mpr ⟨inside, outside⟩) with taken | free
  · cases permanent.unique (h.taken id taken)
  · cases permanent.unique (h.free id free)

theorem lt_of_mem (h : pool.Holding held) {id : Nat} (inside : id ∈ held ++ pool.unused) :
    id < pool.targets.length :=
  ((h.known id).mp inside).1

theorem lt_of_rung (h : pool.Holding held) {id : Nat} (rung : id ∈ pool.ladder) :
    id < pool.targets.length :=
  (h.rungs id rung).lt

theorem sized_append (h : pool.Holding held) {added : RenderTarget}
    (size : added.use ≠ .permanent → (added.width, added.height) = pool.renderSize) :
    ∀ (place : Nat) (target : RenderTarget), (pool.targets ++ [added])[place]? = some target →
      target.use ≠ .permanent → (target.width, target.height) = pool.renderSize := by
  intro place target found moved
  rcases List.mem_append.mp (List.mem_of_getElem? found) with inside | inside
  · obtain ⟨before, there⟩ := List.getElem?_of_mem inside
    exact h.sized before target there moved
  · cases List.mem_singleton.mp inside
    exact size moved

/-- A target keeps its size when it is used otherwise. -/
theorem sized_withUse (h : pool.Holding held) {id count : Nat} (used : pool.UsedAs id (.held count))
    (given : TargetUse) : ∀ (place : Nat) (target : RenderTarget),
      (pool.withUse id given).targets[place]? = some target → target.use ≠ .permanent →
        (target.width, target.height) = pool.renderSize := by
  intro place target found moved
  rw [withUse, List.getElem?_modify] at found
  obtain ⟨before, there, rfl⟩ := Option.map_eq_some_iff.mp found
  by_cases same : id = place
  · subst same
    obtain ⟨_, again, use⟩ := used
    rw [there] at again
    cases again
    have size := h.sized id before there (by rw [use]; exact TargetUse.noConfusion)
    rw [if_pos rfl]
    exact size
  · rw [if_neg same] at moved ⊢
    exact h.sized place before there moved

/-- The targets besides the ladder are those held and those free. -/
theorem size_eq (h : pool.Holding held) : pool.size = held.length + pool.unused.length := by
  have places : (List.range pool.targets.length).filter (fun id =>
      (pool.targets[id]?).any fun target => target.use ≠ .permanent) |>.Perm
        (held ++ pool.unused) := by
    rw [List.perm_ext_iff_of_nodup (List.nodup_range.filter _) h.once]
    intro id
    rw [List.mem_filter, List.mem_range, h.known]
    refine and_congr_right fun inside => ?_
    rw [← h.permanent_iff inside, UsedAs, List.getElem?_eq_getElem inside]
    simp
  rw [size, length_filter_eq_range, places.length_eq, List.length_append]

end Holding

/-! ### Requests -/

/-- What a request can hand out: the target that became free last, or a new one. -/
inductive Handout (device : Device) (pool : RenderTargets) : Nat → State → Prop
  | again {id : Nat} {others : List Nat} : pool.unused = others ++ [id] →
      Handout device pool id (device, { pool.withUse id (.held 1) with unused := others })
  | grown {framebuffer texture : Handle} {later : Device} : pool.unused = [] →
      device.createFramebuffer pool.renderSize.1 pool.renderSize.2 =
        (.ok (framebuffer, texture), later) →
      Handout device pool pool.targets.length (later, { pool with
        targets := pool.targets ++
          [⟨framebuffer, texture, pool.renderSize.1, pool.renderSize.2, .held 1⟩] })

theorem newFramebuffer_yields (width height : Nat) (device : Device) :
    (newFramebuffer width height).Yields device
      (fun handles later => device.createFramebuffer width height = (.ok handles, later))
      fun failure later => ∃ cause,
        device.createFramebuffer width height = (.error cause, later) ∧
        failure = .device cause := by
  unfold Action.Yields Action.runOn newFramebuffer
  cases created : device.createFramebuffer width height with
  | mk outcome later =>
    cases outcome with
    | ok handles =>
      simp [ExceptT.run, created]
    | error cause => simp [ExceptT.run, created]

theorem request_deleted (device : Device) {pool : RenderTargets} (dead : pool.deleted = true) :
    request.Yields (device, pool) (fun _ _ => False)
      fun failure after => failure = .targetsDeleted ∧ after = (device, pool) := by
  unfold request
  refine Action.Yields.get ?_
  dsimp only
  rw [if_pos dead]
  exact Action.Yields.throw ⟨rfl, rfl⟩

/-- **A request hands out a target, or fails where the device does.** -/
theorem request_yields (device : Device) {pool : RenderTargets} (alive : pool.deleted = false) :
    request.Yields (device, pool) (Handout device pool) fun failure after =>
      pool.unused = [] ∧ ∃ cause later,
        device.createFramebuffer pool.renderSize.1 pool.renderSize.2 = (.error cause, later) ∧
        failure = .device cause ∧ after = (later, pool) := by
  unfold request
  refine Action.Yields.get ?_
  dsimp only
  rw [if_neg (by simp [alive])]
  cases last : pool.unused.getLast? with
  | some id =>
    obtain ⟨others, same⟩ := List.getLast?_eq_some_iff.mp last
    have free : pool.unused.dropLast = others := by rw [same, List.dropLast_concat]
    refine Action.Yields.modify (Action.Yields.pure ?_)
    rw [free]
    exact .again same
  | none =>
    have full : pool.unused = [] := List.getLast?_eq_none_iff.mp last
    dsimp only
    refine Action.Yields.bind (Action.Yields.within (newFramebuffer_yields _ _ device)) ?_ ?_
    · rintro ⟨framebuffer, texture⟩ _ ⟨later, created, rfl⟩
      exact Action.Yields.modify (Action.Yields.pure (.grown full created))
    · rintro failure _ ⟨later, ⟨cause, created, rfl⟩, rfl⟩
      exact ⟨full, cause, later, created, rfl, rfl⟩

namespace Holding

variable {pool : RenderTargets} {held : List Nat}

/-- A target that is not of the ladder can be used otherwise, if it is listed where its new use
belongs and all others stay where they are. -/
theorem moved (h : pool.Holding held) {id count : Nat} (used : pool.UsedAs id (.held count))
    {use : TargetUse} {taken unused : List Nat}
    (same : (taken ++ unused).Perm (held ++ pool.unused))
    (nowTaken : ∀ place ∈ taken, place = id ∧ use = .held 1 ∨ id ≠ place ∧ place ∈ held)
    (nowFree : ∀ place ∈ unused, place = id ∧ use = .held 0 ∨ id ≠ place ∧ place ∈ pool.unused) :
    Holding { pool.withUse id use with unused } taken := by
  have length : (pool.withUse id use).targets.length = pool.targets.length :=
    List.length_modify ..
  refine ⟨h.alive, h.ladder, same.nodup_iff.mpr h.once, fun place => ?_, fun rung inside => ?_,
    fun place inside => ?_, fun place inside => ?_, h.sized_withUse used _⟩
  · rw [same.mem_iff, h.known place, length]
    exact Iff.rfl
  · refine (h.rungs rung inside).withUse_other ?_ _
    rintro rfl
    cases (h.rungs id inside).unique used
  · rcases nowTaken place inside with ⟨rfl, rfl⟩ | ⟨other, inside⟩
    · exact used.withUse_self _
    · exact (h.taken place inside).withUse_other other _
  · rcases nowFree place inside with ⟨rfl, rfl⟩ | ⟨other, inside⟩
    · exact used.withUse_self _
    · exact (h.free place inside).withUse_other other _

/-- The target that became free last can be held. -/
theorem again (h : pool.Holding held) {id : Nat} {others : List Nat}
    (free : pool.unused = others ++ [id]) :
    Holding { pool.withUse id (.held 1) with unused := others } (id :: held) := by
  have same : (id :: held ++ others).Perm (held ++ pool.unused) := by
    rw [free, ← List.append_assoc]
    exact (List.perm_append_singleton id (held ++ others)).symm
  have once := same.nodup_iff.mpr h.once
  have other : ∀ {place}, place ∈ held ++ others → id ≠ place := by
    rintro _ inside rfl
    exact (List.nodup_cons.mp once).1 inside
  refine h.moved (h.free id (by simp [free])) same (fun place inside => ?_) fun place inside => ?_
  · rcases List.mem_cons.mp inside with rfl | inside
    · exact .inl ⟨rfl, rfl⟩
    · exact .inr ⟨other (List.mem_append_left _ inside), inside⟩
  · refine .inr ⟨other (List.mem_append_right _ inside), ?_⟩
    rw [free]
    exact List.mem_append_left _ inside

/-- A target that is added can be held. -/
theorem grown (h : pool.Holding held) {added : RenderTarget} (use : added.use = .held 1)
    (size : (added.width, added.height) = pool.renderSize) :
    Holding { pool with targets := pool.targets ++ [added] } (pool.targets.length :: held) := by
  have notRung : pool.targets.length ∉ pool.ladder := fun rung =>
    Nat.lt_irrefl _ (h.lt_of_rung rung)
  have isNew : pool.targets.length ∉ held ++ pool.unused := fun inside =>
    Nat.lt_irrefl _ (h.lt_of_mem inside)
  refine ⟨h.alive, h.ladder, List.nodup_cons.mpr ⟨isNew, h.once⟩, fun place => ?_,
    fun rung inside => (h.rungs rung inside).append _, fun place inside => ?_,
    fun place inside => (h.free place inside).append _, h.sized_append fun _ => size⟩
  · rw [List.cons_append, List.mem_cons, h.known place, List.length_append,
      List.length_singleton, Nat.lt_succ_iff_lt_or_eq]
    constructor
    · rintro (rfl | ⟨inside, notRung⟩)
      · exact ⟨.inr rfl, notRung⟩
      · exact ⟨.inl inside, notRung⟩
    · rintro ⟨inside | rfl, notRung⟩
      · exact .inr ⟨inside, notRung⟩
      · exact .inl rfl
  · rcases List.mem_cons.mp inside with rfl | inside
    · exact use ▸ UsedAs.last added
    · exact (h.taken place inside).append _

end Holding

namespace Handout

variable {device later : Device} {pool : RenderTargets} {id : Nat} {changed : RenderTargets}
  {held : List Nat}

theorem holding (handout : Handout device pool id (later, changed)) (h : pool.Holding held) :
    changed.Holding (id :: held) := by
  cases handout with
  | again free => exact h.again free
  | grown => exact h.grown rfl rfl

end Handout

/-! ### Giving back -/

/-- A target that is held by one is free when it is given back. -/
theorem Holding.release {pool : RenderTargets} {id : Nat} {held : List Nat}
    (h : pool.Holding (id :: held)) :
    ∃ changed, pool.release id = .ok changed ∧ changed.Holding held ∧
      changed = { pool.withUse id (.held 0) with unused := pool.unused ++ [id] } := by
  have used := h.taken id List.mem_cons_self
  have holders : pool.holders id = .ok 1 := by
    obtain ⟨target, found, use⟩ := used
    rw [holders, found]
    dsimp only
    rw [use]
  refine ⟨_, ?_, ?_, rfl⟩
  · unfold RenderTargets.release
    rw [holders]
    rfl
  have same : (held ++ (pool.unused ++ [id])).Perm (id :: held ++ pool.unused) := by
    rw [← List.append_assoc]
    exact List.perm_append_singleton id (held ++ pool.unused)
  have other : ∀ {place}, place ∈ held ++ pool.unused → id ≠ place := by
    rintro _ inside rfl
    exact (List.nodup_cons.mp h.once).1 inside
  refine h.moved used same (fun place inside => ?_) fun place inside => ?_
  · exact .inr ⟨other (List.mem_append_left _ inside), List.mem_cons_of_mem _ inside⟩
  · rcases List.mem_append.mp inside with inside | inside
    · exact .inr ⟨other (List.mem_append_right _ inside), inside⟩
    · exact .inl ⟨List.mem_singleton.mp inside, rfl⟩

/-- A target that is not held cannot be given back. -/
theorem Holding.release_error {pool : RenderTargets} {id : Nat} {held : List Nat}
    (h : pool.Holding held) (outside : id ∉ held) :
    ∃ failure, pool.release id = .error failure := by
  have refused : ∃ failure, pool.holders id = .error failure := by
    unfold holders
    by_cases inside : id < pool.targets.length
    · by_cases rung : id ∈ pool.ladder
      · obtain ⟨target, found, use⟩ := h.rungs id rung
        rw [found]
        dsimp only
        rw [use]
        exact ⟨_, rfl⟩
      · have known := (h.known id).mpr ⟨inside, rung⟩
        obtain ⟨target, found, use⟩ := h.free id ((List.mem_append.mp known).resolve_left outside)
        rw [found]
        dsimp only
        rw [use]
        exact ⟨_, rfl⟩
    · rw [List.getElem?_eq_none (Nat.le_of_not_lt inside)]
      exact ⟨_, rfl⟩
  obtain ⟨failure, refused⟩ := refused
  exact ⟨failure, by rw [RenderTargets.release, refused]; rfl⟩

/-- The targets in use are those that are held. -/
theorem Holding.inUse_perm {pool : RenderTargets} {held : List Nat} (h : pool.Holding held) :
    pool.inUse.Perm held := by
  unfold inUse
  rw [List.perm_ext_iff_of_nodup (List.nodup_range.filter _) (List.nodup_append.mp h.once).1]
  intro id
  rw [List.mem_filter, List.mem_range]
  constructor
  · rintro ⟨inside, used⟩
    by_contra notHeld
    by_cases rung : id ∈ pool.ladder
    · obtain ⟨target, found, use⟩ := h.rungs id rung
      rw [found] at used
      obtain ⟨_, _, _, _, _⟩ := target
      cases use
      cases used
    · have known := (h.known id).mpr ⟨inside, rung⟩
      have free := (List.mem_append.mp known).resolve_left notHeld
      obtain ⟨target, found, use⟩ := h.free id free
      rw [found] at used
      obtain ⟨_, _, _, _, _⟩ := target
      cases use
      cases used
  · intro inside
    obtain ⟨target, found, use⟩ := h.taken id inside
    refine ⟨(h.taken id inside).lt, ?_⟩
    rw [found]
    obtain ⟨_, _, _, _, _⟩ := target
    cases use
    rfl

theorem usedAs_reclaim {pool : RenderTargets} {id : Nat} {use : TargetUse}
    (h : pool.UsedAs id use) :
    pool.reclaim.2.UsedAs id (if use = .permanent then .permanent else .held 0) := by
  obtain ⟨target, found, rfl⟩ := h
  refine ⟨_, by rw [reclaim, List.getElem?_map, found]; rfl, ?_⟩
  cases use : target.use with
  | permanent => simp [use]
  | held count => simp [use]

/-- **Nothing is in use after everything was taken back**, whatever was held. -/
theorem Holding.reclaim {pool : RenderTargets} {held : List Nat} (h : pool.Holding held) :
    pool.reclaim.2.Idle := by
  have same : (pool.unused ++ pool.inUse).Perm (held ++ pool.unused) :=
    (h.inUse_perm.append_left _).trans List.perm_append_comm
  have length : pool.reclaim.2.targets.length = pool.targets.length := List.length_map ..
  refine ⟨h.alive, h.ladder, same.nodup_iff.mpr h.once, fun id => ?_, fun id inside => ?_,
    fun id inside => ?_, fun id inside => ?_, fun id target found moved => ?_⟩
  · rw [List.nil_append, length]
    exact same.mem_iff.trans (h.known id)
  · exact usedAs_reclaim (h.rungs id inside)
  · cases inside
  · rcases List.mem_append.mp inside with inside | inside
    · exact usedAs_reclaim (h.free id inside)
    · exact usedAs_reclaim (h.taken id (h.inUse_perm.mem_iff.mp inside))
  · rw [RenderTargets.reclaim, List.getElem?_map] at found
    obtain ⟨before, there, rfl⟩ := Option.map_eq_some_iff.mp found
    cases use : before.use with
    | permanent =>
      rw [use] at moved
      exact absurd use moved
    | held count => exact h.sized id before there (by rw [use]; exact TargetUse.noConfusion)

/-! ### Textures of their own -/

/-- The framebuffers of the targets, and their textures. -/
def handles (pool : RenderTargets) : List (Handle × Handle) :=
  pool.targets.map fun target => (target.framebuffer, target.texture)

theorem texture_of_handles {pool changed : RenderTargets} {id : Nat} {target : RenderTarget}
    (same : changed.handles[id]? = pool.handles[id]?) (found : pool.targets[id]? = some target) :
    ∃ other, changed.targets[id]? = some other ∧ other.texture = target.texture := by
  rw [handles, handles, List.getElem?_map, List.getElem?_map, found] at same
  obtain ⟨other, there, equal⟩ := Option.map_eq_some_iff.mp same
  exact ⟨other, there, congrArg Prod.snd equal⟩

/-- No two targets share a texture, and none shares it with something else. -/
structure Apart (pool : RenderTargets) (device : Device) (others : List Handle) : Prop where
  /-- what else there is -/
  given : ∀ texture ∈ others, texture < device.nextHandle
  below : ∀ pair ∈ pool.handles, pair.1 < device.nextHandle ∧ pair.2 < device.nextHandle
  once : (pool.handles.map (·.2)).Nodup
  other : ∀ pair ∈ pool.handles, pair.2 ∉ others
  attached : ∀ pair ∈ pool.handles, device.attached pair.1 = some pair.2

namespace Apart

variable {device later : Device} {pool changed : RenderTargets} {others more : List Handle}

/-- Textures stay apart while others are made only. -/
theorem onward (h : Apart pool device others) (onward : Device.Onward device later)
    (same : changed.handles = pool.handles)
    (made : device.Gains later others more) :
    Apart changed later more := by
  refine ⟨fun texture inside => ?_, ?_, ?_, ?_, ?_⟩
  · rcases made texture inside with old | new
    · exact Nat.lt_of_lt_of_le (h.given texture old) onward.handles
    · exact new.given
  · rw [same]
    intro pair inside
    have below := h.below pair inside
    exact ⟨Nat.lt_of_lt_of_le below.1 onward.handles, Nat.lt_of_lt_of_le below.2 onward.handles⟩
  · rw [same]
    exact h.once
  · rw [same]
    intro pair inside other
    rcases made pair.2 other with old | new
    · exact h.other pair inside old
    · exact Nat.not_lt_of_le new.new (h.below pair inside).2
  · rw [same]
    intro pair inside
    rw [onward.attached pair.1 (h.below pair inside).1]
    exact h.attached pair inside

/-- A new target has a texture of its own. -/
theorem append (h : Apart pool device others) {width height : Nat} {framebuffer texture : Handle}
    (created : device.createFramebuffer width height = (.ok (framebuffer, texture), later))
    (added : changed.handles = pool.handles ++ [(framebuffer, texture)]) :
    Apart changed later others := by
  have onward := device.onward_createFramebuffer width height
  rw [created] at onward
  have kept : Apart pool later others := h.onward onward rfl (.refl others)
  obtain ⟨rfl, rfl, rfl⟩ := Device.createFramebuffer_ok created
  have new : device.nextHandle ∉ pool.handles.map (·.2) := by
    intro inside
    obtain ⟨pair, there, same⟩ := List.mem_map.mp inside
    exact Nat.lt_irrefl _ (same ▸ (h.below pair there).2)
  refine ⟨kept.given, ?_, ?_, ?_, ?_⟩
  · rw [added]
    intro pair inside
    rcases List.mem_append.mp inside with inside | inside
    · exact kept.below pair inside
    · cases List.mem_singleton.mp inside
      exact ⟨Nat.lt_succ_self _, Nat.lt_add_of_pos_right (by decide)⟩
  · rw [added, List.map_append, List.map_singleton, ← List.concat_eq_append]
    exact h.once.concat new
  · rw [added]
    intro pair inside
    rcases List.mem_append.mp inside with inside | inside
    · exact h.other pair inside
    · cases List.mem_singleton.mp inside
      exact fun other => Nat.lt_irrefl _ (h.given _ other)
  · rw [added]
    intro pair inside
    rcases List.mem_append.mp inside with inside | inside
    · exact kept.attached pair inside
    · cases List.mem_singleton.mp inside
      exact if_pos rfl

end Apart

/-! ### How a pool grows -/

/-- The framebuffers of the targets. -/
def framebuffers (pool : RenderTargets) : List Handle :=
  pool.handles.map (·.1)

/-- A pool and its device before and after: targets were added up to a limit only, none was
asked for if the pool had reached it, and what the device has more belongs to them. -/
structure Grew (limit : Nat) (before after : State) : Prop where
  larger : before.2.size ≤ after.2.size
  bounded : after.2.size ≤ max before.2.size limit
  content : limit ≤ before.2.size → after.1.framebuffersAsked = before.1.framebuffersAsked
  added : before.1.Fresh → after.1.Fresh ∧ ∃ new,
    after.1.framebuffers.keys = before.1.framebuffers.keys ++ new ∧
    after.2.framebuffers = before.2.framebuffers ++ new
  onward : Device.Onward before.1 after.1
  apart : ∀ others, Apart before.2 before.1 others → Apart after.2 after.1 others

namespace Grew

variable {limit : Nat} {a b c : State}

theorem of_calm {device later : Device} {pool changed : RenderTargets}
    (calm : Device.Calm device later) (size : changed.size = pool.size)
    (same : changed.handles = pool.handles) (limit : Nat) :
    Grew limit (device, pool) (later, changed) where
  larger := Nat.le_of_eq size.symm
  bounded := Nat.le_trans (Nat.le_of_eq size) (Nat.le_max_left _ _)
  content _ := calm.asked
  added fresh := ⟨calm.fresh fresh, [], by rw [calm.keys, List.append_nil],
    by rw [framebuffers, same, List.append_nil, framebuffers]⟩
  onward := calm.onward
  apart others h := h.onward calm.onward same (.refl others)

theorem refl (limit : Nat) (state : State) : Grew limit state state :=
  of_calm (.refl state.1) rfl rfl limit

theorem mono {more : Nat} (h : Grew limit a b) (le : limit ≤ more) : Grew more a b where
  larger := h.larger
  bounded := Nat.le_trans h.bounded (by omega)
  content enough := h.content (Nat.le_trans le enough)
  added := h.added
  onward := h.onward
  apart := h.apart

theorem trans (h : Grew limit a b) (h' : Grew limit b c) : Grew limit a c where
  larger := Nat.le_trans h.larger h'.larger
  bounded := by
    have first := h.bounded
    have second := h'.bounded
    omega
  content enough := (h'.content (Nat.le_trans enough h.larger)).trans (h.content enough)
  added fresh := by
    obtain ⟨freshB, new, keys, same⟩ := h.added fresh
    obtain ⟨freshC, more, keys', same'⟩ := h'.added freshB
    exact ⟨freshC, new ++ more, by rw [keys', keys, List.append_assoc],
      by rw [same', same, List.append_assoc]⟩
  onward := h.onward.trans h'.onward
  apart others apart := h'.apart others (h.apart others apart)

end Grew

theorem handles_withUse (pool : RenderTargets) (id : Nat) (use : TargetUse) :
    (pool.withUse id use).handles = pool.handles := by
  refine List.ext_getElem? fun place => ?_
  simp only [handles, withUse, List.getElem?_map, List.getElem?_modify]
  cases pool.targets[place]? with
  | none => rfl
  | some target =>
    by_cases same : id = place <;> simp [same]

section

variable {device later : Device} {pool changed : RenderTargets} {id : Nat} {held : List Nat}

theorem Handout.handles_eq (handout : Handout device pool id (later, changed)) :
    later = device ∧ changed.handles = pool.handles ∨
    ∃ framebuffer texture, id = pool.targets.length ∧
      device.createFramebuffer pool.renderSize.1 pool.renderSize.2 =
        (.ok (framebuffer, texture), later) ∧
      changed.handles = pool.handles ++ [(framebuffer, texture)] := by
  cases handout with
  | again free => exact .inl ⟨rfl, handles_withUse pool id (.held 1)⟩
  | grown full created => exact .inr ⟨_, _, rfl, created, List.map_append⟩

theorem Handout.kept (handout : Handout device pool id (later, changed)) {place : Nat}
    (inside : place < pool.targets.length) : changed.handles[place]? = pool.handles[place]? := by
  rcases handout.handles_eq with ⟨_, same⟩ | ⟨framebuffer, texture, _, _, added⟩
  · rw [same]
  · rw [added, List.getElem?_append_left]
    rwa [handles, List.length_map]

/-- What is handed out has the texture that it had, or a new one. -/
theorem Handout.texture (handout : Handout device pool id (later, changed)) {target : RenderTarget}
    (found : changed.targets[id]? = some target) :
    (∃ before, pool.targets[id]? = some before ∧ before.texture = target.texture) ∨
    device.nextHandle ≤ target.texture := by
  rcases handout.handles_eq with ⟨_, same⟩ | ⟨framebuffer, texture, rfl, created, added⟩
  · exact .inl (texture_of_handles (by rw [same]) found)
  · obtain ⟨rfl, _, _⟩ := Device.createFramebuffer_ok created
    have last : changed.handles[pool.targets.length]? = some (framebuffer, device.nextHandle) := by
      have length : pool.targets.length = pool.handles.length := (List.length_map _).symm
      rw [added, length]
      exact List.getElem?_concat_length ..
    rw [handles, List.getElem?_map, found] at last
    exact .inr (Nat.le_of_eq (congrArg Prod.snd (Option.some.inj last)).symm)

/-- **A request makes room for one target more than are held**, and not for others. -/
theorem Handout.grew (handout : Handout device pool id (later, changed)) (h : pool.Holding held) :
    Grew (held.length + 1) (device, pool) (later, changed) ∧ held.length + 1 ≤ changed.size := by
  have before := h.size_eq
  have after := (handout.holding h).size_eq
  rw [List.length_cons] at after
  refine ⟨?_, by omega⟩
  cases handout with
  | again free =>
    rw [free, List.length_append, List.length_singleton] at before
    dsimp only at after
    apply Grew.of_calm (.refl device)
    · dsimp only
      omega
    · exact handles_withUse pool id (.held 1)
  | grown full created =>
    have none : pool.unused.length = 0 := by rw [full, List.length_nil]
    dsimp only at after
    have onward := device.onward_createFramebuffer pool.renderSize.1 pool.renderSize.2
    rw [created] at onward
    refine ⟨?_, ?_, fun enough => ?_, fun fresh => ?_, onward, fun others apart => ?_⟩
    · dsimp only
      omega
    · dsimp only
      omega
    · dsimp only at enough
      omega
    · obtain ⟨freshLater, keys⟩ := Device.createFramebuffer_fresh fresh created
      exact ⟨freshLater, [_], keys, by simp [framebuffers, handles]⟩
    · exact apart.append created List.map_append

/-- A request that fails leaves the pool, and fails only if all targets are held. -/
theorem grew_of_error {cause : DeviceFailure} {width height : Nat} (h : pool.Holding held)
    (full : pool.unused = [])
    (failed : device.createFramebuffer width height = (.error cause, later)) :
    Grew (held.length + 1) (device, pool) (later, pool) := by
  have size := h.size_eq
  rw [full, List.length_nil] at size
  have onward := device.onward_createFramebuffer width height
  rw [failed] at onward
  refine ⟨Nat.le_refl _, Nat.le_max_left _ _, fun enough => ?_, fun fresh => ?_, onward,
    fun others apart => apart.onward onward rfl (.refl others)⟩
  · dsimp only at enough
    omega
  · refine ⟨?_, [], ?_, (List.append_nil _).symm⟩
    · rcases Device.createFramebuffer_error failed with rfl | rfl <;>
        exact ⟨fresh.once, fresh.below⟩
    · rw [List.append_nil]
      rcases Device.createFramebuffer_error failed with rfl | rfl <;> rfl

/-- Giving a target back changes neither the size nor the framebuffers. -/
theorem Holding.release_grew (h : pool.Holding (id :: held)) (limit : Nat) :
    ∃ changed, pool.release id = .ok changed ∧ changed.Holding held ∧
      Grew limit (device, pool) (device, changed) := by
  obtain ⟨changed, released, holding, rfl⟩ := h.release
  refine ⟨_, released, holding, ?_⟩
  have before := h.size_eq
  have after := holding.size_eq
  simp only [List.length_cons, List.length_append, List.length_nil] at before after
  apply Grew.of_calm (.refl device)
  · dsimp only at after ⊢
    omega
  · exact handles_withUse pool id (.held 0)

/-- Taking everything back changes neither the size nor the framebuffers. -/
theorem Holding.reclaim_grew (h : pool.Holding held) (limit : Nat) :
    Grew limit (device, pool) (device, pool.reclaim.2) := by
  have before := h.size_eq
  have after := h.reclaim.size_eq
  have taken := h.inUse_perm.length_eq
  have free : pool.reclaim.2.unused.length = pool.unused.length + pool.inUse.length :=
    List.length_append ..
  rw [List.length_nil] at after
  apply Grew.of_calm (.refl device)
  · omega
  · simp only [handles, RenderTargets.reclaim, List.map_map]
    refine List.map_congr_left fun target _ => ?_
    simp only [Function.comp_apply]
    split <;> rfl

end

end RenderTargets
end Collage
