import Collage.Proofs.Frame.Belongings

/-!
# Textures are shared by what they show

A cache is asked for textures, polled, pruned and cleared any number of times, with any loader and
on a device that may run out of memory at any time.  Then what shows the same is one texture, and
what shows something else is another one (`TextureCache.Shared`): the textures of a cache are those
that it has created and not deleted, a texture of a sampler has been loaded once and one of a
gradient never, and nothing is asked of the loader about a texture that is final.

A loader that writes down what is asked of it tells the calls of the loader (`Logged`); it does what
the loader itself does (`run_inner`).
-/

namespace Collage

/-! ### Bits of gradients -/

/-- Whether two stops have the same position and channels, bit by bit. -/
def GradientStop.SameBits (stop other : GradientStop Float32) : Prop :=
  stop.position.toBits = other.position.toBits ∧
    stop.color.toList.map Float32.toBits = other.color.toList.map Float32.toBits

/-- **Gradients have one key exactly if their stops are the same**, bit by bit and in their
order. -/
theorem Gradient.key_eq_iff {ramp other : Gradient Float32} :
    ramp.key = other.key ↔ List.Forall₂ GradientStop.SameBits ramp.stops other.stops := by
  obtain ⟨stops⟩ := ramp
  obtain ⟨others⟩ := other
  unfold key
  dsimp only
  induction stops generalizing others with
  | nil =>
    cases others with
    | nil => exact iff_of_true rfl .nil
    | cons second others =>
      refine iff_of_false ?_ ?_
      · intro same
        cases same
      · intro each
        cases each
  | cons first stops ih =>
    cases others with
    | nil =>
      refine iff_of_false ?_ ?_
      · intro same
        cases same
      · intro each
        cases each
    | cons second others =>
      have whole : ((first.position :: first.color.toList).map Float32.toBits =
          (second.position :: second.color.toList).map Float32.toBits) ↔ first.SameBits second := by
        rw [List.map_cons, List.map_cons, List.cons_eq_cons]
        rfl
      rw [List.flatMap_cons, List.flatMap_cons, List.forall₂_cons, ← ih, ← whole]
      -- every stop gives five words
      exact ⟨fun same => List.append_inj same rfl, fun ⟨same, others⟩ => by rw [same, others]⟩

/-! ### Entries of tables -/

namespace Table

variable {κ α : Type} [DecidableEq κ]

theorem entries_set_of_notMem {t : Table κ α} {key : κ} (outside : key ∉ t.keys) (value : α) :
    (t.set key value).entries = t.entries ++ [(key, value)] := by
  obtain ⟨entries⟩ := t
  simp only [set, keys] at *
  induction entries with
  | nil => rfl
  | cons entry rest ih =>
    obtain ⟨k, v⟩ := entry
    obtain ⟨different, later⟩ := List.ne_and_not_mem_of_not_mem_cons outside
    rw [put, if_neg (Ne.symm different), ih later, List.cons_append]

/-- What changing a value does to a look-up. -/
theorem get?_modify (t : Table κ α) (key : κ) (f : α → α) (asked : κ) :
    (t.modify key f).get? asked =
      (t.get? asked).map fun value => if asked = key then f value else value := by
  obtain ⟨entries⟩ := t
  simp only [modify, get?]
  induction entries with
  | nil => rfl
  | cons entry rest ih =>
    obtain ⟨k, v⟩ := entry
    by_cases found : k = asked
    · subst found
      by_cases changed : k = key <;> simp [find?, changed]
    · by_cases changed : k = key
      · subst changed
        simp [find?, found, ih]
      · simp [find?, changed, found, ih]

/-- What holds of all entries of a table with a new key. -/
theorem forall_entries_set {t : Table κ α} {key : κ} (outside : key ∉ t.keys) {value : α}
    {p : κ × α → Prop} : (∀ entry ∈ (t.set key value).entries, p entry) ↔
      (∀ entry ∈ t.entries, p entry) ∧ p (key, value) := by
  rw [entries_set_of_notMem outside, List.forall_mem_append, List.forall_mem_singleton]

theorem keys_modify (t : Table κ α) (key : κ) (f : α → α) : (t.modify key f).keys = t.keys := by
  simp only [modify, keys, List.map_map]
  refine List.map_congr_left fun entry _ => ?_
  by_cases changed : entry.1 = key <;> simp [changed]

omit [DecidableEq κ] in
theorem keys_keep (t : Table κ α) (p : κ → Bool) : (t.keep p).keys = t.keys.filter p :=
  List.filter_map.symm

/-- Entries of other keys stay. -/
theorem mem_entries_modify {t : Table κ α} {key : κ} {f : α → α} {entry : κ × α}
    (inside : entry ∈ t.entries) (other : entry.1 ≠ key) : entry ∈ (t.modify key f).entries :=
  List.mem_map.mpr ⟨entry, inside, if_neg other⟩

end Table

namespace TextureCache

open Collage.Action

/-! ### Asking for textures -/

section

variable {ℓ : Type}

/-- The texture of a key: the one that is there, or a new one that is filled and perhaps loaded. -/
def obtain (key : TextureKey) (filter : TextureFilter) (wrap : TextureWrap) (width : Nat)
    (bytes : List UInt8) (ready : Bool) (load : Handle → ℓ → ℓ) (state : State ℓ) :
    Except Failure Handle × State ℓ :=
  match state.cache.get? key with
  | some entry => (.ok entry.texture, state)
  | none =>
    match state.device.createTexture filter wrap with
    | (.ok texture, device) => (.ok texture,
        { device := device.uploadTexture texture width 1 bytes
          loader := load texture state.loader
          cache := state.cache.set key ⟨texture, ready⟩ })
    | (.error cause, device) => (.error (.device cause), { state with device })

theorem runOn_eq_of_yields {σ α : Type} {action : Action σ α} {state : σ}
    {ended : Except Failure α × σ}
    (h : action.Yields state (fun value after => ended = (.ok value, after))
      fun failure after => ended = (.error failure, after)) : action.runOn state = ended := by
  unfold Yields at h
  cases ran : action.runOn state with
  | mk outcome after =>
    rw [ran] at h
    cases outcome <;> exact h.symm

/-- Samplers and gradients are asked for in the same way. -/
theorem runOn_obtain (key : TextureKey) (filter : TextureFilter) (wrap : TextureWrap) (width : Nat)
    (bytes : List UInt8) (ready : Bool) (load : Handle → ℓ → ℓ) (state : State ℓ) :
    (do
      match (← get).cache.get? key with
      | some entry => return entry.texture
      | none =>
        let texture ← onDevice (newTexture filter wrap)
        modify fun state =>
          { device := state.device.uploadTexture texture width 1 bytes
            loader := load texture state.loader
            cache := state.cache.set key ⟨texture, ready⟩ }
        return texture : Action (State ℓ) Handle).runOn state =
      obtain key filter wrap width bytes ready load state := by
  refine runOn_eq_of_yields ?_
  unfold obtain
  refine Yields.get ?_
  cases state.cache.get? key with
  | some entry => exact Yields.pure rfl
  | none =>
    refine Yields.bind (Yields.within (newTexture_yields _ _ _)) ?_ ?_
    · rintro texture _ ⟨later, created, rfl⟩
      refine Yields.modify (Yields.pure ?_)
      dsimp only
      rw [created]
    · rintro failure _ ⟨later, ⟨cause, failed, rfl⟩, rfl⟩
      dsimp only
      rw [failed]

theorem runOn_gradient (ramp : Gradient Float32) (state : State ℓ) :
    (gradient ramp).runOn state = obtain (.gradient ramp.key) .linear .clamp gradientWidth
      (gradientBytes ramp) true (fun _ loader => loader) state := by
  unfold gradient
  exact runOn_obtain _ _ _ gradientWidth (gradientBytes ramp) true (fun _ loader => loader) state

theorem runOn_sampler [TextureLoader ℓ] (descriptor : TextureDescriptor) (state : State ℓ) :
    (sampler descriptor).runOn state = obtain (.sampler descriptor) descriptor.filter
      descriptor.wrap 1 [0, 0, 0, 0] false (TextureLoader.load descriptor) state := by
  unfold sampler
  exact runOn_obtain _ _ _ 1 [0, 0, 0, 0] false (TextureLoader.load descriptor) state

end

/-! ### Calls of a cache -/

/-- What a cache may be asked to do. -/
inductive CacheCall
  | sampler (descriptor : TextureDescriptor)
  | gradient (ramp : Gradient Float32)
  | poll
  | retain (live : List TextureKey)
  | clear

/-- A cache at work, with the textures that were given so far for what was asked, the newest
first. -/
structure Session (ℓ : Type) where
  state : State ℓ
  answers : List (TextureKey × Handle) := []

/-- Writes down which texture was given for a key. -/
def Session.answer {ℓ : Type} (session : Session ℓ) (key : TextureKey) :
    Except Failure Handle × State ℓ → Session ℓ
  | (.ok texture, state) => ⟨state, (key, texture) :: session.answers⟩
  | (.error _, state) => ⟨state, session.answers⟩

section

variable {ℓ : Type} [TextureLoader ℓ]

/-- A cache after a call. -/
def Session.call (session : Session ℓ) : CacheCall → Session ℓ
  | .sampler descriptor =>
    session.answer (.sampler descriptor) ((TextureCache.sampler descriptor).runOn session.state)
  | .gradient ramp =>
    session.answer (.gradient ramp.key) ((TextureCache.gradient ramp).runOn session.state)
  | .poll => { session with state := TextureCache.poll session.state }
  | .retain live =>
    let (device, cache) := TextureCache.retain live session.state.device session.state.cache
    { session with state := { session.state with device, cache } }
  | .clear =>
    let (device, cache) := TextureCache.clear session.state.device session.state.cache
    { session with state := { session.state with device, cache } }

/-- An empty cache after calls, the first of them first. -/
def run (device : Device) (loader : ℓ) (calls : List CacheCall) : Session ℓ :=
  calls.foldl Session.call ⟨⟨device, loader, {}⟩, []⟩

end

/-! ### What is asked of a loader -/

/-- What is asked of a loader; when it is asked for news, with whether it says that the texture is
final. -/
inductive LoaderCall
  | load (descriptor : TextureDescriptor) (texture : Handle)
  | update (texture : Handle) (final : Bool)
  deriving DecidableEq

/-- A loader with what was asked of it, the newest first. -/
structure Logged (ℓ : Type) where
  inner : ℓ
  calls : List LoaderCall := []

instance {ℓ : Type} [TextureLoader ℓ] : TextureLoader (Logged ℓ) where
  load descriptor texture loader :=
    ⟨TextureLoader.load descriptor texture loader.inner, .load descriptor texture :: loader.calls⟩
  update texture loader :=
    let ((picture, final), inner) := TextureLoader.update texture loader.inner
    ((picture, final), ⟨inner, .update texture final :: loader.calls⟩)

/-- The texture that a loader is asked about. -/
def LoaderCall.texture : LoaderCall → Handle
  | load _ texture => texture
  | update texture _ => texture

/-- Whether a loader is asked to load a texture. -/
def LoaderCall.loads (texture : Handle) : LoaderCall → Bool
  | load _ other => other = texture
  | update .. => false

end TextureCache

/-- The texture that a call created. -/
def DeviceEvent.createdTexture? : DeviceEvent → Option Handle
  | createTexture texture _ _ => some texture
  | _ => none

/-- The texture that a call deleted. -/
def DeviceEvent.deletedTexture? : DeviceEvent → Option Handle
  | deleteTexture texture => some texture
  | _ => none

/-- The loads of the texture of a key. -/
def TextureKey.loadsFor (texture : Handle) : TextureKey → List TextureCache.LoaderCall
  | sampler descriptor => [.load descriptor texture]
  | gradient _ => []

/-- Whether a texture of a key is final from the beginning. -/
def TextureKey.isGradient : TextureKey → Bool
  | gradient _ => true
  | sampler _ => false

namespace TextureCache

variable {ℓ : Type}

/-- What holds of a cache at work, when `news` is what the device was told meanwhile, the newest
first. -/
structure Shared (news : List DeviceEvent) (session : Session (Logged ℓ)) : Prop where
  /-- the textures of the cache are all that were created and not deleted, each once -/
  held : (handles session.state.cache ++ news.filterMap DeviceEvent.deletedTexture?).Perm
    (news.filterMap DeviceEvent.createdTexture?)
  once : (news.filterMap DeviceEvent.createdTexture?).Nodup
  /-- they are on the device -/
  live : ∀ texture ∈ handles session.state.cache, texture ∈ session.state.device.textures.keys
  keys : session.state.cache.keys.Nodup
  /-- every texture of the cache was given for its key -/
  answered : ∀ entry ∈ session.state.cache.entries, (entry.1, entry.2.texture) ∈ session.answers
  /-- as long as a texture that was given is not deleted it is that of its key -/
  same : ∀ answer ∈ session.answers, answer.2 ∈ news.filterMap DeviceEvent.deletedTexture? ∨
    ∃ ready, session.state.cache.get? answer.1 = some ⟨answer.2, ready⟩
  /-- a texture is given for one key only -/
  different : ∀ answer ∈ session.answers, ∀ other ∈ session.answers,
    answer.2 = other.2 → answer.1 = other.1
  /-- a texture of a sampler has been loaded once, and one of a gradient never -/
  loaded : ∀ answer ∈ session.answers,
    session.state.loader.calls.filter (LoaderCall.loads answer.2) = answer.1.loadsFor answer.2
  /-- a texture is final if it is one of a gradient, or the loader has said so -/
  ready : ∀ entry ∈ session.state.cache.entries, entry.2.ready = true ↔
    entry.1.isGradient = true ∨ .update entry.2.texture true ∈ session.state.loader.calls
  /-- nothing is asked about a texture of a gradient -/
  unasked : ∀ answer ∈ session.answers, answer.1.isGradient = true →
    ∀ call ∈ session.state.loader.calls, call.texture ≠ answer.2
  /-- nothing is asked about a texture once the loader has said that it is final -/
  final : session.state.loader.calls.Pairwise fun later earlier =>
    earlier ≠ .update later.texture true
  /-- only textures of the cache are asked about -/
  known : ∀ call ∈ session.state.loader.calls,
    call.texture ∈ news.filterMap DeviceEvent.createdTexture?
  below : ∀ texture ∈ news.filterMap DeviceEvent.createdTexture?,
    texture < session.state.device.nextHandle

theorem LoaderCall.texture_of_loads {texture : Handle} {call : LoaderCall}
    (loads : call.loads texture = true) : call.texture = texture := by
  cases call with
  | load descriptor other => exact of_decide_eq_true loads
  | update => cases loads

theorem filter_loads_of_ne {texture : Handle} {calls : List LoaderCall}
    (others : ∀ call ∈ calls, call.texture ≠ texture) :
    calls.filter (LoaderCall.loads texture) = [] :=
  List.filter_eq_nil_iff.mpr fun call inside loads =>
    others call inside (LoaderCall.texture_of_loads loads)

theorem loadsFor_of_isGradient {key : TextureKey} (gradient : key.isGradient = true)
    (texture : Handle) : key.loadsFor texture = [] := by
  cases key with
  | sampler => cases gradient
  | gradient => rfl

theorem of_mem_loadsFor {texture : Handle} {key : TextureKey} {call : LoaderCall}
    (inside : call ∈ key.loadsFor texture) :
    call.texture = texture ∧ key.isGradient = false ∧
      ∀ other final, call ≠ .update other final := by
  cases key with
  | sampler descriptor =>
    obtain rfl := List.mem_singleton.mp inside
    exact ⟨rfl, rfl, fun _ _ => LoaderCall.noConfusion⟩
  | gradient => cases inside

section

variable {texture other : Handle} {calls : List LoaderCall}

/-- A texture that is loaded first is loaded once. -/
theorem filter_loads_self (others : ∀ call ∈ calls, call.texture ≠ texture) (key : TextureKey) :
    (key.loadsFor texture ++ calls).filter (LoaderCall.loads texture) = key.loadsFor texture := by
  rw [List.filter_append, filter_loads_of_ne others, List.append_nil]
  cases key with
  | sampler descriptor => exact List.filter_cons_of_pos (decide_eq_true rfl)
  | gradient => rfl

theorem ne_of_mem_loadsFor (apart : other ≠ texture) (key : TextureKey) :
    ∀ call ∈ key.loadsFor texture, call.texture ≠ other :=
  fun _ inside same => apart (same.symm.trans (of_mem_loadsFor inside).1)

theorem filter_loads_other (apart : other ≠ texture) (key : TextureKey) :
    (key.loadsFor texture ++ calls).filter (LoaderCall.loads other) =
      calls.filter (LoaderCall.loads other) := by
  rw [List.filter_append, filter_loads_of_ne (ne_of_mem_loadsFor apart key), List.nil_append]

theorem update_mem_loadsFor_append {key : TextureKey} {final : Bool} :
    .update other final ∈ key.loadsFor texture ++ calls ↔ .update other final ∈ calls := by
  rw [List.mem_append, or_iff_right]
  exact fun among => (of_mem_loadsFor among).2.2 _ _ rfl

/-- A texture that is loaded first was not said to be final. -/
theorem pairwise_loadsFor_append (others : ∀ call ∈ calls, call.texture ≠ texture)
    (ordered : calls.Pairwise fun later earlier => earlier ≠ .update later.texture true)
    (key : TextureKey) : (key.loadsFor texture ++ calls).Pairwise fun later earlier =>
      earlier ≠ .update later.texture true := by
  refine List.pairwise_append.mpr ⟨?_, ordered, fun later inside earlier among same => ?_⟩
  · cases key with
    | sampler => exact List.pairwise_singleton _ _
    | gradient => exact .nil
  · rw [(of_mem_loadsFor inside).1] at same
    exact others earlier among (same ▸ rfl)

end

/-- An entry of a cache after one was marked as final or not, by what it was before. -/
theorem exists_of_mem_marked {cache : TextureCache} {key : TextureKey} {final : Bool}
    {entry : TextureKey × CachedTexture}
    (inside : entry ∈ (cache.modify key fun old => { old with ready := final }).entries) :
    ∃ ready, (entry.1, ⟨entry.2.texture, ready⟩) ∈ cache.entries ∧
      entry.2.ready = if entry.1 = key then final else ready := by
  obtain ⟨⟨other, old⟩, there, rfl⟩ := List.mem_map.mp inside
  refine ⟨old.ready, ?_⟩
  by_cases own : other = key <;> simpa [own] using there

theorem exists_get?_marked {cache : TextureCache} {asked : TextureKey} {texture : Handle}
    (found : ∃ ready, cache.get? asked = some ⟨texture, ready⟩) (key : TextureKey) (final : Bool) :
    ∃ ready, (cache.modify key fun old => { old with ready := final }).get? asked =
      some ⟨texture, ready⟩ := by
  obtain ⟨ready, found⟩ := found
  rw [Table.get?_modify, found, Option.map_some]
  split
  · exact ⟨final, rfl⟩
  · exact ⟨ready, rfl⟩

namespace Shared

variable {news : List DeviceEvent} {session : Session (Logged ℓ)}

theorem nodup_handles (h : Shared news session) : (handles session.state.cache).Nodup :=
  (List.nodup_append.mp (h.held.nodup_iff.mpr h.once)).1

theorem mem_handles {cache : TextureCache} {entry : TextureKey × CachedTexture}
    (inside : entry ∈ cache.entries) : entry.2.texture ∈ handles cache := by
  rw [handles_eq]
  exact List.mem_map_of_mem inside

theorem entry_eq (h : Shared news session) {entry other : TextureKey × CachedTexture}
    (inside : entry ∈ session.state.cache.entries) (inside' : other ∈ session.state.cache.entries)
    (same : entry.2.texture = other.2.texture) : entry = other := by
  have once := h.nodup_handles
  rw [handles_eq] at once
  exact List.inj_on_of_nodup_map once inside inside' same

theorem entry_eq_of_key (h : Shared news session) {entry other : TextureKey × CachedTexture}
    (inside : entry ∈ session.state.cache.entries) (inside' : other ∈ session.state.cache.entries)
    (same : entry.1 = other.1) : entry = other :=
  List.inj_on_of_nodup_map (f := Prod.fst) h.keys inside inside' same

theorem created_of_held (h : Shared news session) {texture : Handle}
    (held : texture ∈ handles session.state.cache) :
    texture ∈ news.filterMap DeviceEvent.createdTexture? :=
  h.held.mem_iff.mp (List.mem_append_left _ held)

theorem created_of_answer (h : Shared news session) {answer : TextureKey × Handle}
    (given : answer ∈ session.answers) :
    answer.2 ∈ news.filterMap DeviceEvent.createdTexture? := by
  rcases h.same answer given with deleted | ⟨ready, found⟩
  · exact h.held.mem_iff.mp (List.mem_append_right _ deleted)
  · exact h.created_of_held (mem_handles (Table.mem_entries_of_get? found))

/-- A texture that is given again. -/
theorem again (h : Shared news session) {answer : TextureKey × Handle}
    (given : answer ∈ session.answers) :
    Shared news ⟨session.state, answer :: session.answers⟩ :=
  { h with
    answered := fun entry inside => List.mem_cons_of_mem _ (h.answered entry inside)
    same := List.forall_mem_cons.mpr ⟨h.same answer given, h.same⟩
    different := List.forall_mem_cons.mpr
      ⟨List.forall_mem_cons.mpr ⟨fun _ => rfl, h.different answer given⟩, fun other inside =>
        List.forall_mem_cons.mpr ⟨h.different other inside answer given, h.different other inside⟩⟩
    loaded := List.forall_mem_cons.mpr ⟨h.loaded answer given, h.loaded⟩
    unasked := List.forall_mem_cons.mpr ⟨h.unasked answer given, h.unasked⟩ }

/-- A picture that is uploaded. -/
theorem uploaded (h : Shared news session) (texture : Handle) (width height : Nat)
    (bytes : List UInt8) : Shared (.upload texture width height bytes :: news)
      ⟨{ session.state with
          device := session.state.device.uploadTexture texture width height bytes },
        session.answers⟩ :=
  { h with }

/-- A texture that is made. -/
theorem made (h : Shared news session) {key : TextureKey}
    (absent : session.state.cache.get? key = none) {filter : TextureFilter} {wrap : TextureWrap}
    {texture : Handle} {device : Device}
    (created : session.state.device.createTexture filter wrap = (.ok texture, device)) (inner : ℓ) :
    Shared (.createTexture texture filter wrap :: news)
      ⟨{ device, loader := ⟨inner, key.loadsFor texture ++ session.state.loader.calls⟩
         cache := session.state.cache.set key ⟨texture, key.isGradient⟩ },
        (key, texture) :: session.answers⟩ := by
  obtain ⟨isNext, rfl⟩ := Device.createTexture_ok created
  -- neither the answers nor the loader know of it
  have new : texture ∉ news.filterMap DeviceEvent.createdTexture? := fun inside =>
    absurd (h.below texture inside) (isNext ▸ Nat.lt_irrefl _)
  have apart : ∀ answer ∈ session.answers, answer.2 ≠ texture := fun answer given same =>
    new (same ▸ h.created_of_answer given)
  have silent : ∀ call ∈ session.state.loader.calls, call.texture ≠ texture :=
    fun call inside same => new (same ▸ h.known call inside)
  have outside := Table.get?_eq_none_iff.mp absent
  have held := handles_set absent ⟨texture, key.isGradient⟩
  constructor
  case held => exact (held.append_right _).trans (h.held.cons texture)
  case once => exact List.nodup_cons.mpr ⟨new, h.once⟩
  case live =>
    intro other inside
    rcases List.mem_cons.mp (held.mem_iff.mp inside) with same | before
    · exact Table.mem_keys_set.mpr (.inr same)
    · exact Table.mem_keys_set.mpr (.inl (h.live other before))
  case keys => exact Table.nodup_keys_set h.keys _ _
  case answered =>
    exact (Table.forall_entries_set outside).mpr
      ⟨fun entry inside => List.mem_cons_of_mem _ (h.answered entry inside), List.mem_cons_self⟩
  case same =>
    refine List.forall_mem_cons.mpr ⟨.inr ⟨_, Table.get?_set_self _ _ _⟩, fun answer given => ?_⟩
    refine (h.same answer given).imp_right fun ⟨ready, found⟩ => ⟨ready, ?_⟩
    refine (Table.get?_set_other _ _ fun is => ?_).trans found
    cases (is ▸ absent).symm.trans found
  case different =>
    refine List.forall_mem_cons.mpr ⟨List.forall_mem_cons.mpr ⟨fun _ => rfl, ?_⟩, ?_⟩
    · exact fun answer given same => absurd same.symm (apart answer given)
    · exact fun other inside => List.forall_mem_cons.mpr
        ⟨fun same => absurd same (apart other inside), h.different other inside⟩
  case loaded =>
    exact List.forall_mem_cons.mpr ⟨filter_loads_self silent key, fun answer given =>
      (filter_loads_other (apart answer given) key).trans (h.loaded answer given)⟩
  case ready =>
    refine (Table.forall_entries_set outside).mpr ⟨fun entry inside => ?_, ?_⟩
    · rw [update_mem_loadsFor_append]
      exact h.ready entry inside
    · rw [update_mem_loadsFor_append, or_iff_left fun among => silent _ among rfl]
  case unasked =>
    refine List.forall_mem_cons.mpr ⟨fun gradient => ?_, fun answer given gradient => ?_⟩
    · dsimp only
      rw [loadsFor_of_isGradient gradient]
      exact silent
    · exact List.forall_mem_append.mpr
        ⟨ne_of_mem_loadsFor (apart answer given) key, h.unasked answer given gradient⟩
  case final => exact pairwise_loadsFor_append silent h.final key
  case known =>
    exact List.forall_mem_append.mpr ⟨fun call inside => (of_mem_loadsFor inside).1 ▸
      List.mem_cons_self, fun call inside => List.mem_cons_of_mem _ (h.known call inside)⟩
  case below =>
    exact List.forall_mem_cons.mpr ⟨isNext ▸ Nat.lt_succ_self _, fun other inside =>
      Nat.lt_succ_of_lt (h.below other inside)⟩

section

variable {entry : TextureKey × CachedTexture} (inside : entry ∈ session.state.cache.entries)
  (waits : entry.2.ready = false)

include inside waits

/-- A texture that is not final is not one of a gradient, nor has the loader said that it is. -/
theorem unready (h : Shared news session) : entry.1.isGradient ≠ true ∧
    .update entry.2.texture true ∉ session.state.loader.calls := by
  rw [← not_or, ← h.ready entry inside, waits]
  exact Bool.false_ne_true

/-- Only what the loader says of the texture that it is asked about can make one final. -/
theorem ready_asked (h : Shared news session) (final : Bool) :
    ∀ later ∈ (session.state.cache.modify entry.1 fun old => { old with ready := final }).entries,
      later.2.ready = true ↔ later.1.isGradient = true ∨ .update later.2.texture true ∈
        LoaderCall.update entry.2.texture final :: session.state.loader.calls := by
  intro later there
  obtain ⟨ready, among, value⟩ := exists_of_mem_marked there
  rw [value, List.mem_cons]
  split
  · next own =>
    obtain ⟨notGradient, notFinal⟩ := h.unready inside waits
    obtain rfl := h.entry_eq_of_key inside among own.symm
    rw [or_iff_right notGradient, or_iff_left notFinal, LoaderCall.update.injEq]
    exact ⟨fun is => ⟨rfl, is.symm⟩, fun is => is.2.symm⟩
  · next other =>
    have apart : LoaderCall.update later.2.texture true ≠ .update entry.2.texture final :=
      fun is => by
        have one := h.entry_eq among inside (LoaderCall.update.inj is).1
        exact other (Prod.ext_iff.mp one).1
    rw [or_iff_right apart]
    exact h.ready (later.1, ⟨later.2.texture, ready⟩) among

/-- A texture that the loader is asked about. -/
theorem asked (h : Shared news session) (inner : ℓ) (final : Bool) :
    Shared news
      ⟨{ session.state with
          loader := ⟨inner, .update entry.2.texture final :: session.state.loader.calls⟩
          cache := session.state.cache.modify entry.1 fun old => { old with ready := final } },
        session.answers⟩ := by
  obtain ⟨notGradient, notFinal⟩ := h.unready inside waits
  have same := handles_modify session.state.cache entry.1 final
  refine { h with
    held := same.symm ▸ h.held
    live := same.symm ▸ h.live
    keys := (Table.keys_modify session.state.cache _ _).symm ▸ h.keys
    answered := fun later there => ?_
    same := fun answer given =>
      (h.same answer given).imp_right fun found => exists_get?_marked found _ _
    ready := h.ready_asked inside waits final
    unasked := fun answer given isGradient => ?_
    final := List.pairwise_cons.mpr ⟨fun earlier among is => notFinal (is ▸ among), h.final⟩
    known := List.forall_mem_cons.mpr ⟨h.created_of_held (mem_handles inside), h.known⟩ }
  · obtain ⟨ready, among, -⟩ := exists_of_mem_marked there
    exact h.answered (later.1, ⟨later.2.texture, ready⟩) among
  · refine List.forall_mem_cons.mpr ⟨fun is => ?_, h.unasked answer given isGradient⟩
    exact notGradient (h.different _ (h.answered entry inside) answer given is ▸ isGradient)

end

/-- The calls that delete the textures of entries, the newest first. -/
def deletions (entries : List (TextureKey × CachedTexture)) : List DeviceEvent :=
  (entries.map fun entry => DeviceEvent.deleteTexture entry.2.texture).reverse

theorem created_deletions (entries : List (TextureKey × CachedTexture)) :
    (deletions entries).filterMap DeviceEvent.createdTexture? = [] := by
  rw [deletions, List.filterMap_reverse, List.filterMap_map, List.reverse_eq_nil_iff]
  exact List.filterMap_eq_nil_iff.mpr fun _ _ => rfl

theorem deleted_deletions (entries : List (TextureKey × CachedTexture)) :
    (deletions entries).filterMap DeviceEvent.deletedTexture? =
      (entries.map (·.2.texture)).reverse := by
  rw [deletions, List.filterMap_reverse, List.filterMap_map, ← List.filterMap_eq_map]
  rfl

/-- What deleting the textures of entries does to a device. -/
theorem deleteEntries_spec : ∀ (entries : List (TextureKey × CachedTexture)) (device : Device),
    (deleteEntries entries device).events = deletions entries ++ device.events ∧
    (deleteEntries entries device).nextHandle = device.nextHandle ∧
    ∀ texture ∈ device.textures.keys, texture ∉ entries.map (·.2.texture) →
      texture ∈ (deleteEntries entries device).textures.keys
  | [], _ => ⟨rfl, rfl, fun _ inside _ => inside⟩
  | entry :: rest, device => by
    obtain ⟨events, next, stays⟩ := deleteEntries_spec rest (device.deleteTexture entry.2.texture)
    refine ⟨?_, next, fun texture inside outside => ?_⟩
    · refine events.trans ?_
      rw [deletions, deletions, List.map_cons, List.reverse_cons, List.append_assoc]
      rfl
    · rw [List.map_cons, List.mem_cons, not_or] at outside
      refine stays texture ?_ outside.2
      have kept : texture ∈ (device.textures.erase entry.2.texture).keys := by
        rw [Table.keys_erase]
        exact List.mem_filter.mpr ⟨inside, decide_eq_true outside.1⟩
      exact kept

/-- Textures that are deleted. -/
theorem dropped (h : Shared news session) (keep : TextureKey → Bool) :
    Shared (deletions (session.state.cache.entries.filter fun entry => !keep entry.1) ++ news)
      ⟨{ session.state with
          device := deleteEntries (session.state.cache.entries.filter fun entry => !keep entry.1)
            session.state.device
          cache := session.state.cache.keep keep }, session.answers⟩ := by
  generalize same : (session.state.cache.entries.filter fun entry => !keep entry.1) = gone
  obtain ⟨-, next, stays⟩ := deleteEntries_spec gone session.state.device
  have kept : ∀ entry ∈ (session.state.cache.keep keep).entries,
      entry ∈ session.state.cache.entries := fun entry inside => List.mem_of_mem_filter inside
  have created : (deletions gone ++ news).filterMap DeviceEvent.createdTexture? =
      news.filterMap DeviceEvent.createdTexture? := by
    rw [List.filterMap_append, created_deletions, List.nil_append]
  have deleted : (deletions gone ++ news).filterMap DeviceEvent.deletedTexture? =
      (gone.map (·.2.texture)).reverse ++ news.filterMap DeviceEvent.deletedTexture? := by
    rw [List.filterMap_append, deleted_deletions]
  have parts : (handles (session.state.cache.keep keep) ++ gone.map (·.2.texture)).Perm
      (handles session.state.cache) := by
    rw [handles_eq, handles_eq, ← List.map_append, ← same]
    exact (List.filter_append_perm (fun entry => keep entry.1) session.state.cache.entries).map _
  have apart := List.nodup_append.mp (parts.nodup_iff.mpr h.nodup_handles)
  constructor
  case held =>
    rw [created, deleted, ← List.append_assoc]
    refine List.Perm.trans (List.Perm.append_right _ ?_) h.held
    exact ((List.reverse_perm _).append_left _).trans parts
  case once => exact created ▸ h.once
  case live =>
    intro texture inside
    refine stays texture (h.live texture (parts.mem_iff.mp (List.mem_append_left _ inside))) ?_
    exact fun among => apart.2.2 texture inside texture among rfl
  case keys => exact h.keys.sublist (List.filter_sublist.map _)
  case answered => exact fun entry inside => h.answered entry (kept entry inside)
  case same =>
    intro answer given
    rw [deleted, List.mem_append, List.mem_reverse]
    rcases h.same answer given with before | ⟨ready, found⟩
    · exact .inl (.inr before)
    · by_cases stays : keep answer.1 = true
      · exact .inr ⟨ready, (Table.get?_keep _ _ _).trans ((if_pos stays).trans found)⟩
      · have among : (answer.1, ⟨answer.2, ready⟩) ∈ gone := by
          rw [← same, List.mem_filter, Bool.eq_false_of_not_eq_true stays]
          exact ⟨Table.mem_entries_of_get? found, rfl⟩
        exact .inl (.inl (List.mem_map_of_mem among))
  case different => exact h.different
  case loaded => exact h.loaded
  case ready => exact fun entry inside => h.ready entry (kept entry inside)
  case unasked => exact h.unasked
  case final => exact h.final
  case known => exact created ▸ h.known
  case below =>
    dsimp only
    rw [created, next]
    exact h.below

end Shared

/-- What holds of a cache at work that began on a device. -/
def SharedSince (start : Device) (session : Session (Logged ℓ)) : Prop :=
  ∃ news, session.state.device.events = news ++ start.events ∧ Shared news session

theorem SharedSince.begin (start : Device) (loader : ℓ) :
    SharedSince start ⟨⟨start, ⟨loader, []⟩, {}⟩, []⟩ := by
  refine ⟨[], rfl, ?_⟩
  constructor
  case held => exact .nil
  case once => exact .nil
  case keys => exact .nil
  case final => exact .nil
  all_goals intro _ inside; cases inside

section

variable [TextureLoader ℓ] {start : Device} {session : Session (Logged ℓ)}

theorem SharedSince.pollEntry (h : SharedSince start session)
    {entry : TextureKey × CachedTexture} (inside : entry ∈ session.state.cache.entries) :
    SharedSince start ⟨TextureCache.pollEntry session.state entry.1 entry.2, session.answers⟩ := by
  obtain ⟨news, since, shared⟩ := h
  unfold TextureCache.pollEntry
  by_cases ready : entry.2.ready = true
  · rw [if_pos ready]
    exact ⟨news, since, shared⟩
  · rw [if_neg ready]
    have waits := Bool.eq_false_of_not_eq_true ready
    simp only [TextureLoader.update]
    cases TextureLoader.update entry.2.texture session.state.loader.inner with
    | mk outcome inner =>
      obtain ⟨picture, final⟩ := outcome
      cases picture with
      | none => exact ⟨news, since, shared.asked inside waits inner final⟩
      | some picture =>
        refine ⟨_, ?_, (shared.asked inside waits inner final).uploaded entry.2.texture
          picture.width picture.height picture.bytesFromBottom⟩
        exact congrArg (_ :: ·) since

/-- Entries that are asked about one after the other. -/
theorem SharedSince.polls : ∀ (entries : List (TextureKey × CachedTexture))
    {state : State (Logged ℓ)}
    {answers : List (TextureKey × Handle)}, SharedSince start ⟨state, answers⟩ →
    (entries.map Prod.fst).Nodup → (∀ entry ∈ entries, entry ∈ state.cache.entries) →
    SharedSince start
      ⟨entries.foldl (fun state entry => TextureCache.pollEntry state entry.1 entry.2) state,
        answers⟩
  | [], _, _, h, _, _ => h
  | entry :: rest, state, answers, h, once, inside => by
    obtain ⟨new, once⟩ := List.nodup_cons.mp once
    obtain ⟨here, later⟩ := List.forall_mem_cons.mp inside
    refine polls rest (h.pollEntry here) once fun other among => ?_
    show other ∈ (TextureCache.pollEntry state entry.1 entry.2).cache.entries
    unfold TextureCache.pollEntry
    split
    · exact later other among
    · refine Table.mem_entries_modify (later other among) fun same => ?_
      exact new (same ▸ List.mem_map_of_mem among)

omit [TextureLoader ℓ] in
/-- A texture that is asked for, whether it is there, is made or cannot be made. -/
theorem SharedSince.obtain (h : SharedSince start session) (key : TextureKey)
    (filter : TextureFilter) (wrap : TextureWrap) (width : Nat) (bytes : List UInt8)
    {load : Handle → Logged ℓ → Logged ℓ}
    (loads : ∀ texture loader, (load texture loader).calls = key.loadsFor texture ++ loader.calls) :
    SharedSince start (session.answer key (TextureCache.obtain key filter wrap width bytes
      key.isGradient load session.state)) := by
  obtain ⟨news, since, shared⟩ := h
  unfold TextureCache.obtain
  cases found : session.state.cache.get? key with
  | some entry =>
    exact ⟨news, since,
      shared.again (shared.answered (key, entry) (Table.mem_entries_of_get? found))⟩
  | none =>
    dsimp only
    cases asked : session.state.device.createTexture filter wrap with
    | mk outcome device =>
      cases outcome with
      | ok texture =>
        have made := shared.made found asked (load texture session.state.loader).inner
        rw [← loads] at made
        refine ⟨_, ?_, made.uploaded texture width 1 bytes⟩
        obtain ⟨-, rfl⟩ := Device.createTexture_ok asked
        exact congrArg (_ :: _ :: ·) since
      | error cause =>
        -- nothing but the count of textures that were asked for is another
        obtain rfl := Device.createTexture_error asked
        exact ⟨news, since, { shared with }⟩

/-- **Every call** keeps textures shared. -/
theorem SharedSince.call (h : SharedSince start session) (call : CacheCall) :
    SharedSince start (session.call call) := by
  cases call with
  | sampler descriptor =>
    rw [Session.call, runOn_sampler]
    exact h.obtain (.sampler descriptor) _ _ _ _ fun _ _ => rfl
  | gradient ramp =>
    rw [Session.call, runOn_gradient]
    exact h.obtain (.gradient ramp.key) _ _ _ _ fun _ _ => rfl
  | poll =>
    have keys : session.state.cache.keys.Nodup := h.elim fun _ shared => shared.2.keys
    exact h.polls _ keys fun _ inside => inside
  | retain live =>
    obtain ⟨news, since, shared⟩ := h
    refine ⟨_, ?_, shared.dropped live.contains⟩
    refine (Shared.deleteEntries_spec _ _).1.trans ?_
    rw [since, List.append_assoc]
  | clear =>
    obtain ⟨news, since, shared⟩ := h
    have dropped := shared.dropped fun _ => false
    have all : (session.state.cache.entries.filter fun _ => !false) = session.state.cache.entries :=
      List.filter_true _
    have none : session.state.cache.keep (fun _ => false) = {} := by
      rw [Table.keep, List.filter_false]
    rw [all, none] at dropped
    refine ⟨_, ?_, dropped⟩
    refine (Shared.deleteEntries_spec _ _).1.trans ?_
    rw [since, List.append_assoc]

theorem SharedSince.foldl (h : SharedSince start session) (calls : List CacheCall) :
    SharedSince start (calls.foldl Session.call session) := by
  induction calls generalizing session with
  | nil => exact h
  | cons call calls ih => exact ih (h.call call)

end

/-! ### Writing down is all that is new -/

/-- A state without what was written down. -/
def State.inner (state : State (Logged ℓ)) : State ℓ :=
  ⟨state.device, state.loader.inner, state.cache⟩

/-- A cache at work without what was written down. -/
def Session.inner (session : Session (Logged ℓ)) : Session ℓ :=
  ⟨session.state.inner, session.answers⟩

theorem Session.inner_answer (session : Session (Logged ℓ)) (key : TextureKey)
    (ended : Except Failure Handle × State (Logged ℓ)) :
    (session.answer key ended).inner = session.inner.answer key (ended.1, ended.2.inner) := by
  obtain ⟨outcome, after⟩ := ended
  cases outcome <;> rfl

theorem obtain_inner {load : Handle → Logged ℓ → Logged ℓ} {load' : Handle → ℓ → ℓ}
    (loads : ∀ texture loader, (load texture loader).inner = load' texture loader.inner)
    (key : TextureKey) (filter : TextureFilter) (wrap : TextureWrap) (width : Nat)
    (bytes : List UInt8) (ready : Bool) (state : State (Logged ℓ)) :
    ((obtain key filter wrap width bytes ready load state).1,
      (obtain key filter wrap width bytes ready load state).2.inner) =
      obtain key filter wrap width bytes ready load' state.inner := by
  unfold obtain
  rw [show state.inner.cache = state.cache from rfl,
    show state.inner.device = state.device from rfl]
  cases state.cache.get? key with
  | some entry => rfl
  | none =>
    dsimp only
    cases state.device.createTexture filter wrap with
    | mk outcome device =>
      cases outcome with
      | ok texture => exact congrArg (fun inner => (_, State.mk _ inner _)) (loads texture _)
      | error => rfl

section

variable [TextureLoader ℓ]

theorem pollEntry_inner (state : State (Logged ℓ)) (key : TextureKey) (entry : CachedTexture) :
    (TextureCache.pollEntry state key entry).inner =
      TextureCache.pollEntry state.inner key entry := by
  unfold TextureCache.pollEntry
  by_cases ready : entry.ready = true
  · rw [if_pos ready, if_pos ready]
  · rw [if_neg ready, if_neg ready]
    rw [show state.inner.loader = state.loader.inner from rfl]
    simp only [TextureLoader.update]
    rfl

theorem polls_inner (entries : List (TextureKey × CachedTexture)) (state : State (Logged ℓ)) :
    (entries.foldl (fun state entry => TextureCache.pollEntry state entry.1 entry.2) state).inner =
      entries.foldl (fun state entry => TextureCache.pollEntry state entry.1 entry.2)
        state.inner := by
  induction entries generalizing state with
  | nil => rfl
  | cons entry entries ih => rw [List.foldl_cons, List.foldl_cons, ih, pollEntry_inner]

theorem Session.inner_call (session : Session (Logged ℓ)) (call : CacheCall) :
    (session.call call).inner = session.inner.call call := by
  cases call with
  | sampler descriptor =>
    rw [Session.call, Session.call, runOn_sampler, runOn_sampler, inner_answer]
    exact congrArg _ (obtain_inner (fun _ _ => rfl) _ _ _ _ _ _ _)
  | gradient ramp =>
    rw [Session.call, Session.call, runOn_gradient, runOn_gradient, inner_answer]
    exact congrArg _ (obtain_inner (fun _ _ => rfl) _ _ _ _ _ _ _)
  | poll => exact congrArg (Session.mk · session.answers) (polls_inner _ _)
  | retain live => rfl
  | clear => rfl

theorem run_inner (start : Device) (loader : ℓ) (calls : List CacheCall) :
    (run start (Logged.mk loader []) calls).inner = run start loader calls := by
  suffices all : ∀ session : Session (Logged ℓ),
      (calls.foldl Session.call session).inner = calls.foldl Session.call session.inner from all _
  induction calls with
  | nil => exact fun _ => rfl
  | cons call calls ih =>
    intro session
    rw [List.foldl_cons, List.foldl_cons, ih, Session.inner_call]

end

/-! ### What a cache gives -/

/-- A state whose device has refused a texture; the device knows how often it was asked. -/
def State.refused (state : State ℓ) : State ℓ :=
  { state with device := { state.device with texturesAsked := state.device.texturesAsked + 1 } }

/-- What asking for the texture of a key comes to. -/
structure Asked (key : TextureKey) (state : State ℓ) (ended : Except Failure Handle × State ℓ) :
    Prop where
  /-- a texture that is there is given, and that is all -/
  found : ∀ entry, state.cache.get? key = some entry → ended = (.ok entry.texture, state)
  /-- another one becomes that of the key -/
  made : ∀ texture after, state.cache.get? key = none → ended = (.ok texture, after) →
    after.cache = state.cache.set key ⟨texture, key.isGradient⟩
  /-- a refusal changes nothing -/
  failed : ∀ failure after, ended = (.error failure, after) → after = state.refused

theorem obtain_asked (key : TextureKey) (filter : TextureFilter) (wrap : TextureWrap) (width : Nat)
    (bytes : List UInt8) (load : Handle → ℓ → ℓ) (state : State ℓ) :
    Asked key state (obtain key filter wrap width bytes key.isGradient load state) := by
  unfold obtain
  cases here : state.cache.get? key with
  | some entry =>
    constructor
    case found =>
      intro other same
      rw [here] at same
      rw [Option.some.inj same]
    case made =>
      intro _ _ absent
      rw [here] at absent
      cases absent
    case failed =>
      intro _ _ ended
      cases ended
  | none =>
    dsimp only
    cases asked : state.device.createTexture filter wrap with
    | mk outcome device =>
      constructor
      case found =>
        intro _ there
        rw [here] at there
        cases there
      case made =>
        intro _ _ _ ended
        cases outcome <;> cases ended
        rfl
      case failed =>
        intro _ _ ended
        cases outcome <;> cases ended
        rw [Device.createTexture_error asked]
        rfl

/-- As long as they are not deleted, textures that were given are the same exactly if they show the
same. -/
theorem Shared.alike {news : List DeviceEvent} {session : Session (Logged ℓ)}
    (h : Shared news session) {answer other : TextureKey × Handle}
    (given : answer ∈ session.answers) (given' : other ∈ session.answers)
    (stays : answer.2 ∉ news.filterMap DeviceEvent.deletedTexture?)
    (stays' : other.2 ∉ news.filterMap DeviceEvent.deletedTexture?) :
    answer.2 = other.2 ↔ answer.1 = other.1 := by
  refine ⟨h.different answer given other given', fun same => ?_⟩
  obtain ⟨ready, found⟩ := (h.same answer given).resolve_left stays
  obtain ⟨ready', found'⟩ := (h.same other given').resolve_left stays'
  rw [same, found'] at found
  exact congrArg CachedTexture.texture (Option.some.inj found.symm)

/-- **Textures are shared by what they show**, in every run of a cache, with any loader and on a
device that may refuse any texture: what `Shared` says holds of what the device and the loader were
told; two textures that were given and not deleted are the same exactly if they show the same; a
request that is refused changes nothing; pruning keeps the keys that are live; and gradients show
the same exactly if their stops are the same bit by bit. -/
theorem run_shared {ℓ : Type} [TextureLoader ℓ] (start : Device) (loader : ℓ)
    (calls : List CacheCall) :
    (run start (Logged.mk loader []) calls).inner = run start loader calls ∧
    (∃ news, (run start loader calls).state.device.events = news ++ start.events ∧
      Shared news (run start (Logged.mk loader []) calls) ∧
      ∀ answer ∈ (run start loader calls).answers, ∀ other ∈ (run start loader calls).answers,
        answer.2 ∉ news.filterMap DeviceEvent.deletedTexture? →
        other.2 ∉ news.filterMap DeviceEvent.deletedTexture? →
        (answer.2 = other.2 ↔ answer.1 = other.1)) ∧
    (∀ descriptor, Asked (.sampler descriptor) (run start loader calls).state
      ((sampler descriptor).runOn (run start loader calls).state)) ∧
    (∀ ramp, Asked (.gradient ramp.key) (run start loader calls).state
      ((gradient ramp).runOn (run start loader calls).state)) ∧
    (∀ live, (run start loader (calls ++ [.retain live])).state.cache.keys =
      (run start loader calls).state.cache.keys.filter live.contains) ∧
    ∀ ramp other : Gradient Float32,
      TextureKey.gradient ramp.key = TextureKey.gradient other.key ↔
        List.Forall₂ GradientStop.SameBits ramp.stops other.stops := by
  have plain := run_inner start loader calls
  obtain ⟨news, since, shared⟩ := (SharedSince.begin start loader).foldl calls
  refine ⟨plain, ⟨news, ?_, shared, ?_⟩, ?_, ?_, ?_, ?_⟩
  · rw [← plain]
    exact since
  · rw [← plain]
    exact fun answer given other given' => shared.alike given given'
  · intro descriptor
    rw [runOn_sampler]
    exact obtain_asked (.sampler descriptor) _ _ _ _ _ _
  · intro ramp
    rw [runOn_gradient]
    exact obtain_asked (.gradient ramp.key) _ _ _ _ _ _
  · intro live
    rw [run, List.foldl_append, List.foldl_cons, List.foldl_nil]
    exact Table.keys_keep _ _
  · intro ramp other
    rw [TextureKey.gradient.injEq]
    exact Gradient.key_eq_iff

end TextureCache
end Collage
