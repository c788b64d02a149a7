import Collage.Proofs.Device.Canvas
import Collage.Proofs.Frame.Quiet
import Collage.Proofs.Frame.Together

/-!
# What layers that are drawn elsewhere show

`Device.uploads` is what was uploaded to a texture, and `Shown` says of a layer which of the
results that were received for it were uploaded to its texture: they have higher and higher
numbers, the texture shows the last of them, and unless a picture was lost that is the first result
with the highest number.

`Orderly` says so of all layers that are known, each with a texture of its own.  Taking a result
keeps it (`apply_orderly`), and so does taking all of them (`drain_orderly`).  A drain that fails
leaves what is behind the result that it failed for, and the layer of that one as it was
(`Stopped`), and results for layers that are not known make no difference to a drain
(`drain_discards`).
-/

namespace Collage

/-- The value that a key was set to last counts. -/
theorem Table.set_set {κ α : Type} [DecidableEq κ] (table : Table κ α) (key : κ) (first last : α) :
    (table.set key first).set key last = table.set key last := by
  obtain ⟨entries⟩ := table
  simp only [Table.set, Table.mk.injEq]
  induction entries with
  | nil => simp [Table.put]
  | cons entry rest ih =>
    obtain ⟨other, value⟩ := entry
    by_cases same : other = key
    · simp [Table.put, same]
    · simp [Table.put, same, ih]

namespace Device

/-! ### Uploads -/

/-- What was uploaded to a texture, the newest first. -/
def uploads (device : Device) (texture : Handle) : List (Nat × Nat × List UInt8) :=
  device.events.filterMap fun
    | .upload goal width height bytes =>
      if goal = texture then some (width, height, bytes) else none
    | _ => none

/-- Nothing was uploaded to handles to come. -/
def Ahead (device : Device) : Prop :=
  ∀ texture, device.nextHandle ≤ texture → device.uploads texture = []

/-- A texture is left as it was, by its uploads and by what it shows. -/
structure Spares (texture : Handle) (before after : Device) : Prop where
  uploads : after.uploads texture = before.uploads texture
  shown : ∀ {ι : Type} (painter : Painter ι),
    (after.canvas painter).shown texture = (before.canvas painter).shown texture

theorem Spares.refl (texture : Handle) (device : Device) : Spares texture device device :=
  ⟨rfl, fun _ => rfl⟩

theorem Spares.trans {texture : Handle} {a b c : Device} (h : Spares texture a b)
    (h' : Spares texture b c) : Spares texture a c :=
  ⟨h'.uploads.trans h.uploads, fun painter => (h'.shown painter).trans (h.shown painter)⟩

theorem spares_createTexture (device : Device) (filter : TextureFilter) (wrap : TextureWrap)
    (texture : Handle) : Spares texture device (device.createTexture filter wrap).2 := by
  unfold createTexture
  dsimp only
  split <;> exact ⟨rfl, fun _ => rfl⟩

theorem spares_deleteTexture (device : Device) (handle texture : Handle) :
    Spares texture device (device.deleteTexture handle) :=
  ⟨rfl, fun _ => rfl⟩

theorem spares_uploadTexture (device : Device) {handle texture : Handle} (other : handle ≠ texture)
    (width height : Nat) (bytes : List UInt8) :
    Spares texture device (device.uploadTexture handle width height bytes) := by
  refine ⟨List.filterMap_cons_none (if_neg other), fun painter => ?_⟩
  exact Canvas.shown_put_of_ne _ (Ne.symm other) _

theorem uploads_uploadTexture (device : Device) (texture : Handle) (width height : Nat)
    (bytes : List UInt8) : (device.uploadTexture texture width height bytes).uploads texture =
      (width, height, bytes) :: device.uploads texture :=
  List.filterMap_cons_some (if_pos rfl)

theorem shown_uploadTexture {ι : Type} (painter : Painter ι) (device : Device) (texture : Handle)
    (width height : Nat) (bytes : List UInt8) :
    ((device.uploadTexture texture width height bytes).canvas painter).shown texture =
      painter.upload width height bytes :=
  Canvas.shown_put_self _ _ _

end Device

/-! ### One layer -/

/-- What is uploaded for a result. -/
def ExternalResult.content (result : ExternalResult) : Nat × Nat × List UInt8 :=
  (result.picture.width, result.picture.height, result.picture.bytesFromBottom)

/-- Of the results that were received for a layer some were shown, each newer than those before;
its texture shows the last of them, and if no picture was lost that is the newest of all. -/
structure Shown (results : List ExternalResult) (whole : Prop) (device : Device)
    (state : ExternalState) (shown : List ExternalResult) : Prop where
  among : shown.Sublist results
  /-- numbers are above zero, and each above those before -/
  increasing : (0 :: shown.map (·.number)).Pairwise (· < ·)
  applied : state.lastApplied = (shown.map (·.number)).getLastD 0
  /-- a layer has a texture once something was shown -/
  textured : state.texture.isSome ↔ shown ≠ []
  uploads : ∀ texture, state.texture = some texture →
    device.uploads texture = (shown.map (·.content)).reverse
  shows : ∀ texture, state.texture = some texture → ∀ last, shown.getLast? = some last →
    ∀ {ι : Type} (painter : Painter ι), (device.canvas painter).shown texture =
      painter.upload last.content.1 last.content.2.1 last.content.2.2
  /-- nothing newer was received -/
  highest : whole → ∀ result ∈ results, result.number ≤ state.lastApplied
  /-- of the newest the first that was received -/
  first : whole → ∀ last, shown.getLast? = some last →
    results.find? (·.number = last.number) = some last

namespace Shown

variable {results shown : List ExternalResult} {whole : Prop} {device later : Device}
  {state : ExternalState} {result : ExternalResult}

theorem start (device : Device) (inFlight : Nat) (whole : Prop) :
    Shown [] whole device { inFlight } [] where
  among := List.Sublist.refl []
  increasing := List.pairwise_singleton _ _
  applied := rfl
  textured := by simp
  uploads := fun _ none => by cases none
  shows := fun _ none => by cases none
  highest := fun _ => List.forall_mem_nil _
  first := fun _ _ none => by cases none

/-- Whatever else is done, and however many requests are outstanding. -/
theorem spared (h : Shown results whole device state shown) {whole' : Prop}
    (weaker : whole' → whole)
    (spared : ∀ texture, state.texture = some texture → Device.Spares texture device later)
    (inFlight : Nat) : Shown results whole' later { state with inFlight } shown where
  among := h.among
  increasing := h.increasing
  applied := h.applied
  textured := h.textured
  uploads := fun texture same => (spared texture same).uploads.trans (h.uploads texture same)
  shows := fun texture same last ends _ painter =>
    ((spared texture same).shown painter).trans (h.shows texture same last ends painter)
  highest := fun all => h.highest (weaker all)
  first := fun all => h.first (weaker all)

/-- What was shown has numbers up to that of the last. -/
theorem le_applied (h : Shown results whole device state shown) :
    ∀ number ∈ 0 :: shown.map (·.number), number ≤ state.lastApplied := by
  have increasing := h.increasing
  rw [h.applied]
  rcases List.eq_nil_or_concat shown with rfl | ⟨front, last, rfl⟩
  · simp
  · rw [List.concat_eq_append, List.map_append, ← List.cons_append] at increasing ⊢
    intro number inside
    rw [List.map_singleton, List.getLastD_concat]
    rcases List.mem_append.mp inside with inside | inside
    · exact Nat.le_of_lt ((List.pairwise_append.mp increasing).2.2 number inside last.number
        (List.mem_singleton_self _))
    · exact Nat.le_of_eq (List.mem_singleton.mp inside)

theorem number_last (h : Shown results whole device state shown) {last : ExternalResult}
    (ends : shown.getLast? = some last) : last.number = state.lastApplied := by
  rw [h.applied]
  obtain ⟨front, rfl⟩ := List.getLast?_eq_some_iff.mp ends
  rw [List.map_append, List.map_singleton, List.getLastD_concat]

/-- A layer shows the highest number that was received, if no picture was lost. -/
theorem newest (h : Shown results whole device state shown) (all : whole)
    (inside : result ∈ results) (positive : 0 < result.number)
    (highest : ∀ other ∈ results, other.number ≤ result.number) :
    ∃ texture last, state.texture = some texture ∧ shown.getLast? = some last ∧
      results.find? (·.number = result.number) = some last := by
  have reached := h.highest all result inside
  obtain ⟨last, ends⟩ : ∃ last, shown.getLast? = some last := by
    rw [← Option.isSome_iff_exists, List.getLast?_isSome]
    rintro rfl
    rw [h.applied] at reached
    exact Nat.not_lt.mpr reached positive
  have showed : last ∈ shown := List.mem_of_getLast? ends
  obtain ⟨texture, same⟩ := Option.isSome_iff_exists.mp
    (h.textured.mpr (List.ne_nil_of_mem showed))
  have number : last.number = result.number :=
    Nat.le_antisymm (highest last (h.among.subset showed)) (h.number_last ends ▸ reached)
  exact ⟨texture, last, same, ends, number ▸ h.first all last ends⟩

theorem stale (h : Shown results whole device state shown)
    (old : result.number ≤ state.lastApplied) :
    Shown (results ++ [result]) whole device state shown := by
  refine { h with
    among := h.among.trans (List.sublist_append_left _ _)
    highest := fun all other inside => ?_
    first := fun all last ends => ?_ }
  · rcases List.mem_append.mp inside with inside | inside
    · exact h.highest all other inside
    · exact List.mem_singleton.mp inside ▸ old
  · rw [List.find?_append, h.first all last ends, Option.some_or]

theorem lost (h : Shown results whole device state shown) (result : ExternalResult) :
    Shown (results ++ [result]) False device state shown :=
  { h with
    among := h.among.trans (List.sublist_append_left _ _)
    highest := False.elim
    first := False.elim }

/-- A newer result is received and shown. -/
theorem newer (h : Shown results whole device state shown) (new : state.lastApplied < result.number)
    {texture : Handle} (own : state.texture = some texture ∨
      state.texture = none ∧ device.uploads texture = []) :
    Shown (results ++ [result]) whole (device.uploadTexture texture result.picture.width
        result.picture.height result.picture.bytesFromBottom)
      { state with texture := some texture, lastApplied := result.number } (shown ++ [result]) where
  among := h.among.append (List.Sublist.refl _)
  increasing := by
    rw [List.map_append, ← List.cons_append, List.map_singleton]
    refine List.pairwise_append.mpr ⟨h.increasing, List.pairwise_singleton _ _, ?_⟩
    intro number inside other last
    rw [List.mem_singleton.mp last]
    exact Nat.lt_of_le_of_lt (h.le_applied number inside) new
  applied := by rw [List.map_append, List.map_singleton, List.getLastD_concat]
  textured := by simp
  uploads := by
    intro _ same
    cases same
    have before : device.uploads texture = (shown.map (·.content)).reverse := by
      rcases own with same | ⟨none, blank⟩
      · exact h.uploads texture same
      -- nothing was shown yet, and nothing was uploaded to a texture that is new
      · have nothing : shown = [] := by
          have textured := h.textured
          rw [none] at textured
          simpa using textured
        rw [blank, nothing]
        rfl
    rw [Device.uploads_uploadTexture, before, List.map_append, List.map_singleton,
      List.reverse_append]
    rfl
  shows := by
    intro _ same last ends ι painter
    cases same
    rw [List.getLast?_concat] at ends
    cases ends
    exact Device.shown_uploadTexture painter device texture _ _ _
  highest := fun all other inside => by
    rcases List.mem_append.mp inside with inside | inside
    · exact Nat.le_of_lt (Nat.lt_of_le_of_lt (h.highest all other inside) new)
    · exact Nat.le_of_eq (congrArg ExternalResult.number (List.mem_singleton.mp inside))
  first := fun all last ends => by
    rw [List.getLast?_concat] at ends
    cases ends
    have none : results.find? (·.number = result.number) = none := by
      refine List.find?_eq_none.mpr fun other inside => ?_
      have lower := h.highest all other inside
      exact fun same => by
        rw [of_decide_eq_true same] at lower
        omega
    rw [List.find?_append, none, Option.none_or, List.find?_singleton, if_pos (decide_eq_true rfl)]

end Shown

namespace ExternalLayers

open Collage.Action

variable {received : String → Option (List ExternalResult)} {whole : String → Prop}
  {device later : Device} {states : Table String ExternalState}

/-! ### All layers -/

/-- What was received for each layer that is known, once some more results are received. -/
def receive (results : List ExternalResult) (received : String → Option (List ExternalResult))
    (layer : String) : Option (List ExternalResult) :=
  (received layer).map (· ++ results.filter (·.layer = layer))

theorem receive_nil (received : String → Option (List ExternalResult)) :
    receive [] received = received := by
  funext layer
  simp [receive]

theorem receive_append (results more : List ExternalResult)
    (received : String → Option (List ExternalResult)) :
    receive (results ++ more) received = receive more (receive results received) := by
  funext layer
  simp [receive, Function.comp_def]

/-- The texture of a layer. -/
def textureIn (states : Table String ExternalState) (layer : String) : Option Handle :=
  (states.get? layer).bind (·.texture)

theorem textureIn_of_get? {layer : String} {state : ExternalState}
    (found : states.get? layer = some state) : textureIn states layer = state.texture := by
  rw [textureIn, found, Option.bind_some]

/-- The layers that are known show what was received for them, each with a texture of its own. -/
structure Orderly (received : String → Option (List ExternalResult)) (whole : String → Prop)
    (device : Device) (states : Table String ExternalState) : Prop where
  unknown : ∀ layer, received layer = none → states.get? layer = none
  shows : ∀ layer results, received layer = some results → ∃ state shown,
    states.get? layer = some state ∧ Shown results (whole layer) device state shown
  below : ∀ layer texture, textureIn states layer = some texture → texture < device.nextHandle
  apart : ∀ layer other texture, textureIn states layer = some texture →
    textureIn states other = some texture → layer = other
  ahead : device.Ahead

/-- A texture that is a layer's own, or a new one, is that of no other layer. -/
theorem Orderly.texture_ne (h : Orderly received whole device states) {layer other : String}
    {texture handle : Handle}
    (mine : textureIn states layer = some texture ∨ device.nextHandle ≤ texture)
    (different : other ≠ layer) (there : textureIn states other = some handle) :
    texture ≠ handle := by
  rintro rfl
  rcases mine with own | fresh
  · exact different (h.apart other layer texture there own)
  · exact Nat.not_lt.mpr fresh (h.below other texture there)

theorem Orderly.shown (h : Orderly received whole device states) {layer : String}
    {state : ExternalState} (found : states.get? layer = some state) :
    ∃ results shown, received layer = some results ∧
      Shown results (whole layer) device state shown := by
  cases known : received layer with
  | none =>
    rw [h.unknown layer known] at found
    cases found
  | some results =>
    obtain ⟨_, shown, there, showed⟩ := h.shows layer results known
    cases found.symm.trans there
    exact ⟨results, shown, rfl, showed⟩

/-- What is known of one layer changes, and nothing of the others. -/
theorem Orderly.set (h : Orderly received whole device states) {layer : String}
    {state : ExternalState} {results shown : List ExternalResult}
    {received' : String → Option (List ExternalResult)} {whole' : String → Prop}
    (own : received' layer = some results)
    (others : ∀ other, other ≠ layer → received' other = received other)
    (weaker : ∀ other, other ≠ layer → whole' other → whole other)
    (onward : device.nextHandle ≤ later.nextHandle) (ahead : later.Ahead)
    (spared : ∀ other texture, other ≠ layer → textureIn states other = some texture →
      Device.Spares texture device later)
    (texture : ∀ texture, state.texture = some texture → texture < later.nextHandle ∧
      (textureIn states layer = some texture ∨ device.nextHandle ≤ texture))
    (shows : Shown results (whole' layer) later state shown) :
    Orderly received' whole' later (states.set layer state) := by
  have mine : textureIn (states.set layer state) layer = state.texture :=
    textureIn_of_get? (Table.get?_set_self _ _ _)
  have theirs : ∀ other, other ≠ layer →
      textureIn (states.set layer state) other = textureIn states other := fun other different => by
    rw [textureIn, Table.get?_set_other _ _ different, textureIn]
  have new : ∀ other texture, other ≠ layer → textureIn states other = some texture →
      state.texture ≠ some texture := fun other handle different there same =>
    h.texture_ne (texture handle same).2 different there rfl
  constructor
  case unknown =>
    intro other none
    by_cases same : other = layer
    · rw [same, own] at none
      cases none
    · rw [Table.get?_set_other _ _ same]
      exact h.unknown other (others other same ▸ none)
  case shows =>
    intro other results' some
    by_cases same : other = layer
    · subst same
      cases own.symm.trans some
      exact ⟨state, shown, Table.get?_set_self _ _ _, shows⟩
    · obtain ⟨before, shown', found, showed⟩ := h.shows other results' (others other same ▸ some)
      refine ⟨before, shown', (Table.get?_set_other _ _ same).trans found, ?_⟩
      refine showed.spared (weaker other same) (fun handle there => ?_) before.inFlight
      exact spared other handle same (by rw [textureIn_of_get? found, there])
  case below =>
    intro other handle there
    by_cases same : other = layer
    · rw [same, mine] at there
      exact (texture handle there).1
    · rw [theirs other same] at there
      exact Nat.lt_of_lt_of_le (h.below other handle there) onward
  case apart =>
    intro one other handle there there'
    by_cases same : one = layer <;> by_cases same' : other = layer
    · exact same.trans same'.symm
    · rw [same, mine] at there
      rw [theirs other same'] at there'
      exact absurd there (new other handle same' there')
    · rw [same', mine] at there'
      rw [theirs one same] at there
      exact absurd there' (new one handle same there)
    · rw [theirs one same] at there
      rw [theirs other same'] at there'
      exact h.apart one other handle there there'
  case ahead => exact ahead

/-- The number that a layer shows. -/
def appliedIn (states : Table String ExternalState) (layer : String) : Nat :=
  ((states.get? layer).getD {}).lastApplied

/-- While results are taken no layer becomes known or unknown, and one that has no texture still
shows what it showed before, nothing. -/
structure Later (before after : Table String ExternalState) : Prop where
  known : ∀ layer, (after.get? layer).isSome = (before.get? layer).isSome
  bare : ∀ layer, textureIn after layer = none →
    textureIn before layer = none ∧ appliedIn after layer = appliedIn before layer

theorem Later.refl (states : Table String ExternalState) : Later states states :=
  ⟨fun _ => rfl, fun _ none => ⟨none, rfl⟩⟩

theorem Later.trans {a b c : Table String ExternalState} (h : Later a b) (h' : Later b c) :
    Later a c := by
  refine ⟨fun layer => (h'.known layer).trans (h.known layer), fun layer none => ?_⟩
  obtain ⟨before, same⟩ := h'.bare layer none
  exact ⟨(h.bare layer before).1, same.trans (h.bare layer before).2⟩

theorem Later.set {layer : String} {state state' : ExternalState}
    (found : states.get? layer = some state) (bare : state'.texture = none →
      state.texture = none ∧ state'.lastApplied = state.lastApplied) :
    Later states (states.set layer state') := by
  refine ⟨fun other => ?_, fun other none => ?_⟩
  · by_cases same : other = layer
    · rw [same, Table.get?_set_self, found]
      rfl
    · rw [Table.get?_set_other _ _ same]
  · by_cases same : other = layer
    · subst same
      rw [textureIn_of_get? (Table.get?_set_self _ _ _)] at none
      rw [textureIn, appliedIn, appliedIn, found, Table.get?_set_self]
      exact bare none
    · rw [textureIn, Table.get?_set_other _ _ same] at none
      rw [appliedIn, appliedIn, Table.get?_set_other _ _ same]
      exact ⟨none, rfl⟩

/-! ### Taking a result -/

theorem receive_other {result : ExternalResult} {layer : String}
    (different : layer ≠ result.layer) : receive [result] received layer = received layer := by
  have none : [result].filter (·.layer = layer) = [] :=
    List.filter_cons_of_neg (by simpa using Ne.symm different)
  rw [receive, none]
  simp

theorem receive_self {result : ExternalResult} {results : List ExternalResult}
    (known : received result.layer = some results) :
    receive [result] received result.layer = some (results ++ [result]) := by
  have all : [result].filter (·.layer = result.layer) = [result] :=
    List.filter_cons_of_pos (decide_eq_true rfl)
  rw [receive, known, all, Option.map_some]

theorem Orderly.receive_unknown (h : Orderly received whole device states)
    {result : ExternalResult} (unknown : states.get? result.layer = none) :
    receive [result] received = received := by
  funext layer
  by_cases own : layer = result.layer
  · cases known : received layer with
    | none => rw [receive, known, Option.map_none]
    | some results =>
      obtain ⟨state, shown, there, -⟩ := h.shows layer results known
      rw [own, unknown] at there
      cases there
  · exact receive_other own

/-- A texture for a layer: its own one, or a new one. -/
structure Provided (device later : Device) (state : ExternalState) (texture : Handle) : Prop where
  onward : device.nextHandle ≤ later.nextHandle
  ahead : later.Ahead
  spared : ∀ other, Device.Spares other device later
  below : texture < later.nextHandle
  own : state.texture = some texture ∨
    state.texture = none ∧ device.nextHandle ≤ texture ∧ later.uploads texture = []

theorem textureFor_provides (layer : String) (state : ExternalState) (layers : ExternalLayers)
    (ahead : device.Ahead) (below : ∀ texture, state.texture = some texture →
      texture < device.nextHandle) :
    (textureFor layer state).Yields (device, layers)
      (fun texture after => Provided device after.1 state texture ∧
        after.2 = { layers with states := after.2.states } ∧
        ∀ last, after.2.states.set layer last = layers.states.set layer last)
      fun failure after => failure.OfDevice ∧ state.texture = none ∧ after.2 = layers ∧
        after.1.nextHandle = device.nextHandle ∧ ∀ other, Device.Spares other device after.1 := by
  have spares := device.spares_createTexture .linear .clamp
  unfold textureFor
  cases same : state.texture with
  | some texture =>
    exact Yields.pure ⟨⟨Nat.le_refl _, ahead, fun other => .refl other device, below texture same,
      .inl same⟩, rfl, fun _ => rfl⟩
  | none =>
    refine Yields.bind (Yields.within (TextureCache.newTexture_yields _ _ device)) ?_ ?_
    · rintro texture _ ⟨later, created, rfl⟩
      rw [created] at spares
      have kept : ∀ other, later.uploads other = device.uploads other := fun other =>
        (spares other).uploads
      obtain ⟨rfl, rfl⟩ := Device.createTexture_ok created
      refine Yields.modify (Yields.pure ⟨⟨Nat.le_succ _, ?_, spares, Nat.lt_succ_self _,
        .inr ⟨same, Nat.le_refl _, ?_⟩⟩, rfl, fun last => Table.set_set _ _ _ _⟩)
      · exact fun other later => (kept other).trans (ahead other (Nat.le_of_succ_le later))
      · exact (kept _).trans (ahead _ (Nat.le_refl _))
    · rintro failure _ ⟨later, ⟨cause, failed, rfl⟩, rfl⟩
      rw [failed] at spares
      refine ⟨⟨cause, rfl⟩, rfl, rfl, ?_, spares⟩
      rw [Device.createTexture_error failed]

section

variable {result : ExternalResult} {state : ExternalState} {inFlight : Nat}

/-- A result that is not newer leaves its layer as it is. -/
theorem Orderly.stale (h : Orderly received whole device states)
    (found : states.get? result.layer = some state) (old : result.number ≤ state.lastApplied) :
    Orderly (receive [result] received) whole device
      (states.set result.layer { state with inFlight }) := by
  obtain ⟨results, shown, known, showed⟩ := h.shown found
  have own := textureIn_of_get? found
  refine h.set (receive_self known) (fun _ => receive_other) (fun _ _ => id) (Nat.le_refl _)
    h.ahead (fun _ texture _ _ => .refl texture device) (fun texture same => ?_)
    ((showed.stale old).spared id (fun texture _ => .refl texture device) inFlight)
  exact ⟨h.below _ texture (own.trans same), .inl (own.trans same)⟩

/-- A newer result is shown on a texture that the layer has or was given. -/
theorem Orderly.newer (h : Orderly received whole device states)
    (found : states.get? result.layer = some state) (new : state.lastApplied < result.number)
    {texture : Handle} (provided : Provided device later { state with inFlight } texture) :
    Orderly (receive [result] received) whole
      (later.uploadTexture texture result.picture.width result.picture.height
        result.picture.bytesFromBottom)
      (states.set result.layer
        { state with inFlight, texture := some texture, lastApplied := result.number }) := by
  obtain ⟨results, shown, known, showed⟩ := h.shown found
  have mine : textureIn states result.layer = some texture ∨ device.nextHandle ≤ texture :=
    provided.own.imp (textureIn_of_get? found).trans fun fresh => fresh.2.1
  have shows := (showed.spared id (fun handle _ => provided.spared handle) inFlight).newer new
    (provided.own.imp_right fun fresh => ⟨fresh.1, fresh.2.2⟩)
  refine h.set (receive_self known) (fun _ => receive_other) (fun _ _ => id) provided.onward
    (fun handle beyond => ?_) (fun _ handle different there => ?_) (fun handle chosen => ?_) shows
  · have apart : texture ≠ handle := Nat.ne_of_lt (Nat.lt_of_lt_of_le provided.below beyond)
    exact (Device.spares_uploadTexture later apart _ _ _).uploads.trans
      (provided.ahead handle beyond)
  · exact (provided.spared handle).trans
      (Device.spares_uploadTexture later (h.texture_ne mine different there) _ _ _)
  · cases chosen
    exact ⟨provided.below, mine⟩

/-- A result that no texture could be created for is lost. -/
theorem Orderly.lost (h : Orderly received whole device states)
    (found : states.get? result.layer = some state) (none : state.texture = none)
    (handles : later.nextHandle = device.nextHandle)
    (spared : ∀ other, Device.Spares other device later) :
    Orderly (receive [result] received) (fun _ => False) later
      (states.set result.layer { state with inFlight }) := by
  obtain ⟨results, shown, known, showed⟩ := h.shown found
  refine h.set (receive_self known) (fun _ => receive_other) (fun _ _ => False.elim)
    (Nat.le_of_eq handles.symm) (fun handle beyond => ?_) (fun _ texture _ _ => spared texture)
    (fun texture same => ?_)
    ((showed.lost result).spared id (fun texture _ => spared texture) inFlight)
  · exact (spared handle).uploads.trans (h.ahead handle (handles ▸ beyond))
  · cases none.symm.trans same

end

/-- **A result that is taken** is shown if it is newer, and otherwise nothing is. -/
theorem apply_orderly (layers : ExternalLayers) (h : Orderly received whole device layers.states)
    (result : ExternalResult) :
    (apply result).Yields (device, layers)
      (fun _ after => Orderly (receive [result] received) whole after.1 after.2.states ∧
        after.2 = { layers with states := after.2.states } ∧ Later layers.states after.2.states)
      fun failure after => Orderly (receive [result] received) (fun _ => False) after.1
          after.2.states ∧ after.2 = { layers with states := after.2.states } ∧
        Later layers.states after.2.states ∧ failure.OfDevice ∧
        ∃ state, after.2.states.get? result.layer = some state ∧ state.texture = none := by
  unfold apply
  refine Yields.get ?_
  dsimp only
  cases found : layers.states.get? result.layer with
  | none =>
    rw [h.receive_unknown found]
    exact Yields.pure ⟨h, rfl, .refl _⟩
  | some state =>
    have below : ∀ texture, state.texture = some texture → texture < device.nextHandle :=
      fun texture same => h.below _ texture ((textureIn_of_get? found).trans same)
    refine Yields.modify ?_
    dsimp only
    split
    · next old =>
      exact Yields.pure ⟨h.stale found old, rfl, .set found fun none => ⟨none, rfl⟩⟩
    · next new =>
      refine Yields.bind (textureFor_provides result.layer _ _ h.ahead below) ?_ ?_
      · rintro texture ⟨later, changed⟩ ⟨provided, same, sets⟩
        refine Yields.modify (Yields.modify (Yields.pure ?_))
        dsimp only at same sets ⊢
        -- the layer was set with one request less, perhaps with a texture, and now once more
        rw [sets, Table.set_set]
        exact ⟨h.newer found (Nat.lt_of_not_le new) provided, by rw [same],
          .set found fun none => by cases none⟩
      · rintro failure ⟨later, changed⟩ ⟨ofDevice, none, rfl, handles, spared⟩
        exact ⟨h.lost found none handles spared, rfl, .set found fun _ => ⟨none, rfl⟩, ofDevice,
          _, Table.get?_set_self _ _ _, none⟩

/-! ### Taking all results -/

/-- What a drain leaves that fails: it took some results, the last of which was for a layer that
has no texture and could not get one. -/
structure Stopped (received : String → Option (List ExternalResult)) (layers : ExternalLayers)
    (results : List ExternalResult) (failure : Failure) (device : Device) (after : ExternalLayers)
    (front : List ExternalResult) (result : ExternalResult) : Prop where
  waiting : results = front ++ result :: after.waiting
  orderly : Orderly (receive (front ++ [result]) received) (fun _ => False) device after.states
  later : Later layers.states after.states
  ofDevice : failure.OfDevice
  bare : ∃ state, after.states.get? result.layer = some state ∧ state.texture = none

theorem Stopped.layer {received : String → Option (List ExternalResult)}
    {layers after : ExternalLayers} {results front : List ExternalResult} {failure : Failure}
    {device : Device} {result : ExternalResult}
    (h : Stopped received layers results failure device after front result) :
    ∃ state state', layers.states.get? result.layer = some state ∧ state.texture = none ∧
      after.states.get? result.layer = some state' ∧ state'.texture = none ∧
      state'.lastApplied = state.lastApplied := by
  obtain ⟨state', found', none'⟩ := h.bare
  obtain ⟨none, same⟩ := h.later.bare result.layer
    (by rw [textureIn_of_get? found', none'])
  obtain ⟨state, found⟩ := Option.isSome_iff_exists.mp
    ((h.later.known result.layer).symm.trans (by rw [found']; rfl))
  rw [textureIn_of_get? found] at none
  rw [appliedIn, appliedIn, found, found', Option.getD_some, Option.getD_some] at same
  exact ⟨state, state', found, none, found', none', same⟩

/-- **Results that are taken** one after another. -/
theorem drainAll_orderly : ∀ (results : List ExternalResult)
    {received : String → Option (List ExternalResult)} {device : Device} {layers : ExternalLayers},
    layers.waiting = results → Orderly received whole device layers.states →
    (drainAll results).Yields (device, layers)
      (fun _ after => Orderly (receive results received) whole after.1 after.2.states ∧
        after.2 = { layers with states := after.2.states, waiting := [] })
      fun failure after => after.2 =
          { layers with states := after.2.states, waiting := after.2.waiting } ∧
        ∃ front result, Stopped received layers results failure after.1 after.2 front result
  | [], received, _, layers, ended, h => by
    rw [receive_nil]
    exact Yields.pure ⟨h, by rw [← ended]⟩
  | result :: rest, received, device, layers, head, h => by
    have all : ∀ more,
        receive (result :: more) received = receive more (receive [result] received) :=
      fun more => receive_append [result] more received
    have taken := apply_orderly { layers with waiting := rest } h result
    unfold drainAll
    refine Yields.modify (taken.bind ?_ ?_)
    · rintro shown ⟨later, after⟩ ⟨orderly, same, tended⟩
      dsimp only at orderly same tended
      refine (drainAll_orderly rest (by rw [same]) orderly).bind ?_ ?_
      · rintro count ⟨device', final⟩ ⟨orderly', same'⟩
        dsimp only at orderly' same'
        exact Yields.pure ⟨all rest ▸ orderly', by dsimp only; rw [same', same]⟩
      · rintro failure ⟨device', final⟩ ⟨same', front, last, stopped⟩
        dsimp only at stopped same' ⊢
        refine ⟨by rw [same', same], result :: front, last, ?_⟩
        exact {
          waiting := congrArg _ stopped.waiting
          orderly := all _ ▸ stopped.orderly
          later := tended.trans stopped.later
          ofDevice := stopped.ofDevice
          bare := stopped.bare }
    · rintro failure ⟨later, after⟩ ⟨orderly, same, tended, ofDevice, bare⟩
      dsimp only at orderly same tended bare ⊢
      have waits : after.waiting = rest := by rw [same]
      exact ⟨by rw [same], [], result, ⟨by rw [waits]; rfl, orderly, tended, ofDevice, bare⟩⟩

/-- **A drain** takes all that has come back, or all up to a result that it fails for. -/
theorem drain_orderly {layers : ExternalLayers} (h : Orderly received whole device layers.states) :
    drain.Yields (device, layers)
      (fun _ after => Orderly (receive layers.waiting received) whole after.1 after.2.states ∧
        after.2 = { layers with states := after.2.states, waiting := [] })
      fun failure after => after.2 =
          { layers with states := after.2.states, waiting := after.2.waiting } ∧
        ∃ front result,
          Stopped received layers layers.waiting failure after.1 after.2 front result :=
  Yields.get (drainAll_orderly layers.waiting rfl h)

/-! ### Results for layers that are not known -/

theorem together_self {σ α : Type} (action : Action σ α) (state : σ) :
    Together action action state state (fun a b after later => a = b ∧ after = later)
      fun after later => after = later := by
  unfold Together
  cases action.runOn state with
  | mk outcome after => cases outcome <;> exact ⟨rfl, rfl⟩

/-- The same but for what waits. -/
def Beside (waiting : List ExternalResult) (pair pair' : State) : Prop :=
  pair' = (pair.1, { pair.2 with waiting })

theorem textureFor_beside (layer : String) (state : ExternalState) (device : Device)
    (layers : ExternalLayers) (waiting : List ExternalResult) :
    Together (textureFor layer state) (textureFor layer state) (device, layers)
      (device, { layers with waiting })
      (fun texture texture' after later => texture = texture' ∧ Beside waiting after later)
      (Beside waiting) := by
  unfold textureFor
  cases state.texture with
  | some texture => exact Together.pure ⟨rfl, rfl⟩
  | none =>
    have created : Together
        (Action.within Prod.fst (fun (pair : State) device => (device, pair.2))
          (TextureCache.newTexture .linear .clamp))
        (Action.within Prod.fst (fun (pair : State) device => (device, pair.2))
          (TextureCache.newTexture .linear .clamp))
        (device, layers) (device, { layers with waiting })
        (fun texture texture' after later => texture = texture' ∧ Beside waiting after later)
        (Beside waiting) := by
      refine Together.within (together_self _ device) ?_ ?_
      · rintro texture _ later _ ⟨rfl, rfl⟩
        exact ⟨rfl, rfl⟩
      · rintro later _ rfl
        rfl
    refine created.bind ?_
    rintro texture _ ⟨later, after⟩ _ ⟨rfl, rfl⟩
    exact Together.modify (Together.pure ⟨rfl, rfl⟩)

/-- What waits makes no difference to a result that is taken. -/
theorem apply_beside (result : ExternalResult) (device : Device) (layers : ExternalLayers)
    (waiting : List ExternalResult) :
    Together (apply result) (apply result) (device, layers) (device, { layers with waiting })
      (fun shown shown' after later => shown = shown' ∧ Beside waiting after later)
      (Beside waiting) := by
  unfold apply
  refine Together.get ?_
  dsimp only
  cases layers.states.get? result.layer with
  | none => exact Together.pure ⟨rfl, rfl⟩
  | some state =>
    refine Together.modify ?_
    dsimp only
    split
    · exact Together.pure ⟨rfl, rfl⟩
    · refine (textureFor_beside result.layer _ device _ waiting).bind ?_
      rintro texture _ ⟨later, after⟩ _ ⟨rfl, rfl⟩
      exact Together.modify (Together.modify (Together.pure ⟨rfl, rfl⟩))

theorem apply_unknown {result : ExternalResult} {layers : ExternalLayers}
    (unknown : layers.states.get? result.layer = none) (device : Device) :
    (apply result).Yields (device, layers)
      (fun shown after => shown = false ∧ after = (device, layers)) fun _ _ => False := by
  unfold apply
  refine Yields.get ?_
  dsimp only
  rw [unknown]
  exact Yields.pure ⟨rfl, rfl⟩

/-- A result for a layer that is not known is only taken. -/
theorem drainAll_unknown {result : ExternalResult} {layers : ExternalLayers}
    (unknown : layers.states.get? result.layer = none) (rest : List ExternalResult)
    (device : Device) : (drainAll (result :: rest)).runOn (device, layers) =
      (drainAll rest).runOn (device, { layers with waiting := rest }) := by
  let tail := { layers with waiting := rest }
  have dropped := apply_unknown (show tail.states.get? result.layer = none from unknown) device
  rw [drainAll]
  show Action.runOn (apply result >>= _) (device, { layers with waiting := rest }) = _
  rw [runOn_bind]
  unfold Yields at dropped
  generalize (apply result).runOn (device, { layers with waiting := rest }) = taken at dropped ⊢
  obtain ⟨outcome, after⟩ := taken
  cases outcome with
  | error failure => exact dropped.elim
  | ok shown =>
    obtain ⟨rfl, rfl⟩ := dropped
    dsimp only
    rw [runOn_bind]
    generalize (drainAll rest).runOn (device, { layers with waiting := rest }) = ended
    obtain ⟨outcome, after⟩ := ended
    cases outcome <;> rfl

/-- Without the results that are not known. -/
def Sifted (known : ExternalResult → Bool) (pair pair' : State) : Prop :=
  Beside (pair.2.waiting.filter known) pair pair'

theorem drainAll_discards {known : ExternalResult → Bool} : ∀ (results : List ExternalResult)
    {received : String → Option (List ExternalResult)} {device : Device} (layers : ExternalLayers),
    layers.waiting = results → Orderly received whole device layers.states →
    (∀ result, known result = (layers.states.get? result.layer).isSome) →
    Together (drainAll results) (drainAll (results.filter known)) (device, layers)
      (device, { layers with waiting := results.filter known })
      (fun count count' after later => count = count' ∧ Sifted known after later) (Sifted known)
  | [], _, _, layers, ended, _, _ => by
    refine Together.pure ⟨rfl, ?_⟩
    rw [Sifted, ended]
    rfl
  | result :: rest, received, device, layers, head, h, same => by
    cases told : known result with
    | true =>
      rw [List.filter_cons_of_pos told]
      unfold drainAll
      -- what the left one yields is needed as well: which layers are known stays the same
      have taken := ((apply_beside result device { layers with waiting := rest }
        (rest.filter known)).and_left
          (apply_orderly { layers with waiting := rest } h result)).mono (fun _ _ _ _ => id)
            fun after later failed => show Sifted known after later by
              obtain ⟨beside, _, -, kept, -⟩ := failed
              rw [Sifted, kept]
              exact beside
      refine Together.modify (taken.bind ?_)
      rintro shown _ ⟨later, after⟩ _ ⟨⟨rfl, rfl⟩, orderly, kept, tended⟩
      dsimp only at orderly kept tended ⊢
      refine (drainAll_discards rest after (by rw [kept]) orderly fun other =>
        (same other).trans (tended.known other.layer).symm).bind ?_
      rintro count _ final _ ⟨rfl, sifted⟩
      exact Together.pure ⟨rfl, sifted⟩
    | false =>
      have unknown : layers.states.get? result.layer = none := by
        rw [← Option.isNone_iff_eq_none, ← Option.not_isSome, ← same, told]
        rfl
      rw [List.filter_cons_of_neg (by rw [told]; exact Bool.false_ne_true)]
      have later := drainAll_discards rest { layers with waiting := rest } rfl h same
      unfold Together at later ⊢
      rwa [drainAll_unknown unknown]

/-- **Results for layers that are not known** make no difference to a drain. -/
theorem drain_discards {layers : ExternalLayers}
    (h : Orderly received whole device layers.states) {known : ExternalResult → Bool}
    (same : ∀ result, known result = (layers.states.get? result.layer).isSome) :
    Together drain drain (device, layers)
      (device, { layers with waiting := layers.waiting.filter known })
      (fun count count' after later => count = count' ∧ Sifted known after later) (Sifted known) :=
  Together.get (drainAll_discards layers.waiting layers rfl h same)

end ExternalLayers
end Collage
