import Collage.Proofs.Frame.Uploads

/-!
# Pictures that come back in any order

`Traffic` is the layers that are drawn elsewhere, the device that shows them, and a log of the
requests that were made, the results that were taken and the layers that were forgotten.  Requests
for any layers, results that come back in any order, and drains lead to the traffic that is
`Reached`, whatever else the device is used for in between.

What one call keeps is said by `Kept`, and every traffic that is reached keeps it
(`Reached.kept`).  So pictures never go backwards: `Reached.inOrder`.
-/

namespace Collage

/-! ### The log -/

/-- What happens to the layers that are drawn elsewhere. -/
inductive TrafficEvent where
  /-- a request is handed to whoever draws -/
  | requested (request : ExternalRequest)
  /-- results are taken, the oldest first; the last of them may fail -/
  | drained (taken : List ExternalResult) (failed : Bool)
  /-- all layers but some are forgotten -/
  | retained (live : List String)

namespace TrafficEvent

/-- The numbers of the requests that were handed on, the newest first. -/
def numbers (log : List TrafficEvent) : List Nat :=
  log.filterMap fun
    | .requested request => some request.number
    | _ => none

/-- What happened since the first request for a layer, the newest first, and nothing for a layer
that has made no request since it was forgotten. -/
def since (layer : String) : List TrafficEvent → Option (List TrafficEvent)
  | [] => none
  | .requested request :: earlier =>
    if request.layer = layer then some (.requested request :: (since layer earlier).getD [])
    else (since layer earlier).map (.requested request :: ·)
  | .drained taken failed :: earlier => (since layer earlier).map (.drained taken failed :: ·)
  | .retained live :: earlier =>
    if live.contains layer then (since layer earlier).map (.retained live :: ·) else none

/-- The results for a layer that were taken, the oldest first. -/
def received (layer : String) : List TrafficEvent → List ExternalResult
  | [] => []
  | .drained taken _ :: earlier => received layer earlier ++ taken.filter (·.layer = layer)
  | _ :: earlier => received layer earlier

/-- No drain has failed. -/
def Unfailed (log : List TrafficEvent) : Prop :=
  ∀ taken, .drained taken true ∉ log

/-- What was received for a layer since its first request. -/
def receivedSince (log : List TrafficEvent) (layer : String) : Option (List ExternalResult) :=
  (since layer log).map (received layer)

/-- No drain has failed since the first request for a layer. -/
def UnfailedSince (log : List TrafficEvent) (layer : String) : Prop :=
  ∃ events, since layer log = some events ∧ Unfailed events

variable {log events : List TrafficEvent} {layer : String} {request : ExternalRequest}
  {taken : List ExternalResult} {failed : Bool} {live : List String}

theorem Unfailed.tail {event : TrafficEvent} (h : Unfailed (event :: events)) : Unfailed events :=
  fun taken inside => h taken (List.mem_cons_of_mem event inside)

/-! ### What one more event changes -/

theorem since_requested_self : since request.layer (.requested request :: log) =
    some (.requested request :: (since request.layer log).getD []) :=
  if_pos rfl

theorem since_requested_other (different : layer ≠ request.layer) :
    since layer (.requested request :: log) =
      (since layer log).map (.requested request :: ·) :=
  if_neg (Ne.symm different)

theorem since_retained (kept : live.contains layer = true) :
    since layer (.retained live :: log) = (since layer log).map (.retained live :: ·) :=
  if_pos kept

theorem since_retained_gone (gone : live.contains layer = false) :
    since layer (.retained live :: log) = none :=
  if_neg (Bool.eq_false_iff.mp gone)

theorem receivedSince_of_map {log' : List TrafficEvent} {event : TrafficEvent}
    (longer : since layer log' = (since layer log).map (event :: ·))
    (same : ∀ events, received layer (event :: events) = received layer events) :
    receivedSince log' layer = receivedSince log layer := by
  rw [receivedSince, longer, Option.map_map, receivedSince]
  exact congrArg (Option.map · _) (funext same)

theorem UnfailedSince.of_map {log' : List TrafficEvent} {event : TrafficEvent}
    (longer : since layer log' = (since layer log).map (event :: ·))
    (h : UnfailedSince log' layer) : ∃ events, since layer log = some events ∧
      Unfailed (event :: events) := by
  obtain ⟨events, known, unfailed⟩ := h
  obtain ⟨before, found, rfl⟩ := Option.map_eq_some_iff.mp (longer.symm.trans known)
  exact ⟨before, found, unfailed⟩

theorem receivedSince_drained :
    receivedSince (.drained taken failed :: log) =
      ExternalLayers.receive taken (receivedSince log) := by
  funext layer
  rw [receivedSince, since, ExternalLayers.receive, receivedSince, Option.map_map, Option.map_map]
  rfl

end TrafficEvent

open TrafficEvent

/-! ### Calls -/

/-- Layers that are drawn elsewhere, the device that shows them, and what happened to them. -/
structure Traffic where
  device : Device
  layers : ExternalLayers
  /-- the newest first -/
  log : List TrafficEvent := []

namespace Traffic

/-- Makes a request, which gets a number, if it may be made. -/
def request (request : ExternalRequest) (traffic : Traffic) : Traffic :=
  let layers :=
    (traffic.layers.request request.layer fun number => { request with number }).2
  let handed := layers.submitted.drop traffic.layers.submitted.length
  { traffic with layers, log := handed.map .requested ++ traffic.log }

/-- Shows what has come back. -/
def drain (traffic : Traffic) : Traffic :=
  let (outcome, device, layers) := ExternalLayers.drain.runOn (traffic.device, traffic.layers)
  let waited := traffic.layers.waiting
  let taken := waited.take (waited.length - layers.waiting.length)
  { device, layers, log := .drained taken (outcome matches .error _) :: traffic.log }

/-- Forgets the layers other than `live`. -/
def retain (live : List String) (traffic : Traffic) : Traffic :=
  let (device, layers) := ExternalLayers.retain live traffic.device traffic.layers
  { device, layers, log := .retained live :: traffic.log }

/-- Forgets all layers. -/
def clear (traffic : Traffic) : Traffic :=
  let (device, layers) := ExternalLayers.clear traffic.device traffic.layers
  { device, layers, log := .retained [] :: traffic.log }

/-- The device is used for something else. -/
structure Elsewhere (traffic : Traffic) (later : Device) : Prop where
  onward : traffic.device.nextHandle ≤ later.nextHandle
  ahead : later.Ahead
  spared : ∀ layer texture, traffic.layers.texture? layer = some texture →
    Device.Spares texture traffic.device later

/-- The traffic that can be reached. -/
inductive Reached : Traffic → Prop
  | start (framesAhead : Nat) {device : Device} : device.Ahead →
      Reached { device, layers := ExternalLayers.create framesAhead }
  | connected {traffic : Traffic} :
      Reached traffic → Reached { traffic with layers := traffic.layers.connect }
  | requested {traffic : Traffic} (request : ExternalRequest) :
      Reached traffic → Reached (traffic.request request)
  | delivered {traffic : Traffic} (result : ExternalResult) :
      Reached traffic → Reached { traffic with layers := traffic.layers.deliver result }
  | drained {traffic : Traffic} : Reached traffic → Reached traffic.drain
  | retained {traffic : Traffic} (live : List String) :
      Reached traffic → Reached (traffic.retain live)
  | cleared {traffic : Traffic} : Reached traffic → Reached traffic.clear
  | elsewhere {traffic : Traffic} {later : Device} :
      Reached traffic → traffic.Elsewhere later → Reached { traffic with device := later }

/-! ### What calls keep -/

/-- Numbers go up to that of the last request, and the layers show what was received for them. -/
structure Kept (traffic : Traffic) : Prop where
  numbers : (numbers traffic.log).Pairwise (· > ·)
  bounded : ∀ number ∈ TrafficEvent.numbers traffic.log, number ≤ traffic.layers.requests
  orderly : ExternalLayers.Orderly (receivedSince traffic.log) (UnfailedSince traffic.log)
    traffic.device traffic.layers.states

end Traffic

namespace ExternalLayers

variable {received : String → Option (List ExternalResult)} {whole : String → Prop}
  {device later : Device} {states : Table String ExternalState}

/-- Whatever else the device is used for. -/
theorem Orderly.spared (h : Orderly received whole device states) {whole' : String → Prop}
    (weaker : ∀ layer, whole' layer → whole layer)
    (onward : device.nextHandle ≤ later.nextHandle) (ahead : later.Ahead)
    (spared : ∀ layer texture, textureIn states layer = some texture →
      Device.Spares texture device later) : Orderly received whole' later states where
  unknown := h.unknown
  shows := fun layer results known => by
    obtain ⟨state, shown, found, shows⟩ := h.shows layer results known
    refine ⟨state, shown, found,
      shows.spared (weaker layer) (fun texture same => ?_) state.inFlight⟩
    exact spared layer texture (by rw [textureIn_of_get? found, same])
  below := fun layer texture there => Nat.lt_of_lt_of_le (h.below layer texture there) onward
  apart := h.apart
  ahead := ahead

/-- A request is made for a layer, perhaps the first one. -/
theorem Orderly.request {layers : ExternalLayers} {log : List TrafficEvent}
    (h : Orderly (receivedSince log) (UnfailedSince log) device layers.states)
    (request : ExternalRequest) (inFlight : Nat) :
    Orderly (receivedSince (.requested request :: log)) (UnfailedSince (.requested request :: log))
      device (layers.states.set request.layer { layers.stateOf request.layer with inFlight }) := by
  have same : (layers.stateOf request.layer).texture = textureIn layers.states request.layer := by
    rw [stateOf, textureIn]
    cases layers.states.get? request.layer <;> rfl
  obtain ⟨shown, shows⟩ : ∃ shown, Shown (received request.layer
      ((since request.layer log).getD [])) (UnfailedSince (.requested request :: log) request.layer)
      device { layers.stateOf request.layer with inFlight } shown := by
    cases known : since request.layer log with
    | none =>
      have none : layers.states.get? request.layer = none :=
        h.unknown _ (by rw [receivedSince, known, Option.map_none])
      rw [stateOf, none]
      exact ⟨[], .start device inFlight _⟩
    | some events =>
      obtain ⟨state, shown, found, shows⟩ := h.shows request.layer (received request.layer events)
        (by rw [receivedSince, known, Option.map_some])
      rw [stateOf, found]
      refine ⟨shown, shows.spared (fun unfailed => ?_) (fun texture _ => .refl texture device) _⟩
      obtain ⟨_, longer, unfailed⟩ := unfailed
      rw [since_requested_self, known] at longer
      cases longer
      exact ⟨events, known, unfailed.tail⟩
  refine h.set ?_ (fun other different => ?_) (fun other different unfailed => ?_) (Nat.le_refl _)
    h.ahead (fun _ texture _ _ => .refl texture device) (fun texture there => ?_) shows
  · rw [receivedSince, since_requested_self]
    rfl
  · exact receivedSince_of_map (since_requested_other different) fun _ => rfl
  · obtain ⟨events, known, unfailed⟩ := unfailed.of_map (since_requested_other different)
    exact ⟨events, known, unfailed.tail⟩
  · exact ⟨h.below _ texture (same.symm.trans there), .inl (same.symm.trans there)⟩

/-- Some layers are forgotten. -/
theorem Orderly.keep (h : Orderly received whole device states) {live : String → Bool}
    {received' : String → Option (List ExternalResult)} {whole' : String → Prop}
    (kept : ∀ layer, live layer = true → received' layer = received layer)
    (gone : ∀ layer, live layer = false → received' layer = none)
    (weaker : ∀ layer, whole' layer → whole layer) :
    Orderly received' whole' device (states.keep live) := by
  have there : ∀ layer texture, textureIn (states.keep live) layer = some texture →
      textureIn states layer = some texture := by
    intro layer texture same
    rw [textureIn, Table.get?_keep] at same
    split at same
    · exact same
    · cases same
  constructor
  case unknown =>
    intro layer none
    rw [Table.get?_keep]
    split
    · next kept' => exact h.unknown layer (kept layer kept' ▸ none)
    · rfl
  case shows =>
    intro layer results known
    cases lives : live layer with
    | true =>
      obtain ⟨state, shown, found, shows⟩ := h.shows layer results (kept layer lives ▸ known)
      rw [Table.get?_keep, if_pos lives]
      exact ⟨state, shown, found, shows.spared (weaker layer)
        (fun texture _ => .refl texture device) state.inFlight⟩
    | false =>
      rw [gone layer lives] at known
      cases known
  case below => exact fun layer texture same => h.below layer texture (there layer texture same)
  case apart =>
    exact fun layer other texture same same' =>
      h.apart layer other texture (there layer texture same) (there other texture same')
  case ahead => exact h.ahead

theorem clear_eq_retain (device : Device) (layers : ExternalLayers) :
    clear device layers = retain [] device layers := by
  simp [clear, retain, Table.values, Table.keep]

theorem spares_deleteTextures (gone : List ExternalState) (device : Device) (texture : Handle) :
    Device.Spares texture device (deleteTextures gone device) ∧
      (deleteTextures gone device).nextHandle = device.nextHandle := by
  unfold deleteTextures
  induction gone.filterMap (·.texture) generalizing device with
  | nil => exact ⟨.refl texture device, rfl⟩
  | cons first rest ih =>
    obtain ⟨spared, same⟩ := ih (device.deleteTexture first)
    exact ⟨(device.spares_deleteTexture first texture).trans spared, same⟩

end ExternalLayers

namespace Traffic

open ExternalLayers

variable {traffic : Traffic}

namespace Kept

theorem start (framesAhead : Nat) {device : Device} (ahead : device.Ahead) :
    Kept { device, layers := ExternalLayers.create framesAhead } where
  numbers := List.Pairwise.nil
  bounded := List.forall_mem_nil _
  orderly := {
    unknown := fun _ _ => rfl
    shows := fun _ _ known => by cases known
    below := fun _ _ there => by cases there
    apart := fun _ _ _ there => by cases there
    ahead }

theorem waiting (h : traffic.Kept) {layers : ExternalLayers}
    (states : layers.states = traffic.layers.states)
    (requests : layers.requests = traffic.layers.requests) : Kept { traffic with layers } where
  numbers := h.numbers
  bounded := fun number inside => requests ▸ h.bounded number inside
  orderly := states ▸ h.orderly

theorem deliver (h : traffic.Kept) (result : ExternalResult) :
    Kept { traffic with layers := traffic.layers.deliver result } := by
  refine h.waiting ?_ ?_ <;>
  · unfold ExternalLayers.deliver
    split <;> rfl

/-- **A request** gets a number above all others. -/
theorem request (h : traffic.Kept) (request : ExternalRequest) :
    (traffic.request request).Kept := by
  unfold Traffic.request ExternalLayers.request
  dsimp only
  split
  · rw [List.drop_left]
    let handed := { request with number := traffic.layers.requests + 1 }
    exact {
      numbers := List.pairwise_cons.mpr
        ⟨fun number inside => Nat.lt_succ_of_le (h.bounded number inside), h.numbers⟩
      bounded := List.forall_mem_cons.mpr ⟨Nat.le_refl _,
        fun number inside => Nat.le_succ_of_le (h.bounded number inside)⟩
      orderly := h.orderly.request handed _ }
  · rw [List.drop_length]
    exact h

theorem taken (h : traffic.Kept) {device : Device} {layers : ExternalLayers}
    {taken : List ExternalResult} {failed : Bool} {whole : String → Prop}
    (requests : layers.requests = traffic.layers.requests)
    (orderly : Orderly (receive taken (receivedSince traffic.log)) whole device layers.states)
    (weaker : ∀ layer, UnfailedSince (.drained taken failed :: traffic.log) layer → whole layer) :
    Kept { device, layers, log := .drained taken failed :: traffic.log } where
  numbers := h.numbers
  bounded := fun number inside => requests ▸ h.bounded number inside
  orderly := by
    dsimp only
    rw [receivedSince_drained]
    exact orderly.spared weaker (Nat.le_refl _) orderly.ahead
      fun _ texture _ => .refl texture device

/-- **A drain**, also one that fails. -/
theorem drain (h : traffic.Kept) : traffic.drain.Kept := by
  have drained := drain_orderly h.orderly
  unfold Traffic.drain
  unfold Action.Yields at drained
  generalize ExternalLayers.drain.runOn (traffic.device, traffic.layers) = ended at drained
  obtain ⟨outcome, device, layers⟩ := ended
  cases outcome with
  | ok count =>
    obtain ⟨orderly, same⟩ := drained
    dsimp only at orderly same ⊢
    have all : traffic.layers.waiting.take
        (traffic.layers.waiting.length - layers.waiting.length) = traffic.layers.waiting := by
      rw [show layers.waiting = [] by rw [same]]
      exact List.take_length
    rw [all]
    refine h.taken (by rw [same]) orderly fun layer unfailed => ?_
    obtain ⟨events, known, unfailed⟩ := unfailed.of_map rfl
    exact ⟨events, known, unfailed.tail⟩
  | error failure =>
    obtain ⟨same, front, result, stopped⟩ := drained
    dsimp only at same stopped ⊢
    -- the result that failed is taken too
    have some : traffic.layers.waiting.take
        (traffic.layers.waiting.length - layers.waiting.length) = front ++ [result] := by
      have longer : traffic.layers.waiting = (front ++ [result]) ++ layers.waiting := by
        rw [stopped.waiting, List.append_assoc, List.singleton_append]
      rw [longer, List.length_append, Nat.add_sub_cancel, List.take_left]
    rw [some]
    refine h.taken (by rw [same]) stopped.orderly fun layer unfailed => ?_
    obtain ⟨events, -, unfailed⟩ := unfailed.of_map rfl
    exact unfailed _ List.mem_cons_self

/-- **Layers that are forgotten.** -/
theorem retain (h : traffic.Kept) (live : List String) : (traffic.retain live).Kept where
  numbers := h.numbers
  bounded := h.bounded
  orderly := by
    have spared := spares_deleteTextures
    have kept : Orderly (receivedSince (.retained live :: traffic.log))
        (UnfailedSince (.retained live :: traffic.log)) traffic.device
        (traffic.layers.states.keep live.contains) := by
      refine h.orderly.keep (fun layer lives => ?_) (fun layer gone => ?_) fun layer unfailed => ?_
      · exact receivedSince_of_map (since_retained lives) fun _ => rfl
      · rw [receivedSince, since_retained_gone gone]
        rfl
      · cases lives : live.contains layer with
        | true =>
          obtain ⟨events, known, unfailed⟩ := unfailed.of_map (since_retained lives)
          exact ⟨events, known, unfailed.tail⟩
        | false =>
          obtain ⟨_, known, -⟩ := unfailed
          rw [since_retained_gone lives] at known
          cases known
    -- the textures of the others are deleted, those that are left show what they did
    exact kept.spared (fun _ => id) (Nat.le_of_eq (spared _ _ 0).2.symm) (fun texture later =>
      (spared _ _ texture).1.uploads.trans
        (h.orderly.ahead texture (Nat.le_trans (Nat.le_of_eq (spared _ _ 0).2.symm) later)))
      fun _ texture _ => (spared _ _ texture).1

theorem elsewhere (h : traffic.Kept) {later : Device} (other : traffic.Elsewhere later) :
    Kept { traffic with device := later } where
  numbers := h.numbers
  bounded := h.bounded
  orderly := h.orderly.spared (fun _ => id) other.onward other.ahead other.spared

theorem shows (h : traffic.Kept) {layer : String} {events : List TrafficEvent}
    (known : since layer traffic.log = some events) : ∃ state shown,
    traffic.layers.states.get? layer = some state ∧
      Shown (received layer events) (UnfailedSince traffic.log layer) traffic.device state shown :=
  h.orderly.shows layer _ (by rw [receivedSince, known, Option.map_some])

theorem unknown (h : traffic.Kept) {layer : String} (new : since layer traffic.log = none) :
    traffic.layers.states.get? layer = none :=
  h.orderly.unknown layer (by rw [receivedSince, new, Option.map_none])

end Kept

theorem Reached.kept (h : traffic.Reached) : traffic.Kept := by
  induction h with
  | start framesAhead ahead => exact .start framesAhead ahead
  | connected _ ih => exact ih.waiting rfl rfl
  | requested request _ ih => exact ih.request request
  | delivered result _ ih => exact ih.deliver result
  | drained _ ih => exact ih.drain
  | retained live _ ih => exact ih.retain live
  | cleared _ ih =>
    rw [clear, clear_eq_retain]
    exact ih.retain []
  | elsewhere _ other ih => exact ih.elsewhere other

/-! ### The order of pictures -/

/-- The pictures of layers that are drawn elsewhere never go backwards. -/
structure InOrder (traffic : Traffic) : Prop where
  /-- a request has a higher number than those before, whatever layers they are for -/
  requests : (numbers traffic.log).Pairwise (· > ·)
  /-- a layer has a texture only after a request, and uploaded to it were some of the results that
  were received since then, with higher and higher numbers -/
  uploads : ∀ layer texture, traffic.layers.texture? layer = some texture →
    ∃ (events : List TrafficEvent) (shown : List ExternalResult),
      since layer traffic.log = some events ∧
      shown.Sublist (received layer events) ∧ (shown.map (·.number)).Pairwise (· < ·) ∧
      traffic.device.uploads texture = (shown.map (·.content)).reverse
  /-- unless a drain has failed, a layer shows the highest number that was received since its first
  request, as it was received first -/
  newest : ∀ layer events, since layer traffic.log = some events → Unfailed events →
    ∀ highest ∈ received layer events, 0 < highest.number →
      (∀ result ∈ received layer events, result.number ≤ highest.number) →
      ∃ texture result, traffic.layers.texture? layer = some texture ∧
        (received layer events).find? (·.number = highest.number) = some result ∧
        ∀ {ι : Type} (painter : Painter ι), (traffic.device.canvas painter).shown texture =
          painter.upload result.content.1 result.content.2.1 result.content.2.2
  /-- without the results for layers that are not known a drain does the same -/
  discards : ∀ known : ExternalResult → Bool,
    (∀ result, known result = (traffic.layers.states.get? result.layer).isSome) →
    Action.Together ExternalLayers.drain ExternalLayers.drain (traffic.device, traffic.layers)
      (traffic.device, { traffic.layers with waiting := traffic.layers.waiting.filter known })
      (fun count count' after later => count = count' ∧ Sifted known after later) (Sifted known)
  /-- a drain that ends well takes all results -/
  emptied : ∀ count after,
    ExternalLayers.drain.runOn (traffic.device, traffic.layers) = (.ok count, after) →
    after.2.waiting = []
  /-- a drain that fails does so for a result whose layer has no texture and gets none; what it
  shows stays the same, and later results stay where they are -/
  stopped : ∀ failure after,
    ExternalLayers.drain.runOn (traffic.device, traffic.layers) = (.error failure, after) →
    failure.OfDevice ∧ ∃ front result state state',
      traffic.layers.waiting = front ++ result :: after.2.waiting ∧
      traffic.layers.states.get? result.layer = some state ∧ state.texture = none ∧
      after.2.states.get? result.layer = some state' ∧ state'.texture = none ∧
      state'.lastApplied = state.lastApplied

/-- **Pictures never go backwards**, whatever is requested, comes back and is drained, and in
whichever order. -/
theorem Reached.inOrder (reached : traffic.Reached) : traffic.InOrder := by
  have kept := reached.kept
  constructor
  case requests => exact kept.numbers
  case uploads =>
    intro layer texture there
    cases known : since layer traffic.log with
    | none =>
      rw [texture?, kept.unknown known] at there
      cases there
    | some events =>
      obtain ⟨state, shown, found, shows⟩ := kept.shows known
      rw [texture?, found, Option.bind_some] at there
      exact ⟨events, shown, rfl, shows.among, (List.pairwise_cons.mp shows.increasing).2,
        shows.uploads texture there⟩
  case newest =>
    intro layer events known unfailed highest inside positive top
    obtain ⟨state, shown, found, shows⟩ := kept.shows known
    obtain ⟨texture, last, there, ends, first⟩ :=
      shows.newest ⟨events, known, unfailed⟩ inside positive top
    exact ⟨texture, last, by rw [texture?, found, Option.bind_some, there], first,
      shows.shows texture there last ends⟩
  case discards => exact fun known same => drain_discards kept.orderly same
  case emptied =>
    intro count after ended
    obtain ⟨-, same⟩ := (drain_orderly kept.orderly).of_ok ended
    rw [same]
  case stopped =>
    intro failure after ended
    obtain ⟨-, front, result, stopped⟩ := (drain_orderly kept.orderly).of_error ended
    obtain ⟨state, state', found, none, found', none', same⟩ := stopped.layer
    exact ⟨stopped.ofDevice, front, result, state, state', stopped.waiting, found, none, found',
      none', same⟩

/-- Two requests for a layer, whose pictures come back the wrong way round, the newer one again. -/
def overtaken : Traffic :=
  let request : ExternalRequest := { (default : ExternalRequest) with layer := "waves" }
  let deliver (number : Nat) (shade : UInt8) (traffic : Traffic) : Traffic :=
    let picture : Picture := ⟨1, 1, [Color.constant shade]⟩
    { traffic with layers := traffic.layers.deliver ⟨"waves", number, picture⟩ }
  let start : Traffic := { device := {}, layers := (ExternalLayers.create 2).connect }
  start.request request |>.request request |> deliver 2 20 |> deliver 1 10 |> deliver 2 30 |>.drain

theorem overtaken_reached : overtaken.Reached :=
  .drained (.delivered _ (.delivered _ (.delivered _ (.requested _ (.requested _
    (.connected (.start 2 fun _ _ => rfl)))))))

/-- Only the newer one is shown, once. -/
theorem overtaken_inOrder : overtaken.InOrder ∧
    numbers overtaken.log = [2, 1] ∧
    (receivedSince overtaken.log "waves").map (List.map (·.number)) = some [2, 1, 2] ∧
    (overtaken.layers.texture? "waves").map overtaken.device.uploads =
      some [(1, 1, [20, 20, 20, 20])] :=
  ⟨Reached.inOrder overtaken_reached, by decide +kernel, by decide +kernel, by decide +kernel⟩

end Traffic
end Collage
