import Collage.Proofs.Frame.Requests
import Mathlib.Data.List.Nodup

/-!
# The budget of script layers

At most `framesAhead` requests of a script layer are to be outstanding, and the layers count them
by themselves.  `Exchange` puts the layers together with whoever draws them, who answers each
request at most once, and says which requests are really `outstanding`: those submitted to whoever
draws now whose result has not been taken.

* `Exchange.budgeted_iff`: the count of a layer is exact all along a history, so that its budget is
  kept and it can always go on, if and only if the history never replaces whoever draws, and never
  removes the layer, while a request of the layer is outstanding.
* `Exchange.budget_broken`: after a replacement a layer without outstanding requests may be stuck,
  and after a removal a layer may have more outstanding requests than its budget allows.
-/

namespace Collage

namespace ExternalLayers

open Collage.Action

/-- How many requests of a layer are counted as outstanding. -/
def inFlight (layers : ExternalLayers) (layer : String) : Nat :=
  (layers.stateOf layer).inFlight

/-- The numbers of the requests of a layer whose result has not been taken: it has not come, or it
still waits. -/
def outstanding (answered : List Nat) (layers : ExternalLayers) (layer : String) : List Nat :=
  (layers.submitted.filter fun request => request.layer = layer ∧
    (request.number ∉ answered ∨ request.number ∈ layers.waiting.map (·.number))).map (·.number)

/-! ### What changes the counts -/

theorem inFlight_setStates_self (layers : ExternalLayers) (layer : String)
    (state : ExternalState) :
    inFlight { layers with states := layers.states.set layer state } layer = state.inFlight := by
  rw [inFlight, stateOf, Table.get?_set_self]
  rfl

theorem inFlight_setStates_other (layers : ExternalLayers) {layer other : String}
    (state : ExternalState) (different : other ≠ layer) :
    inFlight { layers with states := layers.states.set layer state } other =
      layers.inFlight other := by
  rw [inFlight, inFlight, stateOf, stateOf, Table.get?_set_other _ _ different]

/-- A result is taken: its layer counts one request less, and nothing else is counted otherwise. -/
structure Takes (result : ExternalResult) (before after : ExternalLayers) : Prop where
  same : after = { before with states := after.states }
  own : after.inFlight result.layer = before.inFlight result.layer - 1
  other : ∀ id, id ≠ result.layer → after.inFlight id = before.inFlight id

theorem Takes.setState {result : ExternalResult} {before after : ExternalLayers}
    (takes : Takes result before after) {state : ExternalState}
    (counted : state.inFlight = after.inFlight result.layer) :
    Takes result before { after with states := after.states.set result.layer state } := by
  refine ⟨by rw [takes.same], ?_, fun id different => ?_⟩
  · rw [inFlight_setStates_self, counted, takes.own]
  · rw [inFlight_setStates_other _ _ different, takes.other id different]

theorem textureFor_takes {result : ExternalResult} {before after : ExternalLayers}
    (takes : Takes result before after) {state : ExternalState}
    (counted : state.inFlight = after.inFlight result.layer) (device : Device) :
    (textureFor result.layer state).Yields (device, after)
      (fun _ later => Takes result before later.2) fun _ later => Takes result before later.2 := by
  unfold textureFor
  cases state.texture with
  | some texture => exact Yields.pure takes
  | none =>
    refine Yields.bind (Yields.within (TextureCache.newTexture_yields _ _ device)) ?_ ?_
    · rintro texture _ ⟨later, _, rfl⟩
      exact Yields.modify (Yields.pure (takes.setState counted))
    · rintro failure _ ⟨later, _, rfl⟩
      exact takes

/-- **A result is taken whether its picture can be shown or not.** -/
theorem apply_takes (result : ExternalResult) (device : Device) (layers : ExternalLayers) :
    (apply result).Yields (device, layers) (fun _ after => Takes result layers after.2)
      fun _ after => Takes result layers after.2 := by
  unfold apply
  refine Yields.get ?_
  dsimp only
  cases found : layers.states.get? result.layer with
  | none =>
    have none : layers.inFlight result.layer = 0 := by
      rw [inFlight, stateOf, found]
      rfl
    exact Yields.pure ⟨rfl, by rw [none], fun _ _ => rfl⟩
  | some state =>
    have counted : state.inFlight = layers.inFlight result.layer := by
      rw [inFlight, stateOf, found]
      rfl
    have takes : Takes result layers { layers with
        states := layers.states.set result.layer { state with inFlight := state.inFlight - 1 } } :=
      ⟨rfl, by rw [inFlight_setStates_self, counted],
        fun id different => inFlight_setStates_other _ _ different⟩
    have kept : ({ state with inFlight := state.inFlight - 1 } : ExternalState).inFlight =
        inFlight { layers with
          states := layers.states.set result.layer { state with inFlight := state.inFlight - 1 } }
          result.layer := (inFlight_setStates_self _ _ _).symm
    refine Yields.modify ?_
    dsimp only
    split
    · exact Yields.pure takes
    · refine (textureFor_takes takes kept device).bind ?_ fun _ _ takes => takes
      rintro texture ⟨later, changed⟩ takes
      refine Yields.modify (Yields.modify (Yields.pure (takes.setState ?_)))
      dsimp only
      rw [takes.own, counted]

/-! ### What is always so -/

/-- Requests and results belong together. -/
structure Consistent (answered : List Nat) (layers : ExternalLayers) : Prop where
  /-- every request has a number of its own -/
  once : (layers.submitted.map (·.number)).Nodup
  numbered : ∀ request ∈ layers.submitted, request.number ≤ layers.requests
  answered_le : ∀ number ∈ answered, number ≤ layers.requests
  waiting_once : (layers.waiting.map (·.number)).Nodup
  /-- what waits is the answer to a request -/
  returned : ∀ result ∈ layers.waiting, result.number ∈ answered ∧
    ∃ request ∈ layers.submitted, request.number = result.number ∧ request.layer = result.layer
  /-- nothing is submitted to no one -/
  connected : layers.submitted ≠ [] → layers.connected = true

variable {answered : List Nat} {layers : ExternalLayers} {layer : String}

theorem consistent_create (framesAhead : Nat) : Consistent [] (create framesAhead) :=
  ⟨List.nodup_nil, List.forall_mem_nil _, List.forall_mem_nil _, List.nodup_nil,
    List.forall_mem_nil _, fun something => absurd rfl something⟩

namespace Consistent

theorem new (h : Consistent answered layers) : layers.requests + 1 ∉ answered := by
  intro inside
  have := h.answered_le _ inside
  omega

theorem request (h : Consistent answered layers) (template : ExternalRequest) :
    Consistent answered
      (layers.request template.layer fun number => { template with number }).2 := by
  unfold ExternalLayers.request
  split
  case isFalse => exact h
  case isTrue wanted =>
    rw [wantsRequest, Bool.and_eq_true] at wanted
    dsimp only
    refine ⟨?_, ?_, fun number inside => Nat.le_succ_of_le (h.answered_le number inside),
      h.waiting_once, fun result inside => ?_, fun _ => wanted.1⟩
    · rw [List.map_append, List.map_singleton]
      refine List.nodup_append.mpr ⟨h.once, List.nodup_singleton _, ?_⟩
      rintro _ inside _ last rfl
      obtain ⟨request, there, same⟩ := List.mem_map.mp inside
      have known := h.numbered request there
      rw [same, List.mem_singleton.mp last] at known
      exact absurd known (Nat.not_succ_le_self _)
    · intro request inside
      rcases List.mem_append.mp inside with inside | inside
      · exact Nat.le_succ_of_le (h.numbered request inside)
      · exact Nat.le_of_eq (congrArg ExternalRequest.number (List.mem_singleton.mp inside))
    · obtain ⟨known, request, there, same⟩ := h.returned result inside
      exact ⟨known, request, List.mem_append_left _ there, same⟩

theorem setStates (h : Consistent answered layers) (states : Table String ExternalState) :
    Consistent answered { layers with states } :=
  ⟨h.once, h.numbered, h.answered_le, h.waiting_once, h.returned, h.connected⟩

theorem connect (h : Consistent answered layers) : Consistent answered layers.connect :=
  ⟨List.nodup_nil, List.forall_mem_nil _, h.answered_le, List.nodup_nil, List.forall_mem_nil _,
    fun _ => rfl⟩

/-- A request is answered for the first time. -/
theorem deliver (h : Consistent answered layers) {request : ExternalRequest}
    (inside : request ∈ layers.submitted) (first : request.number ∉ answered) (picture : Picture) :
    Consistent (request.number :: answered)
      { layers with waiting := layers.waiting ++ [⟨request.layer, request.number, picture⟩] } := by
  refine ⟨h.once, h.numbered, ?_, ?_, ?_, h.connected⟩
  · intro number known
    rcases List.mem_cons.mp known with rfl | known
    · exact h.numbered request inside
    · exact h.answered_le number known
  · rw [List.map_append, List.map_singleton]
    refine List.nodup_append.mpr ⟨h.waiting_once, List.nodup_singleton _, ?_⟩
    rintro _ waits _ last rfl
    obtain ⟨result, there, same⟩ := List.mem_map.mp waits
    have same : result.number = request.number := same.trans (List.mem_singleton.mp last)
    exact first (same ▸ (h.returned result there).1)
  · intro result waits
    rcases List.mem_append.mp waits with waits | waits
    · obtain ⟨known, found⟩ := h.returned result waits
      exact ⟨List.mem_cons_of_mem _ known, found⟩
    · rw [List.mem_singleton.mp waits]
      exact ⟨List.mem_cons_self, request, inside, rfl, rfl⟩

theorem tail (h : Consistent answered layers) {result : ExternalResult}
    {rest : List ExternalResult} (head : layers.waiting = result :: rest) :
    Consistent answered { layers with waiting := rest } := by
  refine ⟨h.once, h.numbered, h.answered_le, ?_, fun other inside => ?_, h.connected⟩
  · have once := h.waiting_once
    rw [head] at once
    exact once.of_cons
  · exact h.returned other (head ▸ List.mem_cons_of_mem _ inside)

end Consistent

/-! ### What is outstanding -/

theorem outstanding_congr {later : List Nat} {after : ExternalLayers}
    (submitted : after.submitted = layers.submitted)
    (same : ∀ request ∈ layers.submitted,
      (request.number ∉ later ∨ request.number ∈ after.waiting.map (·.number)) ↔
        (request.number ∉ answered ∨ request.number ∈ layers.waiting.map (·.number))) :
    outstanding later after layer = outstanding answered layers layer := by
  unfold outstanding
  rw [submitted]
  refine congrArg _ (List.filter_congr fun request inside => ?_)
  rw [decide_eq_decide, same request inside]

theorem length_outstanding_request (h : Consistent answered layers) {template : ExternalRequest}
    (wanted : layers.wantsRequest template.layer = true) :
    (outstanding answered
      (layers.request template.layer fun number => { template with number }).2 layer).length =
      (outstanding answered layers layer).length + if layer = template.layer then 1 else 0 := by
  unfold ExternalLayers.request
  rw [if_pos wanted]
  unfold outstanding
  dsimp only
  rw [List.filter_append, List.map_append, List.length_append]
  by_cases own : layer = template.layer <;> simp [own, Ne.symm, h.new, eq_comm]

theorem outstanding_deliver (request : ExternalRequest) (first : request.number ∉ answered)
    (picture : Picture) :
    outstanding (request.number :: answered)
      { layers with waiting := layers.waiting ++ [⟨request.layer, request.number, picture⟩] }
      layer = outstanding answered layers layer := by
  refine outstanding_congr rfl fun other _ => ?_
  simp only [List.mem_cons, List.map_append, List.map_cons, List.map_nil, List.mem_append]
  by_cases same : other.number = request.number
  · simp [same, first]
  · simp [same]

/-- A result that is taken ends one request of its layer. -/
theorem length_outstanding_tail (h : Consistent answered layers) {result : ExternalResult}
    {rest : List ExternalResult} (head : layers.waiting = result :: rest) :
    (outstanding answered { layers with waiting := rest } layer).length =
      (outstanding answered layers layer).length - if layer = result.layer then 1 else 0 := by
  have once := h.waiting_once
  rw [head, List.map_cons, List.nodup_cons] at once
  obtain ⟨known, request, inside, number, own⟩ := h.returned result (head ▸ List.mem_cons_self)
  have left : outstanding answered { layers with waiting := rest } layer =
      (outstanding answered layers layer).filter (· ≠ result.number) := by
    unfold outstanding
    rw [List.filter_map, List.filter_filter, head]
    refine congrArg _ (List.filter_congr fun other _ => ?_)
    by_cases same : other.number = result.number
    · simp [same, known, once.1]
    · simp [same]
  have nodup : (outstanding answered layers layer).Nodup :=
    h.once.sublist (List.filter_sublist.map _)
  rw [left]
  by_cases ends : layer = result.layer
  · have there : result.number ∈ outstanding answered layers layer := by
      refine List.mem_map.mpr ⟨request, List.mem_filter.mpr ⟨inside, ?_⟩, number⟩
      simp [own, ends, number, head]
    rw [if_pos ends, ← List.length_erase_of_mem there, nodup.erase_eq_filter]
    exact congrArg _ (List.filter_congr fun _ _ => by rw [Bool.eq_iff_iff]; simp)
  · rw [if_neg ends, Nat.sub_zero, List.filter_eq_self.mpr]
    intro other there
    obtain ⟨asked, found, rfl⟩ := List.mem_map.mp there
    obtain ⟨found, belongs⟩ := List.mem_filter.mp found
    have belongs : asked.layer = layer := (of_decide_eq_true belongs).1
    refine decide_eq_true fun same => ends ?_
    rw [← belongs, ← own, List.inj_on_of_nodup_map h.once found inside (same.trans number.symm)]

/-! ### Exact counts -/

/-- The count of a layer is that of its outstanding requests, and within a limit. -/
structure Kept (answered : List Nat) (limit : Nat) (layer : String) (layers : ExternalLayers) :
    Prop where
  consistent : Consistent answered layers
  limited : layers.framesAhead = limit
  exact : layers.inFlight layer = (outstanding answered layers layer).length
  bounded : layers.inFlight layer ≤ limit

namespace Kept

variable {limit : Nat}

theorem request (kept : Kept answered limit layer layers) (template : ExternalRequest) :
    Kept answered limit layer
      (layers.request template.layer fun number => { template with number }).2 := by
  by_cases wanted : layers.wantsRequest template.layer = true
  · have counted := congrFun (inFlight_request wanted fun number => { template with number }) layer
    have longer : (outstanding answered
        (layers.request template.layer fun number => { template with number }).2 layer).length = _ :=
      length_outstanding_request kept.consistent wanted
    have ahead := (layers.connected_request template.layer
      fun number => { template with number }).2
    have may := wanted
    rw [wantsRequest, Bool.and_eq_true, decide_eq_true_eq] at may
    have exact := kept.exact
    have bounded := kept.bounded
    refine ⟨kept.consistent.request template, ahead.trans kept.limited, ?_, ?_⟩
    · rw [longer, inFlight, counted, Function.update_apply]
      unfold inFlight at exact
      split
      · rename_i own
        rw [← own, exact]
      · exact exact
    · rw [inFlight, counted, Function.update_apply]
      split
      · exact kept.limited ▸ may.2
      · exact bounded
  · unfold ExternalLayers.request
    rw [if_neg wanted]
    exact kept

/-- Results are taken one after another. -/
theorem drainAll : ∀ (results : List ExternalResult) {layers : ExternalLayers} (device : Device),
    layers.waiting = results → Kept answered limit layer layers →
    (drainAll results).Yields (device, layers) (fun _ after => Kept answered limit layer after.2)
      fun _ after => Kept answered limit layer after.2
  | [], _, _, _, kept => Yields.pure kept
  | result :: rest, layers, device, head, kept => by
    unfold ExternalLayers.drainAll
    refine Yields.modify ?_
    have taken : ∀ {after : ExternalLayers}, Takes result { layers with waiting := rest } after →
        after.waiting = rest ∧ Kept answered limit layer after := by
      intro after takes
      have fewer : (outstanding answered { layers with waiting := rest } layer).length = _ :=
        length_outstanding_tail kept.consistent head
      have waits : after.waiting = rest := by rw [takes.same]
      have left : (outstanding answered after layer).length =
          (outstanding answered { layers with waiting := rest } layer).length :=
        congrArg _ (outstanding_congr (by rw [takes.same]) fun _ _ => by rw [waits])
      have counted : after.inFlight layer =
          layers.inFlight layer - if layer = result.layer then 1 else 0 := by
        split
        · rename_i own
          rw [own]
          exact takes.own
        · rename_i other
          exact takes.other layer other
      have ahead : after.framesAhead = layers.framesAhead := by rw [takes.same]
      refine ⟨waits, ?_, ahead.trans kept.limited, ?_, ?_⟩
      · rw [takes.same]
        exact (kept.consistent.tail head).setStates after.states
      · rw [left, fewer, counted, kept.exact]
      · rw [counted]
        exact Nat.le_trans (Nat.sub_le _ _) kept.bounded
    refine (apply_takes result device { layers with waiting := rest }).bind ?_
      fun _ _ takes => (taken takes).2
    rintro shown ⟨later, after⟩ takes
    obtain ⟨waits, kept⟩ := taken takes
    exact (drainAll rest later waits kept).bind (fun _ _ kept => Yields.pure kept)
      fun _ _ kept => kept

theorem drain (kept : Kept answered limit layer layers) (device : Device) :
    Kept answered limit layer (ExternalLayers.drain.runOn (device, layers)).2.2 := by
  have drained : ExternalLayers.drain.Yields (device, layers)
      (fun _ after => Kept answered limit layer after.2)
      fun _ after => Kept answered limit layer after.2 :=
    Yields.get (kept.drainAll layers.waiting device rfl)
  exact Yields.after_iff.mp drained

end Kept
end ExternalLayers

/-! ### Layers and whoever draws them -/

/-- What happens to the layers that are drawn elsewhere. -/
inductive ExternalCall
  /-- the device is used for something else -/
  | elsewhere (change : Device → Device)
  /-- someone else draws from now on -/
  | connect
  /-- a request is made if it may be, with the next number -/
  | request (template : ExternalRequest)
  /-- whoever draws now answers a request, once -/
  | answer (number : Nat) (picture : Picture)
  /-- the results are taken -/
  | drain
  /-- the layers other than these are removed -/
  | retain (live : List String)

/-- The layers that are drawn elsewhere, with the numbers of the requests that were answered. -/
structure Exchange where
  device : Device
  layers : ExternalLayers
  answered : List Nat := []

namespace Exchange

/-- No layers, and no one who draws. -/
def start (framesAhead : Nat) (device : Device) : Exchange :=
  { device, layers := .create framesAhead }

def step (exchange : Exchange) : ExternalCall → Exchange
  | .elsewhere change => { exchange with device := change exchange.device }
  | .connect => { exchange with layers := exchange.layers.connect }
  | .request template =>
    { exchange with
      layers := (exchange.layers.request template.layer fun number => { template with number }).2 }
  | .answer number picture =>
    match exchange.layers.submitted.find? fun request =>
      request.number = number ∧ request.number ∉ exchange.answered with
    | none => exchange
    | some request =>
      { exchange with
        layers := exchange.layers.deliver ⟨request.layer, request.number, picture⟩
        answered := request.number :: exchange.answered }
  | .drain =>
    let drained := (ExternalLayers.drain.runOn (exchange.device, exchange.layers)).2
    { exchange with device := drained.1, layers := drained.2 }
  | .retain live =>
    let retained := ExternalLayers.retain live exchange.device exchange.layers
    { exchange with device := retained.1, layers := retained.2 }

/-- What a history leads to. -/
def run (exchange : Exchange) (calls : List ExternalCall) : Exchange :=
  calls.foldl step exchange

/-- The numbers of the requests of a layer, submitted to whoever draws now, whose result has not
been taken. -/
def outstanding (exchange : Exchange) (layer : String) : List Nat :=
  ExternalLayers.outstanding exchange.answered exchange.layers layer

/-- Whether a call loses outstanding requests of a layer: those of whoever drew before never come
back, and those of a layer that is removed are no longer counted. -/
def Loses (exchange : Exchange) (layer : String) : ExternalCall → Prop
  | .connect => exchange.outstanding layer ≠ []
  | .retain live => layer ∉ live ∧ exchange.outstanding layer ≠ []
  | _ => False

/-- The count of a layer is exact; no more requests of it are outstanding than frames are drawn
ahead, and with none outstanding another one may be made. -/
structure Budgeted (exchange : Exchange) (framesAhead : Nat) (layer : String) : Prop where
  exact : exchange.layers.inFlight layer = (exchange.outstanding layer).length
  bounded : (exchange.outstanding layer).length ≤ max framesAhead 1
  allowed : exchange.layers.connected = true → exchange.outstanding layer = [] →
    exchange.layers.wantsRequest layer = true

variable {exchange : Exchange} {framesAhead : Nat} {layer : String}

/-- What is kept while nothing is lost. -/
def Kept (exchange : Exchange) (framesAhead : Nat) (layer : String) : Prop :=
  ExternalLayers.Kept exchange.answered (max framesAhead 1) layer exchange.layers

theorem kept_start (framesAhead : Nat) (device : Device) (layer : String) :
    (start framesAhead device).Kept framesAhead layer :=
  ⟨ExternalLayers.consistent_create framesAhead, rfl, rfl, Nat.zero_le _⟩

theorem Kept.connect (kept : exchange.Kept framesAhead layer)
    (none : exchange.outstanding layer = []) :
    (exchange.step .connect).Kept framesAhead layer := by
  have exact := kept.exact
  have bounded := kept.bounded
  refine ⟨kept.consistent.connect, kept.limited, exact.trans ?_, bounded⟩
  exact congrArg List.length none

theorem Kept.answer (kept : exchange.Kept framesAhead layer) (number : Nat) (picture : Picture) :
    (exchange.step (.answer number picture)).Kept framesAhead layer := by
  unfold step
  dsimp only
  split
  · exact kept
  · rename_i request found
    have inside := List.mem_of_find?_eq_some found
    have first : request.number ∉ exchange.answered := by
      have wanted := List.find?_some found
      exact (of_decide_eq_true wanted).2
    have connected := kept.consistent.connected (List.ne_nil_of_mem inside)
    unfold ExternalLayers.deliver
    rw [if_pos connected]
    refine ⟨kept.consistent.deliver inside first picture, kept.limited, kept.exact.trans ?_,
      kept.bounded⟩
    exact congrArg _ (ExternalLayers.outstanding_deliver request first picture).symm

theorem inFlight_retain (live : List String) :
    (exchange.step (.retain live)).layers.inFlight layer =
      if layer ∈ live then exchange.layers.inFlight layer else 0 := by
  change (((exchange.layers.states.keep live.contains).get? layer).getD {}).inFlight = _
  simp only [Table.get?_keep, List.contains_iff_mem]
  split <;> rfl

theorem Kept.retain (kept : exchange.Kept framesAhead layer) {live : List String}
    (safe : layer ∈ live ∨ exchange.outstanding layer = []) :
    (exchange.step (.retain live)).Kept framesAhead layer := by
  have counted : (exchange.step (.retain live)).layers.inFlight layer =
      exchange.layers.inFlight layer := by
    rw [inFlight_retain]
    split
    · rfl
    · rename_i gone
      exact (kept.exact.trans (congrArg List.length (safe.resolve_left gone))).symm
  exact ⟨kept.consistent.setStates _, kept.limited, counted.trans kept.exact,
    counted ▸ kept.bounded⟩

/-- **A call that loses nothing keeps the count exact.** -/
theorem Kept.step (kept : exchange.Kept framesAhead layer) {call : ExternalCall}
    (safe : ¬ exchange.Loses layer call) : (exchange.step call).Kept framesAhead layer := by
  cases call with
  | elsewhere change => exact kept
  | connect => exact kept.connect (not_not.mp safe)
  | request template => exact ExternalLayers.Kept.request kept template
  | answer number picture => exact kept.answer number picture
  | drain => exact ExternalLayers.Kept.drain kept exchange.device
  | retain live => exact kept.retain (by unfold Loses at safe; tauto)

theorem Kept.budgeted (kept : exchange.Kept framesAhead layer) :
    exchange.Budgeted framesAhead layer := by
  have exact := kept.exact
  refine ⟨exact, exact ▸ kept.bounded, fun connected none => ?_⟩
  have idle : exchange.layers.inFlight layer = 0 := exact.trans (congrArg List.length none)
  have positive : exchange.layers.inFlight layer < exchange.layers.framesAhead := by
    rw [idle, kept.limited]
    omega
  rw [ExternalLayers.wantsRequest, connected]
  exact decide_eq_true positive

/-- **What a call loses makes the count wrong.** -/
theorem Budgeted.not_of_loses (budgeted : exchange.Budgeted framesAhead layer)
    {call : ExternalCall} (loses : exchange.Loses layer call) :
    ¬ (exchange.step call).Budgeted framesAhead layer := by
  intro again
  have counted := again.exact
  cases call with
  | connect =>
    -- the count stays, and nothing is outstanding
    exact loses (List.length_eq_zero_iff.mp (budgeted.exact.symm.trans counted))
  | retain live =>
    -- what is outstanding stays, and the count begins anew
    rw [inFlight_retain, if_neg loses.1] at counted
    exact loses.2 (List.length_eq_zero_iff.mp counted.symm)
  | _ => exact loses

/-- **The budget of a layer is exact where nothing is lost, and only there.**  Whatever is called,
and in whatever order results come: after each part of a history the count of a layer is that of
its outstanding requests, never more of them than frames may be drawn ahead, and with none
outstanding another request may be made, if and only if no call of the history replaces whoever
draws, or removes the layer, while a request of the layer is outstanding. -/
theorem budgeted_iff (framesAhead : Nat) (device : Device) (calls : List ExternalCall)
    (layer : String) :
    (∀ past, past <+: calls → ((start framesAhead device).run past).Budgeted framesAhead layer) ↔
      ∀ past call, past ++ [call] <+: calls →
        ¬ ((start framesAhead device).run past).Loses layer call := by
  have step : ∀ past call, (start framesAhead device).run (past ++ [call]) =
      ((start framesAhead device).run past).step call :=
    fun past call => List.foldl_append
  constructor
  · intro budgeted past call among loses
    have later := budgeted _ among
    rw [step] at later
    exact (budgeted past ((List.prefix_append past [call]).trans among)).not_of_loses loses later
  · intro safe past
    suffices kept : past <+: calls → ((start framesAhead device).run past).Kept framesAhead layer
      from fun among => (kept among).budgeted
    -- from the end of the history, so that the last call is the one that matters
    induction past using List.reverseRecOn with
    | nil => exact fun _ => kept_start framesAhead device layer
    | append_singleton past call ih =>
      intro among
      rw [step]
      exact (ih ((List.prefix_append past [call]).trans among)).step (safe past call among)

/-- A request for a layer. -/
def requestFor (layer : String) : ExternalCall :=
  .request { (default : ExternalRequest) with layer }

/-- **The budget is broken by a replacement and by a removal.**  After two requests and a
replacement of whoever draws nothing is outstanding, and yet no request may be made.  After two
requests and a removal a third one may be made although two are outstanding. -/
theorem budget_broken :
    (∃ exchange, exchange = (start 2 {}).run
        [.connect, requestFor "js", requestFor "js", .connect] ∧
      exchange.outstanding "js" = [] ∧ exchange.layers.connected = true ∧
        exchange.layers.wantsRequest "js" = false) ∧
    ∃ exchange, exchange = (start 2 {}).run
        [.connect, requestFor "js", requestFor "js", .retain [], requestFor "js"] ∧
      exchange.outstanding "js" = [1, 2, 3] ∧ exchange.layers.inFlight "js" = 1 := by
  exact ⟨⟨_, rfl, rfl, rfl, rfl⟩, _, rfl, rfl, rfl⟩

end Exchange
end Collage
