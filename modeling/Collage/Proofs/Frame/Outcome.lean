import Collage.Failure
import Mathlib.Order.Defs.Unbundled

/-!
# What actions end with

`Action.Yields action state ok failed` says what an action does from a state: if it
ends well, `ok` holds of its value and of the state afterwards, and if it fails,
`failed` holds of the failure and of the state at that moment.  Every way of putting
actions together has a rule here, so that an action is dealt with by the rules of
its parts, and no proof looks at how failures travel.

`Action.Leads R lost action` is the case in which only relations between the states before
and after count, one for each end; relations that are `Action.Traces` go on from action to
action.  `Action.Keeps R action` has the same relation for both ends, and
`Action.OnlyDevice action` is the case in which only the failure counts.
-/

namespace Collage

/-- The device could not create something. -/
def Failure.OfDevice (failure : Failure) : Prop :=
  ∃ cause, failure = .device cause

namespace Action

variable {σ τ α β : Type}

/-- What holds of the value and the state if an action ends well, and of the failure and
the state if it fails. -/
def Yields (action : Action σ α) (state : σ) (ok : α → σ → Prop) (failed : Failure → σ → Prop) :
    Prop :=
  match action.runOn state with
  | (.ok value, after) => ok value after
  | (.error failure, after) => failed failure after

/-! ### How parts run -/

theorem runOn_bind (action : Action σ α) (next : α → Action σ β) (state : σ) :
    (action >>= next).runOn state =
      match action.runOn state with
      | (.ok value, after) => (next value).runOn after
      | (.error failure, after) => (.error failure, after) := by
  change (ExceptT.bindCont next (action.runOn state).1 (action.runOn state).2) = _
  cases action.runOn state with
  | mk outcome after => cases outcome <;> rfl

theorem runOn_within (part : σ → τ) (replace : σ → τ → σ) (action : Action τ α) (state : σ) :
    (within part replace action).runOn state =
      ((action.runOn (part state)).1, replace state (action.runOn (part state)).2) :=
  rfl

theorem runOn_followedBy (action : Action σ α) (last : Action σ Unit) (state : σ) :
    (action.followedBy last).runOn state =
      match last.runOn (action.runOn state).2 with
      | (.ok _, final) => ((action.runOn state).1, final)
      | (.error failure, final) => (.error failure, final) :=
  rfl

theorem runOn_followedBy_ok {action : Action σ α} {state after : σ} {value : α}
    (ended : action.runOn state = (.ok value, after)) (last : Action σ Unit) :
    (action.followedBy last).runOn state = (last >>= fun _ => Pure.pure value).runOn after := by
  rw [runOn_followedBy, runOn_bind, ended]
  obtain ⟨outcome, final⟩ := last.runOn after
  cases outcome <;> rfl

theorem runOn_followedBy_error {action : Action σ α} {state after : σ} {failure : Failure}
    (ended : action.runOn state = (.error failure, after)) (last : Action σ Unit) :
    (action.followedBy last).runOn state =
      (last >>= fun _ => (MonadExcept.throw failure : Action σ α)).runOn after := by
  rw [runOn_followedBy, runOn_bind, ended]
  obtain ⟨outcome, final⟩ := last.runOn after
  cases outcome <;> rfl

theorem runOn_eq_ok {action : Action σ α} {state : σ} {value : α}
    (ended : (action.runOn state).1.toOption = some value) :
    action.runOn state = (.ok value, (action.runOn state).2) := by
  cases ran : action.runOn state with
  | mk outcome after =>
    rw [ran] at ended
    cases outcome with
    | ok found =>
      cases ended
      rfl
    | error failure => cases ended

theorem runOn_eq_error {action : Action σ α} {state : σ}
    (ended : (action.runOn state).1.toOption = none) :
    ∃ failure, action.runOn state = (.error failure, (action.runOn state).2) := by
  cases ran : action.runOn state with
  | mk outcome after =>
    rw [ran] at ended
    cases outcome with
    | ok found => cases ended
    | error failure => exact ⟨failure, rfl⟩

namespace Yields

variable {action : Action σ α} {state : σ} {ok : α → σ → Prop} {failed : Failure → σ → Prop}

/-! ### Rules -/

theorem mono {ok' : α → σ → Prop} {failed' : Failure → σ → Prop}
    (h : action.Yields state ok failed) (good : ∀ value after, ok value after → ok' value after)
    (bad : ∀ failure after, failed failure after → failed' failure after) :
    action.Yields state ok' failed' := by
  unfold Yields at *
  split
  · next same =>
    rw [same] at h
    exact good _ _ h
  · next same =>
    rw [same] at h
    exact bad _ _ h

theorem and {ok' : α → σ → Prop} {failed' : Failure → σ → Prop}
    (h : action.Yields state ok failed) (h' : action.Yields state ok' failed') :
    action.Yields state (fun value after => ok value after ∧ ok' value after)
      (fun failure after => failed failure after ∧ failed' failure after) := by
  unfold Yields at *
  split
  · next same =>
    rw [same] at h h'
    exact ⟨h, h'⟩
  · next same =>
    rw [same] at h h'
    exact ⟨h, h'⟩

theorem ran (h : action.Yields state ok failed) :
    action.Yields state
      (fun value after => action.runOn state = (.ok value, after) ∧ ok value after) failed := by
  unfold Yields at *
  split
  · next same =>
    rw [same] at h
    exact ⟨same, h⟩
  · next same =>
    rw [same] at h
    exact h

theorem of_ok {value : α} {after : σ} (ended : action.runOn state = (.ok value, after))
    (h : action.Yields state ok failed) : ok value after := by
  unfold Yields at h
  rwa [ended] at h

theorem of_error {failure : Failure} {after : σ}
    (ended : action.runOn state = (.error failure, after)) (h : action.Yields state ok failed) :
    failed failure after := by
  unfold Yields at h
  rwa [ended] at h

theorem after_iff {P : σ → Prop} :
    action.Yields state (fun _ => P) (fun _ => P) ↔ P (action.runOn state).2 := by
  unfold Yields
  cases action.runOn state with
  | mk outcome after => cases outcome <;> exact Iff.rfl

theorem of_after {P : σ → Prop} (h : P (action.runOn state).2) :
    action.Yields state (fun _ => P) fun _ _ => True :=
  (after_iff.mpr h).mono (fun _ _ => id) fun _ _ _ => trivial

theorem pure {value : α} (h : ok value state) :
    (Pure.pure value : Action σ α).Yields state ok failed :=
  h

theorem throw {failure : Failure} (h : failed failure state) :
    (MonadExcept.throw failure : Action σ α).Yields state ok failed :=
  h

theorem bind {next : α → Action σ β} {mid : α → σ → Prop} {bad : Failure → σ → Prop}
    {last : β → σ → Prop} (h : action.Yields state mid bad)
    (rest : ∀ value after, mid value after → (next value).Yields after last failed)
    (fails : ∀ failure after, bad failure after → failed failure after) :
    (action >>= next).Yields state last failed := by
  unfold Yields at h ⊢
  rw [runOn_bind]
  cases outcome : action.runOn state with
  | mk result after =>
    rw [outcome] at h
    cases result with
    | ok value => exact rest value after h
    | error failure => exact fails failure after h

theorem get {next : σ → Action σ β} {last : β → σ → Prop}
    (rest : (next state).Yields state last failed) :
    (MonadState.get >>= next).Yields state last failed :=
  rest

theorem set {after : σ} {next : PUnit → Action σ β} {last : β → σ → Prop}
    (rest : (next ⟨⟩).Yields after last failed) :
    (MonadStateOf.set after >>= next).Yields state last failed :=
  rest

theorem modify {change : σ → σ} {next : PUnit → Action σ β} {last : β → σ → Prop}
    (rest : (next ⟨⟩).Yields (change state) last failed) :
    (modify change >>= next).Yields state last failed :=
  rest

theorem modified {change : σ → σ} {ok : PUnit → σ → Prop} (h : ok ⟨⟩ (change state)) :
    (MonadState.modifyGet fun current => (PUnit.unit, change current) :
      Action σ PUnit).Yields state ok failed :=
  h

theorem lift {change : StateM σ α} (h : ok (change state).1 (change state).2) :
    (liftM change : Action σ α).Yields state ok failed :=
  h

theorem within {part : σ → τ} {replace : σ → τ → σ} {inner : Action τ α}
    {good : α → τ → Prop} {bad : Failure → τ → Prop} (h : inner.Yields (part state) good bad) :
    (Action.within part replace inner).Yields state
      (fun value after => ∃ changed, good value changed ∧ after = replace state changed)
      (fun failure after => ∃ changed, bad failure changed ∧ after = replace state changed) := by
  unfold Yields at h ⊢
  rw [runOn_within]
  cases outcome : inner.runOn (part state) with
  | mk result after =>
    rw [outcome] at h
    cases result with
    | ok value => exact ⟨after, h, rfl⟩
    | error failure => exact ⟨after, h, rfl⟩

/-- What is done afterwards is done in both cases; if it fails, its failure counts. -/
theorem followedBy {last : Action σ Unit} {good : α → σ → Prop} {bad : Failure → σ → Prop}
    (h : action.Yields state good bad)
    (ends : ∀ value after, good value after →
      last.Yields after (fun _ final => ok value final) failed)
    (fails : ∀ failure after, bad failure after →
      last.Yields after (fun _ final => failed failure final) failed) :
    (action.followedBy last).Yields state ok failed := by
  unfold Yields at h
  cases ended : action.runOn state with
  | mk result after =>
    rw [ended] at h
    cases result with
    | ok value =>
      rw [Yields, runOn_followedBy_ok ended]
      exact (ends value after h).bind (fun _ _ => Yields.pure) fun _ _ => id
    | error failure =>
      rw [Yields, runOn_followedBy_error ended]
      exact (fails failure after h).bind (fun _ _ => Yields.throw) fun _ _ => id

end Yields

/-! ### Relations between before and after -/

/-- An action leads from each state to one that is related to it by `R`, if it ends well, and by
`lost` if it fails; there the failure is known too. -/
def Leads (R : σ → σ → Prop) (lost : Failure → σ → σ → Prop) (action : Action σ α) : Prop :=
  ∀ state, action.Yields state (fun _ after => R state after)
    fun failure after => lost failure state after

/-- Relations that go on from action to action: what a failure leaves behind is related as well,
and what is known of the failure stays known, whatever was done before and is done behind it. -/
structure Traces (R : σ → σ → Prop) (lost : Failure → σ → σ → Prop) : Prop where
  refl : ∀ state, R state state
  trans : ∀ {a b c}, R a b → R b c → R a c
  behind : ∀ {failure a b}, lost failure a b → R a b
  carry : ∀ {failure a b c}, R a b → lost failure b c → lost failure a c
  settle : ∀ {failure a b c}, lost failure a b → R b c → lost failure a c

namespace Traces

variable {R : σ → σ → Prop} {lost : Failure → σ → σ → Prop} {action : Action σ α}

theorem pure (h : Traces R lost) (value : α) : Leads R lost (Pure.pure value : Action σ α) :=
  fun state => h.refl state

theorem bind (h : Traces R lost) {next : α → Action σ β} (first : Leads R lost action)
    (rest : ∀ value, Leads R lost (next value)) : Leads R lost (action >>= next) := by
  intro state
  refine (first state).bind (fun value mid related => ?_) fun _ _ failed => failed
  exact (rest value mid).mono (fun _ _ => h.trans related) fun _ _ => h.carry related

theorem followedBy (h : Traces R lost) {last : Action σ Unit} (first : Leads R lost action)
    (ends : Leads R lost last) : Leads R lost (action.followedBy last) := by
  intro state
  refine (first state).followedBy (fun _ mid related => ?_) fun _ mid failed => ?_
  · exact (ends mid).mono (fun _ _ => h.trans related) fun _ _ => h.carry related
  · exact (ends mid).mono (fun _ _ => h.settle failed) fun _ _ => h.carry (h.behind failed)

theorem mapM (h : Traces R lost) {ι : Type} {step : ι → Action σ α}
    (each : ∀ item, Leads R lost (step item)) :
    ∀ items : List ι, Leads R lost (items.mapM step)
  | [] => h.pure []
  | item :: rest => by
    rw [List.mapM_cons]
    exact h.bind (each item) fun first => h.bind (mapM h each rest) fun others =>
      h.pure (first :: others)

end Traces

namespace Leads

variable {R : σ → σ → Prop} {lost : Failure → σ → σ → Prop} {action : Action σ α}

theorem get {next : σ → Action σ β} (rest : ∀ state, Leads R lost (next state)) :
    Leads R lost (MonadState.get >>= next) :=
  fun state => rest state state

theorem modify {change : σ → σ} (h : ∀ state, R state (change state)) :
    Leads R lost (MonadState.modifyGet fun state => (PUnit.unit, change state) : Action σ PUnit) :=
  h

theorem within {S : τ → τ → Prop} {gone : Failure → τ → τ → Prop} {part : σ → τ}
    {replace : σ → τ → σ} {inner : Action τ α} (h : Leads S gone inner)
    (whole : ∀ state changed, S (part state) changed → R state (replace state changed))
    (fails : ∀ failure state changed, gone failure (part state) changed →
      lost failure state (replace state changed)) :
    Leads R lost (Action.within part replace inner) := by
  intro state
  refine (Yields.within (h (part state))).mono ?_ ?_
  · rintro _ _ ⟨changed, related, rfl⟩
    exact whole state changed related
  · rintro failure _ ⟨changed, failed, rfl⟩
    exact fails failure state changed failed

end Leads

/-- Whether it ends well or fails, an action leads from each state to one that is related
to it. -/
abbrev Keeps (R : σ → σ → Prop) (action : Action σ α) : Prop :=
  Leads R (fun _ => R) action

namespace Keeps

variable {R : σ → σ → Prop} {action : Action σ α}

theorem traces [Std.Refl R] [IsTrans σ R] : Traces R fun _ => R where
  refl := Std.Refl.refl
  trans := IsTrans.trans _ _ _
  behind := id
  carry := IsTrans.trans _ _ _
  settle := IsTrans.trans _ _ _

theorem pure [Std.Refl R] (value : α) : Keeps R (Pure.pure value : Action σ α) :=
  fun state => Std.Refl.refl state

theorem throw [Std.Refl R] (failure : Failure) :
    Keeps R (MonadExcept.throw failure : Action σ α) :=
  fun state => Std.Refl.refl state

theorem bind [Std.Refl R] [IsTrans σ R] {next : α → Action σ β} (h : Keeps R action)
    (rest : ∀ value, Keeps R (next value)) : Keeps R (action >>= next) :=
  traces.bind h rest

theorem after_iff : Keeps R action ↔ ∀ state, R state (action.runOn state).2 :=
  forall_congr' fun _ => Yields.after_iff

theorem get {next : σ → Action σ β} (rest : ∀ state, Keeps R (next state)) :
    Keeps R (MonadState.get >>= next) :=
  Leads.get rest

theorem modify {change : σ → σ} (h : ∀ state, R state (change state)) :
    Keeps R (MonadState.modifyGet fun state => (PUnit.unit, change state) : Action σ PUnit) :=
  h

theorem lift {change : StateM σ α} (h : ∀ state, R state (change state).2) :
    Keeps R (liftM change : Action σ α) :=
  h

theorem within {S : τ → τ → Prop} {part : σ → τ} {replace : σ → τ → σ} {inner : Action τ α}
    (h : Keeps S inner) (whole : ∀ state changed, S (part state) changed →
      R state (replace state changed)) : Keeps R (Action.within part replace inner) :=
  Leads.within h whole fun _ => whole

theorem mapM [Std.Refl R] [IsTrans σ R] {ι : Type} {step : ι → Action σ α}
    (h : ∀ item, Keeps R (step item)) (items : List ι) : Keeps R (items.mapM step) :=
  traces.mapM h items

end Keeps

/-! ### Failures of the device -/

/-- Nothing but the device can make an action fail. -/
def OnlyDevice (action : Action σ α) : Prop :=
  ∀ state, action.Yields state (fun _ _ => True) fun failure _ => failure.OfDevice

namespace OnlyDevice

variable {action : Action σ α}

theorem pure (value : α) : OnlyDevice (Pure.pure value : Action σ α) :=
  fun _ => trivial

theorem bind {next : α → Action σ β} (h : OnlyDevice action)
    (rest : ∀ value, OnlyDevice (next value)) : OnlyDevice (action >>= next) :=
  fun state => (h state).bind (fun value after _ => rest value after) fun _ _ failed => failed

theorem modify (change : σ → σ) :
    OnlyDevice (MonadState.modifyGet fun state => (PUnit.unit, change state) : Action σ PUnit) :=
  fun _ => trivial

theorem within {part : σ → τ} {replace : σ → τ → σ} {inner : Action τ α} (h : OnlyDevice inner) :
    OnlyDevice (Action.within part replace inner) :=
  fun state => (Yields.within (h (part state))).mono (fun _ _ _ => trivial)
    fun _ _ ⟨_, failed, _⟩ => failed

end OnlyDevice
end Action
end Collage
