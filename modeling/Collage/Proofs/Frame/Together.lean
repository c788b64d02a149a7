import Collage.Proofs.Frame.Outcome

/-!
# Two actions side by side

`Action.Together` says of two actions, each from a state of its own, that both end well, with
values and states that belong together, or that both fail in the same way.  As for
`Action.Yields` there is a rule for every way of putting actions together, so that two runs of
one program from states that differ are compared step by step.
-/

namespace Collage

namespace Action

variable {σ τ σ' τ' α β γ δ : Type}

/-- What holds of two actions side by side: both end well, or both fail in the same way. -/
def Together (left : Action σ α) (right : Action τ β) (state : σ) (other : τ)
    (ok : α → β → σ → τ → Prop) (failed : σ → τ → Prop) : Prop :=
  match left.runOn state, right.runOn other with
  | (.ok a, after), (.ok b, later) => ok a b after later
  | (.error cause, after), (.error cause', later) => cause = cause' ∧ failed after later
  | _, _ => False

namespace Together

variable {left : Action σ α} {right : Action τ β} {state : σ} {other : τ}
  {ok : α → β → σ → τ → Prop} {failed : σ → τ → Prop}

theorem pure {a : α} {b : β} (h : ok a b state other) :
    Together (Pure.pure a : Action σ α) (Pure.pure b : Action τ β) state other ok failed :=
  h

theorem throw (failure : Failure) (h : failed state other) :
    Together (MonadExcept.throw failure : Action σ α) (MonadExcept.throw failure : Action τ β)
      state other ok failed :=
  ⟨rfl, h⟩

theorem mono {ok' : α → β → σ → τ → Prop} {failed' : σ → τ → Prop}
    (h : Together left right state other ok failed)
    (good : ∀ a b after later, ok a b after later → ok' a b after later)
    (bad : ∀ after later, failed after later → failed' after later) :
    Together left right state other ok' failed' := by
  unfold Together at *
  generalize left.runOn state = first at h ⊢
  generalize right.runOn other = second at h ⊢
  obtain ⟨result, after⟩ := first
  obtain ⟨result', later⟩ := second
  cases result <;> cases result'
  · exact ⟨h.1, bad _ _ h.2⟩
  · exact h
  · exact h
  · exact good _ _ _ _ h

/-- What the left one yields holds besides. -/
theorem and_left {good : α → σ → Prop} {bad : Failure → σ → Prop}
    (h : Together left right state other ok failed) (yields : left.Yields state good bad) :
    Together left right state other (fun a b after later => ok a b after later ∧ good a after)
      fun after later => failed after later ∧ ∃ failure, bad failure after := by
  unfold Together Yields at *
  generalize left.runOn state = first at h yields ⊢
  generalize right.runOn other = second at h ⊢
  obtain ⟨result, after⟩ := first
  obtain ⟨result', later⟩ := second
  cases result <;> cases result'
  · exact ⟨h.1, h.2, _, yields⟩
  · exact h
  · exact h
  · exact ⟨h, yields⟩

/-- **One action after another**: the second ones go on from what belongs together. -/
theorem bind {next : α → Action σ γ} {next' : β → Action τ δ} {mid : α → β → σ → τ → Prop}
    {ok : γ → δ → σ → τ → Prop} (h : Together left right state other mid failed)
    (rest : ∀ a b after later, mid a b after later →
      Together (next a) (next' b) after later ok failed) :
    Together (left >>= next) (right >>= next') state other ok failed := by
  unfold Together at h
  rw [Together, runOn_bind, runOn_bind]
  generalize left.runOn state = first at h ⊢
  generalize right.runOn other = second at h ⊢
  obtain ⟨result, after⟩ := first
  obtain ⟨result', later⟩ := second
  cases result <;> cases result'
  · exact h
  · exact h.elim
  · exact h.elim
  · exact rest _ _ _ _ h

theorem get {next : σ → Action σ γ} {next' : τ → Action τ δ} {ok : γ → δ → σ → τ → Prop}
    (rest : Together (next state) (next' other) state other ok failed) :
    Together (MonadState.get >>= next) (MonadState.get >>= next') state other ok failed :=
  rest

theorem set {after : σ} {later : τ} {next : PUnit → Action σ γ} {next' : PUnit → Action τ δ}
    {ok : γ → δ → σ → τ → Prop} (rest : Together (next ⟨⟩) (next' ⟨⟩) after later ok failed) :
    Together (MonadStateOf.set after >>= next) (MonadStateOf.set later >>= next') state other ok
      failed :=
  rest

theorem modify {change : σ → σ} {change' : τ → τ} {next : PUnit → Action σ γ}
    {next' : PUnit → Action τ δ} {ok : γ → δ → σ → τ → Prop}
    (rest : Together (next ⟨⟩) (next' ⟨⟩) (change state) (change' other) ok failed) :
    Together (modify change >>= next) (modify change' >>= next') state other ok failed :=
  rest

theorem modified {change : σ → σ} {change' : τ → τ} {ok : PUnit → PUnit → σ → τ → Prop}
    (h : ok ⟨⟩ ⟨⟩ (change state) (change' other)) :
    Together (MonadState.modifyGet fun current => (PUnit.unit, change current) : Action σ PUnit)
      (MonadState.modifyGet fun current => (PUnit.unit, change' current) : Action τ PUnit)
      state other ok failed :=
  h

theorem within {part : σ → σ'} {replace : σ → σ' → σ} {part' : τ → τ'} {replace' : τ → τ' → τ}
    {inner : Action σ' α} {inner' : Action τ' β} {good : α → β → σ' → τ' → Prop}
    {bad : σ' → τ' → Prop} (h : Together inner inner' (part state) (part' other) good bad)
    (whole : ∀ a b changed changed', good a b changed changed' →
      ok a b (replace state changed) (replace' other changed'))
    (fails : ∀ changed changed', bad changed changed' →
      failed (replace state changed) (replace' other changed')) :
    Together (Action.within part replace inner) (Action.within part' replace' inner') state other
      ok failed := by
  unfold Together at h
  rw [Together, runOn_within, runOn_within]
  generalize inner.runOn (part state) = first at h ⊢
  generalize inner'.runOn (part' other) = second at h ⊢
  obtain ⟨result, after⟩ := first
  obtain ⟨result', later⟩ := second
  cases result <;> cases result'
  · exact ⟨h.1, fails _ _ h.2⟩
  · exact h
  · exact h
  · exact whole _ _ _ _ h

/-- What is done afterwards is done in both cases. -/
theorem followedBy {last : Action σ Unit} {last' : Action τ Unit} {good : α → β → σ → τ → Prop}
    {bad : σ → τ → Prop} (h : Together left right state other good bad)
    (ends : ∀ a b after later, good a b after later →
      Together last last' after later (fun _ _ final final' => ok a b final final') failed)
    (fails : ∀ after later, bad after later →
      Together last last' after later (fun _ _ final final' => failed final final') failed) :
    Together (left.followedBy last) (right.followedBy last') state other ok failed := by
  unfold Together at h
  cases ended : left.runOn state with
  | mk result after =>
    cases ended' : right.runOn other with
    | mk result' later =>
      rw [ended, ended'] at h
      cases result <;> cases result'
      · obtain ⟨rfl, bad⟩ := h
        rw [Together, runOn_followedBy_error ended, runOn_followedBy_error ended']
        exact (fails after later bad).bind fun _ _ _ _ => Together.throw _
      · exact h.elim
      · exact h.elim
      · rw [Together, runOn_followedBy_ok ended, runOn_followedBy_ok ended']
        exact (ends _ _ after later h).bind fun _ _ _ _ => Together.pure

theorem mapM {ι : Type} {step : ι → Action σ α} {step' : ι → Action τ α} {R : σ → τ → Prop} :
    ∀ {items : List ι}, (∀ item ∈ items, ∀ {state other}, R state other →
      Together (step item) (step' item) state other
        (fun a b after later => a = b ∧ R after later) failed) →
    ∀ {state other}, R state other → Together (items.mapM step) (items.mapM step') state other
      (fun as bs after later => as = bs ∧ R after later) failed
  | [], _, _, _, related => Together.pure ⟨rfl, related⟩
  | item :: rest, h, _, _, related => by
    rw [List.mapM_cons, List.mapM_cons]
    refine (h item List.mem_cons_self related).bind ?_
    rintro first _ after later ⟨rfl, related⟩
    refine (mapM (fun item inside => h item (List.mem_cons_of_mem _ inside)) related).bind ?_
    rintro others _ final final' ⟨rfl, related⟩
    exact Together.pure ⟨rfl, related⟩

/-- Actions that are dealt with one by one: either both end well, or both fail in the same way. -/
theorem of_yields {good : α → σ → Prop} {good' : β → τ → Prop} {bad : Failure → σ → Prop}
    {bad' : Failure → τ → Prop} (h : left.Yields state good bad)
    (h' : right.Yields other good' bad') (both : ∀ a b after later, good a after → good' b later → ok a b after later)
    (fails : ∀ cause cause' after later, bad cause after → bad' cause' later →
      cause = cause' ∧ failed after later)
    (agree : ∀ a cause after later, good a after → ¬ bad' cause later)
    (agree' : ∀ b cause after later, bad cause after → ¬ good' b later) :
    Together left right state other ok failed := by
  unfold Yields at h h'
  unfold Together
  generalize left.runOn state = first at h ⊢
  generalize right.runOn other = second at h' ⊢
  obtain ⟨result, after⟩ := first
  obtain ⟨result', later⟩ := second
  cases result <;> cases result'
  · exact fails _ _ _ _ h h'
  · exact agree' _ _ _ _ h h'
  · exact agree _ _ _ _ h h'
  · exact both _ _ _ _ h h'

theorem of_sure {good : α → σ → Prop} {good' : β → τ → Prop}
    (h : left.Yields state good fun _ _ => False) (h' : right.Yields other good' fun _ _ => False)
    (both : ∀ a b after later, good a after → good' b later → ok a b after later) :
    Together left right state other ok failed :=
  of_yields h h' both (fun _ _ _ _ => False.elim) (fun _ _ _ _ _ => id) fun _ _ _ _ => False.elim

end Together
end Action
end Collage
