import Collage.Proofs.Frame.Keys
import Collage.Proofs.Tree.Ownership

/-!
# When buttons go down and up

In the frames of a run the inputs of many keys are evaluated, some of them several times and some
in a few frames only.  Of a button, only the first evaluation in a frame looks at the devices: what
it sees is a `ButtonLook`, and the looks at a button in a run (`looks`) say all that there is to
know of it.  `ButtonLook.state` is the state at a look after others, without reference to what is
remembered from frame to frame.

* `edges_exact`: as long as the numbers of the frames increase, each evaluation in a frame gives
  the state at the look of that frame, and nothing is remembered but the last of these states.
* `alternates_changes`: a button goes down and up by turns, and down first.
-/

namespace Collage

/-- What is seen of a button: whether it is down, its pressure, and when. -/
structure ButtonLook where
  held : Bool
  value : Float
  now : Float

namespace ButtonLook

/-- Whether the button was down at the last look; before the first, it is up. -/
def heldLast (past : List ButtonLook) : Bool :=
  past.getLast?.any (·.held)

/-- Whether the button has gone down since the looks before. -/
def goesDown (past : List ButtonLook) (look : ButtonLook) : Bool :=
  look.held && !heldLast past

/-- Whether the button has gone up since the looks before. -/
def goesUp (past : List ButtonLook) (look : ButtonLook) : Bool :=
  !look.held && heldLast past

/-- Each of several looks, with those before it. -/
def withPast (looks : List ButtonLook) : List (List ButtonLook × ButtonLook) :=
  looks.mapIdx fun place look => (looks.take place, look)

/-- The time of the last look at which something happens, zero if there is none. -/
def lastTime (happens : List ButtonLook → ButtonLook → Bool) (looks : List ButtonLook) : Float :=
  (((withPast looks).filter fun moment => happens moment.1 moment.2).getLast?.map
    (·.2.now)).getD 0

/-- The state of a button at a look, after others. -/
def state (past : List ButtonLook) (look : ButtonLook) : ButtonState where
  held := look.held
  triggered := goesDown past look
  released := goesUp past look
  value := look.value
  triggeredAt := lastTime goesDown (past ++ [look])
  releasedAt := lastTime goesUp (past ++ [look])

/-- The states at all looks. -/
def states (looks : List ButtonLook) : List ButtonState :=
  (withPast looks).map fun moment => state moment.1 moment.2

/-- How the button changes: whether it goes down, for each look at which it goes down or up. -/
def changes (looks : List ButtonLook) : List Bool :=
  ((states looks).filter fun state => state.triggered || state.released).map (·.triggered)

/-! ### One look more -/

variable (past : List ButtonLook) (look : ButtonLook)

theorem heldLast_concat : heldLast (past ++ [look]) = look.held := by
  rw [heldLast, List.getLast?_concat, Option.any_some]

theorem withPast_concat : withPast (past ++ [look]) = withPast past ++ [(past, look)] := by
  rw [withPast, List.mapIdx_append, withPast]
  refine congr (congrArg _ ?_) ?_
  · refine List.ext_getElem? fun place => ?_
    rw [List.getElem?_mapIdx, List.getElem?_mapIdx]
    cases there : past[place]? with
    | none => rfl
    | some seen =>
      obtain ⟨bound, -⟩ := List.getElem?_eq_some_iff.mp there
      rw [Option.map_some, Option.map_some, List.take_append_of_le_length bound.le]
  · simp

theorem lastTime_concat (happens : List ButtonLook → ButtonLook → Bool) :
    lastTime happens (past ++ [look]) =
      if happens past look then look.now else lastTime happens past := by
  cases now : happens past look <;> simp [lastTime, withPast_concat, now]

theorem states_concat : states (past ++ [look]) = states past ++ [state past look] := by
  rw [states, withPast_concat, List.map_append]
  rfl

theorem getLast?_states_concat : (states (past ++ [look])).getLast? = some (state past look) := by
  rw [states_concat, List.getLast?_concat]

theorem state_eq : state past look =
    { held := look.held
      triggered := goesDown past look
      released := goesUp past look
      value := look.value
      triggeredAt := if goesDown past look then look.now else lastTime goesDown past
      releasedAt := if goesUp past look then look.now else lastTime goesUp past } := by
  rw [state, lastTime_concat, lastTime_concat]

/-- **The state that follows** the last one is the state at the look. -/
theorem next_getLast_states : ((states past).getLast?.getD {}).next look.held look.value look.now =
    state past look := by
  rcases past.eq_nil_or_concat' with rfl | ⟨before, last, rfl⟩
  · rw [state_eq]
    rfl
  · rw [getLast?_states_concat, state_eq (before ++ [last])]
    simp only [ButtonState.next, Option.getD_some, state, goesDown, goesUp, heldLast_concat]
    rfl

/-! ### Down and up -/

/-- A button does not go down and up at once. -/
theorem not_triggered_and_released :
    ¬ ((state past look).triggered = true ∧ (state past look).released = true) := by
  rintro ⟨down, up⟩
  change (look.held && !heldLast past) = true at down
  change (!look.held && heldLast past) = true at up
  cases held : look.held <;> simp [held] at down up

theorem changes_concat : changes (past ++ [look]) =
    changes past ++ if look.held = heldLast past then [] else [look.held] := by
  rw [changes, states_concat, List.filter_append, List.map_append, ← changes]
  congr 1
  cases held : look.held <;> cases before : heldLast past <;>
    simp [state, goesDown, goesUp, held, before]

/-- Changes by turns, down first, after which the button is down or not. -/
structure Alternates (changes : List Bool) (held : Bool) : Prop where
  turns : ∀ (place : Nat) (down : Bool), changes[place]? = some down → down = decide (place % 2 = 0)
  last : held = decide (changes.length % 2 = 1)

/-- **A button goes down and up by turns**, and down first. -/
theorem alternates_changes (looks : List ButtonLook) :
    Alternates (changes looks) (heldLast looks) := by
  induction looks using List.reverseRecOn with
  | nil => exact ⟨fun _ _ none => (Option.not_mem_none _ none).elim, rfl⟩
  | append_singleton past look ih =>
    rw [changes_concat, heldLast_concat]
    split
    · next same => rwa [List.append_nil, same]
    · next changed =>
      have parity : look.held = decide ((changes past).length % 2 = 0) := by
        rw [ih.last] at changed
        cases held : look.held <;> simp [held] at changed ⊢ <;> omega
      constructor
      · intro place down there
        rcases Nat.lt_or_ge place (changes past).length with before | behind
        · exact ih.turns place down (by rwa [List.getElem?_append_left before] at there)
        · rw [List.getElem?_append_right behind] at there
          obtain ⟨only, rfl⟩ := List.getElem?_eq_some_iff.mp there
          have here : place = (changes past).length := by
            rw [List.length_singleton] at only
            omega
          simpa [here] using parity
      · rw [parity, List.length_append, List.length_singleton]
        exact decide_eq_decide.mpr (by omega)

end ButtonLook

/-! ### What a reading sees -/

namespace InputReading

/-- What a reading sees of a button, if it reads one. -/
def look? : InputReading → Option ButtonLook
  | .button bindings devices now =>
    some ⟨(devices.readButton bindings).1, (devices.readButton bindings).2, now⟩
  | .follow ⟨_, _, .button bindings⟩ context =>
    some ⟨(context.devices.readButton bindings).1, (context.devices.readButton bindings).2,
      context.time⟩
  | _ => none

/-- What a reading of a button gives in a state of the button. -/
def shown (state : ButtonState) : InputReading → ButtonState ⊕ Float
  | .follow curve _ => .inr (curve.spread state.pressure)
  | _ => .inl state

variable {reading : InputReading} {look : ButtonLook} {key other : String} {state : InputState}

theorem exists_of_look (key : String) (sees : reading.look? = some look) : ∃ bindings devices,
    devices.readButton bindings = (look.held, look.value) ∧
    reading.evaluate key =
      reading.shown <$> InputState.evaluateButton key bindings devices look.now := by
  cases reading with
  | button bindings devices now =>
    cases sees
    exact ⟨bindings, devices, rfl, rfl⟩
  | axis => cases sees
  | follow curve context =>
    obtain ⟨low, high, input⟩ := curve
    cases input with
    | button bindings =>
      cases sees
      exact ⟨bindings, context.devices, rfl, rfl⟩
    | _ => cases sees

theorem buttons_evaluate (aside : other = key → reading.look? = none) :
    ((reading.evaluate other).run state).2.buttons.get? key = state.buttons.get? key := by
  have unread : InputKey.button key ∉ reading.inputs other := by
    intro inside
    cases reading with
    | button bindings devices now =>
      cases List.mem_singleton.mp inside
      cases aside rfl
    | axis => cases List.mem_singleton.mp inside
    | follow curve context =>
      obtain ⟨low, high, input⟩ := curve
      cases input with
      | button bindings =>
        cases List.mem_singleton.mp inside
        cases aside rfl
      | axis => cases List.mem_singleton.mp inside
      | _ => cases inside
  have same := (reading.reads other).others state _ unread
  refine Option.map_injective (fun entry entry' same => ?_) same
  obtain ⟨frame, button⟩ := entry
  obtain ⟨frame', button'⟩ := entry'
  cases same
  rfl

end InputReading

/-- A frame of a run: its number, and what is evaluated in it under which key, one after another. -/
structure InputFrame where
  number : Nat
  readings : List (String × InputReading)

/-- What the first reading that sees the button of a key sees of it. -/
def firstLook? (key : String) (readings : List (String × InputReading)) : Option ButtonLook :=
  readings.findSome? fun entry => if entry.1 = key then entry.2.look? else none

/-- The looks at the button of a key in the frames of a run, one for each frame in which there is
one. -/
def looks (key : String) (frames : List InputFrame) : List ButtonLook :=
  frames.filterMap fun frame => firstLook? key frame.readings

/-- Whether all readings that see the button of a key give what a state shows. -/
def Agrees (key : String) (state : ButtonState) (readings : List (String × InputReading))
    (answers : List (ButtonState ⊕ Float)) : Prop :=
  List.Forall₂ (fun entry answer =>
    entry.1 = key → entry.2.look?.isSome → answer = entry.2.shown state) readings answers

/-! ### Runs -/

namespace InputState

open ButtonLook (states)

/-- Evaluates one after another. -/
def readAll (readings : List (String × InputReading)) :
    StateM InputState (List (ButtonState ⊕ Float)) :=
  readings.mapM fun entry => entry.2.evaluate entry.1

/-- Begins a frame and evaluates what is evaluated in it. -/
def runFrame (frame : InputFrame) : StateM InputState (List (ButtonState ⊕ Float)) := fun state =>
  readAll frame.readings { state with frame := frame.number }

/-- Runs frames one after another. -/
def runFrames (frames : List InputFrame) :
    StateM InputState (List (List (ButtonState ⊕ Float))) :=
  frames.mapM runFrame

variable {key : String} {state : InputState}

theorem readAll_cons (entry : String × InputReading) (rest : List (String × InputReading)) :
    readAll (entry :: rest) state =
      let first := entry.2.evaluate entry.1 state
      let others := readAll rest first.2
      (first.1 :: others.1, others.2) := by
  rw [readAll, List.mapM_cons]
  rfl

/-- A button that was not evaluated in this frame is looked at. -/
theorem evaluateButton_stale (stale : ∀ entry ∈ state.buttons.get? key, entry.1 ≠ state.frame)
    (bindings : ButtonBindings) (devices : InputDevices) (now : Float) :
    evaluateButton key bindings devices now state =
      let button := ((state.button? key).getD {}).next (devices.readButton bindings).1
        (devices.readButton bindings).2 now
      (button, { state with buttons := state.buttons.set key (state.frame, button) }) := by
  have none : (state.buttons.get? key).filter (·.1 = state.frame) = none := by
    refine Option.filter_eq_none_iff.mpr fun entry inside => ?_
    simpa using stale entry inside
  unfold evaluateButton
  rw [none]

theorem evaluate_fresh {reading : InputReading} {look : ButtonLook} {button : ButtonState}
    (found : state.buttons.get? key = some (state.frame, button))
    (sees : reading.look? = some look) :
    reading.evaluate key state = (reading.shown button, state) := by
  obtain ⟨bindings, devices, -, evaluates⟩ := InputReading.exists_of_look key sees
  rw [evaluates]
  change (reading.shown (evaluateButton key bindings devices look.now state).1,
    (evaluateButton key bindings devices look.now state).2) = _
  rw [evaluateButton_again found]

theorem evaluate_stale {reading : InputReading} {look : ButtonLook}
    (stale : ∀ entry ∈ state.buttons.get? key, entry.1 ≠ state.frame)
    (sees : reading.look? = some look) : reading.evaluate key state =
      let button := ((state.button? key).getD {}).next look.held look.value look.now
      (reading.shown button,
        { state with buttons := state.buttons.set key (state.frame, button) }) := by
  obtain ⟨bindings, devices, shows, evaluates⟩ := InputReading.exists_of_look key sees
  rw [evaluates]
  change (reading.shown (evaluateButton key bindings devices look.now state).1,
    (evaluateButton key bindings devices look.now state).2) = _
  rw [evaluateButton_stale stale, shows]

/-- **What has been evaluated in a frame** is given again by all readings in it. -/
theorem readAll_fresh {button : ButtonState} : ∀ (readings : List (String × InputReading))
    (state : InputState), state.buttons.get? key = some (state.frame, button) →
    Agrees key button readings (readAll readings state).1 ∧
      (readAll readings state).2.buttons.get? key = some (state.frame, button)
  | [], _, found => ⟨.nil, found⟩
  | (other, reading) :: rest, state, found => by
    rw [readAll_cons]
    have frame : (reading.evaluate other state).2.frame = state.frame :=
      (reading.reads other).frame state
    by_cases own : other = key ∧ reading.look?.isSome
    · obtain ⟨same, sees⟩ := own
      obtain ⟨look, sees⟩ := Option.isSome_iff_exists.mp sees
      rw [same, evaluate_fresh found sees]
      obtain ⟨agree, there⟩ := readAll_fresh rest _ found
      exact ⟨.cons (fun _ _ => rfl) agree, there⟩
    · have aside : other = key → reading.look? = none := fun same =>
        Option.not_isSome_iff_eq_none.mp fun sees => own ⟨same, sees⟩
      have kept : (reading.evaluate other state).2.buttons.get? key =
          some ((reading.evaluate other state).2.frame, button) := by
        rw [frame]
        exact (InputReading.buttons_evaluate aside).trans found
      obtain ⟨agree, there⟩ := readAll_fresh rest _ kept
      rw [frame] at there
      exact ⟨.cons (fun same sees => absurd ⟨same, sees⟩ own) agree, there⟩

/-- **What a frame makes of a button**: nothing when no reading sees it; otherwise the first one
that does decides, and all of them agree. -/
theorem readAll_stale (key : String) : ∀ (readings : List (String × InputReading))
    (state : InputState),
    (∀ entry ∈ state.buttons.get? key, entry.1 ≠ state.frame) →
    match firstLook? key readings with
    | none => (readAll readings state).2.buttons.get? key = state.buttons.get? key
    | some look =>
      let button := ((state.button? key).getD {}).next look.held look.value look.now
      Agrees key button readings (readAll readings state).1 ∧
        (readAll readings state).2.buttons.get? key = some (state.frame, button)
  | [], _, _ => rfl
  | (other, reading) :: rest, state, stale => by
    rw [readAll_cons]
    have frame : (reading.evaluate other state).2.frame = state.frame :=
      (reading.reads other).frame state
    by_cases own : other = key ∧ reading.look?.isSome
    · obtain ⟨same, sees⟩ := own
      obtain ⟨look, sees⟩ := Option.isSome_iff_exists.mp sees
      have first : firstLook? key ((other, reading) :: rest) = some look := by
        rw [firstLook?, List.findSome?_cons, if_pos same, sees]
      rw [first, same, evaluate_stale stale sees]
      dsimp only
      generalize ((state.button? key).getD {}).next look.held look.value look.now = button
      obtain ⟨agree, there⟩ := readAll_fresh rest
        { state with buttons := state.buttons.set key (state.frame, button) }
        (Table.get?_set_self _ _ _)
      exact ⟨.cons (fun _ _ => rfl) agree, there⟩
    · have aside : other = key → reading.look? = none := fun same =>
        Option.not_isSome_iff_eq_none.mp fun sees => own ⟨same, sees⟩
      have later : firstLook? key ((other, reading) :: rest) = firstLook? key rest := by
        have skips : (if other = key then reading.look? else none) = none := by
          split
          · next same => exact aside same
          · rfl
        rw [firstLook?, List.findSome?_cons, skips]
        rfl
      have kept : (reading.evaluate other state).2.buttons.get? key = state.buttons.get? key :=
        InputReading.buttons_evaluate aside
      have others := readAll_stale key rest (reading.evaluate other state).2 (by
        rw [kept, frame]
        exact stale)
      rw [later]
      cases sees : firstLook? key rest with
      | none =>
        rw [sees] at others
        exact others.trans kept
      | some look =>
        rw [sees] at others
        dsimp only at others ⊢
        rw [button?, kept, frame] at others
        exact ⟨.cons (fun same sees => absurd ⟨same, sees⟩ own) others.1, others.2⟩

/-! ### Frames -/

/-- What is remembered of a button is its state at the last look, for a frame that there was. -/
structure Recalls (key : String) (seen : List InputFrame) (state : InputState) : Prop where
  button : state.button? key = (states (looks key seen)).getLast?
  earlier : ∀ entry ∈ state.buttons.get? key, ∃ frame ∈ seen, entry.1 = frame.number

/-- **A frame more**, whose number is greater. -/
theorem Recalls.runFrame {seen : List InputFrame} (recalls : Recalls key seen state)
    {frame : InputFrame} (greater : ∀ before ∈ seen, before.number < frame.number) :
    (∀ look ∈ firstLook? key frame.readings,
      Agrees key (ButtonLook.state (looks key seen) look) frame.readings
        (runFrame frame state).1) ∧
    Recalls key (seen ++ [frame]) (runFrame frame state).2 := by
  have stale : ∀ entry ∈ state.buttons.get? key, entry.1 ≠ frame.number := by
    intro entry inside same
    obtain ⟨before, there, number⟩ := recalls.earlier entry inside
    have := greater before there
    omega
  have read := readAll_stale key frame.readings { state with frame := frame.number } stale
  have known : (InputState.button? { state with frame := frame.number } key) =
      (states (looks key seen)).getLast? := recalls.button
  have more : looks key (seen ++ [frame]) =
      looks key seen ++ (firstLook? key frame.readings).toList := by
    rw [looks, List.filterMap_append, ← looks]
    cases sees : firstLook? key frame.readings <;> simp [sees]
  cases sees : firstLook? key frame.readings with
  | none =>
    rw [sees] at read more
    refine ⟨fun _ inside => absurd inside (Option.not_mem_none _), ?_, ?_⟩
    · rw [more, Option.toList_none, List.append_nil, ← recalls.button]
      exact congrArg (Option.map (·.2)) read
    · intro entry inside
      obtain ⟨before, there, number⟩ := recalls.earlier entry (read ▸ inside)
      exact ⟨before, List.mem_append_left _ there, number⟩
  | some look =>
    rw [sees] at read more
    dsimp only at read
    rw [known, ButtonLook.next_getLast_states] at read
    obtain ⟨agree, there⟩ := read
    have there : (InputState.runFrame frame state).2.buttons.get? key =
        some (frame.number, ButtonLook.state (looks key seen) look) := there
    refine ⟨?_, ?_, ?_⟩
    · rintro _ ⟨⟩
      exact agree
    · rw [more, Option.toList_some, ButtonLook.getLast?_states_concat, button?, there]
      rfl
    · intro entry inside
      rw [there] at inside
      cases inside
      exact ⟨frame, List.mem_append_right _ List.mem_cons_self, rfl⟩

/-- In every frame in which a button is seen, all that see it are given its state at the first of
these looks, after those of the frames before. -/
def Answered (key : String) (frames : List InputFrame)
    (results : List (List (ButtonState ⊕ Float))) : Prop :=
  results.length = frames.length ∧
  ∀ place frame, frames[place]? = some frame → ∃ answers, results[place]? = some answers ∧
    ∀ look ∈ firstLook? key frame.readings,
      Agrees key (ButtonLook.state (looks key (frames.take place)) look) frame.readings answers

theorem Answered.concat {seen : List InputFrame} {results : List (List (ButtonState ⊕ Float))}
    (answered : Answered key seen results) {frame : InputFrame}
    {answers : List (ButtonState ⊕ Float)}
    (agrees : ∀ look ∈ firstLook? key frame.readings,
      Agrees key (ButtonLook.state (looks key seen) look) frame.readings answers) :
    Answered key (seen ++ [frame]) (results ++ [answers]) := by
  obtain ⟨length, before⟩ := answered
  refine ⟨by rw [List.length_append, List.length_append, length]; rfl, ?_⟩
  intro place other there
  rcases Nat.lt_trichotomy place seen.length with less | rfl | more
  · rw [List.getElem?_append_left less] at there
    obtain ⟨found, given, agree⟩ := before place other there
    refine ⟨found, by rwa [List.getElem?_append_left (length ▸ less)], ?_⟩
    rwa [List.take_append_of_le_length less.le]
  · rw [List.getElem?_concat_length] at there
    cases there
    refine ⟨answers, by rw [← length, List.getElem?_concat_length], ?_⟩
    rwa [List.take_left]
  · have behind := (List.getElem?_eq_some_iff.mp there).1
    rw [List.length_append, List.length_singleton] at behind
    omega

/-- **A run** whose frames have increasing numbers. -/
theorem runFrames_recalls (key : String) {frames : List InputFrame}
    (increasing : frames.Pairwise fun one other => one.number < other.number) :
    Answered key frames (runFrames frames {}).1 ∧ Recalls key frames (runFrames frames {}).2 := by
  have ran := mapM_invariant InputState.runFrame
    (fun seen results state => (seen.Pairwise fun one other => one.number < other.number) →
      Answered key seen results ∧ Recalls key seen state) frames [] [] {}
    (fun frame _ seen results state known increasing => by
      obtain ⟨increasing, -, greater⟩ := List.pairwise_append.mp increasing
      obtain ⟨answered, recalls⟩ := known increasing
      obtain ⟨agrees, recalls⟩ := recalls.runFrame fun before inside =>
        greater before inside frame List.mem_cons_self
      exact ⟨answered.concat agrees, recalls⟩)
    (fun _ => ⟨⟨rfl, fun _ _ none => (Option.not_mem_none _ none).elim⟩, rfl,
      fun _ none => (Option.not_mem_none _ none).elim⟩)
  exact ran increasing

/-- **Buttons go down and up when they are seen to.**  In a run whose frames have increasing
numbers, all evaluations of a button in one frame give the state at the first look at it there,
which depends on the looks of the frames before only; the last one is remembered.  The button goes
down and up by turns, down first and never both at once, and evaluating it changes nothing that is
remembered of anything else. -/
theorem edges_exact {frames : List InputFrame}
    (increasing : frames.Pairwise fun one other => one.number < other.number) (key : String) :
    Answered key frames (runFrames frames {}).1 ∧
    (runFrames frames {}).2.button? key = (states (looks key frames)).getLast? ∧
    ButtonLook.Alternates (ButtonLook.changes (looks key frames))
      (ButtonLook.heldLast (looks key frames)) ∧
    (∀ state ∈ states (looks key frames), ¬ (state.triggered = true ∧ state.released = true)) ∧
    ∀ (state : InputState) (bindings : ButtonBindings) (devices : InputDevices) (now : Float),
      ∀ other ≠ InputKey.button key,
        (evaluateButton key bindings devices now state).2.lookup other = state.lookup other := by
  obtain ⟨answered, recalls⟩ := runFrames_recalls key increasing
  refine ⟨answered, recalls.button, ButtonLook.alternates_changes _, ?_, ?_⟩
  · intro state inside
    obtain ⟨moment, -, rfl⟩ := List.mem_map.mp inside
    exact ButtonLook.not_triggered_and_released _ _
  · intro state bindings devices now other different
    exact (reads_evaluateButton key bindings devices now).others state other
      (fun same => different (List.mem_singleton.mp same))

/-- A button that is pressed in the very first frame, where a later evaluation would see it up, is
not evaluated in the next one, and is up in the last. -/
theorem edges_exact_tap :
    let space : ButtonBindings := [("keyboard", "Space")]
    let down := InputReading.button space (InputDevices.press {} "keyboard" "Space")
    let up := InputReading.button space {}
    let frames : List InputFrame := [⟨0, [("jump", down 0.5), ("dash", up 0.5), ("jump", up 0.5)]⟩,
      ⟨1, [("dash", up 1)]⟩, ⟨5, [("jump", up 1.5)]⟩]
    (frames.Pairwise fun one other => one.number < other.number) ∧
    Answered "jump" frames (runFrames frames {}).1 ∧
    ((states (looks "jump" frames)).map fun state =>
        (state.triggered, state.triggeredAt, state.released, state.releasedAt)) =
      [(true, 0.5, false, 0), (false, 0.5, true, 1.5)] := by
  intro space down up frames
  have increasing : frames.Pairwise fun one other => one.number < other.number := by decide
  exact ⟨increasing, (edges_exact increasing "jump").1, by decide +kernel⟩

end InputState
end Collage
