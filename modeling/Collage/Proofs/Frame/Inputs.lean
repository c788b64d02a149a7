import Collage.Proofs.Frame.Reference

/-!
# What frames read of the input

What is remembered from frame to frame of the input is remembered by keys (`InputKey`), and each
key is evaluated at most once in a frame (`InputState.Fresh`).  `Reads keys change` is all that
anything else has to know of an evaluation: its value depends on what is remembered of `keys`
only, all of them are fresh afterwards, and neither other keys nor fresh ones change.

Evaluations one after another read the keys of all of them (`Reads.bind`), and the value of a
uniform reads those of its curve and its bindings (`reads_frameValue`).
-/

namespace Collage

/-- What is remembered of the input: a button or an axis, by its key. -/
inductive InputKey
  | button (key : String)
  | axis (key : String)
  deriving Repr, DecidableEq

namespace InputState

/-- What is remembered for a key, with the frame in which it was evaluated. -/
def lookup (state : InputState) : InputKey → Option (Nat × (ButtonState ⊕ Float))
  | .button key => (state.buttons.get? key).map fun entry => (entry.1, .inl entry.2)
  | .axis key => (state.axes.get? key).map fun entry => (entry.1, .inr entry.2)

/-- Whether a key was evaluated in this frame. -/
def Fresh (state : InputState) (key : InputKey) : Prop :=
  ∃ value, state.lookup key = some (state.frame, value)

/-- Two states are in the same frame and remember the same for some keys. -/
structure Alike (keys : List InputKey) (state other : InputState) : Prop where
  frame : state.frame = other.frame
  lookup : ∀ key ∈ keys, state.lookup key = other.lookup key

theorem Alike.refl (keys : List InputKey) (state : InputState) : Alike keys state state :=
  ⟨rfl, fun _ _ => rfl⟩

theorem Alike.mono {keys fewer : List InputKey} {state other : InputState}
    (h : Alike keys state other) (inside : ∀ key ∈ fewer, key ∈ keys) : Alike fewer state other :=
  ⟨h.frame, fun key known => h.lookup key (inside key known)⟩

theorem Fresh.congr {state other : InputState} {key : InputKey} (h : state.Fresh key)
    (frame : other.frame = state.frame) (lookup : other.lookup key = state.lookup key) :
    other.Fresh key := by
  obtain ⟨value, found⟩ := h
  exact ⟨value, by rw [lookup, found, frame]⟩

/-- What an evaluation reads: its value and what is remembered of `keys` afterwards depend on
them only; all of them are fresh then, and other keys and fresh ones stay. -/
structure Reads {α : Type} (keys : List InputKey) (change : StateM InputState α) : Prop where
  frame : ∀ state, (change.run state).2.frame = state.frame
  value : ∀ {state other}, Alike keys state other → (change.run state).1 = (change.run other).1
  lookup : ∀ {state other}, Alike keys state other → ∀ key ∈ keys,
    (change.run state).2.lookup key = (change.run other).2.lookup key
  fresh : ∀ state, ∀ key ∈ keys, (change.run state).2.Fresh key
  others : ∀ state, ∀ key ∉ keys, (change.run state).2.lookup key = state.lookup key
  kept : ∀ {state key}, state.Fresh key → (change.run state).2.lookup key = state.lookup key

namespace Reads

variable {α β : Type} {keys more : List InputKey} {change : StateM InputState α}

theorem alike (h : Reads keys change) {all : List InputKey} {state other : InputState}
    (same : Alike all state other) (inside : ∀ key ∈ keys, key ∈ all) :
    Alike all (change.run state).2 (change.run other).2 := by
  refine ⟨by rw [h.frame, h.frame, same.frame], fun key known => ?_⟩
  by_cases own : key ∈ keys
  · exact h.lookup (same.mono inside) key own
  · rw [h.others state key own, h.others other key own, same.lookup key known]

theorem stays (h : Reads keys change) {state : InputState} {key : InputKey}
    (fresh : state.Fresh key) : (change.run state).2.Fresh key :=
  fresh.congr (h.frame state) (h.kept fresh)

theorem pure (value : α) : Reads [] (Pure.pure value : StateM InputState α) where
  frame _ := rfl
  value _ := rfl
  lookup _ _ inside := absurd inside List.not_mem_nil
  fresh _ _ inside := absurd inside List.not_mem_nil
  others _ _ _ := rfl
  kept _ := rfl

/-- **Evaluations one after another** read the keys of both. -/
theorem bind {next : α → StateM InputState β} (h : Reads keys change)
    (rest : ∀ value, Reads more (next value)) : Reads (keys ++ more) (change >>= next) := by
  have left : ∀ key ∈ keys, key ∈ keys ++ more := fun _ => List.mem_append_left more
  have right : ∀ key ∈ more, key ∈ keys ++ more := fun _ => List.mem_append_right keys
  refine { frame := fun state => ?_, value := fun same => ?_, lookup := fun same key inside => ?_,
           fresh := fun state key inside => ?_, others := fun state key outside => ?_,
           kept := fun {state key} fresh => ?_ }
  · exact ((rest _).frame _).trans (h.frame state)
  · have first := h.alike same left
    have value := h.value (same.mono left)
    change ((next (change.run _).1).run (change.run _).2).1 = _
    rw [value]
    exact (rest _).value (first.mono right)
  · have first := h.alike same left
    have value := h.value (same.mono left)
    change ((next (change.run _).1).run (change.run _).2).2.lookup key = _
    rw [value]
    exact ((rest _).alike first right).lookup key inside
  · rcases List.mem_append.mp inside with inside | inside
    · exact (rest _).stays (h.fresh state key inside)
    · exact (rest _).fresh _ key inside
  · obtain ⟨first, second⟩ := not_or.mp (mt List.mem_append.mpr outside)
    exact ((rest _).others _ key second).trans (h.others state key first)
  · exact ((rest _).kept (h.stays fresh)).trans (h.kept fresh)

theorem map (h : Reads keys change) (f : α → β) : Reads keys (f <$> change) := by
  have both := h.bind fun value => Reads.pure (f value)
  rwa [List.append_nil] at both

/-- What is looked up in the frame in which it was stored, and stored anew in any other frame. -/
theorem of_memo {key : InputKey} {change : StateM InputState α} (wrap : α → ButtonState ⊕ Float)
    (look : InputState → Option (Nat × α)) (store : InputState → α → InputState)
    (compute : Option (Nat × α) → α)
    (looks : ∀ state, state.lookup key = (look state).map fun entry => (entry.1, wrap entry.2))
    (one : wrap.Injective)
    (stores : ∀ state value, look (store state value) = some (state.frame, value) ∧
      (store state value).frame = state.frame ∧
      ∀ other ≠ key, (store state value).lookup other = state.lookup other)
    (hit : ∀ state value, look state = some (state.frame, value) →
      change.run state = (value, state))
    (miss : ∀ state, (∀ value, look state ≠ some (state.frame, value)) →
      change.run state = (compute (look state), store state (compute (look state)))) :
    Reads [key] change := by
  have known : ∀ {state : InputState} {value : α}, look state = some (state.frame, value) →
      state.lookup key = some (state.frame, wrap value) := by
    intro state value found
    rw [looks, found, Option.map_some]
  have runs : ∀ state, ∃ value, (change.run state).1 = value ∧
      look (change.run state).2 = some (state.frame, value) ∧
      (change.run state).2.frame = state.frame ∧
      (∀ other ≠ key, (change.run state).2.lookup other = state.lookup other) ∧
      (state.Fresh key → (change.run state).2 = state) := by
    intro state
    by_cases found : ∃ value, look state = some (state.frame, value)
    · obtain ⟨value, found⟩ := found
      rw [hit state value found]
      exact ⟨value, rfl, found, rfl, fun _ _ => rfl, fun _ => rfl⟩
    · rw [miss state fun value same => found ⟨value, same⟩]
      obtain ⟨stored, frame, others⟩ := stores state (compute (look state))
      refine ⟨_, rfl, stored, frame, others, fun ⟨value, fresh⟩ => absurd ?_ found⟩
      rw [looks] at fresh
      obtain ⟨⟨_, value⟩, there, same⟩ := Option.map_eq_some_iff.mp fresh
      exact ⟨value, by rw [there, ← (Prod.mk.inj same).1]⟩
  have same : ∀ {state other : InputState}, Alike [key] state other →
      look state = look other := by
    intro state other alike
    have lookup := alike.lookup key (List.mem_singleton_self key)
    rw [looks, looks] at lookup
    refine Option.map_injective (fun entry entry' equal => ?_) lookup
    exact Prod.ext (Prod.mk.inj equal).1 (one (Prod.mk.inj equal).2)
  have values : ∀ {state other : InputState}, Alike [key] state other →
      (change.run state).1 = (change.run other).1 := by
    intro state other alike
    by_cases found : ∃ value, look state = some (state.frame, value)
    · obtain ⟨value, found⟩ := found
      rw [hit state value found,
        hit other value (by rw [← same alike, found, alike.frame])]
    · rw [miss state fun value same => found ⟨value, same⟩, miss other fun value there =>
        found ⟨value, by rw [same alike, there, alike.frame]⟩, same alike]
  refine { frame := fun state => ?_, value := values,
           lookup := fun {state other} alike _ inside => ?_,
           fresh := fun state _ inside => ?_, others := fun state other outside => ?_,
           kept := fun {state other} fresh => ?_ }
  · obtain ⟨_, _, _, frame, _⟩ := runs state
    exact frame
  · obtain ⟨_, rfl, first, _⟩ := runs state
    obtain ⟨_, rfl, second, _⟩ := runs other
    rw [List.mem_singleton.mp inside, looks, looks, first, second, values alike, alike.frame]
  · obtain ⟨value, _, stored, frame, _⟩ := runs state
    rw [List.mem_singleton.mp inside]
    exact ⟨wrap value, known (frame.symm ▸ stored)⟩
  · obtain ⟨_, _, _, _, others, _⟩ := runs state
    exact others other fun same => outside (List.mem_singleton.mpr same)
  · obtain ⟨_, _, _, _, others, still⟩ := runs state
    by_cases own : other = key
    · rw [still (own ▸ fresh)]
    · exact others other own

end Reads

/-! ### Buttons, axes and curves -/

theorem reads_evaluateButton (key : String) (bindings : ButtonBindings) (devices : InputDevices)
    (now : Float) : Reads [.button key] (evaluateButton key bindings devices now) := by
  let pressed := devices.readButton bindings
  refine Reads.of_memo .inl (fun state => state.buttons.get? key)
    (fun state button => { state with buttons := state.buttons.set key (state.frame, button) })
    (fun before => ((before.map Prod.snd).getD {}).next pressed.1 pressed.2 now) (fun _ => rfl)
    (fun _ _ => Sum.inl.inj) (fun state button => ⟨Table.get?_set_self _ _ _, rfl, ?_⟩) ?_ ?_
  · rintro (other | other) different
    · have apart : other ≠ key := fun same => different (congrArg _ same)
      exact congrArg (Option.map _) (Table.get?_set_other _ _ apart)
    · rfl
  · intro state button found
    unfold evaluateButton StateT.run
    dsimp only
    rw [found, Option.filter_some, if_pos (decide_eq_true rfl)]
  · intro state absent
    have none : (state.buttons.get? key).filter (·.1 = state.frame) = none := by
      rw [Option.filter_eq_none_iff]
      rintro ⟨frame, button⟩ found here
      exact absent button (of_decide_eq_true here ▸ found)
    unfold evaluateButton StateT.run
    dsimp only
    rw [none]
    rfl

theorem reads_evaluateAxis (key : String) (bindings : AxisBindings) (devices : InputDevices) :
    Reads [.axis key] (evaluateAxis key bindings devices) := by
  refine Reads.of_memo .inr (fun state => state.axes.get? key)
    (fun state value => { state with axes := state.axes.set key (state.frame, value) })
    (fun _ => devices.readAxis bindings) (fun _ => rfl)
    (fun _ _ => Sum.inr.inj) (fun state value => ⟨Table.get?_set_self _ _ _, rfl, ?_⟩) ?_ ?_
  · rintro (other | other) different
    · rfl
    · have apart : other ≠ key := fun same => different (congrArg _ same)
      exact congrArg (Option.map _) (Table.get?_set_other _ _ apart)
  · intro state value found
    unfold evaluateAxis StateT.run
    dsimp only
    rw [found, Option.filter_some, if_pos (decide_eq_true rfl)]
  · intro state absent
    have none : (state.axes.get? key).filter (·.1 = state.frame) = none := by
      rw [Option.filter_eq_none_iff]
      rintro ⟨frame, value⟩ found here
      exact absent value (of_decide_eq_true here ▸ found)
    unfold evaluateAxis StateT.run
    dsimp only
    rw [none]

end InputState

/-- The keys that a curve follows; `key` is the key of the curve. -/
def CurveInput.inputs (key : String) : CurveInput → List InputKey
  | .button _ => [.button key]
  | .axis _ => [.axis key]
  | _ => []

/-- The keys that a value is bound to; `key` is the key of its uniform. -/
def Value.inputs (key : String) : Value → List InputKey
  | .button _ => [.button key]
  | .axis _ => [.axis key]
  | _ => []

/-- The keys that the value of a uniform reads. -/
def Uniform.inputs (layer : String) (uniform : Uniform) : List InputKey :=
  (uniform.value.curve.elim [] fun curve =>
    curve.input.inputs (inputKey layer uniform.name true)) ++
  uniform.value.value.inputs (inputKey layer uniform.name false)

namespace InputState

theorem reads_curve (curve : Curve) (key : String) (context : CurveContext) :
    Reads (curve.input.inputs key) (curve.evaluate key context) := by
  unfold Curve.evaluate
  cases curve.input with
  | button bindings =>
    exact ((reads_evaluateButton key bindings context.devices context.time).map _).map curve.spread
  | axis bindings => exact (reads_evaluateAxis key bindings context.devices).map curve.spread
  | _ => exact Reads.pure _

theorem reads_storedValue (frame : FrameContext) (layer : String) (uniform : Uniform) :
    Reads (uniform.value.value.inputs (inputKey layer uniform.name false))
      (storedValue frame layer uniform) := by
  unfold storedValue
  cases uniform.value.value with
  | button bindings =>
    exact (reads_evaluateButton _ bindings frame.devices frame.time.time).map fun state =>
      FrameValue.button (state.toUniform frame.time.time)
  | axis bindings => exact (reads_evaluateAxis _ bindings frame.devices).map FrameValue.float
  | _ => exact Reads.pure _

/-- **The value of a uniform** reads the keys of its curve and its bindings. -/
theorem reads_frameValue (frame : FrameContext) (levels : AudioLevels) (layer : String)
    (uniform : Uniform) : Reads (uniform.inputs layer) (frameValue frame levels layer uniform) := by
  have stored := reads_storedValue frame layer uniform
  unfold frameValue Uniform.inputs
  cases uniform.value.curve with
  | none => exact stored
  | some curve =>
    refine (reads_curve curve _ _).bind fun value => ?_
    revert stored
    cases uniform.value.value with
    | float | int => exact fun _ => Reads.pure _
    | _ => exact id

end InputState

/-- The keys that uniforms read when they are given to a program. -/
def Renderer.placedInputs (placed : List Renderer.PlacedUniform) : List InputKey :=
  placed.flatMap fun placed => placed.uniform.inputs placed.layer

/-- The keys that the program of a layer reads whenever the layer is drawn. -/
def Renderer.shaderInputs (tree : CompiledTree) (layer : CompiledLayer) (shader : LayerProgram) :
    List InputKey :=
  if shader.program.isSome then Renderer.placedInputs (Renderer.placedUniforms tree layer shader)
  else []

/-- The keys that a layer reads whenever it is drawn. -/
def CompiledLayer.shaderInputs (tree : CompiledTree) (layer : CompiledLayer) : List InputKey :=
  match layer.kind with
  | .shader shader => Renderer.shaderInputs tree layer shader
  | _ => []

end Collage
