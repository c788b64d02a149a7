import Collage.Proofs.Frame.Inputs
import Collage.Proofs.Shader.Lexing
import Mathlib.Data.Set.Basic

/-!
# Whose a key is

What is remembered of the input belongs to an `InputOwner`: a parameter of a layer, or the curve
that it follows.  Its key is the layer, a null, and the name, with an ending behind that of a
curve.  The last null of a key ends the layer, so that layers are never mixed up; but the key of
the curve of `x` is that of a parameter `x_curve` as well (`key_eq_iff`), and the layer that is
read off a key ends at the first null (`keyLayer_inputKey`).

`InputState.run` makes calls one after another and says what each owner got.

* `Alike.run`: an owner whose key nobody else has gets the same answers, and the same is
  remembered for it, when all that is evaluated for others is left out.
* `identified_iff`: keys tell owners apart, and evaluations for one never meet those for another,
  exactly if none of them is the `_curve` of another; layers are read off their keys, and kept or
  forgotten with them, exactly if no layer has a null.
-/

namespace Collage

/-- Whose something that is remembered is: that of a parameter, or of the curve that it follows. -/
structure InputOwner where
  layer : String
  parameter : String
  curve : Bool
  deriving Repr, DecidableEq

namespace InputOwner

/-- The key under which it is remembered. -/
def key (owner : InputOwner) : String :=
  inputKey owner.layer owner.parameter owner.curve

/-- What may be remembered for an owner. -/
def inputs (owner : InputOwner) : List InputKey :=
  [.button owner.key, .axis owner.key]

/-- The curve of a parameter, and a parameter of the same layer with the name of that curve. -/
structure Shadows (one other : InputOwner) : Prop where
  layer : one.layer = other.layer
  curve : one.curve = true
  plain : other.curve = false
  name : other.parameter = one.parameter ++ "_curve"

/-! ### Reading keys -/

/-- The last of the marks in a text says where the text is cut. -/
theorem append_cons_inj_of_notMem {mark : Char} {front front' back back' : List Char}
    (last : mark ∉ back) (last' : mark ∉ back')
    (same : front ++ mark :: back = front' ++ mark :: back') : front = front' ∧ back = back' := by
  rcases List.append_eq_append_iff.mp same with ⟨gap, longer, rest⟩ | ⟨gap, longer, rest⟩
  · cases gap with
    | nil => exact ⟨by rw [longer, List.append_nil], (List.cons.inj rest).2⟩
    | cons c gap => exact absurd (by simp [(List.cons.inj rest).2]) last
  · cases gap with
    | nil => exact ⟨by rw [longer, List.append_nil], (List.cons.inj rest).2.symm⟩
    | cons c gap => exact absurd (by simp [(List.cons.inj rest).2]) last'

/-- What stands behind the layer in a key. -/
def ending (owner : InputOwner) : List Char :=
  owner.parameter.toList ++ if owner.curve then "_curve".toList else []

theorem toList_key (owner : InputOwner) :
    owner.key.toList = owner.layer.toList ++ '\x00' :: owner.ending := by
  have null : "\x00".toList = ['\x00'] := by decide
  unfold key inputKey ending
  rw [String.toList_append, String.toList_append, String.toList_append, null]
  cases owner.curve <;> simp

theorem notMem_ending {owner : InputOwner} (name : IsName owner.parameter.toList) :
    '\x00' ∉ owner.ending := by
  have parts : ∀ c ∈ "_curve".toList, isIdentifierPart c = true :=
    List.all_eq_true.mp (by decide)
  have all : ∀ c ∈ owner.ending, isIdentifierPart c = true := by
    intro c inside
    rcases List.mem_append.mp inside with inside | inside
    · exact name.parts c inside
    · split at inside
      · exact parts c inside
      · cases inside
  exact fun null => absurd (all _ null) (by decide)

theorem Shadows.key_eq {one other : InputOwner} (h : one.Shadows other) : one.key = other.key := by
  apply String.toList_inj.mp
  rw [toList_key, toList_key, ending, ending, h.layer, h.curve, h.plain, h.name,
    String.toList_append]
  simp

theorem Shadows.ne {one other : InputOwner} (h : one.Shadows other) : one ≠ other := by
  rintro rfl
  cases h.curve.symm.trans h.plain

/-- **Owners with one key** are the same, or the one is the curve and the other has its name. -/
theorem key_eq_iff {one other : InputOwner} (name : IsName one.parameter.toList)
    (name' : IsName other.parameter.toList) :
    one.key = other.key ↔ one = other ∨ one.Shadows other ∨ other.Shadows one := by
  constructor
  · intro same
    have same : one.key.toList = other.key.toList := congrArg _ same
    rw [toList_key, toList_key] at same
    obtain ⟨layers, endings⟩ :=
      append_cons_inj_of_notMem (notMem_ending name) (notMem_ending name') same
    have layer : one.layer = other.layer := String.toList_inj.mp layers
    obtain ⟨_, parameter, curve⟩ := one
    obtain ⟨_, parameter', curve'⟩ := other
    cases layer
    -- the name of a curve is longer than that of its parameter
    cases curve <;> cases curve' <;>
      simp only [ending, Bool.false_eq_true, if_true, if_false, List.append_nil] at endings
    · exact .inl (by rw [String.toList_inj.mp endings])
    · rw [← String.toList_append, String.toList_inj] at endings
      exact .inr (.inr ⟨rfl, rfl, rfl, endings⟩)
    · rw [← String.toList_append, String.toList_inj] at endings
      exact .inr (.inl ⟨rfl, rfl, rfl, endings.symm⟩)
    · exact .inl (by rw [String.toList_inj.mp (List.append_cancel_right endings)])
  · rintro (rfl | shadows | shadows)
    · rfl
    · exact shadows.key_eq
    · exact shadows.key_eq.symm

/-- The layer that is read off a key ends at the first null of the layer. -/
theorem keyLayer_key (owner : InputOwner) : keyLayer owner.key = keyLayer owner.layer := by
  unfold keyLayer
  rw [toList_key, List.takeWhile_append]
  split
  · next all =>
    rw [List.takeWhile_cons_of_neg (by simp), List.append_nil]
    exact congrArg _ (List.takeWhile_prefix _ |>.eq_of_length all).symm
  · rfl

/-- **A layer is read off its keys** exactly if it has no null. -/
theorem keyLayer_key_eq_iff (owner : InputOwner) :
    keyLayer owner.key = owner.layer ↔ '\x00' ∉ owner.layer.toList := by
  rw [keyLayer_key, keyLayer, ← String.toList_inj, String.toList_ofList,
    List.takeWhile_eq_self_iff]
  constructor
  · intro all null
    simpa using all _ null
  · rintro none c inside
    simpa using fun null : c = '\x00' => none (null ▸ inside)

end InputOwner

/-! ### Evaluations one after another -/

/-- What is evaluated for a key. -/
inductive InputReading
  | button (bindings : ButtonBindings) (devices : InputDevices) (now : Float)
  | axis (bindings : AxisBindings) (devices : InputDevices)
  /-- what a curve comes to, whatever it follows -/
  | follow (curve : Curve) (context : CurveContext)

namespace InputReading

/-- Evaluates it. -/
def evaluate (key : String) : InputReading → StateM InputState (ButtonState ⊕ Float)
  | .button bindings devices now =>
    Sum.inl <$> InputState.evaluateButton key bindings devices now
  | .axis bindings devices => Sum.inr <$> InputState.evaluateAxis key bindings devices
  | .follow curve context => Sum.inr <$> curve.evaluate key context

/-- What is remembered of it. -/
def inputs (key : String) : InputReading → List InputKey
  | .button .. => [.button key]
  | .axis .. => [.axis key]
  | .follow curve _ => curve.input.inputs key

theorem reads (reading : InputReading) (key : String) :
    InputState.Reads (reading.inputs key) (reading.evaluate key) := by
  cases reading with
  | button bindings devices now =>
    exact (InputState.reads_evaluateButton key bindings devices now).map Sum.inl
  | axis bindings devices => exact (InputState.reads_evaluateAxis key bindings devices).map Sum.inr
  | follow curve context => exact (InputState.reads_curve curve key context).map Sum.inr

theorem inputs_subset (reading : InputReading) (key : String) :
    ∀ input ∈ reading.inputs key, input = .button key ∨ input = .axis key := by
  have follows : ∀ source : CurveInput, ∀ input ∈ source.inputs key,
      input = .button key ∨ input = .axis key := by
    intro source input inside
    cases source with
    | button => exact .inl (List.mem_singleton.mp inside)
    | axis => exact .inr (List.mem_singleton.mp inside)
    | _ => cases inside
  intro input inside
  cases reading with
  | button => exact .inl (List.mem_singleton.mp inside)
  | axis => exact .inr (List.mem_singleton.mp inside)
  | follow curve _ => exact follows curve.input input inside

/-- A button that is down. -/
def pressed : InputReading :=
  .button [("keyboard", "Space")] (InputDevices.press {} "keyboard" "Space") 0

/-- A button that is bound to nothing. -/
def unbound : InputReading :=
  .button [] {} 0

/-- Whether a button was evaluated and is down. -/
def isDown : ButtonState ⊕ Float → Bool
  | .inl state => state.held
  | .inr _ => false

end InputReading

/-- What happens to what is remembered of the input. -/
inductive InputCall
  /-- a frame with this number begins -/
  | frame (number : Nat)
  /-- something is evaluated for an owner -/
  | read (owner : InputOwner) (reading : InputReading)
  /-- the layers other than these are forgotten -/
  | retain (live : List String)

namespace InputCall

/-- For whom something is evaluated. -/
def owner? : InputCall → Option InputOwner
  | .read owner _ => some owner
  | _ => none

/-- Whether a call is no evaluation for another owner. -/
def concerns (owner : InputOwner) (call : InputCall) : Bool :=
  call.owner?.all (· = owner)

end InputCall

namespace InputState

open InputReading (pressed unbound isDown)

/-- Makes calls one after another; gives what was evaluated, and for whom. -/
def run : List InputCall → StateM InputState (List (InputOwner × (ButtonState ⊕ Float)))
  | [] => pure []
  | .frame number :: rest => do
    modify fun state => { state with frame := number }
    run rest
  | .read owner reading :: rest => do
    let value ← reading.evaluate owner.key
    return (owner, value) :: (← run rest)
  | .retain live :: rest => do
    modify (retainLayers live)
    run rest

theorem run_read (owner : InputOwner) (reading : InputReading) (rest : List InputCall)
    (state : InputState) : (run (.read owner reading :: rest)).run state =
      ((owner, ((reading.evaluate owner.key).run state).1) ::
        ((run rest).run ((reading.evaluate owner.key).run state).2).1,
        ((run rest).run ((reading.evaluate owner.key).run state).2).2) :=
  rfl

/-- What is kept of a layer is remembered as it was. -/
theorem lookup_retainLayers (live : List String) (state : InputState) (owner : InputOwner) :
    ∀ input ∈ owner.inputs, (state.retainLayers live).lookup input =
      if keyLayer owner.key ∈ live then state.lookup input else none := by
  intro input inside
  simp only [InputOwner.inputs, List.mem_cons, List.not_mem_nil, or_false] at inside
  rcases inside with rfl | rfl
  all_goals
    simp only [lookup, retainLayers, Table.get?_keep, List.contains_iff_mem]
    split <;> rfl

/-- Of an owner the same answers are given, and the same is remembered, if all that is evaluated
for others is left out. -/
structure Alone (owner : InputOwner) (calls : List InputCall) (state : InputState) : Prop where
  answers : ((run calls).run state).1.filter (·.1 = owner) =
    ((run (calls.filter (·.concerns owner))).run state).1
  remembered : Alike owner.inputs ((run calls).run state).2
    ((run (calls.filter (·.concerns owner))).run state).2

/-- **Evaluations for owners with other keys change nothing.** -/
theorem Alike.run {owner : InputOwner} : ∀ {calls : List InputCall} {state other : InputState},
    Alike owner.inputs state other →
    (∀ call ∈ calls, ∀ reader ∈ call.owner?, reader.key = owner.key → reader = owner) →
    ((InputState.run calls).run state).1.filter (·.1 = owner) =
        ((InputState.run (calls.filter (·.concerns owner))).run other).1 ∧
      Alike owner.inputs ((InputState.run calls).run state).2
        ((InputState.run (calls.filter (·.concerns owner))).run other).2
  | [], _, _, alike, _ => ⟨rfl, alike⟩
  | .frame number :: rest, state, other, alike, apart => by
    have begun : Alike owner.inputs { state with frame := number } { other with frame := number } :=
      ⟨rfl, alike.lookup⟩
    exact begun.run fun call inside => apart call (List.mem_cons_of_mem _ inside)
  | .retain live :: rest, state, other, alike, apart => by
    have kept : Alike owner.inputs (state.retainLayers live) (other.retainLayers live) := by
      refine ⟨alike.frame, fun input inside => ?_⟩
      rw [lookup_retainLayers live state owner input inside,
        lookup_retainLayers live other owner input inside, alike.lookup input inside]
    exact kept.run fun call inside => apart call (List.mem_cons_of_mem _ inside)
  | .read reader reading :: rest, state, other, alike, apart => by
    have later := fun call inside => apart call (List.mem_cons_of_mem _ inside)
    have reads := reading.reads reader.key
    by_cases own : reader = owner
    · subst own
      have inside : ∀ input ∈ reading.inputs reader.key, input ∈ reader.inputs := by
        intro input inside
        simpa [InputOwner.inputs] using reading.inputs_subset _ input inside
      have value := reads.value (alike.mono inside)
      obtain ⟨answers, after⟩ := (reads.alike alike inside).run later
      have mine : (InputCall.read reader reading).concerns reader = true := by
        simp [InputCall.concerns, InputCall.owner?]
      rw [List.filter_cons_of_pos mine, run_read, run_read]
      refine ⟨?_, after⟩
      rw [List.filter_cons_of_pos (by simp), answers, value]
    · have different : reader.key ≠ owner.key :=
        fun same => own (apart _ List.mem_cons_self reader rfl same)
      have still : Alike owner.inputs ((reading.evaluate reader.key).run state).2 other := by
        refine ⟨(reads.frame state).trans alike.frame, fun input inside => ?_⟩
        rw [reads.others state input, alike.lookup input inside]
        intro read
        simp only [InputOwner.inputs, List.mem_cons, List.not_mem_nil, or_false] at inside
        rcases reading.inputs_subset _ input read with rfl | rfl <;>
          simp [different] at inside
      have others : (InputCall.read reader reading).concerns owner = false := by
        simp [InputCall.concerns, InputCall.owner?, own]
      rw [List.filter_cons_of_neg (by simp [others]), run_read]
      obtain ⟨answers, after⟩ := still.run later
      refine ⟨?_, after⟩
      rw [List.filter_cons_of_neg (by simpa using own), answers]

theorem evaluateButton_again {state : InputState} {key : String} {button : ButtonState}
    (found : state.buttons.get? key = some (state.frame, button)) (bindings : ButtonBindings)
    (devices : InputDevices) (now : Float) :
    evaluateButton key bindings devices now state = (button, state) := by
  unfold evaluateButton
  rw [found, Option.filter_some, if_pos (decide_eq_true rfl)]

/-- A button that is bound to nothing is down if one was evaluated as down for its key. -/
theorem isDown_unbound_pressed (key : String) :
    isDown ((unbound.evaluate key).run ((pressed.evaluate key).run {}).2).1 = true := by
  have found : ((pressed.evaluate key).run {}).2.buttons.get? key =
      some (0, ({} : ButtonState).next true _ 0) := Table.get?_set_self _ _ _
  exact congrArg (fun ran => isDown (.inl ran.1)) (evaluateButton_again found [] {} 0)

/-- A parameter with the key of a curve reads what was evaluated for the curve. -/
theorem not_alone_of_shadows {one other : InputOwner} (h : one.Shadows other) :
    ¬ Alone other [.read one pressed, .read other unbound] {} := by
  intro alone
  have answers := alone.answers
  have others : (InputCall.read one pressed).concerns other = false := by
    simp [InputCall.concerns, InputCall.owner?, h.ne]
  have own : (InputCall.read other unbound).concerns other = true := by
    simp [InputCall.concerns, InputCall.owner?]
  rw [List.filter_cons_of_neg (by simp [others]), List.filter_cons_of_pos own, List.filter_nil,
    run_read, run_read, run_read, List.filter_cons_of_neg (by simpa using h.ne),
    List.filter_cons_of_pos (by simp), h.key_eq] at answers
  have same := congrArg (isDown ·.2) (List.cons.inj answers).1
  exact Bool.noConfusion ((isDown_unbound_pressed other.key).symm.trans same)

end InputState

/-! ### Which owners are told apart -/

namespace InputOwner

/-- Nothing is evaluated for owners other than these. -/
def Among (owners : Set InputOwner) (calls : List InputCall) : Prop :=
  ∀ call ∈ calls, ∀ reader ∈ call.owner?, reader ∈ owners

/-- No owner is the curve of a parameter and another has the name of the curve. -/
def Unshadowed (owners : Set InputOwner) : Prop :=
  ∀ one ∈ owners, ∀ other ∈ owners, ¬ one.Shadows other

/-- No layer has a null. -/
def Plain (owners : Set InputOwner) : Prop :=
  ∀ owner ∈ owners, '\x00' ∉ owner.layer.toList

/-- **What keys tell.**  Keys tell owners apart, and evaluations for an owner keep apart from those
for others in whatever order they come, exactly if no owner has the name of the curve of another.
The layer is read off every key, and what is remembered for an owner stays exactly if its layer
does, exactly if no layer has a null. -/
theorem identified_iff {owners : Set InputOwner}
    (names : ∀ owner ∈ owners, IsName owner.parameter.toList) :
    (Set.InjOn key owners ↔ Unshadowed owners) ∧
    ((∀ owner ∈ owners, ∀ calls, Among owners calls → ∀ state, InputState.Alone owner calls state) ↔
      Unshadowed owners) ∧
    ((∀ owner ∈ owners, keyLayer owner.key = owner.layer) ↔ Plain owners) ∧
    ((∀ owner ∈ owners, ∀ live state, ∀ input ∈ owner.inputs,
        (InputState.retainLayers live state).lookup input =
          if owner.layer ∈ live then state.lookup input else none) ↔ Plain owners) := by
  have injective : Unshadowed owners → Set.InjOn key owners := by
    intro unshadowed one inside other inside' same
    rcases (key_eq_iff (names one inside) (names other inside')).mp same with rfl | left | right
    · rfl
    · exact absurd left (unshadowed one inside other inside')
    · exact absurd right (unshadowed other inside' one inside)
  refine ⟨⟨fun apart one inside other inside' shadows => ?_, injective⟩,
    ⟨fun alone one inside other inside' shadows => ?_, fun unshadowed owner inside calls among state =>
      ?_⟩, ?_, fun kept owner inside => ?_, fun plain owner inside live state input there => ?_⟩
  · exact shadows.ne (apart inside inside' shadows.key_eq)
  · refine InputState.not_alone_of_shadows shadows (alone other inside' _ ?_ _)
    intro call called reader read
    simp only [List.mem_cons, List.not_mem_nil, or_false] at called
    rcases called with rfl | rfl
    · cases read
      exact inside
    · cases read
      exact inside'
  · obtain ⟨answers, remembered⟩ := (InputState.Alike.refl owner.inputs state).run
      fun call called reader read same => injective unshadowed (among call called reader read)
        inside same
    exact ⟨answers, remembered⟩
  · exact forall_congr' fun owner => imp_congr_right fun _ => owner.keyLayer_key_eq_iff
  · -- what was just evaluated for a layer has to be there still when the layer stays
    refine owner.keyLayer_key_eq_iff.mp (not_not.mp fun other => ?_)
    have there : InputKey.button owner.key ∈ owner.inputs := List.mem_cons_self
    obtain ⟨value, stored⟩ := (InputReading.pressed.reads owner.key).fresh {} (.button owner.key)
      (List.mem_singleton_self _)
    have still := kept owner inside [owner.layer]
      ((InputReading.pressed.evaluate owner.key).run {}).2 _ there
    rw [InputState.lookup_retainLayers _ _ _ _ there, if_neg (by simpa using other),
      if_pos (List.mem_singleton_self _), stored] at still
    cases still
  · rw [InputState.lookup_retainLayers live state owner input there,
      owner.keyLayer_key_eq_iff.mpr (plain owner inside)]

/-- A parameter with its curve, and a parameter of another layer with the name of the curve. -/
def steering : Set InputOwner :=
  {⟨"ship", "turn", false⟩, ⟨"ship", "turn", true⟩, ⟨"sea", "turn_curve", false⟩}

theorem identified_iff_steering :
    (∀ owner ∈ steering, IsName owner.parameter.toList) ∧ Unshadowed steering ∧ Plain steering ∧
    Set.InjOn key steering ∧
    (∀ owner ∈ steering, ∀ calls, Among steering calls → ∀ state,
      InputState.Alone owner calls state) ∧
    (∀ owner ∈ steering, keyLayer owner.key = owner.layer) ∧
    ∀ owner ∈ steering, ∀ live state, ∀ input ∈ owner.inputs,
      (InputState.retainLayers live state).lookup input =
        if owner.layer ∈ live then state.lookup input else none := by
  have names : ∀ owner ∈ steering, IsName owner.parameter.toList := by
    rintro owner (rfl | rfl | rfl) <;> exact isName_of_all (by decide) (by decide)
  have unshadowed : Unshadowed steering := by
    rintro one (rfl | rfl | rfl) other (rfl | rfl | rfl) ⟨layer, curve, plain, name⟩ <;>
      revert layer curve plain name <;> decide
  have plain : Plain steering := by
    rintro owner (rfl | rfl | rfl) <;> decide
  obtain ⟨keys, alone, layers, kept⟩ := identified_iff names
  exact ⟨names, unshadowed, plain, keys.mpr unshadowed, alone.mpr unshadowed, layers.mpr plain,
    kept.mpr plain⟩

/-- **Keys do not tell all owners apart.**  The curve of `x` and a parameter `x_curve` have one key,
so that the parameter reads what was evaluated for the curve; and a layer with a null in its id is
not the one that its keys name, so that it is forgotten although it stays. -/
theorem exists_confused :
    (∃ one other : InputOwner, IsName one.parameter.toList ∧ IsName other.parameter.toList ∧
      one ≠ other ∧ one.key = other.key ∧
      ¬ InputState.Alone other [.read one .pressed, .read other .unbound] {}) ∧
    ∃ owner : InputOwner, IsName owner.parameter.toList ∧ keyLayer owner.key ≠ owner.layer ∧
      ∃ state : InputState, (state.lookup (.button owner.key)).isSome ∧
        (state.retainLayers [owner.layer]).lookup (.button owner.key) = none := by
  have name : IsName "x".toList := isName_of_all (by decide) (by decide)
  constructor
  · have shadows : Shadows ⟨"a", "x", true⟩ ⟨"a", "x_curve", false⟩ := ⟨rfl, rfl, rfl, by decide⟩
    exact ⟨_, _, name, isName_of_all (by decide) (by decide), shadows.ne, shadows.key_eq,
      InputState.not_alone_of_shadows shadows⟩
  · have other : keyLayer (key ⟨"a\x00b", "x", false⟩) ≠ "a\x00b" :=
      fun same => (keyLayer_key_eq_iff _).mp same (by decide)
    obtain ⟨value, stored⟩ := (InputReading.pressed.reads (key ⟨"a\x00b", "x", false⟩)).fresh {}
      (.button _) (List.mem_singleton_self _)
    refine ⟨⟨"a\x00b", "x", false⟩, name, other, _, by rw [stored]; rfl, ?_⟩
    rw [InputState.lookup_retainLayers _ _ _ _ List.mem_cons_self, if_neg (by simpa using other)]

end InputOwner
end Collage
