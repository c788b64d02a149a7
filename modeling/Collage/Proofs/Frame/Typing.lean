import Collage.Proofs.Frame.Drawing
import Collage.Proofs.Tree.Values

/-!
# Values fit the types of their uniforms

A uniform of a compiled tree is `Uniform.Typed`: its kind is the one of its type and its
settings, and its value is of that kind.  Compiling and editing lead to nothing else
(`CompiledTree.Arises.typed`).  In a frame such a value, with its curve and its bindings,
`Suits` the kind (`Uniform.Typed.suits`), and what suits a kind is turned into data of the sort
and the size that the type asks for (`Renderer.valueData_typed`), so that no write of a uniform
is left out.
-/

namespace Collage

open Collage.Action

/-! ### Types -/

namespace UniformData

/-- The types that are given numbers, and how many each. -/
def floatTypes : List (String × Nat) :=
  [("float", 1), ("vec2", 2), ("vec3", 3), ("vec4", 4)]

/-- The types that are given integers, and how many each.  A texture is given by its unit. -/
def intTypes : List (String × Nat) :=
  [("int", 1), ("bool", 1), ("sampler2D", 1), ("ivec2", 2), ("ivec3", 3), ("ivec4", 4),
    ("bvec2", 2), ("bvec3", 3), ("bvec4", 4)]

/-- Whether data are of the sort and the size that a type asks for. -/
def OfType (type : String) : UniformData → Prop
  | floats values => (type, values.length) ∈ floatTypes
  | ints values => (type, values.length) ∈ intTypes

end UniformData

namespace ValueKind

/-- Whether uniforms of a type may have values of the kind. -/
def OfType (type : String) : ValueKind → Prop
  | float | axis => type = "float"
  | int | choice => type = "int"
  | bool => type = "bool"
  | button => type = "vec4"
  | vector size => (type, size) ∈ [("vec2", 2), ("vec3", 3), ("vec4", 4)]
  | intVector size => (type, size) ∈ [("ivec2", 2), ("ivec3", 3), ("ivec4", 4)]
  | boolVector size => (type, size) ∈ [("bvec2", 2), ("bvec3", 3), ("bvec4", 4)]
  | sampler | gradient => type = "sampler2D"

theorem OfType.unique {kind : ValueKind} {type other : String} (first : kind.OfType type)
    (second : kind.OfType other) : type = other := by
  cases kind with
  | vector | intVector | boolVector =>
    simp only [OfType, List.mem_cons, Prod.mk.injEq, List.not_mem_nil, or_false] at first second
    grind
  | _ => exact first.trans second.symm

variable {type : String} {size : Nat}

theorem OfType.vector (ofType : (vector size).OfType type) :
    (1 ≤ size ∧ size ≤ 4) ∧ (type, size) ∈ UniformData.floatTypes ∧ type ≠ "sampler2D" := by
  simp only [OfType, UniformData.floatTypes, List.mem_cons, Prod.mk.injEq, List.not_mem_nil,
    or_false] at ofType ⊢
  grind

theorem OfType.ints (ofType : (intVector size).OfType type ∨ (boolVector size).OfType type) :
    (1 ≤ size ∧ size ≤ 4) ∧ (type, size) ∈ UniformData.intTypes ∧ type ≠ "sampler2D" := by
  simp only [OfType, UniformData.intTypes, List.mem_cons, Prod.mk.injEq, List.not_mem_nil,
    or_false] at ofType ⊢
  grind

end ValueKind

namespace UniformKind

theorem length_zeroVector (size : Nat) (color : Bool) : (zeroVector size color).length = size := by
  unfold zeroVector
  split
  · rename_i opaque4
    rw [opaque4.2]
    rfl
  · exact List.length_replicate

/-- A uniform is of a kind of its type. -/
theorem ofType_classify {type : String} {settings : Metadata} {kind : UniformKind}
    (classified : classify type settings = some kind) : kind.valueKind.OfType type := by
  unfold classify at classified
  dsimp only at classified
  split at classified
  case h_1 | h_2 => split at classified <;> cases classified <;> rfl
  case h_3 =>
    cases classified
    rfl
  case h_4 | h_5 | h_6 =>
    split at classified
    · rename_i hinted
      cases classified
      exact hinted.1
    · cases classified
      dsimp only [valueKind, ValueKind.OfType]
      rw [Coercion.length_components, length_zeroVector]
      decide
  case h_7 | h_8 | h_9 =>
    cases classified
    dsimp only [valueKind, ValueKind.OfType]
    rw [Coercion.length_components, List.length_replicate]
    decide
  case h_10 | h_11 | h_12 =>
    cases classified
    dsimp only [valueKind, ValueKind.OfType]
    rw [Coercion.length_components, List.length_replicate]
    decide
  case h_13 => split at classified <;> cases classified <;> rfl
  case h_14 => cases classified

end UniformKind

/-! ### Trees -/

/-- Whether the kind of a uniform is that of its type and its settings, and its value is one of
the kind: a code that there is, a gradient with a stop, and a curve only where one may be
followed. -/
structure Uniform.Typed (uniform : Uniform) : Prop where
  classified : UniformKind.classify uniform.type uniform.settings = some uniform.kind
  kind : uniform.value.value.kind = uniform.kind.valueKind
  choice : ∀ options default code, uniform.kind = .choice options default →
    uniform.value.value = .choice code → options.containsCode code
  gradient : ∀ ramp, uniform.value.value = .gradient ramp → ramp.stops ≠ []
  curve : uniform.value.curve.isSome →
    ∃ range, (∃ default, uniform.kind = .float default range) ∨
      ∃ default, uniform.kind = .int default range

namespace Uniform

theorem Declared.Backs.typed {source : List Char} {d : Declared} {uniform : Uniform}
    (backs : d.Backs source uniform) (inside : d ∈ declared source) : uniform.Typed := by
  have type : uniform.type = d.declaration.type := congrArg Uniform.type backs.same
  have settings : uniform.settings = d.settings := congrArg Uniform.settings backs.same
  have kind : uniform.kind = d.kind := congrArg Uniform.kind backs.same
  have fits : uniform.kind.Fits uniform.value.value := kind ▸ backs.settled.fits
  refine ⟨?_, fits.kind_eq, ?_, ?_, ?_⟩
  · rw [type, settings, kind]
    obtain ⟨-, -, classified⟩ := classify_of_mem_declared inside
    exact classified
  · intro options default code given chosen
    rw [given, chosen] at fits
    exact fits
  · intro ramp shown
    rw [shown] at fits
    cases known : uniform.kind <;> rw [known] at fits <;> first | exact fits | exact fits.elim
  · intro bent
    have accepts := backs.settled.curve bent
    rw [← kind] at accepts
    cases known : uniform.kind with
    | float default range => exact ⟨range, .inl ⟨default, rfl⟩⟩
    | int default range => exact ⟨range, .inr ⟨default, rfl⟩⟩
    | _ =>
      rw [known] at accepts
      cases accepts

theorem Carries.typed {source : String} {uniforms : List Uniform}
    (carries : Carries source uniforms) : ∀ uniform ∈ uniforms, uniform.Typed := by
  intro uniform inside
  obtain ⟨d, declared, backs⟩ := exists_of_mem_right carries inside
  exact backs.typed declared

end Uniform

namespace CompiledTree

/-- The trees that compiling documents, with any earlier trees, and editing values lead to. -/
inductive Arises : CompiledTree → Prop
  | compiled {document : Layer} {previous : Option CompiledTree} {version : String}
      {device after : Device} {tree : CompiledTree}
      (ended : (compile document previous version).runOn device = (.ok tree, after)) : Arises tree
  | edited {tree after : CompiledTree} {id : String} {value : ShaderValue} {known : Bool}
      (arises : Arises tree) (done : tree.setValue id value = .ok (known, after)) : Arises after

theorem Arises.grown {tree : CompiledTree} (arises : Arises tree) :
    ∃ document, Grown document tree := by
  induction arises with
  | compiled ended => exact ⟨_, grown_of_compile ended⟩
  | edited _ done ih =>
    obtain ⟨document, grown⟩ := ih
    exact ⟨document, grown.setValue done⟩

/-- **Values fit**, whatever was stored or set. -/
theorem Arises.typed {tree : CompiledTree} (arises : Arises tree) {layer : CompiledLayer}
    (inside : layer ∈ tree.layers) {uniform : Uniform} (own : uniform ∈ layer.uniforms) :
    uniform.Typed := by
  obtain ⟨document, grown⟩ := arises.grown
  obtain ⟨placed, -, grows⟩ := exists_of_mem_right grown inside
  have kept := grows.uniforms
  split at kept
  · rw [kept] at own
    cases own
  · exact kept.typed uniform own

end CompiledTree

/-! ### Frames -/

/-- Whether a value in a frame is one that a uniform of a kind may have. -/
def FrameValue.Suits (kind : UniformKind) : FrameValue → Prop
  | .float _ => kind.valueKind.OfType "float"
  | .int _ => kind.valueKind.OfType "int"
  | .button components => kind.valueKind.OfType "vec4" ∧ components.length = 4
  | .stored value => value.kind = kind.valueKind ∧ value.kind ≠ .button ∧ value.kind ≠ .axis

namespace Uniform.Typed

variable {uniform : Uniform}

theorem suits_storedValue (typed : uniform.Typed) (frame : FrameContext) (layer : String)
    (input : InputState) :
    (InputState.storedValue frame layer uniform input).1.Suits uniform.kind := by
  have same := typed.kind
  unfold InputState.storedValue
  cases known : uniform.kind <;> cases stored : uniform.value.value <;>
    rw [known, stored] at same <;>
    first
    | cases same; done
    | exact ⟨rfl, rfl⟩
    | exact rfl
    | exact ⟨same, nofun, nofun⟩

/-- **The value of a uniform in a frame** is one of its kind. -/
theorem suits (typed : uniform.Typed) (frame : FrameContext) (levels : AudioLevels)
    (layer : String) (input : InputState) :
    (InputState.frameValue frame levels layer uniform input).1.Suits uniform.kind := by
  unfold InputState.frameValue
  cases bent : uniform.value.curve with
  | none => exact typed.suits_storedValue frame layer input
  | some curve =>
    obtain ⟨range, ⟨default, known⟩ | ⟨default, known⟩⟩ := typed.curve (by rw [bent]; rfl)
    all_goals
      have same := typed.kind
      rw [known] at same ⊢
      cases stored : uniform.value.value <;> rw [stored] at same <;> cases same
      rfl

end Uniform.Typed

namespace Renderer

variable {ℓ : Type}

/-- What a program is given: data of the type; for a texture the unit that it was put into. -/
def Delivers (type : String) (unit : Nat) (pair : Option UniformData × Nat)
    (after : Renderer ℓ) : Prop :=
  ∃ data, pair.1 = some data ∧ data.OfType type ∧
    (type = "sampler2D" → data = .ints [unit] ∧ pair.2 = unit + 1 ∧
      ∃ texture, after.device.events.head? = some (.bindTexture unit (some texture)))

theorem vectorData_eq {values : List Float} (size : 1 ≤ values.length ∧ values.length ≤ 4) :
    vectorData values = some (.floats (values.map Float.narrow)) :=
  if_pos size

theorem intVectorData_eq {values : List Int} (size : 1 ≤ values.length ∧ values.length ≤ 4) :
    intVectorData values = some (.ints (values.map wrap32)) :=
  if_pos size

theorem bindUnit_delivers {find : Action (TextureCache.State ℓ) Handle} {key : TextureKey}
    {width height : Nat} {bytes : List UInt8}
    (found : ∀ state, find.Yields state (TextureCache.Found key width height bytes state)
      (TextureCache.Failed key state)) (unit : Nat) (renderer : Renderer ℓ) :
    (do bindUnit unit (← onTextures find) : Action (Renderer ℓ) _).Yields renderer
      (Delivers "sampler2D" unit) fun failure _ => failure.OfDevice := by
  refine (Yields.within (found _)).bind (fun texture mid _ => ?_) ?_
  case refine_2 =>
    rintro failure _ ⟨_, ⟨_, _, _, cause, _, _, same, _⟩, _⟩
    exact ⟨cause, same⟩
  refine Yields.modify (Yields.pure ⟨_, rfl, ?_, fun _ => ⟨rfl, rfl, texture, rfl⟩⟩)
  exact List.mem_of_elem_eq_true rfl

variable [TextureLoader ℓ]

/-- **What suits a kind is turned into data of the type.** -/
theorem valueData_typed {type : String} {kind : UniformKind} (ofType : kind.valueKind.OfType type)
    {value : FrameValue} (suits : value.Suits kind) (unit : Nat) (renderer : Renderer ℓ) :
    (valueData unit value : Action (Renderer ℓ) _).Yields renderer (Delivers type unit)
      fun failure _ => failure.OfDevice := by
  have deliver : ∀ data : UniformData, data.OfType type → type ≠ "sampler2D" →
      (pure (some data, unit) : Action (Renderer ℓ) (Option UniformData × Nat)).Yields renderer
        (Delivers type unit) fun failure _ => failure.OfDevice :=
    fun data fits other => Yields.pure ⟨data, rfl, fits, fun same => absurd same other⟩
  cases value with
  | float value =>
    obtain rfl := ofType.unique suits
    exact deliver _ (List.mem_of_elem_eq_true rfl) (by decide)
  | int value =>
    obtain rfl := ofType.unique suits
    exact deliver _ (List.mem_of_elem_eq_true rfl) (by decide)
  | button components =>
    obtain rfl := ofType.unique suits.1
    refine deliver _ ?_ (by decide)
    dsimp only [UniformData.OfType]
    rw [suits.2]
    decide
  | stored value =>
    obtain ⟨same, button, axis⟩ := suits
    rw [← same] at ofType
    cases value with
    | button => exact absurd rfl button
    | axis => exact absurd rfl axis
    | float | int | choice | bool =>
      obtain rfl : type = _ := ofType
      exact deliver _ (List.mem_of_elem_eq_true rfl) (by decide)
    | vector values =>
      obtain ⟨size, fits, other⟩ := ofType.vector
      dsimp only [valueData]
      rw [vectorData_eq size]
      exact deliver _ (by rwa [UniformData.OfType, List.length_map]) other
    | intVector values =>
      obtain ⟨size, fits, other⟩ := ValueKind.OfType.ints (.inl ofType)
      dsimp only [valueData]
      rw [intVectorData_eq size]
      exact deliver _ (by rwa [UniformData.OfType, List.length_map]) other
    | boolVector values =>
      obtain ⟨size, fits, other⟩ := ValueKind.OfType.ints (.inr ofType)
      dsimp only [valueData]
      rw [intVectorData_eq (by rwa [List.length_map])]
      exact deliver _ (by rwa [UniformData.OfType, List.length_map, List.length_map]) other
    | sampler descriptor =>
      obtain rfl : type = _ := ofType
      exact bindUnit_delivers (TextureCache.sampler_yields descriptor) unit renderer
    | gradient ramp =>
      obtain rfl : type = _ := ofType
      exact bindUnit_delivers (TextureCache.gradient_yields ramp) unit renderer

/-- **Values fit the types of their uniforms, and so does what programs are given.**  Whatever was
compiled with whatever earlier trees, and whatever was set: the value of a uniform is one of its
kind, a choice is one of the codes, a gradient has a stop, and only numbers follow curves.  In any
frame the uniform is turned into data of its type and of no other, unless the device cannot create
a texture. -/
theorem uniformData_typed {tree : CompiledTree} (arises : tree.Arises) {layer : CompiledLayer}
    (inside : layer ∈ tree.layers) {uniform : Uniform} (own : uniform ∈ layer.uniforms) :
    uniform.Typed ∧
      ∀ (ℓ : Type) [TextureLoader ℓ] (renderer : Renderer ℓ) (frame : FrameContext) (unit : Nat),
        (uniformData frame unit layer.id uniform).Yields renderer (Delivers uniform.type unit)
          fun failure _ => failure.OfDevice := by
  have typed := arises.typed inside own
  refine ⟨typed, fun ℓ _ renderer frame unit => ?_⟩
  refine (evaluate_yields frame layer.id uniform renderer).bind ?_ fun _ _ failed => failed
  rintro value after ⟨rfl, -⟩
  exact valueData_typed (UniformKind.ofType_classify typed.classified)
    (typed.suits frame renderer.levels layer.id renderer.input) unit after

/-- The edited uniform of a shader layer on a new device. -/
theorem uniformData_typed_speed :
    ∃ tree after edited, (CompiledTree.compile (Workshop.speedLayer []) none "300 es").runOn {} =
        (.ok tree, after) ∧
      tree.setValue "a" ⟨"speed", .float 2.5, none⟩ = .ok (true, edited) ∧
      ∃ layer ∈ edited.layers, ∃ uniform ∈ layer.uniforms, layer.id = "a" ∧ uniform.Typed ∧
        ∀ (ℓ : Type) [TextureLoader ℓ] (renderer : Renderer ℓ) (frame : FrameContext) (unit : Nat),
          (uniformData frame unit layer.id uniform).Yields renderer (Delivers uniform.type unit)
            fun failure _ => failure.OfDevice := by
  obtain ⟨tree, after, compiled, -⟩ := Workshop.compile_speedLayer []
  obtain ⟨edited, layer, uniform, done, single, id, -, only, -⟩ :=
    CompiledTree.setValue_speed none (CompiledTree.compile_content compiled)
  have insideTree : layer ∈ edited.layers := single ▸ List.mem_singleton_self layer
  have insideLayer : uniform ∈ layer.uniforms := only ▸ List.mem_singleton_self uniform
  exact ⟨tree, after, edited, compiled, done, layer, insideTree, uniform, insideLayer, id,
    uniformData_typed (.edited (.compiled compiled) done) insideTree insideLayer⟩

end Renderer
end Collage
