import Collage.Proofs.Document.Reading
import Collage.Proofs.Tree.Values

/-!
# Documents that are written back

A host opens documents, compiles them, edits values and writes the values back, in any order
(`Held`).  Whatever it comes to have is proper: integers fit 64 bits and bindings are sorted, in
the document (`Layer.Sound`) and in the tree (`CompiledTree.Sound`), since every value was read
from a document or a comment, or fits its uniform.  So the document can always be read again from
its text when it is `Layer.Writable` (`Held.reads_back`); numbers that are not finite, numbers
that their texts do not give back and deep nesting are the only obstacles.
-/

namespace Collage

open Device Collage.Action
open Json (Sorted)

/-! ### Values that fit -/

/-- An integer that is read as itself fits 64 bits. -/
theorem Coercion.Whole.fits {n : Int} (whole : Whole n) : int64Lowest ≤ n ∧ n ≤ int64Highest := by
  unfold Whole at whole
  rw [integer_eq] at whole
  rcases Float.settles_integerPart (number (.int n)) with ⟨-, fits⟩ | greatest
  · rwa [whole] at fits
  · rw [whole] at greatest
    rw [greatest]
    decide

/-- A value that fits is proper. -/
theorem UniformKind.Fits.proper {kind : UniformKind} {value : Value} (fits : kind.Fits value)
    (codes : kind.WholeCodes) : value.Proper := by
  cases kind <;> cases value <;> first
    | exact fits.elim
    | trivial
    | exact fits
    | exact Coercion.Whole.fits fits
    | exact fun n inside => Coercion.Whole.fits (fits.2 n inside)
    | skip
  rename_i options default code
  obtain ⟨option, inside, same⟩ := List.any_eq_true.mp fits
  exact of_decide_eq_true same ▸ (codes option inside).fits

/-! ### Curves -/

/-- Whether the curve of a value has sorted bindings. -/
def ShaderValue.Bends (value : ShaderValue) : Prop :=
  ∀ curve ∈ value.curve, curve.Proper

theorem ShaderValue.Bends.filter {value : ShaderValue} (bends : value.Bends) {name : String}
    {payload : Value} {p : Curve → Bool} :
    (⟨name, payload, value.curve.filter p⟩ : ShaderValue).Bends := by
  intro curve inside
  exact bends curve (Option.filter_eq_some_iff.mp inside).1

theorem Metadata.proper_curve (comment : String) : ∀ curve ∈ (parse comment).curve, curve.Proper := by
  intro curve inside
  unfold parse at inside
  split at inside
  · obtain ⟨json, -, found⟩ := Option.bind_eq_some_iff.mp inside
    exact Curve.proper_of_decode found
  · cases inside

namespace Uniform

theorem Declared.bends_freshValue {source : List Char} {d : Declared}
    (inside : d ∈ declared source) : (freshValue d).Bends := by
  obtain ⟨comment, same, -⟩ := classify_of_mem_declared inside
  intro curve bent
  have bent := (Option.filter_eq_some_iff.mp bent).1
  rw [same] at bent
  exact Metadata.proper_curve comment curve bent

theorem bends_reconcileFrom {source : List Char} (names : List String)
    {previous : List ShaderValue} (bends : ∀ value ∈ previous, value.Bends) :
    ∀ (uniforms : List Declared) (consumed : List Nat) (index : Nat),
      (∀ d ∈ uniforms, d ∈ declared source) →
      ∀ value ∈ reconcileFrom names previous consumed index uniforms, value.Bends
  | [], _, _, _ => fun _ inside => absurd inside List.not_mem_nil
  | d :: rest, consumed, index, known => by
    obtain ⟨first, others⟩ := List.forall_mem_cons.mp known
    unfold reconcileFrom
    split
    · refine List.forall_mem_cons.mpr
        ⟨?_, bends_reconcileFrom names bends rest _ _ others⟩
      split
      · rename_i stored found
        unfold keptValue
        split
        · exact (bends stored (List.mem_of_getElem? found)).filter
        · exact Declared.bends_freshValue first
      · exact Declared.bends_freshValue first
    · exact List.forall_mem_cons.mpr
        ⟨Declared.bends_freshValue first, bends_reconcileFrom names bends rest _ _ others⟩

/-- Extracted uniforms follow curves with sorted bindings when the stored values do. -/
theorem bends_extract (source : String) {previous : List ShaderValue}
    (bends : ∀ value ∈ previous, value.Bends) :
    ∀ uniform ∈ extract source previous, uniform.value.Bends := by
  intro uniform inside
  unfold extract at inside
  dsimp only at inside
  rw [← List.map_uncurry_zip_eq_zipWith] at inside
  obtain ⟨⟨d, value⟩, pair, rfl⟩ := List.mem_map.mp inside
  exact bends_reconcileFrom _ bends _ [] 0 (fun _ known => known) value (List.of_mem_zip pair).2

end Uniform

/-! ### Documents -/

theorem exists_of_bind_eq_ok {ε α β : Type} {first : Except ε α} {next : α → Except ε β} {b : β}
    (done : first >>= next = .ok b) : ∃ a, first = .ok a ∧ next a = .ok b := by
  cases first with
  | error fault => cases done
  | ok a => exact ⟨a, rfl, done⟩

namespace Layer

/-- Whether all that stands in a document is proper: bindings are sorted, integers fit 64 bits,
and no list of choices is longer than a double can number. -/
def Sound : Layer → Prop :=
  All fun layer => (∀ value ∈ layer.values, value.Proper) ∧
    ∀ source, layer.source? = some source →
      ∀ d ∈ Uniform.declared source.toList, d.settings.Countable

mutual

theorem All.and {p q r : Layer → Prop} (h : ∀ layer, p layer → q layer → r layer) :
    ∀ {layer : Layer}, layer.All p → layer.All q → layer.All r
  | group .., first, second => ⟨h _ first.1 second.1, All.andIn h first.2 second.2⟩
  | code .., first, second => h _ first second
  | distance .., first, second => ⟨h _ first.1 second.1, All.andIn h first.2 second.2⟩

theorem All.andIn {p q r : Layer → Prop} (h : ∀ layer, p layer → q layer → r layer) :
    ∀ {layers : List Layer}, AllIn p layers → AllIn q layers → AllIn r layers
  | [], _, _ => trivial
  | _ :: _, first, second => ⟨All.and h first.1 second.1, All.andIn h first.2 second.2⟩

end

mutual

theorem All.placedAt {p : Layer → Prop} (parent : Option Nat) (place : Nat) : ∀ {layer : Layer},
    layer.All p → ∀ placed ∈ Layer.placedAt parent place layer, p placed.layer
  | group .., all => by
    rw [Layer.placedAt]
    exact List.forall_mem_cons.mpr ⟨all.1, All.placedIn false place (place + 1) all.2⟩
  | code .., all => by
    rw [Layer.placedAt]
    exact List.forall_mem_singleton.mpr all
  | distance .., all => by
    rw [Layer.placedAt]
    exact List.forall_mem_cons.mpr ⟨all.1, All.placedIn true place (place + 1) all.2⟩

theorem All.placedIn {p : Layer → Prop} (inDistance : Bool) (parent place : Nat) :
    ∀ {layers : List Layer}, AllIn p layers →
      ∀ placed ∈ Layer.placedIn inDistance parent place layers, p placed.layer
  | [], _ => by
    rw [Layer.placedIn]
    exact List.forall_mem_nil _
  | layer :: rest, all => by
    rw [Layer.placedIn]
    split
    · exact List.forall_mem_append.mpr ⟨All.placedAt (some parent) place all.1,
        All.placedIn inDistance parent (place + placeCount layer) all.2⟩
    · exact All.placedIn inDistance parent place all.2

end

/-- Whether what holds of a layer depends on its code and its values only. -/
def Local (p : Layer → Prop) : Prop :=
  ∀ layer other : Layer, layer.source? = other.source? → layer.values = other.values →
    p layer → p other

mutual

/-- Editing one layer keeps what holds of all when the edit does. -/
theorem All.editFirst? {p : Layer → Prop} (own : Local p) {edit : Layer → Layer}
    (keeps : ∀ layer : Layer, layer.All p → (edit layer).All p) {id : String} :
    ∀ {layer edited : Layer}, layer.All p → Layer.editFirst? id edit layer = some edited →
      edited.All p
  | group head blend opacity children, edited, all, done => by
    rw [Layer.editFirst?] at done
    split at done
    · cases done
      exact keeps _ all
    · obtain ⟨inner, changed, rfl⟩ := Option.map_eq_some_iff.mp done
      exact ⟨own (group head blend opacity children) _ rfl rfl all.1,
        All.editFirstIn? own keeps all.2 changed⟩
  | code language head blend opacity source values, edited, all, done => by
    rw [Layer.editFirst?] at done
    split at done
    · cases done
      exact keeps _ all
    · cases done
  | distance head source values operands, edited, all, done => by
    rw [Layer.editFirst?] at done
    split at done
    · cases done
      exact keeps _ all
    · obtain ⟨inner, changed, rfl⟩ := Option.map_eq_some_iff.mp done
      exact ⟨own (distance head source values operands) _ rfl rfl all.1,
        All.editFirstIn? own keeps all.2 changed⟩

theorem All.editFirstIn? {p : Layer → Prop} (own : Local p) {edit : Layer → Layer}
    (keeps : ∀ layer : Layer, layer.All p → (edit layer).All p) {id : String} :
    ∀ {layers edited : List Layer}, AllIn p layers →
      Layer.editFirstIn? id edit layers = some edited → AllIn p edited
  | [], _, _, done => by cases done
  | layer :: rest, edited, all, done => by
    rw [Layer.editFirstIn?] at done
    split at done
    · rename_i first changed
      cases done
      exact ⟨All.editFirst? own keeps all.1 changed, all.2⟩
    · obtain ⟨others, changed, rfl⟩ := Option.map_eq_some_iff.mp done
      exact ⟨all.1, All.editFirstIn? own keeps all.2 changed⟩

end

/-- Proper values may be stored. -/
theorem Sound.editValues {document : Layer} (sound : document.Sound) (id : String)
    {values : List ShaderValue} (proper : ∀ value ∈ values, value.Proper) :
    (document.editValues id values).Sound := by
  unfold Layer.editValues
  cases done : document.editFirst? id (withValues values) with
  | none => exact sound
  | some edited =>
    refine All.editFirst? (fun layer other source stored fine => ?_) (fun layer fine => ?_) sound
      done
    · rw [← source, ← stored]
      exact fine
    · cases layer with
      | group => exact fine
      | code => exact ⟨proper, fine.2⟩
      | distance => exact ⟨⟨proper, fine.1.2⟩, fine.2⟩

/-- A document that was read is sound, but for the length of lists of choices. -/
theorem Sound.of_read {text : String} {document : Layer} (accepted : Layer.read text = .ok document)
    (countable : document.All fun layer => ∀ source, layer.source? = some source →
      ∀ d ∈ Uniform.declared source.toList, d.settings.Countable) : document.Sound := by
  have decoded : ∃ index body, decodeRoot index body = some document := by
    unfold Layer.read at accepted
    dsimp only at accepted
    split at accepted
    case h_3 =>
      obtain ⟨_, -, accepted⟩ := exists_of_bind_eq_ok accepted
      cases accepted
    all_goals
      obtain ⟨⟨⟨index, body⟩, rest⟩, -, accepted⟩ := exists_of_bind_eq_ok accepted
      dsimp only at accepted
      split at accepted
      · cases accepted
      · rename_i found
        obtain ⟨_, -, same⟩ := exists_of_bind_eq_ok accepted
        cases same
        exact ⟨index, body, found⟩
  obtain ⟨index, body, decoded⟩ := decoded
  exact All.and (fun _ => And.intro) (proper_of_decodeRoot decoded) countable

theorem Sound.proper {document : Layer} (sound : document.Sound) : document.Proper :=
  All.and (fun _ fine _ => fine.1) sound sound

theorem Sound.countable {document : Layer} (sound : document.Sound) : document.Countable :=
  fun placed inside => (All.placedAt none 0 sound placed inside).2

end Layer

/-! ### Trees -/

namespace CompiledTree

/-- Whether a tree may have come from sound documents: all values fit uniforms of one, and their
curves have sorted bindings. -/
structure Sound (tree : CompiledTree) : Prop where
  grown : ∃ document : Layer, document.Countable ∧ Grown document tree
  bends : ∀ layer ∈ tree.layers, ∀ value ∈ layer.values, value.Bends

theorem Sound.proper {tree : CompiledTree} (sound : tree.Sound) :
    ∀ layer ∈ tree.layers, ∀ value ∈ layer.values, value.Proper := by
  obtain ⟨document, countable, grown⟩ := sound.grown
  intro layer inside value own
  refine ⟨?_, sound.bends layer inside value own⟩
  obtain ⟨uniform, there, rfl⟩ := List.mem_map.mp own
  obtain ⟨placed, insidePlaced, grows⟩ := exists_of_mem_right grown inside
  have kept := grows.uniforms
  cases given : placed.layer.source? with
  | none =>
    rw [given] at kept
    rw [kept] at there
    cases there
  | some source =>
    rw [given] at kept
    obtain ⟨d, declared, backs⟩ := exists_of_mem_right kept there
    obtain ⟨comment, -, classified⟩ := Uniform.classify_of_mem_declared declared
    exact backs.settled.fits.proper
      (UniformKind.wholeCodes_classify (countable placed insidePlaced source given d declared)
        classified)

/-- The values that are known of a layer have curves with sorted bindings. -/
theorem bends_valuesFor {version : String} {previous : Option CompiledTree}
    (earlier : ∀ tree ∈ previous, tree.Sound) (device : Device) {layer : Layer}
    (stored : ∀ value ∈ layer.values, value.Proper) :
    ∀ value ∈ (Legacy.ofPrevious version previous device).1.valuesFor layer, value.Bends := by
  cases previous with
  | none => exact fun value inside => (stored value inside).2
  | some tree =>
    rw [valuesFor_ofPrevious, knownValues]
    cases known : tree.valuesOf? layer.id with
    | none => exact fun value inside => (stored value inside).2
    | some values =>
      obtain ⟨other, found, rfl⟩ := Option.map_eq_some_iff.mp known
      exact (earlier tree rfl).bends other (List.mem_reverse.mp (List.mem_of_find?_eq_some found))

/-- **Compiling a sound document** gives a sound tree. -/
theorem sound_of_compile {document : Layer} (sound : document.Sound)
    {previous : Option CompiledTree} (earlier : ∀ tree ∈ previous, tree.Sound) {version : String}
    {device after : Device} {tree : CompiledTree}
    (ended : (compile document previous version).runOn device = (.ok tree, after)) :
    tree.Sound := by
  refine ⟨⟨document, sound.countable, grown_of_compile ended⟩, fun layer inside value own => ?_⟩
  have content : layer.content ∈ tree.layers.map CompiledLayer.content :=
    List.mem_map_of_mem inside
  rw [compile_content ended] at content
  obtain ⟨placed, there, same⟩ := List.mem_map.mp content
  obtain ⟨uniform, there', rfl⟩ := List.mem_map.mp own
  have unplaced : uniform.unplaced ∈ layer.uniforms.map Uniform.unplaced :=
    List.mem_map_of_mem there'
  have uniforms : _ = layer.uniforms.map Uniform.unplaced := congrArg (fun c => c.2.2) same
  rw [← uniforms] at unplaced
  have stored := (Layer.All.placedAt none 0 sound placed there).1
  dsimp only [Layer.content] at unplaced
  split at unplaced
  · cases unplaced
  · have bends := Uniform.bends_extract _ (bends_valuesFor earlier device stored) _ unplaced
    exact bends

theorem bends_editUniform? {value : ShaderValue} (bends : value.Bends) :
    ∀ {uniforms edited : List Uniform}, editUniform? value uniforms = some edited →
      (∀ uniform ∈ uniforms, uniform.value.Bends) → ∀ uniform ∈ edited, uniform.value.Bends
  | [], _, done, _ => by cases done
  | uniform :: rest, edited, done, each => by
    obtain ⟨first, others⟩ := List.forall_mem_cons.mp each
    unfold editUniform? at done
    split at done
    · cases done
      exact List.forall_mem_cons.mpr ⟨bends.filter, others⟩
    · obtain ⟨after, later, rfl⟩ := Option.map_eq_some_iff.mp done
      exact List.forall_mem_cons.mpr ⟨first, bends_editUniform? bends later others⟩

/-- **Editing a sound tree** gives a sound tree. -/
theorem Sound.setValue {tree edited : CompiledTree} (sound : tree.Sound) {id : String}
    {value : ShaderValue} (bends : value.Bends) {known : Bool}
    (done : tree.setValue id value = .ok (known, edited)) : edited.Sound := by
  obtain ⟨document, countable, grown⟩ := sound.grown
  refine ⟨⟨document, countable, grown.setValue done⟩, ?_⟩
  unfold CompiledTree.setValue at done
  split at done
  · cases done
  · rename_i place _
    split at done
    · cases done
      exact sound.bends
    · rename_i uniforms found
      cases done
      obtain ⟨layer, there, found⟩ := Option.bind_eq_some_iff.mp found
      intro other inside value own
      obtain ⟨index, changed⟩ := List.mem_iff_getElem?.mp inside
      rw [List.getElem?_modify] at changed
      obtain ⟨old, was, rfl⟩ := Option.map_eq_some_iff.mp changed
      split at own
      · rename_i here
        cases there.symm.trans (here ▸ was)
        obtain ⟨uniform, inside, rfl⟩ := List.mem_map.mp own
        exact bends_editUniform? bends found (fun uniform inside =>
          sound.bends layer (List.mem_of_getElem? was) _ (List.mem_map_of_mem inside)) uniform inside
      · exact sound.bends old (List.mem_of_getElem? was) value own

/-- **Writing the values of a sound tree back** keeps a document sound. -/
theorem Sound.writeValues {tree : CompiledTree} (sound : tree.Sound) {document : Layer}
    (fine : document.Sound) : (tree.writeValues document).Sound := by
  have proper := sound.proper
  unfold CompiledTree.writeValues
  generalize tree.layers = layers at proper
  induction layers generalizing document with
  | nil => exact fine
  | cons layer layers ih =>
    obtain ⟨first, others⟩ := List.forall_mem_cons.mp proper
    refine ih ?_ others
    unfold writeLayer
    split
    · exact fine
    · exact fine.editValues layer.id first

end CompiledTree

/-! ### Hosts -/

/-- The documents and trees that a host comes to have. -/
inductive Held : Layer → Option CompiledTree → Prop
  /-- a document is opened; a tree that there is may serve for it too -/
  | opened {text : String} {document : Layer} (accepted : Layer.read text = .ok document)
      (countable : document.All fun layer => ∀ source, layer.source? = some source →
        ∀ d ∈ Uniform.declared source.toList, d.settings.Countable) : Held document none
  | reopened {other document : Layer} {tree : Option CompiledTree} (held : Held other tree)
      (opened : Held document none) : Held document tree
  /-- the document is compiled, with the tree that there is or without one -/
  | compiled {document : Layer} {previous : Option CompiledTree} {version : String}
      {device after : Device} {tree : CompiledTree} (held : Held document previous)
      (ended : (CompiledTree.compile document previous version).runOn device = (.ok tree, after)) :
      Held document (some tree)
  | edited {document : Layer} {tree edited : CompiledTree} {id : String} {value : ShaderValue}
      {known : Bool} (held : Held document (some tree)) (proper : value.Proper)
      (done : tree.setValue id value = .ok (known, edited)) : Held document (some edited)
  /-- the values are written back -/
  | written {document : Layer} {tree : CompiledTree} (held : Held document (some tree)) :
      Held (tree.writeValues document) (some tree)

namespace Held

variable {document : Layer} {tree : Option CompiledTree}

/-- **Whatever a host has is sound.** -/
theorem sound (held : Held document tree) : document.Sound ∧ ∀ one ∈ tree, one.Sound := by
  induction held with
  | opened accepted countable =>
    exact ⟨Layer.Sound.of_read accepted countable, fun _ none => nomatch none⟩
  | reopened held opened earlier fine => exact ⟨fine.1, earlier.2⟩
  | compiled held ended earlier =>
    refine ⟨earlier.1, fun one same => ?_⟩
    cases same
    exact CompiledTree.sound_of_compile earlier.1 earlier.2 ended
  | edited held proper done earlier =>
    refine ⟨earlier.1, fun one same => ?_⟩
    cases same
    exact (earlier.2 _ rfl).setValue proper.2 done
  | written held earlier => exact ⟨(earlier.2 _ rfl).writeValues earlier.1, earlier.2⟩

/-- **Every document can be read again**, whatever was opened, compiled, edited and written back,
when all its numbers are finite and are read from their own texts, and when it is not nested
deeper than the reader goes: its text is read as the very document. -/
theorem reads_back (held : Held document tree) (writable : document.Writable) :
    Layer.read document.pretty = .ok document :=
  Layer.read_pretty held.sound.1.proper writable

end Held

/-! ### One layer -/

theorem Layer.editFirst?_self (edit : Layer → Layer) (layer : Layer) :
    layer.editFirst? layer.id edit = some (edit layer) := by
  cases layer <;> exact if_pos rfl

theorem CompiledTree.writeValues_single {tree : CompiledTree} {layer : CompiledLayer}
    (single : tree.layers = [layer]) (shows : layer.isGroup = false) {document : Layer}
    (own : document.id = layer.id) :
    tree.writeValues document = document.withValues layer.values := by
  unfold CompiledTree.writeValues
  rw [single, List.foldl_cons, List.foldl_nil, CompiledTree.writeLayer, shows, ← own]
  unfold Layer.editValues
  rw [if_neg Bool.false_ne_true, Layer.editFirst?_self, Option.getD_some]

namespace Held

open Workshop (speedLayer)

theorem writable_speedLayer : (speedLayer [⟨"speed", .float 2.5, none⟩]).Writable where
  finite := by
    refine ⟨fun opacity one => ?_, List.forall_mem_singleton.mpr ⟨?_, fun _ none => nomatch none⟩⟩
    · cases one
      decide +kernel
    · change Float.isFinite _ = true
      decide +kernel
  legible := by
    have full : Float32.Legible 1 := by decide +kernel
    have speed : Float.Legible 2.5 := by decide +kernel
    rw [Layer.encode_eq]
    exact ⟨trivial, trivial, trivial, trivial, trivial, Json.legible_ofSingle full, trivial,
      ⟨⟨trivial, trivial, Json.legible_ofDouble speed, trivial⟩, trivial⟩, trivial⟩
  shallow := by
    rw [Layer.encode_eq]
    decide

theorem opened_speedLayer : Held (speedLayer []) none := by
  have accepted : Layer.read ("\x7b\"type\": \"shader\", \"id\": \"a\", \"code\": " ++
      "\"uniform float speed;\"\x7d") = .ok (speedLayer []) :=
    Layer.read_eq_code (by decide +kernel)
  refine .opened accepted fun source given => ?_
  cases given
  exact CompiledTree.countable_speedUniform

/-- An edited value of a shader layer that is written back. -/
theorem reads_back_speed :
    ∃ tree after edited, (CompiledTree.compile (speedLayer []) none "300 es").runOn {} =
        (.ok tree, after) ∧
      tree.setValue "a" ⟨"speed", .float 2.5, none⟩ = .ok (true, edited) ∧
      edited.writeValues (speedLayer []) = speedLayer [⟨"speed", .float 2.5, none⟩] ∧
      (speedLayer [⟨"speed", .float 2.5, none⟩]).Writable ∧
      Layer.read (speedLayer [⟨"speed", .float 2.5, none⟩]).pretty =
        .ok (speedLayer [⟨"speed", .float 2.5, none⟩]) := by
  obtain ⟨tree, after, compiled, -⟩ := Workshop.compile_speedLayer []
  obtain ⟨edited, layer, uniform, done, single, own, shows, only, same⟩ :=
    CompiledTree.setValue_speed none (CompiledTree.compile_content compiled)
  have proper : CompiledTree.faster.2.Proper := ⟨trivial, fun _ none => nomatch none⟩
  have held := Held.written (.edited (.compiled opened_speedLayer compiled) proper done)
  have root : (speedLayer []).id = layer.id := own.symm
  have written : edited.writeValues (speedLayer []) = speedLayer [⟨"speed", .float 2.5, none⟩] := by
    rw [CompiledTree.writeValues_single single shows root, CompiledLayer.values, only,
      List.map_singleton, same]
    rfl
  exact ⟨tree, after, edited, compiled, done, written, writable_speedLayer,
    reads_back (written ▸ held) writable_speedLayer⟩

/-- Code that declares a uniform which starts at infinity. -/
def boundlessCode : String :=
  "uniform float x; // default: \"Infinity\""

/-- A shader layer with that code. -/
def boundlessLayer (values : List ShaderValue) : Layer :=
  .code .shader ⟨"a", "", true⟩ .normal 1 boundlessCode values

/-- **Infinite defaults are written as nothing**: a document whose uniform starts at infinity is
compiled, and after its values were written back its text is not read. -/
theorem exists_unread : ∃ tree after,
    Layer.read ("\x7b\"type\": \"shader\", \"id\": \"a\", \"code\": " ++
      "\"uniform float x; // default: \\\"Infinity\\\"\"\x7d") = .ok (boundlessLayer []) ∧
    (CompiledTree.compile (boundlessLayer []) none "300 es").runOn {} = (.ok tree, after) ∧
    ∀ again, Layer.read (tree.writeValues (boundlessLayer [])).pretty ≠ .ok again := by
  have accepted : Layer.read ("\x7b\"type\": \"shader\", \"id\": \"a\", \"code\": " ++
      "\"uniform float x; // default: \\\"Infinity\\\"\"\x7d") = .ok (boundlessLayer []) :=
    Layer.read_eq_code (by decide +kernel)
  have plain : mentions boundlessCode.toList "gSdf".toList = false := by
    decide
  obtain ⟨tree, after, compiled, -⟩ := Workshop.compile_plain plain ⟨"a", "", true⟩ []
  have content : tree.layers.map CompiledLayer.content =
      [("a", false, Uniform.extract boundlessCode [])] :=
    CompiledTree.compile_content compiled
  obtain ⟨layer, single, same⟩ := List.map_eq_singleton_iff.mp content
  obtain ⟨own, rest⟩ := Prod.mk.inj same
  obtain ⟨shows, uniforms⟩ := Prod.mk.inj rest
  have values := congrArg (List.map fun u : Uniform => u.value) uniforms
  rw [List.map_map] at values
  have root : (boundlessLayer []).id = layer.id := own.symm
  have written : tree.writeValues (boundlessLayer []) =
      boundlessLayer ((Uniform.extract boundlessCode []).map fun u => u.value) := by
    rw [CompiledTree.writeValues_single single shows root, ← values]
    rfl
  have fails : (Layer.read (boundlessLayer ((Uniform.extract boundlessCode []).map
      fun u => u.value)).pretty).toOption.isNone = true := by
    rw [Layer.read_of_brace (Layer.toList_pretty _)]
    decide +kernel
  refine ⟨tree, after, accepted, compiled, fun again readable => ?_⟩
  rw [← written, readable] at fails
  cases fails

end Held
end Collage
