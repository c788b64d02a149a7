import Collage.Proofs.Scene.Functions
import Collage.Proofs.Scene.Program

/-!
# What a scene evaluates

The program of a scene is run by defining its functions one after another (`run`).  A
definition can be run if its name is new and if all that it calls has been defined, for
operands such as these.  What the code of a layer computes is left open: it is a function of
the operands that the layer receives and of the function that passes on operands, and it may
evaluate only what it received (`CallsOnlyReceived`).

The graph has a value as well: that of a node is what the code of its layer computes over the
values of its children (`valueOf`).

`Ready` says of the nodes whose definitions have been run that their functions, called with
their children, compute their values.  `Ready.concat` adds a node: its children are before it,
so the switch of its dispatcher finds the value of each (`Ready.functionOf_dispatcher`).
Therefore the scene computes the value of the root (`exists_run`).

`build_dispatches` puts together what is known of the code of a scene whose nodes have
suffixes of their own: its text, its calls (`Dispatches`) and what it computes.
-/

namespace Collage
namespace Scene

/-! ### What the code computes -/

/-- What a function computes in a context, which it may change. -/
abbrev Field (Context Result : Type) := Context → Result × Context

/-- What the code of layers computes from the operands it receives and the function that
passes on operands. -/
abbrev Bodies (Context Result : Type) :=
  NodeOwner → Passed → (Nat → Field Context Result) → Field Context Result

/-- The code of layers evaluates only operands it received. -/
def CallsOnlyReceived {Context Result : Type} (bodies : Bodies Context Result) : Prop :=
  ∀ owner passed dispatch dispatch', (∀ id ∈ Passed.received passed, dispatch id = dispatch' id) →
    bodies owner passed dispatch = bodies owner passed dispatch'

/-- A function that has been defined. -/
inductive Function (Context Result : Type)
  | map (arity : Arity) (apply : Passed → Field Context Result)
  | dispatcher (apply : Nat → Field Context Result)
  | scene (field : Field Context Result)

/-- The functions that have been defined, by their names. -/
abbrev Environment (Context Result : Type) := List (String × Function Context Result)

/-- Whether a function of an arity can be called so. -/
def accepts : Arity → Passed → Bool
  | .fixed count, .each ids => ids.length = count
  | .variadic, .packed count ids =>
    ids.length = ShaderLibrary.maxOperands ∧ count ≤ ShaderLibrary.maxOperands
  | _, _ => false

section

variable {Context Result : Type} (bodies : Bodies Context Result) (empty : Field Context Result)

/-- What a call computes, if it calls a function that has been defined. -/
def resolve (env : Environment Context Result) (call : NodeCall) : Option (Field Context Result) :=
  match env.lookup ("map_" ++ call.suffix) with
  | some (.map arity apply) => if accepts arity call.passed then some (apply call.passed) else none
  | _ => none

/-- The function that a definition defines, if all that it calls has been defined.  An operand
that has no case is empty. -/
def functionOf (env : Environment Context Result) :
    Definition → Option (Function Context Result)
  | .dispatcher _ cases => do
    let fields ← cases.mapM fun (label, call) => (resolve env call).map (label, ·)
    return .dispatcher fun id => (fields.lookup id).getD empty
  | .layer suffix owner arity _ =>
    match env.lookup ("gSdfMap_" ++ suffix) with
    | some (.dispatcher dispatch) => some (.map arity fun passed => bodies owner passed dispatch)
    | _ => none
  | .scene none => some (.scene empty)
  | .scene (some call) => (resolve env call).map .scene

/-- The functions after one more definition: no name can be defined twice. -/
def define (env : Environment Context Result) (definition : Definition) :
    Option (Environment Context Result) :=
  if (env.lookup definition.name).isSome then none
  else (functionOf bodies empty env definition).map fun function =>
    (definition.name, function) :: env

/-- The functions after definitions, one after another. -/
def run (definitions : List Definition) (env : Environment Context Result) :
    Option (Environment Context Result) :=
  definitions.foldlM (define bodies empty) env

/-- What a node of a graph computes: the code of its layer over its children, which are nodes
before it. -/
def valueOf (layers : List SceneLayer) (graph : SceneGraph) (id : Nat) : Field Context Result :=
  match graph.nodes[id]? with
  | none => empty
  | some node =>
    bodies node.owner (callOf layers node).passed fun child =>
      if child < id then valueOf layers graph child else empty
termination_by id

end

/-! ### Names -/

theorem map_name_inj {suffix suffix' : String} (h : "map_" ++ suffix = "map_" ++ suffix') :
    suffix = suffix' := by
  rw [← String.toList_inj, String.toList_append, String.toList_append] at h
  exact String.toList_inj.mp (List.append_cancel_left h)

theorem dispatcher_name_inj {suffix suffix' : String}
    (h : "gSdfMap_" ++ suffix = "gSdfMap_" ++ suffix') : suffix = suffix' := by
  rw [← String.toList_inj, String.toList_append, String.toList_append] at h
  exact String.toList_inj.mp (List.append_cancel_left h)

theorem map_name_ne (suffix suffix' : String) : "map_" ++ suffix ≠ "gSdfMap_" ++ suffix' := by
  intro h
  rw [← String.toList_inj, String.toList_append, String.toList_append] at h
  exact absurd (List.cons.inj h).1 (by decide)

theorem scene_name_ne (suffix : String) :
    "gSdfScene" ≠ "map_" ++ suffix ∧ "gSdfScene" ≠ "gSdfMap_" ++ suffix := by
  constructor
  · intro h
    rw [← String.toList_inj, String.toList_append] at h
    exact absurd (List.cons.inj h).1 (by decide)
  · intro h
    rw [← String.toList_inj, String.toList_append] at h
    have fifth := congrArg (·[4]?) h
    exact absurd fifth (by simp)

variable {layers : List SceneLayer} {graph : SceneGraph}

/-- **Where the suffixes of nodes differ, nothing is defined twice.** -/
theorem nodup_names (distinct : (graph.nodes.map (suffixOf layers)).Nodup) :
    ((program layers graph).map Definition.name).Nodup := by
  have names : (program layers graph).map Definition.name =
      ((graph.nodes.map (suffixOf layers)).flatMap fun suffix =>
        ["gSdfMap_" ++ suffix, "map_" ++ suffix]) ++ ["gSdfScene"] := by
    unfold program
    rw [List.map_append, List.map_flatMap, List.flatMap_map]
    rfl
  rw [names, List.nodup_append]
  refine ⟨List.nodup_flatMap.mpr ⟨?_, ?_⟩, List.nodup_singleton _, ?_⟩
  · intro suffix _
    simp [(map_name_ne suffix suffix).symm]
  · refine distinct.imp fun {suffix suffix'} different => ?_
    intro name inside inside'
    simp only [List.mem_cons, List.not_mem_nil, or_false] at inside inside'
    rcases inside with rfl | rfl <;> rcases inside' with same | same
    · exact different (dispatcher_name_inj same)
    · exact map_name_ne _ _ same.symm
    · exact map_name_ne _ _ same
    · exact different (map_name_inj same)
  · intro name inside other isScene same
    obtain ⟨suffix, _, inside⟩ := List.mem_flatMap.mp inside
    rw [List.mem_singleton.mp isScene] at same
    subst same
    simp only [List.mem_cons, List.not_mem_nil, or_false] at inside
    exact inside.elim (scene_name_ne suffix).2 (scene_name_ne suffix).1

/-! ### Running a program -/

section

variable {Context Result : Type} {bodies : Bodies Context Result} {empty : Field Context Result}

theorem lookup_eq_none {env : Environment Context Result} {name : String}
    (fresh : name ∉ env.map (·.1)) : env.lookup name = none := by
  rw [List.lookup_eq_none_iff]
  intro entry inside
  rw [bne_iff_ne]
  rintro rfl
  exact fresh (List.mem_map_of_mem inside)

theorem run_append (definitions more : List Definition) (env : Environment Context Result) :
    run bodies empty (definitions ++ more) env =
      (run bodies empty definitions env).bind (run bodies empty more) := by
  unfold run
  rw [List.foldlM_append]
  rfl

theorem define_eq {env : Environment Context Result} {definition : Definition}
    {function : Function Context Result} (fresh : definition.name ∉ env.map (·.1))
    (makes : functionOf bodies empty env definition = some function) :
    define bodies empty env definition = some ((definition.name, function) :: env) := by
  unfold define
  rw [lookup_eq_none fresh, makes]
  rfl

theorem accepts_of_fits {children : List Nat} {arity : Arity} {passed : Passed}
    (h : Fits children arity passed) : accepts arity passed = true := by
  cases h with
  | each => simp [accepts]
  | packed size operands _ =>
    have few := congrArg List.length operands
    rw [List.length_take] at few
    simp only [accepts, size, decide_eq_true_eq, true_and]
    omega

/-- What has been defined when the code of some nodes has been run: the function of each of
them, and called with its children it computes the value of the node. -/
structure Ready (bodies : Bodies Context Result) (empty : Field Context Result)
    (layers : List SceneLayer) (graph : SceneGraph) (done : List SceneNode)
    (env : Environment Context Result) : Prop where
  names : env.map (·.1) =
    ((done.flatMap (definitionsOf layers graph)).map Definition.name).reverse
  maps : ∀ node ∈ done, ∃ apply,
    env.lookup ("map_" ++ suffixOf layers node) = some (.map (arityOf layers node) apply) ∧
      apply (callOf layers node).passed = valueOf bodies empty layers graph node.id

theorem ready_nil : Ready bodies empty layers graph [] [] :=
  ⟨rfl, fun _ inside => nomatch inside⟩

/-- A call of a node that has been defined computes its value. -/
theorem Ready.resolve_eq {done : List SceneNode} {env : Environment Context Result}
    (ready : Ready bodies empty layers graph done env) {node : SceneNode} (inside : node ∈ done)
    (takes : SceneGraph.Takes (sourcesOf layers) node.children.length node.owner) :
    resolve env (callOf layers node) = some (valueOf bodies empty layers graph node.id) := by
  obtain ⟨apply, found, value⟩ := ready.maps node inside
  unfold resolve
  rw [show (callOf layers node).suffix = suffixOf layers node from rfl, found]
  dsimp only
  rw [if_pos (accepts_of_fits (fits_callOf takes)), value]

theorem mapM_eq_some {α β : Type} {f : α → Option β} {g : α → β} : ∀ {items : List α},
    (∀ item ∈ items, f item = some (g item)) → items.mapM f = some (items.map g)
  | [], _ => rfl
  | item :: rest, h => by
    rw [List.mapM_cons, h item List.mem_cons_self,
      mapM_eq_some fun other inside => h other (List.mem_cons_of_mem _ inside)]
    rfl

/-- The field that stands for an operand in a switch. -/
theorem lookup_map {β : Type} (g : Nat → β) (labels : List Nat) (id : Nat) :
    (labels.map fun label => (label, g label)).lookup id =
      if id ∈ labels then some (g id) else none := by
  induction labels with
  | nil => rfl
  | cons label rest ih =>
    rw [List.map_cons, List.lookup_cons, ih]
    by_cases same : id = label
    · subst same
      simp
    · rw [beq_eq_false_iff_ne.mpr same]
      simp [same]

/-- The switch of a dispatcher evaluates the children. -/
theorem Ready.functionOf_dispatcher {done rest : List SceneNode} {node : SceneNode}
    {env : Environment Context Result} (ready : Ready bodies empty layers graph done env)
    (forest : SceneGraph.Forest (sourcesOf layers) graph graph.root.toList)
    (split : graph.nodes = done ++ node :: rest) (suffix : String) :
    functionOf bodies empty env (.dispatcher suffix (casesOf layers graph node)) =
      some (.dispatcher fun id =>
        if id ∈ node.children then valueOf bodies empty layers graph id else empty) := by
  have inside : node ∈ graph.nodes := by rw [split]; simp
  have place : node.id = done.length := forest.placed _ node (by rw [split]; simp)
  have before : ∀ child ∈ node.children, child < done.length := fun child isChild =>
    place ▸ forest.below node inside child isChild
  have fields : (casesOf layers graph node).mapM
        (fun (label, call) => (resolve env call).map (label, ·)) =
      some (node.children.map fun child => (child, valueOf bodies empty layers graph child)) := by
    have each : ∀ entry ∈ casesOf layers graph node,
        (resolve env entry.2).map (entry.1, ·) =
          some (entry.1, valueOf bodies empty layers graph entry.1) := by
      intro entry isCase
      obtain ⟨isChild, found, there, call⟩ := mem_casesOf.mp isCase
      have among : found ∈ done := by
        rw [split, List.getElem?_append_left (before _ isChild)] at there
        exact List.mem_of_getElem? there
      rw [call, ready.resolve_eq among (forest.takes found (List.mem_of_getElem? there)),
        forest.placed _ found there]
      rfl
    have labels : (casesOf layers graph node).map (·.1) = node.children :=
      (casesOf_map fun _ isChild => forest.lt_of_child inside isChild).1
    rw [mapM_eq_some each, ← labels, List.map_map]
    rfl
  dsimp only [functionOf]
  rw [fields]
  refine congrArg (some ∘ Function.dispatcher) (funext fun id => ?_)
  rw [lookup_map]
  split <;> rfl

/-- The value of a node is what the code of its layer computes over the values of nodes. -/
theorem valueOf_eq (calls : CallsOnlyReceived bodies)
    (forest : SceneGraph.Forest (sourcesOf layers) graph graph.root.toList) {node : SceneNode}
    (inside : node ∈ graph.nodes) {dispatch : Nat → Field Context Result}
    (operands : ∀ child ∈ node.children, dispatch child = valueOf bodies empty layers graph child) :
    bodies node.owner (callOf layers node).passed dispatch =
      valueOf bodies empty layers graph node.id := by
  obtain ⟨place, there⟩ := List.getElem?_of_mem inside
  rw [← forest.placed place node there] at there
  rw [valueOf, there]
  refine calls _ _ _ _ fun child received => ?_
  rw [(fits_callOf (forest.takes node inside)).received] at received
  rw [if_pos (forest.below node inside child received), operands child received]

theorem Ready.fresh {done rest : List SceneNode} {node : SceneNode}
    {env : Environment Context Result} (ready : Ready bodies empty layers graph done env)
    (distinct : ((program layers graph).map Definition.name).Nodup)
    (split : graph.nodes = done ++ node :: rest) :
    ∀ definition ∈ definitionsOf layers graph node, definition.name ∉ env.map (·.1) := by
  intro definition inside known
  rw [ready.names, List.mem_reverse] at known
  unfold program at distinct
  rw [split, List.flatMap_append, List.append_assoc, List.map_append] at distinct
  refine (List.nodup_append.mp distinct).2.2 _ known _ (List.mem_map_of_mem ?_) rfl
  rw [List.flatMap_cons]
  exact List.mem_append_left _ (List.mem_append_left _ inside)

theorem Ready.name_ne {done : List SceneNode} {node : SceneNode}
    {env : Environment Context Result} (ready : Ready bodies empty layers graph done env)
    (earlier : node ∈ done) {name : String} (fresh : name ∉ env.map (·.1)) :
    "map_" ++ suffixOf layers node ≠ name := by
  rintro rfl
  refine fresh ?_
  rw [ready.names, List.mem_reverse]
  exact map_name_mem earlier

theorem lookup_cons_ne {env : Environment Context Result} {name other : String}
    {function : Function Context Result} (different : name ≠ other) :
    List.lookup name ((other, function) :: env) = env.lookup name := by
  rw [List.lookup_cons, beq_eq_false_iff_ne.mpr different]

/-- **The definitions of a node can be run when those of the nodes before it have been**, and
then its function computes its value. -/
theorem Ready.concat {done rest : List SceneNode} {node : SceneNode}
    {env : Environment Context Result} (ready : Ready bodies empty layers graph done env)
    (calls : CallsOnlyReceived bodies)
    (forest : SceneGraph.Forest (sourcesOf layers) graph graph.root.toList)
    (distinct : ((program layers graph).map Definition.name).Nodup)
    (split : graph.nodes = done ++ node :: rest) :
    ∃ env', run bodies empty (definitionsOf layers graph node) env = some env' ∧
      Ready bodies empty layers graph (done ++ [node]) env' := by
  have inside : node ∈ graph.nodes := by rw [split]; simp
  have fresh := ready.fresh distinct split
  let dispatch : Nat → Field Context Result := fun id =>
    if id ∈ node.children then valueOf bodies empty layers graph id else empty
  let dispatching : Environment Context Result :=
    ("gSdfMap_" ++ suffixOf layers node, .dispatcher dispatch) :: env
  let mapping : Environment Context Result :=
    ("map_" ++ suffixOf layers node,
      .map (arityOf layers node) fun passed => bodies node.owner passed dispatch) :: dispatching
  have first : define bodies empty env
      (.dispatcher (suffixOf layers node) (casesOf layers graph node)) = some dispatching :=
    define_eq (fresh _ List.mem_cons_self)
      (ready.functionOf_dispatcher forest split (suffixOf layers node))
  have second : define bodies empty dispatching (.layer (suffixOf layers node) node.owner
      (arityOf layers node) (emitNode layers node).1.code) = some mapping := by
    refine define_eq ?_ ?_
    · intro known
      rcases List.mem_cons.mp known with same | known
      · exact map_name_ne _ _ same
      · exact fresh _ (List.mem_cons_of_mem _ List.mem_cons_self) known
    · dsimp only [functionOf]
      rw [List.lookup_cons_self]
  refine ⟨mapping, ?_, ?_, ?_⟩
  · unfold run definitionsOf
    rw [List.foldlM_cons, first, Option.bind_eq_bind, Option.bind_some, List.foldlM_cons, second]
    rfl
  · rw [List.map_cons, List.map_cons, ready.names, List.flatMap_append, List.map_append,
      List.reverse_append]
    rfl
  · intro other among
    rcases List.mem_append.mp among with earlier | same
    · obtain ⟨apply, found, value⟩ := ready.maps other earlier
      have different : "map_" ++ suffixOf layers other ≠ "map_" ++ suffixOf layers node :=
        ready.name_ne earlier (fresh _ (List.mem_cons_of_mem _ List.mem_cons_self))
      refine ⟨apply, ?_, value⟩
      rw [lookup_cons_ne different, lookup_cons_ne (map_name_ne _ _), found]
    · cases List.mem_singleton.mp same
      refine ⟨_, List.lookup_cons_self, valueOf_eq calls forest inside ?_⟩
      exact fun child isChild => if_pos isChild

/-- The definitions of all nodes can be run. -/
theorem exists_ready (calls : CallsOnlyReceived bodies)
    (forest : SceneGraph.Forest (sourcesOf layers) graph graph.root.toList)
    (distinct : ((program layers graph).map Definition.name).Nodup) :
    ∀ (rest : List SceneNode) {done : List SceneNode} {env : Environment Context Result},
      graph.nodes = done ++ rest → Ready bodies empty layers graph done env →
      ∃ env', run bodies empty (rest.flatMap (definitionsOf layers graph)) env = some env' ∧
        Ready bodies empty layers graph graph.nodes env'
  | [], done, env, split, ready => by
    rw [split, List.append_nil]
    exact ⟨env, rfl, ready⟩
  | node :: rest, done, env, split, ready => by
    obtain ⟨next, ran, ready'⟩ := ready.concat calls forest distinct split
    obtain ⟨last, others, all⟩ := exists_ready calls forest distinct rest
      (by rw [split, List.append_assoc]; rfl) ready'
    refine ⟨last, ?_, all⟩
    rw [List.flatMap_cons, run_append, ran]
    exact others

/-- What a scene computes: the value of its root. -/
def sceneValue (bodies : Bodies Context Result) (empty : Field Context Result)
    (layers : List SceneLayer) (graph : SceneGraph) : Field Context Result :=
  (graph.root.map (valueOf bodies empty layers graph)).getD empty

/-- **A program can be run, and its scene computes the value of the root.** -/
theorem exists_run (calls : CallsOnlyReceived bodies)
    (forest : SceneGraph.Forest (sourcesOf layers) graph graph.root.toList)
    (distinct : ((program layers graph).map Definition.name).Nodup) :
    ∃ env, run bodies empty (program layers graph) [] = some env ∧
      env.lookup "gSdfScene" = some (.scene (sceneValue bodies empty layers graph)) := by
  have start : Ready bodies empty layers graph [] [] := ready_nil
  obtain ⟨env, ran, ready⟩ := exists_ready calls forest distinct graph.nodes rfl start
  have fresh : "gSdfScene" ∉ env.map (·.1) := by
    rw [ready.names, List.mem_reverse]
    intro known
    unfold program at distinct
    rw [List.map_append] at distinct
    exact (List.nodup_append.mp distinct).2.2 _ known _ List.mem_cons_self rfl
  have last : functionOf bodies empty env
        (.scene (rootCall layers graph)) =
      some (.scene (sceneValue bodies empty layers graph)) := by
    unfold sceneValue rootCall
    cases isRoot : graph.root with
    | none => rfl
    | some root =>
      rw [isRoot] at forest
      obtain ⟨found, there⟩ : ∃ found, graph.nodes[root]? = some found :=
        ⟨_, List.getElem?_eq_getElem (forest.lt_of_top List.mem_cons_self)⟩
      have inside := List.mem_of_getElem? there
      rw [Option.bind_some, there, Option.map_some]
      dsimp only [functionOf]
      rw [ready.resolve_eq inside (forest.takes found inside), forest.placed root found there]
      rfl
  unfold program
  rw [run_append, ran, Option.bind_some]
  refine ⟨("gSdfScene", .scene (sceneValue bodies empty layers graph)) :: env, ?_,
    List.lookup_cons_self⟩
  unfold run
  rw [List.foldlM_cons, define_eq fresh last]
  rfl

end

/-! ### The code of layers -/

/-- The code of a layer defines its function, and its names can be told from its numbers. -/
def DefinesMap (layers : List SceneLayer) : NodeOwner → Prop
  | .union _ => True
  | .layer index => ∃ layer previous, layers[index]? = some layer ∧
      layer.uniforms = Uniform.extract layer.code previous ∧
      Mangle.NumbersApart (Mangle.layerNames layer.code previous) layer.code.toList ∧
      "map" ∈ definedFunctions layer.code.toList

/-- The code of unions declares no uniforms, so that it is renamed like that of any layer. -/
theorem extract_unionLayer : Uniform.extract ShaderLibrary.unionLayer [] = [] := by
  refine List.length_eq_zero_iff.mp ?_
  simp only [Uniform.extract, ShaderLibrary.unionLayer, toList_unlines, List.flatMap_cons,
    List.flatMap_nil, String.reduceToList]
  decide +kernel

theorem definedFunctions_unionLayer :
    definedFunctions ShaderLibrary.unionLayer.toList = ["map"] := by
  simp only [ShaderLibrary.unionLayer, toList_unlines, List.flatMap_cons, List.flatMap_nil,
    String.reduceToList]
  decide +kernel

theorem unionLayer_numbersApart :
    Mangle.NumbersApart (Mangle.layerNames ShaderLibrary.unionLayer [])
      ShaderLibrary.unionLayer.toList := by
  unfold Mangle.layerNames
  rw [extract_unionLayer, definedFunctions_unionLayer]
  simp only [ShaderLibrary.unionLayer, toList_unlines, List.flatMap_cons, List.flatMap_nil,
    String.reduceToList]
  exact ⟨by decide +kernel, by decide +kernel⟩

/-- **The code of a node defines the function that is called for it.** -/
theorem map_mem_definedFunctions (node : SceneNode) (defines : DefinesMap layers node.owner) :
    "map_" ++ suffixOf layers node ∈ definedFunctions (emitNode layers node).1.code.toList := by
  unfold suffixOf emitNode
  cases owner : node.owner with
  | union index =>
    have renamed := Mangle.mem_definedFunctions_renamedCode unionLayer_numbersApart node.id
      ("union" ++ toString index) (by rw [definedFunctions_unionLayer]; exact List.mem_cons_self)
    unfold Mangle.renamedCode at renamed
    rwa [extract_unionLayer] at renamed
  | layer index =>
    rw [owner] at defines
    obtain ⟨layer, previous, found, uniforms, apart, defined⟩ := defines
    have renamed := Mangle.mem_definedFunctions_renamedCode apart node.id layer.id defined
    unfold Mangle.renamedCode at renamed
    rw [← uniforms] at renamed
    dsimp only
    rw [found]
    exact renamed

/-- The calls in a program. -/
structure Dispatches (layers : List SceneLayer) (graph : SceneGraph) : Prop where
  /-- nothing is defined twice -/
  apart : ((program layers graph).map Definition.name).Nodup
  /-- the dispatcher of a node has one case for each of its children: the call of the child
  with the children of the child, as its layer takes them -/
  dispatcher : ∀ node ∈ graph.nodes, ∃ cases,
    .dispatcher (suffixOf layers node) cases ∈ program layers graph ∧
      cases.map (·.1) = node.children ∧ node.children.Nodup ∧
      ∀ entry ∈ cases, ∃ child, graph.nodes[entry.1]? = some child ∧
        entry.2.suffix = suffixOf layers child ∧
        Fits child.children (arityOf layers child) entry.2.passed
  /-- the scene calls the root with its children -/
  scene : ∀ root ∈ graph.root, ∃ node call, graph.nodes[root]? = some node ∧
    .scene (some call) ∈ program layers graph ∧ call.suffix = suffixOf layers node ∧
      Fits node.children (arityOf layers node) call.passed
  /-- what the callee receives are the cases of its dispatcher -/
  received : ∀ definition ∈ program layers graph, ∀ call ∈ definition.calls, ∃ cases,
    .dispatcher call.suffix cases ∈ program layers graph ∧
      call.passed.received = cases.map (·.1)
  /-- what a definition calls has been defined before it -/
  before : ∀ front definition back, program layers graph = front ++ definition :: back →
    ∀ name ∈ definition.callees, name ∈ front.map Definition.name
  /-- the code of a node defines the function that is called for it -/
  defines : ∀ node ∈ graph.nodes, DefinesMap layers node.owner →
    "map_" ++ suffixOf layers node ∈ definedFunctions (emitNode layers node).1.code.toList

/-- Where the suffixes of nodes differ, a program calls what it should. -/
theorem dispatches_of_forest
    (forest : SceneGraph.Forest (sourcesOf layers) graph graph.root.toList)
    (distinct : (graph.nodes.map (suffixOf layers)).Nodup) : Dispatches layers graph where
  apart := nodup_names distinct
  dispatcher := by
    intro node inside
    have labels : (casesOf layers graph node).map (·.1) = node.children :=
      (casesOf_map fun _ isChild => forest.lt_of_child inside isChild).1
    refine ⟨casesOf layers graph node, dispatcher_mem_program inside, labels, ?_, ?_⟩
    · exact (List.nodup_flatMap.mp (List.nodup_append.mp forest.nodup).1).1 node inside
    · intro entry isCase
      obtain ⟨_, child, there, same⟩ := mem_casesOf.mp isCase
      refine ⟨child, there, by rw [same]; rfl, ?_⟩
      rw [same]
      exact fits_callOf (forest.takes child (List.mem_of_getElem? there))
  scene := by
    intro root isRoot
    rw [Option.mem_def.mp isRoot] at forest
    obtain ⟨node, there⟩ : ∃ node, graph.nodes[root]? = some node :=
      ⟨_, List.getElem?_eq_getElem (forest.lt_of_top List.mem_cons_self)⟩
    have called : rootCall layers graph = some (callOf layers node) := by
      unfold rootCall
      rw [Option.mem_def.mp isRoot, Option.bind_some, there, Option.map_some]
    refine ⟨node, callOf layers node, there, ?_, rfl, ?_⟩
    · rw [← called]
      exact List.mem_append_right _ List.mem_cons_self
    · exact fits_callOf (forest.takes node (List.mem_of_getElem? there))
  received := by
    intro definition inside call called
    obtain ⟨node, isNode, rfl⟩ := exists_node_of_call inside called
    refine ⟨casesOf layers graph node, dispatcher_mem_program isNode, ?_⟩
    rw [(fits_callOf (forest.takes node isNode)).received]
    exact (casesOf_map fun _ isChild => forest.lt_of_child isNode isChild).1.symm
  before := fun front definition back parts =>
    callees_before forest graph.nodes (List.nil_append _).symm parts
  defines := fun node _ => map_mem_definedFunctions node

/-- **The code of a scene dispatches each operand to the node that it stands for, and
evaluating the scene is evaluating its graph.** -/
theorem build_dispatches (layers : List SceneLayer) (roots : List Nat)
    (distinct : ((build layers roots).graph.nodes.map (suffixOf layers)).Nodup) :
    (build layers roots).code = ShaderLibrary.distancePrelude ++
        String.join ((program layers (build layers roots).graph).map Definition.text) ++
        distanceFunction ∧
      Dispatches layers (build layers roots).graph ∧
      ∀ (Context Result : Type) (bodies : Bodies Context Result) (empty : Field Context Result),
        CallsOnlyReceived bodies →
        (∀ node ∈ (build layers roots).graph.nodes,
          valueOf bodies empty layers (build layers roots).graph node.id =
            bodies node.owner (callOf layers node).passed
              (valueOf bodies empty layers (build layers roots).graph)) ∧
        ∃ env, run bodies empty (program layers (build layers roots).graph) [] = some env ∧
          env.lookup "gSdfScene" =
            some (.scene (sceneValue bodies empty layers (build layers roots).graph)) := by
  have forest : SceneGraph.Forest (sourcesOf layers) (build layers roots).graph
      (build layers roots).graph.root.toList := SceneGraph.build_forest _ roots
  refine ⟨build_code layers roots, dispatches_of_forest forest distinct, ?_⟩
  intro Context Result bodies empty calls
  refine ⟨fun node inside => ?_, exists_run calls forest (nodup_names distinct)⟩
  exact (valueOf_eq calls forest inside fun _ _ => rfl).symm

/-- A layer of two operands that holds three. -/
def crowded : List SceneLayer :=
  [⟨"smooth", "", some ⟨.fixed 2, "context", ["a", "b"], {}⟩, [], [1, 2, 3]⟩,
    ⟨"ball", "", some ⟨.fixed 0, "context", [], {}⟩, [], []⟩,
    ⟨"cube", "", some ⟨.fixed 0, "context", [], {}⟩, [], []⟩,
    ⟨"wall", "", some ⟨.fixed 0, "context", [], {}⟩, [], []⟩]

/-- Layers that count the nodes under them. -/
def counting : Bodies Unit Nat := fun _ passed dispatch context =>
  ((passed.received.map fun id => (dispatch id context).1).sum + 1, context)

theorem counting_callsOnlyReceived : CallsOnlyReceived counting := by
  intro owner passed dispatch dispatch' same
  funext context
  have fields : (passed.received.map fun id => (dispatch id context).1) =
      passed.received.map fun id => (dispatch' id context).1 :=
    List.map_congr_left fun id received => by rw [same id received]
  unfold counting
  rw [fields]

theorem build_dispatches_crowded :
    ((build crowded [0]).graph.nodes.map (suffixOf crowded)).Nodup ∧
      CallsOnlyReceived counting ∧ Dispatches crowded (build crowded [0]).graph ∧
      ∃ env, run counting (fun context => (0, context))
          (program crowded (build crowded [0]).graph) [] = some env ∧
        env.lookup "gSdfScene" = some (.scene (sceneValue counting (fun context => (0, context))
          crowded (build crowded [0]).graph)) := by
  have distinct : ((build crowded [0]).graph.nodes.map (suffixOf crowded)).Nodup := by
    decide +kernel
  obtain ⟨_, calls, evaluates⟩ := build_dispatches crowded [0] distinct
  exact ⟨distinct, counting_callsOnlyReceived, calls,
    (evaluates Unit Nat counting _ counting_callsOnlyReceived).2⟩

end Scene
end Collage
