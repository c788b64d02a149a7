import Collage.Proofs.Scene.Dispatch
import Mathlib.Order.Basic

/-!
# Unions show what is nearest

The code of a union goes through its operands from the left and keeps the nearest result so
far, beginning with the result of a place where nothing is (`unionCode`, which is
`unite` over the operands that were passed).  A union of more operands than a union takes is a
tree of unions.  That makes no difference, because to keep the nearer one is associative
(`nearer_assoc`) and what stands at the beginning is never nearer than what was found
(`uniteFrom_unite`): so uniting unions of pieces is uniting the pieces put together
(`unionEach_value`), as often as this is repeated (`unionSteps_value`).

`union_nearest`: whatever the operands compute, the node made by `SceneGraph.union` computes
what one loop over all of them computes, and this is the first of the results of least
distance, or nothing if none is nearer than that (`IsNearest`).
-/

namespace Collage

/-- What a layer shows at a position. -/
structure SceneResult (Distance Color : Type) where
  distance : Distance
  color : Color
  deriving Repr, DecidableEq

namespace SceneResult

variable {Distance Color : Type} [LinearOrder Distance]

/-- The nearer of two results, the first where they are equally near. -/
def nearer (a b : SceneResult Distance Color) : SceneResult Distance Color :=
  if a.distance ≤ b.distance then a else b

theorem nearer_of_le {a b : SceneResult Distance Color} (near : a.distance ≤ b.distance) :
    a.nearer b = a :=
  if_pos near

theorem nearer_of_lt {a b : SceneResult Distance Color} (far : b.distance < a.distance) :
    a.nearer b = b :=
  if_neg (not_le_of_gt far)

theorem nearer_distance_le (a b : SceneResult Distance Color) :
    (a.nearer b).distance ≤ a.distance := by
  rcases le_or_gt a.distance b.distance with near | far
  · rw [nearer_of_le near]
  · rw [nearer_of_lt far]
    exact far.le

/-- **In which order results are compared does not matter**, as long as they keep their places. -/
theorem nearer_assoc (a b c : SceneResult Distance Color) :
    (a.nearer b).nearer c = a.nearer (b.nearer c) := by
  rcases le_or_gt a.distance b.distance with ab | ba
  · rw [nearer_of_le ab]
    rcases le_or_gt b.distance c.distance with bc | cb
    · rw [nearer_of_le bc, nearer_of_le ab, nearer_of_le (ab.trans bc)]
    · rw [nearer_of_lt cb]
  · rw [nearer_of_lt ba]
    rcases le_or_gt b.distance c.distance with bc | cb
    · rw [nearer_of_le bc, nearer_of_lt ba]
    · rw [nearer_of_lt cb, nearer_of_lt (cb.trans ba)]

/-- A result is the first of those of least distance, or nothing if none is nearer than that. -/
inductive IsNearest (nothing : SceneResult Distance Color) :
    List (SceneResult Distance Color) → SceneResult Distance Color → Prop
  | nothing {results : List (SceneResult Distance Color)} :
      (∀ other ∈ results, nothing.distance ≤ other.distance) → IsNearest nothing results nothing
  | first {before after : List (SceneResult Distance Color)}
      {result : SceneResult Distance Color} : result.distance < nothing.distance →
      (∀ other ∈ before, result.distance < other.distance) →
      (∀ other ∈ after, result.distance ≤ other.distance) →
      IsNearest nothing (before ++ result :: after) result

/-- One more result takes the place of the nearest if it is nearer. -/
theorem IsNearest.concat {nothing found : SceneResult Distance Color}
    {results : List (SceneResult Distance Color)} (h : IsNearest nothing results found)
    (result : SceneResult Distance Color) :
    IsNearest nothing (results ++ [result]) (found.nearer result) := by
  rcases le_or_gt found.distance result.distance with near | far
  · rw [nearer_of_le near]
    cases h with
    | nothing least =>
      refine .nothing fun other inside => ?_
      rcases List.mem_append.mp inside with inside | inside
      · exact least other inside
      · exact List.mem_singleton.mp inside ▸ near
    | @first before after _ nearer earlier later =>
      rw [List.append_assoc, List.cons_append]
      refine .first nearer earlier fun other inside => ?_
      rcases List.mem_append.mp inside with inside | inside
      · exact later other inside
      · exact List.mem_singleton.mp inside ▸ near
  · rw [nearer_of_lt far]
    cases h with
    | nothing least =>
      exact .first far (fun other inside => far.trans_le (least other inside))
        (List.forall_mem_nil _)
    | @first before after _ nearer earlier later =>
      refine .first (far.trans nearer) (fun other inside => ?_) (List.forall_mem_nil _)
      rcases List.mem_append.mp inside with inside | inside
      · exact far.trans (earlier other inside)
      · rcases List.mem_cons.mp inside with rfl | inside
        · exact far
        · exact far.trans_le (later other inside)

/-- **Keeping the nearer one from the left finds the first of least distance.** -/
theorem isNearest_foldl (nothing : SceneResult Distance Color)
    (results : List (SceneResult Distance Color)) :
    IsNearest nothing results (results.foldl nearer nothing) := by
  induction results using List.reverseRecOn with
  | nil => exact .nothing (List.forall_mem_nil _)
  | append_singleton results result ih =>
    rw [List.foldl_append]
    exact ih.concat result

end SceneResult

namespace Scene

open SceneResult SceneGraph

variable {Context Distance Color : Type} [LinearOrder Distance]

/-! ### The loop of a union -/

/-- Evaluates operands from the left and keeps the nearest result, what was found before
included. -/
def uniteFrom (found : SceneResult Distance Color) :
    List (Field Context (SceneResult Distance Color)) → Field Context (SceneResult Distance Color)
  | [], context => (found, context)
  | operand :: rest, context =>
    uniteFrom (found.nearer (operand context).1) rest (operand context).2

/-- Evaluates operands from the left and keeps the nearest result. -/
def unite (nothing : SceneResult Distance Color)
    (operands : List (Field Context (SceneResult Distance Color))) :
    Field Context (SceneResult Distance Color) :=
  uniteFrom nothing operands

/-- The results of operands that are evaluated from the left, and the context at last. -/
def evaluateEach {Result : Type} :
    List (Field Context Result) → Context → List Result × Context
  | [], context => ([], context)
  | operand :: rest, context =>
    ((operand context).1 :: (evaluateEach rest (operand context).2).1,
      (evaluateEach rest (operand context).2).2)

theorem uniteFrom_eq : ∀ (operands : List (Field Context (SceneResult Distance Color)))
    (found : SceneResult Distance Color) (context : Context),
    uniteFrom found operands context =
      ((evaluateEach operands context).1.foldl nearer found, (evaluateEach operands context).2)
  | [], _, _ => rfl
  | operand :: rest, found, context => by
    rw [uniteFrom, uniteFrom_eq rest, evaluateEach]
    rfl

theorem nearer_uniteFrom : ∀ (operands : List (Field Context (SceneResult Distance Color)))
    (found first : SceneResult Distance Color) (context : Context),
    uniteFrom (found.nearer first) operands context =
      (found.nearer (uniteFrom first operands context).1, (uniteFrom first operands context).2)
  | [], _, _, _ => rfl
  | operand :: rest, found, first, context => by
    rw [uniteFrom, uniteFrom, nearer_assoc]
    exact nearer_uniteFrom rest found _ _

theorem uniteFrom_append : ∀ (operands more : List (Field Context (SceneResult Distance Color)))
    (found : SceneResult Distance Color) (context : Context),
    uniteFrom found (operands ++ more) context =
      uniteFrom (uniteFrom found operands context).1 more (uniteFrom found operands context).2
  | [], _, _, _ => rfl
  | _ :: rest, more, found, context => by
    rw [List.cons_append, uniteFrom, uniteFrom]
    exact uniteFrom_append rest more _ _

theorem uniteFrom_distance_le : ∀ (operands : List (Field Context (SceneResult Distance Color)))
    (found : SceneResult Distance Color) (context : Context),
    (uniteFrom found operands context).1.distance ≤ found.distance
  | [], _, _ => le_rfl
  | operand :: rest, found, context => by
    rw [uniteFrom]
    exact (uniteFrom_distance_le rest _ _).trans (nearer_distance_le found _)

/-- **A union among the operands can be put in as its operands**, where what was found before is
no farther than nothing, with which the union begins. -/
theorem uniteFrom_unite {nothing found : SceneResult Distance Color}
    (near : found.distance ≤ nothing.distance)
    (operands rest : List (Field Context (SceneResult Distance Color))) (context : Context) :
    uniteFrom found (unite nothing operands :: rest) context =
      uniteFrom found (operands ++ rest) context := by
  rw [uniteFrom_append, uniteFrom]
  have compared := nearer_uniteFrom operands found nothing context
  rw [nearer_of_le near] at compared
  rw [compared]
  rfl

/-! ### What the code of a union computes -/

/-- The loop over the places of operands: it ends where there are no more of them. -/
def unionLoop (count : Nat) (operand : Nat → Field Context (SceneResult Distance Color)) :
    SceneResult Distance Color → List Nat → Field Context (SceneResult Distance Color)
  | found, [], context => (found, context)
  | found, place :: places, context =>
    if count ≤ place then (found, context)
    else
      unionLoop count operand (found.nearer (operand place context).1) places
        (operand place context).2

/-- The code of a union: a loop over as many places as a union has. -/
def unionCode (nothing : SceneResult Distance Color) (passed : Passed)
    (dispatch : Nat → Field Context (SceneResult Distance Color)) :
    Field Context (SceneResult Distance Color) :=
  match passed with
  | .packed count ids =>
    unionLoop count (fun place => dispatch (ids.getD place 0)) nothing
      (List.range ShaderLibrary.maxOperands)
  | .each _ => fun context => (nothing, context)

theorem unionLoop_eq (dispatch : Nat → Field Context (SceneResult Distance Color))
    (count : Nat) (ids : List Nat) : ∀ (steps place : Nat) (found : SceneResult Distance Color)
    (context : Context), place + steps = ids.length →
    unionLoop count (fun place => dispatch (ids.getD place 0)) found (List.range' place steps)
        context =
      uniteFrom found (((ids.take count).drop place).map dispatch) context
  | 0, place, found, context, last => by
    rw [List.drop_eq_nil_of_le (by rw [List.length_take]; omega)]
    rfl
  | steps + 1, place, found, context, last => by
    rw [List.range'_succ, unionLoop]
    split
    · next none =>
      rw [List.drop_eq_nil_of_le (by rw [List.length_take]; omega)]
      rfl
    · next more =>
      have inside : place < (ids.take count).length := by
        rw [List.length_take]
        omega
      have here : ids.getD place 0 = (ids.take count)[place] := by
        rw [List.getElem_take, List.getD_eq_getElem?_getD, List.getElem?_eq_getElem (by omega),
          Option.getD_some]
      rw [List.drop_eq_getElem_cons inside, List.map_cons, uniteFrom, ← here]
      exact unionLoop_eq dispatch count ids steps (place + 1) _ _ (by omega)

theorem unionCode_packed (nothing : SceneResult Distance Color) {count : Nat} {ids : List Nat}
    (size : ids.length = ShaderLibrary.maxOperands)
    (dispatch : Nat → Field Context (SceneResult Distance Color)) :
    unionCode nothing (.packed count ids) dispatch =
      unite nothing ((Passed.packed count ids).received.map dispatch) := by
  funext context
  rw [unionCode, List.range_eq_range', unionLoop_eq dispatch count ids _ _ _ _ (by omega)]
  rfl

/-- The code of layers, and of unions. -/
def withUnions (nothing : SceneResult Distance Color)
    (layerCode : Nat → Passed → (Nat → Field Context (SceneResult Distance Color)) →
      Field Context (SceneResult Distance Color)) :
    Bodies Context (SceneResult Distance Color)
  | .layer index => layerCode index
  | .union _ => unionCode nothing

/-! ### The nodes of unions -/

section

variable {Result : Type} {bodies : Bodies Context Result} {empty : Field Context Result}
  {layers : List SceneLayer}

/-- A node keeps its value when others are added behind it. -/
theorem valueOf_append {graph later : SceneGraph} {added : List SceneNode}
    (same : later.nodes = graph.nodes ++ added) (id : Nat) (inside : id < graph.nodes.length) :
    valueOf bodies empty layers later id = valueOf bodies empty layers graph id := by
  induction id using Nat.strongRecOn with
  | ind id ih =>
    rw [valueOf, valueOf, same, List.getElem?_append_left inside]
    split
    · rfl
    · refine congrArg _ (funext fun child => ?_)
      split
      · next before => exact ih child before (before.trans inside)
      · rfl

theorem exists_added {graph later : SceneGraph} (grows : Grows graph later) :
    ∃ added, later.nodes = graph.nodes ++ added := by
  induction grows with
  | refl => exact ⟨[], (List.append_nil _).symm⟩
  | push owner children _ ih =>
    obtain ⟨added, same⟩ := ih
    exact ⟨added ++ [_], by rw [SceneGraph.push, same, List.append_assoc]⟩
  | pushUnion children _ ih =>
    obtain ⟨added, same⟩ := ih
    exact ⟨added ++ [_], by rw [SceneGraph.pushUnion, SceneGraph.push, same, List.append_assoc]⟩

theorem valueOf_mono {graph later : SceneGraph} (grows : Grows graph later) {id : Nat}
    (inside : id < graph.nodes.length) :
    valueOf bodies empty layers later id = valueOf bodies empty layers graph id := by
  obtain ⟨added, same⟩ := exists_added grows
  exact valueOf_append same id inside

theorem map_valueOf_mono {graph later : SceneGraph} (grows : Grows graph later) {ids : List Nat}
    (inside : ∀ id ∈ ids, id < graph.nodes.length) :
    ids.map (valueOf bodies empty layers later) = ids.map (valueOf bodies empty layers graph) :=
  List.map_congr_left fun id among => valueOf_mono grows (inside id among)

theorem length_le_of_grows {graph later : SceneGraph} (grows : Grows graph later) :
    graph.nodes.length ≤ later.nodes.length := by
  obtain ⟨added, same⟩ := exists_added grows
  rw [same, List.length_append]
  exact Nat.le_add_right _ _

end

variable {nothing : SceneResult Distance Color}
  {layerCode : Nat → Passed → (Nat → Field Context (SceneResult Distance Color)) →
    Field Context (SceneResult Distance Color)}
  {empty : Field Context (SceneResult Distance Color)} {layers : List SceneLayer}

/-- A new union computes the nearest of what its children compute. -/
theorem valueOf_pushUnion {graph : SceneGraph} {children : List Nat}
    (inside : ∀ child ∈ children, child < graph.nodes.length)
    (few : children.length ≤ ShaderLibrary.maxOperands) :
    valueOf (withUnions nothing layerCode) empty layers (graph.pushUnion children).1
        (graph.pushUnion children).2 =
      unite nothing (children.map (valueOf (withUnions nothing layerCode) empty layers graph)) := by
  have last : (graph.pushUnion children).1.nodes[(graph.pushUnion children).2]? =
      some ⟨graph.nodes.length, .union graph.unions, children⟩ := List.getElem?_concat_length
  have passed : (callOf layers ⟨graph.nodes.length, .union graph.unions, children⟩).passed =
      .packed children.length ((children ++ List.replicate ShaderLibrary.maxOperands 0).take
        ShaderLibrary.maxOperands) := rfl
  have received : (Passed.packed children.length
      ((children ++ List.replicate ShaderLibrary.maxOperands 0).take
        ShaderLibrary.maxOperands)).received = children := by
    rw [Passed.received, List.take_take, Nat.min_eq_left few, List.take_left]
  rw [valueOf, last]
  dsimp only
  rw [passed, withUnions, unionCode_packed nothing (by simp), received]
  refine congrArg (unite nothing) (List.map_congr_left fun child among => ?_)
  have before : child < (graph.pushUnion children).2 := inside child among
  rw [if_pos before]
  exact valueOf_mono (.pushUnion children .refl) (inside child among)

/-- Nodes of a graph whose union shows what the union of some operands shows. -/
structure UnitesTo (nothing : SceneResult Distance Color)
    (value : SceneGraph → Nat → Field Context (SceneResult Distance Color)) (graph : SceneGraph)
    (ids : List Nat) (operands : List (Field Context (SceneResult Distance Color))) : Prop where
  inside : ∀ id ∈ ids, id < graph.nodes.length
  unites : ∀ (found : SceneResult Distance Color) (context : Context),
    found.distance ≤ nothing.distance →
    uniteFrom found (ids.map (value graph)) context = uniteFrom found operands context

namespace UnitesTo

variable {graph later : SceneGraph} {ids more : List Nat}
  {operands others : List (Field Context (SceneResult Distance Color))}

theorem mono (h : UnitesTo nothing (valueOf (withUnions nothing layerCode) empty layers) graph ids
      operands) (grows : Grows graph later) :
    UnitesTo nothing (valueOf (withUnions nothing layerCode) empty layers) later ids operands where
  inside := fun id among => Nat.lt_of_lt_of_le (h.inside id among) (length_le_of_grows grows)
  unites := by
    rw [map_valueOf_mono grows h.inside]
    exact h.unites

theorem append
    (h : UnitesTo nothing (valueOf (withUnions nothing layerCode) empty layers) graph ids operands)
    (h' : UnitesTo nothing (valueOf (withUnions nothing layerCode) empty layers) graph more
      others) :
    UnitesTo nothing (valueOf (withUnions nothing layerCode) empty layers) graph (ids ++ more)
      (operands ++ others) where
  inside := List.forall_mem_append.mpr ⟨h.inside, h'.inside⟩
  unites := by
    intro found context near
    rw [List.map_append, uniteFrom_append, uniteFrom_append, h.unites found context near]
    exact h'.unites _ _ ((uniteFrom_distance_le operands found context).trans near)

/-- **A union of nodes stands for them.** -/
theorem pushUnion
    (h : UnitesTo nothing (valueOf (withUnions nothing layerCode) empty layers) graph ids operands)
    (few : ids.length ≤ ShaderLibrary.maxOperands) :
    UnitesTo nothing (valueOf (withUnions nothing layerCode) empty layers)
      (graph.pushUnion ids).1 [(graph.pushUnion ids).2] operands where
  inside := by
    intro id among
    rw [List.mem_singleton.mp among, SceneGraph.pushUnion, SceneGraph.push, List.length_append]
    exact Nat.lt_succ_self _
  unites := by
    intro found context near
    rw [List.map_singleton, valueOf_pushUnion h.inside few, uniteFrom_unite near, List.append_nil]
    exact h.unites found context near

end UnitesTo

/-- **Nodes for pieces are united to the same as the pieces put together.** -/
theorem unionEach_value : ∀ (pieces : List (List Nat)) (graph : SceneGraph),
    (∀ piece ∈ pieces, piece.length ≤ ShaderLibrary.maxOperands) →
    (∀ child ∈ pieces.flatten, child < graph.nodes.length) →
    UnitesTo nothing (valueOf (withUnions nothing layerCode) empty layers)
      (graph.unionEach pieces).1 (graph.unionEach pieces).2
      (pieces.flatten.map (valueOf (withUnions nothing layerCode) empty layers graph))
  | [], _, _, _ => ⟨List.forall_mem_nil _, fun _ _ _ => rfl⟩
  | piece :: rest, graph, sizes, inside => by
    obtain ⟨few, fits⟩ := List.forall_mem_cons.mp sizes
    rw [List.flatten_cons] at inside ⊢
    obtain ⟨here, others⟩ := List.forall_mem_append.mp inside
    rw [List.map_append]
    have whole : UnitesTo nothing (valueOf (withUnions nothing layerCode) empty layers) graph piece
        (piece.map (valueOf (withUnions nothing layerCode) empty layers graph)) :=
      ⟨here, fun _ _ _ => rfl⟩
    have grown : Grows graph (graph.pushUnion piece).1 := .pushUnion piece .refl
    have united := unionEach_value rest (graph.pushUnion piece).1 fits fun child among =>
      Nat.lt_of_lt_of_le (others child among) (length_le_of_grows grown)
    rw [map_valueOf_mono grown others] at united
    match piece, whole, united with
    | [], whole, united =>
      exact ((whole.pushUnion few).mono (unionEach_grows rest _)).append united
    | [lone], whole, _ =>
      exact (whole.mono (unionEach_grows rest graph)).append
        (unionEach_value rest graph fits others)
    | _ :: _ :: _, whole, united =>
      exact ((whole.pushUnion few).mono (unionEach_grows rest _)).append united

theorem length_unionEach : ∀ (pieces : List (List Nat)) (graph : SceneGraph),
    (graph.unionEach pieces).2.length = pieces.length
  | [], _ => rfl
  | [] :: rest, _ => congrArg (· + 1) (length_unionEach rest _)
  | [_] :: rest, graph => congrArg (· + 1) (length_unionEach rest graph)
  | (_ :: _ :: _) :: rest, _ => congrArg (· + 1) (length_unionEach rest _)

/-- **Uniting in steps shows the nearest of all**, given enough steps. -/
theorem unionSteps_value :
    ∀ (steps : Nat) (graph : SceneGraph) {children : List Nat}
      {operands : List (Field Context (SceneResult Distance Color))},
      children.length ≤ steps →
      UnitesTo nothing (valueOf (withUnions nothing layerCode) empty layers) graph children
        operands →
      valueOf (withUnions nothing layerCode) empty layers (graph.unionSteps steps children).1
        (graph.unionSteps steps children).2 = unite nothing operands := by
  have last : ∀ (graph : SceneGraph) (children : List Nat)
      (operands : List (Field Context (SceneResult Distance Color))),
      children.length ≤ ShaderLibrary.maxOperands →
      UnitesTo nothing (valueOf (withUnions nothing layerCode) empty layers) graph children
        operands →
      valueOf (withUnions nothing layerCode) empty layers (graph.pushUnion children).1
        (graph.pushUnion children).2 = unite nothing operands := by
    intro graph children operands few h
    rw [valueOf_pushUnion h.inside few]
    exact funext fun context => h.unites nothing context le_rfl
  intro steps
  induction steps with
  | zero =>
    intro graph children operands enough h
    exact last graph children operands (enough.trans (Nat.zero_le _)) h
  | succ steps ih =>
    intro graph children operands enough h
    rw [unionSteps]
    split
    · next few => exact last graph children operands few h
    · next many =>
      have fewer := (length_chunks_lt (by decide : 1 < ShaderLibrary.maxOperands)
        (Nat.lt_of_not_le many)).2
      have flat := flatten_chunks (by decide : 0 < ShaderLibrary.maxOperands) _ children
        (Nat.le_refl _)
      have sizes := length_of_mem_chunks (by decide : 0 < ShaderLibrary.maxOperands)
        children.length children
      have grouped : UnitesTo nothing (valueOf (withUnions nothing layerCode) empty layers)
          (graph.unionEach (chunks ShaderLibrary.maxOperands children.length children)).1
          (graph.unionEach (chunks ShaderLibrary.maxOperands children.length children)).2 _ :=
        unionEach_value _ graph (fun piece among => (sizes piece among).2)
          (by rw [flat]; exact h.inside)
      rw [flat] at grouped
      refine ih _ ?_ ⟨grouped.inside, fun found context near =>
        (grouped.unites found context near).trans (h.unites found context near)⟩
      rw [length_unionEach]
      omega

/-- **A union of any number of operands shows the first of those that are least distant**, as one
loop over all of them would, or nothing if none is nearer than that.  `results` are what the
operands show when they are evaluated one after another. -/
theorem union_nearest (nothing : SceneResult Distance Color)
    (layerCode : Nat → Passed → (Nat → Field Context (SceneResult Distance Color)) →
      Field Context (SceneResult Distance Color))
    (empty : Field Context (SceneResult Distance Color)) (layers : List SceneLayer)
    (graph : SceneGraph) (children : List Nat)
    (inside : ∀ child ∈ children, child < graph.nodes.length) {context last : Context}
    {results : List (SceneResult Distance Color)}
    (shows : evaluateEach (children.map
      (valueOf (withUnions nothing layerCode) empty layers graph)) context = (results, last)) :
    valueOf (withUnions nothing layerCode) empty layers (graph.union children).1
        (graph.union children).2 =
      unite nothing (children.map (valueOf (withUnions nothing layerCode) empty layers graph)) ∧
    valueOf (withUnions nothing layerCode) empty layers (graph.union children).1
        (graph.union children).2 context = (results.foldl nearer nothing, last) ∧
    IsNearest nothing results (results.foldl nearer nothing) := by
  have united : valueOf (withUnions nothing layerCode) empty layers (graph.union children).1
      (graph.union children).2 =
        unite nothing (children.map (valueOf (withUnions nothing layerCode) empty layers graph)) :=
    unionSteps_value children.length graph (Nat.le_refl _) ⟨inside, fun _ _ _ => rfl⟩
  refine ⟨united, ?_, isNearest_foldl nothing results⟩
  rw [united, unite, uniteFrom_eq, shows]

/-- Seventeen layers without operands, one more than a union takes. -/
def seventeen : SceneGraph where
  nodes := (List.range 17).map fun index => ⟨index, .layer index, []⟩

/-- The fifth and the last of the layers are least distant; each shows its place as its colour. -/
def scattered (index : Nat) (_ : Passed) (_ : Nat → Field Unit (SceneResult Nat Nat)) :
    Field Unit (SceneResult Nat Nat) :=
  fun context => (⟨if index = 4 ∨ index = 16 then 3 else 5, index⟩, context)

theorem valueOf_seventeen (empty : Field Unit (SceneResult Nat Nat)) {index : Nat}
    (inside : index < 17) :
    valueOf (withUnions ⟨100, 100⟩ scattered) empty [] seventeen index =
      scattered index (.each []) fun _ => empty := by
  have there : seventeen.nodes[index]? = some ⟨index, .layer index, []⟩ := by
    simp [seventeen, inside]
  rw [valueOf, there]
  rfl

theorem union_nearest_seventeen :
    (∀ child ∈ List.range 17, child < seventeen.nodes.length) ∧
      (seventeen.union (List.range 17)).1.unions = 2 ∧
      valueOf (withUnions ⟨100, 100⟩ scattered) (fun context => (⟨100, 100⟩, context)) []
        (seventeen.union (List.range 17)).1 (seventeen.union (List.range 17)).2 () =
        (⟨3, 4⟩, ()) := by
  have inside : ∀ child ∈ List.range 17, child < seventeen.nodes.length := by decide
  let empty : Field Unit (SceneResult Nat Nat) := fun context => (⟨100, 100⟩, context)
  have operands : (List.range 17).map (valueOf (withUnions ⟨100, 100⟩ scattered) empty []
      seventeen) = (List.range 17).map fun index => scattered index (.each []) fun _ => empty :=
    List.map_congr_left fun index among => valueOf_seventeen _ (List.mem_range.mp among)
  have shows :
      evaluateEach ((List.range 17).map (valueOf (withUnions ⟨100, 100⟩ scattered) empty []
        seventeen)) () =
      ((List.range 17).map fun index =>
        ⟨if index = 4 ∨ index = 16 then 3 else 5, index⟩, ()) := by
    rw [operands]
    rfl
  exact ⟨inside, by decide,
    (union_nearest ⟨100, 100⟩ scattered empty [] seventeen (List.range 17) inside shows).2.1⟩

end Scene
end Collage
