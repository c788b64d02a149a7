import Collage.Proofs.Uniform.Reconcile

/-!
# Which stored value a uniform takes over

A uniform takes over the first stored value of its name, or else the one at its place when
that is of its kind and of a name that is no longer declared (`Uniform.adopted?`).  Which
stored values are taken already makes no difference: nobody else takes over a value that a
uniform looks for (`Uniform.priorIndex_eq`).  So uniforms may take their turns in any order
(`Uniform.takeTurns_eq`), and the values of the extracted ones have a closed form
(`Uniform.extract_adopts`).
-/

namespace Collage
namespace Uniform

/-- Which stored value a uniform at a place takes over: the first of its name, or else the one
at its place, when it is of its kind and of a name that is not among `names`. -/
def adopted? (names : List String) (previous : List ShaderValue) (index : Nat) (d : Declared) :
    Option Nat :=
  (previous.findIdx? (·.name = d.declaration.name)).or
    (if previous[index]?.any fun v => v.value.kind = d.kind.valueKind && !names.contains v.name
      then some index else none)

/-- The value of a uniform at a place: a stored one of its kind is read as one of the uniform
and keeps its curve if the uniform may follow one; without it the uniform has its default and
the curve of its settings. -/
def reconciled (names : List String) (previous : List ShaderValue) (index : Nat) (d : Declared) :
    ShaderValue :=
  let curveOf (curve : Option Curve) := if d.kind.acceptsCurve then curve else none
  let stored := (adopted? names previous index d).bind (previous[·]?)
  match stored.filter fun v => v.value.kind = d.kind.valueKind with
  | some v => ⟨d.declaration.name, d.kind.coerce v.value.toJson, curveOf v.curve⟩
  | none => ⟨d.declaration.name, d.kind.defaultValue, curveOf d.settings.curve⟩

/-- The values of uniforms with their places that take their turns one after another, when the
stored values at `consumed` are taken. -/
def takeTurns (names : List String) (previous : List ShaderValue) :
    List Nat → List (Declared × Nat) → List ShaderValue
  | _, [] => []
  | consumed, (d, index) :: rest =>
    let prior := priorIndex names previous consumed index d
    (match prior.bind (previous[·]?) with
      | some stored => keptValue d stored
      | none => freshValue d) :: takeTurns names previous (prior.toList ++ consumed) rest

/-! ### Names -/

theorem names_firstOfEach : ∀ (declarations : List UniformDeclaration) (seen : List String),
    ((firstOfEach seen declarations).map (·.name)).Nodup ∧
      ∀ d ∈ firstOfEach seen declarations, d.name ∉ seen
  | [], _ => ⟨List.nodup_nil, List.forall_mem_nil _⟩
  | d :: rest, seen => by
    rw [firstOfEach]
    split
    · exact names_firstOfEach rest seen
    · rename_i new
      obtain ⟨once, apart⟩ := names_firstOfEach rest (d.name :: seen)
      refine ⟨List.nodup_cons.mpr ⟨fun again => ?_, once⟩, List.forall_mem_cons.mpr ⟨?_, ?_⟩⟩
      · obtain ⟨other, inside, same⟩ := List.mem_map.mp again
        exact apart other inside (same ▸ List.mem_cons_self)
      · exact fun inside => new (List.contains_iff_mem.mpr inside)
      · exact fun other inside there => apart other inside (List.mem_cons_of_mem _ there)

theorem nodup_declared (source : List Char) :
    ((declared source).map (·.declaration.name)).Nodup := by
  refine (names_firstOfEach (uniformDeclarations source) []).1.sublist ?_
  unfold declared
  induction firstOfEach [] (uniformDeclarations source) with
  | nil => exact List.Sublist.refl _
  | cons d rest ih =>
    rw [List.filterMap_cons]
    split
    · exact ih.cons _
    · rename_i same
      obtain ⟨kind, -, rfl⟩ := Option.map_eq_some_iff.mp same
      exact ih.cons_cons _

/-! ### What is taken over -/

section

variable {names : List String} {previous : List ShaderValue} {index place : Nat} {d : Declared}

/-- A uniform takes over a value of its own name, or the one at its place, which then is of a
name that is not declared. -/
theorem name_of_adopted {v : ShaderValue} (adopts : adopted? names previous index d = some place)
    (there : previous[place]? = some v) :
    v.name = d.declaration.name ∨ place = index ∧ v.name ∉ names := by
  unfold adopted? at adopts
  cases byName : previous.findIdx? (·.name = d.declaration.name) with
  | some found =>
    rw [byName, Option.some_or] at adopts
    cases adopts
    obtain ⟨bound, same, -⟩ := List.findIdx?_eq_some_iff_getElem.mp byName
    cases (List.getElem?_eq_getElem bound).symm.trans there
    exact .inl (of_decide_eq_true same)
  | none =>
    rw [byName, Option.none_or] at adopts
    split at adopts
    · rename_i renamed
      cases adopts
      rw [there] at renamed
      simp only [Option.any_some, Bool.and_eq_true, Bool.not_eq_true', List.contains_eq_mem,
        decide_eq_false_iff_not] at renamed
      exact .inr ⟨rfl, renamed.2⟩
    · cases adopts

theorem exists_of_adopted (adopts : adopted? names previous index d = some place) :
    ∃ v, previous[place]? = some v := by
  unfold adopted? at adopts
  cases byName : previous.findIdx? (·.name = d.declaration.name) with
  | some found =>
    rw [byName, Option.some_or] at adopts
    cases adopts
    obtain ⟨bound, -⟩ := List.findIdx?_eq_some_iff_getElem.mp byName
    exact ⟨_, List.getElem?_eq_getElem bound⟩
  | none =>
    rw [byName, Option.none_or] at adopts
    split at adopts
    · rename_i renamed
      cases adopts
      obtain ⟨v, there, -⟩ := (Option.any_eq_true _ _).mp renamed
      exact ⟨v, there⟩
    · cases adopts

end

section

variable {uniforms : List Declared} {previous : List ShaderValue}

/-- **No stored value is taken over twice.** -/
theorem adopted_injective (once : (uniforms.map (·.declaration.name)).Nodup) {i j place : Nat}
    {d e : Declared} (first : uniforms[i]? = some d) (second : uniforms[j]? = some e)
    (adopts : adopted? (uniforms.map (·.declaration.name)) previous i d = some place)
    (adopts' : adopted? (uniforms.map (·.declaration.name)) previous j e = some place) :
    i = j := by
  obtain ⟨v, there⟩ := exists_of_adopted adopts
  have known : ∀ {k : Nat} {u : Declared}, uniforms[k]? = some u →
      u.declaration.name ∈ uniforms.map (·.declaration.name) :=
    fun found => List.mem_map_of_mem (List.mem_of_getElem? found)
  rcases name_of_adopted adopts there with own | ⟨rfl, gone⟩ <;>
    rcases name_of_adopted adopts' there with own' | ⟨here, gone'⟩
  · obtain ⟨bound, -⟩ := List.getElem?_eq_some_iff.mp first
    refine (List.getElem?_inj (by simpa using bound) once).mp ?_
    simpa [first, second] using own.symm.trans own'
  · exact absurd (own ▸ known first) gone'
  · exact absurd (own' ▸ known second) gone
  · exact here

/-- **What is taken already makes no difference**, as long as it is what other uniforms take
over. -/
theorem priorIndex_eq (once : (uniforms.map (·.declaration.name)).Nodup) {index : Nat}
    {d : Declared} (here : uniforms[index]? = some d) {consumed : List Nat}
    (others : ∀ place ∈ consumed, ∃ j e, j ≠ index ∧ uniforms[j]? = some e ∧
      adopted? (uniforms.map (·.declaration.name)) previous j e = some place) :
    priorIndex (uniforms.map (·.declaration.name)) previous consumed index d =
      adopted? (uniforms.map (·.declaration.name)) previous index d := by
  have free : ∀ {place : Nat},
      adopted? (uniforms.map (·.declaration.name)) previous index d = some place →
        place ∉ consumed := by
    intro place adopts taken
    obtain ⟨j, e, different, there, adopts'⟩ := others place taken
    exact different (adopted_injective once there here adopts' adopts)
  unfold adopted? at free ⊢
  unfold priorIndex
  dsimp only
  cases byName : previous.findIdx? (·.name = d.declaration.name) with
  | some found =>
    rw [byName, Option.some_or] at free
    obtain ⟨bound, same, before⟩ := List.findIdx?_eq_some_iff_getElem.mp byName
    rw [List.find?_range_eq_some.mpr ⟨?_, List.mem_range.mpr bound, ?_⟩]
    · rfl
    · simpa [free rfl, List.getElem?_eq_getElem bound] using same
    · intro k earlier
      have other := before k earlier
      rw [List.getElem?_eq_getElem (earlier.trans bound)]
      simp_all
  | none =>
    rw [byName, Option.none_or] at free
    have unnamed : ∀ v ∈ previous, v.name ≠ d.declaration.name := by
      simpa using List.findIdx?_eq_none_iff.mp byName
    rw [List.find?_eq_none.mpr]
    · rw [Option.none_or]
      change (Option.map _ (Option.filter _ _)) = _
      cases there : previous[index]? with
      | none => rfl
      | some v =>
        rw [there, Option.any_some] at free
        rw [Option.any_some, Option.filter_some]
        by_cases renamed : (decide (v.value.kind = d.kind.valueKind) &&
            !(uniforms.map (·.declaration.name)).contains v.name) = true
        · rw [if_pos renamed] at free ⊢
          have untaken := free rfl
          simp_all
        · rw [if_neg renamed]
          simp_all
    · intro k inside
      have bound := List.mem_range.mp inside
      simp [List.getElem?_eq_getElem bound, unnamed _ (List.getElem_mem bound)]

/-- The value that a uniform is given from what it takes over. -/
theorem reconciled_eq (names : List String) (index : Nat) (d : Declared) :
    (match (adopted? names previous index d).bind (previous[·]?) with
      | some stored => keptValue d stored
      | none => freshValue d) = reconciled names previous index d := by
  have curve : ∀ curve : Option Curve, (curve.filter fun _ => d.kind.acceptsCurve) =
      if d.kind.acceptsCurve then curve else none := by
    intro curve
    cases curve <;> cases d.kind.acceptsCurve <;> rfl
  unfold reconciled
  cases (adopted? names previous index d).bind (previous[·]?) with
  | none =>
    dsimp only [Option.filter_none]
    rw [freshValue, curve]
  | some stored =>
    dsimp only
    rw [Option.filter_some, keptValue, freshValue, curve, curve]
    by_cases same : stored.value.kind = d.kind.valueKind
    · rw [if_pos same, decide_eq_true same]
      rfl
    · rw [if_neg same, decide_eq_false same]
      rfl

/-- **In whatever order uniforms take their turns**, each is given what its place and its name
say. -/
theorem takeTurns_eq (once : (uniforms.map (·.declaration.name)).Nodup) :
    ∀ {turns : List (Declared × Nat)} {consumed : List Nat}, (turns.map (·.2)).Nodup →
      (∀ turn ∈ turns, uniforms[turn.2]? = some turn.1) →
      (∀ place ∈ consumed, ∃ j e, j ∉ turns.map (·.2) ∧ uniforms[j]? = some e ∧
        adopted? (uniforms.map (·.declaration.name)) previous j e = some place) →
      takeTurns (uniforms.map (·.declaration.name)) previous consumed turns =
        turns.map fun turn => reconciled (uniforms.map (·.declaration.name)) previous turn.2 turn.1
  | [], _, _, _, _ => rfl
  | (d, index) :: rest, consumed, different, known, others => by
    obtain ⟨new, different⟩ := List.nodup_cons.mp different
    obtain ⟨here, known⟩ := List.forall_mem_cons.mp known
    have prior : priorIndex (uniforms.map (·.declaration.name)) previous consumed index d =
        adopted? (uniforms.map (·.declaration.name)) previous index d := by
      refine priorIndex_eq once here fun place inside => ?_
      obtain ⟨j, e, apart, there, adopts⟩ := others place inside
      exact ⟨j, e, fun same => apart (same ▸ List.mem_cons_self), there, adopts⟩
    rw [takeTurns, prior, List.map_cons]
    dsimp only
    rw [reconciled_eq]
    refine congrArg _ (takeTurns_eq once different known fun place inside => ?_)
    rcases List.mem_append.mp inside with own | inside
    · exact ⟨index, d, new, here, Option.mem_toList.mp own⟩
    · obtain ⟨j, e, apart, there, adopts⟩ := others place inside
      exact ⟨j, e, fun again => apart (List.mem_cons_of_mem _ again), there, adopts⟩

theorem reconcileFrom_eq (names : List String) : ∀ (uniforms : List Declared) (consumed : List Nat)
    (index : Nat), reconcileFrom names previous consumed index uniforms =
      takeTurns names previous consumed (uniforms.zipIdx index)
  | [], _, _ => rfl
  | d :: rest, consumed, index => by
    rw [reconcileFrom, List.zipIdx_cons, takeTurns]
    cases priorIndex names previous consumed index d with
    | none => exact congrArg _ (reconcileFrom_eq names rest consumed (index + 1))
    | some place => exact congrArg _ (reconcileFrom_eq names rest (place :: consumed) (index + 1))

end

/-- **The closed form of extracting.**  Each declared uniform has the value that its name and its
place give it (`reconciled`).  No stored value is taken over by two uniforms, and one that is
taken over under another name has a name that is not declared.  What the others have taken makes
no difference, and neither does the order in which uniforms take their turns. -/
theorem extract_adopts (source : String) (previous : List ShaderValue) :
    let uniforms := declared source.toList
    let names := uniforms.map (·.declaration.name)
    extract source previous =
      (uniforms.mapIdx fun i d => d.uniform source.toList (reconciled names previous i d)) ∧
    (∀ i j d e place, uniforms[i]? = some d → uniforms[j]? = some e →
      adopted? names previous i d = some place → adopted? names previous j e = some place →
      i = j) ∧
    (∀ i d place v, uniforms[i]? = some d → adopted? names previous i d = some place →
      previous[place]? = some v → v.name ≠ d.declaration.name → v.name ∉ names) ∧
    (∀ i d consumed, uniforms[i]? = some d →
      (∀ place ∈ consumed, ∃ j e, j ≠ i ∧ uniforms[j]? = some e ∧
        adopted? names previous j e = some place) →
      priorIndex names previous consumed i d = adopted? names previous i d) ∧
    ∀ turns, turns.Perm uniforms.zipIdx →
      takeTurns names previous [] turns =
        turns.map fun turn => reconciled names previous turn.2 turn.1 := by
  have once := nodup_declared source.toList
  have anyOrder : ∀ turns, turns.Perm (declared source.toList).zipIdx →
      takeTurns ((declared source.toList).map (·.declaration.name)) previous [] turns =
        turns.map fun turn => reconciled ((declared source.toList).map (·.declaration.name))
          previous turn.2 turn.1 := by
    intro turns perm
    refine takeTurns_eq once ?_ (fun turn inside => ?_) (List.forall_mem_nil _)
    · rw [(perm.map _).nodup_iff, List.zipIdx_map_snd]
      exact List.nodup_range'
    · exact List.mem_zipIdx_iff_getElem?.mp (perm.mem_iff.mp inside)
  refine ⟨?_, fun i j d e place first second => adopted_injective once first second, ?_,
    fun i d consumed here => priorIndex_eq once here, anyOrder⟩
  · have unfolded : extract source previous =
        List.zipWith (Declared.uniform source.toList) (declared source.toList)
          (reconcile previous (declared source.toList)) := rfl
    rw [unfolded, reconcile, reconcileFrom_eq, anyOrder _ (.refl _)]
    exact List.ext_getElem (by simp) fun i _ _ => by simp
  · intro i d place v _ adopts there different
    exact (name_of_adopted adopts there).resolve_left different |>.2

end Uniform
end Collage
