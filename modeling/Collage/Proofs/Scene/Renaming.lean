import Collage.Proofs.Scene.Insertion
import Collage.Proofs.Scene.Names
import Collage.Uniform.Extract

/-!
# Renaming the names of a layer

The names of a layer are found among its tokens, but the places at which they get their
suffix are sought in the text (`mem_layerEnds`, `layerEnds_endsAt`).  Both views agree on
identifiers (`EndsAt.inserted_identifier`) and on marks.  They do not on numbers: to the text
the letter of `2.f` is a name of its own.  If numbers are apart from the names
(`NumbersApart`), nothing happens to them (`EndsAt.inserted_number`), so that the tokens of
the new code are those of the source with the suffix behind each name
(`tokens_renamedCode`).

To the text a member is a name as well, so that members are renamed with the uniforms whose
names they have.  `renames_only_names` says that the layers in which this does not happen are
those without such members.
-/

namespace Collage
namespace Mangle

/-! ### The names of a layer -/

/-- The names of a source that get a suffix: its uniforms, its functions and the two
functions of every layer. -/
def layerNames (source : String) (previous : List ShaderValue) : List String :=
  (Uniform.extract source previous).map (·.name) ++ (definedFunctions source.toList ++
    ["map", "gSdfMap"])

/-- The places at which a suffix is put into a source. -/
def layerEnds (source : String) (previous : List ShaderValue) : List Nat :=
  (layerSpans source ((Uniform.extract source previous).map fun u => (u.name, u.occurrences))).map
    fun (offset, length) => offset + length

/-- The code of a layer with a suffix behind its names. -/
def renamedCode (source : String) (previous : List ShaderValue) (suffix : String) : String :=
  apply source (layerSpans source
    ((Uniform.extract source previous).map fun u => (u.name, u.occurrences))) suffix

theorem mem_firstOfEach {d : UniformDeclaration} : ∀ {seen : List String}
    {declarations : List UniformDeclaration},
    d ∈ Uniform.firstOfEach seen declarations → d ∈ declarations
  | _, [], h => h
  | seen, first :: rest, h => by
    rw [Uniform.firstOfEach] at h
    split at h
    · exact List.mem_cons_of_mem _ (mem_firstOfEach h)
    · rcases List.mem_cons.mp h with rfl | h
      · exact List.mem_cons_self
      · exact List.mem_cons_of_mem _ (mem_firstOfEach h)

theorem exists_declaration {source : String} {previous : List ShaderValue} {u : Uniform}
    (h : u ∈ Uniform.extract source previous) :
    (∃ d ∈ uniformDeclarations source.toList, u.name = d.name) ∧
      u.occurrences = occurrences source.toList u.name.toList := by
  unfold Uniform.extract at h
  rw [← List.map_uncurry_zip_eq_zipWith] at h
  obtain ⟨⟨d, value⟩, both, rfl⟩ := List.mem_map.mp h
  obtain ⟨declaration, inside, supported⟩ := List.mem_filterMap.mp (List.of_mem_zip both).1
  obtain ⟨kind, _, rfl⟩ := Option.map_eq_some_iff.mp supported
  exact ⟨⟨declaration, mem_firstOfEach inside, rfl⟩, rfl⟩

theorem isName_of_mem_layerNames {source : String} {previous : List ShaderValue} {name : String}
    (h : name ∈ layerNames source previous) : IsName name.toList := by
  rcases List.mem_append.mp h with uniform | other
  · obtain ⟨u, inside, rfl⟩ := List.mem_map.mp uniform
    obtain ⟨⟨d, declared, same⟩, _⟩ := exists_declaration inside
    rw [same]
    exact isName_of_mem_uniformDeclarations declared
  · rcases List.mem_append.mp other with function | fixed
    · exact isName_of_mem_definedFunctions function
    · have both : name = "map" ∨ name = "gSdfMap" := by simpa using fixed
      rcases both with rfl | rfl
      · exact ⟨⟨'m', ['a', 'p'], rfl, by decide⟩, List.all_eq_true.mp (by decide)⟩
      · exact ⟨⟨'g', "SdfMap".toList, rfl, by decide⟩, List.all_eq_true.mp (by decide)⟩

theorem utf8ByteSize_eq (name : String) : name.utf8ByteSize = byteSize name.toList := by
  rw [← String.ofList_toList (s := name)]
  generalize name.toList = text
  rw [String.toList_ofList]
  induction text with
  | nil => rfl
  | cons c rest ih =>
    rw [byteSize_cons, ← ih, String.ofList_cons, String.utf8ByteSize_append,
      String.utf8ByteSize_singleton]

theorem mem_append_filter {functions fixed : List String} {name : String} :
    name ∈ functions ++ fixed.filter (!functions.contains ·) ↔ name ∈ functions ++ fixed := by
  by_cases known : name ∈ functions
  · simp [known]
  · simp [known]

theorem layerSpans_extract (source : String) (previous : List ShaderValue) :
    layerSpans source ((Uniform.extract source previous).map fun u => (u.name, u.occurrences)) =
      ((Uniform.extract source previous).map (·.name) ++ (definedFunctions source.toList ++
        ["map", "gSdfMap"].filter (!(definedFunctions source.toList).contains ·))).flatMap
          (spansOf source.toList) := by
  have uniforms : ((Uniform.extract source previous).flatMap fun u =>
      u.occurrences.map fun offset => (offset, u.name.utf8ByteSize)) =
      (Uniform.extract source previous).flatMap fun u => spansOf source.toList u.name := by
    refine List.flatMap_congr fun u inside => ?_
    rw [(exists_declaration inside).2]
    rfl
  unfold layerSpans
  dsimp only
  rw [List.flatMap_map, uniforms]
  conv_rhs => rw [List.flatMap_append, List.flatMap_map]

theorem mem_layerEnds {source : String} {previous : List ShaderValue} {place : Nat} :
    place ∈ layerEnds source previous ↔ ∃ name ∈ layerNames source previous,
      ∃ offset ∈ occurrences source.toList name.toList, offset + byteSize name.toList = place := by
  have names : ∀ name, name ∈ layerNames source previous ↔
      name ∈ (Uniform.extract source previous).map (·.name) ++ (definedFunctions source.toList ++
        ["map", "gSdfMap"].filter (!(definedFunctions source.toList).contains ·)) := by
    intro name
    rw [List.mem_append, mem_append_filter, ← List.mem_append]
    rfl
  unfold layerEnds
  rw [layerSpans_extract, List.map_flatMap, List.mem_flatMap]
  refine exists_congr fun name => and_congr (names name).symm ?_
  simp [spansOf, utf8ByteSize_eq]

theorem toList_renamedCode (source : String) (previous : List ShaderValue) (suffix : String) :
    (renamedCode source previous suffix).toList =
      applyFrom (layerEnds source previous) suffix.toList none 0 source.toList := by
  unfold renamedCode apply
  rw [String.toList_ofList]
  rfl

/-! ### Where a suffix is put in -/

/-- A suffix is put in exactly where one of the names ends and no identifier goes on. -/
def EndsAt (ends : List Nat) (names : List String) (source : List Char) : Prop :=
  ∀ front back, source = front ++ back →
    (byteSize front ∈ ends ↔ ∃ name ∈ names, ∃ before, front = before ++ name.toList ∧
      before.getLast?.any isIdentifierPart = false ∧ back.head?.any isIdentifierPart = false)

theorem layerEnds_endsAt (source : String) (previous : List ShaderValue) :
    EndsAt (layerEnds source previous) (layerNames source previous) source.toList := by
  intro front back whole
  rw [mem_layerEnds]
  constructor
  · rintro ⟨name, inside, offset, stands, size⟩
    obtain ⟨before, behind, whole', rfl, apart⟩ :=
      (mem_occurrences_iff (isName_of_mem_layerNames inside)).mp stands
    rw [whole, ← List.append_assoc] at whole'
    obtain ⟨rfl, rfl⟩ := append_inj_of_byteSize whole' (by rw [← size, byteSize_append])
    exact ⟨name, inside, before, rfl, apart⟩
  · rintro ⟨name, inside, before, rfl, apart⟩
    refine ⟨name, inside, byteSize before, ?_, (byteSize_append _ _).symm⟩
    exact (mem_occurrences_iff (isName_of_mem_layerNames inside)).mpr
      ⟨before, back, by rw [whole, List.append_assoc], rfl, apart⟩

section Places

variable {ends : List Nat} {names : List String} {source : List Char}
  (places : EndsAt ends names source) (areNames : ∀ name ∈ names, IsName name.toList)
include places areNames

theorem EndsAt.zero_notMem : 0 ∉ ends := by
  intro zero
  obtain ⟨name, inside, before, whole, _⟩ := (places [] source rfl).mp zero
  exact (areNames name inside).ne_nil (List.append_eq_nil_iff.mp whole.symm).2

theorem EndsAt.behind {front rest : List Char} (whole : source = front ++ rest) :
    Behind ends (byteSize front) rest := by
  induction rest generalizing front with
  | nil => trivial
  | cons c rest ih =>
    have whole' : source = (front ++ [c]) ++ rest := by rw [whole, List.append_assoc]; rfl
    have size : byteSize (front ++ [c]) = byteSize front + c.utf8Size := by simp
    refine ⟨fun here => ?_, size ▸ ih whole'⟩
    rw [← size] at here
    obtain ⟨name, inside, before, same, _⟩ := (places _ _ whole').mp here
    have last := congrArg List.getLast? same
    rw [List.getLast?_append_of_ne_nil _ (areNames name inside).ne_nil,
      List.getLast?_concat] at last
    exact (areNames name inside).parts c (List.mem_of_getLast? last.symm)

omit places areNames in
/-- The identifier that a text ends with is where no identifier goes on before. -/
theorem run_unique {front text front' text' : List Char} (whole : front ++ text = front' ++ text')
    (parts : ∀ c ∈ text, isIdentifierPart c = true)
    (parts' : ∀ c ∈ text', isIdentifierPart c = true)
    (before : front.getLast?.any isIdentifierPart = false)
    (before' : front'.getLast?.any isIdentifierPart = false) : front = front' ∧ text = text' := by
  have nothing : ∀ {rest between : List Char}, (∀ c ∈ between, isIdentifierPart c = true) →
      (rest ++ between).getLast?.any isIdentifierPart = false → between = [] := by
    intro rest between parts last
    by_contra more
    rw [List.getLast?_append_of_ne_nil _ more, List.getLast?_eq_some_getLast more] at last
    have part := parts _ (List.getLast_mem more)
    simp [part] at last
  rcases List.append_eq_append_iff.mp whole with ⟨between, rfl, rfl⟩ | ⟨between, rfl, rfl⟩
  · obtain rfl := nothing (fun c inside => parts c (List.mem_append_left _ inside)) before'
    simp
  · obtain rfl := nothing (fun c inside => parts' c (List.mem_append_left _ inside)) before
    simp

/-- An identifier that nothing goes on in gets the suffix if it is one of the names. -/
theorem EndsAt.inserted_identifier {front text back suffix : List Char}
    (whole : source = front ++ (text ++ back)) (name : IsName text)
    (before : front.getLast?.any isIdentifierPart = false)
    (behind : back.head?.any isIdentifierPart = false) :
    inserted ends suffix (byteSize front) text =
      if String.ofList text ∈ names then text ++ insertion suffix text.getLast? else text := by
  have goesOn : ∀ part rest, text = part ++ rest → part ≠ [] → rest ≠ [] →
      byteSize front + byteSize part ∉ ends := by
    intro part rest same _ more here
    rw [← byteSize_append] at here
    obtain ⟨_, _, _, _, _, stops⟩ := (places (front ++ part) (rest ++ back)
      (by rw [whole, same]; simp)).mp here
    obtain ⟨c, others, rfl⟩ := List.exists_cons_of_ne_nil more
    have part := name.parts c (by rw [same]; simp)
    simp [part] at stops
  have ends_iff : byteSize front + byteSize text ∈ ends ↔ String.ofList text ∈ names := by
    rw [← byteSize_append, places (front ++ text) back (by rw [whole, List.append_assoc])]
    constructor
    · rintro ⟨other, inside, before', same, apart, _⟩
      have parts := (areNames other inside).parts
      obtain ⟨_, rfl⟩ := run_unique same name.parts parts before apart
      rwa [String.ofList_toList]
    · exact fun inside => ⟨_, inside, front, by rw [String.toList_ofList], before, behind⟩
  rw [inserted_of_inner name.ne_nil goesOn]
  split
  · next inside => rw [addition_of_mem (ends_iff.mpr inside)]
  · next outside => rw [addition_of_notMem (mt ends_iff.mp outside), List.append_nil]

/-- Nothing is put into a number that no name stands in, nor right behind it. -/
theorem EndsAt.inserted_number {front text back suffix : List Char}
    (whole : source = front ++ (text ++ back)) (nonempty : text ≠ [])
    (before : ¬ Lexeme.Touch front text)
    (within : ∀ name ∈ names, occurrences text name.toList = []) :
    inserted ends suffix (byteSize front) text = text := by
  have nowhere : ∀ part rest, text = part ++ rest → part ≠ [] →
      byteSize front + byteSize part ∉ ends := by
    rintro part rest rfl some here
    rw [← byteSize_append] at here
    obtain ⟨name, inside, before', same, apart, stops⟩ := (places (front ++ part) (rest ++ back)
      (by rw [whole]; simp)).mp here
    have stops' : rest.head?.any isIdentifierPart = false := by
      cases rest with
      | nil => rfl
      | cons c others => exact stops
    have absent : ∀ between, part = between ++ name.toList →
        between.getLast?.any isIdentifierPart = false → False := by
      rintro between rfl apart
      have stands := (mem_occurrences_iff (areNames name inside)).mpr
        ⟨between, rest, List.append_assoc .., rfl, apart, stops'⟩
      rw [within name inside] at stands
      cases stands
    rcases List.append_eq_append_iff.mp same with ⟨between, rfl, inner⟩ | ⟨between, rfl, outer⟩
    · refine absent between inner ?_
      cases last : between.getLast? with
      | none => rfl
      | some c => rwa [List.getLast?_append, last] at apart
    · by_cases more : between = []
      · subst more
        exact absent [] outer.symm rfl
      · -- The name would reach into the number from what comes before it.
        have parts := outer ▸ (areNames name inside).parts
        refine before ⟨?_, ?_⟩
        · rw [List.getLast?_append_of_ne_nil _ more, List.getLast?_eq_some_getLast more]
          exact parts _ (List.mem_append_left _ (List.getLast_mem more))
        · obtain ⟨c, others, rfl⟩ := List.exists_cons_of_ne_nil some
          exact parts c (List.mem_append_right _ List.mem_cons_self)
  rw [inserted_of_inner nonempty fun part rest same some _ => nowhere part rest same some,
    addition_of_notMem (nowhere text [] (List.append_nil text).symm nonempty), List.append_nil]

end Places

/-! ### Numbers -/

/-- Numbers hold none of the names, and no identifier begins right behind one. -/
structure NumbersApart (names : List String) (source : List Char) : Prop where
  within : ∀ lexeme ∈ Lexeme.lex source, lexeme.kind = .number →
    ∀ name ∈ names, occurrences lexeme.text name.toList = []
  behind : (Lexeme.lex source).IsChain fun lexeme next =>
    lexeme.kind = .number → next.kind ≠ .identifier

variable {names : List String} {source : List Char}

theorem NumbersApart.not_touch (h : NumbersApart names source) :
    (Lexeme.lex source).IsChain fun lexeme next => ¬ Lexeme.Touch lexeme.text next.text := by
  rw [List.isChain_iff_getElem]
  intro i bound touch
  obtain ⟨number, identifier⟩ :=
    List.isChain_iff_getElem.mp (Lexeme.lex_lexes source).touching i bound touch
  exact List.isChain_iff_getElem.mp h.behind i bound number identifier

/-- No identifier goes on from what comes before a lexeme into it, nor from it into what
follows. -/
theorem NumbersApart.surroundings (h : NumbersApart names source) {before behind : List Lexeme}
    {lexeme : Lexeme} (whole : Lexeme.lex source = before ++ lexeme :: behind) :
    source = before.flatMap Lexeme.text ++ (lexeme.text ++ behind.flatMap Lexeme.text) ∧
      ¬ Lexeme.Touch (before.flatMap Lexeme.text) lexeme.text ∧
      ¬ Lexeme.Touch lexeme.text (behind.flatMap Lexeme.text) := by
  have text := Lexeme.lex_text source
  have nonempty : ∀ lexeme ∈ Lexeme.lex source, lexeme.text ≠ [] :=
    fun _ => (Lexeme.lex_lexes source).ne_nil
  have apart := h.not_touch
  rw [whole] at text nonempty apart
  rw [List.flatMap_append, List.flatMap_cons] at text
  obtain ⟨_, after, joint⟩ := List.isChain_append.mp apart
  refine ⟨text.symm, ?_, ?_⟩
  · rcases List.eq_nil_or_concat before with rfl | ⟨others, last, rfl⟩
    · rintro ⟨none, _⟩
      cases none
    · intro touch
      rw [List.concat_eq_append] at touch joint nonempty
      refine joint last (by simp) lexeme rfl ⟨?_, touch.2⟩
      have some := nonempty last (by simp)
      have first := touch.1
      rwa [List.flatMap_append, List.flatMap_singleton,
        List.getLast?_append_of_ne_nil _ some] at first
  · cases behind with
    | nil =>
      rintro ⟨_, none⟩
      cases none
    | cons next others =>
      intro touch
      refine (List.isChain_cons_cons.mp after).1 ⟨touch.1, ?_⟩
      have some := nonempty next (by simp)
      have first := touch.2
      rwa [List.flatMap_cons, List.head?_append_of_ne_nil _ some] at first

end Mangle

/-! ### Tokens of the renamed code -/

namespace Token

open Mangle

/-- A token in the code of a layer: an identifier that is one of the names gets the suffix. -/
def renamed (names : List String) (suffix : String) (token : Token) : Lexeme :=
  if token.isIdentifier = true ∧ token.word ∈ names then
    ⟨.identifier, (mangled token.word suffix).toList⟩
  else token.lexeme

/-- Tokens in the code of a layer, except that members keep their names: the identifiers
right after a point. -/
def renamedButMembers (names : List String) (suffix : String) (member : Bool) :
    List Token → List Lexeme
  | [] => []
  | token :: rest =>
    (if member then token.lexeme else token.renamed names suffix) ::
      renamedButMembers names suffix (token.isMark '.') rest

theorem toList_mangled (name suffix : String) : (mangled name suffix).toList =
    name.toList ++ insertion suffix.toList name.toList.getLast? := by
  unfold mangled insertion
  split
  · rw [String.toList_append]
  · rw [String.toList_append, String.toList_append, List.append_assoc]
    rfl

variable {names : List String} {suffix : String}

theorem renamed_eq_lexeme_iff (nonempty : suffix.toList ≠ []) {token : Token} :
    token.renamed names suffix = token.lexeme ↔
      (token.isIdentifier = true → token.word ∉ names) := by
  unfold renamed
  split
  · next named =>
    refine iff_of_false (fun same => ?_) fun other => other named.1 named.2
    have added : insertion suffix.toList token.text.getLast? = [] := by
      have text := congrArg Lexeme.text same
      rw [toList_mangled, toList_word] at text
      exact List.append_right_eq_self.mp text
    unfold insertion at added
    split at added
    · exact nonempty added
    · cases added
  · next other => exact iff_of_true rfl fun identifier named => other ⟨identifier, named⟩

theorem map_renamed_eq_iff (nonempty : suffix.toList ≠ []) (member : Bool) (tokens : List Token) :
    tokens.map (renamed names suffix) = renamedButMembers names suffix member tokens ↔
      (member = true → ∀ token ∈ tokens.head?, token.isIdentifier = true → token.word ∉ names) ∧
      tokens.IsChain fun point token =>
        point.isMark '.' = true → token.isIdentifier = true → token.word ∉ names := by
  induction tokens generalizing member with
  | nil => simp [renamedButMembers]
  | cons token rest ih =>
    rw [List.map_cons, renamedButMembers, List.cons.injEq, ih, List.isChain_cons]
    refine and_congr ?_ (and_congr_left' ?_)
    · cases member with
      | false => simp
      | true => simpa using renamed_eq_lexeme_iff nonempty
    · exact ⟨fun h next inside point => h point next inside,
        fun h point next inside => h next inside point⟩

/-- **Of the tokens of a source, exactly the names get the suffix.** -/
theorem withInserted_lexeme {source : List Char} (apart : NumbersApart names source)
    {ends : List Nat} (places : EndsAt ends names source)
    (areNames : ∀ name ∈ names, IsName name.toList) (suffix : String) {token : Token}
    (h : token ∈ ofSource source) :
    token.lexeme.withInserted ends suffix.toList token.offset = token.renamed names suffix := by
  obtain ⟨before, lexeme, behind, whole, isToken, rfl⟩ := mem_ofLexemes.mp h
  obtain ⟨split, notBefore, notBehind⟩ := apart.surroundings whole
  have inside : lexeme ∈ Lexeme.lex source := by simp [whole]
  have lexes := Lexeme.lex_lexes source
  rw [Nat.zero_add]
  unfold Lexeme.withInserted renamed Token.lexeme isIdentifier Token.word
  dsimp only
  cases kind : lexeme.kind with
  | identifier =>
    have name := lexes.isName inside kind
    have stops : (before.flatMap Lexeme.text).getLast?.any isIdentifierPart = false ∧
        (behind.flatMap Lexeme.text).head?.any isIdentifierPart = false := by
      constructor
      · exact Bool.eq_false_iff.mpr fun goesOn => notBefore ⟨goesOn, name.any_ends.1⟩
      · exact Bool.eq_false_iff.mpr fun goesOn => notBehind ⟨name.any_ends.2, goesOn⟩
    rw [places.inserted_identifier areNames split name stops.1 stops.2]
    by_cases named : String.ofList lexeme.text ∈ names
    · rw [if_pos named, if_pos ⟨by simp, named⟩, toList_mangled, String.toList_ofList]
    · rw [if_neg named, if_neg fun both => named both.2]
  | number =>
    rw [places.inserted_number areNames split (lexes.ne_nil inside) notBefore
      (apart.within lexeme inside kind)]
    rw [if_neg (by simp)]
  | mark =>
    obtain ⟨c, text, notPart⟩ := lexes.mark inside kind
    have between := places.behind areNames split
    rw [text] at between ⊢
    rw [inserted_cons _ between.1 notPart, if_neg (by simp)]
    rfl
  | blank | comment | directive => simp [Lexeme.isToken, kind] at isToken

end Token

namespace Mangle

theorem part_of_mem_suffix (node : Nat) (layerId : String) :
    ∀ c ∈ (suffix node layerId).toList, isIdentifierPart c = true := by
  intro c inside
  rw [toList_suffix] at inside
  rcases List.mem_cons.mp inside with rfl | inside
  · decide
  · rcases List.mem_append.mp inside with digit | part
    · exact isIdentifierPart_of_digit (Nat.isDigit_of_mem_toDigits (by decide) (by decide) digit)
    · have alphanum := (List.mem_filter.mp (List.mem_of_mem_take part)).2
      simp [isIdentifierPart, alphanum]

/-- The tokens of a renamed layer are those of its source with the suffix behind each name. -/
theorem tokens_renamedCode (source : String) (previous : List ShaderValue) (node : Nat)
    (layerId : String) (apart : NumbersApart (layerNames source previous) source.toList) :
    (Token.ofSource (renamedCode source previous (suffix node layerId)).toList).map Token.lexeme =
      (Token.ofSource source.toList).map
        (Token.renamed (layerNames source previous) (suffix node layerId)) := by
  have areNames : ∀ name ∈ layerNames source previous, IsName name.toList :=
    fun _ inside => isName_of_mem_layerNames inside
  have places := layerEnds_endsAt source previous
  have parts := part_of_mem_suffix node layerId
  have behind : Behind (layerEnds source previous) (byteSize []) source.toList :=
    places.behind areNames (List.nil_append _).symm
  have text : (renamedCode source previous (suffix node layerId)).toList =
      inserted (layerEnds source previous) (suffix node layerId).toList 0 source.toList := by
    rw [toList_renamedCode, applyFrom_eq, addition_of_notMem (places.zero_notMem areNames),
      List.nil_append]
  have lexes : Lexeme.lex (renamedCode source previous (suffix node layerId)).toList =
      Lexeme.eachInserted (layerEnds source previous) (suffix node layerId).toList 0
        (Lexeme.lex source.toList) := by
    rw [text, Lexeme.lex_eq_iff]
    refine (Lexeme.lex_lexes source.toList).inserted parts behind ?_
    intro token inside number
    have same := Token.withInserted_lexeme apart places areNames (suffix node layerId) inside
    rw [Token.renamed, if_neg (by simp [Token.isIdentifier, number])] at same
    exact congrArg Lexeme.text same
  calc
    (Token.ofSource (renamedCode source previous (suffix node layerId)).toList).map Token.lexeme
    _ = (Token.ofSource source.toList).map fun token =>
        token.lexeme.withInserted (layerEnds source previous) (suffix node layerId).toList
          token.offset := by
      unfold Token.ofSource
      rw [lexes, Token.lexeme_eachInserted]
    _ = (Token.ofSource source.toList).map
        (Token.renamed (layerNames source previous) (suffix node layerId)) :=
      List.map_congr_left fun _ inside =>
        Token.withInserted_lexeme apart places areNames _ inside

/-- No member has one of the names. -/
def MembersApart (names : List String) (source : List Char) : Prop :=
  (Token.ofSource source).IsChain fun point token =>
    point.isMark '.' = true → token.isIdentifier = true → token.word ∉ names

/-- The code of a layer at a node has the tokens of its source, but with the suffix of the node
behind the names of the layer where they do not stand for members. -/
def OnlyNamesRenamed (source : String) (previous : List ShaderValue) (node : Nat)
    (layerId : String) : Prop :=
  (Token.ofSource (renamedCode source previous (suffix node layerId)).toList).map Token.lexeme =
    Token.renamedButMembers (layerNames source previous) (suffix node layerId) false
      (Token.ofSource source.toList)

/-- **Renaming a layer leaves its tokens as they are but for the names, if its numbers are
apart from them.**  A member that has one of the names is taken for it: exactly the layers
without such members have only their names renamed. -/
theorem renames_only_names (source : String) (previous : List ShaderValue) (node : Nat)
    (layerId : String) (apart : NumbersApart (layerNames source previous) source.toList) :
    (Token.ofSource (renamedCode source previous (suffix node layerId)).toList).map Token.lexeme =
        (Token.ofSource source.toList).map
          (Token.renamed (layerNames source previous) (suffix node layerId)) ∧
      (OnlyNamesRenamed source previous node layerId ↔
        MembersApart (layerNames source previous) source.toList) := by
  have tokens := tokens_renamedCode source previous node layerId apart
  have nonempty : (suffix node layerId).toList ≠ [] := by
    rw [toList_suffix]
    exact List.cons_ne_nil _ _
  refine ⟨tokens, ?_⟩
  unfold OnlyNamesRenamed MembersApart
  rw [tokens, Token.map_renamed_eq_iff nonempty]
  simp

/-! ### Some layers -/

/-- A layer whose uniform is the name of nothing else. -/
def plainLayer : String :=
  unlines [
    "uniform float r;",
    "gSdfResult map(inout gSdfContext c) \x7b",
    "    return gSdfResult(length(c.position) - r * 1.5e-1, vec4(1));",
    "\x7d"]

theorem renames_only_names_plain :
    NumbersApart (layerNames plainLayer []) plainLayer.toList ∧
      OnlyNamesRenamed plainLayer [] 3 "ball-01" := by
  have names : layerNames plainLayer [] = ["r", "map", "map", "gSdfMap"] := by
    simp only [layerNames, Uniform.extract, plainLayer, toList_unlines, List.flatMap_cons,
      List.flatMap_nil, String.reduceToList]
    decide +kernel
  have apart : NumbersApart (layerNames plainLayer []) plainLayer.toList := by
    rw [names]
    simp only [plainLayer, toList_unlines, List.flatMap_cons, List.flatMap_nil,
      String.reduceToList]
    exact ⟨by decide +kernel, by decide +kernel⟩
  have members : MembersApart (layerNames plainLayer []) plainLayer.toList := by
    rw [names]
    simp only [MembersApart, plainLayer, toList_unlines, List.flatMap_cons, List.flatMap_nil,
      String.reduceToList]
    decide +kernel
  exact ⟨apart, (renames_only_names plainLayer [] 3 "ball-01" apart).2.mpr members⟩

/-- A layer in which the letter of a number is a uniform, too. -/
def numberLayer : String :=
  unlines [
    "uniform float f;",
    "gSdfResult map(inout gSdfContext c) \x7b return gSdfResult(2.f * f, vec4(1)); \x7d"]

/-- A layer in which a member of the context is a uniform, too. -/
def memberLayer : String :=
  unlines [
    "uniform vec3 position;",
    "gSdfResult map(inout gSdfContext c) \x7b",
    "    return gSdfResult(length(c.position - position), vec4(1));",
    "\x7d"]

/-- The letter of a number and a member of the context are taken for uniforms: the number is
followed by one more token, and the member has another name. -/
theorem exists_others_renamed :
    ¬ OnlyNamesRenamed numberLayer [] 0 "a" ∧ ¬ OnlyNamesRenamed memberLayer [] 0 "a" := by
  constructor
  · intro same
    have length := congrArg List.length same
    revert length
    rw [toList_renamedCode]
    simp only [layerEnds, layerSpans, Uniform.extract, numberLayer, toList_unlines,
      List.flatMap_cons, List.flatMap_nil, String.reduceToList]
    decide +kernel
  · intro same
    have name := congrArg (·[19]?.map Lexeme.text) same
    revert name
    rw [toList_renamedCode]
    simp only [layerEnds, layerSpans, Uniform.extract, memberLayer, toList_unlines,
      List.flatMap_cons, List.flatMap_nil, String.reduceToList]
    decide +kernel

end Mangle
end Collage
