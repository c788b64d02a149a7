import Collage.Proofs.Program.Logs
import Collage.Program.Standing

/-!
# The sources of the standing programs

The three programs that are there whatever the document says must be built before anything can
be drawn.  Their sources have no error line and declare the uniforms that these programs cannot
work without: `Buildable source names`.  This is found by reading the sources.

A text is first written out, line by line, as a list of characters (`WrittenOut`), since reading
this is quick, and reading a text is not.  What stands in front of every layer is written out once
(`writtenHeader`).
-/

namespace Collage

set_option maxRecDepth 100000

/-- The characters of a text. -/
def WrittenOut (text : String) (characters : List Char) : Prop :=
  text.toList = characters

namespace WrittenOut

variable {text other : String} {front back : List Char}

theorem of_characters (characters : List Char) : WrittenOut (String.ofList characters) characters :=
  String.toList_ofList

theorem append (h : WrittenOut text front) (h' : WrittenOut other back) :
    WrittenOut (text ++ other) (front ++ back) := by
  rw [WrittenOut, String.toList_append, h, h']

theorem unlines_nil : WrittenOut (unlines []) [] :=
  rfl

theorem unlines_cons {rest : List String} (h : WrittenOut text front)
    (h' : WrittenOut (unlines rest) back) :
    WrittenOut (unlines (text :: rest)) (front ++ '\n' :: back) := by
  rw [WrittenOut, toList_unlines] at h' ⊢
  rw [List.flatMap_cons, h, h', List.append_assoc]
  rfl

theorem endLine (h : WrittenOut text front) : WrittenOut (WrappedSource.endLine text)
    (if front.getLast? = some '\n' then front else front ++ ['\n']) := by
  have same := h
  rw [WrittenOut] at same
  rw [WrappedSource.endLine, same]
  split
  · exact h
  · exact h.append (.of_characters _)

theorem constantName {mode : BlendMode} {first : Char} (h : WrittenOut mode.name (first :: back)) :
    WrittenOut mode.constantName (['g', 'B', 'l', 'e', 'n', 'd'] ++ first.toUpper :: back) := by
  rw [WrittenOut] at h
  rw [BlendMode.constantName, h]
  exact .append (.of_characters _) (.of_characters _)

end WrittenOut

/-! ### Sources without an error line -/

/-- A text without `#error` has no error line. -/
theorem errorLine?_eq_none {source : List Char} (absent : occursIn "#error".toList source = false) :
    Device.errorLine? source = none := by
  rw [Device.errorLine?, List.findSome?_eq_none_iff]
  rintro ⟨line, number⟩ inside
  dsimp only
  cases found : withoutStart? "#error".toList (trimStart line) with
  | none => rfl
  | some rest =>
    have begins : "#error".toList <+: trimStart line :=
      ⟨rest, (Diagnostic.eq_append_of_withoutStart? found).symm⟩
    have among : line ∈ lines source := List.fst_mem_of_mem_zipIdx inside
    have there := Diagnostic.occursIn_of_infix
      (begins.isInfix.trans ((List.dropWhile_suffix _).isInfix.trans (infix_of_mem_lines among)))
    rw [absent] at there
    cases there

/-! ### Sources that can be built -/

/-- A source without an error line that declares some uniforms. -/
structure Buildable (names : List String) (source : List Char) : Prop where
  accepted : Device.errorLine? source = none
  declared : ∀ name ∈ names, name ∈ Device.declaredUniforms source

instance (names : List String) (source : List Char) : Decidable (Buildable names source) :=
  decidable_of_iff (Device.errorLine? source = none ∧
    ∀ name ∈ names, name ∈ Device.declaredUniforms source)
    ⟨fun h => ⟨h.1, h.2⟩, fun h => ⟨h.accepted, h.declared⟩⟩

theorem WrittenOut.builds {text : String} {characters : List Char} {names : List String}
    (written : WrittenOut text characters) (h : Buildable names characters) :
    Buildable names text.toList := by
  rw [WrittenOut] at written
  exact written ▸ h

theorem builds_copy : Buildable ["gTexture", "gFlipY"] (ShaderLibrary.copy "300 es").toList := by
  apply WrittenOut.builds
  · unfold ShaderLibrary.copy
    apply WrittenOut.unlines_cons (.append (.of_characters _) (.of_characters _))
    repeat apply WrittenOut.unlines_cons (.of_characters _)
    exact WrittenOut.unlines_nil
  · decide +kernel

/-- The constants of the blend modes, written out. -/
def writtenBlendConstants :
    { characters : List Char // WrittenOut ShaderLibrary.blendConstants characters } := by
  apply Subtype.mk
  unfold ShaderLibrary.blendConstants BlendMode.all
  simp only [List.map_cons, List.map_nil]
  iterate 27
    apply WrittenOut.unlines_cons
    · apply WrittenOut.append
      · apply WrittenOut.append
        · apply WrittenOut.append (.of_characters _)
          apply WrittenOut.constantName
          exact .of_characters _
        · exact .of_characters _
      · exact .of_characters _
  exact WrittenOut.unlines_nil

/-- What stands in front of every layer, written out. -/
def writtenHeader :
    { characters : List Char // WrittenOut (WrappedSource.header "300 es") characters } := by
  apply Subtype.mk
  unfold WrappedSource.header ShaderLibrary.declarations ShaderLibrary.hashFunction
    ShaderLibrary.blendFunctions ShaderLibrary.helpers
  simp only [String.append_assoc]
  iterate 3 apply WrittenOut.append (.of_characters _)
  apply WrittenOut.append
  · repeat apply WrittenOut.unlines_cons (.of_characters _)
    exact WrittenOut.unlines_nil
  apply WrittenOut.append writtenBlendConstants.2
  iterate 2
    apply WrittenOut.append
    · repeat apply WrittenOut.unlines_cons (.of_characters _)
      exact WrittenOut.unlines_nil
  repeat apply WrittenOut.unlines_cons (.of_characters _)
  exact WrittenOut.unlines_nil

/-- There is no error line in front of the layers. -/
theorem absent_writtenHeader {back : List Char} (absent : occursIn "#error".toList back = false) :
    occursIn "#error".toList (writtenHeader.1 ++ back) = false := by
  have alone : occursIn "#error".toList writtenHeader.1 = false := by decide +kernel
  have last : writtenHeader.1.getLast? = some '\n' := by
    rw [← writtenHeader.2]
    exact Wrapping.ended_header "300 es"
  obtain ⟨front, same⟩ := List.getLast?_eq_some_iff.mp last
  have unmarked : '\n' ∉ "#error".toList := by decide
  rw [same, Diagnostic.occursIn_append_cons unmarked, Bool.or_eq_false_iff] at alone
  rw [same, List.append_assoc, List.singleton_append, Diagnostic.occursIn_append_cons unmarked,
    alone.1, absent, Bool.or_false]

/-- A source that begins as every layer does can be built if there is no error line behind. -/
theorem WrittenOut.builds_layer {text : String} {back : List Char} {names : List String}
    (written : WrittenOut text (writtenHeader.1 ++ back))
    (absent : occursIn "#error".toList back = false)
    (declared : ∀ name ∈ names, name ∈ Device.declaredUniforms (writtenHeader.1 ++ back)) :
    Buildable names text.toList :=
  written.builds ⟨errorLine?_eq_none (absent_writtenHeader absent), declared⟩

namespace WrappedSource

theorem text_layer {code : String} (ended : Ended code) (version : String) :
    (layer version code none).text = header version ++ (code ++ ShaderLibrary.footer) := by
  have whole : endLine code = code := if_pos ended
  rw [layer, assemble, whole, sceneText, String.append_empty, String.append_assoc]

/-- The layers of the standing programs can be built. -/
theorem builds_layers :
    Buildable ["gTexture", "gPreviousLayer", "gBlendMode", "gOpacity"]
      (layer "300 es" ShaderLibrary.texture none).text.toList ∧
    Buildable ["gPreviousLayer", "gBlendMode", "gOpacity"]
      (layer "300 es" ShaderLibrary.checkerboard none).text.toList := by
  have texture : Ended ShaderLibrary.texture := ended_unlines _ _
  have checkerboard : Ended ShaderLibrary.checkerboard := ended_unlines _ _
  rw [text_layer texture, text_layer checkerboard]
  constructor
  all_goals
    apply WrittenOut.builds_layer
    · apply WrittenOut.append writtenHeader.2
      apply WrittenOut.append
      iterate 2
        · repeat apply WrittenOut.unlines_cons (.of_characters _)
          exact WrittenOut.unlines_nil
    iterate 2 decide +kernel

end WrappedSource
end Collage
