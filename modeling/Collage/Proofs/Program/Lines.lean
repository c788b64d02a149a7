import Collage.Program.Wrapped
import Mathlib.Data.List.Basic

/-!
# Where the lines of a layer are in its program

Lines are counted by their ends: `lineAt` is the line that a byte of a text is on, and
`lineStart` the byte at which a line starts.  When a text is put together, lines add up
(`lineAt_append`), so that code behind some ended lines has its lines behind them.

`Wrapping` is a way to make a program of the code of a layer.  Each stands behind a front that
ends its last line, and so each line of the code is on the line of the program that it is taken
to be on (`located_wrap`).
-/

namespace Collage

/-! ### Pieces and lines -/

theorem splitAtAll_cons_of_pos {p : Char → Bool} {c : Char} (mark : p c) (rest : List Char) :
    splitAtAll p (c :: rest) = [] :: splitAtAll p rest := by
  rw [splitAtAll, if_pos mark]

/-- A text with pieces has a first one, and what is no mark in front of it belongs to it. -/
theorem exists_splitAtAll (p : Char → Bool) (text : List Char) :
    ∃ piece pieces, splitAtAll p text = piece :: pieces ∧
      ∀ c, ¬ p c → splitAtAll p (c :: text) = (c :: piece) :: pieces := by
  have first : ∀ c, ¬ p c → ∀ piece pieces, splitAtAll p text = piece :: pieces →
      splitAtAll p (c :: text) = (c :: piece) :: pieces := by
    intro c plain piece pieces same
    rw [splitAtAll, if_neg plain, same]
  cases same : splitAtAll p text with
  | cons piece pieces => exact ⟨piece, pieces, rfl, fun c plain => first c plain _ _ same⟩
  | nil =>
    exfalso
    cases text with
    | nil => cases same
    | cons d rest =>
      rw [splitAtAll] at same
      split at same
      · cases same
      · split at same <;> cases same

theorem splitAtAll_eq (p : Char → Bool) : ∀ text : List Char, splitAtAll p text = text.splitOnP p
  | [] => List.splitOnP_nil.symm
  | c :: rest => by
    rw [List.splitOnP_cons_eq_if_modifyHead, ← splitAtAll_eq p rest]
    split
    · next mark => exact splitAtAll_cons_of_pos mark rest
    · next plain =>
      obtain ⟨piece, pieces, same, first⟩ := exists_splitAtAll p rest
      rw [first c plain, same, List.modifyHead_cons]

theorem length_splitAtAll (p : Char → Bool) : ∀ text : List Char,
    (splitAtAll p text).length = text.countP p + 1
  | [] => rfl
  | c :: rest => by
    have ih := length_splitAtAll p rest
    by_cases mark : p c
    · rw [splitAtAll_cons_of_pos mark, List.length_cons, ih, List.countP_cons_of_pos mark]
    · obtain ⟨piece, pieces, same, first⟩ := exists_splitAtAll p rest
      rw [same] at ih
      rw [first c mark, List.countP_cons_of_neg mark, ← ih, List.length_cons, List.length_cons]

/-- The last piece is empty just if nothing or a mark is at the end. -/
theorem getLast?_splitAtAll (p : Char → Bool) : ∀ text : List Char,
    (splitAtAll p text).getLast? = some [] ↔ text.getLast?.all p
  | [] => by simp [splitAtAll]
  | [c] => by by_cases mark : p c <;> simp [splitAtAll, mark]
  | c :: d :: rest => by
    rw [List.getLast?_cons_cons, ← getLast?_splitAtAll p (d :: rest)]
    obtain ⟨piece, pieces, same, first⟩ := exists_splitAtAll p (d :: rest)
    by_cases mark : p c
    · rw [splitAtAll_cons_of_pos mark, same, List.getLast?_cons_cons]
    · rw [first c mark, same]
      cases pieces with
      | cons next pieces => rw [List.getLast?_cons_cons, List.getLast?_cons_cons]
      | nil =>
        have some : piece ≠ [] := by
          obtain ⟨start, more, next, begins⟩ := exists_splitAtAll p rest
          by_cases mark' : p d
          · rw [splitAtAll_cons_of_pos mark', next] at same
            cases same
          · rw [begins d mark'] at same
            cases same
            exact List.cons_ne_nil _ _
        simp [some]

/-- There are as many lines as ends of lines, and one more if something is behind the last. -/
theorem length_lines (text : List Char) :
    (lines text).length =
      text.count '\n' + if text.getLast?.all (· = '\n') then 0 else 1 := by
  have last := getLast?_splitAtAll (· = '\n') text
  have pieces := length_splitAtAll (· = '\n') text
  rw [lines, List.length_mapIdx, List.count_eq_countP]
  split
  · next ended =>
    rw [if_pos (last.mp ended), List.length_dropLast, pieces]
    rfl
  · next more =>
    rw [if_neg (mt last.mpr more), pieces]
    rfl

theorem infix_of_mem_splitAtAll {p : Char → Bool} : ∀ {text piece : List Char},
    piece ∈ splitAtAll p text → piece <:+: text := by
  -- the first piece is even at the beginning, which carries the induction
  have both : ∀ text : List Char, ∃ first others, splitAtAll p text = first :: others ∧
      first <+: text ∧ ∀ piece ∈ others, piece <:+: text := by
    intro text
    induction text with
    | nil => exact ⟨[], [], rfl, List.nil_prefix, List.forall_mem_nil _⟩
    | cons c rest ih =>
      obtain ⟨first, others, same, begins, inside⟩ := ih
      have within : ∀ piece ∈ others, piece <:+: c :: rest := fun piece among =>
        (inside piece among).trans (List.suffix_cons c rest).isInfix
      by_cases mark : p c
      · refine ⟨[], first :: others, ?_, List.nil_prefix, ?_⟩
        · rw [splitAtAll_cons_of_pos mark, same]
        · exact List.forall_mem_cons.mpr
            ⟨begins.isInfix.trans (List.suffix_cons c rest).isInfix, within⟩
      · exact ⟨c :: first, others, by rw [splitAtAll, if_neg mark, same],
          List.cons_prefix_cons.mpr ⟨rfl, begins⟩, within⟩
  intro text piece among
  obtain ⟨first, others, same, begins, inside⟩ := both text
  rw [same] at among
  rcases List.mem_cons.mp among with rfl | among
  · exact begins.isInfix
  · exact inside piece among

/-- A line stands in its text. -/
theorem infix_of_mem_lines {text line : List Char} (inside : line ∈ lines text) :
    line <:+: text := by
  unfold lines at inside
  obtain ⟨index, bound, same⟩ := List.mem_mapIdx.mp inside
  generalize kept : (if (splitAtAll (· = '\n') text).getLast? = some [] then
    (splitAtAll (· = '\n') text).dropLast else splitAtAll (· = '\n') text) = pieces at bound same
  have among : ∀ piece ∈ pieces, piece <:+: text := by
    rw [← kept]
    intro piece inside
    split at inside
    · exact infix_of_mem_splitAtAll ((List.dropLast_prefix _).subset inside)
    · exact infix_of_mem_splitAtAll inside
  have whole := among _ (List.getElem_mem bound)
  have either : ∀ (cut : Prop) [Decidable cut],
      (if cut then pieces[index].dropLast else pieces[index]) <:+: text := by
    intro cut _
    split
    · exact (List.dropLast_prefix _).isInfix.trans whole
    · exact whole
  exact same ▸ either _

/-! ### Lines and bytes -/

/-- The first lines of a text, with their ends. -/
def firstLines : Nat → List Char → List Char
  | 0, _ => []
  | _, [] => []
  | count + 1, c :: rest => c :: firstLines (if c = '\n' then count else count + 1) rest

/-- The byte at which a line starts; the first line has the number one. -/
def lineStart (text : List Char) (line : Nat) : Nat :=
  byteSize (firstLines (line - 1) text)

/-- The line that a byte is on; its end belongs to a line. -/
def lineAt : List Char → Nat → Nat
  | [], _ => 1
  | c :: rest, byte =>
    if byte < c.utf8Size then 1
    else lineAt rest (byte - c.utf8Size) + if c = '\n' then 1 else 0

/-- The first lines that a text has are a part of it. -/
theorem firstLines_spec : ∀ (count : Nat) (text : List Char), count ≤ text.count '\n' →
    (firstLines count text).count '\n' = count ∧
      ∃ rest, text = firstLines count text ++ rest ∧ rest.count '\n' = text.count '\n' - count
  | 0, text, _ => by
    rw [firstLines]
    exact ⟨rfl, text, rfl, rfl⟩
  | count + 1, [], many => absurd many (by simp)
  | count + 1, c :: rest, many => by
    rw [firstLines]
    split
    · next mark =>
      subst mark
      rw [List.count_cons_self] at many
      obtain ⟨counted, behind, same, left⟩ := firstLines_spec count rest (by omega)
      refine ⟨by rw [List.count_cons_self, counted], behind, by rw [List.cons_append, ← same], ?_⟩
      rw [left, List.count_cons_self]
      omega
    · next plain =>
      rw [List.count_cons_of_ne plain] at many
      obtain ⟨counted, behind, same, left⟩ := firstLines_spec (count + 1) rest many
      refine ⟨by rw [List.count_cons_of_ne plain, counted], behind,
        by rw [List.cons_append, ← same], ?_⟩
      rw [left, List.count_cons_of_ne plain]

/-- **Lines add up** when texts are put together. -/
theorem lineAt_append : ∀ (front back : List Char) (byte : Nat),
    lineAt (front ++ back) (byteSize front + byte) = front.count '\n' + lineAt back byte
  | [], back, byte => by simp
  | c :: front, back, byte => by
    have shift : byteSize (c :: front) + byte - c.utf8Size = byteSize front + byte := by
      rw [byteSize_cons]
      omega
    rw [List.cons_append, lineAt, if_neg (by rw [byteSize_cons]; omega), shift,
      lineAt_append front back byte, List.count_cons]
    split
    · next mark => simp [mark]; omega
    · next plain => simp [plain]

theorem lineAt_zero (text : List Char) : lineAt text 0 = 1 := by
  cases text with
  | nil => rfl
  | cons c rest => rw [lineAt, if_pos c.utf8Size_pos]

/-- The first lines of a text are those of a longer one. -/
theorem firstLines_append (back : List Char) : ∀ (count : Nat) (front : List Char),
    count ≤ front.count '\n' → firstLines count (front ++ back) = firstLines count front
  | 0, _, _ => by rw [firstLines, firstLines]
  | count + 1, [], many => absurd many (by simp)
  | count + 1, c :: front, many => by
    rw [List.cons_append, firstLines, firstLines]
    split
    · next mark =>
      rw [mark, List.count_cons_self] at many
      rw [firstLines_append back count front (by omega)]
    · next plain =>
      rw [List.count_cons_of_ne plain] at many
      rw [firstLines_append back (count + 1) front many]

/-! ### Code between other code -/

namespace WrappedSource

/-- A text whose last line has an end. -/
def Ended (text : String) : Prop :=
  text.toList.getLast? = some '\n'

theorem Ended.behind {back : String} (h : Ended back) (front : String) : Ended (front ++ back) := by
  rw [Ended, String.toList_append, List.getLast?_append, h]
  rfl

theorem ended_unlines (first : String) (rest : List String) : Ended (unlines (first :: rest)) := by
  rw [Ended, toList_unlines, ← List.dropLast_concat_getLast (List.cons_ne_nil first rest),
    List.flatMap_append, List.flatMap_singleton, ← List.append_assoc, List.getLast?_concat]

theorem ended_endLine (text : String) : Ended (endLine text) := by
  have line : Ended "\n" := rfl
  unfold endLine
  split
  · next ended => exact ended
  · exact line.behind text

theorem Ended.lineCount_eq {text : String} (h : Ended text) :
    lineCount text = text.toList.count '\n' := by
  rw [lineCount, length_lines, h]
  rfl

/-- The lines of code are those whose ends there are once the last one has an end. -/
theorem count_endLine (code : String) :
    (endLine code).toList.count '\n' = max (lineCount code) 1 := by
  unfold endLine
  split
  · next ended =>
    have some : 0 < code.toList.count '\n' :=
      List.count_pos_iff.mpr (List.mem_of_getLast? ended)
    rw [Ended.lineCount_eq ended]
    omega
  · next more =>
    rw [String.toList_append, List.count_append, lineCount, length_lines]
    cases last : code.toList.getLast? with
    | none =>
      rw [List.getLast?_eq_none_iff.mp last]
      rfl
    | some c =>
      rw [last] at more
      rw [Option.all_some, if_neg (by simpa using more)]
      exact (Nat.max_eq_left (Nat.le_add_left _ _)).symm

/-- With the end of its last line code begins with the same lines. -/
theorem firstLines_endLine {code : String} {count : Nat}
    (many : count < (endLine code).toList.count '\n') :
    firstLines count (endLine code).toList = firstLines count code.toList := by
  unfold endLine at many ⊢
  split
  · rfl
  · next more =>
    rw [if_neg more, String.toList_append, List.count_append] at many
    rw [String.toList_append]
    exact firstLines_append _ _ _ (Nat.le_of_lt_succ many)

theorem prefix_endLine (code : String) : code.toList <+: (endLine code).toList := by
  unfold endLine
  split
  · exact List.prefix_rfl
  · rw [String.toList_append]
    exact List.prefix_append _ _

/-- A program in which code stands behind other code, and each line of it is on the line of the
program that it is taken to be on. -/
structure Located (before code : String) (wrapped : WrappedSource) : Prop where
  text : before.toList ++ code.toList <+: wrapped.text.toList
  /-- code has a line for each end of a line, one more if something is behind the last end, and
  at least one -/
  counted : wrapped.codeLines =
    max (code.toList.count '\n' + if code.toList.getLast?.all (· = '\n') then 0 else 1) 1
  lines : ∀ line, 1 ≤ line → line ≤ wrapped.codeLines →
    byteSize before.toList + lineStart code.toList line < byteSize wrapped.text.toList ∧
      lineAt wrapped.text.toList (byteSize before.toList + lineStart code.toList line) =
        wrapped.linesBefore + line

/-- **Each line of code is on its line of the program** if the code in front ends its last line. -/
theorem located_assemble {before : String} (ended : Ended before) (code after : String) :
    Located before code (assemble before code after) := by
  refine ⟨?_, congrArg (max · 1) (length_lines code.toList), fun line first last => ?_⟩
  · rw [assemble, String.toList_append, String.toList_append, List.append_assoc]
    exact (List.prefix_append_right_inj _).mpr
      ((prefix_endLine code).trans (List.prefix_append _ _))
  have many : line - 1 < (endLine code).toList.count '\n' := by
    rw [count_endLine]
    exact Nat.lt_of_lt_of_le (by omega) last
  obtain ⟨counted, rest, same, left⟩ := firstLines_spec (line - 1) (endLine code).toList
    (Nat.le_of_lt many)
  rw [firstLines_endLine many] at counted same
  have text : (assemble before code after).text.toList =
      before.toList ++ (firstLines (line - 1) code.toList ++ (rest ++ after.toList)) := by
    rw [assemble, String.toList_append, String.toList_append, same]
    simp only [List.append_assoc]
  have begins := lineAt_append (firstLines (line - 1) code.toList) (rest ++ after.toList) 0
  rw [Nat.add_zero, lineAt_zero, counted] at begins
  have some : 0 < byteSize rest := by
    cases rest with
    | nil => exact absurd left (by rw [List.count_nil]; omega)
    | cons c rest => exact Nat.lt_of_lt_of_le c.utf8Size_pos (Nat.le_add_right _ _)
  rw [text, lineStart]
  constructor
  · simp only [byteSize_append]
    omega
  · rw [lineAt_append, begins, ← ended.lineCount_eq]
    change lineCount before + (line - 1 + 1) = lineCount before + line
    omega

end WrappedSource

/-! ### The programs of a layer -/

/-- A way to make a program of the code of a layer. -/
inductive Wrapping
  | layer (scene : Option String)
  | standalone (arity : Option Arity)

namespace Wrapping

open WrappedSource

/-- The program. -/
def wrap (version code : String) : Wrapping → WrappedSource
  | .layer scene => WrappedSource.layer version code scene
  | .standalone arity => WrappedSource.standalone version code arity

/-- What stands in front of the code. -/
def front (version : String) : Wrapping → String
  | .layer scene => header version ++ sceneText scene
  | .standalone _ =>
    header version ++ ShaderLibrary.distancePrelude ++ ShaderLibrary.standaloneDispatch

theorem exists_assemble (version code : String) : ∀ wrapping : Wrapping,
    ∃ after, wrapping.wrap version code = assemble (wrapping.front version) code after
  | .layer _ => ⟨_, rfl⟩
  | .standalone _ => ⟨_, rfl⟩

theorem ended_header (version : String) : Ended (header version) :=
  (ended_unlines _ _).behind _

theorem ended_front (version : String) : ∀ wrapping : Wrapping, Ended (wrapping.front version)
  | .layer none => by
    rw [front, sceneText, String.append_empty]
    exact ended_header version
  | .layer (some scene) => (ended_endLine scene).behind _
  | .standalone _ => (ended_unlines _ _).behind _

/-- **Each line of a layer is on its line of the program.** -/
theorem located_wrap (wrapping : Wrapping) (version code : String) :
    Located (wrapping.front version) code (wrapping.wrap version code) := by
  obtain ⟨after, same⟩ := exists_assemble version code wrapping
  rw [same]
  exact located_assemble (ended_front version wrapping) code after

end Wrapping
end Collage
