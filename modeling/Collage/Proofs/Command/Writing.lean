import Collage.Command.Run
import Collage.Proofs.Program.Lines

/-!
# Files written into a folder

`Folder.content?` is what the file at a path holds.  Of files that were written into a folder one
after another, each path then shows what the last one with its name held (`writeInto_written`): names
of single files (`IsFileName`) lead to different places (`Folder.place_joinPath`), and no file that
is written changes where a path leads (`Folder.within?_eq`).
-/

namespace Collage

/-! ### Paths of files -/

/-- A name of a single file: no stroke divides it, and it does not stand for a folder. -/
structure IsFileName (name : String) : Prop where
  filled : name.toList ≠ []
  whole : '/' ∉ name.toList
  notHere : name ≠ "."
  notUp : name ≠ ".."

theorem splitAtAll_of_forall_not {p : Char → Bool} : ∀ {text : List Char},
    (∀ c ∈ text, ¬ p c) → splitAtAll p text = [text]
  | [], _ => rfl
  | c :: rest, plain => by
    obtain ⟨here, others⟩ := List.forall_mem_cons.mp plain
    rw [splitAtAll, if_neg here, splitAtAll_of_forall_not others]

theorem splitAtAll_append_cons {p : Char → Bool} {mark : Char} (isMark : p mark)
    (rest : List Char) : ∀ text : List Char,
    splitAtAll p (text ++ mark :: rest) = splitAtAll p text ++ splitAtAll p rest
  | [] => splitAtAll_cons_of_pos isMark rest
  | c :: text => by
    have ih := splitAtAll_append_cons isMark rest text
    by_cases also : p c
    · rw [List.cons_append, splitAtAll_cons_of_pos also, splitAtAll_cons_of_pos also, ih]
      rfl
    · obtain ⟨piece, pieces, same, first⟩ := exists_splitAtAll p text
      obtain ⟨piece', pieces', same', first'⟩ := exists_splitAtAll p (text ++ mark :: rest)
      rw [same', same] at ih
      obtain ⟨rfl, rfl⟩ := List.cons.inj ih
      rw [List.cons_append, first' c also, first c also]
      rfl

/-- The path of a file in a folder has the file's name as its last part. -/
theorem splitPath_joinPath {name : String} (named : IsFileName name) (folder : String) :
    splitPath (joinPath folder name) = splitPath folder ++ [name] := by
  have single : splitAtAll (· = '/') name.toList = [name.toList] :=
    splitAtAll_of_forall_not fun c inside same => named.whole (of_decide_eq_true same ▸ inside)
  have parts : ∀ front : List Char,
      ((splitAtAll (· = '/') (front ++ '/' :: name.toList)).filter (!·.isEmpty)).map String.ofList =
        ((splitAtAll (· = '/') front).filter (!·.isEmpty)).map String.ofList ++ [name] := by
    intro front
    rw [splitAtAll_append_cons (by rfl), single, List.filter_append, List.map_append]
    simp [named.filled]
  unfold splitPath joinPath
  split
  · next ended =>
    obtain ⟨front, same⟩ := List.getLast?_eq_some_iff.mp ended
    rw [String.toList_append, same, List.append_assoc, List.singleton_append, parts,
      splitAtAll_append_cons (by rfl), List.filter_append]
    simp [splitAtAll]
  · rw [String.toList_append, String.toList_append, List.append_assoc]
    exact parts folder.toList

namespace Place

/-- The folder that a place is. -/
def folder? : Place → Option (List String)
  | .folder parts => some parts
  | _ => none

end Place

namespace Folder

variable {folder other : Folder} {dir name : String}

/-- What the file at a path holds. -/
def content? (folder : Folder) (path : String) : Option FileContent :=
  match folder.place path with
  | .file parts => folder.files.get? parts
  | _ => none

/-- The folder that holds the files whose paths begin with a path. -/
def within? (folder : Folder) (dir : String) : Option (List String) :=
  if dir.toList = [] ∨ isOutside dir then none
  else ((splitPath dir).foldl folder.step (.folder [])).folder?

theorem folder?_step (same : folder.folders = other.folders) {place place' : Place}
    (here : place.folder? = place'.folder?) (part : String) :
    (folder.step place part).folder? = (other.step place' part).folder? := by
  have looked : ∀ path, (folder.lookUp path).folder? = (other.lookUp path).folder? := by
    intro path
    unfold lookUp
    rw [same]
    split
    · rfl
    · split <;> split <;> rfl
  cases place <;> cases place' <;> cases here
  case folder.folder path =>
    unfold step
    dsimp only
    split
    · rfl
    split
    · split <;> rfl
    · exact looked _
  all_goals rfl

theorem folder?_foldl (same : folder.folders = other.folders) : ∀ (parts : List String)
    {place place' : Place}, place.folder? = place'.folder? →
    (parts.foldl folder.step place).folder? = (parts.foldl other.step place').folder?
  | [], _, _, here => here
  | part :: rest, _, _, here => folder?_foldl same rest (folder?_step same here part)

theorem within?_eq (same : folder.folders = other.folders) (dir : String) :
    folder.within? dir = other.within? dir := by
  unfold within?
  rw [folder?_foldl same (splitPath dir) rfl]

/-- A path of a file begins as that of its folder does, and ends with its name. -/
theorem toList_joinPath (dir name : String) : ∃ between : List Char,
    (joinPath dir name).toList = dir.toList ++ (between ++ name.toList) ∧
      (dir.toList = [] → between = ['/']) := by
  unfold joinPath
  split
  · next ended =>
    exact ⟨[], String.toList_append, fun none => by rw [none] at ended; cases ended⟩
  · exact ⟨['/'], by rw [String.toList_append, String.toList_append, List.append_assoc]; rfl,
      fun _ => rfl⟩

/-- **Where the path of a file leads**: into its folder, if this is there. -/
theorem place_joinPath (named : IsFileName name) (folder : Folder) (dir : String) :
    folder.place (joinPath dir name) =
      ((folder.within? dir).map fun parts => folder.lookUp (parts ++ [name])).getD .nowhere := by
  obtain ⟨between, text, only⟩ := toList_joinPath dir name
  have outside : isOutside (joinPath dir name) ↔ dir.toList = [] ∨ isOutside dir := by
    unfold isOutside
    rw [text]
    cases first : dir.toList with
    | nil => simp [only first]
    | cons c rest => simp
  have last : (joinPath dir name).toList.getLast? ≠ some '/' := by
    obtain ⟨front, c, ended⟩ := (List.eq_nil_or_concat name.toList).resolve_left named.filled
    rw [List.concat_eq_append] at ended
    rw [text, ended, ← List.append_assoc, ← List.append_assoc, List.getLast?_concat]
    rintro ⟨⟩
    exact named.whole (by rw [ended]; simp)
  unfold place within?
  by_cases away : dir.toList = [] ∨ isOutside dir
  · rw [if_pos away, if_pos (outside.mpr away)]
    rfl
  rw [if_neg away, if_neg (mt outside.mp away), splitPath_joinPath named, List.foldl_append,
    List.foldl_cons, List.foldl_nil]
  simp only [if_neg last]
  cases (splitPath dir).foldl folder.step (.folder []) with
  | folder parts =>
    rw [step, if_neg named.notHere, if_neg named.notUp]
    unfold Place.folder?
    dsimp only [Option.map_some, Option.getD_some]
    cases folder.lookUp (parts ++ [name]) <;> rfl
  | nowhere | file | free => rfl

/-- What is written to a file in a folder that is there: a file, unless there is a folder with the
name. -/
theorem write?_joinPath (named : IsFileName name) (folder : Folder) (dir : String)
    (content : FileContent) :
    folder.write? (joinPath dir name) content =
      (folder.within? dir).bind fun parts =>
        if folder.folders.contains (parts ++ [name]) then none
        else some { folder with files := folder.files.set (parts ++ [name]) content } := by
  unfold write?
  rw [place_joinPath named]
  cases folder.within? dir with
  | none => rfl
  | some parts =>
    dsimp only [Option.map_some, Option.getD_some, Option.bind_some]
    by_cases taken : folder.folders.contains (parts ++ [name])
    · rw [lookUp, if_pos taken, if_pos taken]
    · rw [lookUp, if_neg taken, if_neg taken]
      by_cases known : folder.files.contains (parts ++ [name])
      · rw [if_pos known]
      · rw [if_neg known]

theorem content?_joinPath (named : IsFileName name) (folder : Folder) (dir : String) :
    folder.content? (joinPath dir name) = (folder.within? dir).bind fun parts =>
      if folder.folders.contains (parts ++ [name]) then none
      else folder.files.get? (parts ++ [name]) := by
  unfold content?
  rw [place_joinPath named]
  cases folder.within? dir with
  | none => rfl
  | some parts =>
    dsimp only [Option.map_some, Option.getD_some, Option.bind_some]
    by_cases taken : folder.folders.contains (parts ++ [name])
    · rw [lookUp, if_pos taken, if_pos taken]
    · rw [lookUp, if_neg taken, if_neg taken]
      by_cases known : folder.files.contains (parts ++ [name])
      · rw [if_pos known]
      · rw [if_neg known]
        rw [Table.contains, Bool.not_eq_true, Option.isSome_eq_false_iff] at known
        exact (Option.isNone_iff_eq_none.mp known).symm

/-- **A file that was written holds what was written, and the others what they held.** -/
theorem content?_write {content : FileContent} {written : Folder} {asked : String}
    (named : IsFileName name) (namedToo : IsFileName asked)
    (done : folder.write? (joinPath dir name) content = some written) :
    written.folders = folder.folders ∧ written.content? (joinPath dir asked) =
      if asked = name then some content else folder.content? (joinPath dir asked) := by
  rw [write?_joinPath named] at done
  obtain ⟨parts, there, done⟩ := Option.bind_eq_some_iff.mp done
  split at done
  · cases done
  next free =>
    have folders : written.folders = folder.folders := (congrArg folders (Option.some.inj done)).symm
    have files : written.files = folder.files.set (parts ++ [name]) content :=
      (congrArg Folder.files (Option.some.inj done)).symm
    refine ⟨folders, ?_⟩
    rw [content?_joinPath namedToo, content?_joinPath namedToo, within?_eq folders, there, folders,
      files, Option.bind_some, Option.bind_some]
    by_cases same : asked = name
    · subst same
      rw [if_pos rfl, if_neg free, Table.get?_set_self]
    · rw [if_neg same, Table.get?_set_other]
      exact fun equal => same (List.singleton_inj.mp (List.append_cancel_left equal))

end Folder

/-! ### Several files -/

/-- What the last of several files with a name holds. -/
def lastNamed? (name : String) (files : List (String × FileContent)) : Option FileContent :=
  ((files.filter (·.1 = name)).getLast?).map (·.2)

theorem lastNamed?_cons (name : String) (file : String × FileContent)
    (files : List (String × FileContent)) :
    lastNamed? name (file :: files) =
      (lastNamed? name files).or (if name = file.1 then some file.2 else none) := by
  unfold lastNamed?
  by_cases same : name = file.1
  · rw [if_pos same, List.filter_cons_of_pos (by simp [same])]
    cases rest : files.filter (·.1 = name) with
    | nil => rfl
    | cons first others => rw [List.getLast?_cons_cons]; simp [List.getLast?_cons]
  · rw [if_neg same, List.filter_cons_of_neg (by simpa [eq_comm] using same), Option.or_none]

/-- Where names differ each file is the last one with its name. -/
theorem lastNamed?_of_mem {files : List (String × FileContent)}
    (different : (files.map (·.1)).Nodup) {file : String × FileContent} (inside : file ∈ files) :
    lastNamed? file.1 files = some file.2 := by
  induction files with
  | nil => cases inside
  | cons first files ih =>
    obtain ⟨fresh, different⟩ := List.nodup_cons.mp different
    rw [lastNamed?_cons]
    rcases List.mem_cons.mp inside with rfl | inside
    · have none : lastNamed? file.1 files = none := by
        rw [lastNamed?, List.filter_eq_nil_iff.mpr]
        · rfl
        · intro other there same
          exact fresh (List.mem_map.mpr ⟨other, there, of_decide_eq_true same⟩)
      rw [none, if_pos rfl]
      rfl
    · rw [ih different inside]
      rfl

theorem run_bind_job {α β : Type} (job : Job (StateM Session) α)
    (next : α → Job (StateM Session) β) (session : Session) :
    (job >>= next).run session =
      match job.run session with
      | (.ok value, after) => (next value).run after
      | (.error error, after) => (.error error, after) := by
  change (ExceptT.bindCont next (job.run session).1 (job.run session).2) = _
  cases job.run session with
  | mk outcome after => cases outcome <;> rfl

theorem run_writeFile (path : String) (content : FileContent) (session : Session) :
    (writeFile path content : Job (StateM Session) Unit).run session =
      match session.folder.write? path content with
      | some folder => (.ok (), { session with folder })
      | none => (.error (CommandError.unwritable path), session) := by
  have written : (liftM (MonadFiles.write path content : StateM Session Bool) :
      Job (StateM Session) Bool).run session =
        match session.folder.write? path content with
        | some folder => (.ok true, { session with folder })
        | none => (.ok false, session) := by
    change (Except.ok (Session.attempt (·.write? path content) session).1,
      (Session.attempt (·.write? path content) session).2) = _
    rw [Session.attempt]
    cases session.folder.write? path content <;> rfl
  unfold writeFile
  rw [run_bind_job, written]
  cases session.folder.write? path content <;> rfl

/-- **Of files that were written one after another, each path shows the last one with its name.** -/
theorem writeInto_written {dir : String} : ∀ {files : List (String × FileContent)}
    {session after : Session}, (∀ file ∈ files, IsFileName file.1) →
    (writeInto dir files : Job (StateM Session) Unit).run session = (.ok (), after) →
    ∀ {name : String}, IsFileName name →
      after.folder.content? (joinPath dir name) =
        (lastNamed? name files).or (session.folder.content? (joinPath dir name))
  | [], session, after, _, ran, name, _ => by
    cases ran
    rfl
  | file :: files, session, after, named, ran, name, asked => by
    obtain ⟨first, named⟩ := List.forall_mem_cons.mp named
    have ran : (writeFile (joinPath dir file.1) file.2 >>= fun _ => writeInto dir files :
        Job (StateM Session) Unit).run session = (.ok (), after) := ran
    rw [run_bind_job, run_writeFile] at ran
    cases done : session.folder.write? (joinPath dir file.1) file.2 with
    | none =>
      rw [done] at ran
      cases ran
    | some folder =>
      rw [done] at ran
      rw [writeInto_written named ran asked, lastNamed?_cons,
        (Folder.content?_write first asked done).2]
      split <;> simp

end Collage
