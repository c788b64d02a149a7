import Collage.Proofs.Command.Writing
import Collage.Proofs.Frame.Balance
import Collage.Proofs.Frame.Leftovers

/-!
# Files of layers

A file of a layer is named for the layer's id, with an underscore for every character that does not
go into the name of a file (`fileCharacter`), so two ids may be `Confused`: their layers have files
of one name (`fileStem_eq_iff`).  What is written for the one is then lost where that of the other
is written.

`CompiledTree.files_kept_iff` says this of the programs that are emitted and of the previews that
are saved: the files are as many as the shader layers and each holds what belongs to its layer
(`Kept`) just if no two ids of shader layers are confused.
-/

namespace Collage

/-! ### Names for ids -/

/-- What stands for a character in the name of a file. -/
def fileCharacter (c : Char) : Char :=
  if isFileCharacter c then c else '_'

/-- Whether the files of two layers have the same name. -/
def Confused (a b : String) : Prop :=
  a.toList.map fileCharacter = b.toList.map fileCharacter ∨
    a = "" ∧ b = "layer" ∨ a = "layer" ∧ b = ""

instance (a b : String) : Decidable (Confused a b) :=
  inferInstanceAs (Decidable (_ ∨ _))

theorem isFileCharacter_fileCharacter (c : Char) : isFileCharacter (fileCharacter c) := by
  unfold fileCharacter
  split
  · assumption
  · rfl

theorem fileCharacter_eq {c d : Char} (same : fileCharacter c = d) (other : d ≠ '_') : c = d := by
  unfold fileCharacter at same
  split at same
  · exact same
  · exact absurd same.symm other

theorem map_fileCharacter_eq : ∀ {text other : List Char}, text.map fileCharacter = other →
    '_' ∉ other → text = other
  | [], _, same, _ => same
  | c :: text, _, same, plain => by
    subst same
    rw [List.map_cons, List.mem_cons, not_or] at plain
    rw [List.map_cons, ← fileCharacter_eq rfl (Ne.symm plain.1),
      ← map_fileCharacter_eq rfl plain.2]

theorem fileStem_of_filled {id : String} (filled : id ≠ "") :
    fileStem id = String.ofList (id.toList.map fileCharacter) := by
  rw [fileStem, if_neg (by simpa using filled)]
  rfl

/-- **When two ids have the same stem.** -/
theorem fileStem_eq_iff {a b : String} : fileStem a = fileStem b ↔ Confused a b := by
  have none : fileStem "" = "layer" := rfl
  have lone : ∀ {id : String}, id ≠ "" → (fileStem id = "layer" ↔ id = "layer") := by
    intro id filled
    rw [fileStem_of_filled filled]
    constructor
    · intro same
      have same : id.toList.map fileCharacter = "layer".toList := by
        rw [← same, String.toList_ofList]
      exact String.toList_inj.mp (map_fileCharacter_eq same (by decide))
    · rintro rfl
      rfl
  have bare : ∀ {id : String}, id.toList.map fileCharacter = [] ↔ id = "" := by
    intro id
    rw [List.map_eq_nil_iff, String.toList_eq_nil_iff]
  unfold Confused
  by_cases first : a = "" <;> by_cases second : b = ""
  · subst first second
    exact iff_of_true rfl (.inl rfl)
  · subst first
    rw [none, eq_comm, lone second]
    refine ⟨fun same => .inr (.inl ⟨rfl, same⟩), ?_⟩
    rintro (same | ⟨-, same⟩ | ⟨-, same⟩)
    · exact absurd (bare.mp same.symm) second
    · exact same
    · exact absurd same second
  · subst second
    rw [none, lone first]
    refine ⟨fun same => .inr (.inr ⟨same, rfl⟩), ?_⟩
    rintro (same | ⟨same, -⟩ | ⟨same, -⟩)
    · exact absurd (bare.mp same) first
    · exact absurd same first
    · exact same
  · rw [fileStem_of_filled first, fileStem_of_filled second, String.ofList_inj]
    refine ⟨.inl, ?_⟩
    rintro (same | ⟨same, -⟩ | ⟨-, same⟩)
    · exact same
    · exact absurd same first
    · exact absurd same second

theorem fileStem_ne_empty (id : String) : fileStem id ≠ "" := by
  by_cases filled : id = ""
  · subst filled
    decide
  · rw [fileStem_of_filled filled]
    intro none
    have none : id.toList.map fileCharacter = [] := by
      rw [← String.toList_ofList (l := id.toList.map fileCharacter), none]
      rfl
    exact filled (String.toList_eq_nil_iff.mp (List.map_eq_nil_iff.mp none))

/-- What is behind a stem makes a name of a file of it. -/
theorem isFileName_fileStem (id : String) {extension : String} (flat : '/' ∉ extension.toList)
    (long : 2 < extension.toList.length) : IsFileName (fileStem id ++ extension) := by
  have size : 2 < (fileStem id ++ extension).toList.length := by
    rw [String.toList_append, List.length_append]
    omega
  have plain : '/' ∉ (fileStem id).toList := by
    unfold fileStem
    split
    · decide
    · rw [String.toList_ofList]
      intro inside
      obtain ⟨c, -, same⟩ := List.mem_map.mp inside
      have known := isFileCharacter_fileCharacter c
      rw [fileCharacter, same] at known
      cases known
  refine ⟨fun none => ?_, ?_, ?_, ?_⟩
  · rw [none] at size
    cases size
  · rw [String.toList_append, List.mem_append, not_or]
    exact ⟨plain, flat⟩
  · rintro same
    rw [same] at size
    exact absurd size (by decide)
  · rintro same
    rw [same] at size
    exact absurd size (by decide)

/-! ### Files of layers -/

/-- Files for layers: each has the stem of the layer's id and an extension. -/
def layerFiles (extension : String) (items : List (String × FileContent)) :
    List (String × FileContent) :=
  items.map fun item => (fileStem item.1 ++ extension, item.2)

/-- Whether there are as many files as layers, and each holds what belongs to its layer. -/
structure Kept (extension dir : String) (items : List (String × FileContent)) (folder : Folder) :
    Prop where
  apart : (items.map fun item => joinPath dir (fileStem item.1 ++ extension)).Nodup
  whole : ∀ item ∈ items,
    folder.content? (joinPath dir (fileStem item.1 ++ extension)) = some item.2

theorem joinPath_inj {dir name other : String} :
    joinPath dir name = joinPath dir other ↔ name = other := by
  refine ⟨fun same => ?_, congrArg _⟩
  rw [← String.toList_inj] at same ⊢
  unfold joinPath at same
  split at same
  · simp only [String.toList_append] at same
    exact List.append_cancel_left same
  · simp only [String.toList_append] at same
    exact List.append_cancel_left same

/-- **The files of layers are kept just if no ids are confused.** -/
theorem kept_iff {extension dir : String} (flat : '/' ∉ extension.toList)
    (long : 2 < extension.toList.length) {items : List (String × FileContent)}
    (different : (items.map (·.1)).Nodup) {session after : Session}
    (ran : (writeInto dir (layerFiles extension items) : Job (StateM Session) Unit).run session =
      (.ok (), after)) :
    Kept extension dir items after.folder ↔
      ∀ a ∈ items.map (·.1), ∀ b ∈ items.map (·.1), Confused a b → a = b := by
  have path : ∀ {a b : String}, joinPath dir (fileStem a ++ extension) =
      joinPath dir (fileStem b ++ extension) ↔ Confused a b := by
    intro a b
    rw [joinPath_inj, ← fileStem_eq_iff, ← String.toList_inj, String.toList_append,
      String.toList_append, List.append_left_inj, String.toList_inj]
  have named : ∀ file ∈ layerFiles extension items, IsFileName file.1 := by
    intro file inside
    obtain ⟨item, -, rfl⟩ := List.mem_map.mp inside
    exact isFileName_fileStem item.1 flat long
  have paths : (items.map fun item => joinPath dir (fileStem item.1 ++ extension)) =
      (items.map (·.1)).map fun id => joinPath dir (fileStem id ++ extension) := by
    rw [List.map_map]
    rfl
  constructor
  · rintro ⟨apart, -⟩ a first b second confused
    rw [paths] at apart
    exact List.inj_on_of_nodup_map apart first second (path.mpr confused)
  · intro clear
    have apart : (items.map fun item => joinPath dir (fileStem item.1 ++ extension)).Nodup := by
      rw [paths]
      exact different.map_on fun a first b second same => clear a first b second (path.mp same)
    refine ⟨apart, fun item inside => ?_⟩
    have names : ((layerFiles extension items).map (·.1)).Nodup := by
      refine List.Nodup.of_map (joinPath dir) ?_
      rwa [layerFiles, List.map_map, List.map_map]
    rw [writeInto_written named ran (isFileName_fileStem item.1 flat long),
      lastNamed?_of_mem names (List.mem_map_of_mem inside)]
    rfl

/-! ### Programs and previews -/

theorem CompiledTree.programFiles_eq (tree : CompiledTree) : tree.programFiles =
    layerFiles ".frag" (tree.shaders.map fun shader => (shader.1, .text shader.2.source)) := by
  rw [programFiles, layerFiles, List.map_map]
  rfl

theorem run_emitPrograms {tree : CompiledTree} {dir : String} {session after : Session}
    (ran : (emitPrograms tree dir : Job (StateM Session) Unit).run session = (.ok (), after)) :
    ∃ made, (writeInto dir tree.programFiles : Job (StateM Session) Unit).run made =
      (.ok (), after) := by
  unfold emitPrograms at ran
  rw [run_bind_job] at ran
  cases made : (makeFolder dir : Job (StateM Session) Unit).run session with
  | mk outcome session =>
    rw [made] at ran
    cases outcome with
    | ok => exact ⟨session, ran⟩
    | error => cases ran

/-- A path with the extension of pictures is that of a picture. -/
theorem pathExtension?_png (dir id : String) :
    pathExtension? (joinPath dir (fileStem id ++ ".png")) = some "png" := by
  have named : IsFileName (fileStem id ++ ".png") := isFileName_fileStem id (by decide) (by decide)
  have behind : extensionOf? (fileStem id ++ ".png") = some "png" := by
    obtain ⟨c, rest, stem⟩ : ∃ c rest, (fileStem id).toList.reverse = c :: rest :=
      List.exists_cons_of_ne_nil (by simpa using fileStem_ne_empty id)
    have text : (fileStem id ++ ".png").toList.reverse = ['g', 'n', 'p', '.'] ++ c :: rest := by
      rw [String.toList_append, List.reverse_append, stem]
      rfl
    rw [extensionOf?, text]
    rfl
  unfold pathExtension?
  rw [splitPath_joinPath named, List.filter_append,
    List.filter_cons_of_pos (by simpa using named.notHere), List.filter_nil, List.getLast?_concat,
    Option.bind_some, if_neg named.notUp, behind]
  decide

theorem savePicture_png {m : Type → Type} [Monad m] [MonadFiles m] (dir id : String)
    (picture : Picture) :
    (savePicture (joinPath dir (fileStem id ++ ".png")) picture : Job m Unit) =
      writeFile (joinPath dir (fileStem id ++ ".png")) (.picture picture) := by
  unfold savePicture
  rw [pathExtension?_png]
  rfl

namespace Renderer

variable {ℓ : Type} [TextureLoader ℓ]

open Collage.Action

/-- Each preview is that of the layer that was asked for. -/
theorem previews_ids {tree : CompiledTree} {ids : List String} {width height : Nat}
    {date : List Float32} {renderer after : Renderer ℓ} {pictures : List (String × Picture)}
    (drawn : (previews tree ids width height date).runOn renderer = (.ok pictures, after)) :
    pictures.map (·.1) = ids := by
  have any : ∀ {α : Type} (action : Action (Renderer ℓ) α) (renderer : Renderer ℓ),
      action.Yields renderer (fun _ _ => True) fun _ _ => True :=
    fun _ _ => Yields.after_iff.mpr trivial
  have each : ∀ (frame : FrameContext) (ids : List String) (renderer : Renderer ℓ),
      (ids.mapM (drawPreview tree frame) : Action (Renderer ℓ) _).Yields renderer
        (fun pictures _ => pictures.map (·.1) = ids) fun _ _ => True := by
    intro frame ids
    induction ids with
    | nil => exact fun _ => Yields.pure rfl
    | cons id ids ih =>
      intro renderer
      rw [List.mapM_cons]
      have one : (drawPreview tree frame id : Action (Renderer ℓ) _).Yields renderer
          (fun picture _ => picture.1 = id) fun _ _ => True := by
        rw [drawPreview_eq]
        split
        · exact Yields.throw trivial
        · refine (any _ _).bind (fun read composed _ => ?_) fun _ _ _ => trivial
          exact (any _ _).bind (fun picture _ _ => Yields.pure rfl) fun _ _ _ => trivial
      refine one.bind (fun picture later same => ?_) fun _ _ _ => trivial
      refine (ih later).bind (fun pictures _ others => Yields.pure ?_) fun _ _ _ => trivial
      rw [List.map_cons, same, others]
  have all : (previews tree ids width height date).Yields renderer
      (fun pictures _ => pictures.map (·.1) = ids) fun _ _ => True :=
    previews_yields (each { time := renderer.lastTime, date } ids _)
      (fun _ _ same => ⟨same, fun _ => trivial⟩) fun _ _ _ => trivial
  have same := Yields.of_ok drawn all
  exact same

end Renderer

/-! ### What is kept -/

/-- What a part of a drawing command comes to, for a renderer and a folder. -/
def runDrawing {α : Type} (job : Drawing (StateM Session) α) (renderer : Renderer NoLoader)
    (session : Session) : (Except CommandError α × Renderer NoLoader) × Session :=
  job.run.run renderer session

theorem runDrawing_bind {α β : Type} (job : Drawing (StateM Session) α)
    (next : α → Drawing (StateM Session) β) (renderer : Renderer NoLoader) (session : Session) :
    runDrawing (job >>= next) renderer session =
      match runDrawing job renderer session with
      | ((.ok value, later), after) => runDrawing (next value) later after
      | ((.error error, later), after) => ((.error error, later), after) := by
  change (ExceptT.bindCont next (runDrawing job renderer session).1.1).run
    (runDrawing job renderer session).1.2 (runDrawing job renderer session).2 = _
  obtain ⟨⟨outcome, later⟩, after⟩ := runDrawing job renderer session
  cases outcome <;> rfl

theorem runDrawing_asDrawing {α : Type} (job : Job (StateM Session) α)
    (renderer : Renderer NoLoader) (session : Session) :
    runDrawing (asDrawing job) renderer session =
      (((job.run session).1, renderer), (job.run session).2) :=
  rfl

theorem runDrawing_get (renderer : Renderer NoLoader) (session : Session) :
    runDrawing (getThe (Renderer NoLoader)) renderer session = ((.ok renderer, renderer), session) :=
  rfl

theorem runDrawing_draw {α : Type} (wrap : Failure → CommandError)
    (action : Action (Renderer NoLoader) α) (renderer : Renderer NoLoader) (session : Session) :
    runDrawing (draw wrap action) renderer session =
      (((action.runOn renderer).1.mapError wrap, (action.runOn renderer).2), session) :=
  rfl

theorem runDrawing_asDrawing_bind {α β : Type} (job : Job (StateM Session) α)
    (next : α → Job (StateM Session) β) (renderer : Renderer NoLoader) (session : Session) :
    runDrawing (asDrawing (job >>= next)) renderer session =
      runDrawing (asDrawing job >>= fun value => asDrawing (next value)) renderer session := by
  rw [runDrawing_bind, runDrawing_asDrawing, runDrawing_asDrawing, run_bind_job]
  cases job.run session with
  | mk outcome after => cases outcome <;> rfl

/-- Pictures that are saved are files that are written. -/
theorem runDrawing_savePictures (dir : String) (renderer : Renderer NoLoader) :
    ∀ (pictures : List (String × Picture)) (session : Session),
      runDrawing (pictures.forM fun (id, picture) => asDrawing
          (savePicture (joinPath dir (fileStem id ++ ".png")) picture)) renderer session =
        runDrawing (asDrawing (writeInto dir (layerFiles ".png"
          (pictures.map fun picture => (picture.1, .picture picture.2))))) renderer session
  | [], _ => rfl
  | (id, picture) :: rest, session => by
    have first : ∀ job : Job (StateM Session) Unit,
        runDrawing (asDrawing job >>= fun _ => rest.forM fun (id, picture) => asDrawing
          (savePicture (joinPath dir (fileStem id ++ ".png")) picture)) renderer session =
        runDrawing (asDrawing (job >>= fun _ => writeInto dir (layerFiles ".png"
          (rest.map fun picture => (picture.1, .picture picture.2))))) renderer session := by
      intro job
      rw [runDrawing_asDrawing_bind, runDrawing_bind, runDrawing_bind, runDrawing_asDrawing]
      cases (job.run session).1 with
      | error => rfl
      | ok => exact runDrawing_savePictures dir renderer rest _
    exact (congrArg (fun job => runDrawing (asDrawing job >>= fun _ => _) renderer session)
      (savePicture_png dir id picture)).trans (first _)

/-- What drawing previews of the shader layers of a tree gives, in the size in which they are
saved. -/
def Renderer.shaderPreviews (tree : CompiledTree) (renderer : Renderer NoLoader) :
    Except Failure (List (String × Picture)) × Renderer NoLoader :=
  (previews tree (tree.shaders.map (·.1)) (previewSide renderer.targets.width)
    (previewSide renderer.targets.height) [0, 0, 0, 0]).runOn renderer

/-- Previews are drawn and then written when their folder has been made. -/
theorem runDrawing_savePreviews {tree : CompiledTree} {dir : String}
    {renderer later : Renderer NoLoader} {session after : Session}
    (ran : runDrawing (savePreviews tree dir) renderer session = ((.ok (), later), after)) :
    ∃ pictures, renderer.shaderPreviews tree = (.ok pictures, later) ∧
      ∃ made, (writeInto dir (layerFiles ".png"
        (pictures.map fun picture => (picture.1, .picture picture.2))) :
          Job (StateM Session) Unit).run made = (.ok (), after) := by
  unfold savePreviews at ran
  rw [runDrawing_bind, runDrawing_asDrawing] at ran
  cases made : (makeFolder dir : Job (StateM Session) Unit).run session with
  | mk outcome session =>
  rw [made] at ran
  cases outcome with
  | error => cases ran
  | ok =>
  dsimp only at ran
  rw [runDrawing_bind, runDrawing_get] at ran
  dsimp only [RenderTargets.outputSize] at ran
  rw [runDrawing_bind, runDrawing_draw] at ran
  generalize previewed : (Renderer.previews tree (tree.shaders.map (·.1)) _ _ _).runOn renderer =
    outcome at ran
  have previewed : renderer.shaderPreviews tree = outcome := previewed
  obtain ⟨_ | pictures, drawn⟩ := outcome
  · cases ran
  have ran := (runDrawing_savePictures dir drawn pictures session).symm.trans ran
  rw [runDrawing_asDrawing] at ran
  obtain rfl : drawn = later := congrArg (·.1.2) ran
  exact ⟨pictures, previewed, session, Prod.ext (congrArg (·.1.1) ran) (congrArg (·.2) ran)⟩

/-- **What is written of a tree is kept just if no ids of its shader layers are confused.**  This
goes for the programs that are emitted and for the previews that are drawn and saved: there are as
many files as shader layers, and each holds what belongs to its layer. -/
theorem CompiledTree.files_kept_iff {tree : CompiledTree}
    (different : (tree.shaders.map (·.1)).Nodup) (dir : String) :
    (∀ session after : Session,
      (emitPrograms tree dir : Job (StateM Session) Unit).run session = (.ok (), after) →
      (Kept ".frag" dir (tree.shaders.map fun shader => (shader.1, .text shader.2.source))
          after.folder ↔
        ∀ a ∈ tree.shaders.map (·.1), ∀ b ∈ tree.shaders.map (·.1), Confused a b → a = b)) ∧
    ∀ (renderer later : Renderer NoLoader) (session after : Session),
      runDrawing (savePreviews tree dir) renderer session = ((.ok (), later), after) →
      ∃ pictures, renderer.shaderPreviews tree = (.ok pictures, later) ∧
        pictures.map (·.1) = tree.shaders.map (·.1) ∧
        (Kept ".png" dir (pictures.map fun picture => (picture.1, .picture picture.2))
            after.folder ↔
          ∀ a ∈ tree.shaders.map (·.1), ∀ b ∈ tree.shaders.map (·.1), Confused a b → a = b) := by
  constructor
  · intro session after ran
    obtain ⟨made, written⟩ := run_emitPrograms ran
    rw [CompiledTree.programFiles_eq] at written
    have ids : (tree.shaders.map fun shader => (shader.1, FileContent.text shader.2.source)).map
        (·.1) = tree.shaders.map (·.1) := by
      rw [List.map_map]
      rfl
    have kept := kept_iff (by decide) (by decide) (by rwa [ids]) written
    rwa [ids] at kept
  · intro renderer later session after ran
    obtain ⟨pictures, drawn, made, written⟩ := runDrawing_savePreviews ran
    have same := Renderer.previews_ids drawn
    have ids : (pictures.map fun picture => (picture.1, FileContent.picture picture.2)).map (·.1) =
        tree.shaders.map (·.1) := by
      rw [← same, List.map_map]
      rfl
    refine ⟨pictures, drawn, same, ?_⟩
    have kept := kept_iff (by decide) (by decide) (by rwa [ids]) written
    rwa [ids] at kept

/-- A tree of shader layers with certain ids and programs, none of which could be built. -/
def shaderTree (programs : List (String × String)) : CompiledTree where
  layers := programs.map fun (id, source) =>
    { id, name := "", parent := none, visible := true, blend := .normal, opacity := 1
      kind := .shader { source } }
  scene := none
  builder := default

/-- The files of layers whose ids are not confused. -/
theorem CompiledTree.files_kept_iff_pair :
    let tree := shaderTree [("a", "first"), ("b/c", "second")]
    (∃ after : Session,
      (emitPrograms tree "out" : Job (StateM Session) Unit).run {} = (.ok (), after) ∧
        Kept ".frag" "out" (tree.shaders.map fun shader => (shader.1, .text shader.2.source))
          after.folder) ∧
    ∃ (later : Renderer NoLoader) (after : Session) (pictures : List (String × Picture)),
      runDrawing (savePreviews tree "out") Renderer.bare {} = ((.ok (), later), after) ∧
        Renderer.bare.shaderPreviews tree = (.ok pictures, later) ∧
        pictures.map (·.1) = tree.shaders.map (·.1) ∧
        Kept ".png" "out" (pictures.map fun picture => (picture.1, .picture picture.2))
          after.folder := by
  intro tree
  have different : (tree.shaders.map (·.1)).Nodup := by decide
  have clear : ∀ a ∈ tree.shaders.map (·.1), ∀ b ∈ tree.shaders.map (·.1),
      Confused a b → a = b := by decide
  obtain ⟨programs, previews⟩ := CompiledTree.files_kept_iff different "out"
  have programs := programs {}
  have previews := fun later after => previews Renderer.bare later {} after
  have emitted : ((emitPrograms tree "out" : Job (StateM Session) Unit).run {}).1 = .ok () := by
    decide +kernel
  have saved : (runDrawing (savePreviews tree "out") Renderer.bare {}).1.1 = .ok () := by
    decide +kernel
  constructor
  · generalize (emitPrograms tree "out" : Job (StateM Session) Unit).run {} = result at *
    obtain ⟨_, after⟩ := result
    cases emitted
    exact ⟨after, rfl, (programs after rfl).mpr clear⟩
  · generalize runDrawing (savePreviews tree "out") Renderer.bare {} = result at *
    obtain ⟨⟨_, later⟩, after⟩ := result
    cases saved
    obtain ⟨pictures, drawn, same, kept⟩ := previews later after rfl
    exact ⟨later, after, pictures, rfl, drawn, same, kept.mpr clear⟩

/-- **A program that is lost**: the ids of two layers differ, and the file of the first holds the
program of the second. -/
theorem CompiledTree.exists_lost :
    ∃ (tree : CompiledTree) (after : Session), (tree.shaders.map (·.1)).Nodup ∧
      (emitPrograms tree "out" : Job (StateM Session) Unit).run {} = (.ok (), after) ∧
      ∃ shader ∈ tree.shaders,
        after.folder.content? (joinPath "out" (fileStem shader.1 ++ ".frag")) ≠
          some (.text shader.2.source) := by
  let tree := shaderTree [("a/b", "first"), ("a_b", "second")]
  have ended : ((emitPrograms tree "out" : Job (StateM Session) Unit).run {}).1 = .ok () := by
    decide +kernel
  have shown : ((emitPrograms tree "out" : Job (StateM Session) Unit).run {}).2.folder.content?
      (joinPath "out" (fileStem "a/b" ++ ".frag")) = some (.text "second") := by
    decide +kernel
  generalize result : (emitPrograms tree "out" : Job (StateM Session) Unit).run {} = run at *
  obtain ⟨_, after⟩ := run
  cases ended
  refine ⟨tree, after, by decide, result, ("a/b", { source := "first" }), by decide, ?_⟩
  rw [shown]
  decide

end Collage
