import Collage.Command.Files
import Collage.Command.Help
import Collage.Document.Form
import Collage.Frame.Render
import Collage.Settings.Form
import Collage.Tree.Compile
import Collage.Tree.Edit

/-!
# Commands

`Invocation.run` does what a command line asks for: it compiles a document, lists the
uniforms of a shader, or draws frames of a document.  Diagnostics are printed, a line
for each; what goes wrong otherwise ends the command.  What was written or printed
before that stays.
-/

namespace Collage

/-- Why a command did not do what it was to do. -/
inductive CommandError
  /-- settings that cannot be read, or are refused for a reason -/
  | settings (path : String) (cause : Option SettingsError)
  | unreadable (path : String)
  /-- a file that holds no document -/
  | document (path : String)
  | compilation
  | failedLayers (count : Nat)
  | renderer
  | frame (index : Nat)
  | release
  | folder (path : String)
  | unwritable (path : String)
  | failure (cause : Failure)
  deriving Repr, DecidableEq

namespace CommandError

/-- The words for it.  There are none when settings ask for a span of time that is
longer than can be counted, which stops the program at once. -/
def message? : CommandError → Option String
  | settings _ (some (.span .tooLong)) => none
  | settings path _ => some ("failed to load settings from " ++ path)
  | unreadable path => some ("failed to read " ++ path)
  | document path => some ("failed to parse layer document " ++ path)
  | compilation => some "failed to compile layer document"
  | failedLayers count => some (toString count ++ " layer(s) failed to compile")
  | renderer => some "failed to initialise renderer"
  | frame index => some ("failed to render frame " ++ toString index)
  | release => some "failed to release renderer resources"
  | folder path => some ("failed to create " ++ path)
  | unwritable path => some ("failed to write " ++ path)
  | failure cause => some cause.message

/-- The number that the program ends with. -/
def exitCode (error : CommandError) : Nat :=
  if error.message?.isSome then 1 else 101

end CommandError

/-- The device that settings ask for. -/
def Settings.device (settings : Settings) : Device :=
  { traits := { maxDimension := settings.maxDimension } }

/-- A part of a command. -/
abbrev Job (m : Type → Type) := ExceptT CommandError m

/-! ### Reading and writing -/

section

variable {m : Type → Type} [Monad m] [MonadFiles m]

/-- The name of the settings file. -/
def settingsFile : String := "settings.toml"

/-- Loads settings: from a file that has been named, or from the folder for settings,
where there need not be any. -/
def loadSettings (folder : String) (named : Option String) : Job m Settings := do
  let path := named.getD (joinPath folder settingsFile)
  match ← (MonadFiles.read path : m ReadOutcome) with
  | .text text =>
    match Settings.read text with
    | .ok settings => return settings
    | .error cause => throw (.settings path (some cause))
  | .missing => if named.isSome then throw (.settings path none) else return {}
  | .unreadable => throw (.settings path none)

/-- The text of a file. -/
def readText (path : String) : Job m String := do
  match ← (MonadFiles.read path : m ReadOutcome) with
  | .text text => return text
  | _ => throw (.unreadable path)

/-- The document in a file. -/
def readDocument (path : String) : Job m Layer := do
  match Layer.read (← readText path) with
  | .ok document => return document
  | .error _ => throw (.document path)

/-- Writes a file. -/
def writeFile (path : String) (content : FileContent) : Job m Unit := do
  unless ← (MonadFiles.write path content : m Bool) do
    throw (.unwritable path)

/-- Makes a folder. -/
def makeFolder (path : String) : Job m Unit := do
  unless ← (MonadFiles.makeFolder path : m Bool) do
    throw (.folder path)

/-- Writes files into a folder. -/
def writeInto (folder : String) (files : List (String × FileContent)) : Job m Unit :=
  files.forM fun (name, content) => writeFile (joinPath folder name) content

/-- Prints a line. -/
def printLine (line : String) : Job m Unit :=
  (MonadFiles.printLine line : m Unit)

/-! ### Pictures -/

/-- The extensions of pictures other than the ones that are written. -/
def foreignExtensions : List String :=
  ["avif", "jpg", "jpeg", "jfif", "gif", "webp", "tif", "tiff", "tga", "dds", "bmp", "ico", "hdr",
    "exr", "pbm", "pam", "ppm", "pgm", "pnm", "ff", "qoi"]

/-- Writes a picture.  The extension of the path says how: under that of a sort of
picture that is not written, an empty file stays behind. -/
def savePicture (path : String) (picture : Picture) : Job m Unit := do
  let extension := (pathExtension? path).getD ""
  if pictureExtensions.contains extension then writeFile path (.picture picture)
  else
    if foreignExtensions.contains extension then writeFile path (.text "")
    throw (.unwritable path)

/-! ### Compiling -/

/-- A line about something that is wrong with a layer. -/
def diagnosticLine (id : String) (diagnostic : Diagnostic) : String :=
  id ++ ":" ++ toString diagnostic.line ++ ": " ++ diagnostic.severity.word ++ ": " ++
    diagnostic.text

/-- Prints all that is wrong with the layers of a tree. -/
def printDiagnostics (tree : CompiledTree) : Job m Unit :=
  tree.errors.forM fun (id, diagnostic) => printLine (diagnosticLine id diagnostic)

/-- The shader layers of a tree with their programs. -/
def CompiledTree.shaders (tree : CompiledTree) : List (String × LayerProgram) :=
  tree.layers.filterMap fun layer =>
    match layer.kind with
    | .shader program => some (layer.id, program)
    | _ => none

/-- The files of the generated programs. -/
def CompiledTree.programFiles (tree : CompiledTree) : List (String × FileContent) :=
  tree.shaders.map fun (id, program) => (fileStem id ++ ".frag", .text program.source)

/-- Writes the generated programs into a folder. -/
def emitPrograms (tree : CompiledTree) (folder : String) : Job m Unit := do
  makeFolder folder
  writeInto folder tree.programFiles

/-- Writes a document with the values of its tree. -/
def rewriteDocument (path : String) (tree : CompiledTree) (document : Layer) : Job m Unit :=
  writeFile path (.text ((tree.writeValues document).pretty ++ "\n"))

/-- Compiles a document, and fails if a layer's code cannot be used. -/
def compileCommand (settings : Settings) (request : CompileRequest) : Job m Unit := do
  let document ← readDocument request.document
  let action := CompiledTree.compile document none settings.options.version
  match (action.runOn settings.device).1 with
  | .error _ => throw .compilation
  | .ok tree =>
    printDiagnostics tree
    request.emit.forM (emitPrograms tree)
    if request.writeValues then rewriteDocument request.document tree document
    let failed := (tree.layers.filter CompiledLayer.hasErrors).length
    if 0 < failed then throw (.failedLayers failed)

/-! ### Listing uniforms -/

/-- What is listed of a uniform. -/
def Uniform.listing (uniform : Uniform) : Json :=
  let optional (key : String) (value : Option Json) : List (String × Json) :=
    (value.map fun value => (key, value)).toList
  .object ([("name", .string uniform.name), ("glslType", .string uniform.type),
      ("occurrences", .int uniform.occurrences.length)] ++
    optional "hint" (uniform.settings.hint.map .string) ++
    optional "min" (uniform.settings.min.map .ofDouble) ++
    optional "max" (uniform.settings.max.map .ofDouble) ++
    [("shaderValue", uniform.value.encode)])

/-- Lists the uniforms that a shader declares. -/
def uniformsCommand (shader : String) : Job m Unit := do
  let source ← readText shader
  printLine (Json.array ((Uniform.extract source []).map Uniform.listing)).pretty

/-! ### Drawing

Nothing that the device draws depends on what a texture shows, so none are loaded. -/

/-- A part of a command that draws.  What it did to the renderer before it failed stays
done. -/
abbrev Drawing (m : Type → Type) := ExceptT CommandError (StateT (Renderer NoLoader) m)

/-- Does something with the renderer. -/
def draw {α : Type} (wrap : Failure → CommandError) (action : Action (Renderer NoLoader) α) :
    Drawing m α :=
  fun renderer =>
    let (outcome, renderer) := action.runOn renderer
    pure (outcome.mapError wrap, renderer)

/-- Does something with files while drawing. -/
def asDrawing {α : Type} (job : Job m α) : Drawing m α :=
  fun renderer => do return (← job.run, renderer)

/-- The time of a frame. -/
def frameTime (rate : Float) (index : Nat) : Float :=
  Float.nearest index / (if 0 < rate then rate else 60)

/-- Draws the frames that are asked for. -/
def drawFrames (tree : CompiledTree) (request : RenderRequest) : Drawing m Unit :=
  (List.range request.frames).forM fun index => do
    let input : FrameInput := { now := frameTime request.rate index }
    let _ ← draw (fun _ => .frame index) (Renderer.render tree input)

/-- Saves the output. -/
def saveOutput (path : String) : Drawing m Unit := do
  let picture ← draw .failure Renderer.output
  asDrawing (savePicture path picture)

/-- The width or height of a preview. -/
def previewSide (side : Nat) : Nat :=
  max (side / 4) 1

/-- Saves a preview of every shader layer. -/
def savePreviews (tree : CompiledTree) (folder : String) : Drawing m Unit := do
  asDrawing (makeFolder folder)
  let (width, height) := (← getThe (Renderer NoLoader)).targets.outputSize
  let pictures ← draw .failure
    (Renderer.previews tree (tree.shaders.map (·.1)) (previewSide width) (previewSide height)
      [0, 0, 0, 0])
  pictures.forM fun (id, picture) =>
    asDrawing (savePicture (joinPath folder (fileStem id ++ ".png")) picture)

/-- Draws what is asked for, and saves it. -/
def drawRequest (tree : CompiledTree) (request : RenderRequest) : Drawing m Unit := do
  drawFrames tree request
  request.output.forM saveOutput
  request.previews.forM (savePreviews tree)

/-- The options of the renderer: those of the settings, unless the request says
otherwise. -/
def RenderRequest.options (request : RenderRequest) (settings : Settings) : RendererOptions :=
  let options := settings.options
  let (width, height) := request.size.getD (options.width, options.height)
  { options with width, height, antiAlias := request.antiAlias.getD options.antiAlias }

/-- Draws frames of a document.  That the renderer cannot be given back is told rather
than what went wrong in drawing. -/
def renderCommand (settings : Settings) (request : RenderRequest) : Job m Unit := do
  let document ← readDocument request.document
  let options := request.options settings
  match ((Renderer.create options ({} : NoLoader)).runOn settings.device).1 with
  | .error _ => throw .renderer
  | .ok renderer =>
    match (CompiledTree.compile document none options.version).runOn renderer.device with
    | (.error _, _) => throw .compilation
    | (.ok tree, device) =>
      printDiagnostics tree
      let (outcome, renderer) ←
        ((drawRequest tree request).run.run { renderer with device } : m _)
      let renderer := { renderer with device := tree.destroy renderer.device }
      match (Renderer.destroy.runOn renderer).1 with
      | .error _ => throw .release
      | .ok _ => ExceptT.mk (pure outcome)

/-! ### Command lines -/

/-- Does what is asked for; `folder` is where settings lie that are not named. -/
def Invocation.run (folder : String) (invocation : Invocation) : Job m Unit := do
  let settings ← loadSettings folder invocation.config
  match invocation.request with
  | .compile request => compileCommand settings request
  | .uniforms shader => uniformsCommand shader
  | .render request => renderCommand settings request

end

/-- How the program ends. -/
structure Ending where
  exitCode : Nat
  /-- what went wrong, if that is said -/
  message : Option String := none
  deriving Repr, DecidableEq, Inhabited

/-- Runs the words of a command line.  `folder` is where settings lie that are not
named, and `standing` names the settings where the words do not. -/
def runWords {m : Type → Type} [Monad m] [MonadFiles m] (folder : String)
    (standing : Option String) (words : List String) : m Ending := do
  match Invocation.read words with
  | .error .usage => return ⟨2, none⟩
  | .error (.help topic) =>
    MonadFiles.printLine topic.text
    return ⟨0, none⟩
  | .error .version =>
    MonadFiles.printLine versionText
    return ⟨0, none⟩
  | .ok invocation =>
    let invocation := { invocation with config := invocation.config.or standing }
    match ← (invocation.run folder).run with
    | .ok _ => return ⟨0, none⟩
    | .error error => return ⟨error.exitCode, error.message?⟩

end Collage
