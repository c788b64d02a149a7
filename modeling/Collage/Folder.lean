import Collage.Picture
import Collage.Table
import Collage.Text

/-!
# Folders

A `Folder` is a folder of which every file is known.  Paths lead through it from part to
part; what lies outside of it is not known, so a path that leads out of it leads nowhere.

* `Folder.place` says where a path leads.
* `read` and `picture?` look into files; `write?` and `makeFolder?` change the folder where
  that can be done.
-/

namespace Collage

/-- What a file holds. -/
inductive FileContent
  | text (text : String)
  | picture (picture : Picture)
  deriving Repr, DecidableEq, Inhabited

/-- What comes of reading a file. -/
inductive ReadOutcome
  | text (text : String)
  | missing
  /-- there is something, but no text -/
  | unreadable
  deriving Repr, DecidableEq, Inhabited

/-! ### Paths -/

/-- The parts of a path; empty ones do not count. -/
def splitPath (path : String) : List String :=
  ((splitAtAll (· = '/') path.toList).filter fun part => !part.isEmpty).map String.ofList

/-- What follows the last point of a name, unless the point begins the name. -/
def extensionOf? (name : String) : Option String :=
  match cutAt (· = '.') name.toList.reverse with
  | some (extension, _ :: _) => some (String.ofList extension.reverse)
  | _ => none

/-- The extension of the file that a path names, in small letters. -/
def pathExtension? (path : String) : Option String :=
  ((splitPath path).filter (· ≠ ".")).getLast?.bind fun name =>
    if name = ".." then none
    else (extensionOf? name).map fun extension => String.ofList (lowercase extension.toList)

/-- The extensions of the files that pictures are kept in. -/
def pictureExtensions : List String :=
  ["png", "apng"]

/-! ### Folders -/

/-- A folder: the folders below it and the files in all of them, by the parts of their
paths. -/
structure Folder where
  folders : List (List String) := []
  files : Table (List String) FileContent := {}
  deriving Repr, Inhabited

/-- Where a path leads. -/
inductive Place
  | nowhere
  | folder (path : List String)
  | file (path : List String)
  /-- to nothing yet, but into a folder -/
  | free (path : List String)
  deriving Repr, DecidableEq, Inhabited

namespace Folder

/-- What a path without detours leads to, in a folder that is there. -/
def lookUp (folder : Folder) (path : List String) : Place :=
  if folder.folders.contains path then .folder path
  else if folder.files.contains path then .file path
  else .free path

/-- Goes on by one part of a path. -/
def step (folder : Folder) : Place → String → Place
  | .folder path, part =>
    if part = "." then .folder path
    else if part = ".." then
      if path.isEmpty then .nowhere else .folder path.dropLast
    else folder.lookUp (path ++ [part])
  | _, _ => .nowhere

/-- Whether a path begins at the root of all files. -/
def isOutside (path : String) : Bool :=
  path.toList.head? = some '/'

/-- Where a path leads; with a stroke at its end it only leads to folders. -/
def place (folder : Folder) (path : String) : Place :=
  if isOutside path then .nowhere
  else
    match (splitPath path).foldl folder.step (.folder []) with
    | .folder parts => .folder parts
    | found => if path.toList.getLast? = some '/' then .nowhere else found

/-- Reads a file. -/
def read (folder : Folder) (path : String) : ReadOutcome :=
  match folder.place path with
  | .nowhere | .free _ => .missing
  | .folder _ => .unreadable
  | .file parts =>
    match folder.files.get? parts with
    | some (.text text) => .text text
    | _ => .unreadable

/-- The picture at a path, if its extension says that there is one. -/
def picture? (folder : Folder) (path : String) : Option Picture :=
  if (pathExtension? path).any pictureExtensions.contains then
    match folder.place path with
    | .file parts =>
      match folder.files.get? parts with
      | some (.picture picture) => some picture
      | _ => none
    | _ => none
  else none

/-- Writes a file, new or not. -/
def write? (folder : Folder) (path : String) (content : FileContent) : Option Folder :=
  match folder.place path with
  | .file parts | .free parts => some { folder with files := folder.files.set parts content }
  | .nowhere | .folder _ => none

/-- Makes a folder and those that it lies in; there may be no file of such a name. -/
def makeFolder? (folder : Folder) (path : String) : Option Folder :=
  if isOutside path then none
  else
    ((splitPath path).foldlM (m := Option) (fun (folder, place) part =>
      match folder.step place part with
      | .folder parts => some (folder, .folder parts)
      | .free parts => some ({ folder with folders := folder.folders ++ [parts] }, .folder parts)
      | .file _ | .nowhere => none) (folder, Place.folder [])).map (·.1)

/-- A folder with a file more, and the folders on the way to it. -/
def withFile (folder : Folder) (path : String) (content : FileContent) : Folder :=
  let parts := (splitPath path).filter (· ≠ ".")
  { folders := folder.folders ++ (List.range (parts.length - 1)).map fun depth =>
      parts.take (depth + 1)
    files := folder.files.set parts content }

/-- The files that are new or hold something else than before. -/
def changesSince (before after : Folder) : List (String × FileContent) :=
  (after.files.entries.filter fun (parts, content) => before.files.get? parts ≠ some content).map
    fun (parts, content) => (String.intercalate "/" parts, content)

end Folder

end Collage
