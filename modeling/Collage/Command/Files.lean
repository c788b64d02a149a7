import Collage.Folder

/-!
# Files

A command reads and writes files and prints lines.  `MonadFiles` says what it needs for
that.  A `Session` is a folder in which every file is known, with what has been printed:
a command run in it is a function.
-/

namespace Collage

/-- What commands need of their surroundings. -/
class MonadFiles (m : Type → Type) where
  read : String → m ReadOutcome
  /-- writes a file and says whether that worked -/
  write : String → FileContent → m Bool
  /-- makes a folder and those that it lies in, and says whether it is there now -/
  makeFolder : String → m Bool
  printLine : String → m Unit

/-! ### Names of files -/

/-- The path of something in a folder. -/
def joinPath (folder name : String) : String :=
  if folder.toList.getLast? = some '/' then folder ++ name else folder ++ "/" ++ name

/-- A character that stays in a file's name: an unaccented letter, a digit, a hyphen or
an underscore. -/
def isFileCharacter (c : Char) : Bool :=
  isIdentifierPart c || c = '-'

/-- The name of a layer's file: its id with an underscore for every other character. -/
def fileStem (id : String) : String :=
  if id.isEmpty then "layer"
  else String.ofList (id.toList.map fun c => if isFileCharacter c then c else '_')

/-! ### A known folder -/

/-- A folder and the lines printed so far, the last one first. -/
structure Session where
  folder : Folder := {}
  printed : List String := []
  deriving Repr, Inhabited

namespace Session

/-- All that has been printed. -/
def output (session : Session) : String :=
  String.join (session.printed.reverse.map (· ++ "\n"))

/-- The folder after a change, if the change can be made; says whether it can. -/
def attempt (change : Folder → Option Folder) : StateM Session Bool := fun session =>
  match change session.folder with
  | some folder => (true, { session with folder })
  | none => (false, session)

instance : MonadFiles (StateM Session) where
  read path := fun session => (session.folder.read path, session)
  write path content := attempt (·.write? path content)
  makeFolder path := attempt (·.makeFolder? path)
  printLine line := modify fun session => { session with printed := line :: session.printed }

end Session
end Collage
