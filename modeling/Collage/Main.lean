import Collage.Command.Png
import Collage.Command.Run

/-!
# The program

The command line, with the files of the machine that it runs on.
-/

namespace Collage

/-- Whether an action works. -/
def succeeds (action : IO Unit) : IO Bool := do
  try
    action
    return true
  catch _ => return false

/-- The bytes of a file. -/
def FileContent.bytes : FileContent → ByteArray
  | .text written => written.toUTF8
  | .picture shown => ⟨shown.png.toArray⟩

instance : MonadFiles IO where
  read path := do
    try
      return .text (← IO.FS.readFile path)
    catch
      | .noFileOrDirectory .. => return .missing
      | _ => return .unreadable
  write path content := succeeds (IO.FS.writeBinFile path content.bytes)
  makeFolder path := succeeds (IO.FS.createDirAll path)
  printLine line := IO.println line

/-- A variable of the environment that is not empty. -/
def environment? (name : String) : IO (Option String) := do
  return (← IO.getEnv name).filter (!·.isEmpty)

/-- Where settings lie that are not named. -/
def settingsFolder : IO (Option String) := do
  match ← environment? "SHADERSTACK_CONFIG_DIR", ← environment? "XDG_CONFIG_HOME",
    ← environment? "HOME" with
  | some folder, _, _ => return some folder
  | none, some folder, _ => return some (joinPath folder "shaderstack")
  | none, none, some home => return some (joinPath (joinPath home ".config") "shaderstack")
  | none, none, none => return none

end Collage

open Collage

/-- Runs the command line. -/
def main (words : List String) : IO UInt32 := do
  let standing ← environment? "SHADERSTACK_CONFIG"
  let folder := (← settingsFolder).getD "."
  let ending ← runWords folder standing words
  match ending.message, ending.exitCode with
  | some message, _ => IO.eprintln ("Error: " ++ message)
  | none, 2 => IO.eprintln (HelpTopic.text .program)
  | none, _ => pure ()
  return ending.exitCode.toUInt32
