import Collage.Number.Power
import Collage.Text

/-!
# Diagnostics

A diagnostic says what is wrong with a layer's code, on which of its lines, and
how badly.  `Diagnostic.ofLog` reads the log of a graphics driver, which counts
the lines of the whole program, and finds the line of the layer; a diagnostic
that belongs to none of its lines has line zero.
-/

namespace Collage

/-- How bad something is. -/
inductive Severity
  | error
  | warning
  deriving Repr, DecidableEq, Inhabited

/-- The word for it. -/
def Severity.word : Severity → String
  | .error => "error"
  | .warning => "warning"

/-- Something wrong with a layer's code. -/
structure Diagnostic where
  line : Nat
  text : String
  severity : Severity
  deriving Repr, DecidableEq, Inhabited

namespace Diagnostic

/-- Whether it keeps the code from being used. -/
def isError (d : Diagnostic) : Bool :=
  d.severity = .error

/-- Severity, line and text between colons. -/
def display (d : Diagnostic) : String :=
  d.severity.word ++ ":" ++ toString d.line ++ ": " ++ d.text

/-- The greatest line number. -/
def highestLine : Nat := twoPow 32 - 1

/-- What a line of a log says before its line is placed. -/
structure Entry where
  severity : Severity
  line : Nat
  text : List Char

/-- A line number between blanks. -/
def readLine? (text : List Char) : Option Nat :=
  readNat? highestLine (trim text)

/-- A severity in capitals, the number of the source, the line and the text, with
colons between them. -/
def readCapital? (line : List Char) : Option Entry := do
  let (severity, rest) ←
    match withoutStart? "ERROR:".toList line with
    | some rest => some (Severity.error, rest)
    | none => (withoutStart? "WARNING:".toList line).map fun rest => (Severity.warning, rest)
  let (source, rest) ← cutAt (· = ':') (trimStart rest)
  let _ ← readLine? source
  let (number, text) ← cutAt (· = ':') rest
  return ⟨severity, ← readLine? number, trim text⟩

/-- Cuts a text at the first colon that a blank follows. -/
def cutAtColonBlank : List Char → Option (List Char × List Char)
  | ':' :: ' ' :: rest => some ([], rest)
  | [] => none
  | c :: rest => (cutAtColonBlank rest).map fun (before, after) => (c :: before, after)

/-- The source, the line and a column in parentheses, then a severity and the
text, with colons between them. -/
def readPosition? (line : List Char) : Option Entry := do
  let (location, rest) ← cutAtColonBlank line
  let (_, position) ← cutAt (· = ':') location
  let number ← readLine? (position.takeWhile (· ≠ '('))
  let (severity, text) ←
    match withoutStart? "error:".toList rest with
    | some text => some (Severity.error, text)
    | none => (withoutStart? "warning:".toList rest).map fun text => (Severity.warning, text)
  return ⟨severity, number, trim text⟩

/-- Whether a line of a log only sums up the others. -/
def isSummary (line : List Char) : Bool :=
  let small := lowercase line
  occursIn "compilation errors".toList small || occursIn "no code generated".toList small

/-- The line of the code that a line of the whole program is, when `before` lines
come before the code and it has `count` lines. -/
def placeLine (before count line : Nat) : Nat :=
  if before < line ∧ line ≤ before + count then line - before else 0

/-- What a line of a log without blanks at its ends says. -/
def ofLogLine (before count : Nat) (line : List Char) : Option Diagnostic :=
  if line.isEmpty || isSummary line then none
  else
    match (readCapital? line).orElse fun _ => readPosition? line with
    | some entry => some ⟨placeLine before count entry.line, String.ofList entry.text, entry.severity⟩
    | none => some ⟨0, String.ofList line, .error⟩

/-- Drops blanks at both ends, then null characters at the back. -/
def bareLine (line : List Char) : List Char :=
  ((trim line).reverse.dropWhile (· = '\x00')).reverse

/-- The diagnostics in a log, in its order. -/
def ofLog (log : String) (before count : Nat) : List Diagnostic :=
  (lines log.toList).filterMap fun line => ofLogLine before count (bareLine line)

end Diagnostic
end Collage
