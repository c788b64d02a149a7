import Collage.Number.Decimal
import Collage.Text

/-!
# Arguments

`Invocation.read` says what the words of a command line ask for.  The words are taken
one after another, so that the first thing that is wrong, or the first wish for help,
decides.  Options and the words of a command may stand in any order; after two hyphens
alone no word is an option.
-/

namespace Collage

/-! ### Values of options -/

/-- Why a value is refused. -/
inductive ArgumentError
  /-- a size without a sign between width and height -/
  | sizeForm
  | width (text : String)
  | height (text : String)
  | emptySize
  | emptyMode
  | factor (text : String)
  | unsupportedFactor (level : Nat)
  deriving Repr, DecidableEq

/-- The words for it. -/
def ArgumentError.message : ArgumentError → String
  | sizeForm => "expected WxH format, e.g. 1920x1080"
  | width text => "invalid width '" ++ text ++ "'"
  | height text => "invalid height '" ++ text ++ "'"
  | emptySize => "dimensions must be greater than zero"
  | emptyMode => "anti-alias mode must not be empty"
  | factor text => "invalid anti-alias factor '" ++ text ++ "'; use off or 2/4/8/16"
  | unsupportedFactor level =>
    "unsupported factor " ++ toString level ++ "; supported values are 2, 4, 8, or 16"

/-- The greatest number of 32 bits. -/
def highestCount : Nat := twoPow 32 - 1

/-- A number with blanks around it. -/
def readSide (refused : String → ArgumentError) (text : List Char) : Except ArgumentError Nat :=
  let text := trim text
  ((readNat? highestCount text).map .ok).getD (.error (refused (String.ofList text)))

/-- A width and a height, as in `1280x720`. -/
def readSize (text : String) : Except ArgumentError (Nat × Nat) :=
  match cutAt (fun c => c = 'x' || c = 'X' || c = '×') (trim text.toList) with
  | none => .error .sizeForm
  | some (width, height) => do
    let width ← readSide .width width
    let height ← readSide .height height
    if width = 0 ∨ height = 0 then .error .emptySize else return (width, height)

/-- An anti-alias factor: `off`, or a level that there is. -/
def readFactor (text : String) : Except ArgumentError Nat :=
  let text := trim text.toList
  let word := lowercase text
  if text.isEmpty then .error .emptyMode
  else if ["off", "none", "disable", "disabled"].contains (String.ofList word) then .ok 1
  else
    match readNat? highestCount word with
    | none => .error (.factor (String.ofList text))
    | some factor =>
      if factor ≤ 1 then .ok 1
      else if [2, 4, 8, 16].contains factor then .ok factor
      else .error (.unsupportedFactor factor)

/-- A number of frames. -/
def readCount? (text : String) : Option Nat :=
  (readInt? 0 highestCount text.toList).map Int.toNat

/-- A path; it is not empty. -/
def readPath? (text : String) : Option String :=
  if text.isEmpty then none else some text

/-! ### What can be asked for -/

/-- The commands. -/
inductive CommandName
  | compile
  | uniforms
  | render
  deriving Repr, DecidableEq, Inhabited

/-- The command of a word. -/
def CommandName.ofWord? : String → Option CommandName
  | "compile" => some .compile
  | "uniforms" => some .uniforms
  | "render" => some .render
  | _ => none

/-- What help can be about. -/
inductive HelpTopic
  | program
  | command (name : CommandName)
  | help
  deriving Repr, DecidableEq, Inhabited

/-- Why no command is run. -/
inductive Stop
  /-- the words ask for nothing that there is -/
  | usage
  | help (topic : HelpTopic)
  | version
  deriving Repr, DecidableEq, Inhabited

/-- What to compile, and what to write then. -/
structure CompileRequest where
  document : String
  /-- the folder for the generated programs -/
  emit : Option String := none
  /-- whether the values go back into the document -/
  writeValues : Bool := false
  deriving Repr, DecidableEq, Inhabited

/-- What to draw, and what to write then. -/
structure RenderRequest where
  document : String
  frames : Nat := 1
  size : Option (Nat × Nat) := none
  /-- frames in a second -/
  rate : Float := 60
  antiAlias : Option Nat := none
  /-- the file for the output -/
  output : Option String := none
  /-- the folder for previews of the layers -/
  previews : Option String := none
  deriving Repr, Inhabited

/-- What a command is to do. -/
inductive Request
  | compile (request : CompileRequest)
  | uniforms (shader : String)
  | render (request : RenderRequest)
  deriving Repr, Inhabited

/-- What a command line asks for. -/
structure Invocation where
  /-- the settings file -/
  config : Option String := none
  request : Request
  deriving Repr, Inhabited

/-! ### Options -/

/-- What an option wants after it. -/
inductive OptionKind
  | flag
  | path
  | count
  | size
  | rate
  | factor
  deriving Repr, DecidableEq, Inhabited

/-- Whether a text is a value of an option. -/
def OptionKind.accepts : OptionKind → String → Bool
  | flag, _ => false
  | path, text => (readPath? text).isSome
  | count, text => (readCount? text).isSome
  | size, text => (readSize text).isOk
  | rate, text => (Float.ofText? text).isSome
  | factor, text => (readFactor text).isOk

/-- The option for the settings file, which can stand anywhere. -/
def configOption : String × OptionKind := ("config", .path)

/-- The options of a command. -/
def CommandName.options : CommandName → List (String × OptionKind)
  | compile => [configOption, ("emit", .path), ("write-values", .flag)]
  | uniforms => [configOption]
  | render => [configOption, ("frames", .count), ("size", .size), ("fps", .rate),
      ("anti-alias", .factor), ("output", .path), ("previews", .path)]

/-- The parts of a word, by the hyphens in front of it. -/
inductive WordForm
  /-- a word without hyphens, or a hyphen alone -/
  | plain
  /-- one hyphen and more -/
  | short (first : Char)
  /-- two hyphens and a name, perhaps with a value -/
  | long (name : String) (value : Option String)
  /-- two hyphens alone -/
  | separator
  deriving Repr, DecidableEq

/-- The form of a word. -/
def WordForm.ofWord (word : String) : WordForm :=
  match word.toList with
  | ['-', '-'] => .separator
  | '-' :: '-' :: rest =>
    match cutAt (· = '=') rest with
    | some (name, value) => .long (String.ofList name) (some (String.ofList value))
    | none => .long (String.ofList rest) none
  | '-' :: c :: _ => .short c
  | _ => .plain

/-! ### Taking words -/

/-- What the words so far have said. -/
structure ArgumentState where
  command : Option CommandName := none
  /-- the settings file named before the command -/
  config : Option String := none
  /-- the options of the command with their values -/
  given : List (String × String) := []
  operand : Option String := none
  /-- an option whose value comes next -/
  waiting : Option (String × OptionKind) := none
  /-- whether no further word is an option -/
  verbatim : Bool := false
  /-- the words after the wish for help -/
  helpPath : Option (List String) := none
  deriving Repr, Inhabited

namespace ArgumentState

/-- What help is about at this point. -/
def topic (state : ArgumentState) : HelpTopic :=
  (state.command.map .command).getD .program

/-- The options that may stand at this point. -/
def options (state : ArgumentState) : List (String × OptionKind) :=
  (state.command.map CommandName.options).getD [configOption]

/-- An option with its value; no option is given twice. -/
def give (name : String) (kind : OptionKind) (value : String) (state : ArgumentState) :
    Except Stop ArgumentState :=
  if state.given.any (·.1 = name) || !kind.accepts value then .error .usage
  else .ok { state with given := state.given ++ [(name, value)], waiting := none }

/-- A flag; no flag is given twice. -/
def giveFlag (name : String) (state : ArgumentState) : Except Stop ArgumentState :=
  if state.given.any (·.1 = name) then .error .usage
  else .ok { state with given := state.given ++ [(name, "")] }

/-- A word that is no option. -/
def takeOperand (word : String) (state : ArgumentState) : Except Stop ArgumentState :=
  match state.command with
  | some _ =>
    if state.operand.isSome || (readPath? word).isNone then .error .usage
    else .ok { state with operand := some word }
  | none =>
    if state.verbatim then .error .usage
    else if word = "help" then .ok { state with helpPath := some [] }
    else
      match CommandName.ofWord? word with
      | none => .error .usage
      | some command =>
        .ok { state with command, config := state.given.lookup configOption.1, given := [] }

/-- An option by its long name. -/
def takeLong (name : String) (value : Option String) (state : ArgumentState) :
    Except Stop ArgumentState :=
  match state.options.lookup name, value with
  | some .flag, none => state.giveFlag name
  | some .flag, some _ => .error .usage
  | some kind, some value => state.give name kind value
  | some kind, none => .ok { state with waiting := some (name, kind) }
  | none, some _ => .error .usage
  | none, none =>
    if name = "help" then .error (.help state.topic)
    else if name = "version" && state.command.isNone then .error .version
    else .error .usage

/-- An option by its letter. -/
def takeShort (letter : Char) (state : ArgumentState) : Stop :=
  if letter = 'h' then .help state.topic
  else if letter = 'V' && state.command.isNone then .version
  else .usage

/-- Takes one word.  An option that waits for its value gets it from the next word,
which must not look like an option. -/
def take (state : ArgumentState) (word : String) : Except Stop ArgumentState :=
  match state.helpPath with
  | some path => .ok { state with helpPath := some (path ++ [word]) }
  | none =>
    if state.verbatim then state.takeOperand word
    else
      match state.waiting, WordForm.ofWord word with
      | some (name, kind), .plain => state.give name kind word
      | some _, _ => .error .usage
      | none, .plain => state.takeOperand word
      | none, .separator => .ok { state with verbatim := true }
      | none, .short letter => .error (state.takeShort letter)
      | none, .long name value => state.takeLong name value

/-- What the words after the wish for help name. -/
def helpFor : List String → Stop
  | [] => .help .program
  | ["help"] => .help .help
  | [word] => ((CommandName.ofWord? word).map fun name => .help (.command name)).getD .usage
  | _ => .usage

/-- The value of an option as a reader understands it. -/
def value? {α : Type} (state : ArgumentState) (name : String) (read : String → Option α) :
    Option α :=
  (state.given.lookup name).bind read

/-- The request that the words make when there are no more of them. -/
def request? (state : ArgumentState) : Option Request := do
  let operand ← state.operand
  match ← state.command with
  | .compile =>
    return .compile {
      document := operand
      emit := state.value? "emit" some
      writeValues := (state.given.lookup "write-values").isSome }
  | .uniforms => return .uniforms operand
  | .render =>
    let standard : RenderRequest := { document := operand }
    return .render { standard with
      frames := (state.value? "frames" readCount?).getD standard.frames
      size := state.value? "size" fun text => (readSize text).toOption
      rate := (state.value? "fps" Float.ofText?).getD standard.rate
      antiAlias := state.value? "anti-alias" fun text => (readFactor text).toOption
      output := state.value? "output" some
      previews := state.value? "previews" some }

end ArgumentState

/-- Reads the words of a command line.  A settings file named after the command is the
one that counts. -/
def Invocation.read (words : List String) : Except Stop Invocation := do
  let state ← words.foldlM ArgumentState.take {}
  match state.helpPath with
  | some path => .error (ArgumentState.helpFor path)
  | none =>
    if state.waiting.isSome then .error .usage
    else
      match state.request? with
      | none => .error .usage
      | some request =>
        return { config := (state.given.lookup configOption.1).or state.config, request }

end Collage
