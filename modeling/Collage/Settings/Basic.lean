import Collage.Frame.Renderer
import Collage.Settings.Span

/-!
# Settings

`Settings` hold what a file may say about drawing and about sound; what it does not
say keeps the standards of the renderer.  `Settings.check` refuses what cannot be
drawn with, and `Settings.options` are the options of a renderer with these settings.
-/

namespace Collage

/-- How much smoother than its size the output is drawn. -/
inductive AntiAliasSetting
  | auto
  | off
  | times2
  | times4
  | times8
  | times16
  deriving Repr, DecidableEq, Inhabited

namespace AntiAliasSetting

/-- The level that is asked for. -/
def samples : AntiAliasSetting → Nat
  | off => 1
  | auto | times2 => 2
  | times4 => 4
  | times8 => 8
  | times16 => 16

/-- The setting of a level. -/
def ofSamples? : Nat → Option AntiAliasSetting
  | 0 | 1 => some off
  | 2 => some times2
  | 4 => some times4
  | 8 => some times8
  | 16 => some times16
  | _ => none

/-- The name of a setting. -/
def name : AntiAliasSetting → String
  | auto => "Auto"
  | off => "Off"
  | times2 => "Samples2"
  | times4 => "Samples4"
  | times8 => "Samples8"
  | times16 => "Samples16"

/-- The setting that a word says, in small letters and without blanks around it. -/
def ofWord? : String → Option AntiAliasSetting
  | "auto" | "default" => some auto
  | "off" | "none" | "disable" | "disabled" | "0" | "1" => some off
  | "2" => some times2
  | "4" => some times4
  | "8" => some times8
  | "16" => some times16
  | _ => none

end AntiAliasSetting

/-- Why settings are refused. -/
inductive SettingsError
  /-- the text does not have the form of settings -/
  | malformed
  | antiAliasWord (word : String)
  | antiAliasNegative
  | span (cause : SpanError)
  | version (found : Nat)
  /-- something that must be positive is zero -/
  | zero (name : String)
  | framesAhead
  | shaderVersion
  | tooLarge (width height highest : Nat)
  deriving Repr, DecidableEq

/-- The words for it, if there are any of this library. -/
def SettingsError.message? : SettingsError → Option String
  | malformed => none
  | antiAliasWord word => some ("invalid anti_alias setting '" ++ word ++ "'")
  | antiAliasNegative => some "anti_alias value must be non-negative"
  | span .unreadable => some "invalid duration"
  | span .negative => some "duration must be non-negative"
  | span .tooLong => none
  | version found =>
    some ("invalid settings: unsupported settings version " ++ toString found ++ "; expected 1")
  | zero name => some ("invalid settings: render." ++ name ++ " must be greater than zero")
  | framesAhead => some "invalid settings: render.frames_ahead must be at least 1"
  | shaderVersion =>
    some "invalid settings: render.glsl_version must be a single non-empty line"
  | tooLarge width height highest =>
    some ("invalid settings: render size " ++ toString width ++ "x" ++ toString height ++
      " exceeds max_texture_dimension " ++ toString highest)

/-- What settings say about drawing. -/
structure RenderSettings where
  width : Option Nat := none
  height : Option Nat := none
  antiAlias : Option AntiAliasSetting := none
  /-- stands in for the limit of the device -/
  maxDimension : Option Nat := none
  framesAhead : Option Nat := none
  flipOutput : Bool := false
  shaderVersion : Option String := none
  deriving Repr, DecidableEq, Inhabited

/-- What settings say about sound. -/
structure SoundSettings where
  volumeSmoothing : Option Duration := none
  peakDecay : Option Duration := none
  troughRecovery : Option Duration := none
  deriving Repr, DecidableEq, Inhabited

/-- What a settings file says. -/
structure Settings where
  version : Nat := 1
  render : RenderSettings := {}
  audio : SoundSettings := {}
  deriving Repr, DecidableEq, Inhabited

namespace Settings

/-- Refuses when a condition holds. -/
def refuseIf (condition : Bool) (error : SettingsError) : Except SettingsError Unit :=
  if condition then .error error else .ok ()

/-- Whether a text is one line with more than blanks. -/
def isFilledLine (text : String) : Bool :=
  !(trim text.toList).isEmpty && !text.toList.contains '\n'

/-- Refuses sizes above the limit; without a size or a limit there is nothing to
refuse. -/
def checkSize : Option Nat → Option Nat → Option Nat → Except SettingsError Unit
  | some width, some height, some highest =>
    refuseIf (highest < width || highest < height) (.tooLarge width height highest)
  | _, _, _ => .ok ()

/-- Refuses settings that nothing can be drawn with. -/
def check (settings : Settings) : Except SettingsError Unit := do
  let render := settings.render
  refuseIf (settings.version ≠ 1) (.version settings.version)
  refuseIf (render.width = some 0) (.zero "width")
  refuseIf (render.height = some 0) (.zero "height")
  refuseIf (render.maxDimension = some 0) (.zero "max_texture_dimension")
  refuseIf (render.framesAhead = some 0) .framesAhead
  refuseIf (render.shaderVersion.any fun version => !isFilledLine version) .shaderVersion
  checkSize render.width render.height render.maxDimension

/-- The options of a renderer with these settings. -/
def options (settings : Settings) : RendererOptions :=
  let standard : RendererOptions := {}
  let render := settings.render
  let sound := settings.audio
  { width := render.width.getD standard.width
    height := render.height.getD standard.height
    antiAlias := (render.antiAlias.map AntiAliasSetting.samples).getD standard.antiAlias
    framesAhead := render.framesAhead.getD standard.framesAhead
    flipOutput := render.flipOutput
    version := render.shaderVersion.getD standard.version
    audio :=
      { volumeSmoothing := sound.volumeSmoothing.getD standard.audio.volumeSmoothing
        peakDecay := sound.peakDecay.getD standard.audio.peakDecay
        troughRecovery := sound.troughRecovery.getD standard.audio.troughRecovery } }

/-- The greatest width and height that the device gives a texture. -/
def maxDimension (settings : Settings) : Nat :=
  settings.render.maxDimension.getD ({} : DeviceTraits).maxDimension

end Settings
end Collage
