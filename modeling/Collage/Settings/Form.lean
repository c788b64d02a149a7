import Collage.Settings.Basic
import Collage.Toml.Reader

/-!
# The form of settings

`Settings.read` reads settings from a TOML text.  The root is taken entry by entry in
the order of the text, and the first thing that is wrong is told; entries of unknown
names count for nothing.  A group of settings is a table, or a list of its values in
the order of its fields.
-/

namespace Collage
namespace Settings

/-- A field of a group: its name, and how its value changes the group. -/
structure FieldForm (α : Type) where
  name : String
  put : Toml.Value → α → Except SettingsError α

/-- Takes the entries of a table into a group. -/
def takeEntries {α : Type} (fields : List (FieldForm α)) (entries : List (String × Toml.Value))
    (group : α) : Except SettingsError α :=
  entries.foldlM (fun group (key, value) =>
    match fields.find? (·.name = key) with
    | some field => field.put value group
    | none => .ok group) group

/-- Takes a value as a group.  A date has none of the fields. -/
def takeGroup {α : Type} (fields : List (FieldForm α)) (standard : α) :
    Toml.Value → Except SettingsError α
  | .table entries => takeEntries fields entries standard
  | .array items =>
    takeEntries fields ((fields.zip items).map fun (field, item) => (field.name, item)) standard
  | .moment => .ok standard
  | _ => .error .malformed

/-- A whole number no greater than `highest`. -/
def takeNat (highest : Nat) : Toml.Value → Except SettingsError Nat
  | .integer n => if 0 ≤ n ∧ n ≤ highest then .ok n.toNat else .error .malformed
  | _ => .error .malformed

/-- A size in pixels. -/
def takeSize : Toml.Value → Except SettingsError Nat :=
  takeNat (twoPow 32 - 1)

/-- A truth value. -/
def takeBool : Toml.Value → Except SettingsError Bool
  | .boolean b => .ok b
  | _ => .error .malformed

/-- A text. -/
def takeText : Toml.Value → Except SettingsError String
  | .string text => .ok text
  | _ => .error .malformed

/-- An anti-alias setting from a word, whatever blanks and capitals it has. -/
def antiAliasOfText (text : String) : Except SettingsError AntiAliasSetting :=
  let word := String.ofList (lowercase (trim text.toList))
  ((AntiAliasSetting.ofWord? word).map .ok).getD (.error (.antiAliasWord word))

/-- An anti-alias setting: a word or a level. -/
def takeAntiAlias : Toml.Value → Except SettingsError AntiAliasSetting
  | .string text => antiAliasOfText text
  | .integer level =>
    if level < 0 then .error .antiAliasNegative else antiAliasOfText (toString level)
  | _ => .error .malformed

/-- A span of time: a text or a number of seconds. -/
def takeSpan : Toml.Value → Except SettingsError Duration
  | .string text => (Duration.ofText? text).mapError .span
  | .integer seconds =>
    if seconds < 0 then .error (.span .negative) else .ok (.ofSeconds seconds.toNat)
  | .float seconds => (Duration.ofSeconds? seconds).mapError .span
  | _ => .error .malformed

/-- A field that may be missing. -/
def optional {α β : Type} (name : String) (take : Toml.Value → Except SettingsError β)
    (put : Option β → α → α) : FieldForm α :=
  ⟨name, fun value group => do return put (some (← take value)) group⟩

/-- The settings for drawing, in their order. -/
def renderFields : List (FieldForm RenderSettings) :=
  [optional "width" takeSize fun x group => { group with width := x },
    optional "height" takeSize fun x group => { group with height := x },
    optional "anti_alias" takeAntiAlias fun x group => { group with antiAlias := x },
    optional "max_texture_dimension" takeSize fun x group => { group with maxDimension := x },
    optional "frames_ahead" (takeNat (twoPow 64 - 1)) fun x group => { group with framesAhead := x },
    ⟨"flip_output", fun value group => do
      return { group with flipOutput := ← takeBool value }⟩,
    optional "glsl_version" takeText fun x group => { group with shaderVersion := x }]

/-- The settings for sound, in their order. -/
def soundFields : List (FieldForm SoundSettings) :=
  [optional "volume_smoothing" takeSpan fun x group => { group with volumeSmoothing := x },
    optional "peak_decay" takeSpan fun x group => { group with peakDecay := x },
    optional "trough_recovery" takeSpan fun x group => { group with troughRecovery := x }]

/-- The parts of the root. -/
def rootFields : List (FieldForm Settings) :=
  [⟨"version", fun value root => do return { root with version := ← takeSize value }⟩,
    ⟨"render", fun value root => do
      return { root with render := ← takeGroup renderFields {} value }⟩,
    ⟨"audio", fun value root => do
      return { root with audio := ← takeGroup soundFields {} value }⟩]

/-- The settings in a TOML text, unchecked; they need a version. -/
def parse (text : String) : Except SettingsError Settings := do
  let entries ← ((Toml.read? text).map Except.ok).getD (.error .malformed)
  let settings ← takeEntries rootFields entries {}
  if entries.any (·.1 = "version") then return settings else .error .malformed

/-- The settings in a TOML text. -/
def read (text : String) : Except SettingsError Settings := do
  let settings ← parse text
  settings.check
  return settings

end Settings
end Collage
