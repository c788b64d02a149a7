/-!
# Blend modes

The ways in which a layer combines with what lies below it, in the order of the
codes that generated shaders know them by.
-/

namespace Collage

/-- How a layer combines with what lies below it. -/
inductive BlendMode
  | passThrough
  | overwrite
  | mask
  | none
  | dissolve
  | normal
  | darken
  | multiply
  | colorBurn
  | linearBurn
  | darkerColor
  | lighten
  | screen
  | colorDodge
  | linearDodge
  | lighterColor
  | overlay
  | softLight
  | hardLight
  | vividLight
  | linearLight
  | pinLight
  | hardMix
  | difference
  | exclusion
  | subtract
  | divide
  deriving Repr, DecidableEq, Inhabited

namespace BlendMode

/-- All modes in the order of their codes. -/
def all : List BlendMode :=
  [passThrough, overwrite, mask, none, dissolve, normal, darken, multiply, colorBurn,
    linearBurn, darkerColor, lighten, screen, colorDodge, linearDodge, lighterColor, overlay,
    softLight, hardLight, vividLight, linearLight, pinLight, hardMix, difference, exclusion,
    subtract, divide]

/-- The code that stands for the mode in generated shaders. -/
def code (mode : BlendMode) : Nat :=
  mode.ctorIdx

/-- The mode of a code. -/
def ofCode? (code : Int) : Option BlendMode :=
  if code < 0 then Option.none else all[code.toNat]?

/-- The name that stands for the mode in documents. -/
def name : BlendMode → String
  | passThrough => "passThrough"
  | overwrite => "overwrite"
  | mask => "mask"
  | none => "none"
  | dissolve => "dissolve"
  | normal => "normal"
  | darken => "darken"
  | multiply => "multiply"
  | colorBurn => "colorBurn"
  | linearBurn => "linearBurn"
  | darkerColor => "darkerColor"
  | lighten => "lighten"
  | screen => "screen"
  | colorDodge => "colorDodge"
  | linearDodge => "linearDodge"
  | lighterColor => "lighterColor"
  | overlay => "overlay"
  | softLight => "softLight"
  | hardLight => "hardLight"
  | vividLight => "vividLight"
  | linearLight => "linearLight"
  | pinLight => "pinLight"
  | hardMix => "hardMix"
  | difference => "difference"
  | exclusion => "exclusion"
  | subtract => "subtract"
  | divide => "divide"

/-- The mode of a name. -/
def ofName? (name : String) : Option BlendMode :=
  all.find? (·.name = name)

/-- The constant that stands for the mode in generated shaders. -/
def constantName (mode : BlendMode) : String :=
  match mode.name.toList with
  | [] => "gBlend"
  | first :: rest => "gBlend" ++ String.ofList (first.toUpper :: rest)

/-- The list of all modes is in the order of their codes. -/
theorem all_code (mode : BlendMode) : all[mode.code]? = some mode := by
  cases mode <;> rfl

end BlendMode
end Collage
