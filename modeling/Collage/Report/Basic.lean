import Collage.Document.Form

/-!
# Reports

A report shows a value to a tool that does not know this library: as JSON, and in
full.  Other than a document it also shows what is no finite number, by a word,
and single-precision numbers as the doubles that they are.
-/

namespace Collage

/-- What can be reported. -/
class Reported (α : Type) where
  report : α → Json

export Reported (report)

/-- A number; what is no finite number is reported by a word. -/
def reportNumber (x : Float) : Json :=
  if x.isNaN then .string "nan"
  else if x.isInf then .string (if x < 0 then "-inf" else "inf")
  else .double x

instance : Reported Json := ⟨id⟩
instance : Reported Nat := ⟨fun n => .int n⟩
instance : Reported Int := ⟨.int⟩
instance : Reported Bool := ⟨.bool⟩
instance : Reported String := ⟨.string⟩
instance : Reported Float := ⟨reportNumber⟩
instance : Reported Float32 := ⟨fun x => reportNumber x.widen⟩
instance : Reported UInt8 := ⟨fun byte => .int byte.toNat⟩
instance : Reported UInt32 := ⟨fun word => .int word.toNat⟩

section

variable {α β : Type} [Reported α] [Reported β]

instance : Reported (List α) := ⟨fun items => .array (items.map report)⟩
instance : Reported (Option α) := ⟨fun item => (item.map report).getD .null⟩
instance : Reported (α × β) := ⟨fun (a, b) => .array [report a, report b]⟩
instance : Reported (Color α) := ⟨fun color => report color.toList⟩

/-- Where JSON is expected, a value stands for its report. -/
instance : CoeHTCT α Json := ⟨report⟩

end

/-- A report of several parts by their names. -/
def reportParts (parts : List (String × Json)) : Json :=
  .object parts

/-- A report of several parts by their places. -/
def reportList (parts : List Json) : Json :=
  .array parts

instance : Reported ShaderValue := ⟨fun value => value.encode.widened⟩

instance : Reported TextureDescriptor :=
  ⟨fun texture => reportList [texture.url, texture.filter.name, texture.wrap.name]⟩

instance : Reported (Gradient Float32) :=
  ⟨fun gradient => gradient.stops.map fun stop => (stop.position, stop.color)⟩

instance : Reported Value :=
  ⟨fun value => reportParts [("type", value.typeName), ("value", value.toJson)]⟩

end Collage
