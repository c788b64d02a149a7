import Collage.Document.Value

/-!
# Pictures

A picture holds its pixels from the top row down.  Graphics devices count rows from
the bottom: `bytesFromBottom` and `ofBytesFromBottom` go between the two.
-/

namespace Collage

/-- Pixels from the top row down, each row from the left. -/
structure Picture where
  width : Nat
  height : Nat
  pixels : List (Color UInt8)
  deriving Repr, DecidableEq, Inhabited

namespace Picture

/-- Rows of a list, given enough steps. -/
def rowsOf {α : Type} (width : Nat) : Nat → List α → List (List α)
  | 0, _ => []
  | _, [] => []
  | steps + 1, items => items.take width :: rowsOf width steps (items.drop width)

/-- The bytes from the bottom row up. -/
def bytesFromBottom (picture : Picture) : List UInt8 :=
  (rowsOf picture.width picture.pixels.length picture.pixels).reverse.flatten.flatMap Color.toList

/-- Pixels from their bytes, four for each, after those already made; bytes left over
are dropped. -/
def pixelsAfter (made : List (Color UInt8)) : List UInt8 → List (Color UInt8)
  | r :: g :: b :: a :: rest => pixelsAfter (⟨r, g, b, a⟩ :: made) rest
  | _ => made.reverse

/-- Pixels from their bytes, four for each; bytes left over are dropped. -/
def pixelsOf (bytes : List UInt8) : List (Color UInt8) :=
  pixelsAfter [] bytes

/-- The picture of bytes that go from the bottom row up. -/
def ofBytesFromBottom (width height : Nat) (bytes : List UInt8) : Picture :=
  let pixels := pixelsOf bytes
  ⟨width, height, (rowsOf width pixels.length pixels).reverse.flatten⟩

/-- A picture of transparent pixels. -/
def blank (width height : Nat) : Picture :=
  ⟨width, height, List.replicate (width * height) (Color.constant 0)⟩

end Picture

end Collage
