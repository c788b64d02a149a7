import Collage.Number.Power
import Collage.Picture

/-!
# PNG files

`Picture.png` is the PNG file of a picture: eight bits for each of red, green, blue and
alpha, rows from the top with no filter, and the pixels stored without compression.
Numbers in it are of 32 bits with the highest byte first, except the lengths of the
stored blocks.
-/

namespace Collage
namespace Png

/-- A number as four bytes, the highest first. -/
def bigEndian (n : Nat) : List UInt8 :=
  [n / twoPow 24, n / twoPow 16, n / twoPow 8, n].map Nat.toUInt8

/-- A number as two bytes, the lowest first. -/
def littleEndian (n : Nat) : List UInt8 :=
  [n, n / twoPow 8].map Nat.toUInt8

/-! ### Check sums -/

/-- Divides by the polynomial of the cyclic check, one bit further. -/
def cyclicBit (sum : UInt32) : UInt32 :=
  if sum &&& 1 = 1 then (sum >>> 1) ^^^ 0xedb88320 else sum >>> 1

/-- The remainder after one more byte. -/
def cyclicByte (sum : UInt32) (byte : UInt8) : UInt32 :=
  Nat.repeat cyclicBit 8 (sum ^^^ byte.toUInt32)

/-- The cyclic check of bytes. -/
def cyclicCheck (bytes : List UInt8) : UInt32 :=
  bytes.foldl cyclicByte 0xffffffff ^^^ 0xffffffff

/-- The modulus of the sum check. -/
def sumModulus : Nat := 65521

/-- The sum check: the sum of the bytes, and the sum of all such sums. -/
def sumCheck (bytes : List UInt8) : Nat :=
  let (low, high) := bytes.foldl (fun (low, high) byte =>
    let low := (low + byte.toNat) % sumModulus
    (low, (high + low) % sumModulus)) (1, 0)
  high * twoPow 16 + low

/-! ### Parts of a file -/

/-- A chunk: its length, its name, its data, and the check of name and data. -/
def chunk (name : String) (data : List UInt8) : List UInt8 :=
  let body := name.toList.map (fun c => c.toNat.toUInt8) ++ data
  bigEndian data.length ++ body ++ bigEndian (cyclicCheck body).toNat

/-- The most bytes that a stored block holds. -/
def blockLength : Nat := 65535

/-- A stored block: whether it is the last one, its length, the complement of that, and
its bytes. -/
def storedBlock (last : Bool) (bytes : List UInt8) : List UInt8 :=
  (if last then 1 else 0) :: littleEndian bytes.length ++
    littleEndian (blockLength - bytes.length) ++ bytes

/-- Bytes in stored blocks. -/
def storedBlocks (bytes : List UInt8) : List UInt8 :=
  let blocks := Picture.rowsOf blockLength (bytes.length / blockLength + 1) bytes
  let count := blocks.length
  (blocks.mapIdx fun index block => storedBlock (index + 1 = count) block).flatten

/-- Bytes as a stream of stored blocks with its check. -/
def storedStream (bytes : List UInt8) : List UInt8 :=
  [0x78, 0x01] ++ storedBlocks bytes ++ bigEndian (sumCheck bytes)

/-- The rows of a picture; each begins with the number of its filter. -/
def scanLines (picture : Picture) : List UInt8 :=
  (Picture.rowsOf picture.width picture.height picture.pixels).flatMap fun row =>
    0 :: row.flatMap Color.toList

/-- What all PNG files begin with. -/
def signature : List UInt8 :=
  [0x89, 0x50, 0x4e, 0x47, 0x0d, 0x0a, 0x1a, 0x0a]

/-- The size of a picture, eight bits for each of four colours, and how it is stored. -/
def header (picture : Picture) : List UInt8 :=
  bigEndian picture.width ++ bigEndian picture.height ++ [8, 6, 0, 0, 0]

end Png

/-- The PNG file of a picture. -/
def Picture.png (picture : Picture) : List UInt8 :=
  Png.signature ++ Png.chunk "IHDR" (Png.header picture) ++
    Png.chunk "IDAT" (Png.storedStream (Png.scanLines picture)) ++ Png.chunk "IEND" []

end Collage
