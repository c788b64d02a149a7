/-!
# Fingerprints

A fingerprint stands for a long text in a table.  It is 64 bits wide, so two texts may
share one.  It is computed by SipHash with the key zero, one round for every eight bytes
and three at the end.
-/

namespace Collage

/-- What has been mixed so far. -/
structure FingerprintState where
  v₀ : UInt64
  v₁ : UInt64
  v₂ : UInt64
  v₃ : UInt64
  deriving Repr, DecidableEq

namespace FingerprintState

/-- The state before any bytes. -/
def start : FingerprintState :=
  ⟨0x736f6d6570736575, 0x646f72616e646f6d, 0x6c7967656e657261, 0x7465646279746573⟩

/-- Bits moved to the left, those that leave coming back on the right. -/
def rotate (word : UInt64) (places : UInt64) : UInt64 :=
  word <<< places ||| word >>> (64 - places)

/-- One round. -/
def round (s : FingerprintState) : FingerprintState :=
  let v₀ := s.v₀ + s.v₁
  let v₁ := rotate s.v₁ 13 ^^^ v₀
  let v₀ := rotate v₀ 32
  let v₂ := s.v₂ + s.v₃
  let v₃ := rotate s.v₃ 16 ^^^ v₂
  let v₀ := v₀ + v₃
  let v₃ := rotate v₃ 21 ^^^ v₀
  let v₂ := v₂ + v₁
  let v₁ := rotate v₁ 17 ^^^ v₂
  ⟨v₀, v₁, rotate v₂ 32, v₃⟩

/-- Mixes eight bytes in. -/
def absorb (s : FingerprintState) (word : UInt64) : FingerprintState :=
  let mixed := round { s with v₃ := s.v₃ ^^^ word }
  { mixed with v₀ := mixed.v₀ ^^^ word }

/-- What is left of the state at the end. -/
def finish (s : FingerprintState) : UInt64 :=
  let mixed := round (round (round { s with v₂ := s.v₂ ^^^ 0xff }))
  mixed.v₀ ^^^ mixed.v₁ ^^^ mixed.v₂ ^^^ mixed.v₃

end FingerprintState

/-- Bytes as one number, the first of them lowest. -/
def littleEndian (bytes : List UInt8) : UInt64 :=
  bytes.foldr (fun byte word => word <<< 8 ||| byte.toUInt64) 0

/-- Mixes bytes in, eight at a time; the last ones come together with the number of
all. -/
def absorbBytes (length : Nat) : FingerprintState → List UInt8 → FingerprintState
  | s, a :: b :: c :: d :: e :: f :: g :: h :: rest =>
    absorbBytes length (s.absorb (littleEndian [a, b, c, d, e, f, g, h])) rest
  | s, last => s.absorb (length.toUInt64 <<< 56 ||| littleEndian last)

/-- The fingerprint of a text, whose bytes are closed by one that no text has. -/
def fingerprint (text : String) : UInt64 :=
  let bytes := text.toUTF8.toList ++ [0xff]
  (absorbBytes bytes.length .start bytes).finish

end Collage
