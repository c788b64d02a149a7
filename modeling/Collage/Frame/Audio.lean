import Collage.Device.Basic
import Collage.Frame.Duration

/-!
# Sound

The host delivers one block of analysed sound a frame.  `AudioLevels.follow` lets
four levels follow the loudness of the blocks: the volume smooths it, the peak
jumps up to the volume and falls back slowly, the trough jumps down and climbs
back slowly, and the reactive level says where the volume stands between the two.
`AudioFrame.texels` is the block as a picture of two rows.
-/

namespace Collage

/-- How many bins and samples a block has. -/
def spectrumSize : Nat := 512

/-- One analysed block: the bins of its spectrum, from zero to one, and its
samples, from minus one to one. -/
structure AudioFrame where
  frequency : List Float32 := List.replicate spectrumSize 0
  timeDomain : List Float32 := List.replicate spectrumSize 0
  deriving Repr, Inhabited

namespace AudioFrame

/-- The loudness: the root of the mean square of the samples. -/
def loudness (block : AudioFrame) : Float32 :=
  let total := block.timeDomain.foldl (fun total sample => total + sample * sample) 0
  Float32.sqrt (total / Float32.nearest spectrumSize)

/-- A grey pixel. -/
def grey (level : Float32) : Color UInt8 :=
  let byte := Device.byteOf level
  ⟨byte, byte, byte, 255⟩

/-- The block as pixels: a row of bins, then a row of samples with the middle at
one half. -/
def texels (block : AudioFrame) : List (Color UInt8) :=
  block.frequency.map grey ++ block.timeDomain.map fun sample => grey (sample * 0.5 + 0.5)

/-- The bytes of the pixels. -/
def bytes (block : AudioFrame) : List UInt8 :=
  block.texels.flatMap Color.toList

end AudioFrame

/-- How long the levels take to follow. -/
structure AudioSettings where
  /-- how quickly the volume follows the loudness -/
  volumeSmoothing : Duration := .ofMilliseconds 100
  /-- how quickly the peak falls back to the volume -/
  peakDecay : Duration := .ofSeconds 2
  /-- how quickly the trough climbs back to the volume -/
  troughRecovery : Duration := .ofSeconds 2
  deriving Repr, DecidableEq, Inhabited

/-- The levels that follow the sound. -/
structure AudioLevels where
  volume : Float32 := 0
  peak : Float32 := 0
  trough : Float32 := 0
  reactive : Float32 := 0
  deriving Repr, Inhabited

namespace AudioLevels

/-- Moves a level towards a target for `elapsed` seconds; what is left of the way
shrinks by the same factor in every `pace`. -/
def approach (current target : Float32) (elapsed : Float) (pace : Duration) : Float32 :=
  let seconds := pace.seconds
  let share : Float :=
    if seconds ≤ 0 then 1 else 1 - Float.exp (-(Float.greater elapsed 0) / seconds)
  current + (target - current) * share.narrow

/-- Lets the levels follow a block for `elapsed` seconds. -/
def follow (settings : AudioSettings) (block : AudioFrame) (elapsed : Float)
    (levels : AudioLevels) : AudioLevels :=
  let volume := approach levels.volume block.loudness elapsed settings.volumeSmoothing
  let peak :=
    if levels.peak < volume then volume
    else approach levels.peak volume elapsed settings.peakDecay
  let trough :=
    if volume < levels.trough then volume
    else approach levels.trough volume elapsed settings.troughRecovery
  let reactive :=
    if trough < peak then Float32.within 0 1 ((volume - trough) / (peak - trough)) else 0
  ⟨volume, peak, trough, reactive⟩

end AudioLevels
end Collage
