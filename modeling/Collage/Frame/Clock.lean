import Collage.Number.Binary

/-!
# The clock of frames

A clock counts frames and measures the time between them on the host's clock.
-/

namespace Collage

/-- The time of a frame, in seconds, and its number. -/
structure FrameTime where
  time : Float := 0
  delta : Float := 0
  frame : Nat := 0
  deriving Repr, Inhabited

/-- Which frame comes next, and when the last one was. -/
structure FrameClock where
  nextFrame : Nat := 0
  last : Option Float := none
  deriving Repr, Inhabited

namespace FrameClock

/-- The time of the next frame.  The first frame takes no time, and neither does one
that comes before the last. -/
def advance (clock : FrameClock) (now : Float) : FrameTime × FrameClock :=
  let delta :=
    match clock.last with
    | some last => Float.greater (now - last) 0
    | none => 0
  (⟨now, delta, clock.nextFrame⟩, ⟨clock.nextFrame + 1, some now⟩)

end FrameClock
end Collage
