import Collage.Device.Basic

/-!
# Render targets

Layers are drawn into targets that a pool hands out and takes back.  A target is
free, or in use by as many holders as it was requested and retained; only when
all of them have released it is it handed out again.  With anti-aliasing, targets
are larger than the output, and a ladder of permanent targets, each half as large
as the one before, leads down to it.

Every operation that fails leaves the pool as it was.
-/

namespace Collage

/-- How a target is used. -/
inductive TargetUse
  /-- part of the ladder -/
  | permanent
  /-- held by this many; free when by none -/
  | held (count : Nat)
  deriving Repr, DecidableEq, Inhabited

/-- A framebuffer to draw into. -/
structure RenderTarget where
  framebuffer : Handle
  texture : Handle
  width : Nat
  height : Nat
  use : TargetUse
  deriving Repr, DecidableEq, Inhabited

/-- A pool of render targets; a target is known by its place. -/
structure RenderTargets where
  targets : List RenderTarget := []
  /-- the free targets, the one to be handed out next at the end -/
  unused : List Nat := []
  /-- the permanent targets, the largest first -/
  ladder : List Nat := []
  width : Nat
  height : Nat
  antiAlias : Nat
  deleted : Bool := false
  deriving Repr, DecidableEq, Inhabited

namespace RenderTargets

/-! ### The level of anti-aliasing -/

/-- The greatest number of 32 bits. -/
def word32Highest : Nat := twoPow 32 - 1

/-- Doubles a level of 32 bits as long as twice the level, or the greatest number
if that is less, is not more than requested, given enough steps.  Doubling the
highest power of two wraps round to zero. -/
def raiseLevel (requested : Nat) : Nat → Nat → Nat
  | 0, level => level
  | steps + 1, level =>
    if min (2 * level) word32Highest ≤ max requested 1 then
      raiseLevel requested steps (2 * level % twoPow 32)
    else level

/-- Halves a level as long as the longest side times the level is too large, given
enough steps. -/
def lowerLevel (longest maxDimension : Nat) : Nat → Nat → Nat
  | 0, level => level
  | steps + 1, level =>
    if 1 < level ∧ maxDimension < longest * level then
      lowerLevel longest maxDimension steps (level / 2)
    else level

/-- More steps than any loop takes that comes to an end. -/
def endless : Nat := twoPow 62

/-- The highest power of two that was asked for and at which the larger side still
fits.  A level is doubled 31 times at most, unless the greatest number of 32 bits
was asked for: nothing is more than that, and the level is doubled without end. -/
def achievableAntiAlias (width height requested maxDimension : Nat) : Nat :=
  lowerLevel (max (max width height) 1) maxDimension 33 (raiseLevel requested endless 1)

/-! ### Making a pool -/

/-- The state that a pool works on: a device and the pool. -/
abbrev State := Device × RenderTargets

/-- Creates a framebuffer; the failure is that of the device. -/
def newFramebuffer (width height : Nat) : Action Device (Handle × Handle) := fun device =>
  match device.createFramebuffer width height with
  | (.ok handles, device) => (.ok handles, device)
  | (.error failure, device) => (.error (.device failure), device)

/-- Adds the permanent targets from a factor down to two, given enough steps. -/
def buildLadder : Nat → Nat → RenderTargets → Action Device RenderTargets
  | 0, _, pool => pure pool
  | steps + 1, factor, pool => do
    if factor < 2 then return pool
    let width := pool.width * factor
    let height := pool.height * factor
    let (framebuffer, texture) ← newFramebuffer width height
    let target : RenderTarget := ⟨framebuffer, texture, width, height, .permanent⟩
    buildLadder steps (factor / 2) { pool with
      targets := pool.targets ++ [target]
      ladder := pool.ladder ++ [pool.targets.length] }

/-- A pool for an output of a size; its targets are created when they are first
requested. -/
def create (width height antiAlias : Nat) : Action Device RenderTargets := do
  let device ← get
  let level := achievableAntiAlias width height antiAlias device.traits.maxDimension
  let pool : RenderTargets :=
    { width := max width 1, height := max height 1, antiAlias := level }
  buildLadder 32 (level / 2) pool

/-! ### Views -/

/-- The size at which layers are drawn. -/
def renderSize (pool : RenderTargets) : Nat × Nat :=
  (pool.width * pool.antiAlias, pool.height * pool.antiAlias)

/-- The size of the output. -/
def outputSize (pool : RenderTargets) : Nat × Nat :=
  (pool.width, pool.height)

/-- How many targets there are besides the ladder. -/
def size (pool : RenderTargets) : Nat :=
  (pool.targets.filter (·.use ≠ .permanent)).length

/-- The pool with a target used otherwise. -/
def withUse (pool : RenderTargets) (id : Nat) (use : TargetUse) : RenderTargets :=
  { pool with targets := pool.targets.modify id fun target => { target with use := use } }

/-! ### Handing out and taking back -/

/-- Hands out a free target, or a new one when none is free. -/
def request : Action State Nat := do
  let (_, pool) ← get
  if pool.deleted then throw .targetsDeleted
  match pool.unused.getLast? with
  | some id =>
    modify fun (device, pool) =>
      (device, { pool.withUse id (.held 1) with unused := pool.unused.dropLast })
    return id
  | none =>
    let (width, height) := pool.renderSize
    let (framebuffer, texture) ←
      Action.within Prod.fst (fun state device => (device, state.2)) (newFramebuffer width height)
    let target : RenderTarget := ⟨framebuffer, texture, width, height, .held 1⟩
    modify fun (device, pool) => (device, { pool with targets := pool.targets ++ [target] })
    return pool.targets.length

/-- How many hold a target, or why it cannot be held or released. -/
def holders (pool : RenderTargets) (id : Nat) : Except Failure Nat :=
  match pool.targets[id]? with
  | none => .error (.unknownTarget id)
  | some target =>
    match target.use with
    | .permanent => .error (.permanentTarget id)
    | .held 0 => .error (.doubleRelease id)
    | .held (count + 1) => .ok (count + 1)

/-- One more holds a target that is in use. -/
def retain (pool : RenderTargets) (id : Nat) : Except Failure RenderTargets := do
  let count ← pool.holders id
  return pool.withUse id (.held (count + 1))

/-- One less holds a target that is in use; with none left it is free. -/
def release (pool : RenderTargets) (id : Nat) : Except Failure RenderTargets := do
  let count ← pool.holders id
  let pool := pool.withUse id (.held (count - 1))
  return if count = 1 then { pool with unused := pool.unused ++ [id] } else pool

/-- The places of the targets in use, by their place. -/
def inUse (pool : RenderTargets) : List Nat :=
  (List.range pool.targets.length).filter fun id =>
    match pool.targets[id]? with
    | some ⟨_, _, _, _, .held (_ + 1)⟩ => true
    | _ => false

/-- Frees every target in use, whoever holds it, and says how many there were. -/
def reclaim (pool : RenderTargets) : Nat × RenderTargets :=
  let taken := pool.inUse
  let targets := pool.targets.map fun target =>
    match target.use with
    | .permanent => target
    | .held _ => { target with use := .held 0 }
  (taken.length, { pool with targets := targets, unused := pool.unused ++ taken })

/-! ### Size and end -/

/-- Gives every target another size; only without anti-aliasing. -/
def resize (width height : Nat) : Action State Unit := do
  let (_, pool) ← get
  if pool.deleted then throw .targetsDeleted
  if pool.antiAlias ≠ 1 then throw (.resizeWithAntiAlias pool.antiAlias)
  let width := max width 1
  let height := max height 1
  modify fun (device, pool) =>
    (pool.targets.foldl
        (fun device target => device.resizeFramebuffer target.framebuffer width height) device,
      { pool with
        width := width
        height := height
        targets := pool.targets.map fun target =>
          { target with width := width, height := height } })

/-- Deletes every target; none may be in use. -/
def delete : Action State Unit := do
  let (_, pool) ← get
  if pool.deleted then throw .targetsDeleted
  let taken := pool.inUse.length
  if 0 < taken then throw (.targetsInUse taken)
  modify fun (device, pool) =>
    (pool.targets.foldl (fun device target => device.deleteFramebuffer target.framebuffer) device,
      { pool with targets := [], unused := [], ladder := [], deleted := true })

end RenderTargets
end Collage
