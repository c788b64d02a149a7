/-!
# Failures

What can go wrong while programs are built and frames are drawn.  A failure is a
cause; `Failure.message` is the only place where it gets its words.
-/

namespace Collage

/-- Something that a device could not create. -/
structure DeviceFailure where
  resource : String
  reason : String
  deriving Repr, DecidableEq, Inhabited

/-- The words for it. -/
def DeviceFailure.message (failure : DeviceFailure) : String :=
  "failed to create " ++ failure.resource ++ ": " ++ failure.reason

/-- Why something could not be done.  What is wrong with a layer's code is no
failure. -/
inductive Failure
  | builtinShader (name log : String)
  | missingUniform (program uniform : String)
  | doubleRelease (target : Nat)
  | permanentTarget (target : Nat)
  | unknownTarget (target : Nat)
  | targetsInUse (count : Nat)
  | resizeWithAntiAlias (level : Nat)
  | targetsDeleted
  | unknownLayer (id : String)
  | device (failure : DeviceFailure)
  deriving Repr, DecidableEq, Inhabited

/-- The words for it. -/
def Failure.message : Failure → String
  | builtinShader name log => "built-in shader `" ++ name ++ "` failed to build: " ++ log
  | missingUniform program uniform =>
    "built-in shader `" ++ program ++ "` has no active uniform `" ++ uniform ++ "`"
  | doubleRelease target =>
    "render target #" ++ toString target ++ " released more times than it was requested"
  | permanentTarget target =>
    "anti-alias render target #" ++ toString target ++
      " is permanently allocated and cannot be released"
  | unknownTarget target =>
    "render target #" ++ toString target ++ " does not belong to this pool"
  | targetsInUse count =>
    "cannot delete render targets while " ++ toString count ++ " target(s) are checked out"
  | resizeWithAntiAlias level =>
    "render targets can only be resized at anti-alias level 1 (current level " ++
      toString level ++ ")"
  | targetsDeleted => "render targets have already been deleted"
  | unknownLayer id => "no layer with id `" ++ id ++ "` in the compiled tree"
  | device failure => failure.message

/-- An action on a state that may fail.  What it did to the state before it failed
stays done. -/
abbrev Action (σ α : Type) := ExceptT Failure (StateM σ) α

namespace Action

/-- The outcome and the state after it. -/
def runOn {σ α : Type} (action : Action σ α) (state : σ) : Except Failure α × σ :=
  action.run state

/-- An action on a part of a state. -/
def within {σ τ α : Type} (part : σ → τ) (replace : σ → τ → σ) (action : Action τ α) :
    Action σ α :=
  fun state =>
    let (outcome, after) := action (part state)
    (outcome, replace state after)

/-- Does something afterwards, whether an action failed or not.  If both fail, the
second failure is the one that is told. -/
def followedBy {σ α : Type} (action : Action σ α) (after : Action σ Unit) : Action σ α :=
  fun state =>
    let (outcome, state) := action state
    match after state with
    | (.ok _, state) => (outcome, state)
    | (.error failure, state) => (.error failure, state)

end Action

/-- A change of a part of a state. -/
def changePart {σ τ α : Type} (part : σ → τ) (replace : σ → τ → σ) (change : StateM τ α) :
    StateM σ α :=
  fun state =>
    let (value, after) := change (part state)
    (value, replace state after)

end Collage
