import Collage.Frame.Textures

/-!
# Layers that are drawn elsewhere

A script layer is not drawn here: a request is submitted for it, and its picture
comes back some time later, perhaps after newer ones or more than once.  Each layer
shows the picture of the highest request so far, and at most `framesAhead` of its
requests are outstanding.
-/

namespace Collage

/-- What a script sees of the frame. -/
structure ExternalGlobals where
  time : Float
  deltaTime : Float
  frame : Nat
  resolution : Nat × Nat
  pointer : List Float32
  deriving Inhabited

/-- A request to draw a layer. -/
structure ExternalRequest where
  layer : String
  number : Nat
  code : String
  globals : ExternalGlobals
  /-- the values of the uniforms in this frame -/
  uniforms : List (String × Json)
  width : Nat
  height : Nat
  deriving Inhabited

/-- A picture that was drawn for a request. -/
structure ExternalResult where
  layer : String
  number : Nat
  picture : Picture
  deriving Inhabited

/-- What is known of a layer: how many of its requests are outstanding, the request
whose picture it shows, and the texture that shows it. -/
structure ExternalState where
  inFlight : Nat := 0
  lastApplied : Nat := 0
  texture : Option Handle := none
  deriving Repr, DecidableEq, Inhabited

/-- All layers that are drawn elsewhere. -/
structure ExternalLayers where
  framesAhead : Nat
  /-- whether there is someone to draw them -/
  connected : Bool := false
  /-- what was submitted to whoever draws them now -/
  submitted : List ExternalRequest := []
  /-- the pictures that have come back and are not shown yet -/
  waiting : List ExternalResult := []
  states : Table String ExternalState := {}
  /-- the number of the last request -/
  requests : Nat := 0
  deriving Inhabited

namespace ExternalRequest

/-- The form in which a request is passed on. -/
def encode (request : ExternalRequest) : Json :=
  let g := request.globals
  .object [
    ("layerId", .string request.layer),
    ("requestId", .int request.number),
    ("code", .string request.code),
    ("globals", .object [
      ("time", .ofDouble g.time),
      ("deltaTime", .ofDouble g.deltaTime),
      ("frame", .int g.frame),
      ("resolution", .array [.int g.resolution.1, .int g.resolution.2]),
      ("pointer", .array (g.pointer.map fun x => .ofDouble x.widen))]),
    ("uniforms", .object request.uniforms),
    ("width", .int request.width),
    ("height", .int request.height)]

end ExternalRequest

namespace ExternalLayers

/-- No layers yet; at least one request of each may be outstanding. -/
def create (framesAhead : Nat) : ExternalLayers :=
  { framesAhead := max framesAhead 1 }

/-- Someone else draws from now on.  What the one before still sends is lost. -/
def connect (layers : ExternalLayers) : ExternalLayers :=
  { layers with connected := true, submitted := [], waiting := [] }

/-- A picture comes back. -/
def deliver (layers : ExternalLayers) (result : ExternalResult) : ExternalLayers :=
  if layers.connected then { layers with waiting := layers.waiting ++ [result] } else layers

/-- The state of a layer that has made no request. -/
def stateOf (layers : ExternalLayers) (layer : String) : ExternalState :=
  (layers.states.get? layer).getD {}

/-- The texture that shows a layer. -/
def texture? (layers : ExternalLayers) (layer : String) : Option Handle :=
  (layers.states.get? layer).bind (·.texture)

/-! ### Requests -/

/-- Whether a request may be made for a layer. -/
def wantsRequest (layers : ExternalLayers) (layer : String) : Bool :=
  layers.connected && (layers.stateOf layer).inFlight < layers.framesAhead

/-- Makes a request for a layer, if it may be made; `make` gets its number. -/
def request (layer : String) (make : Nat → ExternalRequest) (layers : ExternalLayers) :
    Bool × ExternalLayers :=
  if layers.wantsRequest layer then
    let number := layers.requests + 1
    let state := layers.stateOf layer
    (true, { layers with
      requests := number
      submitted := layers.submitted ++ [make number]
      states := layers.states.set layer { state with inFlight := state.inFlight + 1 } })
  else (false, layers)

/-! ### Results -/

/-- What pictures are applied to: a device, and the layers. -/
abbrev State := Device × ExternalLayers

/-- Changes what is known of a layer. -/
def setState (layer : String) (state : ExternalState) : Action State Unit :=
  modify fun (device, layers) => (device, { layers with states := layers.states.set layer state })

/-- The texture of a layer; a layer that has none gets one. -/
def textureFor (layer : String) (state : ExternalState) : Action State Handle := do
  match state.texture with
  | some texture => return texture
  | none =>
    let texture ← Action.within Prod.fst (fun pair device => (device, pair.2))
      (TextureCache.newTexture .linear .clamp)
    setState layer { state with texture := some texture }
    return texture

/-- Shows a picture if it is newer than what its layer shows, and says whether it
was.  A picture for a layer that is not known is dropped. -/
def apply (result : ExternalResult) : Action State Bool := do
  match (← get).2.states.get? result.layer with
  | none => return false
  | some state =>
    let state := { state with inFlight := state.inFlight - 1 }
    setState result.layer state
    if result.number ≤ state.lastApplied then return false
    let texture ← textureFor result.layer state
    modify fun (device, layers) =>
      (device.uploadTexture texture result.picture.width result.picture.height
        result.picture.bytesFromBottom, layers)
    setState result.layer { state with texture := some texture, lastApplied := result.number }
    return true

/-- Shows the pictures that have come back, and counts those that were newer.  A
picture that cannot be shown is lost; those behind it stay. -/
def drainAll : List ExternalResult → Action State Nat
  | [] => return 0
  | result :: rest => do
    modify fun (device, layers) => (device, { layers with waiting := rest })
    let shown ← apply result
    return (← drainAll rest) + (if shown then 1 else 0)

/-- Shows the pictures that have come back, and counts those that were newer. -/
def drain : Action State Nat := do
  drainAll (← get).2.waiting

/-! ### Forgetting -/

/-- Deletes the textures of states. -/
def deleteTextures (states : List ExternalState) (device : Device) : Device :=
  (states.filterMap (·.texture)).foldl (fun device texture => device.deleteTexture texture) device

/-- Forgets the layers other than `live`. -/
def retain (live : List String) (device : Device) (layers : ExternalLayers) : State :=
  let gone := layers.states.entries.filter fun entry => !live.contains entry.1
  (deleteTextures (gone.map (·.2)) device,
    { layers with states := layers.states.keep live.contains })

/-- Forgets all layers. -/
def clear (device : Device) (layers : ExternalLayers) : State :=
  (deleteTextures layers.states.values device, { layers with states := {} })

end ExternalLayers
end Collage
