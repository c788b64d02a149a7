import Collage.Document.Blend
import Collage.Document.Value

/-!
# Layers

A document is a tree of layers.  A group holds layers, the first on top; shader
and script layers hold code; a distance layer holds code and the layers it
combines.  `find?` and `editValues` work on the first layer with an id, each
layer before the ones inside it.
-/

namespace Collage

/-- What every layer has. -/
structure LayerHead where
  id : String
  name : String
  visible : Bool
  deriving Repr, DecidableEq, Inhabited

/-- What the code of a flat layer is written in. -/
inductive CodeLanguage
  | shader
  | script
  deriving Repr, DecidableEq, Inhabited

/-- A layer of a document. -/
inductive Layer
  | group (head : LayerHead) (blend : BlendMode) (opacity : Float32) (children : List Layer)
  | code (language : CodeLanguage) (head : LayerHead) (blend : BlendMode) (opacity : Float32)
      (source : String) (values : List ShaderValue)
  | distance (head : LayerHead) (source : String) (values : List ShaderValue)
      (operands : List Layer)
  deriving BEq, Repr, Inhabited

namespace Layer

/-- What every layer has. -/
def head : Layer → LayerHead
  | group head .. => head
  | code _ head .. => head
  | distance head .. => head

/-- The id. -/
def id (layer : Layer) : String :=
  layer.head.id

/-- The name. -/
def name (layer : Layer) : String :=
  layer.head.name

/-- Whether the layer is shown. -/
def visible (layer : Layer) : Bool :=
  layer.head.visible

/-- The layers inside, the first on top. -/
def children : Layer → List Layer
  | group _ _ _ children => children
  | code .. => []
  | distance _ _ _ operands => operands

/-- The code; groups have none. -/
def source? : Layer → Option String
  | group .. => none
  | code _ _ _ _ source _ => some source
  | distance _ source _ _ => some source

/-- The stored values; groups have none. -/
def values : Layer → List ShaderValue
  | group .. => []
  | code _ _ _ _ _ values => values
  | distance _ _ values _ => values

/-- The layer with other stored values; a group stays as it is. -/
def withValues (values : List ShaderValue) : Layer → Layer
  | group head blend opacity children => group head blend opacity children
  | code language head blend opacity source _ => code language head blend opacity source values
  | distance head source _ operands => distance head source values operands

/-- Whether the layer is a distance layer. -/
def isDistance : Layer → Bool
  | distance .. => true
  | _ => false

mutual

/-- The first layer with an id, a layer before the ones inside it. -/
def find? (id : String) : Layer → Option Layer
  | group head blend opacity children =>
    if head.id = id then some (group head blend opacity children) else findIn? id children
  | code language head blend opacity source values =>
    if head.id = id then some (code language head blend opacity source values) else none
  | distance head source values operands =>
    if head.id = id then some (distance head source values operands) else findIn? id operands

/-- The first layer with an id in a list of layers. -/
def findIn? (id : String) : List Layer → Option Layer
  | [] => none
  | layer :: rest => (find? id layer).orElse fun _ => findIn? id rest

end

mutual

/-- Changes the first layer with an id; `none` when there is no such layer. -/
def editFirst? (id : String) (edit : Layer → Layer) : Layer → Option Layer
  | group head blend opacity children =>
    if head.id = id then some (edit (group head blend opacity children))
    else (editFirstIn? id edit children).map (group head blend opacity)
  | code language head blend opacity source values =>
    if head.id = id then some (edit (code language head blend opacity source values)) else none
  | distance head source values operands =>
    if head.id = id then some (edit (distance head source values operands))
    else (editFirstIn? id edit operands).map (distance head source values)

/-- Changes the first layer with an id in a list of layers. -/
def editFirstIn? (id : String) (edit : Layer → Layer) : List Layer → Option (List Layer)
  | [] => none
  | layer :: rest =>
    match editFirst? id edit layer with
    | some edited => some (edited :: rest)
    | none => (editFirstIn? id edit rest).map (layer :: ·)

end

/-- Replaces the stored values of the first layer with an id; a document without
such a layer stays as it is. -/
def editValues (id : String) (values : List ShaderValue) (document : Layer) : Layer :=
  (document.editFirst? id (withValues values)).getD document

end Layer

end Collage
