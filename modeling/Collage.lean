import Collage.Document.Compositing
import Collage.Frame.Render
import Collage.Main
import Collage.Proofs.Frame.Counting
import Collage.Proofs.Frame.Reached
import Collage.Proofs.Frame.Refinement
import Collage.Proofs.Scene.Dispatch
import Collage.Proofs.Scene.Names
import Collage.Proofs.Scene.Resolution
import Collage.Report.Device
import Collage.Report.Settings
import Collage.Report.Tree
import Collage.Proofs.Device.Ledger
import Collage.Proofs.Tree.Ownership
import Collage.Proofs.Tree.Workshop
import Collage.Proofs.Tree.Blueprint
import Collage.Proofs.Tree.Rebuilding
import Collage.Proofs.Number.Bits
import Collage.Proofs.Json.ReadAs
import Collage.Proofs.Document.Decoding
import Collage.Proofs.Uniform.Settled
import Collage.Proofs.Uniform.Reconcile
import Collage.Proofs.Tree.Saving
import Collage.Proofs.Tree.Values
import Collage.Proofs.Json.Scalars
import Collage.Proofs.Json.Rereading
import Collage.Proofs.Document.Layers
import Collage.Proofs.Uniform.Adoption
import Collage.Proofs.Frame.Typing
import Collage.Proofs.Frame.Budget
import Collage.Proofs.Document.Reading
import Collage.Proofs.Tree.Rewriting
import Collage.Proofs.Frame.Inputs
import Collage.Proofs.Frame.Together
import Collage.Proofs.Device.Orders
import Collage.Proofs.Frame.Alike
import Collage.Proofs.Frame.Handover
import Collage.Proofs.Frame.Opacity
import Collage.Proofs.Frame.Passes
import Collage.Proofs.Frame.Previewing
import Collage.Proofs.Frame.Keys
import Collage.Proofs.Frame.Layout
import Collage.Proofs.Frame.Ordering
import Collage.Proofs.Program.Logs
import Collage.Proofs.Tree.Places
import Collage.Proofs.Tree.Listening
import Collage.Proofs.Frame.Tandem
import Collage.Proofs.Tree.Hiding
import Collage.Proofs.Tree.Dissolving
import Collage.Proofs.Frame.Limits
import Collage.Proofs.Command.Emitting
import Collage.Proofs.Uniform.Lossless
import Collage.Proofs.Uniform.Stability
import Collage.Proofs.Frame.Edges
import Collage.Proofs.Frame.Levels
import Collage.Proofs.Frame.Resizing
import Collage.Proofs.Scene.Nearest
import Collage.Proofs.Scene.Signatures
import Collage.Proofs.Shader.Declaring
import Collage.Proofs.Tree.Serving
import Collage.Proofs.Uniform.Annotating
import Collage.Proofs.Document.Positions
import Collage.Proofs.Document.Shorthand
import Collage.Proofs.Frame.Grouping
import Collage.Proofs.Scene.Twins
import Collage.Proofs.Tree.Mirror
import Collage.Proofs.Tree.Storing
import Collage.Proofs.Frame.Sharing
import Collage.Proofs.Frame.Units
import Collage.Proofs.Document.Sampling
import Collage.Proofs.Scene.Slicing
