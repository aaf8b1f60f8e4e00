import Idl.Code.Emitter
import Idl.Code.Writing
import Idl.Document.Emitter
import Idl.Emit.Directory
import Idl.Emit.Trace
import Idl.Rpc.Client
import Idl.Sample
import Idl.Schema.Check
import Idl.Tutorial.Handler
import Idl.Value.Display
import Idl.Wire.Channel
import Idl.Wire.Operation
import Idl.Proofs.Order
import Idl.Proofs.Outcome
import Idl.Proofs.Double
import Idl.Proofs.Text.Utf8
import Idl.Proofs.Schema.Ident
import Idl.Proofs.Schema.WellFormed
import Idl.Proofs.Schema.Lineage
import Idl.Proofs.Schema.Check
import Idl.Proofs.Wire.Reading
import Idl.Proofs.Wire.Tree
import Idl.Proofs.Wire.Records
import Idl.Proofs.Wire.Skip
import Idl.Proofs.Wire.Framing
import Idl.Proofs.Wire.Layout
import Idl.Proofs.Text.Recoding
import Idl.Proofs.Text.ByteOrder
import Idl.Proofs.Wire.Leftovers
import Idl.Proofs.Wire.Taking
import Idl.Proofs.Wire.Parsed
import Idl.Proofs.Value.Encoding
import Idl.Proofs.Value.Application
import Idl.Proofs.Value.RoundTrip
import Idl.Proofs.Value.Framing
import Idl.Proofs.Value.Announced
import Idl.Proofs.Value.Overlay
import Idl.Proofs.Value.Acceptance
import Idl.Proofs.Value.TreeValue
import Idl.Proofs.Value.Load
import Idl.Proofs.Value.Rearranged
import Idl.Proofs.Value.Sorted
import Idl.Proofs.Value.Oversize
import Idl.Proofs.Rpc.Exchange
import Idl.Proofs.Rpc.Receiving
import Idl.Proofs.Rpc.Session
import Idl.Proofs.Rpc.Processing
import Idl.Proofs.Tutorial.Records
import Idl.Proofs.Tutorial.Sessions
import Idl.Proofs.Tutorial.Processing
import Idl.Proofs.Tutorial.Framing
import Idl.Proofs.Tutorial.Headers
import Idl.Proofs.Tutorial.Replies
import Idl.Proofs.Tutorial.Arguments
import Idl.Proofs.Tutorial.Containers
import Idl.Proofs.Emit.Draft
import Idl.Proofs.Emit.Landmarks
import Idl.Proofs.Emit.Outline
import Idl.Proofs.Emit.Passes
import Idl.Proofs.Emit.Restart
import Idl.Proofs.Emit.Memory
import Idl.Proofs.Emit.Disk
import Idl.Proofs.Emit.Directory
import Idl.Proofs.Code.FirstFailure
import Idl.Proofs.Code.Generation
import Idl.Proofs.Code.Writing
import Idl.Proofs.Code.Units
import Idl.Proofs.Code.Items
import Idl.Proofs.Code.Thrown
import Idl.Proofs.Code.LockStep
import Idl.Proofs.Code.Interpreter
import Idl.Proofs.Text.Quoted
import Idl.Proofs.Text.Phrase
import Idl.Proofs.Schema.Names
import Idl.Proofs.Emit.Commented
import Idl.Proofs.Code.Rendering
import Idl.Proofs.Code.Fitting
import Idl.Proofs.Code.Meaning
import Idl.Proofs.Code.Unambiguous
import Idl.Proofs.Code.Words
import Idl.Proofs.Code.Codec
import Idl.Proofs.Code.Struct
import Idl.Proofs.Code.Named
import Idl.Proofs.Code.Service
import Idl.Proofs.Code.Pages
import Idl.Proofs.Code.Upkeep
import Idl.Proofs.Code.DocComments
import Idl.Proofs.Code.Erasure
import Idl.Proofs.Schema.Inheritance
import Idl.Proofs.Schema.Numbering
import Idl.Proofs.Schema.SnakeCase
import Idl.Proofs.Code.Methods
import Idl.Proofs.Sample
import Idl.Proofs.Document.Reader
import Idl.Proofs.Document.Elements
