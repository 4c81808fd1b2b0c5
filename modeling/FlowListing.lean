import FlowListing.Number
import FlowListing.Text.Classes
import FlowListing.Text.Shown
import FlowListing.Opcode
import FlowListing.Fault
import FlowListing.Script
import FlowListing.Encoding.Jis
import FlowListing.Encoding.Codec
import FlowListing.Encoding.Name
import FlowListing.Container.Word
import FlowListing.Container.Header
import FlowListing.Container.Reader
import FlowListing.Operand
import FlowListing.Listing.Line
import FlowListing.Sink
import FlowListing.Listing.Run
import FlowListing.Settings
import FlowListing.Command.FileTree
import FlowListing.Command.Host
import FlowListing.Command.Arguments
import FlowListing.Command.Request
import FlowListing.Command.Run
import FlowListing.Main
import FlowListing.Proofs.Delivery
import FlowListing.Proofs.Outcome
import FlowListing.Proofs.Labels
import FlowListing.Proofs.Declarations
import FlowListing.Proofs.LineText
import FlowListing.Proofs.Readback
import FlowListing.Proofs.Acceptance
import FlowListing.Proofs.Observation
import FlowListing.Proofs.Layout
import FlowListing.Proofs.Views
import FlowListing.Proofs.RoundTrip
import FlowListing.Proofs.ByteOrder
import FlowListing.Proofs.Rearrangement
import FlowListing.Proofs.Detection
import FlowListing.Proofs.Lifecycle
import FlowListing.Proofs.Repair
import FlowListing.Proofs.JobOutcome
import FlowListing.Proofs.Outputs
import FlowListing.Proofs.Precedence
import FlowListing.Proofs.ExitCode
import FlowListing.Proofs.Marks
import FlowListing.Proofs.DecimalText
import FlowListing.Proofs.Grid
import FlowListing.Proofs.ShownValue
import FlowListing.Proofs.SignificantDigits
import FlowListing.Proofs.BinaryFormat
import FlowListing.Proofs.SinglePrecision
import FlowListing.Proofs.StableText
import FlowListing.Proofs.Narrowing
import FlowListing.Proofs.TextCut
import FlowListing.Proofs.StringTable
import FlowListing.Proofs.TextSection
import FlowListing.Proofs.MessageBlock
import FlowListing.Proofs.Separators
import FlowListing.Proofs.Warnings
