import CounterTrace.Buffer
import CounterTrace.Buffer.Record
import CounterTrace.Buffer.RecordReader
import CounterTrace.Bytes.Supply
import CounterTrace.Bytes.Word
import CounterTrace.Capture
import CounterTrace.Capture.Counters
import CounterTrace.Capture.Setup
import CounterTrace.Capture.Simulation
import CounterTrace.Command.Address
import CounterTrace.Command.Arguments
import CounterTrace.Command.Invocation
import CounterTrace.Command.LogFilter
import CounterTrace.Command.Machine
import CounterTrace.Command.Workspace
import CounterTrace.Control
import CounterTrace.Control.KnobFile
import CounterTrace.Decimal.Shortest
import CounterTrace.Description
import CounterTrace.Duration
import CounterTrace.Failure
import CounterTrace.FileError
import CounterTrace.Frame
import CounterTrace.Frame.Decoder
import CounterTrace.Identity
import CounterTrace.Identity.Cache
import CounterTrace.Identity.ProcessTable
import CounterTrace.Main
import CounterTrace.Metrics
import CounterTrace.Packet
import CounterTrace.Packet.Batch
import CounterTrace.Packet.Wire
import CounterTrace.Path
import CounterTrace.Pool
import CounterTrace.Program
import CounterTrace.Proofs.Buffer.Blocks
import CounterTrace.Proofs.Buffer.Draining
import CounterTrace.Proofs.Buffer.Image
import CounterTrace.Proofs.Buffer.Recycling
import CounterTrace.Proofs.Buffer.Rereading
import CounterTrace.Proofs.Capture.Applying
import CounterTrace.Proofs.Capture.Conservation
import CounterTrace.Proofs.Capture.History
import CounterTrace.Proofs.Capture.Interleaving
import CounterTrace.Proofs.Capture.Knobs
import CounterTrace.Proofs.Capture.Period
import CounterTrace.Proofs.Capture.Pipeline
import CounterTrace.Proofs.Capture.Saturation
import CounterTrace.Proofs.Capture.Stopping
import CounterTrace.Proofs.Capture.Timing
import CounterTrace.Proofs.Capture.Turns
import CounterTrace.Proofs.Capture.Values
import CounterTrace.Proofs.Capture.Watching
import CounterTrace.Proofs.Frame.Content
import CounterTrace.Proofs.Frame.Pieces
import CounterTrace.Proofs.Frame.Progress
import CounterTrace.Proofs.Frame.Skipping
import CounterTrace.Proofs.Identity.Arguments
import CounterTrace.Proofs.Identity.Budget
import CounterTrace.Proofs.Identity.Flags
import CounterTrace.Proofs.Identity.Looking
import CounterTrace.Proofs.Identity.Policy
import CounterTrace.Proofs.Identity.Resolving
import CounterTrace.Proofs.Packet.Appending
import CounterTrace.Proofs.Packet.Arrival
import CounterTrace.Proofs.Packet.Batches
import CounterTrace.Proofs.Packet.Image
import CounterTrace.Proofs.Packet.Length
import CounterTrace.Proofs.Packet.Naming
import CounterTrace.Proofs.Packet.Reading
import CounterTrace.Proofs.Packet.Rechecking
import CounterTrace.Proofs.Packet.Runs
import CounterTrace.Proofs.Session.Cores
import CounterTrace.Proofs.Session.Counting
import CounterTrace.Proofs.Session.Delivery
import CounterTrace.Proofs.Session.Describing
import CounterTrace.Proofs.Session.Fields
import CounterTrace.Proofs.Session.Reading
import CounterTrace.Proofs.Session.Relay
import CounterTrace.Proofs.Session.Sending
import CounterTrace.Proofs.Text.Numerals
import CounterTrace.Proofs.Text.Parts
import CounterTrace.Proofs.Text.Utf8
import CounterTrace.Proofs.Trace.BinaryRows
import CounterTrace.Proofs.Trace.Calls
import CounterTrace.Proofs.Trace.Contents
import CounterTrace.Proofs.Trace.Faults
import CounterTrace.Proofs.Trace.Files
import CounterTrace.Proofs.Trace.Filing
import CounterTrace.Proofs.Trace.IndexRows
import CounterTrace.Proofs.Trace.Listing
import CounterTrace.Proofs.Trace.Receiving
import CounterTrace.Proofs.Trace.Routing
import CounterTrace.Proofs.Trace.Splitting
import CounterTrace.Proofs.Trace.TextRows
import CounterTrace.Sample
import CounterTrace.Session
import CounterTrace.Session.Endpoint
import CounterTrace.Session.Transport
import CounterTrace.Settings
import CounterTrace.Settings.File
import CounterTrace.Settings.Reading
import CounterTrace.Settings.Value
import CounterTrace.Table
import CounterTrace.Text.Blank
import CounterTrace.Text.Escaped
import CounterTrace.Text.Lines
import CounterTrace.Text.Numeral
import CounterTrace.Text.Utf8
import CounterTrace.Trace.Directory
import CounterTrace.Trace.Format
import CounterTrace.Trace.Journal
import CounterTrace.Trace.Listing
import CounterTrace.Trace.Receive
import CounterTrace.Trace.Splitter
import CounterTrace.Yaml.Cursor
import CounterTrace.Yaml.Scalar
import CounterTrace.Yaml.Token
import CounterTrace.Yaml.Tree
