import Telemetry.Bytes.Bits
import Telemetry.Bytes.Cursor
import Telemetry.Bytes.HexDump
import Telemetry.Channel.Candidate
import Telemetry.Channel.Channelizer
import Telemetry.Channel.ConfigReader
import Telemetry.Channel.ProductTime
import Telemetry.Channel.Sample
import Telemetry.Channel.Transport
import Telemetry.CommandLine.Arguments
import Telemetry.CommandLine.Program
import Telemetry.DataType
import Telemetry.Decode.Event
import Telemetry.Decode.Field
import Telemetry.Decode.Repeat
import Telemetry.Decode.Scalar
import Telemetry.Decode.Trace
import Telemetry.DefinitionError
import Telemetry.Handling
import Telemetry.Json.Members
import Telemetry.Json.Reader
import Telemetry.Json.Text
import Telemetry.Json.Token
import Telemetry.Json.Writer
import Telemetry.Layout.Build
import Telemetry.Layout.Definition
import Telemetry.Layout.DefinitionReader
import Telemetry.Layout.Field
import Telemetry.Layout.Outline
import Telemetry.Log
import Telemetry.Main
import Telemetry.Number.Decimal
import Telemetry.Number.Double
import Telemetry.Number.Reading
import Telemetry.PrintFormat.Basic
import Telemetry.PrintFormat.Parser
import Telemetry.PrintFormat.Render
import Telemetry.Proofs.Bytes.Digits
import Telemetry.Proofs.Bytes.HexDump
import Telemetry.Proofs.Bytes.Traversal
import Telemetry.Proofs.Channel.CanonicalTime
import Telemetry.Proofs.Channel.Coherence
import Telemetry.Proofs.Channel.Publication
import Telemetry.Proofs.Channel.TagCombination
import Telemetry.Proofs.Decode.Agreement
import Telemetry.Proofs.Decode.BitFields
import Telemetry.Proofs.Decode.Blameless
import Telemetry.Proofs.Decode.Brackets
import Telemetry.Proofs.Decode.Composition
import Telemetry.Proofs.Decode.Counters
import Telemetry.Proofs.Decode.Eagerness
import Telemetry.Proofs.Decode.Encoding
import Telemetry.Proofs.Decode.FieldLocality
import Telemetry.Proofs.Decode.FieldTruncation
import Telemetry.Proofs.Decode.Findings
import Telemetry.Proofs.Decode.FormattedValues
import Telemetry.Proofs.Decode.Grouping
import Telemetry.Proofs.Decode.Locality
import Telemetry.Proofs.Decode.LookAhead
import Telemetry.Proofs.Decode.Loops
import Telemetry.Proofs.Decode.Memory
import Telemetry.Proofs.Decode.Offers
import Telemetry.Proofs.Decode.Presentation
import Telemetry.Proofs.Decode.Reach
import Telemetry.Proofs.Decode.Repetitions
import Telemetry.Proofs.Decode.Soundness
import Telemetry.Proofs.Decode.StaticSize
import Telemetry.Proofs.Decode.Telling
import Telemetry.Proofs.Decode.Truncation
import Telemetry.Proofs.Decode.Views
import Telemetry.Proofs.Handling.Waiting
import Telemetry.Proofs.Layout.Binding
import Telemetry.Proofs.Layout.Checks
import Telemetry.Proofs.Layout.Growth
import Telemetry.Proofs.Layout.Measuring
import Telemetry.Proofs.Layout.Presentation
import Telemetry.Proofs.Layout.Refusals
import Telemetry.Proofs.Layout.Translation
import Telemetry.Proofs.Layout.Walk
import Telemetry.Proofs.Number.Numerals
import Telemetry.Proofs.PrintFormat.Directives
import Telemetry.Proofs.PrintFormat.Grammar
import Telemetry.Proofs.PrintFormat.Integers
import Telemetry.Proofs.PrintFormat.Segments
import Telemetry.Proofs.PrintFormat.Truncation
import Telemetry.Proofs.Report.Indentation
import Telemetry.Proofs.Resolution.Precedence
import Telemetry.Proofs.Resolution.Symbols
import Telemetry.Proofs.Time.FineReduction
import Telemetry.Proofs.Time.Ticks
import Telemetry.Report.Record
import Telemetry.Report.Samples
import Telemetry.Report.Text
import Telemetry.Resolution
import Telemetry.Text.Characters
import Telemetry.Text.Quoted
import Telemetry.Text.Utf8
import Telemetry.Time.Calendar
import Telemetry.Time.Clock
import Telemetry.Time.Epoch
import Telemetry.Time.SolarTime
import Telemetry.Time.Timestamp
import Telemetry.Time.Unit
import Telemetry.Value
