import QueryDriver.Builder
import QueryDriver.Builder.Catalog
import QueryDriver.Builder.Role
import QueryDriver.Builder.Row
import QueryDriver.Callable
import QueryDriver.Codec.Marshal
import QueryDriver.Codec.Unmarshal
import QueryDriver.Codec.Zone
import QueryDriver.Compilation
import QueryDriver.Console
import QueryDriver.Cursor
import QueryDriver.Cursor.Reading
import QueryDriver.Failure
import QueryDriver.Failure.Cause
import QueryDriver.Failure.Fault
import QueryDriver.Failure.Report
import QueryDriver.Journal
import QueryDriver.Lowering
import QueryDriver.Lowering.Operand
import QueryDriver.Lowering.Scope
import QueryDriver.Net.Address
import QueryDriver.Net.Connection
import QueryDriver.Net.Endpoint
import QueryDriver.Net.Frame
import QueryDriver.Net.Script
import QueryDriver.Net.Transport
import QueryDriver.Number.Double
import QueryDriver.Number.Layout
import QueryDriver.Number.Numeral
import QueryDriver.Number.Shortest
import QueryDriver.Operation
import QueryDriver.Operator
import QueryDriver.Rendering
import QueryDriver.Session
import QueryDriver.Session.Run
import QueryDriver.Text.Blank
import QueryDriver.Text.Digit
import QueryDriver.Text.Printable
import QueryDriver.Text.Quoted
import QueryDriver.Time.Calendar
import QueryDriver.Time.Duration
import QueryDriver.Time.Moment
import QueryDriver.Value
import QueryDriver.Value.Arity
import QueryDriver.Value.Keys
import QueryDriver.Value.Literal
import QueryDriver.Wire.Codes
import QueryDriver.Wire.Decoding
import QueryDriver.Wire.Encoding
import QueryDriver.Wire.Message
import QueryDriver.Wire.Text
import QueryDriver.WriteSummary
import QueryDriver.Proofs.Effect
import QueryDriver.Proofs.Net.Ledger
import QueryDriver.Proofs.Net.Account
import QueryDriver.Proofs.Net.Preserving
import QueryDriver.Proofs.Net.RoundTrip
import QueryDriver.Proofs.Net.Custody
import QueryDriver.Proofs.Net.Dialogue
import QueryDriver.Proofs.Net.Supply
import QueryDriver.Proofs.Net.Spending
import QueryDriver.Proofs.Session.Pool
import QueryDriver.Proofs.Session.Running
import QueryDriver.Proofs.Session.Opening
import QueryDriver.Proofs.Cursor.Fetching
import QueryDriver.Proofs.Cursor.Serving
import QueryDriver.Proofs.Cursor.RowReader
import QueryDriver.Proofs.System.Sound
import QueryDriver.Proofs.System.Steps
import QueryDriver.Proofs.System.Reading
import QueryDriver.Proofs.System.History
import QueryDriver.Proofs.System.Placement
import QueryDriver.Proofs.System.Traffic
import QueryDriver.Proofs.System.Draining
import QueryDriver.Proofs.System.Streams
import QueryDriver.Proofs.System.Delivery
import QueryDriver.Proofs.Lowering.Arrangement
import QueryDriver.Proofs.Value.Located
import QueryDriver.Proofs.Value.Part
import QueryDriver.Proofs.Value.Renaming
import QueryDriver.Proofs.Lowering.Locating
import QueryDriver.Proofs.Lowering.Outline
import QueryDriver.Proofs.Lowering.Derivation
import QueryDriver.Proofs.Number.Exact
import QueryDriver.Proofs.Number.Range
import QueryDriver.Proofs.Lowering.Hygiene
import QueryDriver.Proofs.Compilation.Boundary
import QueryDriver.Proofs.Compilation.Variables
import QueryDriver.Proofs.Builder.Layout
import QueryDriver.Proofs.Builder.Built
import QueryDriver.Proofs.Builder.Positions
import QueryDriver.Proofs.Lowering.Holding
import QueryDriver.Proofs.Lowering.Parallel
import QueryDriver.Proofs.Lowering.Refusal
import QueryDriver.Proofs.Lowering.Calling
import QueryDriver.Proofs.Lowering.Renumbering
import QueryDriver.Proofs.Lowering.Resemblance
import QueryDriver.Proofs.Compilation.Agreement
import QueryDriver.Proofs.Lowering.Scoping
import QueryDriver.Proofs.Value.Bare
import QueryDriver.Proofs.Lowering.Stripped
import QueryDriver.Proofs.Lowering.Setterless
import QueryDriver.Proofs.Compilation.Counter
import QueryDriver.Proofs.Compilation.Options
import QueryDriver.Proofs.Compilation.Functions
import QueryDriver.Proofs.Text.Reading
import QueryDriver.Proofs.Rendering.Phrase
import QueryDriver.Proofs.Rendering.Spelling
import QueryDriver.Proofs.Rendering.Legible
import QueryDriver.Proofs.Rendering.Telling
import QueryDriver.Proofs.Rendering.Answers
import QueryDriver.Proofs.Lowering.Level
import QueryDriver.Proofs.Lowering.Spelled
import QueryDriver.Proofs.Compilation.Text
import QueryDriver.Proofs.Wire.Fields
import QueryDriver.Proofs.Wire.Messages
import QueryDriver.Proofs.Net.Framing
import QueryDriver.Proofs.Net.Parsing
import QueryDriver.Proofs.Net.Receiving
import QueryDriver.Proofs.Net.Sending
import QueryDriver.Proofs.Codec.Literals
import QueryDriver.Proofs.Codec.Normal
import QueryDriver.Proofs.Codec.Outcome
import QueryDriver.Proofs.Codec.Overflow
import QueryDriver.Proofs.Codec.RoundTrip
import QueryDriver.Proofs.Codec.Misreading
import QueryDriver.Proofs.Cursor.Decoding
import QueryDriver.Proofs.Lowering.Determined
import QueryDriver.Proofs.Lowering.Meeting
import QueryDriver.Proofs.Lowering.Oblivious
import QueryDriver.Proofs.Compilation.Format
import QueryDriver.Proofs.Session.Sparing
import QueryDriver.Proofs.Session.Accounting
import QueryDriver.Proofs.Cursor.Within
import QueryDriver.Proofs.System.Pooling
import QueryDriver.Proofs.System.Course
import QueryDriver.Proofs.System.Moving
import QueryDriver.Proofs.System.Orderly
import QueryDriver.Proofs.System.Releasing
import QueryDriver.Proofs.System.Arrival
import QueryDriver.Proofs.System.Finality
import QueryDriver.Proofs.System.Formats
import QueryDriver.Proofs.Codec.Concord
import QueryDriver.Proofs.Number.Whole
import QueryDriver.Proofs.Time.Calendar
import QueryDriver.Proofs.Time.Moment
import QueryDriver.Proofs.Codec.Times
import QueryDriver.Proofs.Net.Closing
import QueryDriver.Proofs.Net.Breaking
import QueryDriver.Proofs.Net.Errand
import QueryDriver.Proofs.Net.Deadline
import QueryDriver.Proofs.Text.Runs
import QueryDriver.Proofs.Codec.Zones
import QueryDriver.Proofs.Net.Address
import QueryDriver.Proofs.Codec.Conversion
import QueryDriver.Proofs.Number.Sign
import QueryDriver.Proofs.Session.Timeout
import QueryDriver.Proofs.WriteSummary
import QueryDriver.Proofs.Builder.Lifting
import QueryDriver.Proofs.Session.Closing
