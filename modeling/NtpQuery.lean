import NtpQuery.Bytes
import NtpQuery.Text.White
import NtpQuery.Text.Column
import NtpQuery.Text.Numeral
import NtpQuery.Text.Utf8
import NtpQuery.Text.Binary64
import NtpQuery.Net.Address
import NtpQuery.Net.Literal
import NtpQuery.Net.Error
import NtpQuery.Net.Transport
import NtpQuery.Net.Exchange
import NtpQuery.World
import NtpQuery.Wire.Error
import NtpQuery.Wire.Header
import NtpQuery.Wire.Fragment
import NtpQuery.Wire.Assembly
import NtpQuery.Net.Script
import NtpQuery.Net.Udp
import NtpQuery.Client.Error
import NtpQuery.Client.State
import NtpQuery.Client.Basic
import NtpQuery.Client.Query
import NtpQuery.Timestamp
import NtpQuery.Variable
import NtpQuery.Status
import NtpQuery.Program
import NtpQuery.Failure
import NtpQuery.Command.Argument
import NtpQuery.Command.Coercion
import NtpQuery.Command.Table
import NtpQuery.Session.Call
import NtpQuery.Command.Routine
import NtpQuery.Command.Standard
import NtpQuery.Session.Buffer
import NtpQuery.Session.Workspace
import NtpQuery.Session.Run
import NtpQuery.Session.Basic
import NtpQuery.Terminal
import NtpQuery.Shared
import NtpQuery.Toml.Value
import NtpQuery.Toml.Scalar
import NtpQuery.Toml.Quoted
import NtpQuery.Toml.Document
import NtpQuery.Config.Basic
import NtpQuery.Config.File
import NtpQuery.Cli.Options
import NtpQuery.Cli.Console
import NtpQuery.Cli.Program
import NtpQuery.Main
import NtpQuery.Proofs.Assembly.Order
import NtpQuery.Proofs.Assembly.Tiling
import NtpQuery.Proofs.Assembly.Offers
import NtpQuery.Proofs.Wire.Codec
import NtpQuery.Proofs.Wire.RoundTrip
import NtpQuery.Proofs.Assembly.Split
import NtpQuery.Proofs.Client.Collect
import NtpQuery.Proofs.Client.Contradiction
import NtpQuery.Proofs.Client.Host
import NtpQuery.Proofs.Client.Reassembly
import NtpQuery.Proofs.Client.Keep
import NtpQuery.Proofs.Program
import NtpQuery.Proofs.Command.Coercion
import NtpQuery.Proofs.Command.Consultation
import NtpQuery.Proofs.Command.Rows
import NtpQuery.Proofs.Net.Mail
import NtpQuery.Proofs.Client.Course
import NtpQuery.Proofs.Client.ListLength
import NtpQuery.Proofs.Client.Idle
import NtpQuery.Proofs.Command.Calls
import NtpQuery.Proofs.Command.Steady
import NtpQuery.Proofs.Command.Frame
import NtpQuery.Proofs.Command.Idle
import NtpQuery.Proofs.Session.Inquiries
import NtpQuery.Proofs.Client.Listing
import NtpQuery.Proofs.Client.Replies
import NtpQuery.Proofs.Net.Script
import NtpQuery.Proofs.Net.Alike
import NtpQuery.Proofs.Client.Alike
import NtpQuery.Proofs.Net.Disturbed
import NtpQuery.Proofs.Client.Foreign
import NtpQuery.Proofs.Client.Trials
import NtpQuery.Proofs.Client.Conduct
import NtpQuery.Proofs.Client.Sendings
import NtpQuery.Proofs.Session.Run
import NtpQuery.Proofs.Session.Buffer
import NtpQuery.Proofs.Session.OnTape
import NtpQuery.Proofs.Session.Output
import NtpQuery.Proofs.Session.Alike
import NtpQuery.Proofs.Session.Truncation
import NtpQuery.Proofs.Session.Lifecycle
import NtpQuery.Proofs.Session.Queries
import NtpQuery.Proofs.Session.Early
import NtpQuery.Proofs.Session.Tape
import NtpQuery.Proofs.Session.IndexColumn
import NtpQuery.Proofs.Session.Datagrams
import NtpQuery.Proofs.Session.Quiet
import NtpQuery.Proofs.Session.Twin
import NtpQuery.Proofs.Session.Renewal
import NtpQuery.Proofs.Session.Frame
import NtpQuery.Proofs.Session.Idle
import NtpQuery.Proofs.Text.Numeral
import NtpQuery.Proofs.Text.Trim
import NtpQuery.Proofs.Text.Utf8
import NtpQuery.Proofs.Text.Lines
import NtpQuery.Proofs.Text.Boundary
import NtpQuery.Proofs.Text.Column
import NtpQuery.Proofs.Variable.WellFormed
import NtpQuery.Proofs.Variable.RoundTrip
import NtpQuery.Proofs.Variable.Lines
import NtpQuery.Proofs.Command.Resolution
import NtpQuery.Proofs.Session.Abbreviation
import NtpQuery.Proofs.Session.Lending
import NtpQuery.Proofs.Session.Reentry
import NtpQuery.Proofs.Session.LastError
import NtpQuery.Proofs.Session.Verbatim
import NtpQuery.Proofs.Command.PeerText
import NtpQuery.Proofs.Command.PeerRows
import NtpQuery.Proofs.Session.PeerTables
import NtpQuery.Proofs.Variable.Scan
import NtpQuery.Proofs.Command.Positions
import NtpQuery.Proofs.Wire.Room
import NtpQuery.Proofs.Net.Cut
import NtpQuery.Proofs.Session.Scratch
import NtpQuery.Proofs.Client.Refresh
import NtpQuery.Proofs.Session.Regions
import NtpQuery.Proofs.Command.Address
import NtpQuery.Proofs.Failure
import NtpQuery.Proofs.Command.Shadowing
import NtpQuery.Proofs.Session.Printing
import NtpQuery.Proofs.Command.Numeric
import NtpQuery.Proofs.Session.Numbers
import NtpQuery.Proofs.Session.Help
import NtpQuery.Proofs.Text.Lenient
import NtpQuery.Proofs.Text.Strict
import NtpQuery.Proofs.Terminal
import NtpQuery.Proofs.Cli.Input
import NtpQuery.Proofs.Cli.Replies
import NtpQuery.Proofs.Cli.Sources
