import Cellular.Text.Bytes
import Cellular.Text.Blank
import Cellular.Text.Decimal
import Cellular.Grammar.Scanner
import Cellular.Grammar.Field
import Cellular.Grammar.RangeList
import Cellular.Grammar.Listing
import Cellular.Radio.Mode
import Cellular.Radio.Band
import Cellular.Radio.Technology
import Cellular.Radio.Lock
import Cellular.Registration
import Cellular.Error
import Cellular.Grammar.Positional
import Cellular.Reply.Registration
import Cellular.Reply.Support
import Cellular.Reply.IpSettings
import Cellular.Reply.BandMask
import Cellular.Reply.BandNames
import Cellular.Reply.Status
import Cellular.Unsolicited.Code
import Cellular.Unsolicited.Digest
import Cellular.Command.Basic
import Cellular.Command.Standard
import Cellular.Command.Cinterion
import Cellular.Command.Samsung
import Cellular.Command.Simcom
import Cellular.Command.Xmm
import Cellular.Command.Fibocom
import Cellular.Json.Basic
import Cellular.Json.Reader
import Cellular.Config
import Cellular.Vendor.Gosuncn
import Cellular.Vendor.Qualcomm
import Cellular.Vendor.Mbim
import Cellular.Wait.Poll
import Cellular.Wait.Debouncer
import Cellular.Wait.JoinGate
import Cellular.Wait.Join
import Cellular.Wait.Schedule
import Cellular.Unsolicited.Board
import Cellular.Feature
import Cellular.Procedure.Basic
import Cellular.Procedure.Operation
import Cellular.Vendor.BearerKind
import Cellular.Vendor.Cinterion
import Cellular.Vendor.Samsung
import Cellular.Vendor.Simcom
import Cellular.Vendor.Fibocom
import Cellular.Vendor.Xmm
import Cellular.Bench.Basic
import Cellular.Bench.Flight
import Cellular.Bench.Rehearsal
import Cellular.Bench.Arrival
import Cellular.Bench.Debounce
import Cellular.Bench.Listening
import Cellular.Bearer.Basic
import Cellular.Bearer.Deferral
import Cellular.Bearer.Listener
import Cellular.Bench.Mounted
import Cellular.Bench.StandIn
import Cellular.Bench.Connection
import Cellular.Proofs.Bearer.Interplay
import Cellular.Proofs.Bearer.Phase
import Cellular.Proofs.Bearer.Settled
import Cellular.Proofs.Bearer.History
import Cellular.Proofs.Bearer.Status
import Cellular.Proofs.Bearer.Cancellation
import Cellular.Proofs.Bearer.Forced
import Cellular.Proofs.Bearer.Frame
import Cellular.Proofs.Wait.Sleeper
import Cellular.Proofs.Bearer.Justified
import Cellular.Proofs.Bearer.Played
import Cellular.Proofs.Bearer.Report
import Cellular.Proofs.Bearer.Unattended
import Cellular.Proofs.Bearer.Roaming
import Cellular.Proofs.Bearer.Timeline
import Cellular.Proofs.Bearer.Attended
import Cellular.Proofs.Bearer.GracePeriod
import Cellular.Proofs.Bearer.Ending
import Cellular.Proofs.Wait.Join
import Cellular.Proofs.Wait.Rendezvous
import Cellular.Proofs.Unsolicited.Board
import Cellular.Proofs.Bench.History
import Cellular.Proofs.Bench.Waiting
import Cellular.Proofs.Bench.Joined
import Cellular.Proofs.Bench.Halting
import Cellular.Proofs.Procedure.Ends
import Cellular.Proofs.Procedure.Runs
import Cellular.Proofs.Procedure.Sequence
import Cellular.Proofs.Procedure.Session
import Cellular.Proofs.Procedure.Conduct
import Cellular.Proofs.Vendor.Samsung
import Cellular.Proofs.Vendor.StaleReport
import Cellular.Proofs.Bench.Dispatch
import Cellular.Proofs.Vendor.Seats
import Cellular.Proofs.Bench.Bystander
import Cellular.Proofs.Vendor.PowerOff
import Cellular.Proofs.Bearer.Pact
import Cellular.Proofs.Bearer.Standing
import Cellular.Proofs.Vendor.OwnContext
import Cellular.Proofs.Vendor.Selection
import Cellular.Proofs.Vendor.Readback
import Cellular.Proofs.Bench.Reading
import Cellular.Proofs.Bench.Backlog
import Cellular.Proofs.Bearer.Bookkeeping
import Cellular.Proofs.Bearer.Handover
import Cellular.Proofs.Bearer.Reception
import Cellular.Proofs.Vendor.Mbim
import Cellular.Proofs.Vendor.Notifications
import Cellular.Proofs.Vendor.Routing
import Cellular.Proofs.Procedure.Confined
import Cellular.Proofs.Vendor.Unconcerned
import Cellular.Proofs.Vendor.Features
import Cellular.Proofs.Vendor.Probes
import Cellular.Proofs.Text.Stretch
import Cellular.Proofs.Text.Utf8
import Cellular.Proofs.Text.Decimal
import Cellular.Proofs.Grammar.Scanner
import Cellular.Proofs.Grammar.Positional
import Cellular.Proofs.Reply.Registration
import Cellular.Proofs.Unsolicited.Digest
import Cellular.Proofs.Unsolicited.Lines
import Cellular.Proofs.Wait.JoinGate
import Cellular.Proofs.Wait.Debouncer
import Cellular.Proofs.Bench.Debounced
import Cellular.Proofs.Text.Blank
import Cellular.Proofs.Text.Listed
import Cellular.Proofs.Grammar.Listing
import Cellular.Proofs.Reply.IpSettings
import Cellular.Proofs.Json.Token
import Cellular.Proofs.Json.RoundTrip
import Cellular.Proofs.Config
import Cellular.Proofs.Feature
import Cellular.Proofs.Procedure.Soft
import Cellular.Proofs.Vendor.Fibocom
import Cellular.Proofs.Reply.BandMask
import Cellular.Proofs.Vendor.Bands
import Cellular.Proofs.Vendor.Cleanup
import Cellular.Proofs.Vendor.Xmm
import Cellular.Proofs.Reply.LocalAddress
import Cellular.Proofs.Reply.WellFormed
import Cellular.Proofs.Vendor.Settings
import Cellular.Proofs.Grammar.RangeList
import Cellular.Proofs.Reply.Support
import Cellular.Proofs.Vendor.Messages
import Cellular.Proofs.Reply.BandNames
import Cellular.Proofs.Unsolicited.Search
import Cellular.Proofs.Vendor.SimReady
import Cellular.Proofs.Bench.Listening
import Cellular.Proofs.Grammar.Expansion
import Cellular.Proofs.Grammar.Field
import Cellular.Proofs.Reply.QuotedList
import Cellular.Proofs.Radio.Lock
import Cellular.Proofs.Vendor.Counters
