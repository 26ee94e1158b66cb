import Renewals.Broker.Basic
import Renewals.Broker.Call
import Renewals.Broker.Topology
import Renewals.Cache.Basic
import Renewals.Cache.Fault
import Renewals.Cache.Holdings
import Renewals.Cache.Memory
import Renewals.Cache.Remote
import Renewals.Calendar.Day
import Renewals.Calendar.Iso
import Renewals.Calendar.Moment
import Renewals.Calendar.Month
import Renewals.Calendar.Stamp
import Renewals.Calendar.Written
import Renewals.Deployment.Basic
import Renewals.Deployment.Startup
import Renewals.Deployment.Steps
import Renewals.Field.Basic
import Renewals.Field.Complaint
import Renewals.Field.Whole
import Renewals.Http.Draft
import Renewals.Http.Request
import Renewals.Http.Response
import Renewals.Http.Route
import Renewals.Http.Service
import Renewals.Http.Target
import Renewals.Http.Validation
import Renewals.Json.Compact
import Renewals.Json.Fault
import Renewals.Json.Printer
import Renewals.Json.Reader
import Renewals.Json.Shown
import Renewals.Json.Value
import Renewals.Main
import Renewals.Migration.Address
import Renewals.Migration.Definition
import Renewals.Migration.Script
import Renewals.Number.Binary64
import Renewals.Number.Numeral
import Renewals.Number.Shortest
import Renewals.Number.Word
import Renewals.Proofs.Basic
import Renewals.Proofs.Broker.Connect
import Renewals.Proofs.Broker.GivenBack
import Renewals.Proofs.Broker.Queues
import Renewals.Proofs.Broker.Setup
import Renewals.Proofs.Broker.Wiring
import Renewals.Proofs.Cache.Contract
import Renewals.Proofs.Cache.Decoding
import Renewals.Proofs.Cache.Items
import Renewals.Proofs.Cache.Overwrite
import Renewals.Proofs.Cache.RoundTrip
import Renewals.Proofs.Calendar.Iso
import Renewals.Proofs.Calendar.Month
import Renewals.Proofs.Calendar.MonthSteps
import Renewals.Proofs.Calendar.Written
import Renewals.Proofs.Deployment.Calls
import Renewals.Proofs.Deployment.Cells
import Renewals.Proofs.Deployment.Connections
import Renewals.Proofs.Http.Refusals
import Renewals.Proofs.Http.Requests
import Renewals.Proofs.Http.Traces
import Renewals.Proofs.Json.Record
import Renewals.Proofs.Json.Text
import Renewals.Proofs.Migration.Address
import Renewals.Proofs.Number.Binary64
import Renewals.Proofs.Scheduler.Attempts
import Renewals.Proofs.Scheduler.Await
import Renewals.Proofs.Scheduler.CleanUp
import Renewals.Proofs.Scheduler.Notices
import Renewals.Proofs.Scheduler.Release
import Renewals.Proofs.Scheduler.Reminders
import Renewals.Proofs.Scheduler.Scan
import Renewals.Proofs.Scheduler.Shift
import Renewals.Proofs.Scheduler.Startup
import Renewals.Proofs.Scheduler.Unreachable
import Renewals.Proofs.Scheduler.Wiring
import Renewals.Proofs.Service.Acceptance
import Renewals.Proofs.Service.Agree
import Renewals.Proofs.Service.Apart
import Renewals.Proofs.Service.BesideCaches
import Renewals.Proofs.Service.BillingDates
import Renewals.Proofs.Service.Coherence
import Renewals.Proofs.Service.Effects
import Renewals.Proofs.Service.Footprint
import Renewals.Proofs.Service.Isolation
import Renewals.Proofs.Service.Origin
import Renewals.Proofs.Service.Paging
import Renewals.Proofs.Service.Precedence
import Renewals.Proofs.Service.Provenance
import Renewals.Proofs.Service.Refusals
import Renewals.Proofs.Service.RemoveRace
import Renewals.Proofs.Service.Repetition
import Renewals.Proofs.Service.Reports
import Renewals.Proofs.Service.Requests
import Renewals.Proofs.Service.Rollover
import Renewals.Proofs.Service.RolloverHistory
import Renewals.Proofs.Service.RolloverLosses
import Renewals.Proofs.Service.RolloverRace
import Renewals.Proofs.Service.RolloverTurns
import Renewals.Proofs.Service.Scripts
import Renewals.Proofs.Service.SoundRows
import Renewals.Proofs.Service.Stages
import Renewals.Proofs.Service.Staleness
import Renewals.Proofs.Service.Sums
import Renewals.Proofs.Service.Traces
import Renewals.Proofs.Service.Transparency
import Renewals.Proofs.Service.Truthful
import Renewals.Proofs.Service.Turns
import Renewals.Proofs.Store.Answers
import Renewals.Proofs.Store.Faults
import Renewals.Proofs.Store.Rows
import Renewals.Proofs.Store.Schema
import Renewals.Proofs.Store.Sums
import Renewals.Proofs.Subscription.Acceptance
import Renewals.Proofs.Subscription.Billing
import Renewals.Proofs.Subscription.MonthsLeft
import Renewals.Proofs.Subscription.Notice
import Renewals.Proofs.Subscription.Payload
import Renewals.Proofs.Subscription.Refusals
import Renewals.Proofs.Subscription.Sound
import Renewals.Proofs.Subscription.Term
import Renewals.Proofs.Task.Agree
import Renewals.Proofs.Task.Calls
import Renewals.Proofs.Task.History
import Renewals.Proofs.Task.Retry
import Renewals.Proofs.Task.Script
import Renewals.Proofs.Task.Triple
import Renewals.Proofs.Text.Decimal
import Renewals.Proofs.Text.Trim
import Renewals.Scheduler.Board
import Renewals.Scheduler.Daily
import Renewals.Scheduler.Process
import Renewals.Scheduler.Scan
import Renewals.Service.Basic
import Renewals.Settings.Basic
import Renewals.Store.Address
import Renewals.Store.Basic
import Renewals.Store.Dialect
import Renewals.Store.Query
import Renewals.Store.Table
import Renewals.Subscription.Billing
import Renewals.Subscription.Entry
import Renewals.Subscription.Notice
import Renewals.Subscription.Order
import Renewals.Subscription.Payload
import Renewals.Subscription.Term
import Renewals.Task.Basic
import Renewals.Task.Cached
import Renewals.Task.Failure
import Renewals.Text.Blank
import Renewals.Text.Charset
import Renewals.Text.Digit
import Renewals.Text.Encoded
import Renewals.Text.Loose
import Renewals.Text.Lower
import Renewals.Text.Percent
import Renewals.Text.Printable
import Renewals.Text.Quoted
import Renewals.Text.Utf8
import Renewals.Text.Word
