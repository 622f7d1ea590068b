import PubSub.Backoff
import PubSub.CallbackService
import PubSub.Client
import PubSub.ClientId
import PubSub.Config
import PubSub.Core
import PubSub.Core.Action
import PubSub.Core.Handle
import PubSub.Core.Work
import PubSub.Delivery
import PubSub.Delivery.Document
import PubSub.Delivery.Inspect
import PubSub.Duration
import PubSub.Effect
import PubSub.Endpoint
import PubSub.Endpoint.Service
import PubSub.Error
import PubSub.Json
import PubSub.Json.Decode
import PubSub.Json.Reader
import PubSub.Logging
import PubSub.Logging.Decode
import PubSub.Logging.Directive
import PubSub.Logging.Filter
import PubSub.Logging.Line
import PubSub.Mailbox
import PubSub.Main
import PubSub.Message
import PubSub.Number.Decimal
import PubSub.Number.Double
import PubSub.Number.Rounding
import PubSub.Options
import PubSub.Options.Decode
import PubSub.Options.Inspect
import PubSub.Options.Validation
import PubSub.Phase
import PubSub.Promise
import PubSub.Report
import PubSub.Rotation
import PubSub.Script.Mailbox
import PubSub.Script.Promise
import PubSub.Script.Timer
import PubSub.SendWindow
import PubSub.Session.Callbacks
import PubSub.Session.Play
import PubSub.Session.Services
import PubSub.Session.Step
import PubSub.Session.Turn
import PubSub.Session.World
import PubSub.Startup
import PubSub.Subscription
import PubSub.Text.Hex
import PubSub.Text.Inspected
import PubSub.Text.Lowercase
import PubSub.Text.Quoted
import PubSub.Text.Unprintable
import PubSub.Text.Utf8
import PubSub.TimerService
import PubSub.Toml.Number
import PubSub.Toml.Reader
import PubSub.Toml.Table
import PubSub.Toml.Text
import PubSub.Topic
import PubSub.Url
import PubSub.Url.Host
import PubSub.Url.Parser
import PubSub.Url.Percent
import PubSub.Work
import PubSub.Proofs.Run
import PubSub.Proofs.Arrivals
import PubSub.Proofs.Confirms
import PubSub.Proofs.Progress
import PubSub.Proofs.Starts
import PubSub.Proofs.Stops
import PubSub.Proofs.Attempts
import PubSub.Proofs.Connections
import PubSub.Proofs.Handling
import PubSub.Proofs.Load
import PubSub.Proofs.Answers
import PubSub.Proofs.Renewals
import PubSub.Proofs.Restarts
import PubSub.Proofs.Sources
import PubSub.Proofs.Calls
import PubSub.Proofs.Traffic
import PubSub.Proofs.Sends
import PubSub.Proofs.Queues
import PubSub.Proofs.Lines
import PubSub.Proofs.Operations
import PubSub.Proofs.Milestones
import PubSub.Proofs.Lifecycle
import PubSub.Proofs.Causes
import PubSub.Proofs.SendOrder
import PubSub.Proofs.Fencing
import PubSub.Proofs.Sessions
import PubSub.Proofs.Endings
import PubSub.Proofs.Receipts
import PubSub.Proofs.Acknowledgements
import PubSub.Proofs.Results
import PubSub.Proofs.Rounds
import PubSub.Proofs.LastCalls
import PubSub.Proofs.Tenure
import PubSub.Proofs.Notices
import PubSub.Proofs.Verdicts
import PubSub.Proofs.Mailboxes
import PubSub.Proofs.Workers
import PubSub.Proofs.CallbackOrder
import PubSub.Proofs.Deeds
import PubSub.Proofs.Nesting
import PubSub.Proofs.Accounts
import PubSub.Proofs.Listeners
import PubSub.Proofs.SendPromises
import PubSub.Proofs.Interleaving
import PubSub.Proofs.Backpressure
import PubSub.Proofs.Waits
import PubSub.Proofs.Rotations
import PubSub.Proofs.Validated
import PubSub.Proofs.Credentials
import PubSub.Proofs.Escapes
import PubSub.Proofs.Secrets
import PubSub.Proofs.Growth
import PubSub.Proofs.Served
import PubSub.Proofs.Outage
import PubSub.Proofs.Weights
import PubSub.Proofs.Retries
import PubSub.Proofs.Exhaustion
import PubSub.Proofs.Delays
import PubSub.Proofs.Rules
import PubSub.Proofs.Usable
import PubSub.Proofs.Entries
import PubSub.Proofs.Pops
import PubSub.Proofs.Forms
import PubSub.Proofs.Origins
import PubSub.Proofs.Addresses
import PubSub.Proofs.Locality
import PubSub.Proofs.Destinations
import PubSub.Proofs.WellFormed
import PubSub.Proofs.Bodies
