import TriggerWatch.Action
import TriggerWatch.BeaconTable
import TriggerWatch.Chat
import TriggerWatch.Condition
import TriggerWatch.Cooldown
import TriggerWatch.Datum
import TriggerWatch.Decimal.Binary
import TriggerWatch.Decimal.Fixed
import TriggerWatch.Decimal.Layout
import TriggerWatch.Decimal.Read
import TriggerWatch.Decimal.Shortest
import TriggerWatch.Dict
import TriggerWatch.Evaluation
import TriggerWatch.Failure
import TriggerWatch.Firing
import TriggerWatch.History
import TriggerWatch.Intake
import TriggerWatch.Json.Basic
import TriggerWatch.Json.Literal
import TriggerWatch.Json.Parser
import TriggerWatch.Json.Printer
import TriggerWatch.Json.Record
import TriggerWatch.Json.Tree
import TriggerWatch.Key
import TriggerWatch.Main
import TriggerWatch.Outcome
import TriggerWatch.Proofs.Acceptance
import TriggerWatch.Proofs.Addresses
import TriggerWatch.Proofs.Announcements
import TriggerWatch.Proofs.Bands
import TriggerWatch.Proofs.Behavior
import TriggerWatch.Proofs.Calls
import TriggerWatch.Proofs.Cells
import TriggerWatch.Proofs.Changes
import TriggerWatch.Proofs.Concourse
import TriggerWatch.Proofs.Course
import TriggerWatch.Proofs.Coverage
import TriggerWatch.Proofs.Deliveries
import TriggerWatch.Proofs.Determinism
import TriggerWatch.Proofs.Dictionaries
import TriggerWatch.Proofs.DocumentNames
import TriggerWatch.Proofs.Effects
import TriggerWatch.Proofs.Endings
import TriggerWatch.Proofs.Entries
import TriggerWatch.Proofs.Episodes
import TriggerWatch.Proofs.Ingestion
import TriggerWatch.Proofs.Instants
import TriggerWatch.Proofs.Isolation
import TriggerWatch.Proofs.Keys
import TriggerWatch.Proofs.LongYears
import TriggerWatch.Proofs.Magnitudes
import TriggerWatch.Proofs.Messages
import TriggerWatch.Proofs.OwnReading
import TriggerWatch.Proofs.Parts
import TriggerWatch.Proofs.PassedChecks
import TriggerWatch.Proofs.Periods
import TriggerWatch.Proofs.PlainParts
import TriggerWatch.Proofs.Readings
import TriggerWatch.Proofs.Records
import TriggerWatch.Proofs.Refusals
import TriggerWatch.Proofs.ReportedFires
import TriggerWatch.Proofs.ReportedState
import TriggerWatch.Proofs.Retention
import TriggerWatch.Proofs.SettingsInForce
import TriggerWatch.Proofs.ShortWindows
import TriggerWatch.Proofs.SilentCalls
import TriggerWatch.Proofs.Spacing
import TriggerWatch.Proofs.StateStores
import TriggerWatch.Proofs.StringLiterals
import TriggerWatch.Proofs.Suppression
import TriggerWatch.Proofs.TextPieces
import TriggerWatch.Proofs.Timeless
import TriggerWatch.Proofs.Timestamps
import TriggerWatch.Proofs.Trails
import TriggerWatch.Proofs.Turns
import TriggerWatch.Proofs.UriReading
import TriggerWatch.Proofs.Verdicts
import TriggerWatch.Proofs.WellFormedRules
import TriggerWatch.Proofs.Windows
import TriggerWatch.Proofs.WorkerRuns
import TriggerWatch.Proofs.WrittenForms
import TriggerWatch.Proofs.WrittenTables
import TriggerWatch.Reading
import TriggerWatch.Rule
import TriggerWatch.Service
import TriggerWatch.Settings.Basic
import TriggerWatch.Settings.Environment
import TriggerWatch.Settings.Flaw
import TriggerWatch.Settings.Table
import TriggerWatch.Store.Basic
import TriggerWatch.Store.Connection
import TriggerWatch.Store.Link
import TriggerWatch.Store.Memory
import TriggerWatch.Store.Postgres
import TriggerWatch.Store.Redis
import TriggerWatch.Store.Shadow
import TriggerWatch.Submission
import TriggerWatch.Text.Blank
import TriggerWatch.Text.Lowercase
import TriggerWatch.Text.Split
import TriggerWatch.Text.Utf8
import TriggerWatch.Time.Calendar
import TriggerWatch.Time.Civil
import TriggerWatch.Time.Format
import TriggerWatch.Time.Instant
import TriggerWatch.Time.Reader
import TriggerWatch.Trail
import TriggerWatch.Turnstile
import TriggerWatch.Uri
import TriggerWatch.Window
import TriggerWatch.Worker
