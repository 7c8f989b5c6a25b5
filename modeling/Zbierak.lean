import Zbierak.Lib.Runs
import Zbierak.Lib.Table
import Zbierak.Lib.Text
import Zbierak.Lib.Cidr
import Zbierak.Lib.Upsert
import Zbierak.Lib.Utf8
import Zbierak.Lib.Nocase
import Zbierak.Lib.Boundary
import Zbierak.Lib.Window
import Zbierak.Lib.FixedWindow
import Zbierak.Lib.Limiter
import Zbierak.Lib.Lockout
import Zbierak.Lib.Merge
import Zbierak.Lib.Paging
import Zbierak.Lib.Record
import Zbierak.Lib.Lines
import Zbierak.Lib.Evict
import Zbierak.Lib.Digits
import Zbierak.Domain
import Zbierak.Forms
import Zbierak.Json
import Zbierak.Protocol
import Zbierak.Validation
import Zbierak.Crates
import Zbierak.Codec
import Zbierak.Fingerprint
import Zbierak.Grouping
import Zbierak.Flattening
import Zbierak.Tags
import Zbierak.Schema
import Zbierak.AuditTrail
import Zbierak.IssuePage
import Zbierak.RemovedText
import Zbierak.Comments
import Zbierak.Privileges
import Zbierak.Auth
import Zbierak.Settings
import Zbierak.Ingest
import Zbierak.Issues
import Zbierak.IssueApi
import Zbierak.UiForms
import Zbierak.CsrfGate
import Zbierak.AuditSoundness
import Zbierak.Isolation
import Zbierak.NetPolicy
import Zbierak.Projects
import Zbierak.Revocation
import Zbierak.Outbox
import Zbierak.Webhooks
import Zbierak.Server
import Zbierak.Bootstrap
import Zbierak.IssueTags
import Zbierak.TagSets
import Zbierak.Truncation
import Zbierak.Fences
import Zbierak.Slugs
import Zbierak.SlugSuggestion
import Zbierak.BevyInit
import Zbierak.Timestamps
import Zbierak.TagLinks
import Zbierak.Secrets
import Zbierak.IssueListing
import Zbierak.Pagination
import Zbierak.EventStore
import Zbierak.Idempotence
import Zbierak.StatusHistory
import Zbierak.Notifications
import Zbierak.Destinations
import Zbierak.Ownership
import Zbierak.Login
import Zbierak.Rotation
import Zbierak.Throttling
import Zbierak.LoginAutomaton
import Zbierak.Delivery
import Zbierak.DeliveryRuns
import Zbierak.SignedDeliveries
import Zbierak.Directory
import Zbierak.Spool
import Zbierak.SpoolRetry
import Zbierak.Sdk
import Zbierak.Stacktrace
import Zbierak.Bevy
import Zbierak.BevyLimits
import Zbierak.Blocking
import Zbierak.PanicReport
import Zbierak.SpoolOrder
import Zbierak.SpoolRuns
import Zbierak.SpoolBound
import Zbierak.Drain
import Zbierak.Conservation
import Zbierak.Stopping
import Zbierak.AsyncClient
import Zbierak.SpillLedger
import Zbierak.FailedSpill
import Zbierak.Fairness
import Zbierak.Barrier
import Zbierak.EndToEnd
import Zbierak.ExactlyOnce
import Zbierak.Tracker
import Zbierak.Http
import Zbierak.Credentials
import Zbierak.Acceptance
import Zbierak.ApiReads
import Zbierak.Pacing
import Zbierak.Pages
import Zbierak.Presentation
import Zbierak.Confidentiality
import Zbierak.Breadcrumbs
import Zbierak.Bystander
import Zbierak.Lib.Reference
import Zbierak.References
import Zbierak.Requests
import Zbierak.Mediation
import Zbierak.UniqueIndexes
import Zbierak.Avatars
import Zbierak.LogReport
