import BssCli.Agent.Bounded
import BssCli.Agent.Trip
import BssCli.Agent.Walk
import BssCli.Branding.Config
import BssCli.Catalog.BestOffer
import BssCli.Catalog.Chargeable
import BssCli.Catalog.Create
import BssCli.Catalog.Offerings
import BssCli.Catalog.Offers
import BssCli.Catalog.Resumed
import BssCli.Catalog.Sellable
import BssCli.Catalog.Succession
import BssCli.Chat.Addressed
import BssCli.Chat.Caps
import BssCli.Chat.Contained
import BssCli.Chat.Prior
import BssCli.Chat.Retry
import BssCli.Chat.Transcript
import BssCli.Clients.Query
import BssCli.Clock.Instant
import BssCli.Clock.Scenario
import BssCli.Cockpit.Bubble
import BssCli.Cockpit.Config
import BssCli.Cockpit.Confirmed
import BssCli.Cockpit.Exclusive
import BssCli.Cockpit.FixedPoints
import BssCli.Cockpit.Leftovers
import BssCli.Cockpit.Reported
import BssCli.Cockpit.RoundTrip
import BssCli.Cockpit.Scrubber
import BssCli.Cockpit.Trace
import BssCli.Com.Attempts
import BssCli.Com.Cancellation
import BssCli.Com.Entitlement
import BssCli.Com.Service
import BssCli.Com.Terminal
import BssCli.Crm.Absorbing
import BssCli.Crm.Attest
import BssCli.Crm.Attested
import BssCli.Crm.Cases
import BssCli.Crm.ClosedCases
import BssCli.Crm.Deactivation
import BssCli.Crm.Exclusive
import BssCli.Crm.HeldOrders
import BssCli.Crm.Inventory
import BssCli.Crm.Markers
import BssCli.Crm.OpenOrder
import BssCli.Crm.OpenWorld
import BssCli.Crm.PortSettlement
import BssCli.Crm.TenantOrders
import BssCli.Crm.TicketHistory
import BssCli.Events.AtLeastOnce
import BssCli.Events.Consumer
import BssCli.Events.Delivery
import BssCli.Knowledge.Chunker
import BssCli.Knowledge.Indexer
import BssCli.Kyc.Attestation
import BssCli.Lib.Calendar
import BssCli.Lib.EventStream
import BssCli.Lib.Forest
import BssCli.Lib.Json
import BssCli.Lib.JsonText
import BssCli.Lib.Keyed
import BssCli.Lib.Markup
import BssCli.Lib.Newest
import BssCli.Lib.Once
import BssCli.Lib.Pool
import BssCli.Lib.Program
import BssCli.Lib.Quota
import BssCli.Lib.Regex
import BssCli.Lib.Reload
import BssCli.Lib.Rounding
import BssCli.Lib.Spend
import BssCli.Lib.Steps
import BssCli.Lib.Table
import BssCli.Lib.Template
import BssCli.Lib.Text
import BssCli.Lib.Url
import BssCli.Lib.UrlEncoded
import BssCli.Lib.UrlPath
import BssCli.Lib.Utf8
import BssCli.Lib.Walk
import BssCli.Lib.Window
import BssCli.Mediation.Domain
import BssCli.Mediation.Ingest
import BssCli.Middleware.TokenMap
import BssCli.Onboard.Wizard
import BssCli.Payment.Attempts
import BssCli.Payment.Default
import BssCli.Payment.Methods
import BssCli.Payment.Previews
import BssCli.Payment.Signature
import BssCli.Payment.Webhooks
import BssCli.Portal.Forms
import BssCli.Portal.Masks
import BssCli.Portal.Redirect
import BssCli.Portal.Replay
import BssCli.PortalAuth.Account
import BssCli.PortalAuth.Agreement
import BssCli.PortalAuth.Deleted
import BssCli.PortalAuth.Domain
import BssCli.PortalAuth.Grants
import BssCli.PortalAuth.Guesses
import BssCli.PortalAuth.Links
import BssCli.PortalAuth.Rotation
import BssCli.PortalAuth.Service
import BssCli.PortalAuth.Stashed
import BssCli.PortalAuth.World
import BssCli.PortalUi.Document
import BssCli.PortalUi.Escaped
import BssCli.PortalUi.Frames
import BssCli.PortalUi.Nesting
import BssCli.Provisioning.Consumer
import BssCli.Provisioning.Healing
import BssCli.Provisioning.Worker
import BssCli.Provisioning.World
import BssCli.Rating.Domain
import BssCli.Scenarios.Passes
import BssCli.Signup.OneLine
import BssCli.Som.Compensation
import BssCli.Som.Completion
import BssCli.Som.Decomposition
import BssCli.Som.Fulfilment
import BssCli.Som.Ownership
import BssCli.Som.Progress
import BssCli.Som.Refinement
import BssCli.Som.Releases
import BssCli.Som.Repo
import BssCli.Som.Settlement
import BssCli.Som.World
import BssCli.Subscription.Activation
import BssCli.Subscription.Block
import BssCli.Subscription.Bounds
import BssCli.Subscription.Discount
import BssCli.Subscription.Dispatch
import BssCli.Subscription.Displayed
import BssCli.Subscription.Exhaust
import BssCli.Subscription.Fleet
import BssCli.Subscription.History
import BssCli.Subscription.Lost
import BssCli.Subscription.Pivot
import BssCli.Subscription.PlanChanges
import BssCli.Subscription.Renewals
import BssCli.Subscription.UsageOrder
import BssCli.Subscription.World
import BssCli.Usage.Attribution
import BssCli.Usage.ChargedOnce
import BssCli.Usage.History
import BssCli.Usage.Pipeline
import BssCli.Usage.Roaming
import BssCli.Usage.Verdict
import BssCli.Webhooks.Canonical
import BssCli.Webhooks.Corroboration
import BssCli.Webhooks.Didit
import BssCli.Webhooks.Redaction
