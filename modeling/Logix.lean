import Logix.Js.Map
import Logix.Js.Set
import Logix.Js.Uuid
import Logix.Js.Text
import Logix.Js.Buffer
import Logix.Js.Capitals
import Logix.Js.Number
import Logix.Js.Cents
import Logix.Js.Date
import Logix.Js.Double
import Logix.Js.Calendar
import Logix.Js.Months
import Logix.Spec.Chain
import Logix.Spec.LastWrite
import Logix.Spec.Once
import Logix.Spec.Machine
import Logix.Spec.Stable
import Logix.Spec.Noninterference
import Logix.Spec.Registry
import Logix.Spec.Search
import Logix.Spec.Ranking
import Logix.Spec.Clock
import Logix.Spec.Ownership
import Logix.Spec.Retry
import Logix.Spec.Decision
import Logix.Spec.Regex
import Logix.Spec.InOrder
import Logix.Spec.Segment
import Logix.Spec.FirstFit
import Logix.Spec.Improvement
import Logix.Spec.Greedy
import Logix.Spec.Serving
import Logix.Spec.FirstMatch
import Logix.Spec.Grouping
import Logix.Spec.Rollover
import Logix.Xml.Reader
import Logix.Xml.Render
import Logix.Xml.Effects
import Logix.Xml.Fields
import Logix.Xml.Places
import Logix.Async.Program
import Logix.Async.Outline
import Logix.Async.Record
import Logix.Common.Errors
import Logix.Common.Policies
import Logix.Common.AggregateRepository
import Logix.Common.RouteOptimization
import Logix.Common.BinPacking
import Logix.Concurrency.Lease
import Logix.Gateway.TokenBucket
import Logix.Gateway.RateLimiter
import Logix.Gateway.CircuitBreaker
import Logix.Gateway.AdaptiveCircuit
import Logix.Gateway.Waf
import Logix.Gateway.Identity
import Logix.Inventory.Model
import Logix.Inventory.Balance
import Logix.Inventory.Oversell
import Logix.Inventory.OrderLines
import Logix.Inventory.Adjust
import Logix.Inventory.AdjustRaces
import Logix.Inventory.Tenants
import Logix.Inventory.DockDoors
import Logix.Inventory.Transfers
import Logix.Inventory.Barcodes
import Logix.Inventory.Cartons
import Logix.Inventory.Lots
import Logix.Inventory.LotNumbers
import Logix.Inventory.CrossDock
import Logix.Inventory.Opportunities
import Logix.Audit.Model
import Logix.Audit.Chain
import Logix.Trees.Radix
import Logix.Trees.RadixMap
import Logix.Trees.RadixCanonical
import Logix.Trees.BPlus
import Logix.Trees.BPlusMap
import Logix.Trees.BPlusShape
import Logix.Trees.BPlusLinks
import Logix.Order.Model
import Logix.Order.Cancellation
import Logix.Order.SagaProgress
import Logix.Order.Api
import Logix.Order.Tenants
import Logix.Order.Allocation
import Logix.Order.Returns
import Logix.Order.Coupons
import Logix.Order.CouponTotals
import Logix.Order.Bundles
import Logix.Order.Contracts
import Logix.Order.Refunds
import Logix.Order.Subscriptions
import Logix.Billing.Model
import Logix.Billing.Ledger
import Logix.Billing.Receivables
import Logix.Billing.Payments
import Logix.Billing.Balances
import Logix.Billing.Tenants
import Logix.Billing.ChartOfAccounts
import Logix.Billing.ClosingPeriods
import Logix.Billing.InvoiceXml
import Logix.Billing.InvoiceStrings
import Logix.Billing.Deferrals
import Logix.Billing.RevenueRecognition
import Logix.Billing.Reconciliation
import Logix.Billing.Currency
import Logix.Billing.CreditLimits
import Logix.Outbox.Model
import Logix.Outbox.Delivery
import Logix.Outbox.Overlap
import Logix.Outbox.Flush
import Logix.Outbox.Drain
import Logix.Workflow.Model
import Logix.Workflow.Progress
import Logix.Workflow.Runs
import Logix.Workflow.Repeats
import Logix.Auth.WebAuthn
import Logix.Auth.Passkeys
import Logix.Auth.BackupCodes
import Logix.Auth.OAuth
import Logix.Auth.CodeGrant
import Logix.Auth.CodeScopes
import Logix.Auth.Accounts
import Logix.Auth.Login
import Logix.Auth.FailedLogins
import Logix.Auth.Uniqueness
import Logix.Auth.Roles
import Logix.Auth.Escalation
import Logix.Auth.Revocation
import Logix.Logistics.Auctions
import Logix.Logistics.Bidding
import Logix.Logistics.FairAuctions
import Logix.Logistics.Shipments
import Logix.Logistics.Deliveries
import Logix.Notification.Smpp
import Logix.Common.ClockIds
import Logix.Order.ContractPrices
import Logix.Inventory.CycleCounts
import Logix.Logistics.DutyHours
import Logix.Logistics.EngineReadings
import Logix.Spec.NextFit
import Logix.Logistics.Consolidation
import Logix.Spec.Admission
import Logix.Inventory.Hazmat
import Logix.Spec.ClosedPaths
import Logix.Logistics.Geofence
import Logix.Spec.NearestFirst
import Logix.Logistics.DeliveryTours
import Logix.Spec.Slots
import Logix.Inventory.TagReads
import Logix.Js.Sort
import Logix.Spec.Buckets
import Logix.Inventory.PickPaths
import Logix.Spec.LinearTrend
import Logix.Common.DemandForecast
import Logix.Analytics.DemandTrend
import Logix.Js.Bits
import Logix.Common.RingBuffer
import Logix.Inventory.Slotting
import Logix.Spec.Eviction
import Logix.Analytics.LatencyWindow
import Logix.Spec.Streak
import Logix.Logistics.ColdChain
import Logix.Spec.Outlier
import Logix.Analytics.CancellationSpikes
import Logix.Spec.Pages
import Logix.Common.Pagination
import Logix.Spec.CutKeys
import Logix.Js.Tally
import Logix.Analytics.SkuAffinity
import Logix.Spec.Roster
import Logix.Common.EventBus
import Logix.Spec.EventSourcing
import Logix.Common.Aggregates
import Logix.Common.DomainUnits
import Logix.Common.DomainRepositories
import Logix.Gateway.App
import Logix.Js.LiveMap
import Logix.Common.CoreModule
import Logix.Js.Groups
import Logix.Analytics.Cube
import Logix.Js.Hex
import Logix.Auth.Passwords
import Logix.Auth.Credentials
import Logix.Notification.Inbox
import Logix.Notification.App
import Logix.Common.Matrices
import Logix.Spec.Numerals
import Logix.Spec.GreatCircle
import Logix.Spec.Walks
import Logix.Common.Haversine
import Logix.Auth.ImpossibleTravel
import Logix.Logistics.CarrierSelection
import Logix.Inventory.AisleSlotting
import Logix.Inventory.OrderQuantity
import Logix.Analytics.SeasonalForecast
import Logix.Common.Validation
