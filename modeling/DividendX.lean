import DividendX.Calendar
import DividendX.Redemption
import DividendX.Version
import DividendX.Phases
import DividendX.Binding
import DividendX.Admission
import DividendX.Exits
import DividendX.Substitution
import DividendX.Sdk.Arithmetic
import DividendX.Sdk.TokenProfile
import DividendX.Sdk.Quotes
import DividendX.Lib.Async
import DividendX.Lib.CasStore
import DividendX.Devnet.Reservations
import DividendX.Devnet.LedgerText
import DividendX.Devnet.LedgerSize
import DividendX.Lib.Lanes
import DividendX.Lib.Sha256Lanes
import DividendX.Devnet.LedgerOverflow
import DividendX.Sdk.AnnualInvariants
import DividendX.Broker.Quotas
import DividendX.Broker.Traversal
import DividendX.Broker.Pinning
import DividendX.Lib.Method
import DividendX.Sdk.AnnualReference
import DividendX.Broker.Contract
import DividendX.Lib.History
import DividendX.Broker.Responses
import DividendX.Broker.Ledger
import DividendX.Broker.Repository
import DividendX.Broker.Sessions
import DividendX.Devnet.Days
import DividendX.Lib.Schedule
import DividendX.Broker.World
import DividendX.Broker.Effects
import DividendX.Broker.Records
import DividendX.Lib.Owned
import DividendX.Broker.Meters
import DividendX.Broker.Evidence
import DividendX.Broker.Calls
import DividendX.Broker.Capacity
import DividendX.Lib.Monitor
import DividendX.Broker.Payments
import DividendX.Broker.Metering
import DividendX.Controls
import DividendX.Sdk.Profiles
import DividendX.Sdk.EventInputs
import DividendX.Gateway.RpcPolicy
import DividendX.Lib.Grouping
import DividendX.Issuer.Revisions
import DividendX.Issuer.Xstocks
import DividendX.Devnet.Starts
import DividendX.Web.RequestScheduler
import DividendX.Web.RpcFetch
import DividendX.Guided.Runtime
import DividendX.Sdk.Amounts
import DividendX.Sdk.DemoClient
import DividendX.Sdk.DemoBooks
import DividendX.Sdk.DemoCalls
import DividendX.Sdk.DemoSessions
import DividendX.Bootstrap.Transactions
import DividendX.Bootstrap.Resumption
import DividendX.Amm.Accounting
import DividendX.Products
import DividendX.Lib.Radix
import DividendX.Lib.Utf16
import DividendX.Gateway.Base58
import DividendX.Sdk.Identity
import DividendX.Lib.Decimal
import DividendX.Sdk.Formatting
import DividendX.Web.Amounts
import DividendX.Lib.JsonText
import DividendX.Issuer.StableJson
import DividendX.Sdk.DemoProgress
import DividendX.Gateway.Server
import DividendX.Gateway.Lifecycle
import DividendX.Gateway.ChainPinning
import DividendX.Broker.JsonStore
import DividendX.Broker.Mutations
import DividendX.Devnet.Network
import DividendX.Devnet.Outcomes
import DividendX.Oracle
import DividendX.OracleRuns
import DividendX.Mirror
import DividendX.Agreement
import DividendX.Simulated
import DividendX.Refinement
