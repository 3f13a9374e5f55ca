import Moaray.Config.Accepts
import Moaray.Config.Identity
import Moaray.Config.Runtime
import Moaray.Config.Schema
import Moaray.Config.Validate
import Moaray.Core.Compact
import Moaray.Core.Cost
import Moaray.Core.Error
import Moaray.Core.Fields
import Moaray.Core.Json
import Moaray.Core.Provider
import Moaray.Core.RoundTrip
import Moaray.Core.Router
import Moaray.Core.Text
import Moaray.Core.Types
import Moaray.Core.Usage
import Moaray.Framework.Fallible
import Moaray.Framework.Fips180
import Moaray.Framework.Labelled
import Moaray.Framework.Lines
import Moaray.Framework.Machine
import Moaray.Framework.Marking
import Moaray.Framework.Permits
import Moaray.Framework.Pool
import Moaray.Framework.Since
import Moaray.Framework.SortByKey
import Moaray.Framework.Table
import Moaray.Framework.Tagged
import Moaray.Gateway.Accounting
import Moaray.Gateway.Admissions
import Moaray.Gateway.App
import Moaray.Gateway.Attempts
import Moaray.Gateway.Auth
import Moaray.Gateway.Backoff
import Moaray.Gateway.Bill
import Moaray.Gateway.Breaker
import Moaray.Gateway.CallLog
import Moaray.Gateway.Cap
import Moaray.Gateway.Coherence
import Moaray.Gateway.Confidential
import Moaray.Gateway.Cooldown
import Moaray.Gateway.Counts
import Moaray.Gateway.Credentials
import Moaray.Gateway.Digest
import Moaray.Gateway.Evidence
import Moaray.Gateway.Exit
import Moaray.Gateway.FailFast
import Moaray.Gateway.Forwarding
import Moaray.Gateway.FrozenFields
import Moaray.Gateway.GcExact
import Moaray.Gateway.Governed
import Moaray.Gateway.Heals
import Moaray.Gateway.History
import Moaray.Gateway.Idempotent
import Moaray.Gateway.Isolation
import Moaray.Gateway.KeyLimits
import Moaray.Gateway.Ledger
import Moaray.Gateway.Limit
import Moaray.Gateway.Naming
import Moaray.Gateway.Observe
import Moaray.Gateway.Preservation
import Moaray.Gateway.Reconcile
import Moaray.Gateway.Recovery
import Moaray.Gateway.Registry
import Moaray.Gateway.Reload
import Moaray.Gateway.RequestCount
import Moaray.Gateway.RowStatus
import Moaray.Gateway.RowsOwed
import Moaray.Gateway.Secrets
import Moaray.Gateway.Server
import Moaray.Gateway.Sha256
import Moaray.Gateway.Signature
import Moaray.Gateway.Stall
import Moaray.Gateway.Stateful
import Moaray.Gateway.TwoPaths
import Moaray.Gateway.Unspoken
import Moaray.Moa.Answers
import Moaray.Moa.Deadline
import Moaray.Moa.Delimiters
import Moaray.Moa.Forgery
import Moaray.Moa.Orchestrator
import Moaray.Moa.Order
import Moaray.Moa.Recipe
import Moaray.Moa.RunSpec
import Moaray.Moa.Strategy
import Moaray.Moa.Usage
import Moaray.Providers.Anthropic
import Moaray.Providers.AnthropicMap
import Moaray.Providers.AnthropicSse
import Moaray.Providers.Common
import Moaray.Providers.OpenAi
import Moaray.Providers.SseAgree
import Moaray.Providers.SseChunks
import Moaray.Providers.SseFold
import Moaray.Providers.SseFrames
import Moaray.Providers.SseShape
import Moaray.Providers.TextOnly
import Moaray.Store.Losses
import Moaray.Store.Shutdown
import Moaray.Store.Writer
