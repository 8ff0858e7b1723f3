import AstraGate.Lib.Steps
import AstraGate.Lib.Table
import AstraGate.Lib.Escrow
import AstraGate.Lib.Journal
import AstraGate.Lib.Locks
import AstraGate.Lib.Pursuit
import AstraGate.Lib.Numeric
import AstraGate.Lib.Python
import AstraGate.Lib.Decimal
import AstraGate.Lib.Decimal.Spelling
import AstraGate.Lib.Decimal.Context
import AstraGate.Lib.Python.Int
import AstraGate.Lib.Json
import AstraGate.Lib.Json.Text
import AstraGate.Lib.Json.RoundTrip
import AstraGate.Lib.Js
import AstraGate.Lib.Traced
import AstraGate.Lib.Sql
import AstraGate.Lib.Redis
import AstraGate.Lib.Redis.Server
import AstraGate.Lib.Tickets
import AstraGate.Lib.Paging
import AstraGate.Lib.Rewrite
import AstraGate.Database
import AstraGate.Models.Credit
import AstraGate.Models.Guardrail
import AstraGate.Models.Model
import AstraGate.Models.Provider
import AstraGate.Models.Usage
import AstraGate.Models.User
import AstraGate.Models.VirtualKey
import AstraGate.Services.Credit
import AstraGate.Services.Guardrail
import AstraGate.Services.Markup
import AstraGate.Services.AdminMarkup
import AstraGate.Services.ProviderBalance
import AstraGate.Services.PostProcess
import AstraGate.Services.VirtualKey
import AstraGate.RedisClient
import AstraGate.Services.Theorems.Guardrail
import AstraGate.Services.Theorems.Markup
import AstraGate.Services.Theorems.PriceList
import AstraGate.Services.Theorems.ProviderBalance
import AstraGate.Services.Theorems.Fallback
import AstraGate.Services.Theorems.BalanceDrift
import AstraGate.Services.Theorems.Rounding
import AstraGate.Middleware.RateLimit
import AstraGate.Middleware.IpTracking
import AstraGate.Middleware.VirtualKeyAuth
import AstraGate.Api.Auth
import AstraGate.Api.Auth.Signup
import AstraGate.Api.Billing
import AstraGate.Api.Usage
import AstraGate.Api.Admin
import AstraGate.Api.Admin.Guardrail
import AstraGate.Api.Admin.Cache
import AstraGate.Api.Gateway.Handler
import AstraGate.Api.Gateway.Stream
import AstraGate.Api.Gateway
import AstraGate.Api.Theorems.Billing
import AstraGate.Api.Theorems.Checkout
import AstraGate.Api.Theorems.Resolution
import AstraGate.Api.Theorems.HeldAmount
import AstraGate.Api.Theorems.Stream
import AstraGate.Api.Theorems.Forwarding
import AstraGate.Api.Theorems.Pricing
import AstraGate.Api.Theorems.InputGuardrail
import AstraGate.Api.Theorems.OutputGuardrail
import AstraGate.Api.Theorems.Delivery
import AstraGate.Api.Theorems.Chunking
import AstraGate.Api.Theorems.CacheToggle
import AstraGate.Services.Cache
import AstraGate.Services.Cache.ProviderStatus
import AstraGate.Services.Cache.VirtualKey
import AstraGate.Services.Cache.Keywords
import AstraGate.Services.Cache.Hold
import AstraGate.Api.Auth.Session
import AstraGate.Execution.Credit.State
import AstraGate.Execution.Credit.Step
import AstraGate.Execution.Credit.Theorems.Invariant
import AstraGate.Execution.Credit.Theorems.HoldLifetime
import AstraGate.Execution.Credit.Theorems.Conservation
import AstraGate.Execution.Credit.Theorems.Refinement
import AstraGate.Execution.Credit.Theorems.Coverage
import AstraGate.Execution.Auth.Step
import AstraGate.Execution.Auth.Theorems.Lockout
import AstraGate.Execution.Signup.State
import AstraGate.Execution.Signup.Step
import AstraGate.Execution.Signup.Theorems.Invariant
import AstraGate.Execution.Signup.Theorems.Provisioning
import AstraGate.Execution.Signup.Theorems.Identity
import AstraGate.Execution.Signup.Theorems.Refinement
import AstraGate.Execution.Session.State
import AstraGate.Execution.Session.Step
import AstraGate.Execution.Session.Theorems.Access
import AstraGate.Execution.Session.Theorems.Blacklist
import AstraGate.Execution.VirtualKey.State
import AstraGate.Execution.VirtualKey.Step
import AstraGate.Execution.VirtualKey.Theorems.Authentication
import AstraGate.Execution.VirtualKey.Theorems.Revocation
import AstraGate.Execution.VirtualKey.Theorems.KeyLimit
import AstraGate.Execution.Guardrail.Step
import AstraGate.Execution.Guardrail.Theorems.Refinement
import AstraGate.Execution.Guardrail.Theorems.Soundness
import AstraGate.Execution.Markup.Step
import AstraGate.Execution.Markup.Theorems.Coherence
import AstraGate.Execution.Markup.Concurrent
import AstraGate.Execution.Markup.Theorems.Uniqueness
import AstraGate.Execution.RateLimit.State
import AstraGate.Execution.RateLimit.Step
import AstraGate.Execution.RateLimit.Theorems.Counting
import AstraGate.Execution.IpTracking.State
import AstraGate.Execution.IpTracking.Step
import AstraGate.Execution.IpTracking.Theorems.Warning
import AstraGate.Execution.PostProcess.State
import AstraGate.Execution.PostProcess.Step
import AstraGate.Execution.PostProcess.Theorems.Invariant
import AstraGate.Execution.PostProcess.Theorems.Agreement
import AstraGate.Execution.PostProcess.Theorems.Recovery
import AstraGate.Execution.Provider.State
import AstraGate.Execution.Provider.Step
import AstraGate.Execution.Provider.Theorems.HardStop
import AstraGate.Execution.Provider.Theorems.Invariant
import AstraGate.Execution.Provider.Theorems.Threshold
import AstraGate.Execution.Provider.Theorems.Routing
import AstraGate.Execution.Alert.Step
import AstraGate.Execution.Alert.Theorems.Discipline
import AstraGate.Execution.LowCredit.Step
import AstraGate.Execution.LowCredit.Theorems.Cooldown
import AstraGate.Execution.Export.Step
import AstraGate.Execution.Export.Theorems.ExactlyOnce
import AstraGate.Execution.BalanceLog.Step
import AstraGate.Execution.BalanceLog.Theorems.Chain
import AstraGate.Execution.Locking.Transaction
import AstraGate.Execution.Locking.Theorems.Deadlock
import AstraGate.Execution.Store.Key
import AstraGate.Execution.Store.State
import AstraGate.Execution.Store.Step
import AstraGate.Execution.Store.Theorems.Refinement
import AstraGate.Execution.Store.Mock
import AstraGate.Execution.Store.Theorems.Mock
import AstraGate.Litellm.MockLitellm
import AstraGate.Litellm.Theorems.Stream
import AstraGate.Frontend.Auth
import AstraGate.Frontend.Api
import AstraGate.Frontend.Theorems.Retry
import AstraGate.Litellm.Theorems.Stream
