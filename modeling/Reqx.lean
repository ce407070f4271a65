import Reqx.Library.Accrual
import Reqx.Library.Attempt
import Reqx.Library.Checks
import Reqx.Library.Chunks
import Reqx.Library.Interleaving
import Reqx.Library.Logged
import Reqx.Library.Machine
import Reqx.Library.MultiMap
import Reqx.Library.ScriptedReader
import Reqx.Library.Shares
import Reqx.Library.Pairs
import Reqx.Library.Text
import Reqx.Library.Utf8
import Reqx.Core.Quantities
import Reqx.Core.Http
import Reqx.Core.Error
import Reqx.Core.Timing
import Reqx.Core.Uri
import Reqx.Core.Redaction
import Reqx.Core.Redirect
import Reqx.Core.RedirectHeaders
import Reqx.Core.Headers
import Reqx.Core.Retry
import Reqx.Core.ContentEncoding
import Reqx.Core.Execution
import Reqx.RateLimit.TokenBucket
import Reqx.RateLimit.Limiter
import Reqx.RateLimit.Ledger
import Reqx.RateLimit.BucketAccount
import Reqx.RateLimit.Refinement
import Reqx.RateLimit.Cleanup
import Reqx.RateLimit.Guarantees
import Reqx.RateLimit.LoneWaiter
import Reqx.Resilience.CircuitBreaker
import Reqx.Resilience.CircuitSystem
import Reqx.Resilience.CircuitInvariant
import Reqx.Resilience.CircuitHistory
import Reqx.Resilience.Adaptive
import Reqx.Driver.Lifecycle
import Reqx.Driver.Client
import Reqx.Driver.HostLimiters
import Reqx.Driver.HostLimit
import Reqx.Driver.SendLoop
import Reqx.Driver.Pass
import Reqx.Driver.Run
import Reqx.Driver.Confinement
import Reqx.Driver.Bodies
import Reqx.Driver.Bounds
import Reqx.Driver.Accounting
import Reqx.Upload.Options
import Reqx.Upload.Session
import Reqx.Upload.Source
import Reqx.Upload.Driver
import Reqx.Upload.Acceptance
import Reqx.Upload.Progress
import Reqx.Upload.Outcome
import Reqx.Upload.Guarantees
import Reqx.Upload.Chain
import Reqx.Upload.Protocol
import Reqx.Stream.Body
import Reqx.Stream.Moves
import Reqx.Stream.Async
import Reqx.Stream.Blocking
import Reqx.Stream.Helpers
import Reqx.Stream.Consumption
import Reqx.Stream.Outcome
import Reqx.Stream.Lives
import Reqx.Stream.Guarantees
import Reqx.Driver.Permits
import Reqx.Driver.AdaptiveStreams
import Reqx.Metrics.ClientMetrics
import Reqx.Metrics.Ledger
import Reqx.Driver.BlockingSemaphore
import Reqx.Library.Rounding
import Reqx.Resilience.AdaptiveLimit
import Reqx.Resilience.AdaptiveConvergence
import Reqx.Driver.AdaptiveController
import Reqx.Driver.Deadline
import Reqx.Core.Destination
import Reqx.Driver.Destinations
import Reqx.Driver.Agreement
import Reqx.Library.Windows
import Reqx.Resilience.RetryBudget
import Reqx.Driver.HostTables
import Reqx.Core.UserInformation
import Reqx.Driver.RequestTexts
import Reqx.Driver.RelativePaths
import Reqx.Core.LogTexts
import Reqx.Driver.LogTexts
import Reqx.Core.Proxy
import Reqx.Driver.NoProxy
import Reqx.Driver.RateSlots
import Reqx.Driver.Cleanups
import Reqx.Core.ContentDecoding
import Reqx.Core.Backoff
import Reqx.Core.Query
import Reqx.Core.RequestBuilder
import Reqx.Driver.Endpoints
import Reqx.Library.ByteOffsets
import Reqx.Library.ByteSearch
import Reqx.Core.TelemetryPath
import Reqx.Core.RedactionSlices
import Reqx.Core.LogTextSlices
import Reqx.Core.LogTextSpans
import Reqx.Library.Subslices
import Reqx.Tls.Pem
import Reqx.Tls.Config
import Reqx.Library.Utf8Lossy
import Reqx.Core.BodyExcerpt
import Reqx.Driver.PassOrder
import Reqx.Driver.SharedClient
import Reqx.Driver.SharedRates
import Reqx.Driver.SharedRetries
import Reqx.Driver.SharedCircuit
import Reqx.Core.Dns
import Reqx.Core.Preparation
import Reqx.Core.Negotiation
import Reqx.Driver.ClientBuilder
import Reqx.Driver.Build
import Reqx.Driver.Requests
import Reqx.Driver.Calls
import Reqx.Driver.CallAccounts
