import ShieldWard.Lib.System
import ShieldWard.Lib.OrderedMap
import ShieldWard.Lib.Regex.Backtrack
import ShieldWard.Edge.RateLimit
import ShieldWard.Edge.RateLimitTheorems
import ShieldWard.Lib.Json
import ShieldWard.Lib.Canonical
import ShieldWard.Edge.Platform
import ShieldWard.Edge.BundleParser
import ShieldWard.Edge.BundleParserTheorems
import ShieldWard.Edge.Verify
import ShieldWard.Control.Platform
import ShieldWard.Control.Policy
import ShieldWard.Control.Compiler
import ShieldWard.Control.Signing
import ShieldWard.Delivery.Signed
import ShieldWard.Control.Store
import ShieldWard.Control.StoreTheorems
import ShieldWard.Control.Handler
import ShieldWard.Control.Watch
import ShieldWard.Delivery.Exchange
import ShieldWard.Delivery.ExchangeTheorems
import ShieldWard.Delivery.Sync
import ShieldWard.Delivery.SyncTheorems
import ShieldWard.Edge.Headers
import ShieldWard.Edge.PolicyEngine
import ShieldWard.Edge.PolicyEngineTheorems
import ShieldWard.Delivery.Installed
import ShieldWard.Edge.CircuitBreaker
import ShieldWard.Edge.Admission
import ShieldWard.Edge.Proxy
import ShieldWard.Edge.Gateway
import ShieldWard.Edge.CircuitBreakerTheorems
import ShieldWard.Edge.CircuitRuns
import ShieldWard.Edge.RateLimitRefinement
import ShieldWard.Edge.RateLimitSwitching
import ShieldWard.Delivery.WatchTheorems
import ShieldWard.Edge.TurnTheorems
import ShieldWard.Edge.SettledCalls
import ShieldWard.Edge.ProbesInFlight
import ShieldWard.Edge.AuditedVersions
import ShieldWard.Edge.AdmissionTheorems
import ShieldWard.Edge.Mediation
import ShieldWard.Edge.CircuitTable
import ShieldWard.Edge.ProxyTheorems
import ShieldWard.Delivery.Windows
import ShieldWard.Lib.Double
import ShieldWard.Control.CompilerTheorems
import ShieldWard.Delivery.ContentAddress
import ShieldWard.Edge.SyncLifecycle
import ShieldWard.Edge.SyncLifecycleTheorems
import ShieldWard.Delivery.PrivateCancellation
import ShieldWard.Lib.JsonText
import ShieldWard.Delivery.EventStream
import ShieldWard.Assurance.Evidence
import ShieldWard.Assurance.Recurring
import ShieldWard.Assurance.Chain
import ShieldWard.Assurance.Collected
import ShieldWard.Assurance.Agreement
import ShieldWard.Lib.Sha256
import ShieldWard.Control.Templates
import ShieldWard.Edge.RateLimitCapacity
import ShieldWard.Edge.BodyReading
import ShieldWard.Edge.ResponseFraming
import ShieldWard.Edge.Tls
import ShieldWard.Edge.TlsTheorems
import ShieldWard.Edge.UpstreamUrl
import ShieldWard.Control.PathPatterns
import ShieldWard.Control.Matchers
import ShieldWard.Delivery.Routing
import ShieldWard.Control.ServiceIdentity
import ShieldWard.Edge.Shutdown
import ShieldWard.Lib.JsonStringify
import ShieldWard.Edge.AuditLog
import ShieldWard.Edge.FleetQuota
import ShieldWard.Control.KeyFiles
import ShieldWard.Edge.TrustedKeys
import ShieldWard.Delivery.KeyCeremony
import ShieldWard.Edge.Jwt
import ShieldWard.Edge.TokenRoutes
import ShieldWard.Edge.RuntimeConfig
import ShieldWard.Edge.Startup
