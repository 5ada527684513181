import Seamless.Client.Reconnect
import Seamless.Client.Schedule
import Seamless.Client.Session
import Seamless.Common.ControlFrame
import Seamless.Common.FrameCodec
import Seamless.Common.FrameLanguage
import Seamless.EndToEnd.Agreement
import Seamless.EndToEnd.Reconnect
import Seamless.EndToEnd.StreamGrammar
import Seamless.Library.AsciiCase
import Seamless.Library.Base64
import Seamless.Library.ByteCodec
import Seamless.Library.ByteStream
import Seamless.Library.FileSystem
import Seamless.Library.Gregorian
import Seamless.Library.Ipv6
import Seamless.Library.KeyedTable
import Seamless.Library.Mailbox
import Seamless.Library.NetAddr
import Seamless.Library.Progress
import Seamless.Library.SlidingWindow
import Seamless.Library.Tally
import Seamless.Library.Tenancy
import Seamless.Library.Text
import Seamless.Library.TokenBucket
import Seamless.Library.TransitionSystem
import Seamless.Library.WeightedCycle
import Seamless.Library.X509
import Seamless.Relay.Accounting
import Seamless.Relay.AcmeOrder
import Seamless.Relay.AdminApi
import Seamless.Relay.AdminAuth
import Seamless.Relay.Admission
import Seamless.Relay.AdmissionControl
import Seamless.Relay.AuditLog
import Seamless.Relay.AuditReadBack
import Seamless.Relay.AuditRing
import Seamless.Relay.AuditRotation
import Seamless.Relay.AuditText
import Seamless.Relay.AuditTrail
import Seamless.Relay.AuditWriter
import Seamless.Relay.AuthFile
import Seamless.Relay.BodyLimit
import Seamless.Relay.Calendar
import Seamless.Relay.Capacity
import Seamless.Relay.CertExpiry
import Seamless.Relay.CidrList
import Seamless.Relay.CidrMatching
import Seamless.Relay.ClientIdentity
import Seamless.Relay.Counters
import Seamless.Relay.CustomDomain
import Seamless.Relay.DdosProtection
import Seamless.Relay.DeclaredLength
import Seamless.Relay.DenylistIpv6
import Seamless.Relay.Dismissal
import Seamless.Relay.Expiry
import Seamless.Relay.ExpiryPanics
import Seamless.Relay.ExpiryScan
import Seamless.Relay.FileConfig
import Seamless.Relay.Handler
import Seamless.Relay.HeadBuffering
import Seamless.Relay.HeadSection
import Seamless.Relay.HeaderInjection
import Seamless.Relay.HeaderLines
import Seamless.Relay.HealthChecks
import Seamless.Relay.Histogram
import Seamless.Relay.HostRouting
import Seamless.Relay.HttpOwnership
import Seamless.Relay.Lifecycle
import Seamless.Relay.ListFiles
import Seamless.Relay.LoadBalancer
import Seamless.Relay.LockScope
import Seamless.Relay.MaskedSettings
import Seamless.Relay.NameExclusion
import Seamless.Relay.NamingPolicy
import Seamless.Relay.Obstacles
import Seamless.Relay.Passthrough
import Seamless.Relay.PassthroughLedger
import Seamless.Relay.PassthroughListener
import Seamless.Relay.PassthroughRuns
import Seamless.Relay.Pause
import Seamless.Relay.Progress
import Seamless.Relay.PublicUrl
import Seamless.Relay.RateLimiter
import Seamless.Relay.Refusal
import Seamless.Relay.Registration
import Seamless.Relay.Registry
import Seamless.Relay.Reports
import Seamless.Relay.ResponseFraming
import Seamless.Relay.RouteTable
import Seamless.Relay.Service
import Seamless.Relay.SharedLimiter
import Seamless.Relay.StoreFile
import Seamless.Relay.StoreFreshness
import Seamless.Relay.StoreIntegrity
import Seamless.Relay.System
import Seamless.Relay.TcpOwnership
import Seamless.Relay.TenantIsolation
import Seamless.Relay.Transitions
import Seamless.Relay.UpstreamUrl
import Seamless.Relay.Visibility
