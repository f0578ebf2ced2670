import Gatehouse.Backoff
import Gatehouse.Cell
import Gatehouse.CommandLine
import Gatehouse.Draw
import Gatehouse.Files.Path
import Gatehouse.Files.Tree
import Gatehouse.Gateway.Launch
import Gatehouse.Gateway.Lifecycle
import Gatehouse.Gateway.Metrics
import Gatehouse.Gateway.Rehearsal
import Gatehouse.Gateway.Server
import Gatehouse.Gateway.Shutdown
import Gatehouse.Groupware.Route
import Gatehouse.Groupware.Visit
import Gatehouse.Groupware.Workers
import Gatehouse.Http.Cors
import Gatehouse.Http.Header
import Gatehouse.Http.Headers
import Gatehouse.Http.Json
import Gatehouse.Http.Message
import Gatehouse.Http.Uri
import Gatehouse.Http.Wire
import Gatehouse.Identity.Claims
import Gatehouse.Identity.Gate
import Gatehouse.Identity.Introspection
import Gatehouse.Identity.Oidc
import Gatehouse.Identity.Provider
import Gatehouse.Identity.Table
import Gatehouse.Identity.TokenCache
import Gatehouse.Identity.Validation
import Gatehouse.Json.Access
import Gatehouse.Json.Basic
import Gatehouse.Json.Parser
import Gatehouse.Json.Printer
import Gatehouse.Log.Filter
import Gatehouse.Main
import Gatehouse.Net.Address
import Gatehouse.Plugin.Basic
import Gatehouse.Plugin.Builtin
import Gatehouse.Plugin.Dispatcher
import Gatehouse.Plugin.Example
import Gatehouse.Plugin.Registry
import Gatehouse.Plugin.Rehearsal
import Gatehouse.Plugin.Script
import Gatehouse.Proofs.Gateway.Dispatcher
import Gatehouse.Proofs.Gateway.Drain
import Gatehouse.Proofs.Gateway.Lifecycle
import Gatehouse.Proofs.Gateway.Plugins
import Gatehouse.Proofs.Gateway.Turn
import Gatehouse.Proofs.Groupware.Identity
import Gatehouse.Proofs.Groupware.Mediation
import Gatehouse.Proofs.Groupware.Noninterference
import Gatehouse.Proofs.Groupware.Passage
import Gatehouse.Proofs.Groupware.Patterns
import Gatehouse.Proofs.Groupware.Route
import Gatehouse.Proofs.Http.Headers
import Gatehouse.Proofs.Identity.Acceptance
import Gatehouse.Proofs.Identity.Claims
import Gatehouse.Proofs.Identity.Expiry
import Gatehouse.Proofs.Identity.Introspection
import Gatehouse.Proofs.Identity.TokenCache
import Gatehouse.Proofs.Identity.Validation
import Gatehouse.Proofs.InStep
import Gatehouse.Proofs.Proxy.Connections
import Gatehouse.Proofs.Proxy.Course
import Gatehouse.Proofs.Proxy.Custody
import Gatehouse.Proofs.Proxy.Dealing
import Gatehouse.Proofs.Proxy.Delivery
import Gatehouse.Proofs.Proxy.Failover
import Gatehouse.Proofs.Proxy.Forwarding
import Gatehouse.Proofs.Proxy.Likeness
import Gatehouse.Proofs.Proxy.Move
import Gatehouse.Proofs.Proxy.Retry
import Gatehouse.Proofs.Proxy.Scene
import Gatehouse.Proofs.Proxy.Selection
import Gatehouse.Proofs.Proxy.Session
import Gatehouse.Proofs.Proxy.Slots
import Gatehouse.Proofs.Proxy.Workers
import Gatehouse.Proofs.Runs
import Gatehouse.Proofs.Sockets.Debounce
import Gatehouse.Proofs.Sockets.Discovery
import Gatehouse.Proofs.Sockets.Glob
import Gatehouse.Proofs.Sockets.TargetSet
import Gatehouse.Proofs.Text.Split
import Gatehouse.Proofs.Watcher
import Gatehouse.Proofs.Worker.State
import Gatehouse.Proxy.Bench
import Gatehouse.Proxy.Call
import Gatehouse.Proxy.Client
import Gatehouse.Proxy.Config
import Gatehouse.Proxy.Fault
import Gatehouse.Proxy.Forwarding
import Gatehouse.Proxy.Json
import Gatehouse.Proxy.Policy
import Gatehouse.Proxy.Selection
import Gatehouse.Proxy.Serve
import Gatehouse.Proxy.Sticky
import Gatehouse.Proxy.Traffic
import Gatehouse.Settings.Basic
import Gatehouse.Settings.Environment
import Gatehouse.Settings.File
import Gatehouse.Settings.Json
import Gatehouse.Settings.Validation
import Gatehouse.Sockets.Debounce
import Gatehouse.Sockets.Discovery
import Gatehouse.Sockets.Glob
import Gatehouse.Sockets.TargetSet
import Gatehouse.Text.Quoted
import Gatehouse.Text.Split
import Gatehouse.Text.Unseen
import Gatehouse.Time
import Gatehouse.Toml.Parser
import Gatehouse.Toml.Scalar
import Gatehouse.Toml.Table
import Gatehouse.Toml.Text
import Gatehouse.Url.Basic
import Gatehouse.Url.Host
import Gatehouse.Url.Letter
import Gatehouse.Url.Percent
import Gatehouse.Url.Punycode
import Gatehouse.Watcher
import Gatehouse.Worker.Digest
import Gatehouse.Worker.State
import Gatehouse.Proofs.Net.Address
import Gatehouse.Proofs.Proxy.Provenance
import Gatehouse.Proofs.Gateway.Shutdown
import Gatehouse.Proofs.Proxy.Transparency
import Gatehouse.Proofs.Worker.Window
import Gatehouse.Proofs.Proxy.Fairness
import Gatehouse.Proofs.Proxy.Acquire
import Gatehouse.Proofs.Proxy.Tries
import Gatehouse.Proofs.Proxy.Deadline
import Gatehouse.Proofs.Proxy.Cookies
import Gatehouse.Proofs.Sockets.Matching
import Gatehouse.Proofs.Text.Utf8
import Gatehouse.Proofs.Files.Paths
import Gatehouse.Proofs.Sockets.Listing
import Gatehouse.Proofs.Proxy.Response
import Gatehouse.Proofs.Settings.Fields
import Gatehouse.Proofs.Settings.Layers
import Gatehouse.Proofs.Plugin.Dispatcher
import Gatehouse.Proofs.Plugin.Builtin
import Gatehouse.Proofs.Groupware.Staff
import Gatehouse.Proofs.Proxy.Lines
import Gatehouse.Proofs.Groupware.Allotment
import Gatehouse.Proofs.Text.Words
import Gatehouse.Proofs.Proxy.Sticky
import Gatehouse.Proofs.Proxy.Policy
import Gatehouse.Proofs.Backoff
import Gatehouse.Proofs.Text.Trim
import Gatehouse.Proofs.Plugin.Registry
import Gatehouse.Proofs.Files.Order
import Gatehouse.Proofs.Files.Spelling
import Gatehouse.Proofs.Proxy.Rounds
