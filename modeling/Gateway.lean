import Gateway.Backend
import Gateway.Backend.Call
import Gateway.Backend.Reply
import Gateway.CommandLine
import Gateway.Config.Decoding
import Gateway.Config.Loading
import Gateway.Config.Rules
import Gateway.Config.Schema
import Gateway.Config.Validation
import Gateway.Decimal.Format
import Gateway.Decimal.Shortest
import Gateway.Document
import Gateway.Endpoint.Forwarding
import Gateway.Endpoint.Handler
import Gateway.Endpoint.Holding
import Gateway.Endpoint.Invocation
import Gateway.Endpoint.Outcome
import Gateway.Endpoint.Race
import Gateway.Endpoint.Rendering
import Gateway.Http.Form
import Gateway.Http.Framing
import Gateway.Http.Header
import Gateway.Http.Message
import Gateway.Http.Method
import Gateway.Http.Uri
import Gateway.Journal
import Gateway.Json.Content
import Gateway.Json.Printer
import Gateway.Json.Reader
import Gateway.Json.Value
import Gateway.Launch
import Gateway.Log
import Gateway.Log.Filter
import Gateway.Main
import Gateway.Metrics
import Gateway.Pipeline
import Gateway.Pipeline.Program
import Gateway.Route.Grammar
import Gateway.Route.Matching
import Gateway.Route.Pattern
import Gateway.Route.Router
import Gateway.Scope
import Gateway.Scope.History
import Gateway.Scope.Table
import Gateway.Server
import Gateway.Server.Session
import Gateway.Shutdown
import Gateway.SocketAddress
import Gateway.SortedMap
import Gateway.Text.Ascii
import Gateway.Text.Printable
import Gateway.Text.Quoted
import Gateway.Text.Similarity
import Gateway.Text.Split
import Gateway.Text.Utf8
import Gateway.Toml.Reader
import Gateway.Toml.Scalar
import Gateway.Toml.Tree
import Gateway.Proofs.Race
import Gateway.Proofs.Waiting
import Gateway.Proofs.GivingUp
import Gateway.Proofs.Patterns
import Gateway.Proofs.RouteTokens
import Gateway.Proofs.Following
import Gateway.Proofs.Building
import Gateway.Proofs.Dispatch
import Gateway.Proofs.Headers
import Gateway.Proofs.Conclusions
import Gateway.Proofs.Responses
import Gateway.Proofs.Forwarding
import Gateway.Proofs.Cancellation
import Gateway.Proofs.Course
import Gateway.Proofs.Independence
import Gateway.Proofs.Accounting
import Gateway.Proofs.Scopes
import Gateway.Proofs.Signals
import Gateway.Proofs.Fetching
import Gateway.Proofs.BackendReplies
import Gateway.Proofs.Utf8
import Gateway.Proofs.Forms
import Gateway.Proofs.Queries
import Gateway.Proofs.Targets
import Gateway.Proofs.Calls
import Gateway.Proofs.RouteKeys
import Gateway.Proofs.Collisions
import Gateway.Proofs.Violations
import Gateway.Proofs.HeaderForwarding
import Gateway.Proofs.Identifiers
import Gateway.Proofs.Segments
import Gateway.Proofs.Addresses
import Gateway.Proofs.ByteOrder
import Gateway.Proofs.Contents
import Gateway.Proofs.ReadingBack
import Gateway.Proofs.DataBodies
