import Submarine.Api.Address
import Submarine.Api.Client
import Submarine.Api.Exchange
import Submarine.Api.Follower
import Submarine.Api.Recorder
import Submarine.Cache.Basic
import Submarine.Cluster.Basic
import Submarine.Cluster.Call
import Submarine.Cluster.Edit
import Submarine.Cluster.Watch
import Submarine.Controller.Basic
import Submarine.Controller.Feed
import Submarine.Controller.Schedule
import Submarine.Controller.Watchers
import Submarine.Decimal.Range
import Submarine.Decimal.Shortest
import Submarine.Event
import Submarine.Failure
import Submarine.Json.Basic
import Submarine.Json.Equality
import Submarine.Json.Fragment
import Submarine.Json.MergePatch
import Submarine.Json.Parser
import Submarine.Json.Reader
import Submarine.Json.Record
import Submarine.Json.Writer
import Submarine.Json.Yaml
import Submarine.Key
import Submarine.Kind
import Submarine.Main
import Submarine.Manifest.Auxiliary
import Submarine.Manifest.Basic
import Submarine.Manifest.Database
import Submarine.Manifest.Plan
import Submarine.Manifest.Server
import Submarine.Metrics
import Submarine.Net.SocketAddress
import Submarine.Net.Uri
import Submarine.Object.Access
import Submarine.Object.Basic
import Submarine.Object.Claim
import Submarine.Object.Ingress
import Submarine.Object.IngressRoute
import Submarine.Object.Installation
import Submarine.Object.Metadata
import Submarine.Object.Pod
import Submarine.Object.Remainder
import Submarine.Object.Service
import Submarine.Object.Workload
import Submarine.Owner
import Submarine.Probe
import Submarine.Proofs.Api.Patching
import Submarine.Proofs.Cluster.Bookkeeping
import Submarine.Proofs.Cluster.Changes
import Submarine.Proofs.Cluster.Effects
import Submarine.Proofs.Cluster.Likeness
import Submarine.Proofs.Cluster.Manners
import Submarine.Proofs.Cluster.Naming
import Submarine.Proofs.Cluster.Outages
import Submarine.Proofs.Cluster.Versions
import Submarine.Proofs.Controller.Addressing
import Submarine.Proofs.Controller.Attending
import Submarine.Proofs.Controller.Courses
import Submarine.Proofs.Controller.Loops
import Submarine.Proofs.Controller.Mirroring
import Submarine.Proofs.Controller.Noticing
import Submarine.Proofs.Controller.Owners
import Submarine.Proofs.Controller.Returning
import Submarine.Proofs.Controller.Runs
import Submarine.Proofs.Controller.Steps
import Submarine.Proofs.Controller.Straying
import Submarine.Proofs.Controller.Subsiding
import Submarine.Proofs.Controller.Turns
import Submarine.Proofs.Controller.Watching
import Submarine.Proofs.Controller.Working
import Submarine.Proofs.Json.Records
import Submarine.Proofs.Manifest.Agreeing
import Submarine.Proofs.Manifest.Children
import Submarine.Proofs.Manifest.Comparing
import Submarine.Proofs.Manifest.References
import Submarine.Proofs.Manifest.Wiring
import Submarine.Proofs.Object.Metadata
import Submarine.Proofs.Object.Owning
import Submarine.Proofs.Object.Remaining
import Submarine.Proofs.Object.RoundTrip
import Submarine.Proofs.Passes.Abreast
import Submarine.Proofs.Passes.Account
import Submarine.Proofs.Passes.Commuting
import Submarine.Proofs.Passes.Discipline
import Submarine.Proofs.Passes.Errand
import Submarine.Proofs.Passes.Founding
import Submarine.Proofs.Passes.Gentle
import Submarine.Proofs.Passes.Guarded
import Submarine.Proofs.Passes.Interplay
import Submarine.Proofs.Passes.Lasting
import Submarine.Proofs.Passes.Observing
import Submarine.Proofs.Passes.Planned
import Submarine.Proofs.Passes.Repeating
import Submarine.Proofs.Passes.Revising
import Submarine.Proofs.Passes.Rounds
import Submarine.Proofs.Passes.Scrupulous
import Submarine.Proofs.Passes.Serving
import Submarine.Proofs.Passes.Settling
import Submarine.Proofs.Passes.Sparing
import Submarine.Proofs.Passes.Stepping
import Submarine.Proofs.Passes.Walking
import Submarine.Proofs.Passes.Weathering
import Submarine.Proofs.Queue.Coherence
import Submarine.Proofs.Queue.Counting
import Submarine.Proofs.Queue.Handling
import Submarine.Proofs.Queue.History
import Submarine.Proofs.Queue.Holding
import Submarine.Proofs.Queue.Requests
import Submarine.Proofs.Queue.Retries
import Submarine.Proofs.Queue.Separation
import Submarine.Proofs.Queue.Session
import Submarine.Proofs.Queue.Waking
import Submarine.Proofs.Queue.Wanting
import Submarine.Proofs.Settings.Delays
import Submarine.Proofs.Settings.Loading
import Submarine.Proofs.Text.Numerals
import Submarine.Proofs.Time.Calendar
import Submarine.Proofs.Time.Stamps
import Submarine.Proofs.Watch.Ahead
import Submarine.Proofs.Watch.Following
import Submarine.Proofs.Watch.Mirroring
import Submarine.Proofs.Watch.Relisting
import Submarine.Proofs.Watch.Retelling
import Submarine.Proofs.Watch.Tracking
import Submarine.Queue.Backoff
import Submarine.Queue.Basic
import Submarine.Queue.Dispenser
import Submarine.Queue.Gate
import Submarine.Queue.WorkQueue
import Submarine.Reconcile.Basic
import Submarine.Reconcile.Converge
import Submarine.Reconcile.Drift
import Submarine.Reconcile.Pass
import Submarine.Reconcile.Status
import Submarine.Reconcile.Validate
import Submarine.Reconcile.World
import Submarine.Router
import Submarine.Schema.Basic
import Submarine.Schema.Definition
import Submarine.Schema.IngressRoute
import Submarine.Schema.Installation
import Submarine.Settings
import Submarine.Table
import Submarine.Text.Base64
import Submarine.Text.Blank
import Submarine.Text.Digits
import Submarine.Text.FormEncoded
import Submarine.Text.Glyphless
import Submarine.Text.Quoted
import Submarine.Time.Delay
import Submarine.Time.Instant
import Submarine.Time.Rfc3339
