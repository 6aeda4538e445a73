import EtherTunnel.Lib.Threads
import EtherTunnel.Lib.Txn
import EtherTunnel.Registry.Labels
import EtherTunnel.Registry.Ops
import EtherTunnel.Frames
import EtherTunnel.Router.Table
import EtherTunnel.Router.Index
import EtherTunnel.Registry.Owners
import EtherTunnel.Registry.Isolation
import EtherTunnel.Polar.Cache
import EtherTunnel.Polar.Gate
import EtherTunnel.Lib.StableSort
import EtherTunnel.Registry.Pool
import EtherTunnel.Polar.PooledCap
import EtherTunnel.Polar.FailOpen
import EtherTunnel.Polar.Calls
import EtherTunnel.Polar.Uncapped
import EtherTunnel.Polar.Recency
import EtherTunnel.Session.Handlers
import EtherTunnel.Session.Claim
import EtherTunnel.Session.Steps
import EtherTunnel.Session.Moves
import EtherTunnel.Session.RouteSafety
import EtherTunnel.Session.Teardown
import EtherTunnel.Session.Eviction
import EtherTunnel.Session.Sequential
import EtherTunnel.Lib.LastWriter
import EtherTunnel.Router.Newest
import EtherTunnel.Session.LiveCap
import EtherTunnel.Registry.Accounts
import EtherTunnel.Registry.UserIds
import EtherTunnel.Registry.Atomicity
import EtherTunnel.Registry.Tokens
import EtherTunnel.Lib.Serial
import EtherTunnel.Polar.Activation
import EtherTunnel.Registry.TwoProcess
import EtherTunnel.Lib.Postcard
import EtherTunnel.Proto.Wire
import EtherTunnel.Proto.Codec
import EtherTunnel.Proto.Transport
import EtherTunnel.Session.Control
import EtherTunnel.Registry.Prune
import EtherTunnel.Session.Release
import EtherTunnel.Session.Revalidate
import EtherTunnel.Polar.Admission
import EtherTunnel.Ratelimit
import EtherTunnel.Registry.Holdings
import EtherTunnel.Registry.Memory
import EtherTunnel.Lib.Multimap
import EtherTunnel.Proxy.Headers
import EtherTunnel.Session.Actor
import EtherTunnel.Client.Config
import EtherTunnel.Proxy.Route
import EtherTunnel.Session.Granted
import EtherTunnel.Client.EndToEnd
import EtherTunnel.Lib.TokenBucket
import EtherTunnel.Proxy.Forwarding
import EtherTunnel.Proxy.Gates
import EtherTunnel.Ratelimit.Bucket
import EtherTunnel.Ratelimit.Capped
import EtherTunnel.Client.Supervisor
import EtherTunnel.Proxy.Splice
import EtherTunnel.Acme
import EtherTunnel.Session.Refused
import EtherTunnel.Session.Replies
import EtherTunnel.Listener
import EtherTunnel.Proxy.Deadlines
import EtherTunnel.Client.Control
import EtherTunnel.Polar.Portal
import EtherTunnel.Session.BindFirst
import EtherTunnel.Acme.Challenge
import EtherTunnel.AtomicWrite
import EtherTunnel.AtomicWrite.Origin
import EtherTunnel.Client.Commands
import EtherTunnel.Client.Drift
