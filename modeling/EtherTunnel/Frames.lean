import Mathlib.Data.List.Basic

/-!
# Control frames and stream headers

| here | there |
| --- | --- |
| `Secret`, `Resource`, `DenyCode`, `ErrorCode`, `ControlFrame`, `StreamHeader` | the types of `proto/src/frames.rs:21-172`, variants in wire order |
| `IpAddr` | `std::net::IpAddr`, as its octets |
| `maxClaimEntries` | `MAX_CLAIM_ENTRIES` (`proto/src/limits.rs`) |
| `resources` | a hostname list and a port list, in the order every handler walks them |

The `Debug` of `Secret` is left out.
-/

namespace EtherTunnel

/-- A string that is not shown in logs. -/
structure Secret where
  expose : String
deriving DecidableEq, Repr

/-- A claimable resource: a public hostname or a public TCP port. -/
inductive Resource where
  | host (name : String)
  | port (port : UInt16)
deriving DecidableEq, Repr

inductive DenyCode where
  | authFailed
  | versionUnsupported
  | notOwner
  | unknownHostname
  | portNotReserved
  | portUnavailable
  | limitExceeded
  | protocolError
deriving DecidableEq, Repr

inductive ErrorCode where
  | malformedClaim
  | internal
deriving DecidableEq, Repr

inductive ControlFrame where
  | hello (token : Secret) (agentVersion : String) (protoMin protoMax : UInt16)
  | welcome (proto : UInt16) (serverVersion : String) (sessionId : UInt64)
  | denied (code : DenyCode) (message : String)
  | claim (hostnames : List String) (tcpPorts : List UInt16)
  | granted (hostnames : List String) (tcpPorts : List UInt16)
  | ping (nonce : UInt64)
  | pong (nonce : UInt64)
  | superseded (resource : Resource)
  | goodbye
  | shutdown (reason : String)
  | error (code : ErrorCode) (message : String)
  | release (hostnames : List String) (tcpPorts : List UInt16)
  | released (hostnames : List String) (tcpPorts : List UInt16)
  | listOwned
  | owned (hostnames : List String) (tcpPorts : List UInt16) (maxTunnels : Option Int64)
deriving DecidableEq, Repr

inductive IpAddr where
  | v4 (octets : Vector UInt8 4)
  | v6 (octets : Vector UInt8 16)
deriving DecidableEq, Repr

/-- What the relay writes first on a data stream: the tunnel it belongs to. -/
inductive StreamHeader where
  | http (host : String) (peerIp : IpAddr) (peerPort : UInt16)
  | tcp (port : UInt16) (peerIp : IpAddr) (peerPort : UInt16)
deriving DecidableEq, Repr

/-- Sizes from `limits.rs`; a frame's limit is on its payload. -/
def maxControlFrame : Nat := 64 * 1024
def maxStreamHeader : Nat := 4 * 1024
def maxClaimEntries : Nat := 256

/-- The resources of a request: hostnames first, then ports. -/
def resources (hosts : List String) (ports : List UInt16) : List Resource :=
  hosts.map .host ++ ports.map .port

@[simp] theorem host_mem_resources {hosts : List String} {ports : List UInt16} {h : String} :
    Resource.host h ∈ resources hosts ports ↔ h ∈ hosts := by
  simp [resources]

@[simp] theorem port_mem_resources {hosts : List String} {ports : List UInt16} {p : UInt16} :
    Resource.port p ∈ resources hosts ports ↔ p ∈ ports := by
  simp [resources]

end EtherTunnel
