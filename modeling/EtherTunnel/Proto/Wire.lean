import EtherTunnel.Frames
import EtherTunnel.Lib.Postcard

/-!
# Frames on the wire

What `#[derive(Serialize, Deserialize)]` makes of the types of `frames.rs`: fields in the order of their
declaration, variants by index. The order of each list below is the order of the variants in the
source; appending to it is the only change that keeps old peers readable (`frames.rs:8-15`).
-/

namespace EtherTunnel

open Postcard

/-- `#[serde(transparent)]`: a secret is its string. -/
def Secret.wire : Codec Secret := string.map Secret.mk Secret.expose fun _ => rfl

def hostnames : Codec (List String) := list string fun _ h =>
  varintEnc_ne_nil 9 _ (List.append_eq_nil_iff.1 h).1

def tcpPorts : Codec (List UInt16) := list u16 fun p => varintEnc_ne_nil 2 p.toNat

def Resource.wire : Codec Resource := enum
  [ { Fields := String, codec := string, make := .host
      fields? := fun | .host name => some name | _ => none },
    { Fields := UInt16, codec := u16, make := .port
      fields? := fun | .port p => some p | _ => none } ]
  (fun a => by cases a <;> rfl) (by decide)

def DenyCode.wire : Codec DenyCode := enum
  [ .bare .authFailed, .bare .versionUnsupported, .bare .notOwner, .bare .unknownHostname,
    .bare .portNotReserved, .bare .portUnavailable, .bare .limitExceeded, .bare .protocolError ]
  (fun a => by cases a <;> rfl) (by decide)

def ErrorCode.wire : Codec ErrorCode := enum [ .bare .malformedClaim, .bare .internal ]
  (fun a => by cases a <;> rfl) (by decide)

/-- `Claim`, `Granted`, `Release` and `Released` carry the same fields. -/
def claimFields : Codec (List String × List UInt16) := pair hostnames tcpPorts

def ControlFrame.variants : List (Variant ControlFrame) :=
  [ { Fields := Secret × String × UInt16 × UInt16
      codec := pair Secret.wire (pair string (pair u16 u16))
      make := fun (token, agentVersion, protoMin, protoMax) => .hello token agentVersion protoMin protoMax
      fields? := fun
        | .hello token agentVersion protoMin protoMax => some (token, agentVersion, protoMin, protoMax)
        | _ => none },
    { Fields := UInt16 × String × UInt64
      codec := pair u16 (pair string u64)
      make := fun (proto, serverVersion, sessionId) => .welcome proto serverVersion sessionId
      fields? := fun
        | .welcome proto serverVersion sessionId => some (proto, serverVersion, sessionId)
        | _ => none },
    { Fields := DenyCode × String
      codec := pair DenyCode.wire string
      make := fun (code, message) => .denied code message
      fields? := fun | .denied code message => some (code, message) | _ => none },
    { Fields := List String × List UInt16
      codec := claimFields
      make := fun (hosts, ports) => .claim hosts ports
      fields? := fun | .claim hosts ports => some (hosts, ports) | _ => none },
    { Fields := List String × List UInt16
      codec := claimFields
      make := fun (hosts, ports) => .granted hosts ports
      fields? := fun | .granted hosts ports => some (hosts, ports) | _ => none },
    { Fields := UInt64
      codec := u64
      make := .ping
      fields? := fun | .ping nonce => some nonce | _ => none },
    { Fields := UInt64
      codec := u64
      make := .pong
      fields? := fun | .pong nonce => some nonce | _ => none },
    { Fields := Resource
      codec := Resource.wire
      make := .superseded
      fields? := fun | .superseded resource => some resource | _ => none },
    .bare .goodbye,
    { Fields := String
      codec := string
      make := .shutdown
      fields? := fun | .shutdown reason => some reason | _ => none },
    { Fields := ErrorCode × String
      codec := pair ErrorCode.wire string
      make := fun (code, message) => .error code message
      fields? := fun | .error code message => some (code, message) | _ => none },
    { Fields := List String × List UInt16
      codec := claimFields
      make := fun (hosts, ports) => .release hosts ports
      fields? := fun | .release hosts ports => some (hosts, ports) | _ => none },
    { Fields := List String × List UInt16
      codec := claimFields
      make := fun (hosts, ports) => .released hosts ports
      fields? := fun | .released hosts ports => some (hosts, ports) | _ => none },
    .bare .listOwned,
    { Fields := List String × List UInt16 × Option Int64
      codec := pair hostnames (pair tcpPorts (option i64))
      make := fun (hosts, ports, maxTunnels) => .owned hosts ports maxTunnels
      fields? := fun | .owned hosts ports maxTunnels => some (hosts, ports, maxTunnels) | _ => none } ]

def ControlFrame.wire : Codec ControlFrame := enum ControlFrame.variants
  (fun a => by cases a <;> rfl) (by decide)

/-- `IpAddr` in a format that is not human-readable: the kind, then the octets. -/
def IpAddr.wire : Codec IpAddr := enum
  [ { Fields := Vector UInt8 4, codec := raw 4, make := .v4
      fields? := fun | .v4 octets => some octets | _ => none },
    { Fields := Vector UInt8 16, codec := raw 16, make := .v6
      fields? := fun | .v6 octets => some octets | _ => none } ]
  (fun a => by cases a <;> rfl) (by decide)

def StreamHeader.wire : Codec StreamHeader := enum
  [ { Fields := String × IpAddr × UInt16
      codec := pair string (pair IpAddr.wire u16)
      make := fun (host, peerIp, peerPort) => .http host peerIp peerPort
      fields? := fun | .http host peerIp peerPort => some (host, peerIp, peerPort) | _ => none },
    { Fields := UInt16 × IpAddr × UInt16
      codec := pair u16 (pair IpAddr.wire u16)
      make := fun (port, peerIp, peerPort) => .tcp port peerIp peerPort
      fields? := fun | .tcp port peerIp peerPort => some (port, peerIp, peerPort) | _ => none } ]
  (fun a => by cases a <;> rfl) (by decide)

example : ControlFrame.wire.enc (.claim ["a.io"] [20000]) = [3, 1, 4, 97, 46, 105, 111, 1, 160, 156, 1] := by
  decide

example : fromBytes ControlFrame.wire [14, 0, 0, 1, 5] = .ok (.owned [] [] (some (-3))) := by decide

end EtherTunnel
