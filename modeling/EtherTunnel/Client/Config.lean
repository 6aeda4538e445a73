import EtherTunnel.Lib.Map
import EtherTunnel.Proto.Codec
import EtherTunnel.Registry.Labels

/-!
# The client's tunnels

| here | there |
| --- | --- |
| `Protocol`, `TunnelConfig`, `FileConfig` | `client/src/config.rs:16-60`, the fields that name a tunnel or its target |
| `FileConfig.fqdn` | `config.rs:116` |
| `FileConfig.collect`, `toClientConfig` | `config.rs:122-160` |
| `HttpTunnel`, `TcpTunnel`, `ClientConfig` | `supervisor.rs:30-62` |
| `claimHostnames`, `claimPorts`, `routes` | `supervisor.rs:69-104` |
| `LocalTarget`, `RouteTable`, `handleInbound` | `client/src/proxy.rs:23-65`; the target to forward to, if any |

Nothing here changes the case of a name: the claim carries the names as they are written in the file,
and the daemon's table is keyed by them.
-/

namespace EtherTunnel

inductive Protocol where
  | http
  | tcp
deriving DecidableEq

structure TunnelConfig where
  name : String
  port : UInt16
  localHost : String := "127.0.0.1"
  protocol : Protocol := .http
  hostname : Option String := none
  publicPort : Option UInt16 := none
deriving DecidableEq

structure FileConfig where
  relay : String
  tunnels : List TunnelConfig

structure HttpTunnel where
  hostname : String
  localHost : String
  localPort : UInt16
deriving DecidableEq

structure TcpTunnel where
  publicPort : UInt16
  localHost : String
  localPort : UInt16
deriving DecidableEq

structure ClientConfig where
  relayHost : String
  token : String
  httpTunnels : List HttpTunnel
  tcpTunnels : List TcpTunnel

structure LocalTarget where
  host : String
  port : UInt16
deriving DecidableEq

structure RouteTable where
  http : Map String LocalTarget
  tcp : Map UInt16 LocalTarget

namespace ClientConfig

variable (client : ClientConfig)

def claimHostnames : List String := client.httpTunnels.map (·.hostname)

def claimPorts : List UInt16 := client.tcpTunnels.map (·.publicPort)

def routes : RouteTable where
  http := Map.fill (·.hostname) (fun t => ⟨t.localHost, t.localPort⟩) ∅ client.httpTunnels
  tcp := Map.fill (·.publicPort) (fun t => ⟨t.localHost, t.localPort⟩) ∅ client.tcpTunnels

end ClientConfig

/-- What the daemon does with the bytes at the start of an inbound stream. -/
def handleInbound (routes : RouteTable) (bytes : List UInt8) : Option LocalTarget :=
  match (readFrame StreamHeader.wire ⟨bytes, none⟩ maxStreamHeader).1 with
  | .error _ => none
  | .ok (.http host _ _) => routes.http.lookup host
  | .ok (.tcp port _ _) => routes.tcp.lookup port

namespace FileConfig

variable (cfg : FileConfig)

def fqdn (t : TunnelConfig) : String := EtherTunnel.fqdn cfg.relay (t.hostname.getD t.name)

def collect : List TunnelConfig → Except String (List HttpTunnel × List TcpTunnel)
  | [] => .ok ([], [])
  | t :: rest =>
    match t.protocol with
    | .http => (collect rest).map fun (http, tcp) => (⟨cfg.fqdn t, t.localHost, t.port⟩ :: http, tcp)
    | .tcp =>
      match t.publicPort with
      | none => .error ("tcp tunnel `" ++ t.name ++ "` needs a public_port")
      | some publicPort =>
        (collect rest).map fun (http, tcp) => (http, ⟨publicPort, t.localHost, t.port⟩ :: tcp)

def toClientConfig (token : String) : Except String ClientConfig :=
  if cfg.relay = "" then .error "no relay configured; run `etun login` first"
  else (cfg.collect cfg.tunnels).map fun (http, tcp) => ⟨cfg.relay, token, http, tcp⟩

/-! ## What the client claims and serves -/

/-- The HTTP tunnels of the file. -/
def httpTunnels : List TunnelConfig := cfg.tunnels.filter (·.protocol = .http)

/-- The public ports of the TCP tunnels that have one. -/
def publicPorts : List UInt16 := (cfg.tunnels.filter (·.protocol = .tcp)).filterMap (·.publicPort)

/-- Every TCP tunnel has its public port. -/
def PortsGiven : Prop := ∀ t ∈ cfg.tunnels, t.protocol = .tcp → t.publicPort ≠ none

instance : Decidable cfg.PortsGiven :=
  inferInstanceAs (Decidable (∀ t ∈ cfg.tunnels, t.protocol = .tcp → t.publicPort ≠ none))

variable {cfg}

theorem collect_ok : ∀ {ts : List TunnelConfig} {http : List HttpTunnel} {tcp : List TcpTunnel},
    cfg.collect ts = .ok (http, tcp) →
      (∀ t ∈ ts, t.protocol = .tcp → t.publicPort ≠ none) ∧
      http = (ts.filter (·.protocol = .http)).map (fun t => ⟨cfg.fqdn t, t.localHost, t.port⟩) ∧
      tcp.map (·.publicPort) = (ts.filter (·.protocol = .tcp)).filterMap (·.publicPort)
  | [], _, _, h => by
    cases h
    exact ⟨nofun, rfl, rfl⟩
  | t :: rest, http, tcp, h => by
    rw [collect] at h
    cases hrest : cfg.collect rest with
    | error e =>
      rw [hrest] at h
      cases hproto : t.protocol with
      | http =>
        rw [hproto] at h
        cases h
      | tcp =>
        rw [hproto] at h
        cases hport : t.publicPort <;> rw [hport] at h <;> cases h
    | ok r =>
      obtain ⟨http', tcp'⟩ := r
      obtain ⟨hgiven, hhttp, htcp⟩ := collect_ok hrest
      rw [hrest] at h
      cases hproto : t.protocol with
      | http =>
        rw [hproto] at h
        cases h
        refine ⟨fun t' ht' hp => ?_, ?_, ?_⟩
        · rcases List.mem_cons.1 ht' with rfl | ht'
          · rw [hproto] at hp
            cases hp
          · exact hgiven t' ht' hp
        · simp [hproto, hhttp]
        · simp [hproto, htcp]
      | tcp =>
        rw [hproto] at h
        cases hport : t.publicPort with
        | none =>
          rw [hport] at h
          cases h
        | some p =>
          rw [hport] at h
          cases h
          refine ⟨fun t' ht' hp => ?_, ?_, ?_⟩
          · rcases List.mem_cons.1 ht' with rfl | ht'
            · simp [hport]
            · exact hgiven t' ht' hp
          · simp [hproto, hhttp]
          · simp [hproto, hport, htcp]

theorem collect_isOk : ∀ {ts : List TunnelConfig},
    (∀ t ∈ ts, t.protocol = .tcp → t.publicPort ≠ none) → ∃ r, cfg.collect ts = .ok r
  | [], _ => ⟨_, rfl⟩
  | t :: rest, h => by
    obtain ⟨r, hr⟩ := collect_isOk fun t' ht' => h t' (List.mem_cons_of_mem _ ht')
    rw [collect, hr]
    cases hproto : t.protocol with
    | http => exact ⟨_, rfl⟩
    | tcp =>
      cases hport : t.publicPort with
      | none => exact absurd hport (h t List.mem_cons_self hproto)
      | some p => exact ⟨_, rfl⟩

/-- The runtime configuration exists when a relay is set and every TCP tunnel has its port; it claims
the names and ports of the file. -/
theorem toClientConfig_ok {token : String} {client : ClientConfig}
    (h : cfg.toClientConfig token = .ok client) :
    (cfg.relay ≠ "" ∧ cfg.PortsGiven) ∧
      client.httpTunnels = cfg.httpTunnels.map (fun t => ⟨cfg.fqdn t, t.localHost, t.port⟩) ∧
      client.claimPorts = cfg.publicPorts ∧ client.token = token := by
  unfold toClientConfig at h
  split at h
  · cases h
  · rename_i hrelay
    cases hcollect : cfg.collect cfg.tunnels with
    | error e =>
      rw [hcollect] at h
      cases h
    | ok r =>
      rw [hcollect] at h
      cases h
      obtain ⟨hgiven, hhttp, htcp⟩ := collect_ok hcollect
      exact ⟨⟨hrelay, hgiven⟩, hhttp, htcp, rfl⟩

theorem toClientConfig_isOk {token : String} (hrelay : cfg.relay ≠ "") (hgiven : cfg.PortsGiven) :
    ∃ client, cfg.toClientConfig token = .ok client := by
  obtain ⟨r, hr⟩ := collect_isOk hgiven
  exact ⟨_, by rw [toClientConfig, if_neg hrelay, hr]; rfl⟩

theorem claimHostnames_eq {token : String} {client : ClientConfig}
    (h : cfg.toClientConfig token = .ok client) :
    client.claimHostnames = cfg.httpTunnels.map cfg.fqdn := by
  rw [ClientConfig.claimHostnames, (toClientConfig_ok h).2.1, List.map_map]
  rfl

/-- The daemon's table: with distinct names, every tunnel has its target under its name as written. -/
theorem routes_lookup {token : String} {client : ClientConfig} (h : cfg.toClientConfig token = .ok client)
    (hnodup : (cfg.httpTunnels.map cfg.fqdn).Nodup) {t : TunnelConfig} (ht : t ∈ cfg.httpTunnels) :
    client.routes.http.lookup (cfg.fqdn t) = some ⟨t.localHost, t.port⟩ := by
  have hmem : (⟨cfg.fqdn t, t.localHost, t.port⟩ : HttpTunnel) ∈ client.httpTunnels := by
    rw [(toClientConfig_ok h).2.1]
    exact List.mem_map.2 ⟨t, ht, rfl⟩
  have hkeys : (client.httpTunnels.map HttpTunnel.hostname).Nodup := by
    rw [← claimHostnames_eq h] at hnodup
    exact hnodup
  exact Map.lookup_fill hkeys hmem

/-- Only names as written are found. -/
theorem mem_of_routes_lookup {token name : String} {client : ClientConfig} {target : LocalTarget}
    (h : cfg.toClientConfig token = .ok client) (hl : client.routes.http.lookup name = some target) :
    name ∈ cfg.httpTunnels.map cfg.fqdn := by
  rw [← claimHostnames_eq h]
  exact Map.mem_of_lookup_fill hl

end FileConfig

/-! ## Inbound streams -/

/-- A preamble that the relay could write is read back, and the table decides. -/
theorem handleInbound_http {routes : RouteTable} {host : String} {peerIp : IpAddr} {peerPort : UInt16}
    {bytes : List UInt8}
    (h : writeFrame StreamHeader.wire [] (.http host peerIp peerPort) maxStreamHeader = .ok bytes) :
    handleInbound routes bytes = routes.http.lookup host := by
  rw [handleInbound, readFrame_writeFrame (by decide) h]

end EtherTunnel
