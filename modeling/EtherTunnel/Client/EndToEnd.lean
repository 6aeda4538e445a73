import EtherTunnel.Client.Config
import EtherTunnel.Proxy.Route
import EtherTunnel.Session.Control
import EtherTunnel.Session.Granted

/-!
# Configured tunnels, end to end

`claimExchange` is the claim part of `connect_once` (`supervisor.rs:309-346`): one `Claim` frame for the
whole configuration, written by the daemon, read by the relay and answered by `handle_claim`. What a
visitor meets afterwards is `visit`; what the daemon does with the stream is `FileConfig.inbound`.

`Claimable` is the premise: every HTTP tunnel of the file is one that the account may have. `Served` is
the purpose: every such name is routed to this session, and every request for it, however it spells the
name, ends at the target the file gives. `tunnels_served_iff` says what else it takes.
-/

namespace EtherTunnel

/-- An error ends the connection before anything is claimed. -/
def ClientConfig.claimExchange (client : ClientConfig) (ctx : SessionCtx) (io : ClaimIo) (relay : Relay)
    (handle : SessionHandle) (user : AuthedUser) : Relay :=
  if client.claimHostnames = [] ∧ client.claimPorts = [] then relay
  else
    match writeFrame ControlFrame.wire [] (.claim client.claimHostnames client.claimPorts)
      maxControlFrame with
    | .error _ => relay
    | .ok bytes =>
      match (readFrame ControlFrame.wire ⟨bytes, none⟩ maxControlFrame).1 with
      | .ok (.claim hostnames tcpPorts) =>
        (ctx.handleClaim io relay handle user client.token hostnames tcpPorts).2.2
      | _ => relay

namespace FileConfig

variable (cfg : FileConfig)

/-- A configuration without a runtime form never connects. -/
def connect (token : String) (ctx : SessionCtx) (io : ClaimIo) (relay : Relay) (handle : SessionHandle)
    (user : AuthedUser) : Relay :=
  match cfg.toClientConfig token with
  | .error _ => relay
  | .ok client => client.claimExchange ctx io relay handle user

def inbound (token : String) (bytes : List UInt8) : Option LocalTarget :=
  match cfg.toClientConfig token with
  | .error _ => none
  | .ok client => handleInbound client.routes bytes

/-- The one claim of the file. -/
def claimFrame : ControlFrame := .claim (cfg.httpTunnels.map cfg.fqdn) cfg.publicPorts

/-- The names as the relay will know them. -/
def hosts : List String := cfg.httpTunnels.map fun t => toAsciiLowercase (cfg.fqdn t)

end FileConfig

section endToEnd

variable (cfg : FileConfig) (token : String) (ctx : SessionCtx) (io : ClaimIo) (relay : Relay)
  (handle : SessionHandle) (user : AuthedUser) (peerIp : IpAddr) (peerPort : UInt16)

/-- The names differ by more than case, each is a valid label of this relay that the account owns or
nobody does, and the account may have all of them together. Storage works. -/
structure Claimable : Prop where
  distinct : cfg.hosts.Nodup
  label : ∀ h ∈ cfg.hosts, ∃ l, labelOf ctx.domain h = some l ∧
    ∀ v, relay.db.hasLabel v l = true → v = user.userId
  cap : ∃ cap, (ctx.claimGate io.gate relay user token cfg.hosts cfg.publicPorts).1 = .ok cap ∧
    ∀ m ∈ cap, (relay.db.view ctx.domain).size user.userId +
      newHosts (relay.db.view ctx.domain) user.userId cfg.hosts ≤ m
  account : user.userId ∈ relay.db.users.map (·.id)
  storage : (∀ i, (io.hosts i).faults = []) ∧ ∀ i, (io.ports i).faults = []

/-- Every HTTP tunnel of the file is reached under its name. -/
def Served : Prop :=
  ∀ t ∈ cfg.httpTunnels,
    (cfg.connect token ctx io relay handle user).router.get (.host (toAsciiLowercase (cfg.fqdn t))) =
      some handle ∧
    ∀ headers, NamesHost headers (cfg.fqdn t) → ∃ bytes,
      visit ctx.domain (cfg.connect token ctx io relay handle user).router headers peerIp peerPort =
        some (handle, bytes) ∧
      cfg.inbound token bytes = some ⟨t.localHost, t.port⟩

/-- What it takes beyond `Claimable`. The TCP tunnels travel in the same claim and can sink it. -/
structure Servable : Prop where
  login : cfg.relay ≠ ""
  ports : cfg.PortsGiven
  entries : cfg.hosts.length + cfg.publicPorts.length ≤ maxClaimEntries
  frame : (ControlFrame.wire.enc cfg.claimFrame).length ≤ maxControlFrame
  tcp : ∀ (i : Nat) (p : UInt16), cfg.publicPorts[i]? = some p →
    PortClaimable ctx relay.db user.userId relay.bound io.ports cfg.publicPorts i p
  names : ∀ t ∈ cfg.httpTunnels, (HeaderValue.fromStr (cfg.fqdn t)).isSome →
    Visible (cfg.fqdn t) ∧ ':' ∉ (cfg.fqdn t).toList ∧ toAsciiLowercase (cfg.fqdn t) = cfg.fqdn t ∧
    (StreamHeader.wire.enc (.http (cfg.fqdn t) peerIp peerPort)).length ≤ maxStreamHeader

end endToEnd

variable {cfg : FileConfig} {token : String} {ctx : SessionCtx} {io : ClaimIo} {relay : Relay}
  {handle : SessionHandle} {user : AuthedUser} {peerIp : IpAddr} {peerPort : UInt16}

/-! ## The claim exchange -/

theorem connect_fits {client : ClientConfig} (hclient : cfg.toClientConfig token = .ok client)
    (hsome : cfg.httpTunnels ≠ [])
    (hfits : (ControlFrame.wire.enc cfg.claimFrame).length ≤ maxControlFrame) :
    cfg.connect token ctx io relay handle user = (ctx.handleClaim io relay handle user token
      (cfg.httpTunnels.map cfg.fqdn) cfg.publicPorts).2.2 := by
  obtain ⟨-, -, hports, htoken⟩ := FileConfig.toClientConfig_ok hclient
  have hnames := FileConfig.claimHostnames_eq hclient
  have hne : ¬ (client.claimHostnames = [] ∧ client.claimPorts = []) := by
    rintro ⟨hnil, -⟩
    rw [hnames, List.map_eq_nil_iff] at hnil
    exact hsome hnil
  have hwrite := writeFrame_of_fits hfits []
  rw [FileConfig.connect, hclient]
  dsimp only
  rw [ClientConfig.claimExchange, if_neg hne, hnames, hports, htoken, ← FileConfig.claimFrame, hwrite]
  dsimp only
  rw [readFrame_writeFrame (by decide) hwrite, FileConfig.claimFrame]

theorem connect_oversize {client : ClientConfig} (hclient : cfg.toClientConfig token = .ok client)
    (hbig : ¬ (ControlFrame.wire.enc cfg.claimFrame).length ≤ maxControlFrame) :
    cfg.connect token ctx io relay handle user = relay := by
  obtain ⟨-, -, hports, -⟩ := FileConfig.toClientConfig_ok hclient
  rw [FileConfig.connect, hclient]
  dsimp only
  rw [ClientConfig.claimExchange, FileConfig.claimHostnames_eq hclient, hports, ← FileConfig.claimFrame]
  split
  · rfl
  · cases hwrite : writeFrame ControlFrame.wire [] cfg.claimFrame maxControlFrame with
    | error e => rfl
    | ok bytes => exact absurd (writeFrame_ok hwrite).1 hbig

theorem lowered_names : (cfg.httpTunnels.map cfg.fqdn).map toAsciiLowercase = cfg.hosts := by
  rw [List.map_map]
  rfl

theorem mem_hosts {t : TunnelConfig} (ht : t ∈ cfg.httpTunnels) :
    toAsciiLowercase (cfg.fqdn t) ∈ cfg.hosts :=
  List.mem_map.2 ⟨t, ht, rfl⟩

/-- The premise is enough for the hostname loop. -/
theorem Claimable.hosts_ok (h : Claimable cfg token ctx io relay user) {cap : Option Int}
    (hcap : ∀ m ∈ cap, (relay.db.view ctx.domain).size user.userId +
      newHosts (relay.db.view ctx.domain) user.userId cfg.hosts ≤ m) :
    (ctx.claimHosts user.userId cap io.hosts relay.db cfg.hosts).1 = .ok () := by
  refine claimHosts_ok h.storage.1 h.account h.distinct (fun x hx => ?_) (fun x hx v hv => ?_) hcap
  · obtain ⟨l, hl, -⟩ := h.label x hx
    rw [hl]
    rfl
  · obtain ⟨l, hl, hown⟩ := h.label x hx
    exact hown v ((Db.has_view_label hl).1 hv)

/-- Everything routed: the claim is granted. -/
theorem Servable.router (hs : Servable cfg ctx io relay user peerIp peerPort)
    (h : Claimable cfg token ctx io relay user) (hsome : cfg.httpTunnels ≠ []) :
    (cfg.connect token ctx io relay handle user).router =
      relay.router.claim handle cfg.hosts cfg.publicPorts := by
  obtain ⟨client, hclient⟩ := FileConfig.toClientConfig_isOk hs.login hs.ports
  obtain ⟨cap, hgate, hroom⟩ := h.cap
  have hhosts := h.hosts_ok hroom
  have hsize : (cfg.httpTunnels.map cfg.fqdn).length + cfg.publicPorts.length ≤ maxClaimEntries := by
    have hentries := hs.entries
    rwa [FileConfig.hosts, List.length_map, ← List.length_map] at hentries
  rw [← lowered_names] at hgate hhosts ⊢
  rw [connect_fits hclient hsome hs.frame]
  exact handleClaim_granted hsize ((claimPorts_ok_iff h.storage.2).2 hs.tcp) hgate hhosts

/-- Something routed: the claim was sent and no gate before the hostnames refused it. -/
theorem granted_of_routed {x : Resource}
    (hget : (cfg.connect token ctx io relay handle user).router.get x = some handle)
    (hfresh : ∀ y, relay.router.get y ≠ some handle) (hsome : cfg.httpTunnels ≠ [])
    (hio : ∀ i, (io.ports i).faults = []) :
    ∃ client, cfg.toClientConfig token = .ok client ∧
      cfg.hosts.length + cfg.publicPorts.length ≤ maxClaimEntries ∧
      (ControlFrame.wire.enc cfg.claimFrame).length ≤ maxControlFrame ∧
      ∀ (i : Nat) (p : UInt16), cfg.publicPorts[i]? = some p →
        PortClaimable ctx relay.db user.userId relay.bound io.ports cfg.publicPorts i p := by
  cases hclient : cfg.toClientConfig token with
  | error e =>
    rw [FileConfig.connect, hclient] at hget
    exact absurd hget (hfresh x)
  | ok client =>
    by_cases hfits : (ControlFrame.wire.enc cfg.claimFrame).length ≤ maxControlFrame
    · rw [connect_fits hclient hsome hfits] at hget
      have hgranted : ¬ (maxClaimEntries <
            (cfg.httpTunnels.map cfg.fqdn).length + cfg.publicPorts.length ∨
          (ctx.claimPorts user.userId io.ports relay.toNet cfg.publicPorts).1 ≠ .ok ()) := by
        intro hun
        rw [handleClaim_ungranted hun] at hget
        exact hfresh x hget
      rw [not_or, not_not, Nat.not_lt, List.length_map, claimPorts_ok_iff hio] at hgranted
      refine ⟨client, rfl, ?_, hfits, hgranted.2⟩
      rw [FileConfig.hosts, List.length_map]
      exact hgranted.1
    · rw [connect_oversize hclient hfits] at hget
      exact absurd hget (hfresh x)

/-! ## One name -/

/-- A name that the visitor's request, the preamble and the daemon's table all spell alike. -/
theorem reached {router : Router} {client : ClientConfig} {t : TunnelConfig} {l : String}
    {headers : HeaderMap} (hclient : cfg.toClientConfig token = .ok client)
    (hnodup : (cfg.httpTunnels.map cfg.fqdn).Nodup)
    (ht : t ∈ cfg.httpTunnels) (hl : labelOf ctx.domain (toAsciiLowercase (cfg.fqdn t)) = some l)
    (hget : router.get (.host (toAsciiLowercase (cfg.fqdn t))) = some handle)
    (hnames : NamesHost headers (cfg.fqdn t)) (hvis : Visible (cfg.fqdn t))
    (hcolon : ':' ∉ (cfg.fqdn t).toList) (hlower : toAsciiLowercase (cfg.fqdn t) = cfg.fqdn t)
    (hfits : (StreamHeader.wire.enc (.http (cfg.fqdn t) peerIp peerPort)).length ≤ maxStreamHeader) :
    ∃ bytes, visit ctx.domain router headers peerIp peerPort = some (handle, bytes) ∧
      cfg.inbound token bytes = some ⟨t.localHost, t.port⟩ := by
  have hroute := route_of_labelOf (hostOf_of_namesHost hnames hvis hcolon) hl
  rw [hlower] at hroute hget
  have hwrite := writeFrame_of_fits hfits []
  refine ⟨_, visit_of_route hroute hget hwrite, ?_⟩
  rw [FileConfig.inbound, hclient]
  dsimp only
  rw [handleInbound_http hwrite]
  exact FileConfig.routes_lookup hclient hnodup ht

/-- The plain request for a name is reached only if the name is visible and without a colon, the preamble
takes it, and the daemon's table has it in lower case. -/
theorem of_reached {router : Router} {t : TunnelConfig} {l : String} {v : HeaderValue} {bytes : List UInt8}
    {target : LocalTarget} (hl : labelOf ctx.domain (toAsciiLowercase (cfg.fqdn t)) = some l)
    (hv : HeaderValue.fromStr (cfg.fqdn t) = some v)
    (hvisit : visit ctx.domain router ⟨[(.host, v)]⟩ peerIp peerPort = some (handle, bytes))
    (hinbound : cfg.inbound token bytes = some target) :
    Visible (cfg.fqdn t) ∧ ':' ∉ (cfg.fqdn t).toList ∧
      toAsciiLowercase (cfg.fqdn t) ∈ cfg.httpTunnels.map cfg.fqdn ∧
      (StreamHeader.wire.enc (.http (toAsciiLowercase (cfg.fqdn t)) peerIp peerPort)).length ≤
        maxStreamHeader := by
  obtain ⟨hnames, hbytes⟩ := namesHost_plain hv
  obtain ⟨host, hhost, htunnel, hwrite⟩ := visit_eq_some hvisit
  obtain ⟨hvis, hup⟩ := hostOf_plain rfl hbytes hhost
  have hcolon : ':' ∉ (cfg.fqdn t).toList :=
    noColon_of_isTunnelHost (hup ▸ noColon_upToColon _) htunnel hl
  obtain rfl : toAsciiLowercase (cfg.fqdn t) = host := by
    rw [← Option.some_inj, ← hhost, hostOf_of_namesHost hnames hvis hcolon]
  refine ⟨hvis, hcolon, ?_, (writeFrame_ok hwrite).1⟩
  cases hclient : cfg.toClientConfig token with
  | error e =>
    rw [FileConfig.inbound, hclient] at hinbound
    cases hinbound
  | ok client =>
    rw [FileConfig.inbound, hclient] at hinbound
    dsimp only at hinbound
    rw [handleInbound_http hwrite] at hinbound
    exact FileConfig.mem_of_routes_lookup hclient hinbound

/-- Among names that differ by more than case, one whose lower case is configured is in lower case. -/
theorem lowercase_of_mem (hdistinct : cfg.hosts.Nodup) {t : TunnelConfig} (ht : t ∈ cfg.httpTunnels)
    (hmem : toAsciiLowercase (cfg.fqdn t) ∈ cfg.httpTunnels.map cfg.fqdn) :
    toAsciiLowercase (cfg.fqdn t) = cfg.fqdn t := by
  obtain ⟨t', ht', hname⟩ := List.mem_map.1 hmem
  have hcase : toAsciiLowercase (cfg.fqdn t') = toAsciiLowercase (cfg.fqdn t) := by
    rw [hname, toAsciiLowercase_idem]
  obtain rfl : t' = t := List.inj_on_of_nodup_map hdistinct ht' ht hcase
  exact hname.symm

/-! ## Every tunnel -/

/-- **Configured tunnels are served exactly under `Servable`.** The session is new to the router, and the
account may have every HTTP tunnel of the file. Then all of them are reached, by every spelling of their
names, if and only if the one claim goes through and each name is plain lower-case text. -/
theorem tunnels_served_iff (hfresh : ∀ x, relay.router.get x ≠ some handle)
    (hclaim : Claimable cfg token ctx io relay user) :
    Served cfg token ctx io relay handle user peerIp peerPort ↔
      cfg.httpTunnels = [] ∨ Servable cfg ctx io relay user peerIp peerPort := by
  constructor
  · intro hserved
    rw [or_iff_not_imp_left]
    intro hsome
    obtain ⟨t₀, ht₀⟩ := List.exists_mem_of_ne_nil _ hsome
    obtain ⟨client, hclient, hentries, hframe, htcp⟩ :=
      granted_of_routed (hserved t₀ ht₀).1 hfresh hsome hclaim.storage.2
    obtain ⟨⟨hlogin, hports⟩, -⟩ := FileConfig.toClientConfig_ok hclient
    refine ⟨hlogin, hports, hentries, hframe, htcp, fun t ht hvalue => ?_⟩
    obtain ⟨v, hv⟩ := Option.isSome_iff_exists.1 hvalue
    obtain ⟨l, hl, -⟩ := hclaim.label _ (mem_hosts ht)
    obtain ⟨bytes, hvisit, hinbound⟩ := (hserved t ht).2 _ (namesHost_plain hv).1
    obtain ⟨hvis, hcolon, hmem, hfits⟩ := of_reached hl hv hvisit hinbound
    have hlower := lowercase_of_mem hclaim.distinct ht hmem
    rw [hlower] at hfits
    exact ⟨hvis, hcolon, hlower, hfits⟩
  · rintro (hnil | hs) t ht
    · rw [hnil] at ht
      cases ht
    · have hrouter : (cfg.connect token ctx io relay handle user).router = _ :=
        hs.router hclaim (List.ne_nil_of_mem ht)
      obtain ⟨client, hclient⟩ := FileConfig.toClientConfig_isOk hs.login hs.ports
      obtain ⟨l, hl, -⟩ := hclaim.label _ (mem_hosts ht)
      have hget : (cfg.connect token ctx io relay handle user).router.get
          (.host (toAsciiLowercase (cfg.fqdn t))) = some handle := by
        rw [hrouter, Router.get_claim, if_pos (by simp [resources, mem_hosts ht])]
      have hnodup : (cfg.httpTunnels.map cfg.fqdn).Nodup := by
        have hdistinct := hclaim.distinct
        rw [← lowered_names] at hdistinct
        exact hdistinct.of_map _
      refine ⟨hget, fun headers hnames => ?_⟩
      obtain ⟨hvis, hcolon, hlower, hfits⟩ := hs.names t ht hnames.fromStr
      exact reached hclient hnodup ht hl hget hnames hvis hcolon hlower hfits

section examples

/-- On a relay with no hostname rows and no license gate, valid distinct labels are claimable. -/
theorem annRelay_claimable {cfg : FileConfig} (hdistinct : cfg.hosts.Nodup)
    (hlabel : ∀ h ∈ cfg.hosts, (labelOf "d.io" h).isSome) :
    Claimable cfg "t1" annTask.ctx {} annRelay annTask.user where
  distinct := hdistinct
  label h hh := by
    obtain ⟨l, hl⟩ := Option.isSome_iff_exists.1 (hlabel h hh)
    refine ⟨l, hl, fun v hv => ?_⟩
    have hnone : annRelay.db.hostnames = [] := by decide
    rw [Db.hasLabel, hnone] at hv
    cases hv
  cap := ⟨none, rfl, nofun⟩
  account := by decide
  storage := ⟨fun _ => rfl, fun _ => rfl⟩

def twoTunnels : FileConfig :=
  ⟨"d.io", [{ name := "app", port := 8080 }, { name := "site", port := 3000, hostname := some "blog" }]⟩

theorem tunnels_served_iff_twoTunnels :
    Served twoTunnels "t1" annTask.ctx {} annRelay ⟨1, 1⟩ annTask.user (.v4 #v[203, 0, 113, 7]) 443 := by
  refine (tunnels_served_iff (fun x => ?_) (annRelay_claimable (by decide) (by decide))).2 (.inr ?_)
  · have hempty : annRelay.router.get x = none := Router.get_empty x
    rw [hempty]
    exact nofun
  · exact ⟨by decide, by decide, by decide, by decide, nofun, by decide⟩

def capitalised : FileConfig := ⟨"d.io", [{ name := "App", port := 8080 }]⟩

def capitalisedClaimed : Relay := capitalised.connect "t1" annTask.ctx {} annRelay ⟨1, 1⟩ annTask.user

def appVisitor : HeaderMap := ⟨[(.host, ⟨bytes "App.d.io", by decide⟩)]⟩

/-- The name is claimable, the claim is granted and the visitor's request is sent to the session; the
daemon does not know the name. -/
theorem capitalised_label_unserved :
    Claimable capitalised "t1" annTask.ctx {} annRelay annTask.user ∧
    (capitalisedClaimed.router.get (.host "app.d.io") = some ⟨1, 1⟩ ∧ NamesHost appVisitor "App.d.io" ∧
      ∃ preamble, visit "d.io" capitalisedClaimed.router appVisitor (.v4 #v[203, 0, 113, 7]) 443 =
          some (⟨1, 1⟩, preamble) ∧
        capitalised.inbound "t1" preamble = none) ∧
    ¬ Served capitalised "t1" annTask.ctx {} annRelay ⟨1, 1⟩ annTask.user (.v4 #v[203, 0, 113, 7]) 443 := by
  have hnames : NamesHost appVisitor "App.d.io" :=
    ⟨⟨bytes "App.d.io", by decide⟩, "App.d.io", "", by decide, by decide, rfl, .inl rfl⟩
  have hlost : ((visit "d.io" capitalisedClaimed.router appVisitor (.v4 #v[203, 0, 113, 7]) 443).map
      fun r => (r.1, capitalised.inbound "t1" r.2)) = some (⟨1, 1⟩, none) := by
    decide +kernel
  obtain ⟨⟨handle, preamble⟩, hsent, hpair⟩ := Option.map_eq_some_iff.1 hlost
  obtain ⟨rfl, hnone⟩ := Prod.mk.inj hpair
  refine ⟨annRelay_claimable (by decide) (by decide), ⟨by decide +kernel, hnames, preamble, hsent, hnone⟩,
    fun hserved => ?_⟩
  obtain ⟨preamble', hsent', hfound⟩ :=
    (hserved { name := "App", port := 8080 } (by decide)).2 appVisitor hnames
  obtain rfl : preamble = preamble' := congrArg Prod.snd (Option.some_inj.1 (hsent.symm.trans hsent'))
  rw [hnone] at hfound
  cases hfound

end examples

end EtherTunnel
