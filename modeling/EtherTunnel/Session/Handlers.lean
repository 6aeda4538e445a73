import EtherTunnel.Polar.Gate
import EtherTunnel.Registry.Owners

/-!
# Claim and release handlers

| here | there |
| --- | --- |
| `SessionCtx` | the fields of `SessionCtx` a handler reads (`session.rs:68-93`); the registry behind `auth` is in `Relay` |
| `TcpPortManager.inRange`, `ensureBound` | `tcp.rs:65`, `:71` |
| `checkPort`, `claimPorts` | the port loop of `handle_claim` (`session.rs:616-653`) |
| `capCheck`, `claimGate` | the license gate of `handle_claim` (`session.rs:667-712`) |
| `claimHost`, `claimHosts` | the hostname loop (`session.rs:728-779`) |
| `handleClaim` | `session.rs:588-791` |
| `releaseHosts`, `releasePorts`, `handleRelease` | `session.rs:798-871` |

Every refusal is a `DenyCode` and a message, sent as a `Denied` frame. The `…Io` records hold what a
handler meets outside: clocks, storage failures, the outcome of `bind` and the license portal's
answer, one entry for each turn of a loop. Whether the reply could be queued (`push`) is left out.
-/

namespace EtherTunnel

structure TcpPortManager where
  portRange : UInt16 × UInt16

def TcpPortManager.inRange (manager : TcpPortManager) (port : UInt16) : Bool :=
  decide (manager.portRange.1 ≤ port) && decide (port ≤ manager.portRange.2)

structure SessionCtx where
  domain : String
  tcp : Option TcpPortManager
  polar : Option PolarGate

/-- The stores that sessions share: the registry, the router and the set of bound ports. -/
structure Net extends Live where
  bound : Finset UInt16
deriving DecidableEq

/-- The shared stores, with the gate's license cache. -/
structure Relay extends Net where
  cache : LicenseCache
deriving DecidableEq

abbrev Refusal := DenyCode × String

def Refusal.frame (why : Refusal) : ControlFrame := .denied why.1 why.2

/-- `ensure_bound`; `bind` is what `TcpListener::bind` answers. -/
def ensureBound (bound : Finset UInt16) (port : UInt16) (bind : Except String Unit) :
    Except String Unit × Finset UInt16 :=
  if port ∈ bound then (.ok (), bound)
  else
    match bind with
    | .error e => (.error e, bound)
    | .ok () => (.ok (), insert port bound)

/-! ## `handle_claim` -/

structure PortIo where
  faults : Faults := []
  bind : Except String Unit := .ok ()

structure GateIo where
  activate : ActivateIo := { answer := .unavailable "" }
  now : Int := 0
  capFails : Bool := false

structure HostIo where
  now : Int := 0
  faults : Faults := []

structure ClaimIo where
  ports : Nat → PortIo := fun _ => {}
  gate : GateIo := {}
  hosts : Nat → HostIo := fun _ => {}

def tooLarge (request : String) : Refusal :=
  (.protocolError, request ++ " too large (max " ++ toString maxClaimEntries ++ " entries)")

def limitReached (max : Int) : Refusal :=
  (.limitExceeded, "tunnel limit reached (" ++ toString max ++ "); upgrade your plan for more")

namespace SessionCtx

variable (ctx : SessionCtx)

def checkPort (faults : Faults) (db : Db) (userId : Int) (port : UInt16) : Except Refusal Unit :=
  match ctx.tcp with
  | none => .error (.portNotReserved, "tcp tunnels are not enabled on this relay")
  | some manager =>
    if !manager.inRange port || !Registry.ownsPort faults db userId port then
      .error (.portNotReserved, "port " ++ toString port ++ " not reserved")
    else .ok ()

def portUnavailable (port : UInt16) (why : String) : Refusal :=
  (.portUnavailable, "port " ++ toString port ++ " unavailable: " ++ why)

def claimPorts (userId : Int) : (Nat → PortIo) → Net → List UInt16 → Except Refusal Unit × Net
  | _, net, [] => (.ok (), net)
  | io, net, port :: rest =>
    match ctx.checkPort (io 0).faults net.db userId port with
    | .error why => (.error why, net)
    | .ok () =>
      match ensureBound net.bound port (io 0).bind with
      | (.error e, bound) => (.error (portUnavailable port e), { net with bound := bound })
      | (.ok (), bound) => claimPorts userId (fun i => io (i + 1)) { net with bound := bound } rest

/-- What the gate's answer means for a claim: the cap to carry on with, or a refusal. -/
def capCheck (decision : CapDecision) (router : Router) (userId : Int) (hostnames : List String)
    (tcpPorts : List UInt16) : Except Refusal (Option Int) :=
  match decision with
  | .allow => .ok none
  | .denyAll => .error (.limitExceeded, "subscription does not permit new tunnels")
  | .cap max =>
    if max < router.inner.projectedTunnelCount userId hostnames tcpPorts then .error (limitReached max)
    else .ok (some max)

def claimGate (io : GateIo) (relay : Relay) (user : AuthedUser) (token : String)
    (hostnames : List String) (tcpPorts : List UInt16) : Except Refusal (Option Int) × Relay :=
  match ctx.polar with
  | none => (.ok none, relay)
  | some gate =>
    match gate.ensureActivated io.activate relay.cache token with
    | (.error why, cache) => (.error (.limitExceeded, why), { relay with cache := cache })
    | (.ok (), cache) =>
      (capCheck (gate.capFor cache user.name io.now io.capFails) relay.router user.userId hostnames
        tcpPorts, { relay with cache := cache })

def claimHost (io : HostIo) (db : Db) (userId : Int) (host : String) (cap : Option Int) :
    Except Refusal Unit × Db :=
  match Registry.claimHostname io.faults db ctx.domain io.now userId host cap with
  | (.owned, db) => (.ok (), db)
  | (.taken, db) => (.error (.notOwner, "not authorized for " ++ host), db)
  | (.capExceeded, db) => (.error (limitReached (cap.getD 0)), db)
  | (.invalid why, db) => (.error (.notOwner, "cannot claim " ++ host ++ ": " ++ why), db)
  | (.error, db) => (.error (.notOwner, "could not register " ++ host), db)

def claimHosts (userId : Int) (cap : Option Int) :
    (Nat → HostIo) → Db → List String → Except Refusal Unit × Db
  | _, db, [] => (.ok (), db)
  | io, db, host :: rest =>
    match ctx.claimHost (io 0) db userId host cap with
    | (.error why, db) => (.error why, db)
    | (.ok (), db) => claimHosts userId cap (fun i => io (i + 1)) db rest

/-- `handle_claim`: the reply, the frames queued for superseded sessions, and the stores after. -/
def handleClaim (io : ClaimIo) (relay : Relay) (handle : SessionHandle) (user : AuthedUser)
    (token : String) (hostnames : List String) (tcpPorts : List UInt16) :
    ControlFrame × Notices × Relay :=
  if maxClaimEntries < hostnames.length + tcpPorts.length then ((tooLarge "claim").frame, [], relay)
  else
    let hostnames := hostnames.map toAsciiLowercase
    match ctx.claimPorts user.userId io.ports relay.toNet tcpPorts with
    | (.error why, net) => (why.frame, [], { relay with toNet := net })
    | (.ok (), net) =>
      match ctx.claimGate io.gate { relay with toNet := net } user token hostnames tcpPorts with
      | (.error why, relay) => (why.frame, [], relay)
      | (.ok cap, relay) =>
        match ctx.claimHosts user.userId cap io.hosts relay.db hostnames with
        | (.error why, db) => (why.frame, [], { relay with db := db })
        | (.ok (), db) =>
          let superseded := relay.router.superseded handle hostnames tcpPorts
          (.granted hostnames tcpPorts,
            superseded.map fun (old, resource) => (old, .superseded resource),
            { relay with db := db, router := relay.router.claim handle hostnames tcpPorts })

end SessionCtx

/-! ## `handle_release` -/

structure ReleaseIo where
  hosts : Nat → Faults := fun _ => []
  ports : Nat → Faults := fun _ => []
  ownedHostnames : Faults := []
  ownedPorts : Faults := []
  deactivate : DeactivateIo := { answer := .ok () }

/-- The hostnames whose row was removed, in request order. -/
def releaseHosts (domain : String) (userId : Int) :
    (Nat → Faults) → Db → List String → List String × Db
  | _, db, [] => ([], db)
  | io, db, host :: rest =>
    let (removed, db) := Registry.releaseHostname (io 0) db domain userId host
    let (released, db) := releaseHosts domain userId (fun i => io (i + 1)) db rest
    (if removed then host :: released else released, db)

def releasePorts (userId : Int) : (Nat → Faults) → Db → List UInt16 → List UInt16 × Db
  | _, db, [] => ([], db)
  | io, db, port :: rest =>
    let (removed, db) := Registry.releasePort (io 0) db userId port
    let (released, db) := releasePorts userId (fun i => io (i + 1)) db rest
    (if removed then port :: released else released, db)

namespace SessionCtx

variable (ctx : SessionCtx)

/-- `owned_hostnames(..).is_empty() && owned_ports(..).is_empty()`; a failed query lists nothing. -/
def ownsNothing (io : ReleaseIo) (db : Db) (userId : Int) : Bool :=
  (match Txn.run io.ownedHostnames (ownedHostnames ctx.domain userId) db with
    | (.ok names, _) => names.isEmpty
    | (.error _, _) => true) &&
  (match Txn.run io.ownedPorts (ownedPorts userId) db with
    | (.ok ports, _) => ports.isEmpty
    | (.error _, _) => true)

def handleRelease (io : ReleaseIo) (relay : Relay) (user : AuthedUser) (token : String)
    (hostnames : List String) (tcpPorts : List UInt16) : ControlFrame × Relay :=
  if maxClaimEntries < hostnames.length + tcpPorts.length then ((tooLarge "release").frame, relay)
  else
    let hostnames := hostnames.map toAsciiLowercase
    let (releasedHosts, db) := releaseHosts ctx.domain user.userId io.hosts relay.db hostnames
    let (releasedPorts, db) := releasePorts user.userId io.ports db tcpPorts
    let relay := { relay with db := db }
    if releasedHosts = [] ∧ releasedPorts = [] then (.released releasedHosts releasedPorts, relay)
    else
      let relay := { relay with router := relay.router.evictRoutes releasedHosts releasedPorts }
      let cache :=
        match ctx.polar with
        | some gate =>
          if ctx.ownsNothing io db user.userId then
            gate.releaseActivation io.deactivate relay.cache token
          else relay.cache
        | none => relay.cache
      (.released releasedHosts releasedPorts, { relay with cache := cache })

end SessionCtx

/-! ## The steps of the handlers -/

section steps

variable {ctx : SessionCtx} {db db' : Db} {u : Int}

/-- A port that passes the check is in range and the user's. -/
theorem checkPort_ok {faults : Faults} {port : UInt16}
    (h : ctx.checkPort faults db u port = .ok ()) :
    (∃ manager, ctx.tcp = some manager ∧ manager.inRange port = true) ∧ db.hasPort u port = true := by
  unfold SessionCtx.checkPort at h
  split at h
  · cases h
  · rename_i manager hm
    split at h
    · cases h
    · rename_i hc
      simp only [Bool.or_eq_true, Bool.not_eq_true', not_or, Bool.not_eq_false] at hc
      exact ⟨⟨manager, hm, hc.1⟩, (ownsPort_eq_true.1 hc.2).1⟩

theorem ensureBound_ok {bound bound' : Finset UInt16} {port : UInt16} {bind : Except String Unit}
    (h : ensureBound bound port bind = (.ok (), bound')) : port ∈ bound' ∧ bound ⊆ bound' := by
  unfold ensureBound at h
  split at h
  · rename_i hmem
    cases h
    exact ⟨hmem, Finset.Subset.refl _⟩
  · split at h
    · cases h
    · cases h
      exact ⟨Finset.mem_insert_self .., Finset.subset_insert ..⟩

/-- What claiming one hostname does to the registry: the user owns it afterwards, through an old row
or a new one within the cap, or nothing has changed. -/
inductive HostEffect (domain : String) (db : Db) (u : Int) (host : String) (cap : Option Int) :
    Except Refusal Unit → Db → Prop where
  | already {l : String} (hl : labelOf domain host = some l) (h : db.hasLabel u l = true) :
      HostEffect domain db u host cap (.ok ()) db
  | inserted {l : String} {db' : Db} (hl : labelOf domain host = some l)
      (h : db.Inserted db' u l) (hcap : ∀ m ∈ cap, db.countOwned u < m) :
      HostEffect domain db u host cap (.ok ()) db'
  | refused (why : Refusal) : HostEffect domain db u host cap (.error why) db

theorem claimHost_effect (ctx : SessionCtx) (io : HostIo) (db : Db) (u : Int) (host : String)
    (cap : Option Int) : HostEffect ctx.domain db u host cap
      (ctx.claimHost io db u host cap).1 (ctx.claimHost io db u host cap).2 := by
  unfold SessionCtx.claimHost Registry.claimHostname
  cases hl : labelOf ctx.domain host with
  | none => exact .refused _
  | some l =>
    have heff := Txn.post_run (claimLabelCapped_effect db u io.now l cap) io.faults
    dsimp only
    generalize Txn.run io.faults (claimLabelCapped io.now u l cap) db = r at heff ⊢
    obtain ⟨res, db'⟩ := r
    dsimp only at heff
    cases heff with
    | already h => exact .already hl h
    | inserted h hcap => exact .inserted hl h hcap
    | refused e => cases e <;> exact .refused _

end steps

end EtherTunnel
