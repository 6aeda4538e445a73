import EtherTunnel.Lib.Threads
import EtherTunnel.Registry.Isolation
import EtherTunnel.Registry.Pool
import EtherTunnel.Session.Handlers

/-!
# Sessions, interleaved

Every session runs an actor (`run_session`) and a control task (`control_task`) that the actor neither
awaits nor aborts. Both work on the registry, the router and the listener set, each behind its own
lock, so what interleaves are single calls on one of the three. A session is a thread: its control
task's program counter, the user it authenticated as, and whether its actor has run `remove_session`.

| here | there |
| --- | --- |
| `Task.hello`, `auth` | the handshake, and `authenticate_any` in it or in the tick (`session.rs:392`, `:446`) |
| `Task.prune`, `Task.overCap` | `enforce_pooled_cap` for the authenticated user (`polar.rs:856`): `prune_owned_to_cap`, `owned_over_cap` |
| `Task.evict` | a computed list on its way to `evict_routes`: `tear_down_routes`, the tick's (`session.rs:466`), `handle_release`'s (`:840`) |
| `Task.claimPorts` … `Task.route` | `handle_claim` |
| `Task.releaseHosts`, `Task.releasePorts` | `handle_release` |
| `Task.routes`, `Task.recheck`, `Task.lapse` | the tick after its credential check (`session.rs:460-500`) |
| `SessAct.teardown` | the end of `run_session` (`session.rs:302-303`) |

What a step meets outside (clock, storage failures, who a credential belongs to, the pooled caps and
the gate's decision, the order of a `HashSet`) comes with its action. The environment runs registry
calls of its own: `etun admin` in another process, and the gate's `add_user`. Session ids are thread
indices; slot 0 is never used.
-/

namespace EtherTunnel

open Threads Txn

/-! ## State -/

/-- What follows an eviction. -/
inductive After where
  | enforce (live : Option Int)
  | authed
  | released
  | revoked
deriving DecidableEq

/-- Where a control task is. In a loop over a request, `done` and `todo` split it. -/
inductive Task where
  | hello
  | prune (u : Int) (pooled live : Option Int)
  | overCap (u : Int) (live : Option Int)
  | evict (u : Int) (hosts : List String) (ports : List UInt16) (after : After)
  | idle
  | claimPorts (hosts : List String) (done todo : List UInt16)
  | claimBind (hosts : List String) (done : List UInt16) (port : UInt16) (todo : List UInt16)
  | claimGate (hosts : List String) (ports : List UInt16)
  | claimHosts (ports : List UInt16) (cap : Option Int) (done todo : List String)
  | route (hosts : List String) (ports : List UInt16)
  | releaseHosts (ports : List UInt16) (todo released : List String)
  | releasePorts (todo : List UInt16) (hosts : List String) (released : List UInt16)
  | routes
  | recheck (todo revoked : List String)
  | lapse
  | done
deriving DecidableEq

structure Sess where
  /-- `run_session` has removed the session from the router. -/
  torn : Bool := false
  user : Option Int := none
  task : Task := .hello
deriving DecidableEq

inductive SessAct where
  | teardown
  | auth (who : Option Int) (caps : Option (Option Int × Option Int))
  | store (faults : Faults)
  | evict
  | claim (hostnames : List String) (tcpPorts : List UInt16)
  | check (faults : Faults)
  | bind (answer : Except String Unit)
  | gate (answer : Except String (Option CapDecision))
  | host (io : HostIo)
  | route
  | release (hostnames : List String) (tcpPorts : List UInt16)
  | drop (faults : Faults)
  | routes (order : List String)
  | lapse (stop : Bool)
  | next
  | quit

/-! ## Steps -/

namespace Sess

variable (sess : Sess)

def goto (task : Task) : Sess := { sess with task := task }

/-- `authenticate_any` answered `u`: in the handshake the session becomes `u`'s; in the tick it goes
on only if it already is. -/
def authed (u : Int) : Sess :=
  match sess.user with
  | none => { sess with user := some u, task := .idle }
  | some v => if v = u then sess.goto .routes else sess.goto .done

def afterEvict (u : Int) : After → Sess
  | .enforce live => sess.goto (.overCap u live)
  | .authed => sess.authed u
  | .released => sess.goto .idle
  | .revoked => sess.goto .lapse

/-- Go on to `evict_routes`, unless there is nothing to evict. -/
def evicting (u : Int) (hosts : List String) (ports : List UInt16) (after : After) : Sess :=
  if hosts = [] ∧ ports = [] then sess.afterEvict u after else sess.goto (.evict u hosts ports after)

/-- The step out of a finished loop or past a skipped pass. -/
def next (u : Int) : Option Sess :=
  match sess.task with
  | .claimPorts hosts ports [] => some (sess.goto (.claimGate hosts ports))
  | .claimHosts ports _ hosts [] => some (sess.goto (.route hosts ports))
  | .releaseHosts ports [] released => some (sess.goto (.releasePorts ports released []))
  | .releasePorts [] hosts ports => some (sess.evicting u hosts ports .released)
  | .recheck [] revoked => some (sess.evicting u revoked [] .revoked)
  | _ => none

end Sess

namespace SessionCtx

variable (ctx : SessionCtx)

/-- One step of session `i`. -/
def sessStep (i : Nat) (net : Net) (sess : Sess) (act : SessAct) : Option (Net × Sess) :=
  match sess.user, sess.task, act with
  | _, _, .teardown =>
    if sess.torn then none
    else some ({ net with router := net.router.removeSession i }, { sess with torn := true })
  | _, .hello, .auth who caps | _, .idle, .auth who caps =>
    match who, caps with
    | none, _ => some (net, sess.goto .done)
    | some u, none => some (net, sess.authed u)
    | some u, some (pooled, live) => some (net, sess.goto (.prune u pooled live))
  | _, .prune u (some cap) live, .store faults =>
    match run faults (pruneOwnedToCap u cap) net.db with
    | (.error _, db) => some ({ net with db := db }, sess.goto (.overCap u live))
    | (.ok (labels, ports), db) =>
      some ({ net with db := db },
        sess.evicting u (labels.map (fqdn ctx.domain)) ports (.enforce live))
  | _, .prune u none live, .next => some (net, sess.goto (.overCap u live))
  | _, .overCap u (some cap), .store faults =>
    match run faults (ownedOverCap u cap) net.db with
    | (.error _, db) => some ({ net with db := db }, sess.authed u)
    | (.ok (labels, ports), db) =>
      some ({ net with db := db }, sess.evicting u (labels.map (fqdn ctx.domain)) ports .authed)
  | _, .overCap u none, .next => some (net, sess.authed u)
  | _, .evict u hosts ports after, .evict =>
    some ({ net with router := net.router.evictRoutes hosts ports }, sess.afterEvict u after)
  | some _, .idle, .claim hostnames tcpPorts =>
    if maxClaimEntries < hostnames.length + tcpPorts.length then some (net, sess)
    else some (net, sess.goto (.claimPorts (hostnames.map toAsciiLowercase) [] tcpPorts))
  | some u, .claimPorts hosts done (port :: todo), .check faults =>
    match ctx.checkPort faults net.db u port with
    | .error _ => some (net, sess.goto .idle)
    | .ok () => some (net, sess.goto (.claimBind hosts done port todo))
  | _, .claimBind hosts done port todo, .bind answer =>
    match ensureBound net.bound port answer with
    | (.error _, bound) => some ({ net with bound := bound }, sess.goto .idle)
    | (.ok (), bound) =>
      some ({ net with bound := bound }, sess.goto (.claimPorts hosts (done ++ [port]) todo))
  | some u, .claimGate hosts ports, .gate answer =>
    match answer with
    | .error _ => some (net, sess.goto .idle)
    | .ok none => some (net, sess.goto (.claimHosts ports none [] hosts))
    | .ok (some decision) =>
      match capCheck decision net.router u hosts ports with
      | .error _ => some (net, sess.goto .idle)
      | .ok cap => some (net, sess.goto (.claimHosts ports cap [] hosts))
  | some u, .claimHosts ports cap done (host :: todo), .host io =>
    match ctx.claimHost io net.db u host cap with
    | (.error _, db) => some ({ net with db := db }, sess.goto .idle)
    | (.ok (), db) =>
      some ({ net with db := db }, sess.goto (.claimHosts ports cap (done ++ [host]) todo))
  | some u, .route hosts ports, .route =>
    some ({ net with router := net.router.claim ⟨i, u⟩ hosts ports }, sess.goto .idle)
  | some _, .idle, .release hostnames tcpPorts =>
    if maxClaimEntries < hostnames.length + tcpPorts.length then some (net, sess)
    else some (net, sess.goto (.releaseHosts tcpPorts (hostnames.map toAsciiLowercase) []))
  | some u, .releaseHosts ports (host :: todo) released, .drop faults =>
    let (removed, db) := Registry.releaseHostname faults net.db ctx.domain u host
    some ({ net with db := db },
      sess.goto (.releaseHosts ports todo (if removed then released ++ [host] else released)))
  | some u, .releasePorts (port :: todo) hosts released, .drop faults =>
    let (removed, db) := Registry.releasePort faults net.db u port
    some ({ net with db := db },
      sess.goto (.releasePorts todo hosts (if removed then released ++ [port] else released)))
  | some _, .routes, .routes order =>
    if order.Nodup ∧ order.toFinset = net.router.hostnamesOf i then
      some (net, sess.goto (.recheck order []))
    else none
  | some u, .recheck (host :: todo) revoked, .check faults =>
    some (net, sess.goto (.recheck todo
      (if Registry.ownsHostname faults net.db ctx.domain u host then revoked else revoked ++ [host])))
  | _, .lapse, .lapse stop => some (net, sess.goto (if stop then .done else .idle))
  | some u, _, .next => (sess.next u).map (net, ·)
  | _, .hello, .quit | _, .idle, .quit => some (net, sess.goto .done)
  | _, _, _ => none

/-! ### The steps, one by one -/

section steps

variable {ctx} {i : Nat} {net : Net} {torn : Bool} {u : Int} {faults : Faults}

theorem sessStep_check {hosts : List String} {done todo : List UInt16} {port : UInt16} :
    ctx.sessStep i net ⟨torn, some u, .claimPorts hosts done (port :: todo)⟩ (.check faults) =
      match ctx.checkPort faults net.db u port with
      | .error _ => some (net, ⟨torn, some u, .idle⟩)
      | .ok () => some (net, ⟨torn, some u, .claimBind hosts done port todo⟩) := rfl

theorem sessStep_bind {hosts : List String} {done todo : List UInt16} {port : UInt16}
    {answer : Except String Unit} :
    ctx.sessStep i net ⟨torn, some u, .claimBind hosts done port todo⟩ (.bind answer) =
      match ensureBound net.bound port answer with
      | (.error _, bound) => some ({ net with bound := bound }, ⟨torn, some u, .idle⟩)
      | (.ok (), bound) =>
        some ({ net with bound := bound }, ⟨torn, some u, .claimPorts hosts (done ++ [port]) todo⟩) := rfl

theorem sessStep_gate {hosts : List String} {ports : List UInt16} {decision : CapDecision} :
    ctx.sessStep i net ⟨torn, some u, .claimGate hosts ports⟩ (.gate (.ok (some decision))) =
      match capCheck decision net.router u hosts ports with
      | .error _ => some (net, ⟨torn, some u, .idle⟩)
      | .ok cap => some (net, ⟨torn, some u, .claimHosts ports cap [] hosts⟩) := rfl

theorem sessStep_host {ports : List UInt16} {cap : Option Int} {done todo : List String} {host : String}
    {io : HostIo} :
    ctx.sessStep i net ⟨torn, some u, .claimHosts ports cap done (host :: todo)⟩ (.host io) =
      match ctx.claimHost io net.db u host cap with
      | (.error _, db) => some ({ net with db := db }, ⟨torn, some u, .idle⟩)
      | (.ok (), db) =>
        some ({ net with db := db }, ⟨torn, some u, .claimHosts ports cap (done ++ [host]) todo⟩) := rfl

theorem sessStep_dropHost {ports : List UInt16} {host : String} {todo released : List String} :
    ctx.sessStep i net ⟨torn, some u, .releaseHosts ports (host :: todo) released⟩ (.drop faults) =
      some ({ net with db := (Registry.releaseHostname faults net.db ctx.domain u host).2 },
        ⟨torn, some u, .releaseHosts ports todo
          (if (Registry.releaseHostname faults net.db ctx.domain u host).1 then released ++ [host]
            else released)⟩) := rfl

theorem sessStep_dropPort {hosts : List String} {port : UInt16} {todo released : List UInt16} :
    ctx.sessStep i net ⟨torn, some u, .releasePorts (port :: todo) hosts released⟩ (.drop faults) =
      some ({ net with db := (Registry.releasePort faults net.db u port).2 },
        ⟨torn, some u, .releasePorts todo hosts
          (if (Registry.releasePort faults net.db u port).1 then released ++ [port]
            else released)⟩) := rfl

theorem sessStep_prune {sess : Sess} {cap : Int} {live : Option Int} :
    ctx.sessStep i net (sess.goto (.prune u (some cap) live)) (.store faults) =
      match run faults (pruneOwnedToCap u cap) net.db with
      | (.error _, db) => some ({ net with db := db }, sess.goto (.overCap u live))
      | (.ok (labels, ports), db) => some ({ net with db := db },
          (sess.goto (.prune u (some cap) live)).evicting u (labels.map (fqdn ctx.domain)) ports
            (.enforce live)) := by
  obtain ⟨torn, user, task⟩ := sess
  cases user <;> rfl

theorem sessStep_overCap {sess : Sess} {cap : Int} :
    ctx.sessStep i net (sess.goto (.overCap u (some cap))) (.store faults) =
      match run faults (ownedOverCap u cap) net.db with
      | (.error _, db) => some ({ net with db := db }, sess.authed u)
      | (.ok (labels, ports), db) => some ({ net with db := db },
          (sess.goto (.overCap u (some cap))).evicting u (labels.map (fqdn ctx.domain)) ports .authed) := by
  obtain ⟨torn, user, task⟩ := sess
  cases user <;> rfl

theorem sessStep_prune_skip {sess : Sess} {live : Option Int} :
    ctx.sessStep i net (sess.goto (.prune u none live)) .next =
      some (net, sess.goto (.overCap u live)) := by
  obtain ⟨torn, user, task⟩ := sess
  cases user <;> rfl

theorem sessStep_overCap_skip {sess : Sess} :
    ctx.sessStep i net (sess.goto (.overCap u none)) .next = some (net, sess.authed u) := by
  obtain ⟨torn, user, task⟩ := sess
  cases user <;> rfl

end steps

end SessionCtx

abbrev RelaySys := Sys Net Sess

abbrev RelayAct := Act SessAct (Mutation × Faults)

/-- The relay under any number of sessions. -/
def SessionCtx.relay (ctx : SessionCtx) : RelaySys → RelayAct → Option RelaySys :=
  Threads.step {} ctx.sessStep fun net e => some { net with db := e.1.exec e.2 net.db }

/-- A relay that has just started on a database. -/
def RelaySys.start (db : Db) : RelaySys :=
  ⟨⟨⟨db, Router.empty⟩, ∅⟩, [{ torn := true, task := .done }]⟩

/-! ## What a session holds in flight -/

namespace Sess

variable (sess : Sess)

/-- The resources a claim has checked or registered and not yet routed. -/
def checked : List Resource :=
  match sess.task with
  | .claimPorts _ done _ => resources [] done
  | .claimBind _ done port _ => resources [] (done ++ [port])
  | .claimGate _ ports => resources [] ports
  | .claimHosts ports _ done _ => resources done ports
  | .route hosts ports => resources hosts ports
  | _ => []

/-- The resources deleted from the registry, or found past a cap or revoked, and not yet evicted. -/
def pending : List Resource :=
  match sess.task with
  | .evict _ hosts ports _ => resources hosts ports
  | .releaseHosts _ _ released => resources released []
  | .releasePorts _ hosts released => resources hosts released
  | _ => []

/-- The user for whom an eviction is under way, and what it may evict. -/
def listing : Option (Int × List Resource) :=
  match sess.task with
  | .evict u hosts ports _ => some (u, resources hosts ports)
  | .releaseHosts _ _ released => sess.user.map (·, resources released [])
  | .releasePorts _ hosts released => sess.user.map (·, resources hosts released)
  | .recheck todo revoked => sess.user.map (·, resources (todo ++ revoked) [])
  | _ => none

/-- `x` is on the way to being evicted for user `u`. -/
def Lists (u : Int) (x : Resource) : Prop := ∃ p ∈ sess.listing, p.1 = u ∧ x ∈ p.2

end Sess

/-! ## What a step is about to touch -/

/-- What a step registers or routes for its session's user. -/
def Sess.acquiring (sess : Sess) (act : SessAct) : List Resource :=
  match sess.user, sess.task, act with
  | some _, .claimHosts _ _ _ (host :: _), .host _ => [.host host]
  | some _, .route hosts ports, .route => resources hosts ports
  | _, _, _ => []

/-- The user whose rows a step deletes, and the resources it may delete. -/
def SessionCtx.deleting (ctx : SessionCtx) (net : Net) (sess : Sess) (act : SessAct) :
    Option (Int × List Resource) :=
  match sess.user, sess.task, act with
  | some u, .releaseHosts _ (host :: _) _, .drop _ => some (u, [.host host])
  | some u, .releasePorts (port :: _) _ _, .drop _ => some (u, [.port port])
  | _, .prune u (some cap) _, .store _ =>
    some (u, resources ((net.db.overCap u cap).1.map (fqdn ctx.domain)) (net.db.overCap u cap).2)
  | _, _, _ => none

/-! ## Pieces of schedules -/

/-- A relay without TCP tunnels and without license keys. -/
def plainRelay : SessionCtx := ⟨"d.io", none, none⟩

def licensedRelay : SessionCtx := ⟨"d.io", none, some soloGate⟩

/-- Session `i` appears and authenticates as `u`. -/
def connects (i : Nat) (u : Int) : List RelayAct := [.spawn, .on i (.auth (some u) none)]

/-- Session `i` claims a hostname, up to the router call; `decision` is what the license gate says. -/
def claims (i : Nat) (host : String) (decision : Option CapDecision := none) : List RelayAct :=
  [.on i (.claim [host] []), .on i .next, .on i (.gate (.ok decision)), .on i (.host ⟨9, []⟩), .on i .next]

/-- Session `i` releases a hostname, up to the router call. -/
def releases (i : Nat) (host : String) : List RelayAct :=
  [.on i (.release [host] []), .on i (.drop []), .on i .next, .on i .next]

/-- `ann` serves a name and releases it; then `bob` claims and serves it. -/
def releasedThenClaimed : List RelayAct :=
  connects 1 1 ++ connects 2 2 ++ claims 1 "shop.d.io" ++ [.on 1 .route] ++
    releases 1 "shop.d.io" ++ [.on 1 .evict] ++ claims 2 "shop.d.io" ++ [.on 2 .route]

end EtherTunnel
