import EtherTunnel.Session.Steps

/-!
# Handlers that run alone

The handlers are modelled twice: as functions of the stores (`Handlers.lean`, `Polar/Gate.lean`), which
is how they read in the source, and as the steps of `sessStep`, which is how they interleave. Here the
two are tied together: a session that takes its steps while nobody else moves leaves the stores exactly
as the function does, whatever the request and whatever fails (`handleClaim_alone`,
`handleRelease_alone`, `enforcePooledCap_alone`), and so inside any relay (`handlers_in_relay`).
-/

namespace EtherTunnel

open Threads Txn

/-- Session `i`, alone, can go from `sess` to `sess'`. -/
abbrev SessionCtx.Alone (ctx : SessionCtx) (i : Nat) : Net → Sess → Net → Sess → Prop :=
  Threads.Alone ctx.sessStep i

variable (ctx : SessionCtx) (i : Nat) (torn : Bool) (u : Int)

/-! ## `handle_claim` -/

/-- The program counter after a fallible part of a claim. -/
def Sess.afterPart (torn : Bool) (u : Int) {ε α : Type} (res : Except ε α) (next : α → Task) : Sess :=
  match res with
  | .error _ => ⟨torn, some u, .idle⟩
  | .ok a => ⟨torn, some u, next a⟩

theorem claimPorts_alone (hosts : List String) : ∀ (todo : List UInt16) (io : Nat → PortIo) (net : Net)
    (done : List UInt16),
    ctx.Alone i net ⟨torn, some u, .claimPorts hosts done todo⟩ (ctx.claimPorts u io net todo).2
      (Sess.afterPart torn u (ctx.claimPorts u io net todo).1 fun _ =>
        .claimPorts hosts (done ++ todo) [])
  | [], _, _, done => by rw [List.append_nil]; exact .stop
  | port :: todo, io, net, done => by
    unfold SessionCtx.claimPorts
    cases hc : ctx.checkPort (io 0).faults net.db u port with
    | error why =>
      refine .step (.check (io 0).faults) ?_ .stop
      rw [SessionCtx.sessStep_check, hc]; rfl
    | ok x =>
      have hcheck : ctx.sessStep i net ⟨torn, some u, .claimPorts hosts done (port :: todo)⟩
          (.check (io 0).faults) = some (net, ⟨torn, some u, .claimBind hosts done port todo⟩) := by
        rw [SessionCtx.sessStep_check, hc]
      refine .step _ hcheck ?_
      rcases hb : ensureBound net.bound port (io 0).bind with ⟨_ | x, bound⟩
      · refine .step (.bind (io 0).bind) ?_ .stop
        rw [SessionCtx.sessStep_bind, hb]; rfl
      · refine .step (.bind (io 0).bind) (m := { net with bound := bound })
          (u := ⟨torn, some u, .claimPorts hosts (done ++ [port]) todo⟩) ?_ ?_
        · rw [SessionCtx.sessStep_bind, hb]
        · have := claimPorts_alone hosts todo (fun n => io (n + 1)) { net with bound := bound }
            (done ++ [port])
          rw [List.append_assoc, List.singleton_append] at this
          exact this

theorem claimHosts_alone (ports : List UInt16) (cap : Option Int) : ∀ (todo : List String)
    (io : Nat → HostIo) (net : Net) (done : List String),
    ctx.Alone i net ⟨torn, some u, .claimHosts ports cap done todo⟩
      { net with db := (ctx.claimHosts u cap io net.db todo).2 }
      (Sess.afterPart torn u (ctx.claimHosts u cap io net.db todo).1 fun _ =>
        .claimHosts ports cap (done ++ todo) [])
  | [], _, _, done => by rw [List.append_nil]; exact .stop
  | host :: todo, io, net, done => by
    unfold SessionCtx.claimHosts
    rcases hc : ctx.claimHost (io 0) net.db u host cap with ⟨_ | x, db⟩
    · refine .step (.host (io 0)) ?_ .stop
      rw [SessionCtx.sessStep_host, hc]; rfl
    · refine .step (.host (io 0)) (m := { net with db := db })
        (u := ⟨torn, some u, .claimHosts ports cap (done ++ [host]) todo⟩) ?_ ?_
      · rw [SessionCtx.sessStep_host, hc]
      · have := claimHosts_alone ports cap todo (fun n => io (n + 1)) { net with db := db }
          (done ++ [host])
        rw [List.append_assoc, List.singleton_append] at this
        exact this

/-- The gate touches the license cache only, which sessions do not share a step with. -/
theorem claimGate_alone (io : GateIo) (relay : Relay) (user : AuthedUser) (token : String)
    (hosts : List String) (ports : List UInt16) :
    (ctx.claimGate io relay user token hosts ports).2.toNet = relay.toNet ∧
    ctx.Alone i relay.toNet ⟨torn, some user.userId, .claimGate hosts ports⟩ relay.toNet
      (Sess.afterPart torn user.userId (ctx.claimGate io relay user token hosts ports).1 fun cap =>
        .claimHosts ports cap [] hosts) := by
  unfold SessionCtx.claimGate
  cases hp : ctx.polar with
  | none => exact ⟨rfl, .step (.gate (.ok none)) rfl .stop⟩
  | some gate =>
    dsimp only
    rcases hact : gate.ensureActivated io.activate relay.cache token with ⟨why | x, cache⟩
    · exact ⟨rfl, .step (.gate (.error why)) rfl .stop⟩
    · refine ⟨rfl, .step (.gate (.ok (some (gate.capFor cache user.name io.now io.capFails)))) ?_ .stop⟩
      dsimp only
      cases hcap : SessionCtx.capCheck (gate.capFor cache user.name io.now io.capFails) relay.router
        user.userId hosts ports with
      | error why => rw [SessionCtx.sessStep_gate, hcap]; rfl
      | ok cap => rw [SessionCtx.sessStep_gate, hcap]; rfl

/-- **`handle_claim` is a run of its own steps.** -/
theorem handleClaim_alone (io : ClaimIo) (relay : Relay) (user : AuthedUser) (token : String)
    (hostnames : List String) (tcpPorts : List UInt16) :
    ctx.Alone i relay.toNet ⟨torn, some user.userId, .idle⟩
      (ctx.handleClaim io relay ⟨i, user.userId⟩ user token hostnames tcpPorts).2.2.toNet
      ⟨torn, some user.userId, .idle⟩ := by
  unfold SessionCtx.handleClaim
  by_cases hsize : maxClaimEntries < hostnames.length + tcpPorts.length
  · rw [if_pos hsize]; exact .stop
  rw [if_neg hsize]
  dsimp only
  generalize hhosts : hostnames.map toAsciiLowercase = hosts
  refine .step (.claim hostnames tcpPorts) (m := relay.toNet)
    (u := ⟨torn, some user.userId, .claimPorts hosts [] tcpPorts⟩) ?_ ?_
  · rw [← hhosts]; exact if_neg hsize
  have hports := claimPorts_alone ctx i torn user.userId hosts tcpPorts io.ports relay.toNet []
  rcases hp : ctx.claimPorts user.userId io.ports relay.toNet tcpPorts with ⟨why | x, net⟩ <;>
    rw [hp] at hports
  · exact hports
  refine hports.trans (.step .next rfl ?_)
  dsimp only
  obtain ⟨hnet, hgate⟩ := claimGate_alone ctx i torn io.gate { relay with toNet := net } user token hosts
    tcpPorts
  rcases hg : ctx.claimGate io.gate { relay with toNet := net } user token hosts tcpPorts with
    ⟨why | cap, relay'⟩ <;> rw [hg] at hgate hnet
  · obtain rfl : relay'.toNet = net := hnet
    exact hgate
  obtain rfl : relay'.toNet = net := hnet
  refine hgate.trans ?_
  dsimp only
  have hhost := claimHosts_alone ctx i torn user.userId tcpPorts cap hosts io.hosts relay'.toNet []
  rcases hh : ctx.claimHosts user.userId cap io.hosts relay'.db hosts with ⟨why | x, db⟩ <;>
    rw [hh] at hhost
  · exact hhost
  · exact hhost.trans (.step .next rfl (.step .route rfl .stop))

/-! ## `handle_release` -/

theorem releaseHosts_alone (ports : List UInt16) : ∀ (todo : List String) (io : Nat → Faults) (net : Net)
    (released : List String),
    ctx.Alone i net ⟨torn, some u, .releaseHosts ports todo released⟩
      { net with db := (releaseHosts ctx.domain u io net.db todo).2 }
      ⟨torn, some u, .releaseHosts ports [] (released ++ (releaseHosts ctx.domain u io net.db todo).1)⟩
  | [], _, _, released => by
    simp only [releaseHosts, List.append_nil]; exact .stop
  | host :: todo, io, net, released => by
    unfold releaseHosts
    refine .step (.drop (io 0)) SessionCtx.sessStep_dropHost ?_
    rcases Registry.releaseHostname (io 0) net.db ctx.domain u host with ⟨removed, db⟩
    have := releaseHosts_alone ports todo (fun n => io (n + 1)) { net with db := db }
      (if removed then released ++ [host] else released)
    cases removed <;> simpa using this

theorem releasePorts_alone (hosts : List String) : ∀ (todo : List UInt16) (io : Nat → Faults) (net : Net)
    (released : List UInt16),
    ctx.Alone i net ⟨torn, some u, .releasePorts todo hosts released⟩
      { net with db := (releasePorts u io net.db todo).2 }
      ⟨torn, some u, .releasePorts [] hosts (released ++ (releasePorts u io net.db todo).1)⟩
  | [], _, _, released => by
    simp only [releasePorts, List.append_nil]; exact .stop
  | port :: todo, io, net, released => by
    unfold releasePorts
    refine .step (.drop (io 0)) SessionCtx.sessStep_dropPort ?_
    rcases Registry.releasePort (io 0) net.db u port with ⟨removed, db⟩
    have := releasePorts_alone hosts todo (fun n => io (n + 1)) { net with db := db }
      (if removed then released ++ [port] else released)
    cases removed <;> simpa using this

/-- Evicting a list, which is skipped when the list is empty. -/
theorem evicting_alone (sess : Sess) (net : Net) (hosts : List String) (ports : List UInt16)
    (after : After) :
    ctx.Alone i net (sess.evicting u hosts ports after)
      (if hosts = [] ∧ ports = [] then net
        else { net with router := net.router.evictRoutes hosts ports })
      (sess.afterEvict u after) := by
  unfold Sess.evicting
  split
  · exact .stop
  · refine .step .evict ?_ .stop
    obtain ⟨torn, user, task⟩ := sess
    cases user <;> cases after <;> rfl

/-- **`handle_release` is a run of its own steps.** -/
theorem handleRelease_alone (io : ReleaseIo) (relay : Relay) (user : AuthedUser) (token : String)
    (hostnames : List String) (tcpPorts : List UInt16) :
    ctx.Alone i relay.toNet ⟨torn, some user.userId, .idle⟩
      (ctx.handleRelease io relay user token hostnames tcpPorts).2.toNet
      ⟨torn, some user.userId, .idle⟩ := by
  unfold SessionCtx.handleRelease
  by_cases hsize : maxClaimEntries < hostnames.length + tcpPorts.length
  · rw [if_pos hsize]; exact .stop
  rw [if_neg hsize]
  dsimp only
  generalize hhosts : hostnames.map toAsciiLowercase = hosts
  refine .step (.release hostnames tcpPorts) (m := relay.toNet)
    (u := ⟨torn, some user.userId, .releaseHosts tcpPorts hosts []⟩) ?_ ?_
  · rw [← hhosts]; exact if_neg hsize
  refine (releaseHosts_alone ctx i torn user.userId tcpPorts hosts io.hosts relay.toNet []).trans ?_
  rw [List.nil_append]
  rcases releaseHosts ctx.domain user.userId io.hosts relay.db hosts with ⟨releasedHosts, db⟩
  refine .step .next rfl ?_
  refine (releasePorts_alone ctx i torn user.userId releasedHosts tcpPorts io.ports
    { relay.toNet with db := db } []).trans ?_
  rw [List.nil_append]
  dsimp only
  rcases releasePorts user.userId io.ports db tcpPorts with ⟨releasedPorts, db'⟩
  refine .step .next rfl ?_
  have hev := evicting_alone ctx i user.userId
    ⟨torn, some user.userId, .releasePorts [] releasedHosts releasedPorts⟩
    { relay.toNet with db := db' } releasedHosts releasedPorts .released
  dsimp only at hev ⊢
  by_cases hnil : releasedHosts = [] ∧ releasedPorts = []
  · rw [if_pos hnil] at hev ⊢
    exact hev
  · rw [if_neg hnil] at hev ⊢
    exact hev

/-! ## `enforce_pooled_cap` -/

/-- The cap a pass of `enforce_pooled_cap` enforces: the validated key's own cap is a floor, and a cache
that cannot answer enforces nothing (`polar.rs:862-876`). -/
def CapDecision.enforced (cap : Int) : CapDecision → Option Int
  | .cap pooled => some (max pooled cap)
  | _ => none

theorem tearDown_alone (sess : Sess) (net : Net) (labels : List String) (ports : List UInt16)
    (after : After) :
    ctx.Alone i net (sess.evicting u (labels.map (fqdn ctx.domain)) ports after)
      (if labels = [] ∧ ports = [] then net
        else { net with router := (tearDownRoutes ctx.domain net.router labels ports).1 })
      (sess.afterEvict u after) := by
  have h := evicting_alone ctx i u sess net (labels.map (fqdn ctx.domain)) ports after
  simpa only [List.map_eq_nil_iff, tearDownRoutes] using h

theorem reconcileUserCap_alone (sess : Sess) (net : Net) (faults : Faults) (cap : Int)
    (live : Option Int) :
    ctx.Alone i net (sess.goto (.prune u (some cap) live))
      { net with toLive := (reconcileUserCap ctx.domain faults net.toLive u cap).1 }
      (sess.goto (.overCap u live)) := by
  unfold reconcileUserCap
  rcases hr : run faults (pruneOwnedToCap u cap) net.db with ⟨_ | ⟨labels, ports⟩, db⟩
  · refine .step (.store faults) ?_ .stop
    rw [SessionCtx.sessStep_prune, hr]
  · refine .step (.store faults) (m := { net with db := db })
      (u := (sess.goto (.prune u (some cap) live)).evicting u (labels.map (fqdn ctx.domain)) ports
        (.enforce live)) ?_ ?_
    · rw [SessionCtx.sessStep_prune, hr]
    · have h := tearDown_alone ctx i u (sess.goto (.prune u (some cap) live)) { net with db := db } labels
        ports (.enforce live)
      dsimp only
      split at h
      · rename_i hnil; rw [if_pos hnil]; exact h
      · rename_i hnil; rw [if_neg hnil]; exact h

theorem evictOverCap_alone (sess : Sess) (net : Net) (faults : Faults) (cap : Int) :
    ctx.Alone i net (sess.goto (.overCap u (some cap)))
      { net with toLive := (evictOverCap ctx.domain faults net.toLive u cap).1 } (sess.authed u) := by
  unfold evictOverCap
  rcases hr : run faults (ownedOverCap u cap) net.db with ⟨_ | ⟨labels, ports⟩, db⟩
  · refine .step (.store faults) ?_ .stop
    rw [SessionCtx.sessStep_overCap, hr]
  · refine .step (.store faults) (m := { net with db := db })
      (u := (sess.goto (.overCap u (some cap))).evicting u (labels.map (fqdn ctx.domain)) ports .authed)
      ?_ ?_
    · rw [SessionCtx.sessStep_overCap, hr]
    · have h := tearDown_alone ctx i u (sess.goto (.overCap u (some cap))) { net with db := db } labels
        ports .authed
      dsimp only
      split at h
      · rename_i hnil; rw [if_pos hnil]; exact h
      · rename_i hnil; rw [if_neg hnil]; exact h

/-- **`enforce_pooled_cap` is a run of its own steps**, from the answer of `authenticate_any` on. -/
theorem enforcePooledCap_alone (gate : PolarGate) (io : EnforceIo) (cache : LicenseCache) (net : Net)
    (sess : Sess) (user : AuthedUser) (cap now : Int) :
    ctx.Alone i net
      (sess.goto (.prune user.userId
        ((pooledOver cache user.name now gate.policy.capPruneGraceSecs io.graceFails).enforced cap)
        ((pooledOver cache user.name now gate.policy.stalenessSecs io.liveFails).enforced cap)))
      { net with toLive := (gate.enforcePooledCap io cache ctx.domain net.toLive user cap now).1 }
      (sess.authed user.userId) := by
  unfold PolarGate.enforcePooledCap
  generalize pooledOver cache user.name now gate.policy.capPruneGraceSecs io.graceFails = pooled
  generalize pooledOver cache user.name now gate.policy.stalenessSecs io.liveFails = live
  -- the second pass, from whatever the first left
  have hsecond : ∀ net' : Net, ctx.Alone i net' (sess.goto (.overCap user.userId (live.enforced cap)))
      { net' with toLive := (match live with
        | .cap liveCap => evictOverCap ctx.domain io.evict net'.toLive user.userId (max liveCap cap)
        | _ => (net'.toLive, [])).1 } (sess.authed user.userId) := by
    intro net'
    cases live with
    | cap liveCap => exact evictOverCap_alone ctx i user.userId sess net' io.evict (max liveCap cap)
    | allow | denyAll => exact .step .next SessionCtx.sessStep_overCap_skip .stop
  cases pooled with
  | cap pooledCap =>
    refine (reconcileUserCap_alone ctx i user.userId sess net io.prune (max pooledCap cap) _).trans ?_
    exact hsecond { net with
      toLive := (reconcileUserCap ctx.domain io.prune net.toLive user.userId (max pooledCap cap)).1 }
  | allow | denyAll => exact .step .next SessionCtx.sessStep_prune_skip (hsecond net)

/-! ## Inside a relay -/

/-- **The handlers as the relay runs them.** In any state of the relay, an idle session that serves a
request while nobody else moves leaves the stores as the handler does, and everyone's program counter
where it was. -/
theorem handlers_in_relay {S : RelaySys} {user : AuthedUser} (cache : LicenseCache)
    (ht : S.threads[i]? = some ⟨torn, some user.userId, .idle⟩) (token : String)
    (hostnames : List String) (tcpPorts : List UInt16) :
    (∀ io, ∃ acts : List SessAct, Lts.run ctx.relay S (acts.map (.on i)) =
      some { S with shared := (ctx.handleClaim io ⟨S.shared, cache⟩ ⟨i, user.userId⟩ user token hostnames
        tcpPorts).2.2.toNet }) ∧
    ∀ io, ∃ acts : List SessAct, Lts.run ctx.relay S (acts.map (.on i)) =
      some { S with
        shared := (ctx.handleRelease io ⟨S.shared, cache⟩ user token hostnames tcpPorts).2.toNet } := by
  have hset : S.threads.set i ⟨torn, some user.userId, .idle⟩ = S.threads := by
    obtain ⟨hi, he⟩ := List.getElem?_eq_some_iff.1 ht
    rw [← he, List.set_getElem_self]
  constructor
  · intro io
    obtain ⟨acts, hrun⟩ := Alone.sys ht
      (handleClaim_alone ctx i torn io ⟨S.shared, cache⟩ user token hostnames tcpPorts)
    rw [hset] at hrun
    exact ⟨acts, hrun⟩
  · intro io
    obtain ⟨acts, hrun⟩ := Alone.sys ht
      (handleRelease_alone ctx i torn io ⟨S.shared, cache⟩ user token hostnames tcpPorts)
    rw [hset] at hrun
    exact ⟨acts, hrun⟩

end EtherTunnel
