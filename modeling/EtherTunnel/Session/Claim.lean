import EtherTunnel.Session.Handlers

/-!
# A claim is all or nothing

`handle_claim` has five gates and touches the registry before it touches the router. Each loop gets one
lemma: `claimPorts_spec` (nothing but listeners changes), `claimGate_spec` (nothing but the license
cache changes, and the cap it hands on is the gate's), `claimHosts_spec` (the registry gains rows of
this user for a prefix of the request, within the cap). `claim_all_or_nothing` assembles them.
-/

namespace EtherTunnel

variable (ctx : SessionCtx)

/-! ## Ports -/

theorem claimPorts_spec (u : Int) : ∀ (ports : List UInt16) (io : Nat → PortIo) (net : Net),
    (ctx.claimPorts u io net ports).2.toLive = net.toLive ∧
    net.bound ⊆ (ctx.claimPorts u io net ports).2.bound ∧
    ((ctx.claimPorts u io net ports).1 = .ok () → ∀ port ∈ ports,
      (∃ manager, ctx.tcp = some manager ∧ manager.inRange port = true) ∧
      net.db.hasPort u port = true ∧ port ∈ (ctx.claimPorts u io net ports).2.bound)
  | [], io, net => ⟨rfl, Finset.Subset.refl _, fun _ port hp => nomatch hp⟩
  | port :: rest, io, net => by
    unfold SessionCtx.claimPorts
    cases hcheck : ctx.checkPort (io 0).faults net.db u port with
    | error why => exact ⟨rfl, Finset.Subset.refl _, fun h => nomatch h⟩
    | ok _ =>
      rcases hbind : ensureBound net.bound port (io 0).bind with ⟨e | _, bound⟩
      · refine ⟨rfl, ?_, fun h => nomatch h⟩
        unfold ensureBound at hbind
        split at hbind
        · cases hbind
        · split at hbind <;> cases hbind
          exact Finset.Subset.refl _
      · obtain ⟨hin, hsub⟩ := ensureBound_ok hbind
        obtain ⟨hlive, hmore, hok⟩ := claimPorts_spec u rest (fun i => io (i + 1))
          { net with bound := bound }
        refine ⟨hlive, hsub.trans hmore, fun h p hp => ?_⟩
        rcases List.mem_cons.1 hp with rfl | hp
        · obtain ⟨hrange, hown⟩ := checkPort_ok hcheck
          exact ⟨hrange, hown, hmore hin⟩
        · exact hok h p hp

/-! ## The gate -/

theorem capForCustomer_setActivation (cache : LicenseCache) (k : List UInt8) (a : Option String)
    (c : String) (lo now : Int) :
    (cache.setActivation k a).capForCustomer c lo now = cache.capForCustomer c lo now := by
  let f : LicenseRow → LicenseRow := fun r => if r.keyHash = k then { r with activationId := a } else r
  have hrows : (cache.setActivation k a).rows = cache.rows.map f := rfl
  have hcust : ∀ r, (f r).customerId = r.customerId := by
    intro r; simp only [f]; split <;> rfl
  have hcap : ∀ r, LicenseCache.qualifyingCap lo now (f r) = LicenseCache.qualifyingCap lo now r := by
    intro r; simp only [f]; split <;> rfl
  have hof : (cache.setActivation k a).rowsOf c = (cache.rowsOf c).map f := by
    simp only [LicenseCache.rowsOf, hrows, List.filter_map, Function.comp_def, hcust]
  simp only [LicenseCache.capForCustomer, hof, List.length_map, List.filterMap_map, Function.comp_def,
    hcap]

/-- Activation does not change what anyone may claim. -/
theorem capFor_ensureActivated (gate : PolarGate) (io : ActivateIo) (cache : LicenseCache)
    (key name : String) (now : Int) (fails : Bool) :
    gate.capFor (gate.ensureActivated io cache key).2 name now fails =
      gate.capFor cache name now fails := by
  have hcache : (gate.ensureActivated io cache key).2 = cache ∨
      ∃ a, (gate.ensureActivated io cache key).2 = cache.setActivation (gate.sha key) a := by
    unfold PolarGate.ensureActivated
    split
    · exact Or.inl rfl
    · dsimp only
      split
      · exact Or.inl rfl
      · split
        · exact Or.inl rfl
        · split
          · cases io.writeFails
            · exact Or.inr ⟨_, rfl⟩
            · exact Or.inl rfl
          · exact Or.inl rfl
          · exact Or.inl rfl
  rcases hcache with h | ⟨a, h⟩
  · rw [h]
  · rw [h, PolarGate.capFor, PolarGate.capFor, pooledOver, pooledOver, capForCustomer_setActivation]

theorem claimGate_spec (io : GateIo) (relay : Relay) (user : AuthedUser) (token : String)
    (hosts : List String) (ports : List UInt16) :
    let res := ctx.claimGate io relay user token hosts ports
    res.2.toNet = relay.toNet ∧
      ∀ cap, res.1 = .ok cap → ∀ gate ∈ ctx.polar, ∀ m,
        gate.capFor relay.cache user.name io.now io.capFails = .cap m → cap = some m := by
  intro res
  simp only [res, SessionCtx.claimGate]
  cases hp : ctx.polar with
  | none => exact ⟨rfl, fun cap _ gate hg => nomatch hg⟩
  | some gate =>
    have hcap := capFor_ensureActivated gate io.activate relay.cache token user.name io.now io.capFails
    dsimp only
    rcases hact : gate.ensureActivated io.activate relay.cache token with ⟨why | _, cache⟩
    · exact ⟨rfl, fun cap h => nomatch h⟩
    · rw [hact] at hcap
      refine ⟨rfl, ?_⟩
      rintro cap hok gate' ⟨⟩ m hm
      dsimp only at hok hcap
      rw [hcap, hm, SessionCtx.capCheck] at hok
      split at hok
      · cases hok
      · exact (Except.ok.inj hok).symm

/-! ## Hostnames -/

/-- The registry after `u` has registered these names. -/
structure Registered (domain : String) (u : Int) (hosts : List String) (db db' : Db) : Prop where
  rows : ∃ added, db'.toTables = { db.toTables with hostnames := db.hostnames ++ added } ∧
    ∀ r ∈ added, r.userId = u ∧ ∃ h ∈ hosts, labelOf domain h = some r.label
  owned : ∀ h ∈ hosts, db'.owns domain u (.host h) = true
  kept : ∀ v x, db.owns domain v x = true → db'.owns domain v x = true

theorem Registered.nil (domain : String) (u : Int) (db : Db) : Registered domain u [] db db :=
  ⟨⟨[], by simp, by simp⟩, by simp, fun _ _ h => h⟩

/-- One name more, in front. -/
theorem Registered.cons {domain : String} {u : Int} {cap : Option Int} {host : String}
    {hosts : List String} {db mid db' : Db} (hone : HostEffect domain db u host cap (.ok ()) mid)
    (h : Registered domain u hosts mid db') : Registered domain u (host :: hosts) db db' := by
  obtain ⟨added, htab, hadded⟩ := h.rows
  have hmore : ∀ r ∈ added, r.userId = u ∧ ∃ h ∈ host :: hosts, labelOf domain h = some r.label :=
    fun r hr => ⟨(hadded r hr).1, (hadded r hr).2.imp fun h hh => ⟨List.mem_cons_of_mem _ hh.1, hh.2⟩⟩
  cases hone with
  | already hl hown =>
    refine ⟨⟨added, htab, hmore⟩, fun h' hh' => ?_, h.kept⟩
    rcases List.mem_cons.1 hh' with rfl | hh'
    · exact h.kept _ _ (Db.owns_host_iff.2 ⟨_, hl, hown⟩)
    · exact h.owned h' hh'
  | inserted hl hins hcap =>
    rename_i l
    refine ⟨?_, fun h' hh' => ?_, fun v x hv => ?_⟩
    · obtain ⟨id, now, hrow⟩ := hins.row
      refine ⟨⟨id, u, l, now⟩ :: added, ?_, fun r hr => ?_⟩
      · rw [htab, hrow]
        simp only [List.append_assoc, List.singleton_append]
      · rcases List.mem_cons.1 hr with rfl | hr
        · exact ⟨rfl, host, by simp, hl⟩
        · exact hmore r hr
    · rcases List.mem_cons.1 hh' with rfl | hh'
      · exact h.kept _ _ ((hins.owns hl _).2 (Or.inr ⟨rfl, rfl⟩))
      · exact h.owned h' hh'
    · exact h.kept v x ((hins.owns hl x).2 (Or.inl hv))

/-- The loop registers a prefix of the request, the whole of it if it ends well. -/
theorem claimHosts_registered (u : Int) (cap : Option Int) :
    ∀ (hosts : List String) (io : Nat → HostIo) (db : Db),
    ∃ done rest, hosts = done ++ rest ∧
      Registered ctx.domain u done db (ctx.claimHosts u cap io db hosts).2 ∧
      ((ctx.claimHosts u cap io db hosts).1 = .ok () → rest = [])
  | [], io, db => ⟨[], [], rfl, .nil .., fun _ => rfl⟩
  | host :: rest, io, db => by
    have heff := claimHost_effect ctx (io 0) db u host cap
    unfold SessionCtx.claimHosts
    rcases hone : ctx.claimHost (io 0) db u host cap with ⟨why | _, mid⟩
    · rw [hone] at heff
      cases heff
      exact ⟨[], host :: rest, rfl, .nil .., fun h => nomatch h⟩
    · rw [hone] at heff
      obtain ⟨done, rest', hsplit, hreg, hok⟩ := claimHosts_registered u cap rest (fun i => io (i + 1)) mid
      exact ⟨host :: done, rest', by rw [hsplit]; rfl, hreg.cons heff, hok⟩

/-- A new row is counted against the cap before it is inserted. -/
theorem HostEffect.countOwned {domain : String} {db db' : Db} {u m : Int} {host : String}
    {cap : Option Int} {res : Except Refusal Unit} (h : HostEffect domain db u host cap res db')
    (hm : m ∈ cap) : db'.countOwned u ≤ max (db.countOwned u) m := by
  cases h with
  | already | refused => exact le_max_left _ _
  | inserted hl hins hcap =>
    have h1 : db'.countOwned u = db.countOwned u + 1 := by rw [hins.countOwned, if_pos rfl]
    have h2 := hcap m hm
    omega

theorem claimHosts_countOwned (u : Int) {m : Int} {cap : Option Int} (hm : m ∈ cap) :
    ∀ (hosts : List String) (io : Nat → HostIo) (db : Db),
    (ctx.claimHosts u cap io db hosts).2.countOwned u ≤ max (db.countOwned u) m
  | [], io, db => le_max_left _ _
  | host :: rest, io, db => by
    have hone := (claimHost_effect ctx (io 0) db u host cap).countOwned hm
    unfold SessionCtx.claimHosts
    rcases hrun : ctx.claimHost (io 0) db u host cap with ⟨why | _, mid⟩
    · rw [hrun] at hone
      exact hone
    · rw [hrun] at hone
      have hrest := claimHosts_countOwned u hm rest (fun i => io (i + 1)) mid
      dsimp only at hone hrest ⊢
      omega

/-! ## The whole handler -/

/-- How a run of `handle_claim` on the lowercased request can end. -/
inductive ClaimRun (ctx : SessionCtx) (io : ClaimIo) (relay : Relay) (handle : SessionHandle)
    (user : AuthedUser) (hosts : List String) (ports : List UInt16) :
    ControlFrame × Notices × Relay → Prop where
  | refused (why : Refusal) {relay' : Relay} {done rest : List String} (hsplit : hosts = done ++ rest)
      (hrouter : relay'.router = relay.router)
      (hreg : Registered ctx.domain user.userId done relay.db relay'.db) :
      ClaimRun ctx io relay handle user hosts ports (why.frame, [], relay')
  | granted (notices : Notices) {relay' : Relay}
      (hports : ∀ port ∈ ports, (∃ manager, ctx.tcp = some manager ∧ manager.inRange port = true) ∧
        relay.db.hasPort user.userId port = true ∧ port ∈ relay'.bound)
      (hrouter : relay'.router = relay.router.claim handle hosts ports)
      (hreg : Registered ctx.domain user.userId hosts relay.db relay'.db) :
      ClaimRun ctx io relay handle user hosts ports (.granted hosts ports, notices, relay')

variable {ctx} in
/-- A refusal before the hostname loop. -/
theorem ClaimRun.early {io : ClaimIo} {relay relay' : Relay} {handle : SessionHandle}
    {user : AuthedUser} {hosts : List String} {ports : List UInt16} (why : Refusal)
    (h : relay'.toLive = relay.toLive) :
    ClaimRun ctx io relay handle user hosts ports (why.frame, [], relay') :=
  .refused why (List.nil_append hosts).symm (by rw [h]) (by rw [h]; exact .nil ..)

theorem handleClaim_run (ctx : SessionCtx) (io : ClaimIo) (relay : Relay) (handle : SessionHandle)
    (user : AuthedUser) (token : String) (hostnames : List String) (tcpPorts : List UInt16) :
    let res := ctx.handleClaim io relay handle user token hostnames tcpPorts
    ClaimRun ctx io relay handle user (hostnames.map toAsciiLowercase) tcpPorts res ∧
    ∀ gate ∈ ctx.polar, ∀ m,
      gate.capFor relay.cache user.name io.gate.now io.gate.capFails = .cap m →
      res.2.2.db.countOwned user.userId ≤ max (relay.db.countOwned user.userId) m := by
  intro res
  have hsame : ∀ relay' : Relay, relay'.toLive = relay.toLive → ∀ m : Int,
      relay'.db.countOwned user.userId ≤ max (relay.db.countOwned user.userId) m := by
    intro relay' h m
    rw [h]; exact le_max_left _ _
  simp only [res, SessionCtx.handleClaim]
  split
  · exact ⟨.early _ rfl, fun _ _ m _ => hsame _ rfl m⟩
  · obtain ⟨hlive, -, hports⟩ := claimPorts_spec ctx user.userId tcpPorts io.ports relay.toNet
    rcases hcp : ctx.claimPorts user.userId io.ports relay.toNet tcpPorts with ⟨why | _, net⟩
    · rw [hcp] at hlive
      exact ⟨.early why hlive, fun _ _ m _ => hsame _ hlive m⟩
    · rw [hcp] at hlive hports
      obtain ⟨hnet, hcap⟩ := claimGate_spec ctx io.gate { relay with toNet := net } user token
        (hostnames.map toAsciiLowercase) tcpPorts
      dsimp only at hcap ⊢
      rcases hcg : ctx.claimGate io.gate { relay with toNet := net } user token
        (hostnames.map toAsciiLowercase) tcpPorts with ⟨why | cap, mid⟩
      · rw [hcg] at hnet
        have hmid : mid.toLive = relay.toLive := by rw [hnet]; exact hlive
        exact ⟨.early why hmid, fun _ _ m _ => hsame _ hmid m⟩
      · rw [hcg] at hnet hcap
        have hmid : mid.toLive = relay.toLive := by rw [hnet]; exact hlive
        have hcount := fun m (hm : m ∈ cap) => claimHosts_countOwned ctx user.userId hm
          (hostnames.map toAsciiLowercase) io.hosts relay.db
        obtain ⟨done, rest, hsplit, hreg, hok⟩ := claimHosts_registered ctx user.userId cap
          (hostnames.map toAsciiLowercase) io.hosts relay.db
        have hcapped : ∀ gate ∈ ctx.polar, ∀ m,
            gate.capFor relay.cache user.name io.gate.now io.gate.capFails = .cap m →
            _ := fun gate hg m hm => hcount m (hcap cap rfl gate hg m hm)
        simp only [hmid]
        rcases hch : ctx.claimHosts user.userId cap io.hosts relay.db
          (hostnames.map toAsciiLowercase) with ⟨why | _, db⟩
        · rw [hch] at hreg hcapped
          exact ⟨.refused why hsplit rfl hreg, hcapped⟩
        · rw [hch] at hreg hcapped hok
          rw [hok rfl, List.append_nil] at hsplit
          refine ⟨.granted _ (fun port hp => ?_) rfl (hsplit ▸ hreg), hcapped⟩
          obtain ⟨hrange, hown, hbound⟩ := hports rfl port hp
          refine ⟨hrange, hown, ?_⟩
          dsimp only at hnet hbound ⊢
          rw [hnet]
          exact hbound

/-- **All or nothing for routing, within the cap for ownership.** A claim is granted: every requested
name and port is routed to this session and owned by the user, every port is in range and bound, and
no other route has changed. Or it is denied: no route has changed, and the registry has gained at most
rows of this user for a prefix of the requested names, all of which the user owns. Either way the user
ends with at most `max(before, m)` resources when a cap `m` applies. -/
theorem claim_all_or_nothing (ctx : SessionCtx) (io : ClaimIo) (relay : Relay)
    (handle : SessionHandle) (user : AuthedUser) (token : String) (hostnames : List String)
    (tcpPorts : List UInt16) :
    let hosts := hostnames.map toAsciiLowercase
    let res := ctx.handleClaim io relay handle user token hostnames tcpPorts
    let after := res.2.2
    ((res.1 = .granted hosts tcpPorts ∧
        (∀ x ∈ resources hosts tcpPorts, after.router.get x = some handle ∧
          after.db.owns ctx.domain user.userId x = true) ∧
        (∀ x, x ∉ resources hosts tcpPorts → after.router.get x = relay.router.get x) ∧
        (∀ port ∈ tcpPorts, (∃ manager, ctx.tcp = some manager ∧ manager.inRange port = true) ∧
          port ∈ after.bound)) ∨
      ((∃ code why, res.1 = .denied code why) ∧ after.router = relay.router ∧
        ∃ done rest added, hosts = done ++ rest ∧
          (∀ h ∈ done, after.db.owns ctx.domain user.userId (.host h) = true) ∧
          after.db.toTables =
            { relay.db.toTables with hostnames := relay.db.hostnames ++ added } ∧
          ∀ r ∈ added, r.userId = user.userId ∧ ∃ h ∈ done, labelOf ctx.domain h = some r.label)) ∧
    ∀ gate ∈ ctx.polar, ∀ m,
      gate.capFor relay.cache user.name io.gate.now io.gate.capFails = .cap m →
      after.db.countOwned user.userId ≤ max (relay.db.countOwned user.userId) m := by
  intro hosts res after
  obtain ⟨hrun, hcount⟩ := handleClaim_run ctx io relay handle user token hostnames tcpPorts
  refine ⟨?_, hcount⟩
  change ClaimRun ctx io relay handle user hosts tcpPorts res at hrun
  clear hcount
  simp only [after]
  clear_value res
  cases hrun with
  | refused why hsplit hrouter hreg =>
    obtain ⟨added, htab, hadded⟩ := hreg.rows
    exact Or.inr ⟨⟨why.1, why.2, rfl⟩, hrouter, _, _, added, hsplit, hreg.owned, htab, hadded⟩
  | granted notices hports hrouter hreg =>
    refine Or.inl ⟨rfl, fun x hx => ⟨?_, ?_⟩, fun x hx => ?_, fun port hp => ?_⟩
    · rw [hrouter, Router.get_claim, if_pos hx]
    · cases x with
      | host h => exact hreg.owned h (host_mem_resources.1 hx)
      | port p => exact hreg.kept _ (.port p) (hports p (port_mem_resources.1 hx)).2.1
    · rw [hrouter, Router.get_claim, if_neg hx]
    · exact ⟨(hports port hp).1, (hports port hp).2.2⟩

end EtherTunnel
