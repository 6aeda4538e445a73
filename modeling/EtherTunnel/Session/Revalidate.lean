import EtherTunnel.Polar.PooledCap
import EtherTunnel.Registry.Prune
import EtherTunnel.Session.Handshake

/-!
# What a re-validation tick leaves routed

The tick of `control_task` (`session.rs:435-506`) is what makes a removal in another process stop live
traffic. It re-checks the credential, which for a license key may stop routes past the plan's cap
(`enforce_pooled_cap`), and then asks `owns_hostname` for every hostname of the session. Nothing asks
`owns_port`: a TCP port whose row `etun admin port remove` deleted stays routed, tick after tick.

`Covered` is a condition on the relay before the tick. For a license key the backend's answer may be a
`Renewal`; the rows past the two pooled caps are then known from the registry and the cache as they are
(`PolarGate.deletes`, `PolarGate.stops`). `tick_revalidates_iff`: the tick does what it is for just when the
session's ports are owned, no ownership query fails and the plan reaches no route that it should not.
-/

namespace EtherTunnel

/-! ## Licenses that a check renews -/

/-- A license that the backend grants, with the capacity it is mapped to. -/
structure Renewal where
  gate : PolarGate
  domain : String
  customer : String
  benefit : String
  cap : Int

namespace Renewal

variable (ren : Renewal) (io : AuthIo) (cache : LicenseCache) (key : String)

/-- The check will ask for the license and store the grant. -/
structure Due : Prop where
  remote : isLocalToken key = false
  domain : ren.gate.domain = some ren.domain
  clock : io.now ≠ 0
  /-- No fresh row answers for the backend. -/
  stale : ∀ row, io.readFails = false → cache.get (ren.gate.sha key) = some row →
    ren.gate.policy.fresh io.now row = false
  answer : io.outcome = .granted ren.customer ren.benefit
  stored : io.upsertFails = false
  mapped : ren.gate.policy.benefits.lookup ren.benefit = some ren.cap

/-- The cache with the grant in it. -/
def stores : LicenseCache :=
  cache.upsert (ren.gate.policy.grantedRow (ren.gate.sha key) io.now ren.customer ren.benefit)

variable {ren io cache key}

theorem Due.unique {ren' : Renewal} (h : ren.Due io cache key) (h' : ren'.Due io cache key)
    (hgate : ren.gate = ren'.gate) : ren = ren' := by
  obtain ⟨gate, domain, customer, benefit, cap⟩ := ren
  obtain ⟨gate', domain', customer', benefit', cap'⟩ := ren'
  obtain rfl : gate = gate' := hgate
  obtain rfl : domain = domain' := Option.some.inj (h.domain.symm.trans h'.domain)
  have hanswer := h.answer.symm.trans h'.answer
  dsimp only at hanswer
  cases hanswer
  obtain rfl : cap = cap' := Option.some.inj (h.mapped.symm.trans h'.mapped)
  rfl

end Renewal

section gate

variable {gate : PolarGate} {io : AuthIo} {cache : LicenseCache} {live : Live} {key : String}

/-- No row answers, or none that is fresh. -/
theorem stale_of_filter {fails : Bool} {row? : Option LicenseRow} {fresh : LicenseRow → Bool}
    (h : (if fails then none else row?).filter fresh = none) :
    ∀ row, fails = false → row? = some row → fresh row = false := by
  rintro row rfl rfl
  rw [if_neg Bool.false_ne_true, Option.filter_some] at h
  by_contra hfresh
  rw [if_pos (Bool.eq_true_of_not_eq_false hfresh)] at h
  cases h

/-- A grant that is stored and mapped to a capacity is enforced; another one changes nothing. -/
theorem onGranted_cases (gate : PolarGate) (io : AuthIo) (cache : LicenseCache) (live : Live) (domain : String)
    (keyHash : List UInt8) (customer benefit : String) :
    (∃ cap, io.upsertFails = false ∧ gate.policy.benefits.lookup benefit = some cap ∧
      ∀ user, (gate.onGranted io cache live domain keyHash customer benefit).user = some user →
        user.name = customer ∧ ∃ db, Holds live.db db ∧
          (gate.onGranted io cache live domain keyHash customer benefit).live =
            (gate.enforcePooledCap io.enforce
              (cache.upsert (gate.policy.grantedRow keyHash io.now customer benefit)) domain
              ⟨db, live.router⟩ user cap io.now).1) ∨
    ((io.upsertFails = true ∨ gate.policy.benefits.lookup benefit = none) ∧
      (gate.onGranted io cache live domain keyHash customer benefit).live = live) := by
  unfold PolarGate.onGranted
  split
  · rename_i hfails
    exact .inr ⟨.inl hfails, rfl⟩
  · rename_i hstored
    dsimp only [PolarPolicy.grantedRow]
    split
    · rename_i hunmapped
      exact .inr ⟨.inr hunmapped, rfl⟩
    · rename_i cap hmapped
      refine .inl ⟨cap, Bool.eq_false_iff.2 hstored, hmapped, ?_⟩
      have hholds := resolveUser_holds io.resolve live.db customer
      have hname := fun user => @resolveUser_name io.resolve live.db customer user
      generalize resolveUser io.resolve live.db customer = res at hholds hname ⊢
      obtain ⟨_ | user, db⟩ := res
      · rintro user ⟨⟩
      · rintro user' ⟨⟩
        exact ⟨(hname user rfl).1, db, hholds, rfl⟩

/-- A call of the gate brings its user under the cap of a license that is due, or leaves the holdings and the
routes as they are. -/
theorem authenticate_cases (gate : PolarGate) (io : AuthIo) (cache : LicenseCache) (live : Live) (key : String) :
    (∃ ren : Renewal, ren.gate = gate ∧ ren.Due io cache key ∧
      ∀ user, (gate.authenticate io cache live key).user = some user → user.name = ren.customer ∧
        ∃ db, Holds live.db db ∧ (gate.authenticate io cache live key).live =
          (gate.enforcePooledCap io.enforce (ren.stores io cache key) ren.domain ⟨db, live.router⟩ user ren.cap
            io.now).1) ∨
    ((∀ ren : Renewal, ren.gate = gate → ¬ ren.Due io cache key) ∧
      Holds live.db (gate.authenticate io cache live key).live.db ∧
      (gate.authenticate io cache live key).live.router = live.router) := by
  have hself : Holds live.db live.db ∧ live.router = live.router := ⟨⟨rfl, rfl⟩, rfl⟩
  unfold PolarGate.authenticate
  split
  · rename_i hlocal
    refine .inr ⟨fun ren _ hdue => ?_, hself⟩
    rw [hdue.remote] at hlocal
    cases hlocal
  · rename_i hlocal
    split
    · rename_i hdomain
      refine .inr ⟨fun ren hgate hdue => ?_, hself⟩
      have hsome := hdue.domain
      rw [hgate, hdomain] at hsome
      cases hsome
    · rename_i domain hdomain
      dsimp only
      split
      · rename_i hclock
        exact .inr ⟨fun ren _ hdue => hdue.clock hclock, hself⟩
      · rename_i hclock
        split
        · rename_i row hrow
          obtain ⟨hcached, hfresh⟩ := Option.filter_eq_some_iff.1 hrow
          obtain ⟨hreads, hget⟩ := Option.ite_none_left_eq_some.1 hcached
          refine .inr ⟨fun ren hgate hdue => ?_, ?_⟩
          · subst hgate
            rw [hdue.stale row (Bool.eq_false_iff.2 hreads) hget] at hfresh
            cases hfresh
          · split
            · exact ⟨resolveUser_holds io.resolve live.db row.customerId, rfl⟩
            · exact hself
        · rename_i hfilter
          split
          · rename_i customer benefit houtcome
            rcases onGranted_cases gate io cache live domain (gate.sha key) customer benefit with
              ⟨cap, hstored, hmapped, henforced⟩ | ⟨hno, hlive⟩
            · exact .inl ⟨⟨gate, domain, customer, benefit, cap⟩, rfl, ⟨Bool.eq_false_iff.2 hlocal, hdomain,
                hclock, stale_of_filter hfilter, houtcome, hstored, hmapped⟩, henforced⟩
            · rw [hlive]
              refine .inr ⟨fun ren hgate hdue => ?_, hself⟩
              have hanswer := hdue.answer.symm.trans houtcome
              rw [ValidateOutcome.granted.injEq] at hanswer
              have hmapped := hdue.mapped
              rw [hgate, hanswer.2] at hmapped
              rcases hno with hfails | hunmapped
              · cases hfails.symm.trans hdue.stored
              · cases hunmapped.symm.trans hmapped
          · rename_i houtcome
            refine .inr ⟨fun ren _ hdue => ?_, hself⟩
            cases houtcome.symm.trans hdue.answer
          · rename_i why houtcome
            refine .inr ⟨fun ren _ hdue => ?_, ?_⟩
            · cases houtcome.symm.trans hdue.answer
            · split
              · exact ⟨resolveUser_holds io.resolve live.db _, rfl⟩
              · exact hself

end gate

namespace Holds

variable {db db' : Db}

theorem pool (h : Holds db db') (u : Int) : db'.pool u = db.pool u := by
  rw [Db.pool, Db.pool, Db.hostEntries, Db.hostEntries, Db.portEntries, Db.portEntries, h.1, h.2]

theorem pastCap (h : Holds db db') (u cap : Int) : db'.pastCap u cap = db.pastCap u cap := by
  rw [Db.pastCap, Db.pastCap, h.pool]

theorem pruneStmts (h : Holds db db') (u cap : Int) : db'.pruneStmts u cap = db.pruneStmts u cap := by
  unfold Db.pruneStmts
  rw [h.pastCap]

theorem owns (h : Holds db db') (domain : String) (u : Int) (x : Resource) :
    db'.owns domain u x = db.owns domain u x := by
  cases x with
  | host name =>
    rw [Bool.eq_iff_iff, Db.owns_host_iff, Db.owns_host_iff]
    simp only [Db.hasLabel_iff, h.1]
  | port p => rw [Db.owns, Db.owns, Bool.eq_iff_iff, Db.hasPort_iff, Db.hasPort_iff, h.2]

theorem deletes (h : Holds db db') (gate : PolarGate) (io : EnforceIo) (cache : LicenseCache)
    (user : AuthedUser) (cap now : Int) :
    gate.deletes io cache db' user cap now = gate.deletes io cache db user cap now := by
  simp only [PolarGate.deletes, h.pruneStmts, h.pastCap]

theorem stops (h : Holds db db') (gate : PolarGate) (io : EnforceIo) (cache : LicenseCache)
    (user : AuthedUser) (cap now : Int) :
    gate.stops io cache db' user cap now = gate.stops io cache db user cap now := by
  simp only [PolarGate.stops, h.pastCap]

end Holds

theorem mem_pool_of_reach {gate : PolarGate} {io : EnforceIo} {cache : LicenseCache} {db : Db}
    {user : AuthedUser} {cap now : Int} {e : PoolEntry}
    (he : e ∈ gate.deletes io cache db user cap now ++ gate.stops io cache db user cap now) :
    e ∈ db.pool user.userId := by
  rcases List.mem_append.1 he with he | he
  · unfold PolarGate.deletes at he
    split at he
    · split at he
      · exact StableSort.mem_of_mem_past _ he
      · cases he
    · cases he
  · unfold PolarGate.stops at he
    split at he
    · split at he
      · exact StableSort.mem_of_mem_past _ he
      · cases he
    · cases he

/-! ## The tick -/

namespace ControlTask

variable (task : ControlTask) (io : TurnIo) (relay : Relay)

/-- The route is this session's. -/
def Mine (handle : SessionHandle) : Prop := handle.sessionId = task.handle.sessionId

/-- The session's user owns the resource. -/
def Owns (db : Db) (x : Resource) : Prop := db.owns task.ctx.domain task.user.userId x = true

/-- What a tick is for: whatever is still routed to the session is owned by its user, and no other
route went. -/
structure Revalidated (relay relay' : Relay) : Prop where
  owned : ∀ x handle, relay'.router.get x = some handle → task.Mine handle → task.Owns relay'.db x
  others : ∀ x handle, relay.router.get x = some handle → ¬ task.Mine handle →
    relay'.router.get x = some handle
  kept : ∀ x handle, relay.router.get x = some handle → task.Mine handle → task.Owns relay'.db x →
    relay'.router.get x = some handle

/-- The token is a license key, and the tick is about to renew the license. -/
structure Renews (ren : Renewal) : Prop where
  foreign : Registry.authenticate io.credential.faults relay.db task.hashToken task.token.expose = none
  gate : task.ctx.polar = some ren.gate
  due : ren.Due io.credential.gate relay.cache task.token.expose

/-- The user's rows past the cap pooled over the longer window, which the renewal deletes. -/
def deleted (ren : Renewal) : List PoolEntry :=
  ren.gate.deletes io.credential.gate.enforce
    (ren.stores io.credential.gate relay.cache task.token.expose) relay.db
    ⟨task.user.userId, ren.customer⟩ ren.cap io.credential.gate.now

/-- The user's rows past the cap of the claim gate, whose routes it stops. -/
def stopped (ren : Renewal) : List PoolEntry :=
  ren.gate.stops io.credential.gate.enforce
    (ren.stores io.credential.gate relay.cache task.token.expose) relay.db
    ⟨task.user.userId, ren.customer⟩ ren.cap io.credential.gate.now

/-- The plan has the resource among the rows past a cap. -/
def PlanStops (x : Resource) : Prop :=
  ∃ ren, task.Renews io relay ren ∧ ∃ e ∈ task.deleted io relay ren ++ task.stopped io relay ren,
    e.resource ren.domain = x

/-- The user owns the resource, and the plan does not take it from them. -/
def PlanLeaves (x : Resource) : Prop :=
  task.Owns relay.db x ∧
    ∀ ren, task.Renews io relay ren → ∀ e ∈ task.deleted io relay ren, e.resource task.ctx.domain ≠ x

/-- When a tick does what it is for, on the relay before it. -/
structure Covered : Prop where
  /-- The session's ports need no re-check. -/
  ports : ∀ p handle, relay.router.get (.port p) = some handle → task.Mine handle →
    task.Owns relay.db (.port p)
  /-- No ownership query about a hostname of the session that stays owned fails. -/
  queries : ∀ h handle, relay.router.get (.host h) = some handle → task.Mine handle →
    task.PlanLeaves io relay (.host h) → (io.owns h).headD none = none
  /-- The routes of rows past a cap are this session's, and of rows that are deleted. -/
  plan : ∀ x handle, relay.router.get x = some handle → task.PlanStops io relay x →
    task.Mine handle ∧ ¬ task.PlanLeaves io relay x

/-- The relay after the credential check. -/
def checked : Relay :=
  (task.ctx.authenticateAny task.hashToken io.credential relay task.token.expose).2.2

variable {task io relay} {turn : Turn}

theorem Renews.unique {ren ren' : Renewal} (h : task.Renews io relay ren) (h' : task.Renews io relay ren') :
    ren = ren' :=
  h.due.unique h'.due (Option.some.inj (h.gate.symm.trans h'.gate))

/-- A port that the plan reaches is the user's. -/
theorem owns_of_planStops {p : UInt16} (h : task.PlanStops io relay (.port p)) :
    task.Owns relay.db (.port p) := by
  obtain ⟨ren, -, e, he, hp⟩ := h
  have hpool := @mem_pool_of_reach _ _ _ _ ⟨task.user.userId, ren.customer⟩ _ _ _ he
  refine Db.port_mem_pool.1 (List.mem_map.2 ⟨e, hpool, ?_⟩)
  unfold PoolEntry.resource at hp
  cases hres : e.res with
  | host l =>
    rw [hres] at hp
    cases hp
  | port p' =>
    rw [hres] at hp
    cases hp
    rfl

/-- A port that goes with its row stops. -/
theorem planLeaves_port {p : UInt16} (hp : task.Owns relay.db (.port p))
    (h : ¬ task.PlanStops io relay (.port p)) : task.PlanLeaves io relay (.port p) := by
  refine ⟨hp, fun ren hren e he hport => h ⟨ren, hren, e, List.mem_append_left _ he, ?_⟩⟩
  unfold PoolEntry.resource at hport ⊢
  cases hres : e.res with
  | host l =>
    rw [hres] at hport
    cases hport
  | port p' =>
    rw [hres] at hport
    exact hport

/-- What the credential check does to a session that it leaves running. -/
structure Planned (task : ControlTask) (io : TurnIo) (relay mid : Relay) : Prop where
  stops : ∀ x, task.PlanStops io relay x → mid.router.get x = none
  spares : ∀ x, ¬ task.PlanStops io relay x → mid.router.get x = relay.router.get x
  owns : ∀ x, task.Owns mid.db x ↔ task.PlanLeaves io relay x

theorem planned_of_unmoved {mid : Relay} (hno : ∀ ren, ¬ task.Renews io relay ren)
    (hholds : Holds relay.db mid.db) (hrouter : mid.router = relay.router) : task.Planned io relay mid where
  stops x := by
    rintro ⟨ren, hren, -⟩
    exact absurd hren (hno ren)
  spares x _ := by rw [hrouter]
  owns x := by
    unfold PlanLeaves Owns
    rw [hholds.owns]
    exact ⟨fun h => ⟨h, fun ren hren => absurd hren (hno ren)⟩, And.left⟩

theorem planned_of_renews {ren : Renewal} {db : Db} {mid : Relay} (hren : task.Renews io relay ren)
    (hholds : Holds relay.db db)
    (hmid : mid.toLive = (ren.gate.enforcePooledCap io.credential.gate.enforce
      (ren.stores io.credential.gate relay.cache task.token.expose) ren.domain ⟨db, relay.router⟩
      ⟨task.user.userId, ren.customer⟩ ren.cap io.credential.gate.now).1) : task.Planned io relay mid := by
  obtain ⟨htorn, howns⟩ := enforcePooledCap_reach ren.gate io.credential.gate.enforce
    (ren.stores io.credential.gate relay.cache task.token.expose) ⟨task.user.userId, ren.customer⟩ ren.cap
    io.credential.gate.now ren.domain ⟨db, relay.router⟩
  rw [← hmid, hholds.deletes, hholds.stops] at htorn
  change TornDown ren.domain (task.deleted io relay ren ++ task.stopped io relay ren) relay.router mid.router
    at htorn
  rw [← hmid] at howns
  have hstops : ∀ x, task.PlanStops io relay x ↔
      ∃ e ∈ task.deleted io relay ren ++ task.stopped io relay ren, e.resource ren.domain = x := by
    intro x
    refine ⟨?_, fun h => ⟨ren, hren, h⟩⟩
    rintro ⟨ren', hren', h⟩
    obtain rfl := hren.unique hren'
    exact h
  refine ⟨fun x hx => ?_, fun x hx => ?_, fun x => ?_⟩
  · rw [htorn x, if_pos ((hstops x).1 hx)]
  · rw [htorn x, if_neg fun h => hx ((hstops x).2 h)]
  · unfold PlanLeaves Owns
    rw [howns, hholds.deletes, hholds.owns]
    refine and_congr_right fun _ => ⟨fun h ren' hren' e he hx => ?_, ?_⟩
    · obtain rfl := hren.unique hren'
      exact h ⟨rfl, e, he, hx⟩
    · rintro h ⟨-, e, he, hx⟩
      exact h ren hren e he hx

theorem planned (hwho : (task.ctx.authenticateAny task.hashToken io.credential relay
    task.token.expose).1.map (·.userId) = some task.user.userId) : task.Planned io relay (task.checked io relay) := by
  unfold checked
  unfold SessionCtx.authenticateAny at hwho ⊢
  split
  · rename_i user hlocal
    refine planned_of_unmoved (fun ren hren => ?_) ⟨rfl, rfl⟩ rfl
    rw [hren.foreign] at hlocal
    cases hlocal
  · rename_i hforeign
    rw [hforeign] at hwho
    split
    · rename_i gate hgate
      rw [hgate] at hwho
      obtain ⟨user, huser, hid⟩ := Option.map_eq_some_iff.1 hwho
      rcases authenticate_cases gate io.credential.gate relay.cache relay.toLive task.token.expose
        with ⟨ren, rfl, hdue, hlive⟩ | ⟨hno, hholds, hrouter⟩
      · obtain ⟨hname, db, hholds, hmid⟩ := hlive user huser
        obtain ⟨userId, name⟩ := user
        obtain rfl : userId = task.user.userId := hid
        obtain rfl : name = ren.customer := hname
        exact planned_of_renews ⟨hforeign, hgate, hdue⟩ hholds hmid
      · refine planned_of_unmoved (fun ren hren => hno ren ?_ hren.due) hholds hrouter
        exact Option.some.inj (hren.gate.symm.trans hgate)
    · rename_i hnone
      refine planned_of_unmoved (fun ren hren => ?_) ⟨rfl, rfl⟩ rfl
      have hsome := hren.gate
      rw [hnone] at hsome
      cases hsome

theorem evictRevoked_eq : (task.evictRevoked io relay).2 =
    { relay with router := (task.evictRevoked io relay).2.router } := by
  unfold evictRevoked
  dsimp only
  split <;> rfl

/-- The table after the second half of the tick. -/
theorem get_evictRevoked (x : Resource) : (task.evictRevoked io relay).2.router.get x =
    if x ∈ resources (task.revoked io relay) [] then none else relay.router.get x := by
  unfold evictRevoked
  dsimp only
  split
  · rename_i hnil
    rw [hnil, if_neg (by simp [resources])]
  · exact Router.get_evictRoutes ..

/-- What a tick that leaves the session running does: the credential check, then the revoked hostnames. -/
structure Rechecked (task : ControlTask) (io : TurnIo) (relay mid after : Relay) : Prop where
  planned : task.Planned io relay mid
  order : io.order.toFinset = mid.router.hostnamesOf task.handle.sessionId
  db : after.db = mid.db
  get : ∀ x, after.router.get x =
    if x ∈ resources (task.revoked io mid) [] then none else mid.router.get x

theorem rechecked_of_running (h : task.revalidateTick io relay = some turn) (hrun : turn.exit = none) :
    task.Rechecked io relay (task.checked io relay) turn.relay := by
  have hplanned := @planned task io relay
  unfold revalidateTick at h
  have hmid : (task.ctx.authenticateAny task.hashToken io.credential relay task.token.expose).2.2 =
      task.checked io relay := rfl
  generalize task.ctx.authenticateAny task.hashToken io.credential relay task.token.expose = res
    at h hmid hplanned
  obtain ⟨who, notices, mid⟩ := res
  obtain rfl : mid = task.checked io relay := hmid
  dsimp only at h hplanned
  split at h
  · rename_i hwho
    split at h
    · rename_i horder
      have hrelay : turn.relay = (task.evictRevoked io (task.checked io relay)).2 := by
        split at h
        · cases h; cases hrun
        · cases h; rfl
      refine ⟨hplanned hwho, horder.2, ?_, fun x => ?_⟩
      · rw [hrelay, evictRevoked_eq]
      · rw [hrelay, get_evictRevoked]
    · cases h
  · cases h; cases hrun

/-- A hostname goes when it is the session's and its query does not say that the user owns it. -/
theorem mem_revoked {x : Resource}
    (horder : io.order.toFinset = relay.router.hostnamesOf task.handle.sessionId) :
    x ∈ resources (task.revoked io relay) [] ↔
      ∃ h handle, x = .host h ∧ relay.router.get (.host h) = some handle ∧ task.Mine handle ∧
        ¬ (task.Owns relay.db (.host h) ∧ (io.owns h).headD none = none) := by
  have hmem : ∀ h, h ∈ io.order ↔
      ∃ handle, relay.router.get (.host h) = some handle ∧ task.Mine handle := by
    intro h
    rw [← List.mem_toFinset, horder, Router.mem_hostnamesOf, Option.map_eq_some_iff]
    rfl
  cases x with
  | host h =>
    rw [host_mem_resources, revoked, List.mem_filter, hmem, Bool.not_eq_true', ← Bool.not_eq_true,
      ownsHostname_eq_true]
    constructor
    · rintro ⟨⟨handle, hget, hmine⟩, hn⟩
      exact ⟨h, handle, rfl, hget, hmine, hn⟩
    · rintro ⟨h', handle, hx, hget, hmine, hn⟩
      cases hx
      exact ⟨⟨handle, hget, hmine⟩, hn⟩
  | port p => simp

section rechecked

variable {mid after : Relay}

/-- A route stays unless the plan stops it or it is a hostname of the session whose query does not confirm
it. -/
theorem Rechecked.stays (h : task.Rechecked io relay mid after) {x : Resource} {handle : SessionHandle}
    (hx : relay.router.get x = some handle) (hplan : ¬ task.PlanStops io relay x)
    (hq : ∀ name, x = .host name → task.Mine handle →
      task.PlanLeaves io relay (.host name) ∧ (io.owns name).headD none = none) :
    after.router.get x = some handle := by
  have hmid : mid.router.get x = some handle := (h.planned.spares x hplan).trans hx
  rw [h.get, if_neg, hmid]
  intro hrev
  obtain ⟨name, handle', rfl, hx', hmine, hn⟩ := (mem_revoked h.order).1 hrev
  rw [hmid, Option.some.injEq] at hx'
  subst hx'
  obtain ⟨hleaves, hquery⟩ := hq name rfl hmine
  exact hn ⟨(h.planned.owns _).2 hleaves, hquery⟩

theorem Rechecked.gone (h : task.Rechecked io relay mid after) {x : Resource}
    (hx : task.PlanStops io relay x) : after.router.get x = none := by
  rw [h.get]
  split
  · rfl
  · exact h.planned.stops x hx

/-- What is routed afterwards was routed before, and no plan stopped it. -/
theorem Rechecked.routed (h : task.Rechecked io relay mid after) {x : Resource} {handle : SessionHandle}
    (hx : after.router.get x = some handle) :
    relay.router.get x = some handle ∧ ¬ task.PlanStops io relay x ∧ mid.router.get x = some handle ∧
      x ∉ resources (task.revoked io mid) [] := by
  have hplan : ¬ task.PlanStops io relay x := by
    intro hplan
    rw [h.gone hplan] at hx
    cases hx
  rw [h.get] at hx
  split at hx
  · cases hx
  · exact ⟨(h.planned.spares x hplan).symm.trans hx, hplan, hx, ‹_›⟩

theorem Rechecked.covered (h : task.Rechecked io relay mid after) (hr : task.Revalidated relay after) :
    task.Covered io relay := by
  have howns : ∀ x, task.Owns after.db x ↔ task.PlanLeaves io relay x := by
    intro x
    rw [h.db]
    exact h.planned.owns x
  refine ⟨fun p handle hp hmine => ?_, fun name handle hn hmine hleaves => ?_, fun x handle hx hplan => ?_⟩
  · by_cases hplan : task.PlanStops io relay (.port p)
    · exact owns_of_planStops hplan
    · have hafter : after.router.get (.port p) = some handle := h.stays hp hplan (by simp)
      exact ((howns _).1 (hr.owned _ _ hafter hmine)).1
  · have hafter := hr.kept _ _ hn hmine ((howns _).2 hleaves)
    obtain ⟨-, -, hmid, hrev⟩ := h.routed hafter
    by_contra hfault
    exact hrev ((mem_revoked h.order).2 ⟨name, handle, rfl, hmid, hmine, fun hq => hfault hq.2⟩)
  · have hafter := h.gone hplan
    have hmine : task.Mine handle := by
      by_contra hmine
      rw [hr.others x handle hx hmine] at hafter
      cases hafter
    refine ⟨hmine, fun hleaves => ?_⟩
    rw [hr.kept x handle hx hmine ((howns x).2 hleaves)] at hafter
    cases hafter

theorem Rechecked.revalidated (h : task.Rechecked io relay mid after) (hc : task.Covered io relay) :
    task.Revalidated relay after := by
  refine ⟨fun x handle hx hmine => ?_, fun x handle hx hmine => ?_, fun x handle hx hmine howns => ?_⟩
  · obtain ⟨hbefore, hplan, hmid, hrev⟩ := h.routed hx
    rw [h.db]
    cases x with
    | host name =>
      by_contra hn
      exact hrev ((mem_revoked h.order).2 ⟨name, handle, rfl, hmid, hmine, fun hq => hn hq.1⟩)
    | port p => exact (h.planned.owns _).2 (planLeaves_port (hc.ports p handle hbefore hmine) hplan)
  · refine h.stays hx (fun hplan => hmine (hc.plan x handle hx hplan).1) ?_
    exact fun _ _ hm => absurd hm hmine
  · rw [h.db, h.planned.owns] at howns
    refine h.stays hx (fun hplan => (hc.plan x handle hx hplan).2 howns) ?_
    rintro name rfl -
    exact ⟨howns, hc.queries name handle hx hmine howns⟩

end rechecked

end ControlTask

open ControlTask in
/-- **The tick re-checks hostnames only.** For every relay and every tick that leaves its session
running, what is still routed to the session is owned and no other route went, just when on the relay before
the tick the session's ports are owned, the ownership queries of the hostnames that stay owned succeed, and
every route that a renewed plan has past its caps is the session's own and goes with its row. -/
theorem tick_revalidates_iff (task : ControlTask) (io : TurnIo) (relay : Relay) (turn : Turn)
    (htick : task.revalidateTick io relay = some turn) (hrun : turn.exit = none) :
    task.Revalidated relay turn.relay ↔ task.Covered io relay := by
  have h := rechecked_of_running htick hrun
  constructor
  · intro hr
    exact h.covered hr
  · intro hc
    exact h.revalidated hc

section examples

/-- `annTask` on a relay with TCP tunnels. -/
def annTcpTask : ControlTask := { annTask with ctx := { annTask.ctx with tcp := some ⟨(9000, 9010)⟩ } }

/-- `ann` has reserved port 9000. -/
def annReserved : Relay := { annRelay with db := (Mutation.addPort 1 9000 "ann").exec [] annProvisioned }

/-- `annReserved` after session 1 claimed `app.d.io` and 9000. -/
def annServed : Relay where
  db := (Mutation.claimLabelCapped 0 1 "app" none).exec [] annReserved.db
  router := Router.empty.claim ⟨1, 1⟩ ["app.d.io"] [9000]
  bound := {9000}
  cache := LicenseCache.empty

/-- `annServed` after a command of `etun admin`. -/
def afterAdmin (m : Mutation) : Relay := { annServed with db := m.exec [] annServed.db }

theorem tick_revalidates_iff_hostRemoved : ∃ turn,
    annTcpTask.revalidateTick { order := ["app.d.io"] } (afterAdmin (.removeHostname "app")) = some turn ∧
    turn.exit = none ∧ turn.relay.router.get (.host "app.d.io") = none ∧
    turn.relay.router.get (.port 9000) = some ⟨1, 1⟩ ∧
    annTcpTask.Revalidated (afterAdmin (.removeHostname "app")) turn.relay := by
  have hend : (annTcpTask.revalidateTick { order := ["app.d.io"] }
      (afterAdmin (.removeHostname "app"))).map (fun t =>
        (t.exit.isNone, t.relay.router.get (.host "app.d.io"), t.relay.router.get (.port 9000))) =
      some (true, none, some ⟨1, 1⟩) := by decide +kernel
  obtain ⟨turn, hturn, hproj⟩ := Option.map_eq_some_iff.1 hend
  simp only [Prod.mk.injEq, Option.isNone_iff_eq_none] at hproj
  refine ⟨turn, hturn, hproj.1, hproj.2.1, hproj.2.2, (tick_revalidates_iff _ _ _ _ hturn hproj.1).2 ?_⟩
  refine ⟨fun p handle hp _ => ?_, fun h handle _ _ _ => rfl, fun x handle hx hplan => ?_⟩
  · have hport : p = 9000 := by
      simp only [afterAdmin, annServed, Router.get_claim, port_mem_resources] at hp
      split at hp
      · rename_i hmem; simpa using hmem
      · simp at hp
    subst hport
    show Db.owns _ _ _ _ = true
    decide +kernel
  · obtain ⟨ren, hren, -⟩ := hplan
    cases hren.gate

/-- Port 9000 is claimed through `handle_claim`, `etun admin port remove 9000` deletes its row, and the
tick, which leaves the session running, leaves the port routed to it. -/
theorem removed_port_stays_routed :
    annTcpTask.ctx.handleClaim {} annReserved ⟨1, 1⟩ ⟨1, "ann"⟩ "t1" ["app.d.io"] [9000] =
      (.granted ["app.d.io"] [9000], [], annServed) ∧
    ∃ turn, annTcpTask.revalidateTick { order := ["app.d.io"] } (afterAdmin (.removePort 9000)) =
        some turn ∧
      turn.exit = none ∧ turn.relay.router.get (.port 9000) = some ⟨1, 1⟩ ∧
      turn.relay.db.hasPort 1 9000 = false ∧
      ¬ annTcpTask.Revalidated (afterAdmin (.removePort 9000)) turn.relay := by
  refine ⟨by decide +kernel, ?_⟩
  have hend : (annTcpTask.revalidateTick { order := ["app.d.io"] }
      (afterAdmin (.removePort 9000))).map (fun t =>
        (t.exit.isNone, t.relay.router.get (.port 9000), t.relay.db.hasPort 1 9000)) =
      some (true, some ⟨1, 1⟩, false) := by decide +kernel
  obtain ⟨turn, hturn, hproj⟩ := Option.map_eq_some_iff.1 hend
  simp only [Prod.mk.injEq, Option.isNone_iff_eq_none] at hproj
  refine ⟨turn, hturn, hproj.1, hproj.2.1, hproj.2.2, fun h => ?_⟩
  have howns : turn.relay.db.hasPort 1 9000 = true := h.owned (.port 9000) _ hproj.2.1 rfl
  rw [hproj.2.2] at howns
  cases howns

end examples

end EtherTunnel
