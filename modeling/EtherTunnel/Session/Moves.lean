import EtherTunnel.Session.Steps

/-!
# What a step of a session can do

`SessMove` lists everything the safety arguments need to know of one step: what it does to the registry
(`DbMove`), to the routing table (`RouterMove`), and to what the session holds in flight.
`sessStep_move` shows that every step is such a move, by one lemma per kind of step; later proofs do not
unfold `sessStep`, except for which claims a step lets past the count (`sessStep_admits`).
-/

namespace EtherTunnel

open Threads Txn

/-- What a step of a session does to the registry. -/
inductive DbMove (ctx : SessionCtx) (net : Net) (sess : Sess) (act : SessAct) (sess' : Sess) :
    Db → Prop where
  | same : DbMove ctx net sess act sess' net.db
  | registers {u : Int} {host l : String} {ports : List UInt16} {cap : Option Int}
      {done todo : List String} {io : HostIo} {db' : Db} (huser : sess.user = some u)
      (htask : sess.task = .claimHosts ports cap done (host :: todo)) (hact : act = .host io)
      (hl : labelOf ctx.domain host = some l) (hins : net.db.Inserted db' u l)
      (hnext : sess'.listing = none) : DbMove ctx net sess act sess' db'
  | drops {u : Int} {xs : List Resource} {ls : List String} {ps : List UInt16}
      (hdel : ctx.deleting net sess act = some (u, xs))
      (hsub : ∀ x ∈ resources (ls.map (fqdn ctx.domain)) ps, x ∈ xs)
      (hpend : ∀ x ∈ resources (ls.map (fqdn ctx.domain)) ps, x ∈ sess'.pending) :
      DbMove ctx net sess act sess' (net.db.dropOwned u ls ps)

/-- What a step of session `i` does to the routing table. -/
inductive RouterMove (i : Nat) (net : Net) (sess : Sess) (act : SessAct) : Router → Prop where
  | same : RouterMove i net sess act net.router
  | routes {u : Int} {hosts : List String} {ports : List UInt16} (huser : sess.user = some u)
      (htask : sess.task = .route hosts ports) (hact : act = .route) :
      RouterMove i net sess act (net.router.claim ⟨i, u⟩ hosts ports)
  | evicts {u : Int} {hosts : List String} {ports : List UInt16} {after : After}
      (htask : sess.task = .evict u hosts ports after) (hact : act = .evict) :
      RouterMove i net sess act (net.router.evictRoutes hosts ports)
  | tears (hact : act = .teardown) (htorn : sess.torn = false) :
      RouterMove i net sess act (net.router.removeSession i)

/-- What a step of session `i` can do. -/
structure SessMove (ctx : SessionCtx) (i : Nat) (net : Net) (sess : Sess) (act : SessAct) (net' : Net)
    (sess' : Sess) : Prop where
  /-- The user is fixed once the handshake is over. -/
  user : sess'.user = sess.user ∨ sess.user = none ∧ sess'.checked = []
  torn : sess'.torn = sess.torn ∨ sess'.torn = true ∧ net'.router = net.router.removeSession i
  /-- A resource newly checked is the user's. -/
  checked : ∀ x ∈ sess'.checked,
    x ∈ sess.checked ∨ ∃ u, sess.user = some u ∧ net'.db.owns ctx.domain u x = true
  /-- A resource newly listed for eviction was nobody else's, or was routed to this session. -/
  listed : ∀ u x, sess'.Lists u x → sess.Lists u x ∨
    (∀ v, net.db.owns ctx.domain v x = true → v = u) ∨
    sess.user = some u ∧ (net.router.get x).map (·.sessionId) = some i
  /-- A pending resource stays pending until it is no longer routed. -/
  pending : ∀ x ∈ sess.pending, x ∈ sess'.pending ∨ net'.router.get x = none
  db : DbMove ctx net sess act sess' net'.db
  router : RouterMove i net sess act net'.router

section moves

variable {ctx : SessionCtx} {i : Nat} {net net' : Net} {sess sess' : Sess} {act : SessAct} {u : Int}

/-- Nothing is in flight after a step, and the session is the same one. -/
structure Calm (sess sess' : Sess) : Prop where
  user : sess'.user = sess.user ∨ sess.user = none ∧ sess'.checked = []
  torn : sess'.torn = sess.torn
  checked : sess'.checked = []
  pending : sess'.pending = []
  listing : sess'.listing = none

theorem calm_authed (sess : Sess) (u : Int) : Calm sess (sess.authed u) := by
  unfold Sess.authed
  split
  · rename_i h
    exact ⟨Or.inr ⟨h, rfl⟩, rfl, rfl, rfl, rfl⟩
  · split <;> exact ⟨Or.inl rfl, rfl, rfl, rfl, rfl⟩

theorem calm_afterEvict (sess : Sess) (u : Int) (after : After) :
    Calm sess (sess.afterEvict u after) := by
  cases after with
  | authed => exact calm_authed sess u
  | enforce | released | revoked => exact ⟨Or.inl rfl, rfl, rfl, rfl, rfl⟩

/-- A task with nothing in flight. -/
theorem calm_goto (sess : Sess) {task : Task} (hc : (sess.goto task).checked = [])
    (hp : (sess.goto task).pending = []) (hl : (sess.goto task).listing = none) :
    Calm sess (sess.goto task) :=
  ⟨Or.inl rfl, rfl, hc, hp, hl⟩

/-- A step into a calm state that leaves the registry and the router alone. -/
theorem Calm.move (h : Calm sess sess') (hlive : net'.toLive = net.toLive)
    (hpend : sess.pending = []) : SessMove ctx i net sess act net' sess' where
  user := h.user
  torn := Or.inl h.torn
  checked := by rw [h.checked]; simp
  listed := by rintro v x ⟨p, hp, -⟩; rw [h.listing] at hp; cases hp
  pending := by rw [hpend]; simp
  db := by rw [hlive]; exact .same
  router := by rw [hlive]; exact .same

/-- A step of a claim that leaves the registry and the router alone. -/
theorem move_claim {task : Task} (hlive : net'.toLive = net.toLive)
    (hchk : ∀ x ∈ (sess.goto task).checked,
      x ∈ sess.checked ∨ ∃ u, sess.user = some u ∧ net.db.owns ctx.domain u x = true)
    (hlist : (sess.goto task).listing = none) (hpend : sess.pending = []) :
    SessMove ctx i net sess act net' (sess.goto task) where
  user := Or.inl rfl
  torn := Or.inl rfl
  checked := by rw [hlive]; exact hchk
  listed := by rintro v x ⟨p, hp, -⟩; rw [hlist] at hp; cases hp
  pending := by rw [hpend]; simp
  db := by rw [hlive]; exact .same
  router := by rw [hlive]; exact .same

/-- A step that starts or continues a listing and leaves the registry and the router alone. -/
theorem move_list (hlive : net'.toLive = net.toLive)
    (huser : sess'.user = sess.user ∨ sess.user = none ∧ sess'.checked = [])
    (htorn : sess'.torn = sess.torn) (hchk : sess'.checked = [])
    (hlist : ∀ u x, sess'.Lists u x → sess.Lists u x ∨
      (∀ v, net.db.owns ctx.domain v x = true → v = u) ∨
      sess.user = some u ∧ (net.router.get x).map (·.sessionId) = some i)
    (hpend : ∀ x ∈ sess.pending, x ∈ sess'.pending) :
    SessMove ctx i net sess act net' sess' where
  user := huser
  torn := Or.inl htorn
  checked := by rw [hchk]; simp
  listed := hlist
  pending := fun x hx => Or.inl (hpend x hx)
  db := by rw [hlive]; exact .same
  router := by rw [hlive]; exact .same

/-! ### Evictions -/

/-- On the way to an eviction for `u`: only what is listed is in flight. -/
structure Evicting (sess sess' : Sess) (u : Int) (xs : List Resource) : Prop where
  user : sess'.user = sess.user ∨ sess.user = none ∧ sess'.checked = []
  torn : sess'.torn = sess.torn
  checked : sess'.checked = []
  pending : ∀ x ∈ xs, x ∈ sess'.pending
  listed : ∀ v x, sess'.Lists v x → v = u ∧ x ∈ xs

theorem evicting_spec (sess : Sess) (u : Int) (hosts : List String) (ports : List UInt16)
    (after : After) : Evicting sess (sess.evicting u hosts ports after) u (resources hosts ports) := by
  unfold Sess.evicting
  split
  · rename_i hnil
    have h := calm_afterEvict sess u after
    refine ⟨h.user, h.torn, h.checked, by simp [hnil, resources], ?_⟩
    rintro v x ⟨p, hp, -⟩
    rw [h.listing] at hp; cases hp
  · refine ⟨Or.inl rfl, rfl, rfl, fun x hx => hx, ?_⟩
    rintro v x ⟨p, hp, rfl, hx⟩
    cases hp
    exact ⟨rfl, hx⟩

/-- The rows past a cap are the user's own. -/
theorem overCap_owner {db : Db} {cap : Int} {x : Resource} {v : Int} {domain : String}
    (hx : x ∈ resources ((db.overCap u cap).1.map (fqdn domain)) (db.overCap u cap).2)
    (hv : db.owns domain v x = true) : v = u := by
  obtain ⟨e, he, rfl⟩ := Db.mem_overCap.1 hx
  exact Db.pool_owner (StableSort.mem_of_mem_past _ he) hv

/-! ### Registry steps -/

section tasks

variable {torn : Bool} {user : Option Int} {faults : Faults}

/-- `prune_owned_to_cap`: what it deleted is now on the way to its eviction. -/
theorem move_prune {cap : Int} {live : Option Int} {labels : List String} {ports : List UInt16} {db : Db}
    (hrun : run faults (pruneOwnedToCap u cap) net.db = (.ok (labels, ports), db)) :
    SessMove ctx i net ⟨torn, user, .prune u (some cap) live⟩ (.store faults) { net with db := db }
      (Sess.evicting ⟨torn, user, .prune u (some cap) live⟩ u (labels.map (fqdn ctx.domain)) ports
        (.enforce live)) := by
  have heff := post_run (pruneOwnedToCap_effect net.db u cap) faults
  rw [hrun] at heff
  rcases heff with ⟨⟨e, he⟩, -⟩ | ⟨hok, hdb⟩
  · cases he
  · dsimp only at hok hdb
    have hcut : net.db.overCap u cap = (labels, ports) := (Except.ok.inj hok).symm
    obtain rfl : labels = (net.db.overCap u cap).1 := by rw [hcut]
    obtain rfl : ports = (net.db.overCap u cap).2 := by rw [hcut]
    subst hdb
    have hev := evicting_spec ⟨torn, user, .prune u (some cap) live⟩ u
      ((net.db.overCap u cap).1.map (fqdn ctx.domain)) (net.db.overCap u cap).2 (.enforce live)
    have hdel : ctx.deleting net ⟨torn, user, .prune u (some cap) live⟩ (.store faults) = some (u,
        resources ((net.db.overCap u cap).1.map (fqdn ctx.domain)) (net.db.overCap u cap).2) := by
      cases user <;> rfl
    refine ⟨hev.user, Or.inl hev.torn, by rw [hev.checked]; simp, ?_, nofun,
      .drops hdel (fun x hx => hx) hev.pending, .same⟩
    intro v x hx
    obtain ⟨rfl, hx⟩ := hev.listed v x hx
    exact Or.inr (Or.inl fun w hw => overCap_owner hx hw)

/-- `owned_over_cap`. -/
theorem move_overCap {cap : Int} {labels : List String} {ports : List UInt16} {db : Db}
    (hrun : run faults (ownedOverCap u cap) net.db = (.ok (labels, ports), db)) :
    SessMove ctx i net ⟨torn, user, .overCap u (some cap)⟩ (.store faults) { net with db := db }
      (Sess.evicting ⟨torn, user, .overCap u (some cap)⟩ u (labels.map (fqdn ctx.domain)) ports
        .authed) := by
  have heff := post_run (ownedOverCap_effect net.db u cap) faults
  rw [hrun] at heff
  obtain ⟨⟨e, he⟩ | hok, hdb⟩ := heff
  · cases he
  · dsimp only at hok hdb
    have hcut : net.db.overCap u cap = (labels, ports) := (Except.ok.inj hok).symm
    obtain rfl : labels = (net.db.overCap u cap).1 := by rw [hcut]
    obtain rfl : ports = (net.db.overCap u cap).2 := by rw [hcut]
    subst hdb
    have hev := evicting_spec ⟨torn, user, .overCap u (some cap)⟩ u
      ((net.db.overCap u cap).1.map (fqdn ctx.domain)) (net.db.overCap u cap).2 .authed
    refine move_list rfl hev.user hev.torn hev.checked ?_ nofun
    intro v x hx
    obtain ⟨rfl, hx⟩ := hev.listed v x hx
    exact Or.inr (Or.inl fun w hw => overCap_owner hx hw)

/-- `claim_hostname`, answered `Owned`. -/
theorem move_host {ports : List UInt16} {cap : Option Int} {done todo : List String} {host : String}
    {io : HostIo} {db : Db} (hrun : ctx.claimHost io net.db u host cap = (.ok (), db)) :
    SessMove ctx i net ⟨torn, some u, .claimHosts ports cap done (host :: todo)⟩ (.host io)
      { net with db := db } ⟨torn, some u, .claimHosts ports cap (done ++ [host]) todo⟩ := by
  have heff := claimHost_effect ctx io net.db u host cap
  rw [hrun] at heff
  dsimp only at heff
  have hmove : db.owns ctx.domain u (.host host) = true →
      DbMove ctx net ⟨torn, some u, .claimHosts ports cap done (host :: todo)⟩ (.host io)
        ⟨torn, some u, .claimHosts ports cap (done ++ [host]) todo⟩ db →
      SessMove ctx i net ⟨torn, some u, .claimHosts ports cap done (host :: todo)⟩ (.host io)
        { net with db := db } ⟨torn, some u, .claimHosts ports cap (done ++ [host]) todo⟩ := by
    intro hown hdb
    refine ⟨Or.inl rfl, Or.inl rfl, ?_, ?_, nofun, hdb, .same⟩
    · intro x hx
      cases x with
      | host h =>
        rcases List.mem_append.1 (host_mem_resources.1 hx) with hd | hd
        · exact Or.inl (host_mem_resources.2 hd)
        · rw [List.mem_singleton.1 hd]
          exact Or.inr ⟨u, rfl, hown⟩
      | port p => exact Or.inl (port_mem_resources.2 (port_mem_resources.1 hx))
    · rintro v x ⟨p, hp, -⟩; cases hp
  cases heff with
  | already hl hown => exact hmove (Db.owns_host_iff.2 ⟨_, hl, hown⟩) .same
  | inserted hl hins hcap =>
    exact hmove ((hins.owns hl _).2 (Or.inr ⟨rfl, rfl⟩)) (.registers rfl rfl rfl hl hins rfl)

/-- A `DELETE` of `handle_release` that found its row. -/
theorem move_drop {x : Resource} {ls : List String} {ps : List UInt16} {task : Task}
    (hdel : ctx.deleting net sess (.drop faults) = some (u, [x]))
    (hres : resources (ls.map (fqdn ctx.domain)) ps = [x])
    (hown : net.db.owns ctx.domain u x = true) (hchk : (sess.goto task).checked = [])
    (hpend : ∀ y, y ∈ (sess.goto task).pending ↔ y ∈ sess.pending ∨ y = x)
    (hlist : sess.listing = some (u, sess.pending))
    (hlist' : (sess.goto task).listing = some (u, (sess.goto task).pending)) :
    SessMove ctx i net sess (.drop faults) { net with db := net.db.dropOwned u ls ps }
      (sess.goto task) where
  user := Or.inl rfl
  torn := Or.inl rfl
  checked := by rw [hchk]; simp
  listed := by
    rintro v y ⟨p, hp, rfl, hy⟩
    rw [hlist', Option.mem_def, Option.some.injEq] at hp
    subst hp
    rcases (hpend y).1 hy with hy | rfl
    · exact Or.inl ⟨_, hlist, rfl, hy⟩
    · exact Or.inr (Or.inl fun w hw => Db.owns_unique hw hown)
  pending := fun y hy => Or.inl ((hpend y).2 (Or.inl hy))
  db := .drops hdel (by rw [hres]; exact fun y hy => hy) fun y hy => by
    rw [hres] at hy
    exact (hpend y).2 (Or.inr (List.mem_singleton.1 hy))
  router := .same

theorem move_dropHost {ports : List UInt16} {host : String} {todo released : List String} :
    SessMove ctx i net ⟨torn, some u, .releaseHosts ports (host :: todo) released⟩ (.drop faults)
      { net with db := (Registry.releaseHostname faults net.db ctx.domain u host).2 }
      (Sess.goto ⟨torn, some u, .releaseHosts ports (host :: todo) released⟩ (.releaseHosts ports todo
        (if (Registry.releaseHostname faults net.db ctx.domain u host).1 then released ++ [host]
          else released))) := by
  rcases releaseHostname_effect net.db u faults ctx.domain host with h | ⟨l, hl, hown, h⟩
  · rw [h]
    exact move_list rfl (Or.inl rfl) rfl rfl (fun _ _ hx => Or.inl hx) fun _ hx => hx
  · rw [h]
    refine move_drop (x := .host host) rfl ?_ (Db.owns_host_iff.2 ⟨l, hl, hown⟩) rfl ?_ rfl rfl
    · rw [List.map_singleton, ← (labelOf_eq_some.1 hl).1]; rfl
    · intro y
      cases y <;> simp [Sess.pending, Sess.goto]

theorem move_dropPort {port : UInt16} {todo released : List UInt16} {hosts : List String} :
    SessMove ctx i net ⟨torn, some u, .releasePorts (port :: todo) hosts released⟩ (.drop faults)
      { net with db := (Registry.releasePort faults net.db u port).2 }
      (Sess.goto ⟨torn, some u, .releasePorts (port :: todo) hosts released⟩ (.releasePorts todo hosts
        (if (Registry.releasePort faults net.db u port).1 then released ++ [port] else released))) := by
  rcases releasePort_effect net.db u faults port with h | ⟨hown, h⟩
  · rw [h]
    exact move_list rfl (Or.inl rfl) rfl rfl (fun _ _ hx => Or.inl hx) fun _ hx => hx
  · rw [h]
    refine move_drop (x := .port port) rfl rfl hown rfl ?_ rfl rfl
    intro y
    cases y <;> simp [Sess.pending, Sess.goto]

/-! ### Router steps -/

theorem move_evict {hosts : List String} {ports : List UInt16} {after : After} :
    SessMove ctx i net ⟨torn, user, .evict u hosts ports after⟩ .evict
      { net with router := net.router.evictRoutes hosts ports }
      (Sess.afterEvict ⟨torn, user, .evict u hosts ports after⟩ u after) := by
  have h := calm_afterEvict ⟨torn, user, .evict u hosts ports after⟩ u after
  refine ⟨h.user, Or.inl h.torn, by rw [h.checked]; simp, ?_, ?_, .same, .evicts rfl rfl⟩
  · rintro v x ⟨p, hp, -⟩
    rw [h.listing] at hp; cases hp
  · intro x hx
    have hmem : x ∈ resources hosts ports := hx
    exact Or.inr (by simp [hmem])

theorem move_route {hosts : List String} {ports : List UInt16} :
    SessMove ctx i net ⟨torn, some u, .route hosts ports⟩ .route
      { net with router := net.router.claim ⟨i, u⟩ hosts ports } ⟨torn, some u, .idle⟩ := by
  refine ⟨Or.inl rfl, Or.inl rfl, nofun, ?_, nofun, .same, .routes rfl rfl rfl⟩
  rintro v x ⟨p, hp, -⟩
  cases hp

theorem move_teardown (h : sess.torn = false) :
    SessMove ctx i net sess .teardown { net with router := net.router.removeSession i }
      { sess with torn := true } :=
  ⟨Or.inl rfl, Or.inr ⟨rfl, rfl⟩, fun _ hx => Or.inl hx, fun _ _ hx => Or.inl hx,
    fun _ hx => Or.inl hx, .same, .tears rfl h⟩

/-! ### Claims and ticks -/

theorem move_check {hosts : List String} {done todo : List UInt16} {port : UInt16}
    (hok : ctx.checkPort faults net.db u port = .ok ()) :
    SessMove ctx i net ⟨torn, some u, .claimPorts hosts done (port :: todo)⟩ (.check faults) net
      (Sess.goto ⟨torn, some u, .claimPorts hosts done (port :: todo)⟩
        (.claimBind hosts done port todo)) := by
  refine move_claim rfl ?_ rfl rfl
  intro x hx
  cases x with
  | host h => simp [Sess.checked, Sess.goto] at hx
  | port p =>
    rcases List.mem_append.1 (port_mem_resources.1 hx) with hp | hp
    · exact Or.inl (port_mem_resources.2 hp)
    · rw [List.mem_singleton.1 hp]
      exact Or.inr ⟨u, rfl, (checkPort_ok hok).2⟩

theorem move_routes {order : List String} (horder : order.toFinset = net.router.hostnamesOf i) :
    SessMove ctx i net ⟨torn, some u, .routes⟩ (.routes order) net ⟨torn, some u, .recheck order []⟩ := by
  refine move_list rfl (Or.inl rfl) rfl rfl ?_ nofun
  rintro v x ⟨p, hp, rfl, hx⟩
  cases hp
  refine Or.inr (Or.inr ⟨rfl, ?_⟩)
  cases x with
  | host h =>
    rw [← Router.mem_hostnamesOf, ← horder, List.mem_toFinset]
    simpa using hx
  | port p => simp at hx

theorem move_recheck {host : String} {todo revoked revoked' : List String}
    (hsub : ∀ h ∈ revoked', h = host ∨ h ∈ revoked) :
    SessMove ctx i net ⟨torn, some u, .recheck (host :: todo) revoked⟩ (.check faults) net
      ⟨torn, some u, .recheck todo revoked'⟩ := by
  refine move_list rfl (Or.inl rfl) rfl rfl ?_ nofun
  rintro v x ⟨p, hp, rfl, hx⟩
  cases hp
  refine Or.inl ⟨(u, resources (host :: todo ++ revoked) []), rfl, rfl, ?_⟩
  cases x with
  | host h =>
    simp only [host_mem_resources, List.mem_append, List.mem_cons] at hx ⊢
    rcases hx with hx | hx
    · exact Or.inl (Or.inr hx)
    · rcases hsub h hx with rfl | hx
      · exact Or.inl (Or.inl rfl)
      · exact Or.inr hx
  | port p => simp at hx

end tasks

/-- From a finished list to its eviction. -/
theorem move_evicting {hosts : List String} {ports : List UInt16} {after : After}
    (hlist : ∀ x ∈ resources hosts ports, sess.Lists u x)
    (hpend : ∀ x ∈ sess.pending, x ∈ resources hosts ports) :
    SessMove ctx i net sess .next net (sess.evicting u hosts ports after) := by
  have hev := evicting_spec sess u hosts ports after
  refine move_list rfl hev.user hev.torn hev.checked ?_ (fun x hx => hev.pending x (hpend x hx))
  intro v x hx
  obtain ⟨hv, hmem⟩ := hev.listed v x hx
  exact Or.inl (hv ▸ hlist x hmem)

theorem move_next (huser : sess.user = some u) (h : sess.next u = some sess') :
    SessMove ctx i net sess .next net sess' := by
  obtain ⟨torn, user, task⟩ := sess
  dsimp only at huser
  subst huser
  unfold Sess.next at h
  dsimp only at h
  split at h
  · cases h
    exact move_claim rfl (fun x hx => Or.inl hx) rfl rfl
  · cases h
    exact move_claim rfl (fun x hx => Or.inl hx) rfl rfl
  · cases h
    refine move_list rfl (Or.inl rfl) rfl rfl (fun v x hx => Or.inl hx) fun x hx => hx
  · cases h
    exact move_evicting (fun x hx => ⟨_, rfl, rfl, hx⟩) (fun x hx => hx)
  · cases h
    exact move_evicting (fun x hx => ⟨_, rfl, rfl, hx⟩) (by simp [Sess.pending])
  · cases h

/-! ## The step inversion -/

/-- A step that only moves the program counter, to a place with nothing in flight. -/
theorem move_goto {task : Task} (hp : sess.pending = [])
    (hc : (sess.goto task).checked = []) (hp' : (sess.goto task).pending = [])
    (hl : (sess.goto task).listing = none) : SessMove ctx i net sess act net (sess.goto task) :=
  (calm_goto sess hc hp' hl).move rfl hp

theorem move_auth {who : Option Int} {caps : Option (Option Int × Option Int)}
    (hp : sess.pending = [])
    (h : (match who, caps with
      | none, _ => some (net, sess.goto .done)
      | some u, none => some (net, sess.authed u)
      | some u, some (pooled, live) => some (net, sess.goto (.prune u pooled live))) =
      some (net', sess')) :
    SessMove ctx i net sess (.auth who caps) net' sess' := by
  split at h
  · cases h; exact move_goto hp rfl rfl rfl
  · cases h; exact (calm_authed sess _).move rfl hp
  · cases h; exact move_goto hp rfl rfl rfl

/-- **What a step can do.** -/
theorem sessStep_move (h : ctx.sessStep i net sess act = some (net', sess')) :
    SessMove ctx i net sess act net' sess' := by
  obtain ⟨torn, user, task⟩ := sess
  unfold SessionCtx.sessStep at h
  dsimp only at h
  split at h
  · -- `teardown`
    split at h
    · cases h
    · rename_i htorn
      cases h
      exact move_teardown (by simpa using htorn)
  · exact move_auth rfl h
  · exact move_auth rfl h
  · -- `prune`
    rename_i u cap live faults
    split at h
    · rename_i e db hrun
      cases h
      have heff := post_run (pruneOwnedToCap_effect net.db u cap) faults
      rw [hrun] at heff
      rcases heff with ⟨-, rfl⟩ | ⟨he, -⟩
      · exact move_goto rfl rfl rfl rfl
      · cases he
    · rename_i labels ports db hrun
      cases h
      exact move_prune hrun
  · cases h; exact move_goto rfl rfl rfl rfl
  · -- `overCap`
    rename_i u cap faults
    split at h
    · rename_i e db hrun
      cases h
      have heff := post_run (ownedOverCap_effect net.db u cap) faults
      rw [hrun] at heff
      obtain rfl : db = net.db := heff.2
      exact (calm_authed _ u).move rfl rfl
    · rename_i labels ports db hrun
      cases h
      exact move_overCap hrun
  · cases h; exact (calm_authed _ _).move rfl rfl
  · cases h; exact move_evict
  · -- `claim`
    split at h
    · cases h; exact Calm.move ⟨Or.inl rfl, rfl, rfl, rfl, rfl⟩ rfl rfl
    · cases h; exact move_goto rfl rfl rfl rfl
  · split at h
    · cases h; exact move_goto rfl rfl rfl rfl
    · rename_i hok
      cases h
      exact move_check hok
  · split at h
    · cases h; exact (calm_goto _ rfl rfl rfl).move rfl rfl
    · cases h; exact move_claim rfl (fun x hx => Or.inl hx) rfl rfl
  · split at h
    · cases h; exact move_goto rfl rfl rfl rfl
    · cases h; exact move_claim rfl (fun x hx => Or.inl hx) rfl rfl
    · split at h
      · cases h; exact move_goto rfl rfl rfl rfl
      · cases h; exact move_claim rfl (fun x hx => Or.inl hx) rfl rfl
  · -- `host`
    rename_i u ports cap done host todo io
    split at h
    · rename_i e db hrun
      cases h
      have heff := claimHost_effect ctx io net.db u host cap
      rw [hrun] at heff
      cases heff
      exact move_goto rfl rfl rfl rfl
    · rename_i db hrun
      cases h
      exact move_host hrun
  · cases h; exact move_route
  · -- `release`
    split at h
    · cases h; exact Calm.move ⟨Or.inl rfl, rfl, rfl, rfl, rfl⟩ rfl rfl
    · cases h
      exact move_list rfl (Or.inl rfl) rfl rfl (by rintro v x ⟨p, hp, -, hx⟩; cases hp; cases hx)
        (by simp [Sess.pending])
  · cases h; exact move_dropHost
  · cases h; exact move_dropPort
  · -- the tick
    split at h
    · rename_i horder
      cases h
      exact move_routes horder.2
    · cases h
  · cases h
    refine move_recheck fun h hh => ?_
    split at hh
    · exact Or.inr hh
    · rcases List.mem_append.1 hh with hh | hh
      · exact Or.inr hh
      · exact Or.inl (List.mem_singleton.1 hh)
  · rename_i stop
    cases h
    cases stop <;> exact move_goto rfl rfl rfl rfl
  · obtain ⟨sess'', hnext, hs⟩ := Option.map_eq_some_iff.1 h
    cases hs
    exact move_next rfl hnext
  · cases h; exact move_goto rfl rfl rfl rfl
  · cases h; exact move_goto rfl rfl rfl rfl
  · cases h

end moves

/-! ## Consequences -/

section consequences

variable {ctx : SessionCtx} {i : Nat} {net : Net} {sess sess' : Sess} {act : SessAct} {x : Resource}

/-- What a user owned they still own, unless this step deleted it and will evict it. -/
theorem DbMove.keeps {db' : Db} (h : DbMove ctx net sess act sess' db') {v : Int}
    (hown : net.db.owns ctx.domain v x = true) :
    db'.owns ctx.domain v x = true ∨
      x ∈ sess'.pending ∧ ∃ p ∈ ctx.deleting net sess act, p.1 = v ∧ x ∈ p.2 := by
  cases h with
  | same => exact Or.inl hown
  | registers _ _ _ hl hins _ => exact Or.inl ((hins.owns hl x).2 (Or.inl hown))
  | @drops u xs ls ps hdel hsub hpend =>
    by_cases hx : v = u ∧ x ∈ resources (ls.map (fqdn ctx.domain)) ps
    · exact Or.inr ⟨hpend x hx.2, (u, xs), hdel, hx.1.symm, hsub x hx.2⟩
    · exact Or.inl ((Db.dropOwned_owns x).2 ⟨hown, hx⟩)

/-- What a user owns they owned before, unless this step registered it for them. -/
theorem DbMove.gains {db' : Db} (h : DbMove ctx net sess act sess' db') {v : Int}
    (hown : db'.owns ctx.domain v x = true) :
    net.db.owns ctx.domain v x = true ∨
      sess.user = some v ∧ x ∈ sess.acquiring act ∧ sess'.listing = none := by
  cases h with
  | same => exact Or.inl hown
  | registers huser htask hact hl hins hnext =>
    refine ((hins.owns hl x).1 hown).imp id ?_
    rintro ⟨rfl, rfl⟩
    refine ⟨huser, ?_, hnext⟩
    unfold Sess.acquiring
    rw [huser, htask, hact]
    exact List.mem_singleton.2 rfl
  | drops _ _ _ => exact Or.inl ((Db.dropOwned_owns x).1 hown).1

/-- A route was there before, or this step routed what its session had checked. -/
theorem RouterMove.origin {router' : Router} (h : RouterMove i net sess act router')
    {handle : SessionHandle} (hget : router'.get x = some handle) :
    net.router.get x = some handle ∨
      handle.sessionId = i ∧ sess.user = some handle.userId ∧ x ∈ sess.acquiring act ∧
        x ∈ sess.checked := by
  cases h with
  | same => exact Or.inl hget
  | @routes u hosts ports huser htask hact =>
    rw [Router.get_claim] at hget
    split at hget
    · rename_i hx
      cases hget
      refine Or.inr ⟨rfl, huser, ?_, ?_⟩
      · unfold Sess.acquiring; rw [huser, htask, hact]; exact hx
      · unfold Sess.checked; rw [htask]; exact hx
    · exact Or.inl hget
  | evicts htask hact =>
    rw [Router.get_evictRoutes] at hget
    split at hget
    · cases hget
    · exact Or.inl hget
  | tears _ _ => exact Or.inl ((Router.get_removeSession net.router).1 hget).1

end consequences

/-! ## The relay -/

/-- What a step of the relay can do. -/
inductive RelayMove (ctx : SessionCtx) (S : RelaySys) : RelayAct → RelaySys → Prop where
  | spawn : RelayMove ctx S .spawn { S with threads := S.threads ++ [{}] }
  | on {i : Nat} {act : SessAct} {t t' : Sess} {net' : Net} (ht : S.threads[i]? = some t)
      (hmove : SessMove ctx i S.shared t act net' t') :
      RelayMove ctx S (.on i act) ⟨net', S.threads.set i t'⟩
  | env (m : Mutation) (faults : Faults) :
      RelayMove ctx S (.env (m, faults))
        { S with shared := { S.shared with db := m.exec faults S.shared.db } }

theorem relay_move {ctx : SessionCtx} {S S' : RelaySys} {a : RelayAct}
    (h : ctx.relay S a = some S') : RelayMove ctx S a S' := by
  cases a with
  | spawn => cases h; exact .spawn
  | on i act =>
    obtain ⟨t, net', t', ht, hstep, rfl⟩ := step_on h
    exact .on ht (sessStep_move hstep)
  | env e => cases h; exact .env e.1 e.2

/-- A route's handle carries the user of the session it belongs to. -/
def Handled (S : RelaySys) : Prop :=
  ∀ x handle, S.shared.router.get x = some handle →
    ∃ t, S.threads[handle.sessionId]? = some t ∧ t.user = some handle.userId

theorem handled_start (db : Db) : Handled (RelaySys.start db) := by
  intro x handle h
  simp [RelaySys.start] at h

theorem handled_step {ctx : SessionCtx} {S S' : RelaySys} {a : RelayAct} (h : Handled S)
    (hstep : ctx.relay S a = some S') : Handled S' := by
  intro x handle hget
  cases relay_move hstep with
  | spawn =>
    obtain ⟨t, ht, hu⟩ := h x handle hget
    exact ⟨t, getElem?_spawn_old ht, hu⟩
  | env m faults => exact h x handle hget
  | @on i act t t' net' ht hmove =>
    rcases hmove.router.origin hget with hold | ⟨rfl, hu, hx, hc⟩
    · -- the users of sessions that have routes are fixed
      obtain ⟨s, hs, hu⟩ := h x handle hold
      by_cases hi : handle.sessionId = i
      · subst hi
        rw [ht, Option.some.injEq] at hs
        subst hs
        rcases hmove.user with he | ⟨hn, -⟩
        · exact ⟨t', getElem?_set_moved ht, he.trans hu⟩
        · rw [hn] at hu; cases hu
      · exact ⟨s, getElem?_set_other hi hs, hu⟩
    · rcases hmove.user with he | ⟨hn, -⟩
      · exact ⟨t', getElem?_set_moved ht, he.trans hu⟩
      · rw [hn] at hu; cases hu

end EtherTunnel
