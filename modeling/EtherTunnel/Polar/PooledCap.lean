import EtherTunnel.Polar.Gate
import EtherTunnel.Registry.Isolation
import EtherTunnel.Registry.Pool

/-!
# The prune is never stricter than the claim gate

`enforce_pooled_cap` acts on two windows: it deletes past the cap pooled over `cap_prune_grace_secs`
and stops traffic past the cap pooled over `staleness_secs`, the window of the claim gate. A longer
window sees more keys, so its cap is at least as large (`pooledOver_mono`), and both are at least the
cap of the key that was just stored (`pooledOver_backed`). On the registry side a looser cut followed by
a tighter one reaches exactly what the tighter one reaches (`StableSort.mem_past_iff`).
-/

namespace EtherTunnel

open Txn StableSort

/-! ## Caps over windows -/

section caps

variable {cache : LicenseCache} {customer : String} {now c m m' window window' : Int}

theorem pooledOver_eq_cap : pooledOver cache customer now window false = .cap m ↔
    (cache.capForCustomer customer (saturatingSub now window) now).maxTunnels = some m := by
  simp only [pooledOver, Bool.false_eq_true, if_false, resolveCap]
  split
  · rename_i hrows
    refine iff_of_false (by simp) fun hmax => ?_
    obtain ⟨r, hr, hc, -⟩ := (LicenseCache.capForCustomer_max.1 hmax).1
    exact LicenseCache.capForCustomer_rows.1 hrows r hr hc
  · split <;> simp_all

/-- The row of a key that was just validated, with its mapped cap. -/
structure LicenseRow.Backs (r : LicenseRow) (customer : String) (now c : Int) : Prop where
  customer : r.customerId = customer
  granted : r.status = .granted
  cap : r.maxTunnels = some c
  stamp : r.validatedAt = now

theorem qualifyingCap_backs {r : LicenseRow} (hb : r.Backs customer now c) (hw : 0 ≤ window)
    (hnow : 0 < now) : LicenseCache.qualifyingCap (saturatingSub now window) now r = some c := by
  rw [LicenseCache.qualifyingCap_eq_some, hb.stamp]
  exact ⟨⟨hb.granted, saturatingSub_le hw hnow, le_refl now⟩, hb.cap⟩

/-- A row within the window puts a cap on its customer, no lower than its own. -/
theorem pooledOver_of_qualifying {r : LicenseRow} (hr : r ∈ cache.rows) (hc : r.customerId = customer)
    (hq : LicenseCache.qualifyingCap (saturatingSub now window) now r = some c) :
    ∃ m, pooledOver cache customer now window false = .cap m ∧ c ≤ m := by
  have hmem : c ∈ (cache.rowsOf customer).filterMap
      (LicenseCache.qualifyingCap (saturatingSub now window) now) :=
    List.mem_filterMap.2 ⟨r, LicenseCache.mem_rowsOf.2 ⟨hr, hc⟩, hq⟩
  obtain ⟨m, hm⟩ := Option.isSome_iff_exists.1 (List.isSome_max?_of_mem hmem)
  exact ⟨m, pooledOver_eq_cap.2 hm, (List.max?_eq_some_iff.1 hm).2 c hmem⟩

/-- A stored grant counts in every window. -/
theorem pooledOver_backed {r : LicenseRow} (hr : r ∈ cache.rows) (hb : r.Backs customer now c)
    (hw : 0 ≤ window) (hnow : 0 < now) :
    ∃ m, pooledOver cache customer now window false = .cap m ∧ c ≤ m :=
  pooledOver_of_qualifying hr hb.customer (qualifyingCap_backs hb hw hnow)

/-- A longer window never lowers the cap. -/
theorem pooledOver_mono (hww : window ≤ window')
    (hm : pooledOver cache customer now window false = .cap m)
    (hm' : pooledOver cache customer now window' false = .cap m') : m ≤ m' := by
  rw [pooledOver_eq_cap] at hm hm'
  obtain ⟨⟨r, hr, hc, hq⟩, -⟩ := LicenseCache.capForCustomer_max.1 hm
  refine (LicenseCache.capForCustomer_max.1 hm').2 r hr hc m ?_
  rw [LicenseCache.qualifyingCap_eq_some] at hq ⊢
  exact ⟨⟨hq.1.1, le_trans (saturatingSub_anti hww) hq.1.2.1, hq.1.2.2⟩, hq.2⟩

/-- A row that can back a cap of this customer now. Other customers' keys, revoked keys, keys without
a mapped cap and future-dated rows are not of this kind. -/
def LicenseRow.Counts (r : LicenseRow) (customer : String) (now : Int) : Prop :=
  r.customerId = customer ∧ r.status = .granted ∧ r.maxTunnels.isSome ∧ r.validatedAt ≤ now

theorem qualifyingCap_counts {r : LicenseRow} {lo : Int} (hc : r.customerId = customer)
    (hq : LicenseCache.qualifyingCap lo now r = some m) : r.Counts customer now := by
  rw [LicenseCache.qualifyingCap_eq_some] at hq
  exact ⟨hc, hq.1.1, by rw [hq.2]; rfl, hq.1.2.2⟩

theorem capForCustomer_max_of_counts {cache' : LicenseCache} {lo : Int}
    (h : ∀ r : LicenseRow, r.Counts customer now → (r ∈ cache'.rows ↔ r ∈ cache.rows))
    (hm : (cache.capForCustomer customer lo now).maxTunnels = some m) :
    (cache'.capForCustomer customer lo now).maxTunnels = some m := by
  rw [LicenseCache.capForCustomer_max] at hm ⊢
  obtain ⟨⟨r, hr, hc, hq⟩, hle⟩ := hm
  refine ⟨⟨r, (h r (qualifyingCap_counts hc hq)).2 hr, hc, hq⟩, fun r' hr' hc' m' hq' => ?_⟩
  exact hle r' ((h r' (qualifyingCap_counts hc' hq')).1 hr') hc' m' hq'

end caps

/-! ## The two passes -/

section passes

variable {domain : String} {live : Live} {u cap : Int}

/-- The routing table after tearing down the routes of some entries. -/
def TornDown (domain : String) (es : List PoolEntry) (router router' : Router) : Prop :=
  ∀ x, router'.get x = if ∃ e ∈ es, e.resource domain = x then none else router.get x

theorem tornDown_overCap {db : Db} {router : Router} : TornDown domain (db.pastCap u cap) router
    (tearDownRoutes domain router (db.overCap u cap).1 (db.overCap u cap).2).1 := by
  intro x
  simp only [tearDownRoutes, Router.get_evictRoutes, Db.mem_overCap]

theorem tornDown_nil {db : Db} {router : Router} (h : (db.overCap u cap).1 = [] ∧
    (db.overCap u cap).2 = []) : TornDown domain (db.pastCap u cap) router router := by
  intro x
  have hx : x ∈ resources ((db.overCap u cap).1.map (fqdn domain)) (db.overCap u cap).2 ↔ _ :=
    Db.mem_overCap
  rw [h.1, h.2] at hx
  rw [if_neg fun he => by simpa [resources] using hx.2 he]

variable (live u cap) in
/-- `reconcile_user_cap` deletes the rows past the cap and their routes, unless one of its statements fails. -/
theorem reconcileUserCap_if (faults : Faults) :
    (Clear faults (live.db.pruneStmts u cap) ∧
      (reconcileUserCap domain faults live u cap).1.db =
          live.db.dropOwned u (live.db.overCap u cap).1 (live.db.overCap u cap).2 ∧
        TornDown domain (live.db.pastCap u cap) live.router
          (reconcileUserCap domain faults live u cap).1.router) ∨
      (¬ Clear faults (live.db.pruneStmts u cap) ∧ (reconcileUserCap domain faults live u cap).1 = live) := by
  have heff := post_run (pruneOwnedToCap_effect live.db u cap) faults
  have htakes := ends_run (@pruneOwnedToCap_takes live.db u cap) faults
  unfold reconcileUserCap
  rcases hrun : run faults (pruneOwnedToCap u cap) live.db with ⟨res, db⟩
  rw [hrun] at heff htakes
  rcases heff with ⟨⟨e, rfl⟩, rfl⟩ | ⟨rfl, rfl⟩
  · refine Or.inr ⟨fun hclear => ?_, rfl⟩
    obtain ⟨a, ha⟩ := htakes.2 hclear
    cases ha
  · refine Or.inl ⟨htakes.1 ⟨_, rfl⟩, ?_⟩
    dsimp only
    split
    · rename_i hnil
      exact ⟨rfl, tornDown_nil hnil⟩
    · exact ⟨rfl, tornDown_overCap⟩

variable (live u cap) in
theorem reconcileUserCap_effect (faults : Faults) :
    (reconcileUserCap domain faults live u cap).1 = live ∨
      ((reconcileUserCap domain faults live u cap).1.db =
          live.db.dropOwned u (live.db.overCap u cap).1 (live.db.overCap u cap).2 ∧
        TornDown domain (live.db.pastCap u cap) live.router
          (reconcileUserCap domain faults live u cap).1.router) :=
  (reconcileUserCap_if live u cap faults).symm.imp And.right And.right

variable (live u cap) in
theorem reconcileUserCap_run :
    (reconcileUserCap domain [] live u cap).1.db =
        live.db.dropOwned u (live.db.overCap u cap).1 (live.db.overCap u cap).2 ∧
      TornDown domain (live.db.pastCap u cap) live.router
        (reconcileUserCap domain [] live u cap).1.router :=
  ((reconcileUserCap_if live u cap []).resolve_right fun h => h.1 (clear_nil _)).2

variable (live u cap) in
/-- `evict_over_cap` stops the routes past the cap, unless one of its two queries fails. -/
theorem evictOverCap_if (faults : Faults) :
    (Clear faults 2 ∧ (evictOverCap domain faults live u cap).1.db = live.db ∧
      TornDown domain (live.db.pastCap u cap) live.router (evictOverCap domain faults live u cap).1.router) ∨
    (¬ Clear faults 2 ∧ (evictOverCap domain faults live u cap).1 = live) := by
  have heff := post_run (ownedOverCap_effect live.db u cap) faults
  have htakes := ends_run (@ownedOverCap_takes live.db u cap) faults
  unfold evictOverCap
  rcases hrun : run faults (ownedOverCap u cap) live.db with ⟨res, db⟩
  rw [hrun] at heff htakes
  rcases heff with ⟨⟨e, rfl⟩ | rfl, rfl⟩
  · refine Or.inr ⟨fun hclear => ?_, rfl⟩
    obtain ⟨a, ha⟩ := htakes.2 hclear
    cases ha
  · refine Or.inl ⟨htakes.1 ⟨_, rfl⟩, ?_⟩
    dsimp only
    split
    · rename_i hnil
      exact ⟨rfl, tornDown_nil hnil⟩
    · exact ⟨rfl, tornDown_overCap⟩

variable (live u cap) in
theorem evictOverCap_effect (faults : Faults) :
    (evictOverCap domain faults live u cap).1.db = live.db ∧
      ((evictOverCap domain faults live u cap).1.router = live.router ∨
        TornDown domain (live.db.pastCap u cap) live.router
          (evictOverCap domain faults live u cap).1.router) := by
  rcases @evictOverCap_if domain live u cap faults with ⟨-, hdb, ht⟩ | ⟨-, h⟩
  · exact ⟨hdb, Or.inr ht⟩
  · rw [h]
    exact ⟨rfl, Or.inl rfl⟩

theorem evictOverCap_run : TornDown domain (live.db.pastCap u cap) live.router
    (evictOverCap domain [] live u cap).1.router :=
  ((evictOverCap_if live u cap []).resolve_right fun h => h.1 (clear_nil _)).2.2

end passes

/-! ## Both passes together -/

section enforce

variable {domain : String} {db db' : Db} {router router' router'' : Router} {u pooled m : Int}

/-- What the first pass left of the registry: everything, or everything within the pooled cap. -/
def Pruned (u pooled : Int) (db db' : Db) : Prop :=
  db' = db ∨ db' = db.dropOwned u (db.overCap u pooled).1 (db.overCap u pooled).2

/-- The second pass reaches nothing but entries past the live cap. -/
theorem pastCap_of_pruned (hle : m ≤ pooled) (hp : Pruned u pooled db db') {e : PoolEntry}
    (he : e ∈ db'.pastCap u m) : e ∈ db.pastCap u m := by
  rcases hp with rfl | rfl
  · exact he
  · exact (Db.mem_pastCap_iff hle).2 (Or.inr he)

theorem resource_within_ne_past {e e' : PoolEntry} (he : e ∈ db.withinCap u m)
    (he' : e' ∈ db.pastCap u m) : e'.resource domain ≠ e.resource domain := fun h =>
  first_past_disjoint Db.pool_res_nodup he he' (PoolEntry.resource_inj h).symm

/-- The rows within the live cap survive the first pass. -/
theorem within_kept (hle : m ≤ pooled) (hp : Pruned u pooled db db') {e : PoolEntry}
    (he : e ∈ db.withinCap u m) : e ∈ db'.pool u := by
  have hmem : e ∈ db.pool u := mem_of_mem_first _ he
  rcases hp with rfl | rfl
  · exact hmem
  · rw [Db.pool_dropOwned, List.mem_filter]
    refine ⟨hmem, ?_⟩
    simp only [List.mem_map, not_exists, not_and, decide_eq_true_eq]
    intro e' he' hres
    exact first_past_disjoint Db.pool_res_nodup he ((Db.mem_pastCap_iff hle).2 (Or.inl he')) hres.symm

/-- What the first pass deletes is past the live cap. -/
theorem deleted_past (hle : m ≤ pooled) (hp : Pruned u pooled db db') {e : PoolEntry}
    (he : e ∈ db.pool u) (hgone : e ∉ db'.pool u) : e ∈ db.pastCap u m := by
  rcases hp with rfl | rfl
  · exact absurd he hgone
  · rw [Db.pool_dropOwned, List.mem_filter] at hgone
    have hres : e.res ∈ (db.pastCap u pooled).map (·.res) := by
      by_contra hn
      exact hgone ⟨he, by simpa using hn⟩
    obtain ⟨e', he', hee⟩ := List.mem_map.1 hres
    have : e' = e := List.inj_on_of_nodup_map Db.pool_res_nodup (mem_of_mem_past _ he') he hee
    exact (Db.mem_pastCap_iff hle).2 (Or.inl (this ▸ he'))

/-- A route whose name is not among the torn-down entries stays. -/
theorem TornDown.get_of_notMem {es : List PoolEntry} (h : TornDown domain es router router')
    {x : Resource} (hx : ∀ e ∈ es, e.resource domain ≠ x) : router'.get x = router.get x := by
  rw [h x, if_neg]
  rintro ⟨e, he, hex⟩
  exact hx e he hex

theorem TornDown.get_of_mem {es : List PoolEntry} (h : TornDown domain es router router')
    {e : PoolEntry} (he : e ∈ es) : router'.get (e.resource domain) = none := by
  rw [h, if_pos ⟨e, he, rfl⟩]

theorem TornDown.get_none {es : List PoolEntry} (h : TornDown domain es router router')
    {x : Resource} (hx : router.get x = none) : router'.get x = none := by
  rw [h x]; split <;> simp [hx]

end enforce

section main

variable {gate : PolarGate} {cache : LicenseCache} {domain customer : String} {db : Db}
  {router : Router} {u c now m pooled : Int}

/-- One pass of the gate: it acts on a cap and on no other decision. -/
def PassOf (decision : CapDecision) (act : Int → Live) (before after : Live) : Prop :=
  (∃ cap, decision = .cap cap ∧ after = act cap) ∨ (∀ cap, decision ≠ .cap cap) ∧ after = before

theorem PassOf.of_cap {decision : CapDecision} {act : Int → Live} {before after : Live} {cap : Int}
    (h : PassOf decision act before after) (hcap : decision = .cap cap) : after = act cap := by
  rcases h with ⟨cap', hcap', rfl⟩ | ⟨hno, -⟩
  · rw [hcap, CapDecision.cap.injEq] at hcap'
    rw [hcap']
  · exact absurd hcap (hno cap)

/-- A failed read skips the pass. -/
theorem PassOf.of_read {window : Int} {fails : Bool} {act : Int → Live} {before after : Live} {cap : Int}
    (h : PassOf (pooledOver cache customer now window fails) act before after)
    (hcap : pooledOver cache customer now window false = .cap cap) :
    after = before ∨ after = act cap := by
  cases fails with
  | false => exact .inr (h.of_cap hcap)
  | true =>
    rcases h with ⟨cap', hcap', -⟩ | ⟨-, rfl⟩
    · cases hcap'
    · exact .inl rfl

theorem enforcePooledCap_passes (gate : PolarGate) (cache : LicenseCache) (domain : String)
    (io : EnforceIo) (live : Live) (user : AuthedUser) (cap now : Int) :
    ∃ mid,
      PassOf (pooledOver cache user.name now gate.policy.capPruneGraceSecs io.graceFails)
        (fun pooled => (reconcileUserCap domain io.prune live user.userId (max pooled cap)).1) live mid ∧
      PassOf (pooledOver cache user.name now gate.policy.stalenessSecs io.liveFails)
        (fun liveCap => (evictOverCap domain io.evict mid user.userId (max liveCap cap)).1) mid
        (gate.enforcePooledCap io cache domain live user cap now).1 := by
  unfold PolarGate.enforcePooledCap
  cases pooledOver cache user.name now gate.policy.capPruneGraceSecs io.graceFails with
  | cap pooled =>
    refine ⟨_, .inl ⟨pooled, rfl, rfl⟩, ?_⟩
    cases pooledOver cache user.name now gate.policy.stalenessSecs io.liveFails with
    | cap liveCap => exact .inl ⟨liveCap, rfl, rfl⟩
    | _ => exact .inr ⟨by simp, rfl⟩
  | _ =>
    refine ⟨live, .inr ⟨by simp, rfl⟩, ?_⟩
    cases pooledOver cache user.name now gate.policy.stalenessSecs io.liveFails with
    | cap liveCap => exact .inl ⟨liveCap, rfl, rfl⟩
    | _ => exact .inr ⟨by simp, rfl⟩

section reach

variable (gate : PolarGate) (io : EnforceIo) (cache : LicenseCache) (db : Db) (user : AuthedUser) (cap now : Int)

/-- What the first pass deletes: the rows past the cap pooled over the longer window, unless the read of that
cap or one of the statements fails. -/
def PolarGate.deletes : List PoolEntry :=
  match pooledOver cache user.name now gate.policy.capPruneGraceSecs io.graceFails with
  | .cap pooled =>
    if Clear io.prune (db.pruneStmts user.userId (max pooled cap)) then
      db.pastCap user.userId (max pooled cap)
    else []
  | _ => []

/-- What the second pass stops: the rows past the cap pooled over the window of the claim gate, unless a read
fails. -/
def PolarGate.stops : List PoolEntry :=
  match pooledOver cache user.name now gate.policy.stalenessSecs io.liveFails with
  | .cap liveCap => if Clear io.evict 2 then db.pastCap user.userId (max liveCap cap) else []
  | _ => []

variable {gate io cache db user cap now}

theorem pooledOver_reads {customer : String} {window m : Int} {fails : Bool}
    (h : pooledOver cache customer now window fails = .cap m) :
    pooledOver cache customer now window false = .cap m := by
  cases fails with
  | false => exact h
  | true => cases h

theorem TornDown.trans {es es' : List PoolEntry} {router router' router'' : Router} {domain : String}
    (h : TornDown domain es router router') (h' : TornDown domain es' router' router'') :
    TornDown domain (es ++ es') router router'' := by
  intro x
  rw [h' x, h x]
  by_cases hx' : ∃ e ∈ es', e.resource domain = x
  · obtain ⟨e, he, hex⟩ := hx'
    rw [if_pos ⟨e, he, hex⟩, if_pos ⟨e, List.mem_append_right _ he, hex⟩]
  · rw [if_neg hx']
    by_cases hx : ∃ e ∈ es, e.resource domain = x
    · obtain ⟨e, he, hex⟩ := hx
      rw [if_pos ⟨e, he, hex⟩, if_pos ⟨e, List.mem_append_left _ he, hex⟩]
    · rw [if_neg hx, if_neg]
      rintro ⟨e, he, hex⟩
      exact (List.mem_append.1 he).elim (fun he => hx ⟨e, he, hex⟩) fun he => hx' ⟨e, he, hex⟩

theorem TornDown.refl {domain : String} {router : Router} : TornDown domain [] router router := by
  intro x
  rw [if_neg (by rintro ⟨e, he, -⟩; cases he)]

theorem TornDown.congr {es es' : List PoolEntry} {router router' : Router} {domain : String}
    (h : TornDown domain es router router') (hes : ∀ e, e ∈ es ↔ e ∈ es') : TornDown domain es' router router' := by
  intro x
  simp only [h x, hes]

variable {domain : String} {live mid after : Live}

theorem deletes_pass (h : PassOf (pooledOver cache user.name now gate.policy.capPruneGraceSecs io.graceFails)
    (fun pooled => (reconcileUserCap domain io.prune live user.userId (max pooled cap)).1) live mid) :
    (∃ pooled, pooledOver cache user.name now gate.policy.capPruneGraceSecs false = .cap pooled ∧
      gate.deletes io cache live.db user cap now = live.db.pastCap user.userId (max pooled cap) ∧
      mid.db = live.db.dropOwned user.userId (live.db.overCap user.userId (max pooled cap)).1
        (live.db.overCap user.userId (max pooled cap)).2 ∧
      TornDown domain (live.db.pastCap user.userId (max pooled cap)) live.router mid.router) ∨
    (gate.deletes io cache live.db user cap now = [] ∧ mid = live) := by
  unfold PolarGate.deletes
  rcases h with ⟨pooled, hcap, rfl⟩ | ⟨hno, rfl⟩
  · rw [hcap]
    rcases @reconcileUserCap_if domain live user.userId (max pooled cap) io.prune
      with ⟨hclear, hdb, ht⟩ | ⟨hclear, hmid⟩
    · exact .inl ⟨pooled, pooledOver_reads hcap, if_pos hclear, hdb, ht⟩
    · exact .inr ⟨if_neg hclear, hmid⟩
  · refine .inr ⟨?_, rfl⟩
    split
    · exact absurd ‹_› (hno _)
    · rfl

theorem stops_pass (h : PassOf (pooledOver cache user.name now gate.policy.stalenessSecs io.liveFails)
    (fun liveCap => (evictOverCap domain io.evict mid user.userId (max liveCap cap)).1) mid after) (db : Db) :
    (∃ liveCap, pooledOver cache user.name now gate.policy.stalenessSecs false = .cap liveCap ∧
      gate.stops io cache db user cap now = db.pastCap user.userId (max liveCap cap) ∧ after.db = mid.db ∧
      TornDown domain (mid.db.pastCap user.userId (max liveCap cap)) mid.router after.router) ∨
    (gate.stops io cache db user cap now = [] ∧ after = mid) := by
  unfold PolarGate.stops
  rcases h with ⟨liveCap, hcap, rfl⟩ | ⟨hno, rfl⟩
  · rw [hcap]
    rcases @evictOverCap_if domain mid user.userId (max liveCap cap) io.evict
      with ⟨hclear, hdb, ht⟩ | ⟨hclear, hafter⟩
    · exact .inl ⟨liveCap, pooledOver_reads hcap, if_pos hclear, hdb, ht⟩
    · exact .inr ⟨if_neg hclear, hafter⟩
  · refine .inr ⟨?_, rfl⟩
    split
    · exact absurd ‹_› (hno _)
    · rfl

variable (gate io cache user cap now domain live) in
/-- **What `enforce_pooled_cap` does**, in terms of the registry before it: the routes of both lists go, and the
rows of the first. -/
theorem enforcePooledCap_reach :
    TornDown domain (gate.deletes io cache live.db user cap now ++ gate.stops io cache live.db user cap now)
      live.router (gate.enforcePooledCap io cache domain live user cap now).1.router ∧
    ∀ d v x, (gate.enforcePooledCap io cache domain live user cap now).1.db.owns d v x = true ↔
      live.db.owns d v x = true ∧
        ¬ (v = user.userId ∧ ∃ e ∈ gate.deletes io cache live.db user cap now, e.resource d = x) := by
  obtain ⟨mid, hprune, hevict⟩ := enforcePooledCap_passes gate cache domain io live user cap now
  generalize (gate.enforcePooledCap io cache domain live user cap now).1 = after at hevict ⊢
  have hnone : ∀ {d : String} {x : Resource}, ¬ ∃ e ∈ ([] : List PoolEntry), e.resource d = x := by
    rintro d x ⟨e, he, -⟩
    cases he
  rcases deletes_pass hprune with ⟨pooled, hpooled, hdel, hdb, ht⟩ | ⟨hdel, rfl⟩
  · rw [hdel]
    have howns : ∀ d v x, mid.db.owns d v x = true ↔ live.db.owns d v x = true ∧
        ¬ (v = user.userId ∧ ∃ e ∈ live.db.pastCap user.userId (max pooled cap), e.resource d = x) := by
      intro d v x
      rw [hdb, Db.dropOwned_owns, Db.mem_overCap]
    rcases stops_pass hevict live.db with ⟨liveCap, hlive, hstop, hafter, ht'⟩ | ⟨hstop, rfl⟩
    · -- the cut at the smaller cap continues the cut at the larger one
      have hle : max liveCap cap ≤ max pooled cap :=
        max_le_max_right cap (pooledOver_mono gate.clamped hlive hpooled)
      rw [hstop, hafter]
      refine ⟨(ht.trans ht').congr fun e => ?_, howns⟩
      rw [List.mem_append, List.mem_append, hdb, ← Db.mem_pastCap_iff hle]
      exact ⟨.inr, fun h => h.elim (fun he => (Db.mem_pastCap_iff hle).2 (.inl he)) id⟩
    · rw [hstop, List.append_nil]
      exact ⟨ht, howns⟩
  · rw [hdel, List.nil_append]
    rcases stops_pass hevict mid.db with ⟨liveCap, hlive, hstop, hafter, ht'⟩ | ⟨hstop, rfl⟩
    · rw [hstop, hafter]
      exact ⟨ht', fun d v x => ⟨fun h => ⟨h, fun hn => hnone hn.2⟩, And.left⟩⟩
    · rw [hstop]
      exact ⟨.refl, fun d v x => ⟨fun h => ⟨h, fun hn => hnone hn.2⟩, And.left⟩⟩

end reach

variable (domain db router u) in
/-- The gate's two passes, given the two pooled caps. -/
theorem enforcePooledCap_spec (io : EnforceIo)
    (hlive : pooledOver cache customer now gate.policy.stalenessSecs false = .cap m)
    (hgrace : pooledOver cache customer now gate.policy.capPruneGraceSecs false = .cap pooled)
    (hcm : c ≤ m) (hmp : m ≤ pooled) :
    let after := (gate.enforcePooledCap io cache domain ⟨db, router⟩ ⟨u, customer⟩ c now).1
    (∀ e ∈ db.withinCap u m, e ∈ after.db.pool u ∧
      after.router.get (e.resource domain) = router.get (e.resource domain)) ∧
    (∀ e ∈ db.pool u, e ∉ after.db.pool u → e ∈ db.pastCap u m) ∧
    (io = {} → ∀ e ∈ db.pastCap u m, after.router.get (e.resource domain) = none) := by
  intro after
  have hmc : max m c = m := max_eq_left hcm
  have hpc : max pooled c = pooled := max_eq_left (le_trans hcm hmp)
  obtain ⟨mid, hprune, hevict⟩ :=
    enforcePooledCap_passes gate cache domain io ⟨db, router⟩ ⟨u, customer⟩ c now
  -- the first pass
  have h1 : mid = ⟨db, router⟩ ∨
      (mid.db = db.dropOwned u (db.overCap u pooled).1 (db.overCap u pooled).2 ∧
        TornDown domain (db.pastCap u pooled) router mid.router) := by
    rcases hprune.of_read hgrace with hmid | hmid
    · exact Or.inl hmid
    · rw [hmid]
      simp only [hpc]
      exact reconcileUserCap_effect ⟨db, router⟩ u pooled io.prune
  have hpr : Pruned u pooled db mid.db := by
    rcases h1 with rfl | h1
    · exact Or.inl rfl
    · exact Or.inr h1.1
  -- the second pass
  have h2 : after.db = mid.db ∧
      (after.router = mid.router ∨ TornDown domain (mid.db.pastCap u m) mid.router after.router) := by
    rcases hevict.of_read hlive with hafter | hafter
    · rw [show after = mid from hafter]
      exact ⟨rfl, Or.inl rfl⟩
    · rw [show after = _ from hafter]
      simp only [hmc]
      exact evictOverCap_effect mid u m io.evict
  refine ⟨fun e he => ⟨?_, ?_⟩, fun e he hgone => ?_, fun hio e he => ?_⟩
  · rw [h2.1]
    exact within_kept hmp hpr he
  · have hmidget : mid.router.get (e.resource domain) = router.get (e.resource domain) := by
      rcases h1 with rfl | ⟨-, ht⟩
      · rfl
      · exact ht.get_of_notMem fun e' he' =>
          resource_within_ne_past he ((Db.mem_pastCap_iff hmp).2 (Or.inl he'))
    rcases h2.2 with h | ht
    · rw [h, hmidget]
    · rw [ht.get_of_notMem fun e' he' => resource_within_ne_past he (pastCap_of_pruned hmp hpr he'),
        hmidget]
  · rw [h2.1] at hgone
    exact deleted_past hmp hpr he hgone
  · subst hio
    have h1' : mid.db = db.dropOwned u (db.overCap u pooled).1 (db.overCap u pooled).2 ∧
        TornDown domain (db.pastCap u pooled) router mid.router := by
      rw [hprune.of_cap hgrace]
      simp only [hpc]
      exact reconcileUserCap_run ⟨db, router⟩ u pooled
    have h2' : TornDown domain (mid.db.pastCap u m) mid.router after.router := by
      rw [show after = _ from hevict.of_cap hlive]
      simp only [hmc]
      exact evictOverCap_run
    rcases (Db.mem_pastCap_iff hmp).1 he with hp | hl
    · exact h2'.get_none (h1'.2.get_of_mem hp)
    · rw [← h1'.1] at hl
      exact h2'.get_of_mem hl

/-- The two caps, hence the whole action, depend only on the rows that count. -/
theorem enforcePooledCap_congr {cache' : LicenseCache} (io : EnforceIo)
    (h : ∀ r : LicenseRow, r.Counts customer now → (r ∈ cache'.rows ↔ r ∈ cache.rows))
    (hlive : pooledOver cache customer now gate.policy.stalenessSecs false = .cap m)
    (hgrace : pooledOver cache customer now gate.policy.capPruneGraceSecs false = .cap pooled)
    (live : Live) :
    gate.enforcePooledCap io cache' domain live ⟨u, customer⟩ c now =
      gate.enforcePooledCap io cache domain live ⟨u, customer⟩ c now := by
  have hfail : ∀ window, pooledOver cache' customer now window true =
      pooledOver cache customer now window true := fun _ => rfl
  have hl' : pooledOver cache' customer now gate.policy.stalenessSecs false = .cap m :=
    pooledOver_eq_cap.2 (capForCustomer_max_of_counts h (pooledOver_eq_cap.1 hlive))
  have hg' : pooledOver cache' customer now gate.policy.capPruneGraceSecs false = .cap pooled :=
    pooledOver_eq_cap.2 (capForCustomer_max_of_counts h (pooledOver_eq_cap.1 hgrace))
  unfold PolarGate.enforcePooledCap
  cases io.graceFails <;> cases io.liveFails <;> simp only [hfail, hl', hg', hlive, hgrace]

end main

/-- The row a mapped grant stores backs its customer, whatever row it overwrote. -/
theorem upsert_backs (cache : LicenseCache) (policy : PolarPolicy) (keyHash : List UInt8)
    (customer : String) (now : Int) {benefit : String} {c : Int}
    (hmap : policy.benefits.lookup benefit = some c) :
    ∃ r ∈ (cache.upsert (policy.grantedRow keyHash now customer benefit)).rows,
      r.Backs customer now c := by
  have hget : (cache.upsert (policy.grantedRow keyHash now customer benefit)).get keyHash = _ :=
    LicenseCache.get_upsert
  rw [if_pos (show keyHash = (policy.grantedRow keyHash now customer benefit).keyHash from rfl)] at hget
  refine ⟨_, (LicenseCache.get_eq_some.1 hget).1, ?_⟩
  split <;> exact ⟨rfl, rfl, hmap, rfl⟩

theorem new_policy (policy : PolarPolicy) (sha : String → List UInt8) (domain : Option String) :
    (PolarGate.new policy sha domain).policy.stalenessSecs = policy.stalenessSecs ∧
      (PolarGate.new policy sha domain).policy.benefits = policy.benefits := by
  unfold PolarGate.new; split <;> exact ⟨rfl, rfl⟩

/-- **The destructive prune is never stricter than the claim gate.** Right after a grant with the mapped
cap `c` is stored, the claim gate answers some cap `m ≥ c`. Whatever storage fails,
`enforce_pooled_cap` neither deletes nor stops any of the customer's `max(m, 0)` oldest resources, and
deletes nothing that is not past `m`. Without storage failures nothing past `m` stays routed. Rows of
other customers, revoked keys, unmapped keys and future-dated rows change nothing. -/
theorem prune_within_gate (policy : PolarPolicy) (sha : String → List UInt8)
    (domain customer benefit : String) (keyHash : List UInt8) (cache₀ : LicenseCache) (db : Db)
    (router : Router) (u c now : Int) (hstale : 0 ≤ policy.stalenessSecs) (hnow : 0 < now)
    (hmap : policy.benefits.lookup benefit = some c) :
    let gate := PolarGate.new policy sha (some domain)
    let cache := cache₀.upsert (gate.policy.grantedRow keyHash now customer benefit)
    let enforce (io : EnforceIo) (cache : LicenseCache) : Live :=
      (gate.enforcePooledCap io cache domain ⟨db, router⟩ ⟨u, customer⟩ c now).1
    ∃ m, gate.capFor cache customer now false = .cap m ∧ c ≤ m ∧
      (∀ io, (∀ e ∈ db.withinCap u m, e ∈ (enforce io cache).db.pool u ∧
          (enforce io cache).router.get (e.resource domain) = router.get (e.resource domain)) ∧
        ∀ e ∈ db.pool u, e ∉ (enforce io cache).db.pool u → e ∈ db.pastCap u m) ∧
      (∀ e ∈ db.pastCap u m, (enforce {} cache).router.get (e.resource domain) = none) ∧
      (∀ cache' : LicenseCache,
        (∀ r : LicenseRow, r.Counts customer now → (r ∈ cache'.rows ↔ r ∈ cache.rows)) →
        ∀ io, enforce io cache' = enforce io cache) := by
  intro gate cache enforce
  obtain ⟨hst, hben⟩ := new_policy policy sha (some domain)
  have hst0 : 0 ≤ gate.policy.stalenessSecs := by rw [hst]; exact hstale
  obtain ⟨r, hr, hb⟩ := upsert_backs cache₀ gate.policy keyHash customer now
    (show gate.policy.benefits.lookup benefit = some c by rw [hben]; exact hmap)
  obtain ⟨m, hm, hcm⟩ := pooledOver_backed hr hb hst0 hnow
  obtain ⟨pooled, hp, -⟩ := pooledOver_backed hr hb (le_trans hst0 gate.clamped) hnow
  have hmp : m ≤ pooled := pooledOver_mono gate.clamped hm hp
  have hspec := fun io => enforcePooledCap_spec domain db router u io hm hp hcm hmp
  refine ⟨m, ?_, hcm, fun io => ⟨(hspec io).1, (hspec io).2.1⟩, (hspec {}).2.2 rfl,
    fun cache' hc io => ?_⟩
  · rw [PolarGate.capFor, if_neg (by omega)]
    exact hm
  · exact congrArg Prod.fst (enforcePooledCap_congr io hc hm hp ⟨db, router⟩)

/-- `ann` owns `a`, `b`, `c` in that order and serves all three. -/
def threeTunnels : Live where
  db := [Mutation.addUser 0 "ann", .claimLabelCapped 1 1 "a" none, .claimLabelCapped 2 1 "b" none,
    .claimLabelCapped 3 1 "c" none].foldl (fun db m => m.exec [] db) Db.empty
  router := Router.empty.claim ⟨1, 1⟩ ["a.d.io", "b.d.io", "c.d.io"] []

/-- With a cap of two, the newest of three tunnels goes and the two oldest stay served. -/
theorem prune_within_gate_three :
    let gate := PolarGate.new soloPolicy (fun _ => [0]) (some "d.io")
    let cache := LicenseCache.empty.upsert (gate.policy.grantedRow [0] 500 "ann" "solo")
    let after := (gate.enforcePooledCap {} cache "d.io" threeTunnels ⟨1, "ann"⟩ 2 500).1
    gate.capFor cache "ann" 500 false = .cap 2 ∧
      after.db.countOwned 1 = 2 ∧
      after.router.get (.host "a.d.io") = some ⟨1, 1⟩ ∧ after.router.get (.host "c.d.io") = none := by
  have h := prune_within_gate soloPolicy (fun _ => [0]) "d.io" "ann" "solo" [0] LicenseCache.empty
    threeTunnels.db threeTunnels.router 1 2 500 (by decide) (by decide) (by decide)
  obtain ⟨m, hm, -, hkeep, hgone, -⟩ := h
  have hm2 : m = 2 := by
    have h2 : (PolarGate.new soloPolicy (fun _ => [0]) (some "d.io")).capFor
      (LicenseCache.empty.upsert ((PolarGate.new soloPolicy (fun _ => [0])
        (some "d.io")).policy.grantedRow [0] 500 "ann" "solo")) "ann" 500 false = .cap 2 := by decide
    exact CapDecision.cap.inj (hm.symm.trans h2)
  subst hm2
  refine ⟨hm, by decide, ?_, ?_⟩
  · exact ((hkeep {}).1 ⟨1, 1, .host "a"⟩ (by decide)).2.trans (by decide)
  · exact hgone ⟨3, 3, .host "c"⟩ (by decide)

end EtherTunnel
