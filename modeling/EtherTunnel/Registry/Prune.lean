import EtherTunnel.Registry.Pool

/-!
# Pruning to a cap

`prune_owned_to_cap` (`registry.rs:558`) is the only delete of a tenant's rows that the tenant did not
ask for, and `owned_over_cap` (`registry.rs:596`) is its dry run. `Db.PrunedTo` is what a caller may
rely on. Everything follows from one description of the rows that go, `Db.mem_pastCap_iff`: the cut is
taken in a stable order, so a second cut continues the first.
-/

namespace EtherTunnel

open Txn StableSort

namespace Db

variable {db db' : Db} {u cap m : Int}

/-- **The contract of a prune**: `removed` is what the call reports, `db'` what it leaves. -/
structure PrunedTo (db : Db) (u cap : Int) (removed : List String × List UInt16) (db' : Db) : Prop where
  /-- Accounts and tokens are left alone. -/
  accounts : db'.users = db.users ∧ db'.tokens = db.tokens
  /-- Of the resource rows, those of `u` that are reported go and no others. -/
  hostnames : db'.hostnames = db.hostnames.filter fun r => ¬ (r.userId = u ∧ r.label ∈ removed.1)
  tcpPorts : db'.tcpPorts = db.tcpPorts.filter fun r => ¬ (r.userId = u ∧ r.port ∈ removed.2)
  /-- A report names rows of `u`, each once. -/
  once : removed.1.Nodup ∧ removed.2.Nodup
  labels : ∀ l, l ∈ removed.1 ↔ db.hasLabel u l = true ∧ db'.hasLabel u l = false
  ports : ∀ p, p ∈ removed.2 ↔ db.hasPort u p = true ∧ db'.hasPort u p = false
  size : db'.countOwned u = min (db.countOwned u) (max cap 0)
  /-- Nothing kept is newer than anything removed. -/
  oldest : ∀ kept ∈ db'.pool u, ∀ gone ∈ db.pool u, gone ∉ db'.pool u → kept.le gone

/-- The registry after a prune. -/
def pruned (db : Db) (u cap : Int) : Db := db.dropOwned u (db.overCap u cap).1 (db.overCap u cap).2

/-! ## What is reported -/

theorem host_mem_pool {l : String} : Owned.host l ∈ (db.pool u).map (·.res) ↔ db.hasLabel u l = true := by
  simp only [pool, hostEntries, portEntries, List.map_append, List.map_map, List.mem_append,
    List.mem_map, List.mem_filter, hasLabel_iff, Function.comp, beq_iff_eq]
  constructor
  · rintro (⟨r, ⟨hr, hu⟩, hl⟩ | ⟨r, -, hl⟩)
    · exact ⟨r, hr, Owned.host.inj hl, hu⟩
    · cases hl
  · rintro ⟨r, hr, rfl, hu⟩
    exact Or.inl ⟨r, ⟨hr, hu⟩, rfl⟩

theorem port_mem_pool {p : UInt16} : Owned.port p ∈ (db.pool u).map (·.res) ↔ db.hasPort u p = true := by
  simp only [pool, hostEntries, portEntries, List.map_append, List.map_map, List.mem_append,
    List.mem_map, List.mem_filter, hasPort_iff, Function.comp, beq_iff_eq]
  constructor
  · rintro (⟨r, -, hp⟩ | ⟨r, ⟨hr, hu⟩, hp⟩)
    · cases hp
    · exact ⟨r, hr, Owned.port.inj hp, hu⟩
  · rintro ⟨r, hr, rfl, hu⟩
    exact Or.inr ⟨r, ⟨hr, hu⟩, rfl⟩

theorem pastCap_res_subset {o : Owned} (h : o ∈ (db.pastCap u cap).map (·.res)) :
    o ∈ (db.pool u).map (·.res) := by
  obtain ⟨e, he, rfl⟩ := List.mem_map.1 h
  exact List.mem_map_of_mem (mem_of_mem_past _ he)

theorem overCap_label_owned {l : String} (h : l ∈ (db.overCap u cap).1) : db.hasLabel u l = true :=
  host_mem_pool.1 (pastCap_res_subset (mem_overCap_labels.1 h))

theorem overCap_port_owned {p : UInt16} (h : p ∈ (db.overCap u cap).2) : db.hasPort u p = true :=
  port_mem_pool.1 (pastCap_res_subset (mem_overCap_ports.1 h))

theorem pastCap_res_nodup : ((db.pastCap u cap).map (·.res)).Nodup := by
  rw [pastCap, past, List.map_drop]
  exact (nodup_map_sort pool_res_nodup).sublist (List.drop_sublist _ _)

theorem overCap_nodup : (db.overCap u cap).1.Nodup ∧ (db.overCap u cap).2.Nodup := by
  rw [overCap_eq]
  refine ⟨pastCap_res_nodup.filterMap fun a b c ha hb => ?_,
    pastCap_res_nodup.filterMap fun a b c ha hb => ?_⟩
  · cases a <;> cases b <;> simp_all [Owned.label?]
  · cases a <;> cases b <;> simp_all [Owned.port?]

/-! ## What is left -/

/-- The pool after a prune is the oldest part, up to order. -/
theorem mem_pool_pruned {e : PoolEntry} : e ∈ (db.pruned u cap).pool u ↔ e ∈ db.withinCap u cap := by
  rw [pruned, pool_dropOwned, withinCap, ← sort_filter_first (db.pool_res_nodup (u := u)),
    List.mem_insertionSort, pastCap]

theorem withinCap_le_pastCap {e e' : PoolEntry} (he : e ∈ db.withinCap u cap)
    (he' : e' ∈ db.pastCap u cap) : e.le e' := by
  have hsorted := List.pairwise_insertionSort PoolEntry.le (db.pool u)
  rw [← first_append_past PoolEntry.le (capSize cap), List.pairwise_append] at hsorted
  exact hsorted.2.2 e he e' he'

theorem mem_within_or_past {e : PoolEntry} (he : e ∈ db.pool u) :
    e ∈ db.withinCap u cap ∨ e ∈ db.pastCap u cap := by
  rw [← List.mem_append, withinCap, pastCap, first_append_past]
  exact (List.mem_insertionSort _).2 he

theorem pruned_prunedTo : db.PrunedTo u cap (db.overCap u cap) (db.pruned u cap) where
  accounts := ⟨rfl, rfl⟩
  hostnames := by
    rw [pruned, dropOwned_hostnames]
    refine List.filter_congr fun r _ => ?_
    by_cases hu : r.userId = u <;> simp [hu]
  tcpPorts := by
    rw [pruned, dropOwned_tcpPorts]
    refine List.filter_congr fun r _ => ?_
    by_cases hu : r.userId = u <;> simp [hu]
  once := overCap_nodup
  labels l := by
    rw [← Bool.not_eq_true, pruned, dropOwned_hasLabel]
    refine ⟨fun h => ⟨overCap_label_owned h, fun hn => hn.2 ⟨rfl, h⟩⟩, fun ⟨h, hn⟩ => ?_⟩
    by_contra hl
    exact hn ⟨h, fun hc => hl hc.2⟩
  ports p := by
    rw [← Bool.not_eq_true, pruned, dropOwned_hasPort]
    refine ⟨fun h => ⟨overCap_port_owned h, fun hn => hn.2 ⟨rfl, h⟩⟩, fun ⟨h, hn⟩ => ?_⟩
    by_contra hp
    exact hn ⟨h, fun hc => hp hc.2⟩
  size := by rw [pruned, countOwned_pruned, min_comm]
  oldest kept hkept gone hgone hn := by
    have hpast := (mem_within_or_past hgone).resolve_left fun h => hn (mem_pool_pruned.2 h)
    exact withinCap_le_pastCap (mem_pool_pruned.1 hkept) hpast

/-! ## Pruning twice -/

theorem pastCap_pruned_eq_nil : (db.pruned u cap).pastCap u cap = [] := by
  have hsort := sort_filter_first (r := PoolEntry.le) (db.pool_res_nodup (u := u)) (capSize cap)
  rw [pruned, pastCap, past, pool_dropOwned, pastCap, hsort, first]
  exact List.drop_eq_nil_of_le (List.length_take_le _ _)

theorem overCap_pruned_eq_nil : (db.pruned u cap).overCap u cap = ([], []) := by
  rw [overCap_eq, pastCap_pruned_eq_nil]; rfl

/-- Pruning in two steps. -/
theorem pruned_pruned (hle : m ≤ cap) : (db.pruned u cap).pruned u m = db.pruned u m := by
  have hres : ∀ o, o ∈ (db.pastCap u cap).map (·.res) ∨ o ∈ ((db.pruned u cap).pastCap u m).map (·.res) ↔
      o ∈ (db.pastCap u m).map (·.res) := by
    intro o
    rw [← List.mem_append, ← List.map_append, List.mem_map, List.mem_map]
    simp only [List.mem_append, pruned, ← mem_pastCap_iff hle]
  rw [pruned, pruned, dropOwned_append]
  refine dropOwned_congr (fun l => ?_) fun p => ?_
  · rw [List.mem_append, mem_overCap_labels, mem_overCap_labels, mem_overCap_labels]
    exact hres _
  · rw [List.mem_append, mem_overCap_ports, mem_overCap_ports, mem_overCap_ports]
    exact hres _

end Db

/-- **Prune and dry run.** In every registry, for every user and cap: the dry run changes nothing and
returns what the prune reports, the prune keeps its contract, a second prune to the same cap removes
nothing and a later prune to a smaller cap leaves what it alone would have left. A storage failure
turns either call into an error that changes nothing. -/
theorem prune_meets_contract (db : Db) (u cap : Int) : ∃ removed db',
    run [] (ownedOverCap u cap) db = (.ok removed, db) ∧
    run [] (pruneOwnedToCap u cap) db = (.ok removed, db') ∧
    db.PrunedTo u cap removed db' ∧
    run [] (pruneOwnedToCap u cap) db' = (.ok ([], []), db') ∧
    (∀ b ≤ cap, (run [] (pruneOwnedToCap u b) db').2 = (run [] (pruneOwnedToCap u b) db).2) ∧
    ∀ faults,
      ((∃ e, run faults (ownedOverCap u cap) db = (.error e, db)) ∨
        run faults (ownedOverCap u cap) db = (.ok removed, db)) ∧
      ((∃ e, run faults (pruneOwnedToCap u cap) db = (.error e, db)) ∨
        run faults (pruneOwnedToCap u cap) db = (.ok removed, db')) := by
  refine ⟨db.overCap u cap, db.pruned u cap, ownedOverCap_run cap, pruneOwnedToCap_run cap,
    Db.pruned_prunedTo, ?_, fun b hb => ?_, fun faults => ⟨?_, ?_⟩⟩
  · rw [pruneOwnedToCap_run, Db.overCap_pruned_eq_nil, Db.dropOwned_nil]
  · rw [pruneOwnedToCap_run, pruneOwnedToCap_run]
    exact Db.pruned_pruned hb
  · obtain ⟨hres, hdb⟩ := post_run (ownedOverCap_effect db u cap) faults
    rcases hres with ⟨e, he⟩ | hok
    · exact Or.inl ⟨e, Prod.ext he hdb⟩
    · exact Or.inr (Prod.ext hok hdb)
  · rcases post_run (pruneOwnedToCap_effect db u cap) faults with ⟨⟨e, he⟩, hdb⟩ | ⟨hok, hdb⟩
    · exact Or.inl ⟨e, Prod.ext he hdb⟩
    · exact Or.inr (Prod.ext hok hdb)

end EtherTunnel
