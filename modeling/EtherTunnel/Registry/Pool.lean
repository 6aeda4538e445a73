import EtherTunnel.Lib.StableSort
import EtherTunnel.Registry.Owners

/-!
# The pool past a cap

`over_cap` sorts a user's hostname and port rows together, oldest first, and cuts at the cap. Here the
cut is an instance of `StableSort.past` on pool entries: `overCap_eq` for the lists the source
returns, `mem_overCap` for the names a caller derives from them, and `pool_dropOwned` for what the
pool is once those rows are gone. `pruneOwnedToCap_takes` counts the statements that a prune needs.
-/

namespace EtherTunnel

open StableSort

instance : Std.Total PoolEntry.le := ⟨fun a b => by unfold PoolEntry.le; omega⟩

instance : IsTrans PoolEntry PoolEntry.le := ⟨fun a b c => by unfold PoolEntry.le; omega⟩

/-- The routed name of a pool entry. -/
def PoolEntry.resource (domain : String) (e : PoolEntry) : Resource :=
  match e.res with
  | .host l => .host (fqdn domain l)
  | .port p => .port p

theorem PoolEntry.resource_inj {domain : String} {e e' : PoolEntry}
    (h : e.resource domain = e'.resource domain) : e.res = e'.res := by
  unfold PoolEntry.resource at h
  cases he : e.res with
  | host l =>
    cases he' : e'.res with
    | host l' =>
      rw [he, he'] at h
      rw [fqdn_injective domain (Resource.host.inj h)]
    | port p => rw [he, he'] at h; cases h
  | port p =>
    cases he' : e'.res with
    | host l => rw [he, he'] at h; cases h
    | port p' => rw [he, he'] at h; rw [Resource.port.inj h]

/-- `cap.max(0) as usize`. -/
def capSize (cap : Int) : Nat := (max cap 0).toNat

theorem capSize_mono {a b : Int} (h : a ≤ b) : capSize a ≤ capSize b := by
  unfold capSize; omega

namespace Db

variable {db : Db} {u cap : Int} {domain : String}

/-- The user's entries past the cap, in the order of `over_cap`. -/
def pastCap (db : Db) (u cap : Int) : List PoolEntry := past PoolEntry.le (capSize cap) (db.pool u)

/-- The user's oldest entries up to the cap. -/
def withinCap (db : Db) (u cap : Int) : List PoolEntry :=
  first PoolEntry.le (capSize cap) (db.pool u)

theorem overCap_eq : db.overCap u cap =
    (((db.pastCap u cap).map (·.res)).filterMap Owned.label?,
      ((db.pastCap u cap).map (·.res)).filterMap Owned.port?) := by
  unfold overCap newestOverCap
  simp only [oldestFirst]
  by_cases hlen : ((db.pool u).insertionSort PoolEntry.le).length ≤ capSize cap
  · have hnil : db.pastCap u cap = [] := by
      rw [pastCap, past, List.drop_eq_nil_of_le hlen]
    rw [hnil]
    exact if_pos hlen
  · exact if_neg hlen

theorem mem_overCap_labels {l : String} :
    l ∈ (db.overCap u cap).1 ↔ Owned.host l ∈ (db.pastCap u cap).map (·.res) := by
  rw [overCap_eq, List.mem_filterMap]
  constructor
  · rintro ⟨o, ho, hl⟩
    cases o with
    | host l' => rw [Option.some.inj hl] at ho; exact ho
    | port p => cases hl
  · exact fun h => ⟨_, h, rfl⟩

theorem mem_overCap_ports {p : UInt16} :
    p ∈ (db.overCap u cap).2 ↔ Owned.port p ∈ (db.pastCap u cap).map (·.res) := by
  rw [overCap_eq, List.mem_filterMap]
  constructor
  · rintro ⟨o, ho, hp⟩
    cases o with
    | host l => cases hp
    | port p' => rw [Option.some.inj hp] at ho; exact ho
  · exact fun h => ⟨_, h, rfl⟩

/-- The names a caller of `over_cap` tears down are those of the entries past the cap. -/
theorem mem_overCap {x : Resource} :
    x ∈ resources ((db.overCap u cap).1.map (fqdn domain)) (db.overCap u cap).2 ↔
      ∃ e ∈ db.pastCap u cap, e.resource domain = x := by
  cases x with
  | host h =>
    simp only [host_mem_resources, List.mem_map, mem_overCap_labels]
    constructor
    · rintro ⟨l, ⟨e, he, hl⟩, rfl⟩
      exact ⟨e, he, by rw [PoolEntry.resource, hl]⟩
    · rintro ⟨e, he, hx⟩
      cases hl : e.res with
      | host l =>
        rw [PoolEntry.resource, hl] at hx
        exact ⟨l, ⟨e, he, hl⟩, Resource.host.inj hx⟩
      | port p => rw [PoolEntry.resource, hl] at hx; cases hx
  | port p =>
    simp only [port_mem_resources, List.mem_map, mem_overCap_ports]
    constructor
    · rintro ⟨e, he, hp⟩
      exact ⟨e, he, by rw [PoolEntry.resource, hp]⟩
    · rintro ⟨e, he, hx⟩
      cases hl : e.res with
      | host l => rw [PoolEntry.resource, hl] at hx; cases hx
      | port p' =>
        rw [PoolEntry.resource, hl] at hx
        exact ⟨e, he, hl.trans (congrArg Owned.port (Resource.port.inj hx))⟩

/-- Nobody else owns what is in a user's pool. -/
theorem pool_owner {v : Int} {e : PoolEntry} (he : e ∈ db.pool u)
    (hv : db.owns domain v (e.resource domain) = true) : v = u := by
  rcases List.mem_append.1 he with he | he
  · obtain ⟨r, hr, rfl⟩ := List.mem_map.1 he
    obtain ⟨hr, hu⟩ := List.mem_filter.1 hr
    obtain ⟨l, hl, hvl⟩ := owns_host_iff.1 hv
    rw [labelOf_fqdn hl] at hvl
    exact hasLabel_unique hvl (hasLabel_iff.2 ⟨r, hr, rfl, by simpa using hu⟩)
  · obtain ⟨r, hr, rfl⟩ := List.mem_map.1 he
    obtain ⟨hr, hu⟩ := List.mem_filter.1 hr
    exact hasPort_unique hv (hasPort_iff.2 ⟨r, hr, rfl, by simpa using hu⟩)

/-- A pool lists a resource once. -/
theorem pool_res_nodup : ((db.pool u).map (·.res)).Nodup := by
  rw [pool, List.map_append, List.nodup_append, hostEntries, portEntries, List.map_map, List.map_map]
  refine ⟨?_, ?_, ?_⟩
  · have h := (nodup_map_filter (·.userId == u) db.valid.host_label).map (f := Owned.host)
      fun _ _ hab => Owned.host.inj hab
    rw [List.map_map] at h
    exact h
  · have h := (nodup_map_filter (·.userId == u) db.valid.port_key).map (f := Owned.port)
      fun _ _ hab => Owned.port.inj hab
    rw [List.map_map] at h
    exact h
  · intro a ha b hb hab
    obtain ⟨r, -, rfl⟩ := List.mem_map.1 ha
    obtain ⟨r', -, rfl⟩ := List.mem_map.1 hb
    cases hab

/-- The pool once the rows past the cap are dropped. -/
theorem pool_dropOwned :
    (db.dropOwned u (db.overCap u cap).1 (db.overCap u cap).2).pool u =
      (db.pool u).filter fun e => e.res ∉ (db.pastCap u cap).map (·.res) := by
  rw [pool, pool, hostEntries, portEntries, hostEntries, portEntries, List.filter_append,
    List.filter_map, List.filter_map, dropOwned_hostnames, dropOwned_tcpPorts, List.filter_filter,
    List.filter_filter, List.filter_filter, List.filter_filter]
  congr 2
  · refine List.filter_congr fun r _ => ?_
    have : r.label ∈ (db.overCap u cap).1 ↔ _ := mem_overCap_labels
    cases hu : r.userId == u <;> simp [Function.comp, this, -List.mem_map]
  · refine List.filter_congr fun r _ => ?_
    have : r.port ∈ (db.overCap u cap).2 ↔ _ := mem_overCap_ports
    cases hu : r.userId == u <;> simp [Function.comp, this, -List.mem_map]

/-- A prune followed by a tighter cut reaches what the tighter cut alone reaches. -/
theorem mem_pastCap_iff {m : Int} (hle : m ≤ cap) {e : PoolEntry} : e ∈ db.pastCap u m ↔
    e ∈ db.pastCap u cap ∨
      e ∈ (db.dropOwned u (db.overCap u cap).1 (db.overCap u cap).2).pastCap u m := by
  rw [pastCap, pastCap, pastCap, pool_dropOwned]
  exact mem_past_iff pool_res_nodup (capSize_mono hle)

theorem countOwned_eq_pool : db.countOwned u = (db.pool u).length := by
  rw [countOwned, pool, hostEntries, portEntries, List.length_append, List.length_map, List.length_map]
  exact (Int.natCast_add _ _).symm

/-- A prune leaves the cap, or all there was. -/
theorem countOwned_pruned : (db.dropOwned u (db.overCap u cap).1 (db.overCap u cap).2).countOwned u =
    min (max cap 0) (db.countOwned u) := by
  have hsort := sort_filter_first (r := PoolEntry.le) (db.pool_res_nodup (u := u)) (capSize cap)
  have hlen := congrArg List.length hsort
  rw [List.length_insertionSort, first, List.length_take, List.length_insertionSort] at hlen
  rw [countOwned_eq_pool, countOwned_eq_pool, pool_dropOwned, pastCap, hlen, capSize]
  omega

end Db

/-! ## Which failures keep a prune from happening -/

section statements

open Txn

variable {db : Db} {u cap : Int} {α : Type} {n : Nat}

/-- The statements of `prune_owned_to_cap`: two queries, and if there is something to delete a transaction with
a delete for each row. -/
def Db.pruneStmts (db : Db) (u cap : Int) : Nat :=
  if db.pastCap u cap = [] then 2 else (db.pastCap u cap).length + 4

theorem length_labels_ports : ∀ os : List Owned,
    (os.filterMap Owned.label?).length + (os.filterMap Owned.port?).length = os.length
  | [] => rfl
  | .host l :: os => by
    have h := length_labels_ports os
    simp only [List.filterMap_cons, Owned.label?, Owned.port?, List.length_cons]
    omega
  | .port p :: os => by
    have h := length_labels_ports os
    simp only [List.filterMap_cons, Owned.label?, Owned.port?, List.length_cons]
    omega

theorem Db.length_overCap :
    (db.overCap u cap).1.length + (db.overCap u cap).2.length = (db.pastCap u cap).length := by
  rw [overCap_eq, length_labels_ports, List.length_map]

theorem takes_withOverCap {k : List String → List UInt16 → Op α}
    (h : Takes n (k (db.overCap u cap).1 (db.overCap u cap).2) db none) :
    Takes (n + 2) (withOverCap u cap k) db none :=
  ends_query not_ok (ends_query not_ok h)

theorem takes_pruneHosts {k : Op α} : ∀ {ls : List String} {t : Db},
    Takes n k db (some (t.dropOwned u ls [])) → Takes (n + ls.length) (pruneHosts u ls k) db (some t)
  | [], t, h => by
    rw [Db.dropOwned_nil] at h
    exact h
  | l :: ls, t, h => by
    refine ends_write_tx not_ok (takes_pruneHosts ?_)
    rw [Db.dropOwned_cons_host]
    exact h

theorem takes_prunePorts {k : Op α} : ∀ {ps : List UInt16} {t : Db},
    Takes n k db (some (t.dropOwned u [] ps)) → Takes (n + ps.length) (prunePorts u ps k) db (some t)
  | [], t, h => by
    rw [Db.dropOwned_nil] at h
    exact h
  | p :: ps, t, h => by
    refine ends_write_tx not_ok (takes_prunePorts ?_)
    rw [Db.dropOwned_cons_port]
    exact h

theorem pruneOwnedToCap_takes : Takes (db.pruneStmts u cap) (pruneOwnedToCap u cap) db none := by
  have hlen := @Db.length_overCap db u cap
  unfold Db.pruneStmts
  by_cases hnil : (db.overCap u cap).1 = [] ∧ (db.overCap u cap).2 = []
  · rw [hnil.1, hnil.2] at hlen
    rw [if_pos (List.length_eq_zero_iff.1 hlen.symm)]
    refine takes_withOverCap (n := 0) ?_
    rw [if_pos hnil]
    exact takes_ok _
  · have hpast : db.pastCap u cap ≠ [] := by
      intro h
      rw [h, List.length_nil, Nat.add_eq_zero_iff, List.length_eq_zero_iff, List.length_eq_zero_iff] at hlen
      exact hnil hlen
    rw [if_neg hpast]
    have hstmts : (db.pastCap u cap).length + 4 =
        0 + 1 + (db.overCap u cap).2.length + (db.overCap u cap).1.length + 1 + 2 := by omega
    rw [hstmts]
    refine takes_withOverCap ?_
    rw [if_neg hnil]
    exact ends_begin not_ok (takes_pruneHosts (takes_prunePorts (ends_commit not_ok (takes_ok _))))

theorem ownedOverCap_takes : Takes 2 (ownedOverCap u cap) db none := takes_withOverCap (takes_ok _)

end statements

end EtherTunnel
