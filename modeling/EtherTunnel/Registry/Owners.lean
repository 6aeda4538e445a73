import EtherTunnel.Frames
import EtherTunnel.Registry.Ops

/-!
# Who owns what, and what an operation does to it

The registry seen from outside: `db.owns domain u x` says that user `u` owns resource `x`. Every
operation the relay runs for a user changes this relation in one of three ways: not at all, by one
new row of that user, or by dropping rows of that user. The lemmas here state, for each operation and
whatever statement fails, which of the three happened (`claimLabelCapped_effect`,
`releaseHostnameOwned_effect`, `releasePortOwned_effect`, `pruneOwnedToCap_effect`,
`releaseUserHostnames_effect`); no later proof looks inside an operation again.
-/

namespace EtherTunnel

open Txn

namespace Db

variable {db db' : Db} {u v : Int} {l : String} {p : UInt16} {domain : String}

/-! ## Ownership -/

/-- User `u` owns the resource: `owns_hostname` and `owns_port` without storage failures. -/
def owns (domain : String) (db : Db) (u : Int) : Resource → Bool
  | .host h => (labelOf domain h).any (db.hasLabel u)
  | .port p => db.hasPort u p

theorem hasLabel_iff : db.hasLabel u l = true ↔ ∃ r ∈ db.hostnames, r.label = l ∧ r.userId = u := by
  simp [hasLabel]

theorem hasPort_iff : db.hasPort u p = true ↔ ∃ r ∈ db.tcpPorts, r.port = p ∧ r.userId = u := by
  simp [hasPort]

theorem owns_host_iff {h : String} :
    db.owns domain u (.host h) = true ↔ ∃ l, labelOf domain h = some l ∧ db.hasLabel u l = true := by
  simp [owns, Option.any_eq_true]

/-- Two rows with one label are one row. -/
theorem hostname_ext {r r' : HostnameRec} (hr : r ∈ db.hostnames) (hr' : r' ∈ db.hostnames)
    (h : r.label = r'.label) : r = r' :=
  List.inj_on_of_nodup_map db.valid.host_label hr hr' h

theorem port_ext {r r' : PortRec} (hr : r ∈ db.tcpPorts) (hr' : r' ∈ db.tcpPorts)
    (h : r.port = r'.port) : r = r' :=
  List.inj_on_of_nodup_map db.valid.port_key hr hr' h

theorem hasLabel_unique (hu : db.hasLabel u l = true) (hv : db.hasLabel v l = true) : u = v := by
  obtain ⟨r, hr, hrl, rfl⟩ := hasLabel_iff.1 hu
  obtain ⟨r', hr', hrl', rfl⟩ := hasLabel_iff.1 hv
  rw [hostname_ext hr hr' (hrl.trans hrl'.symm)]

theorem hasPort_unique (hu : db.hasPort u p = true) (hv : db.hasPort v p = true) : u = v := by
  obtain ⟨r, hr, hrp, rfl⟩ := hasPort_iff.1 hu
  obtain ⟨r', hr', hrp', rfl⟩ := hasPort_iff.1 hv
  rw [port_ext hr hr' (hrp.trans hrp'.symm)]

/-- **At most one owner.** -/
theorem owns_unique {x : Resource} (hu : db.owns domain u x = true) (hv : db.owns domain v x = true) :
    u = v := by
  cases x with
  | host h =>
    obtain ⟨l, hl, hul⟩ := owns_host_iff.1 hu
    obtain ⟨l', hl', hvl⟩ := owns_host_iff.1 hv
    rw [hl, Option.some.injEq] at hl'
    exact hasLabel_unique hul (hl' ▸ hvl)
  | port p => exact hasPort_unique hu hv

theorem labelOwner_eq_some : db.labelOwner l = some u ↔ db.hasLabel u l = true := by
  simp only [labelOwner, Option.map_eq_some_iff, hasLabel_iff, find?_key_eq_some db.valid.host_label,
    and_assoc]

theorem labelOwner_eq_none : db.labelOwner l = none ↔ l ∉ db.hostnames.map (·.label) := by
  simp [labelOwner, List.find?_eq_none]

/-! ## A new row -/

/-- `db'` is `db` with one more hostname row. -/
structure Inserted (db db' : Db) (u : Int) (l : String) : Prop where
  free : l ∉ db.hostnames.map (·.label)
  user : u ∈ db.users.map (·.id)
  row : ∃ id now, db'.toTables = { db.toTables with hostnames := db.hostnames ++ [⟨id, u, l, now⟩] }

theorem insertHostname_ok {now id : Int} (h : db.insertHostname u l now = .ok (id, db')) :
    Inserted db db' u l := by
  unfold insertHostname at h
  split at h
  · rename_i hc
    cases h
    exact ⟨hc.1, hc.2, _, _, rfl⟩
  · cases h

theorem Inserted.hostnames (h : Inserted db db' u l) :
    ∃ id now, db'.hostnames = db.hostnames ++ [⟨id, u, l, now⟩] := by
  obtain ⟨id, now, hrow⟩ := h.row
  exact ⟨id, now, by rw [hrow]⟩

theorem Inserted.tcpPorts (h : Inserted db db' u l) : db'.tcpPorts = db.tcpPorts := by
  obtain ⟨id, now, hrow⟩ := h.row
  rw [hrow]

theorem Inserted.hasLabel (h : Inserted db db' u l) (l' : String) :
    db'.hasLabel v l' = true ↔ db.hasLabel v l' = true ∨ (v = u ∧ l' = l) := by
  obtain ⟨id, now, hrow⟩ := h.hostnames
  simp only [Db.hasLabel, hrow, List.any_append, Bool.or_eq_true, List.any_cons, List.any_nil,
    Bool.or_false, Bool.and_eq_true, beq_iff_eq]
  constructor
  · rintro (h | ⟨h1, h2⟩)
    · exact Or.inl h
    · exact Or.inr ⟨h2.symm, h1.symm⟩
  · rintro (h | ⟨h1, h2⟩)
    · exact Or.inl h
    · exact Or.inr ⟨h2.symm, h1.symm⟩

/-- The relation `owns` after a new row for the name `h`. -/
theorem Inserted.owns {h : String} (hi : Inserted db db' u l) (hl : labelOf domain h = some l)
    (x : Resource) :
    db'.owns domain v x = true ↔ db.owns domain v x = true ∨ (v = u ∧ x = .host h) := by
  cases x with
  | host h' =>
    simp only [owns_host_iff, hi.hasLabel, Resource.host.injEq]
    constructor
    · rintro ⟨l', hl', hv | ⟨rfl, rfl⟩⟩
      · exact Or.inl ⟨l', hl', hv⟩
      · rw [(labelOf_eq_some.1 hl).1, (labelOf_eq_some.1 hl').1]
        exact Or.inr ⟨rfl, rfl⟩
    · rintro (⟨l', hl', hv⟩ | ⟨rfl, rfl⟩)
      · exact ⟨l', hl', Or.inl hv⟩
      · exact ⟨l, hl, Or.inr ⟨rfl, rfl⟩⟩
  | port p =>
    rw [Db.owns, Db.owns, Db.hasPort, Db.hasPort, hi.tcpPorts]
    simp

theorem Inserted.countOwned (h : Inserted db db' u l) :
    db'.countOwned v = db.countOwned v + (if v = u then 1 else 0) := by
  obtain ⟨id, now, hrow⟩ := h.hostnames
  simp only [Db.countOwned, hrow, h.tcpPorts, List.filter_append, List.length_append]
  by_cases hv : v = u
  · subst hv; simp; omega
  · have : ¬ u = v := fun e => hv e.symm
    simp [hv, this]

/-! ## Dropped rows -/

/-- Drop the rows of `u` with these labels and ports. -/
def dropOwned (db : Db) (u : Int) (ls : List String) (ps : List UInt16) : Db :=
  ((db.deleteHostnames fun r => ls.contains r.label && r.userId == u).2.deletePorts
    fun r => ps.contains r.port && r.userId == u).2

section drop

variable {ls : List String} {ps : List UInt16}

theorem dropOwned_hostnames : (db.dropOwned u ls ps).hostnames =
    db.hostnames.filter fun r => !(ls.contains r.label && r.userId == u) := rfl

theorem dropOwned_tcpPorts : (db.dropOwned u ls ps).tcpPorts =
    db.tcpPorts.filter fun r => !(ps.contains r.port && r.userId == u) := rfl

theorem dropOwned_hasLabel (l : String) : (db.dropOwned u ls ps).hasLabel v l = true ↔
    db.hasLabel v l = true ∧ ¬ (v = u ∧ l ∈ ls) := by
  simp only [hasLabel_iff, dropOwned_hostnames, List.mem_filter]
  constructor
  · rintro ⟨r, ⟨hr, hk⟩, rfl, rfl⟩
    refine ⟨⟨r, hr, rfl, rfl⟩, ?_⟩
    rintro ⟨rfl, hl⟩
    simp [hl] at hk
  · rintro ⟨⟨r, hr, rfl, rfl⟩, hn⟩
    refine ⟨r, ⟨hr, ?_⟩, rfl, rfl⟩
    simp only [Bool.not_eq_true', Bool.and_eq_false_iff, beq_eq_false_iff_ne, List.contains_eq_mem,
      decide_eq_false_iff_not]
    by_cases hu : r.userId = u
    · exact Or.inl fun hl => hn ⟨hu, hl⟩
    · exact Or.inr hu

theorem dropOwned_hasPort (p : UInt16) : (db.dropOwned u ls ps).hasPort v p = true ↔
    db.hasPort v p = true ∧ ¬ (v = u ∧ p ∈ ps) := by
  simp only [hasPort_iff, dropOwned_tcpPorts, List.mem_filter]
  constructor
  · rintro ⟨r, ⟨hr, hk⟩, rfl, rfl⟩
    refine ⟨⟨r, hr, rfl, rfl⟩, ?_⟩
    rintro ⟨rfl, hp⟩
    simp [hp] at hk
  · rintro ⟨⟨r, hr, rfl, rfl⟩, hn⟩
    refine ⟨r, ⟨hr, ?_⟩, rfl, rfl⟩
    simp only [Bool.not_eq_true', Bool.and_eq_false_iff, beq_eq_false_iff_ne, List.contains_eq_mem,
      decide_eq_false_iff_not]
    by_cases hu : r.userId = u
    · exact Or.inl fun hp => hn ⟨hu, hp⟩
    · exact Or.inr hu

/-- The relation `owns` after dropping rows: exactly the names that the caller will evict are gone,
and only for `u`. -/
theorem dropOwned_owns (x : Resource) : (db.dropOwned u ls ps).owns domain v x = true ↔
    db.owns domain v x = true ∧ ¬ (v = u ∧ x ∈ resources (ls.map (fqdn domain)) ps) := by
  cases x with
  | host h =>
    simp only [owns_host_iff, dropOwned_hasLabel, host_mem_resources]
    constructor
    · rintro ⟨l, hl, hv, hn⟩
      refine ⟨⟨l, hl, hv⟩, ?_⟩
      rintro ⟨hvu, hm⟩
      obtain ⟨l', hl', rfl⟩ := List.mem_map.1 hm
      exact hn ⟨hvu, labelOf_fqdn hl ▸ hl'⟩
    · rintro ⟨⟨l, hl, hv⟩, hn⟩
      exact ⟨l, hl, hv, fun hc => hn ⟨hc.1, List.mem_map.2 ⟨l, hc.2, (labelOf_eq_some.1 hl).1.symm⟩⟩⟩
  | port p =>
    rw [owns, owns, port_mem_resources]
    exact dropOwned_hasPort p

theorem dropOwned_nil : db.dropOwned u [] [] = db := by
  apply Db.ext'
  simp [dropOwned, deleteHostnames, deletePorts]

theorem dropOwned_congr {ls' : List String} {ps' : List UInt16} (hl : ∀ l, l ∈ ls ↔ l ∈ ls')
    (hp : ∀ p, p ∈ ps ↔ p ∈ ps') : db.dropOwned u ls ps = db.dropOwned u ls' ps' := by
  rw [Db.eq_iff, dropOwned_hostnames, dropOwned_hostnames, dropOwned_tcpPorts, dropOwned_tcpPorts]
  refine ⟨rfl, rfl, List.filter_congr fun r _ => ?_, List.filter_congr fun r _ => ?_⟩
  · simp only [List.contains_eq_mem, hl]
  · simp only [List.contains_eq_mem, hp]

theorem dropOwned_append {ls' : List String} {ps' : List UInt16} :
    (db.dropOwned u ls ps).dropOwned u ls' ps' = db.dropOwned u (ls ++ ls') (ps ++ ps') := by
  rw [Db.eq_iff, dropOwned_hostnames, dropOwned_hostnames, dropOwned_hostnames, dropOwned_tcpPorts,
    dropOwned_tcpPorts, dropOwned_tcpPorts, List.filter_filter, List.filter_filter]
  refine ⟨rfl, rfl, List.filter_congr fun r _ => ?_, List.filter_congr fun r _ => ?_⟩
  · cases r.userId == u <;> simp [Bool.and_comm]
  · cases r.userId == u <;> simp [Bool.and_comm]

/-- Dropping rows that are not there. -/
theorem dropOwned_label_absent (h : db.hasLabel u l = false) : db.dropOwned u [l] [] = db := by
  have hf : db.hostnames.filter (fun r => !([l].contains r.label && r.userId == u)) = db.hostnames := by
    refine List.filter_eq_self.2 fun r hr => ?_
    have := List.any_eq_false.1 h r hr
    simpa [imp_iff_not_or] using this
  apply Db.ext'
  simp only [dropOwned, deleteHostnames, deletePorts, hf]
  simp

theorem dropOwned_port_absent (h : db.hasPort u p = false) : db.dropOwned u [] [p] = db := by
  have hf : db.tcpPorts.filter (fun r => !([p].contains r.port && r.userId == u)) = db.tcpPorts := by
    refine List.filter_eq_self.2 fun r hr => ?_
    have := List.any_eq_false.1 h r hr
    simpa [imp_iff_not_or] using this
  apply Db.ext'
  simp only [dropOwned, deleteHostnames, deletePorts, hf]
  simp

/-- The `DELETE` of `release_hostname_owned` drops one label and reports whether it was there. -/
theorem delete_label : (db.deleteHostnames fun r => r.label == l && r.userId == u).2 =
    db.dropOwned u [l] [] := by
  apply Db.ext'
  simp [dropOwned, deleteHostnames, deletePorts, -List.contains_eq_mem]

theorem delete_label_pos : 0 < (db.deleteHostnames fun r => r.label == l && r.userId == u).1 ↔
    db.hasLabel u l = true := by
  simp [deleteHostnames, hasLabel, List.length_pos_iff, List.filter_eq_nil_iff]

theorem delete_port : (db.deletePorts fun r => r.port == p && r.userId == u).2 =
    db.dropOwned u [] [p] := by
  apply Db.ext'
  simp [dropOwned, deleteHostnames, deletePorts, -List.contains_eq_mem]

theorem delete_port_pos : 0 < (db.deletePorts fun r => r.port == p && r.userId == u).1 ↔
    db.hasPort u p = true := by
  simp [deletePorts, hasPort, List.length_pos_iff, List.filter_eq_nil_iff]

end drop

end Db

/-! ## Operations -/

variable (db : Db) (u : Int)

/-- What `claim_label_capped` may do. -/
inductive ClaimEffect (db : Db) (u : Int) (label : String) (max : Option Int) :
    Except RegistryError Bool → Db → Prop where
  | already (h : db.hasLabel u label = true) : ClaimEffect db u label max (.ok false) db
  | inserted {db' : Db} (h : db.Inserted db' u label) (hcap : ∀ m ∈ max, db.countOwned u < m) :
    ClaimEffect db u label max (.ok true) db'
  | refused (e : RegistryError) : ClaimEffect db u label max (.error e) db

variable {db u} in
theorem claimInsert_effect {now : Int} {label : String} {max : Option Int}
    (hcap : ∀ m ∈ max, db.countOwned u < m) :
    Post (ClaimEffect db u label max) (claimInsert now u label) db (some db) := by
  refine ⟨fun e => ?_, fun id db' hins => ?_⟩
  · cases e <;> exact .refused _
  · exact (post_commit _).2 ⟨fun e => .refused _, .inserted (Db.insertHostname_ok hins) hcap⟩

theorem claimLabelCapped_effect (now : Int) (label : String) (max : Option Int) :
    Post (ClaimEffect db u label max) (claimLabelCapped now u label max) db none := by
  unfold claimLabelCapped
  split
  · exact .refused _
  · refine (post_begin _).2 ⟨fun e => .refused _, (post_query _ _).2 ⟨fun e => .refused _, ?_⟩⟩
    simp only [Option.getD_some]
    split
    · rename_i owner hown
      split
      · rename_i heq
        exact .already (Db.labelOwner_eq_some.1 (heq ▸ hown))
      · exact .refused _
    · split
      · refine (post_query _ _).2 ⟨fun e => .refused _, ?_⟩
        simp only [Option.getD_some]
        split
        · exact .refused _
        · rename_i m hm
          exact claimInsert_effect fun m' hm' => by cases hm'; omega
      · exact claimInsert_effect fun m' hm' => by cases hm'

theorem releaseHostnameOwned_effect (domain name : String) :
    Post (fun res db' => (res ≠ .ok true ∧ db' = db) ∨
        (res = .ok true ∧ ∃ l, labelOf domain name = some l ∧ db.hasLabel u l = true ∧
          db' = db.dropOwned u [l] []))
      (releaseHostnameOwned domain u name) db none := by
  unfold releaseHostnameOwned
  split
  · exact Or.inl ⟨by simp, rfl⟩
  · rename_i l hl
    refine (post_write_auto _ _).2 ⟨fun e => Or.inl ⟨by simp, rfl⟩, ?_⟩
    simp only [post_ret, Op.ok, Db.delete_label, Db.delete_label_pos]
    cases hown : db.hasLabel u l with
    | true => exact Or.inr ⟨rfl, l, hl, hown, rfl⟩
    | false => exact Or.inl ⟨by simp, Db.dropOwned_label_absent hown⟩

theorem releasePortOwned_effect (port : UInt16) :
    Post (fun res db' => (res ≠ .ok true ∧ db' = db) ∨
        (res = .ok true ∧ db.hasPort u port = true ∧ db' = db.dropOwned u [] [port]))
      (releasePortOwned u port) db none := by
  refine (post_write_auto _ _).2 ⟨fun e => Or.inl ⟨by simp, rfl⟩, ?_⟩
  simp only [post_ret, Op.ok, Db.delete_port, Db.delete_port_pos]
  cases hown : db.hasPort u port with
  | true => simp
  | false => exact Or.inl ⟨by simp, Db.dropOwned_port_absent hown⟩

/-- `release_hostname` deletes the row it reports, or nothing. -/
theorem releaseHostname_effect (faults : Faults) (domain name : String) :
    Registry.releaseHostname faults db domain u name = (false, db) ∨
    ∃ l, labelOf domain name = some l ∧ db.hasLabel u l = true ∧
      Registry.releaseHostname faults db domain u name = (true, db.dropOwned u [l] []) := by
  have heff := post_run (releaseHostnameOwned_effect db u domain name) faults
  unfold Registry.releaseHostname
  generalize run faults (releaseHostnameOwned domain u name) db = r at heff ⊢
  obtain ⟨res, db'⟩ := r
  rcases heff with ⟨hne, rfl⟩ | ⟨rfl, l, hl, hown, rfl⟩
  · rcases res with e | _ | _
    · exact Or.inl rfl
    · exact Or.inl rfl
    · exact absurd rfl hne
  · exact Or.inr ⟨l, hl, hown, rfl⟩

theorem releasePort_effect (faults : Faults) (port : UInt16) :
    Registry.releasePort faults db u port = (false, db) ∨
    db.hasPort u port = true ∧
      Registry.releasePort faults db u port = (true, db.dropOwned u [] [port]) := by
  have heff := post_run (releasePortOwned_effect db u port) faults
  unfold Registry.releasePort
  generalize run faults (releasePortOwned u port) db = r at heff ⊢
  obtain ⟨res, db'⟩ := r
  rcases heff with ⟨hne, rfl⟩ | ⟨rfl, hown, rfl⟩
  · rcases res with e | _ | _
    · exact Or.inl rfl
    · exact Or.inl rfl
    · exact absurd rfl hne
  · exact Or.inr ⟨hown, rfl⟩

/-! ### Pruning -/

/-- The pool `over_cap` sorts. -/
def Db.pool (db : Db) (u : Int) : List PoolEntry := db.hostEntries u ++ db.portEntries u

/-- What `over_cap(conn, u, cap)` returns. -/
def Db.overCap (db : Db) (u cap : Int) : List String × List UInt16 := newestOverCap cap (db.pool u)

variable {db u} in
theorem post_withOverCap {α : Type} {Q : Except RegistryError α → Db → Prop} {cap : Int}
    {k : List String → List UInt16 → Op α} (hfail : ∀ e, Q (.error (.db e)) db)
    (hk : Post Q (k (db.overCap u cap).1 (db.overCap u cap).2) db none) :
    Post Q (withOverCap u cap k) db none :=
  (post_query _ _).2 ⟨hfail, (post_query _ _).2 ⟨hfail, hk⟩⟩

variable {u} in
theorem Db.dropOwned_cons_host {t : Db} {l : String} {ls : List String} :
    ((t.deleteHostnames fun r => r.label == l && r.userId == u).2).dropOwned u ls [] =
      t.dropOwned u (l :: ls) [] := by
  apply Db.ext'
  simp only [Db.dropOwned, Db.deleteHostnames, Db.deletePorts, List.filter_filter, Tables.mk.injEq,
    true_and, and_true]
  refine List.filter_congr fun r _ => ?_
  simp only [List.contains_cons]
  cases r.label == l <;> cases ls.contains r.label <;> cases r.userId == u <;> rfl

variable {u} in
theorem Db.dropOwned_cons_port {t : Db} {p : UInt16} {ps : List UInt16} :
    ((t.deletePorts fun r => r.port == p && r.userId == u).2).dropOwned u [] ps =
      t.dropOwned u [] (p :: ps) := by
  apply Db.ext'
  simp only [Db.dropOwned, Db.deleteHostnames, Db.deletePorts, List.filter_filter, Tables.mk.injEq,
    true_and]
  refine List.filter_congr fun r _ => ?_
  simp only [List.contains_cons]
  cases r.port == p <;> cases ps.contains r.port <;> cases r.userId == u <;> rfl

variable {u} in
theorem Db.dropOwned_dropOwned {t : Db} {ls : List String} {ps : List UInt16} :
    (t.dropOwned u ls []).dropOwned u [] ps = t.dropOwned u ls ps := by
  apply Db.ext'
  simp [Db.dropOwned, Db.deleteHostnames, Db.deletePorts, -List.contains_eq_mem]

section prune

variable {db u} {α : Type} {Q : Except RegistryError α → Db → Prop} {k : Op α}

theorem post_pruneHosts (hfail : ∀ e, Q (.error (.db e)) db) : ∀ {ls : List String} {t : Db},
    Post Q k db (some (t.dropOwned u ls [])) → Post Q (pruneHosts u ls k) db (some t)
  | [], t, h => by rw [Db.dropOwned_nil] at h; exact h
  | l :: ls, t, h => by
    refine (post_write_tx _ _ _).2 ⟨hfail, post_pruneHosts hfail ?_⟩
    rw [Db.dropOwned_cons_host]; exact h

theorem post_prunePorts (hfail : ∀ e, Q (.error (.db e)) db) : ∀ {ps : List UInt16} {t : Db},
    Post Q k db (some (t.dropOwned u [] ps)) → Post Q (prunePorts u ps k) db (some t)
  | [], t, h => by rw [Db.dropOwned_nil] at h; exact h
  | p :: ps, t, h => by
    refine (post_write_tx _ _ _).2 ⟨hfail, post_prunePorts hfail ?_⟩
    rw [Db.dropOwned_cons_port]; exact h

end prune

/-- `prune_owned_to_cap` deletes exactly what it reports, or nothing. -/
theorem pruneOwnedToCap_effect (cap : Int) :
    Post (fun res db' => ((∃ e, res = .error e) ∧ db' = db) ∨
        (res = .ok (db.overCap u cap) ∧
          db' = db.dropOwned u (db.overCap u cap).1 (db.overCap u cap).2))
      (pruneOwnedToCap u cap) db none := by
  refine post_withOverCap (fun e => Or.inl ⟨⟨_, rfl⟩, rfl⟩) ?_
  have hfail : ∀ e : SqlError, ((∃ e', (Except.error (RegistryError.db e) :
      Except RegistryError (List String × List UInt16)) = .error e') ∧ db = db) := fun e => ⟨⟨_, rfl⟩, rfl⟩
  split
  · rename_i hnil
    refine Or.inr ⟨rfl, ?_⟩
    rw [hnil.1, hnil.2, Db.dropOwned_nil]
  · refine (post_begin _).2 ⟨fun e => Or.inl (hfail e), ?_⟩
    refine post_pruneHosts (fun e => Or.inl (hfail e)) ?_
    refine post_prunePorts (fun e => Or.inl (hfail e)) ?_
    rw [Db.dropOwned_dropOwned]
    exact (post_commit _).2 ⟨fun e => Or.inl (hfail e), Or.inr ⟨rfl, rfl⟩⟩

theorem ownedOverCap_effect (cap : Int) :
    Post (fun res db' => ((∃ e, res = .error e) ∨ res = .ok (db.overCap u cap)) ∧ db' = db)
      (ownedOverCap u cap) db none :=
  post_withOverCap (fun _ => ⟨Or.inl ⟨_, rfl⟩, rfl⟩) ⟨Or.inr rfl, rfl⟩

section faultless

variable {db u} {α : Type} {k : Op α}

theorem exec_pruneHosts : ∀ {ls : List String} {t : Db},
    exec (pruneHosts u ls k) ⟨db, some t, []⟩ = exec k ⟨db, some (t.dropOwned u ls []), []⟩
  | [], t => by rw [Db.dropOwned_nil]; rfl
  | l :: ls, t => by
    rw [← Db.dropOwned_cons_host, ← exec_pruneHosts]; rfl

theorem exec_prunePorts : ∀ {ps : List UInt16} {t : Db},
    exec (prunePorts u ps k) ⟨db, some t, []⟩ = exec k ⟨db, some (t.dropOwned u [] ps), []⟩
  | [], t => by rw [Db.dropOwned_nil]; rfl
  | p :: ps, t => by
    rw [← Db.dropOwned_cons_port, ← exec_prunePorts]; rfl

end faultless

variable {db u} in
/-- Without storage failures the prune happens. -/
theorem pruneOwnedToCap_run (cap : Int) : run [] (pruneOwnedToCap u cap) db =
    (.ok (db.overCap u cap), db.dropOwned u (db.overCap u cap).1 (db.overCap u cap).2) := by
  unfold run pruneOwnedToCap withOverCap
  simp only [exec_query, Option.getD_none]
  change (let r := exec (if (db.overCap u cap).1 = [] ∧ (db.overCap u cap).2 = [] then _ else _) _
    (r.1, r.2.db)) = _
  split
  · rename_i hnil
    rw [hnil.1, hnil.2, Db.dropOwned_nil]
    rfl
  · simp only [exec_begin, exec_pruneHosts, exec_prunePorts, exec_commit, Db.dropOwned_dropOwned]
    rfl

variable {db u} in
theorem ownedOverCap_run (cap : Int) : run [] (ownedOverCap u cap) db = (.ok (db.overCap u cap), db) :=
  rfl

/-! ### Without storage failures -/

section answers

variable {db u} {domain : String}

/-- A failed query is an answer of `false`. -/
theorem ownsHostname_eq_true {faults : Faults} {h : String} :
    Registry.ownsHostname faults db domain u h = true ↔
      db.owns domain u (.host h) = true ∧ faults.headD none = none := by
  unfold Registry.ownsHostname
  cases hl : labelOf domain h with
  | none => simp [Db.owns, hl]
  | some l =>
    rcases faults with _ | ⟨_ | e, faults⟩
    · simp [Db.owns, hl, run, Op.ok, exec]
    · simp [Db.owns, hl, run, query, tryStmt, Op.ok, exec, Conn.fault, Conn.view]
    · simp [run, query, tryStmt, exec, Conn.fault]

theorem ownsPort_eq_true {faults : Faults} {p : UInt16} :
    Registry.ownsPort faults db u p = true ↔ db.hasPort u p = true ∧ Clear faults 1 := by
  rw [clear_one]
  rcases faults with _ | ⟨_ | e, faults⟩
  · exact (and_iff_left rfl).symm
  · exact (and_iff_left rfl).symm
  · exact iff_of_false Bool.false_ne_true fun h => by cases h.2

theorem releaseHostname_run (db : Db) (name : String) :
    Registry.releaseHostname [] db domain u name =
      (db.owns domain u (.host name), db.dropOwned u (labelOf domain name).toList []) := by
  unfold Registry.releaseHostname releaseHostnameOwned
  cases hl : labelOf domain name with
  | none => simp [Db.owns, hl, run, Op.ok, exec, Db.dropOwned_nil]
  | some l =>
    simp only [run, exec_write_auto, Op.ok, exec, Db.delete_label, Db.delete_label_pos, Db.owns, hl,
      Option.any_some, Option.toList_some, Bool.decide_eq_true]

theorem releasePort_run (db : Db) (port : UInt16) :
    Registry.releasePort [] db u port = (db.hasPort u port, db.dropOwned u [] [port]) := by
  unfold Registry.releasePort releasePortOwned
  simp only [run, exec_write_auto, Op.ok, exec, Db.delete_port, Db.delete_port_pos, Bool.decide_eq_true]

/-- A failed query lists nothing. -/
theorem ownedHostnames_eq (faults : Faults) : Registry.ownedHostnames faults db domain u =
    if Clear faults 1 then Registry.ownedHostnames [] db domain u else [] := by
  simp only [clear_one]
  rcases faults with _ | ⟨_ | e, faults⟩ <;> rfl

theorem ownedPorts_eq (faults : Faults) : Registry.ownedPorts faults db u =
    if Clear faults 1 then Registry.ownedPorts [] db u else [] := by
  simp only [clear_one]
  rcases faults with _ | ⟨_ | e, faults⟩ <;> rfl

theorem mem_ownedHostnames {h : String} :
    h ∈ Registry.ownedHostnames [] db domain u ↔
      ∃ r ∈ db.hostnames, r.userId = u ∧ fqdn domain r.label = h := by
  have hrun : Registry.ownedHostnames [] db domain u =
      ((db.hostnames.filter (·.userId == u)).insertionSort fun a b =>
        a.createdAt < b.createdAt ∨ a.createdAt = b.createdAt ∧ a.id ≤ b.id).map
          fun r => fqdn domain r.label := rfl
  rw [hrun, List.mem_map]
  simp only [List.mem_insertionSort, List.mem_filter, beq_iff_eq, and_assoc]

theorem mem_ownedPorts {p : UInt16} :
    p ∈ Registry.ownedPorts [] db u ↔ db.hasPort u p = true := by
  have hrun : Registry.ownedPorts [] db u =
      ((db.tcpPorts.filter (·.userId == u)).insertionSort fun a b => a.port ≤ b.port).map (·.port) := rfl
  rw [hrun, List.mem_map, Db.hasPort_iff]
  simp only [List.mem_insertionSort, List.mem_filter, beq_iff_eq, and_assoc]
  exact exists_congr fun r => and_congr_right fun _ => and_comm

end answers

/-! ### Bulk release -/

variable {db} in
/-- Deleting by user alone is dropping every label of the user. -/
theorem Db.dropOwned_all_hosts {id : Int} : (db.deleteHostnames (·.userId == id)).2 =
    db.dropOwned id ((db.hostnames.filter (·.userId == id)).map (·.label)) [] := by
  apply Db.ext'
  simp only [Db.dropOwned, Db.deleteHostnames, Db.deletePorts, Tables.mk.injEq, true_and]
  refine ⟨List.filter_congr fun r hr => ?_, by simp⟩
  cases hu : r.userId == id with
  | false => simp
  | true =>
    have : r.label ∈ (db.hostnames.filter (·.userId == id)).map (·.label) :=
      List.mem_map.2 ⟨r, List.mem_filter.2 ⟨hr, hu⟩, rfl⟩
    simp only [List.contains_eq_mem, this, decide_true, Bool.and_true]

variable {db} in
theorem Db.dropOwned_all {id : Int} :
    ((db.deleteHostnames (·.userId == id)).2.deletePorts (·.userId == id)).2 =
      db.dropOwned id ((db.hostnames.filter (·.userId == id)).map (·.label))
        ((db.tcpPorts.filter (·.userId == id)).map (·.port)) := by
  rw [Db.dropOwned_all_hosts, ← Db.dropOwned_dropOwned]
  apply Db.ext'
  simp only [Db.dropOwned, Db.deleteHostnames, Db.deletePorts, Tables.mk.injEq, true_and]
  refine ⟨by simp, ?_⟩
  simp only [List.contains_nil, Bool.false_and, Bool.not_false, List.filter_true]
  refine List.filter_congr fun r hr => ?_
  cases hu : r.userId == id with
  | false => simp
  | true =>
    have : r.port ∈ (db.tcpPorts.filter (·.userId == id)).map (·.port) :=
      List.mem_map.2 ⟨r, List.mem_filter.2 ⟨hr, hu⟩, rfl⟩
    simp only [List.contains_eq_mem, this, decide_true, Bool.and_true]

/-- `release_user_hostnames` touches rows of the named user only. -/
theorem releaseUserHostnames_effect (name : String) (releasePorts : Bool) :
    Post (fun res db' => ((∃ e, res = .error e) ∧ db' = db) ∨
        ∃ id hosts ports, db.userIdOf name = some id ∧ res = .ok (hosts, ports) ∧
          hosts = (db.hostnames.filter (·.userId == id)).map (·.label) ∧
          ports = (if releasePorts then (db.tcpPorts.filter (·.userId == id)).map (·.port) else []) ∧
          db' = db.dropOwned id hosts ports)
      (releaseUserHostnames name releasePorts) db none := by
  have hfail : ∀ e : RegistryError, (∃ e', (Except.error e :
      Except RegistryError (List String × List UInt16)) = .error e') ∧ db = db := fun e => ⟨⟨_, rfl⟩, rfl⟩
  refine (post_begin _).2 ⟨fun e => Or.inl (hfail _), (post_query _ _).2 ⟨fun e => Or.inl (hfail _), ?_⟩⟩
  simp only [Option.getD_some]
  cases hid : db.userIdOf name with
  | none => exact Or.inl (hfail _)
  | some id =>
    refine (post_query _ _).2 ⟨fun e => Or.inl (hfail _), ?_⟩
    refine (post_write_tx _ _ _).2 ⟨fun e => Or.inl (hfail _), ?_⟩
    cases releasePorts with
    | true =>
      refine (post_query _ _).2 ⟨fun e => Or.inl (hfail _), ?_⟩
      refine (post_write_tx _ _ _).2 ⟨fun e => Or.inl (hfail _), ?_⟩
      refine (post_commit _).2 ⟨fun e => Or.inl (hfail _), ?_⟩
      exact Or.inr ⟨id, _, _, rfl, rfl, rfl, rfl, Db.dropOwned_all⟩
    | false =>
      refine (post_commit _).2 ⟨fun e => Or.inl (hfail _), ?_⟩
      exact Or.inr ⟨id, _, _, rfl, rfl, rfl, rfl, Db.dropOwned_all_hosts⟩

end EtherTunnel
