import EtherTunnel.Registry.Mutations
import EtherTunnel.Registry.Owners

/-!
# Tenant isolation and the cap

| here | there |
| --- | --- |
| `OthersKept u` | the rows of every user but `u` are as they were |
| `ClaimTx` | one `claim_label_capped` call, its own `BEGIN IMMEDIATE` transaction |

The schema alone gives one owner per label and port. That labels are valid names is not in the schema;
every insert checks it first, so it holds of every reachable database (`reachable_labels`), and a user
who re-claims a label they own is never turned away by the name check.
-/

namespace EtherTunnel

open Txn

/-! ## What every call keeps -/

/-- A property of the owned rows that survives their loss. -/
def RowMono (I : Db → Prop) : Prop :=
  ∀ {db db' : Db}, db'.hostnames ⊆ db.hostnames → db'.tcpPorts ⊆ db.tcpPorts → I db → I db'

section keeps

open Db

theorem rows_insertUser {db db' : Db} {name : String} {now id : Int}
    (h : db.insertUser name now = .ok (id, db')) :
    db'.hostnames = db.hostnames ∧ db'.tcpPorts = db.tcpPorts := by
  unfold insertUser at h
  split at h
  · cases h
  · cases h; exact ⟨rfl, rfl⟩

theorem rows_insertToken {db db' : Db} {u now id : Int} {hash : List UInt8}
    {label : Option String} (h : db.insertToken u hash label now = .ok (id, db')) :
    db'.hostnames = db.hostnames ∧ db'.tcpPorts = db.tcpPorts := by
  unfold insertToken at h
  split at h
  · cases h; exact ⟨rfl, rfl⟩
  · cases h

theorem rows_deleteUser {db db' : Db} {id : Int} {x : Unit}
    (h : db.deleteUser id = .ok (x, db')) :
    db'.hostnames = db.hostnames ∧ db'.tcpPorts = db.tcpPorts := by
  unfold deleteUser at h
  split at h
  · cases h
  · cases h; exact ⟨rfl, rfl⟩

variable {I : Db → Prop}

theorem RowMono.of_eq (hI : RowMono I) {db db' : Db} (hdb : I db)
    (h : db'.hostnames = db.hostnames ∧ db'.tcpPorts = db.tcpPorts) : I db' :=
  hI (by rw [h.1]; exact List.Subset.refl _) (by rw [h.2]; exact List.Subset.refl _) hdb

/-- A property of the owned rows that survives their loss survives every call, if it survives the one
row the call may insert. -/
theorem Mutation.exec_keeps (hI : RowMono I) {db : Db} (h : I db) (faults : Faults) (m : Mutation)
    (hhost : ∀ label ∈ m.label?, validateLabel label = .ok () → ∀ u now db b db', I db →
      db.insertHostname u label now = .ok (b, db') → I db')
    (hport : ∀ port ∈ m.port?, ∀ u now db b db', I db →
      db.insertPort port u now = .ok (b, db') → I db') : I (m.exec faults db) := by
  refine Mutation.exec_of_keeps ?_ h faults
  exact {
    deleteTokens := fun _ _ hdb => hI.of_eq hdb ⟨rfl, rfl⟩
    revokeTokens := fun _ _ _ hdb => hI.of_eq hdb ⟨rfl, rfl⟩
    deleteHostnames := fun _ _ hdb => hI (List.filter_subset_self _) (List.Subset.refl _) hdb
    deletePorts := fun db _ hdb => hI (List.Subset.refl db.hostnames) (List.filter_subset_self _) hdb
    insertToken := fun _ _ _ _ _ _ _ hdb hins => hI.of_eq hdb (rows_insertToken hins)
    insertUser := fun _ _ _ _ _ _ hdb hins => hI.of_eq hdb (rows_insertUser hins)
    deleteUser := fun _ _ _ _ _ hdb hdel => hI.of_eq hdb (rows_deleteUser hdel)
    insertHostname := hhost
    insertPort := hport }

end keeps

/-! ### Labels -/

def Db.LabelsValid (db : Db) : Prop := ∀ r ∈ db.hostnames, validateLabel r.label = .ok ()

theorem labelsValid_rowMono : RowMono Db.LabelsValid := fun hsub _ h r hr => h r (hsub hr)

theorem labelsValid_insertHostname {db db' : Db} {u now id : Int} {l : String}
    (hl : validateLabel l = .ok ()) (h : db.LabelsValid)
    (hins : db.insertHostname u l now = .ok (id, db')) : db'.LabelsValid := by
  obtain ⟨id, now, hrow⟩ := (Db.insertHostname_ok hins).hostnames
  intro r hr
  rw [hrow] at hr
  rcases List.mem_append.1 hr with hr | hr
  · exact h r hr
  · rw [List.mem_singleton.1 hr]; exact hl

theorem rows_insertPort {db db' : Db} {u now : Int} {port : UInt16} {x : Unit}
    (h : db.insertPort port u now = .ok (x, db')) :
    db'.hostnames = db.hostnames ∧ db'.tcpPorts = db.tcpPorts ++ [⟨port, u, now⟩] := by
  unfold Db.insertPort at h
  split at h
  · cases h; exact ⟨rfl, rfl⟩
  · cases h

theorem users_insertPort {db db' : Db} {u now : Int} {port : UInt16} {x : Unit}
    (h : db.insertPort port u now = .ok (x, db')) : db'.users = db.users := by
  unfold Db.insertPort at h
  split at h
  · cases h; rfl
  · cases h

/-- Every label a registry ever holds passed `validate_label`. -/
theorem reachable_labels {db : Db} (h : Reachable db) : db.LabelsValid := by
  induction h with
  | empty => intro r hr; cases hr
  | call h faults m ih =>
    refine m.exec_keeps labelsValid_rowMono ih faults
      (fun label _ hl u now db b db' hdb hins => labelsValid_insertHostname hl hdb hins)
      (fun port _ u now db b db' hdb hins r hr => hdb r ?_)
    rw [(rows_insertPort hins).1] at hr
    exact hr

/-! ### New owners -/

/-- The resource a call may give an owner. -/
def Mutation.inserts (domain : String) (m : Mutation) : List Resource :=
  resources (m.label?.toList.map (fqdn domain)) m.port?.toList

theorem owns_insertPort {db db' : Db} {domain : String} {u v now : Int} {port : UInt16} {b : Unit}
    {x : Resource} (hins : db.insertPort port u now = .ok (b, db'))
    (h : db'.owns domain v x = true) : db.owns domain v x = true ∨ x = .port port := by
  obtain ⟨hhosts, hports⟩ := rows_insertPort hins
  cases x with
  | host n =>
    obtain ⟨l, hl, hown⟩ := Db.owns_host_iff.1 h
    rw [Db.hasLabel, hhosts] at hown
    exact Or.inl (Db.owns_host_iff.2 ⟨l, hl, hown⟩)
  | port p =>
    obtain ⟨r, hr, rfl, rfl⟩ := Db.hasPort_iff.1 h
    rw [hports] at hr
    rcases List.mem_append.1 hr with hr | hr
    · exact Or.inl (Db.hasPort_iff.2 ⟨r, hr, rfl, rfl⟩)
    · rw [List.mem_singleton.1 hr]; exact Or.inr rfl

theorem notOwned_rowMono (domain : String) (v : Int) (x : Resource) :
    RowMono fun db => ¬ db.owns domain v x = true := by
  intro db db' hhosts hports h hown
  refine h ?_
  cases x with
  | host n =>
    obtain ⟨l, hl, hown⟩ := Db.owns_host_iff.1 hown
    obtain ⟨r, hr, hrl⟩ := Db.hasLabel_iff.1 hown
    exact Db.owns_host_iff.2 ⟨l, hl, Db.hasLabel_iff.2 ⟨r, hhosts hr, hrl⟩⟩
  | port p =>
    obtain ⟨r, hr, hrp⟩ := Db.hasPort_iff.1 hown
    exact Db.hasPort_iff.2 ⟨r, hports hr, hrp⟩

/-- A call makes nobody the owner of a resource it does not insert. -/
theorem Mutation.exec_notOwned {db : Db} {domain : String} {v : Int} {x : Resource} (faults : Faults)
    {m : Mutation} (hx : x ∉ m.inserts domain) (h : ¬ db.owns domain v x = true) :
    ¬ (m.exec faults db).owns domain v x = true := by
  refine m.exec_keeps (notOwned_rowMono domain v x) h faults
    (fun label hlabel hl u now db id db' hdb hins hown => ?_)
    (fun port hport u now db b db' hdb hins hown => ?_)
  · have hl' : labelOf domain (fqdn domain label) = some label := labelOf_eq_some.2 ⟨rfl, hl⟩
    rcases ((Db.insertHostname_ok hins).owns hl' x).1 hown with hold | ⟨-, rfl⟩
    · exact hdb hold
    · exact hx (host_mem_resources.2 (List.mem_map_of_mem (Option.mem_toList.2 hlabel)))
  · rcases owns_insertPort hins hown with hold | rfl
    · exact hdb hold
    · exact hx (port_mem_resources.2 (Option.mem_toList.2 hport))

/-! ## Other users' rows -/

/-- Every hostname, port and token row of a user other than `u` is as it was. -/
structure OthersKept (u : Int) (db db' : Db) : Prop where
  hostnames : db'.hostnames.filter (·.userId != u) = db.hostnames.filter (·.userId != u)
  tcpPorts : db'.tcpPorts.filter (·.userId != u) = db.tcpPorts.filter (·.userId != u)
  tokens : db'.tokens.filter (·.userId != u) = db.tokens.filter (·.userId != u)

namespace OthersKept

variable {u : Int} {db db' : Db}

theorem refl (u : Int) (db : Db) : OthersKept u db db := ⟨rfl, rfl, rfl⟩

theorem of_inserted {l : String} (h : db.Inserted db' u l) : OthersKept u db db' := by
  obtain ⟨id, now, hrow⟩ := h.row
  constructor
  · rw [hrow]; simp
  · rw [hrow]
  · rw [hrow]

theorem of_dropOwned (ls : List String) (ps : List UInt16) :
    OthersKept u db (db.dropOwned u ls ps) := by
  constructor
  · rw [Db.dropOwned_hostnames, List.filter_filter]
    refine List.filter_congr fun r _ => ?_
    cases hu : r.userId == u <;> simp [bne, hu]
  · rw [Db.dropOwned_tcpPorts, List.filter_filter]
    refine List.filter_congr fun r _ => ?_
    cases hu : r.userId == u <;> simp [bne, hu]
  · rfl

theorem of_claim {label : String} {max : Option Int} {res : Except RegistryError Bool}
    (h : ClaimEffect db u label max res db') : OthersKept u db db' := by
  cases h with
  | already => exact refl u db
  | inserted h => exact of_inserted h
  | refused => exact refl u db

end OthersKept

/-! ## Claims under a cap -/

/-- One `claim_label_capped` call: its own immediate transaction. -/
structure ClaimTx where
  faults : Faults
  now : Int
  userId : Int
  label : String
  max : Option Int

def ClaimTx.exec (db : Db) (t : ClaimTx) : Db :=
  (run t.faults (claimLabelCapped t.now t.userId t.label t.max) db).2

theorem ClaimEffect.countOwned {db db' : Db} {u v : Int} {label : String} {max : Option Int}
    {res : Except RegistryError Bool} (h : ClaimEffect db v label max res db') {m : Int}
    (hm : v = u → max = some m) (hc : db.countOwned u ≤ m) : db'.countOwned u ≤ m := by
  cases h with
  | already => exact hc
  | refused => exact hc
  | inserted h hcap =>
    rw [h.countOwned]
    by_cases hu : u = v
    · have := hcap m (hm hu.symm)
      rw [hu, if_pos rfl]; omega
    · rw [if_neg hu]; omega

theorem ClaimEffect.error_eq {db db' : Db} {u : Int} {label : String} {max : Option Int}
    {e : RegistryError} (h : ClaimEffect db u label max (.error e) db') : db' = db := by
  cases h; rfl

theorem countOwned_claims {u m : Int} : ∀ (txs : List ClaimTx) {db : Db},
    (∀ t ∈ txs, t.userId = u → t.max = some m) → db.countOwned u ≤ m →
      (txs.foldl ClaimTx.exec db).countOwned u ≤ m
  | [], _, _, hc => hc
  | t :: txs, db, hm, hc => by
    rw [List.foldl_cons]
    refine countOwned_claims txs (fun t' ht' => hm t' (List.mem_cons_of_mem _ ht')) ?_
    exact (post_run (claimLabelCapped_effect _ _ t.now t.label t.max) t.faults).countOwned
      (hm t List.mem_cons_self) hc

/-! ## Re-claiming an owned label -/

theorem claimLabelCapped_owned {db : Db} {u : Int} {label : String} (hl : validateLabel label = .ok ())
    (hown : db.hasLabel u label = true) (now : Int) (max : Option Int) :
    run [] (claimLabelCapped now u label max) db = (.ok false, db) := by
  have ho : db.labelOwner label = some u := Db.labelOwner_eq_some.2 hown
  simp [claimLabelCapped, hl, run, begin, query, tryStmt, exec, Conn.fault, Conn.pop, Conn.view,
    Conn.write, ho, Op.ok]

theorem claimLabelCapped_owned_kept {db : Db} {u : Int} {label : String}
    (hl : validateLabel label = .ok ()) (hown : db.hasLabel u label = true) (now : Int)
    (max : Option Int) :
    Post (fun res db' => (res = .ok false ∨ ∃ e, res = .error (.db e)) ∧ db' = db)
      (claimLabelCapped now u label max) db none := by
  have ho : db.labelOwner label = some u := Db.labelOwner_eq_some.2 hown
  simp [claimLabelCapped, hl, ho, Op.ok]

/-! ## The registry is safe for its tenants -/

/-- **Tenant isolation and cap safety.** In every reachable database, for every user `u`, whichever
statements fail:
* none of the five mutators run for `u` touches another user's rows;
* a label and a port have one owner, who exists;
* a claim that is refused changes nothing;
* re-claiming an owned label succeeds without effect, under any cap;
* claims in any serial order, all of `u`'s under the cap `m`, never take `u` past `m`. -/
theorem registry_isolated (db : Db) (hdb : Reachable db) (u : Int) :
    ((∀ faults now label max,
        OthersKept u db (run faults (claimLabelCapped now u label max) db).2) ∧
      (∀ faults domain name,
        OthersKept u db (run faults (releaseHostnameOwned domain u name) db).2) ∧
      (∀ faults port, OthersKept u db (run faults (releasePortOwned u port) db).2) ∧
      (∀ faults cap, OthersKept u db (run faults (pruneOwnedToCap u cap) db).2) ∧
      (∀ faults name ports, db.userIdOf name = some u →
        OthersKept u db (run faults (releaseUserHostnames name ports) db).2)) ∧
    ((∀ r ∈ db.hostnames, ∀ r' ∈ db.hostnames, r.label = r'.label → r = r') ∧
      (∀ r ∈ db.tcpPorts, ∀ r' ∈ db.tcpPorts, r.port = r'.port → r = r') ∧
      (∀ r ∈ db.hostnames, ∃ user ∈ db.users, user.id = r.userId) ∧
      (∀ r ∈ db.tcpPorts, ∃ user ∈ db.users, user.id = r.userId)) ∧
    (∀ faults now label max e, (run faults (claimLabelCapped now u label max) db).1 = .error e →
      (run faults (claimLabelCapped now u label max) db).2 = db) ∧
    (∀ label, db.hasLabel u label = true → ∀ now max,
      run [] (claimLabelCapped now u label max) db = (.ok false, db) ∧
      ∀ faults, (run faults (claimLabelCapped now u label max) db).2 = db ∧
        ((run faults (claimLabelCapped now u label max) db).1 = .ok false ∨
          ∃ e, (run faults (claimLabelCapped now u label max) db).1 = .error (.db e))) ∧
    (∀ m, db.countOwned u ≤ m → ∀ txs : List ClaimTx,
      (∀ t ∈ txs, t.userId = u → t.max = some m) →
        (txs.foldl ClaimTx.exec db).countOwned u ≤ m) := by
  refine ⟨⟨fun faults now label max => ?_, fun faults domain name => ?_, fun faults port => ?_,
    fun faults cap => ?_, fun faults name ports hname => ?_⟩,
    ⟨fun r hr r' hr' => Db.hostname_ext hr hr', fun r hr r' hr' => Db.port_ext hr hr',
      fun r hr => List.mem_map.1 (db.valid.host_fk r hr),
      fun r hr => List.mem_map.1 (db.valid.port_fk r hr)⟩,
    fun faults now label max e he => ?_, fun label hown now max => ?_,
    fun m hm txs htxs => countOwned_claims txs htxs hm⟩
  · exact .of_claim (post_run (claimLabelCapped_effect db u now label max) faults)
  · rcases post_run (releaseHostnameOwned_effect db u domain name) faults with
      ⟨-, h⟩ | ⟨-, l, -, -, h⟩
    · rw [h]; exact .refl u db
    · rw [h]; exact .of_dropOwned _ _
  · rcases post_run (releasePortOwned_effect db u port) faults with ⟨-, h⟩ | ⟨-, -, h⟩
    · rw [h]; exact .refl u db
    · rw [h]; exact .of_dropOwned _ _
  · rcases post_run (pruneOwnedToCap_effect db u cap) faults with ⟨-, h⟩ | ⟨-, h⟩
    · rw [h]; exact .refl u db
    · rw [h]; exact .of_dropOwned _ _
  · rcases post_run (releaseUserHostnames_effect db name ports) faults with
      ⟨-, h⟩ | ⟨id, hosts, ps, hid, -, -, -, h⟩
    · rw [h]; exact .refl u db
    · rw [hname, Option.some.injEq] at hid
      rw [h, ← hid]; exact .of_dropOwned _ _
  · have heff := post_run (claimLabelCapped_effect db u now label max) faults
    rw [he] at heff
    exact heff.error_eq
  · obtain ⟨r, hr, hrl, -⟩ := Db.hasLabel_iff.1 hown
    have hl : validateLabel label = .ok () := hrl ▸ reachable_labels hdb r hr
    refine ⟨claimLabelCapped_owned hl hown now max, fun faults => ?_⟩
    have hpost := post_run (claimLabelCapped_owned_kept hl hown now max) faults
    exact ⟨hpost.2, hpost.1⟩

/-- Two users with a label each, and a port of the second. -/
def twoTenants : Db :=
  [Mutation.addUser 0 "ann", .addUser 0 "bob", .claimLabelCapped 1 1 "shop" (some 2),
    .claimLabelCapped 2 2 "blog" none, .addPort 3 20000 "bob"].foldl (fun db m => m.exec [] db) Db.empty

theorem twoTenants_reachable : Reachable twoTenants := Reachable.calls _ .empty

/-- Pruning `ann` to nothing leaves `bob`'s label and port; racing claims leave `ann` at the cap. -/
theorem registry_isolated_twoTenants :
    twoTenants.countOwned 1 = 1 ∧ twoTenants.countOwned 2 = 2 ∧
    OthersKept 1 twoTenants (run [] (pruneOwnedToCap 1 0) twoTenants).2 ∧
    ([⟨[], 4, 1, "a", some 2⟩, ⟨[], 4, 1, "b", some 2⟩].foldl ClaimTx.exec twoTenants).countOwned 1 ≤
      2 := by
  have h := registry_isolated twoTenants twoTenants_reachable 1
  exact ⟨by decide, by decide, h.1.2.2.2.1 [] 0, h.2.2.2.2 2 (by decide) _ (by decide)⟩

end EtherTunnel
