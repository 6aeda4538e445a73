import EtherTunnel.Lib.Lts
import EtherTunnel.Registry.Accounts
import EtherTunnel.Registry.Isolation

/-!
# What a user id comes to mean

A session keeps the numeric id it authenticated with for its whole life (`session.rs:384-393`), and
every ownership check takes that number. The `users` table has a plain `INTEGER PRIMARY KEY`
(`registry.rs:138-175`), so the next account gets one more than the largest id *present*: after
`remove_user` of the newest account its id goes to the next account created, and a session of the
removed account then owns, lists and releases what the new account holds (`id_rebound`).

As long as the newest account is not removed, an id never comes to mean somebody else, and with the id
of `A` only resources of `A` can be reached (`ids_stay_bound`).

| here | there |
| --- | --- |
| `Issued` | a call has just answered the id for the account |
| `labelsOf`, `portsOf` | the rows joined with the `users` row they belong to, by account name |
| `ActsFor` | what the `Authenticator` methods do when given the id |
-/

namespace EtherTunnel

open Txn

/-- The database right after a call that answered `u` for the account `A`. -/
inductive Issued (hashToken : String → List UInt8) : Db → Int → String → Prop where
  | addUser {db db' : Db} {u now : Int} {A : String} {faults : Faults}
    (h : run faults (addUser now A) db = (.ok u, db')) : Issued hashToken db' u A
  | lookupUserId {db db' : Db} {u : Int} {A : String} {faults : Faults}
    (h : run faults (lookupUserId A) db = (.ok (some u), db')) : Issued hashToken db' u A
  | authenticate {db : Db} {u : Int} {A token : String} {faults : Faults}
    (h : Registry.authenticate faults db hashToken token = some ⟨u, A⟩) : Issued hashToken db u A

/-- A query answers what it computes, or fails; the database stays. -/
theorem run_query_ok {β : Type} {faults : Faults} {f : Db → β} {db db' : Db} {b : β}
    (h : run faults (query .db f Op.ok) db = (.ok b, db')) : b = f db ∧ db' = db := by
  have hpost : Post (fun res d => (∀ b, res = .ok b → b = f db) ∧ d = db)
      (query (ε := SqlError) (ρ := RegistryError) .db f Op.ok) db none :=
    (post_query _ _).2 ⟨fun e => ⟨nofun, rfl⟩, fun b hb => (Except.ok.inj hb).symm, rfl⟩
  have hr := post_run hpost faults
  rw [h] at hr
  exact ⟨hr.1 b rfl, hr.2⟩

theorem authenticate_eq_some {hashToken : String → List UInt8} {faults : Faults} {db : Db} {u : Int}
    {A token : String} (h : Registry.authenticate faults db hashToken token = some ⟨u, A⟩) :
    db.tokenHolder (hashToken token) = some (u, A, hashToken token) := by
  unfold Registry.authenticate at h
  dsimp only at h
  split at h
  · rename_i id name stored db' hrun
    split at h
    · rename_i hst
      cases h
      rw [← (run_query_ok hrun).1, hst]
    · cases h
  · cases h

/-- However the id was answered, it is the id of that account. -/
theorem Issued.accountOf {hashToken : String → List UInt8} {db : Db} {u : Int} {A : String}
    (h : Issued hashToken db u A) : db.accountOf u = some A := by
  cases h with
  | addUser h =>
    rename_i db0 now faults
    have heff := post_run (addUser_effect db0 now A) faults
    rw [h] at heff
    rcases heff with ⟨⟨e, he⟩, -⟩ | ⟨id, he, hc⟩
    · cases he
    · cases he
      exact hc.accountOf.2 (Or.inr ⟨rfl, rfl⟩)
  | lookupUserId h =>
    obtain ⟨hid, rfl⟩ := run_query_ok h
    exact Db.accountOf_iff_userIdOf.2 hid.symm
  | authenticate h => exact (Db.tokenHolder_eq_some.1 (authenticate_eq_some h)).2.1

/-! ## An id that denotes one account at most -/

/-- Whoever `u` denotes is `A`, and the next account gets another id. -/
structure Db.Settled (u : Int) (A : String) (db : Db) : Prop where
  name : ∀ B, db.accountOf u = some B → B = A
  used : ∃ r ∈ db.users, u ≤ r.id

section settled

open Db

variable {u : Int} {A : String} {db db' : Db}

theorem settled_of_accountOf (h : db.accountOf u = some A) : db.Settled u A := by
  refine ⟨fun B hB => Option.some.inj (hB.symm.trans h), ?_⟩
  obtain ⟨r, hr, rfl, -⟩ := accountOf_eq_some.1 h
  exact ⟨r, hr, le_refl _⟩

theorem Db.Settled.of_users (h : db.Settled u A) (he : db'.users = db.users) : db'.Settled u A := by
  refine ⟨fun B hB => h.name B ?_, ?_⟩
  · rw [← accountOf_congr he]; exact hB
  · rw [he]; exact h.used

theorem lt_nextId {ids : List Int} {i : Int} (h : i ∈ ids) : i < nextId ids := by
  unfold nextId
  split
  · rename_i hnone
    rw [List.max?_eq_none_iff] at hnone
    rw [hnone] at h; cases h
  · rename_i m hm
    have := (List.max?_eq_some_iff.1 hm).2 i h
    omega

/-- A new account gets an id above every id present. -/
theorem Db.Settled.of_created (h : db.Settled u A) {name : String} {id : Int}
    (hc : Created db db' name id) : db'.Settled u A := by
  obtain ⟨r, hr, hle⟩ := h.used
  have hlt : r.id < id := hc.id_eq ▸ lt_nextId (List.mem_map_of_mem hr)
  refine ⟨fun B hB => ?_, ?_⟩
  · rcases hc.accountOf.1 hB with hB | ⟨rfl, -⟩
    · exact h.name B hB
    · omega
  · obtain ⟨now, hrow⟩ := hc.users
    exact ⟨r, by rw [hrow]; exact List.mem_append_left _ hr, hle⟩

theorem Db.Settled.of_purged (h : db.Settled u A) {id : Int} (hp : Purged db db' id)
    (hnewer : ∃ r ∈ db.users, id < r.id) : db'.Settled u A := by
  refine ⟨fun B hB => h.name B (hp.accountOf.1 hB).1, ?_⟩
  obtain ⟨r, hr, hle⟩ := h.used
  by_cases hid : r.id = id
  · -- the witness goes; the newer account takes its place
    obtain ⟨r', hr', hlt⟩ := hnewer
    refine ⟨r', ?_, by omega⟩
    rw [hp.users]
    exact List.mem_filter.2 ⟨hr', by simp; omega⟩
  · refine ⟨r, ?_, hle⟩
    rw [hp.users]
    exact List.mem_filter.2 ⟨hr, by simpa using hid⟩

theorem users_insertHostname {v now id : Int} {l : String}
    (h : db.insertHostname v l now = .ok (id, db')) : db'.users = db.users := by
  obtain ⟨id', now', hrow⟩ := (insertHostname_ok h).row
  rw [hrow]

/-- Every call but `remove_user` keeps an id settled. -/
theorem settled_keeps {m : Mutation} (hm : m.removed? = none) : m.Keeps (Db.Settled u A) where
  deleteTokens := fun _ _ h => h.of_users rfl
  revokeTokens := fun _ _ _ h => h.of_users rfl
  deleteHostnames := fun _ _ h => h.of_users rfl
  deletePorts := fun _ _ h => h.of_users rfl
  insertToken := fun _ _ _ _ _ _ _ h hins => h.of_users (insertToken_ok hins).users
  insertUser := fun _ _ _ _ _ _ h hins => h.of_created (insertUser_ok hins)
  deleteUser := fun hr => by rw [hm] at hr; cases hr
  insertHostname := fun _ _ _ _ _ _ _ _ h hins => h.of_users (users_insertHostname hins)
  insertPort := fun _ _ _ _ _ _ _ h hins => h.of_users (users_insertPort hins)

/-- A `remove_user` is of an account that is not the newest. -/
def SparesNewest (db : Db) : Faults × Mutation → Prop
  | (_, .removeUser name _) => ∀ id ∈ db.userIdOf name, ∃ r ∈ db.users, id < r.id
  | _ => True

theorem settled_step {c : Faults × Mutation} (h : db.Settled u A) (hg : SparesNewest db c) :
    (c.2.exec c.1 db).Settled u A := by
  obtain ⟨faults, m⟩ := c
  cases hm : m.removed? with
  | none => exact Mutation.exec_of_keeps (settled_keeps hm) h faults
  | some n =>
    cases m with
    | removeUser name force =>
      dsimp only [Mutation.exec, Mutation.program]
      rw [Op.run_outcome]
      rcases post_run (removeUser_effect db name force) faults with ⟨-, husers⟩ | ⟨-, id, hid, hp⟩
      · exact h.of_users husers
      · exact h.of_purged hp (hg id hid)
    | _ => cases hm

end settled

/-! ## What the holder of an id can reach -/

namespace Db

variable {db db' : Db} {u : Int} {A : String}

/-- The labels of the account named `A`. -/
def labelsOf (db : Db) (A : String) : List String :=
  (db.hostnames.filter fun r => db.accountOf r.userId == some A).map (·.label)

/-- The ports of the account named `A`. -/
def portsOf (db : Db) (A : String) : List UInt16 :=
  (db.tcpPorts.filter fun r => db.accountOf r.userId == some A).map (·.port)

/-- The resources of every account but `A` are as they were. -/
def KeptBut (A : String) (db db' : Db) : Prop :=
  ∀ B, B ≠ A → db'.labelsOf B = db.labelsOf B ∧ db'.portsOf B = db.portsOf B

theorem label_mem_labelsOf (h : ∀ B, db.accountOf u = some B → B = A) {r : HostnameRec}
    (hr : r ∈ db.hostnames) (hu : r.userId = u) : r.label ∈ db.labelsOf A := by
  obtain ⟨B, hB⟩ := exists_account (db.valid.host_fk r hr)
  refine List.mem_map.2 ⟨r, List.mem_filter.2 ⟨hr, ?_⟩, rfl⟩
  rw [hB, h B (hu ▸ hB)]
  exact beq_self_eq_true _

theorem port_mem_portsOf (h : ∀ B, db.accountOf u = some B → B = A) {r : PortRec}
    (hr : r ∈ db.tcpPorts) (hu : r.userId = u) : r.port ∈ db.portsOf A := by
  obtain ⟨B, hB⟩ := exists_account (db.valid.port_fk r hr)
  refine List.mem_map.2 ⟨r, List.mem_filter.2 ⟨hr, ?_⟩, rfl⟩
  rw [hB, h B (hu ▸ hB)]
  exact beq_self_eq_true _

/-- The rows of an account that `u` does not denote are among the rows of users other than `u`. -/
theorem filter_account {α : Type} {owner : α → Int} {B : String} (hne : db.accountOf u ≠ some B)
    (l : List α) : l.filter (fun r => db.accountOf (owner r) == some B) =
      (l.filter (owner · != u)).filter fun r => db.accountOf (owner r) == some B := by
  rw [List.filter_filter]
  refine List.filter_congr fun r _ => ?_
  by_cases hu : owner r = u
  · simp [hu, hne]
  · simp [hu]

theorem keptBut_of_othersKept (h : ∀ B, db.accountOf u = some B → B = A) (ho : OthersKept u db db')
    (hu : db'.users = db.users) : KeptBut A db db' := by
  intro B hB
  have hne : db.accountOf u ≠ some B := fun he => hB (h B he)
  have hacc : db'.accountOf = db.accountOf := funext fun v => accountOf_congr hu
  simp only [labelsOf, portsOf, hacc]
  rw [filter_account hne db'.hostnames, ho.hostnames, ← filter_account hne,
    filter_account hne db'.tcpPorts, ho.tcpPorts, ← filter_account hne]
  exact ⟨rfl, rfl⟩

theorem keptBut_refl (A : String) (db : Db) : KeptBut A db db := fun _ _ => ⟨rfl, rfl⟩

end Db

/-- Given `u`, the `Authenticator` methods look at and change resources of the account `A` only. -/
structure ActsFor (domain : String) (u : Int) (A : String) (db : Db) : Prop where
  ownsHostname : ∀ faults name, Registry.ownsHostname faults db domain u name = true →
    ∃ l ∈ db.labelsOf A, labelOf domain name = some l
  ownsPort : ∀ faults port, Registry.ownsPort faults db u port = true → port ∈ db.portsOf A
  ownedHostnames : ∀ faults, ∀ name ∈ Registry.ownedHostnames faults db domain u,
    ∃ l ∈ db.labelsOf A, name = fqdn domain l
  ownedPorts : ∀ faults, ∀ port ∈ Registry.ownedPorts faults db u, port ∈ db.portsOf A
  claimHostname : ∀ faults now name max,
    db.KeptBut A (Registry.claimHostname faults db domain now u name max).2
  releaseHostname : ∀ faults name, db.KeptBut A (Registry.releaseHostname faults db domain u name).2
  releasePort : ∀ faults port, db.KeptBut A (Registry.releasePort faults db u port).2

section actsFor

variable {db : Db} {u : Int} {A : String}

theorem users_claimEffect {db' : Db} {label : String} {max : Option Int}
    {res : Except RegistryError Bool} (h : ClaimEffect db u label max res db') :
    db'.users = db.users := by
  cases h with
  | already => rfl
  | refused => rfl
  | inserted h =>
    obtain ⟨id, now, hrow⟩ := h.row
    rw [hrow]

/-- The database `claim_hostname` leaves is the one `claim_label_capped` left. -/
theorem claimHostname_snd (faults : Faults) (domain : String) (now : Int) (name : String)
    (max : Option Int) : (Registry.claimHostname faults db domain now u name max).2 = db ∨
      ∃ label, (Registry.claimHostname faults db domain now u name max).2 =
        (run faults (claimLabelCapped now u label max) db).2 := by
  unfold Registry.claimHostname
  split
  · exact Or.inl rfl
  · rename_i label _
    refine Or.inr ⟨label, ?_⟩
    split <;> (rename_i hrun; rw [hrun])

theorem keptBut_claimHostname (h : ∀ B, db.accountOf u = some B → B = A) (faults : Faults)
    (domain : String) (now : Int) (name : String) (max : Option Int) :
    db.KeptBut A (Registry.claimHostname faults db domain now u name max).2 := by
  rcases claimHostname_snd faults domain now name max with he | ⟨label, he⟩
  · rw [he]; exact Db.keptBut_refl A db
  · rw [he]
    have heff := post_run (claimLabelCapped_effect db u now label max) faults
    exact Db.keptBut_of_othersKept h (.of_claim heff) (users_claimEffect heff)

theorem keptBut_dropOwned (h : ∀ B, db.accountOf u = some B → B = A) (ls : List String)
    (ps : List UInt16) : db.KeptBut A (db.dropOwned u ls ps) :=
  Db.keptBut_of_othersKept h (.of_dropOwned ls ps) rfl

theorem ownsHostname_row {faults : Faults} {domain name : String}
    (h : Registry.ownsHostname faults db domain u name = true) :
    ∃ l, labelOf domain name = some l ∧ ∃ r ∈ db.hostnames, r.label = l ∧ r.userId = u := by
  obtain ⟨l, hl, hown⟩ := Db.owns_host_iff.1 (ownsHostname_eq_true.1 h).1
  exact ⟨l, hl, Db.hasLabel_iff.1 hown⟩

theorem ownsPort_row {faults : Faults} {port : UInt16}
    (h : Registry.ownsPort faults db u port = true) :
    ∃ r ∈ db.tcpPorts, r.port = port ∧ r.userId = u :=
  Db.hasPort_iff.1 (ownsPort_eq_true.1 h).1

theorem ownedHostnames_row {faults : Faults} {domain name : String}
    (h : name ∈ Registry.ownedHostnames faults db domain u) :
    ∃ r ∈ db.hostnames, r.userId = u ∧ name = fqdn domain r.label := by
  rw [ownedHostnames_eq] at h
  split at h
  · obtain ⟨r, hr, hu, rfl⟩ := mem_ownedHostnames.1 h
    exact ⟨r, hr, hu, rfl⟩
  · cases h

theorem ownedPorts_row {faults : Faults} {port : UInt16}
    (h : port ∈ Registry.ownedPorts faults db u) :
    ∃ r ∈ db.tcpPorts, r.userId = u ∧ port = r.port := by
  rw [ownedPorts_eq] at h
  split at h
  · obtain ⟨r, hr, rfl, hu⟩ := Db.hasPort_iff.1 (mem_ownedPorts.1 h)
    exact ⟨r, hr, hu, rfl⟩
  · cases h

theorem actsFor_of_name (domain : String) (h : ∀ B, db.accountOf u = some B → B = A) :
    ActsFor domain u A db where
  ownsHostname := by
    intro faults name hown
    obtain ⟨l, hl, r, hr, rfl, hu⟩ := ownsHostname_row hown
    exact ⟨r.label, Db.label_mem_labelsOf h hr hu, hl⟩
  ownsPort := by
    intro faults port hown
    obtain ⟨r, hr, rfl, hu⟩ := ownsPort_row hown
    exact Db.port_mem_portsOf h hr hu
  ownedHostnames := by
    intro faults name hn
    obtain ⟨r, hr, hu, rfl⟩ := ownedHostnames_row hn
    exact ⟨r.label, Db.label_mem_labelsOf h hr hu, rfl⟩
  ownedPorts := by
    intro faults port hp
    obtain ⟨r, hr, hu, rfl⟩ := ownedPorts_row hp
    exact Db.port_mem_portsOf h hr hu
  claimHostname := fun faults => keptBut_claimHostname h faults domain
  releaseHostname := by
    intro faults name
    rcases releaseHostname_effect db u faults domain name with he | ⟨l, -, -, he⟩
    · rw [he]; exact Db.keptBut_refl A db
    · rw [he]; exact keptBut_dropOwned h _ _
  releasePort := by
    intro faults port
    rcases releasePort_effect db u faults port with he | ⟨-, he⟩
    · rw [he]; exact Db.keptBut_refl A db
    · rw [he]; exact keptBut_dropOwned h _ _

end actsFor

/-! ## Runs of the registry -/

/-- **An id never comes to mean another account.** Once an id was answered for the account `A`, in
every run of registry calls that never removes the newest account, whichever statements fail, the id
denotes `A` or nobody in every database reached, and a session that still holds it reaches and changes
resources of `A` only. -/
theorem ids_stay_bound (hashToken : String → List UInt8) (domain : String) (db : Db) (u : Int)
    (A : String) (hissued : Issued hashToken db u A) (calls : List (Faults × Mutation))
    (hnewest : Lts.Steps Mutation.step SparesNewest db calls) :
    Lts.Always Mutation.step
      (fun db' => (∀ B, db'.accountOf u = some B → B = A) ∧ ActsFor domain u A db') db calls := by
  refine Lts.always_of_inv (I := Db.Settled u A) (fun db c db' h hg hstep => ?_)
    (fun db' h => ⟨h.name, actsFor_of_name domain h.name⟩)
    (settled_of_accountOf hissued.accountOf) hnewest
  cases hstep
  exact settled_step h hg

theorem annProvisioned_issued : Issued bytes annProvisioned 1 "ann" :=
  @Issued.authenticate bytes annProvisioned 1 "ann" "t1" [] (by decide)

/-- `ann` is removed while `bob`'s account is the newer one; `carl` gets a third id. -/
theorem ids_stay_bound_carl :
    (∃ db, Lts.run Mutation.step annProvisioned [([], .addUser 1 "bob"), ([], .removeUser "ann" true),
      ([], .addUser 2 "carl")] = some db ∧ db.accountOf 1 = none ∧ db.accountOf 3 = some "carl") ∧
    Lts.Always Mutation.step
      (fun db => (∀ B, db.accountOf 1 = some B → B = "ann") ∧ ActsFor "d.io" 1 "ann" db) annProvisioned
      [([], .addUser 1 "bob"), ([], .removeUser "ann" true), ([], .addUser 2 "carl")] := by
  refine ⟨⟨_, rfl, by decide⟩, ids_stay_bound bytes "d.io" _ 1 "ann" annProvisioned_issued _ ?_⟩
  refine ⟨trivial, fun _ h => ?_⟩
  cases h
  refine ⟨fun id hid => ?_, fun _ h => ?_⟩
  · cases hid
    exact ⟨⟨2, "bob", 1⟩, by decide, by decide⟩
  · cases h
    exact ⟨trivial, fun _ _ => trivial⟩

/-- The newest account removed: `bob` gets `ann`'s id, and with it `ann`'s session owns, lists and
releases `bob`'s label. -/
theorem id_rebound : Issued bytes annProvisioned 1 "ann" ∧
    ∃ db, Lts.run Mutation.step annProvisioned [([], .removeUser "ann" true), ([], .addUser 1 "bob"),
      ([], .addHostname 2 "blog" "bob")] = some db ∧
    db.accountOf 1 = some "bob" ∧ db.labelsOf "bob" = ["blog"] ∧
    Registry.ownsHostname [] db "d.io" 1 "blog.d.io" = true ∧
    Registry.ownedHostnames [] db "d.io" 1 = ["blog.d.io"] ∧
    (Registry.releaseHostname [] db "d.io" 1 "blog.d.io").1 = true ∧
    (Registry.releaseHostname [] db "d.io" 1 "blog.d.io").2.labelsOf "bob" = [] :=
  ⟨annProvisioned_issued, _, rfl, by decide⟩

end EtherTunnel
