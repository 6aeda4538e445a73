import EtherTunnel.Registry.Accounts
import EtherTunnel.Registry.Isolation

/-!
# What a failed call leaves

Twelve of the fifteen mutators either write once or write inside one immediate transaction, so that an
`Err` means that nothing happened. Three write several times without a transaction, and an `Err` from a
later statement leaves the earlier ones committed:

* `remove_user` (`registry.rs:250`): tokens, hostnames, ports and the account go one by one;
* `provision_user_token` (`registry.rs:277`): the new account stays when its token is not inserted;
* `rotate_user_token` (`registry.rs:315`): the old tokens stay revoked when the new one is not
  inserted, which locks the account out (`rotation_locks_out`).

`HalfDone` says, statement by statement, when that happens, and `failed_call_changes_nothing_iff` that
it happens in no other case.
-/

namespace EtherTunnel

open Txn Db

/-- A statement of the call fails after an autocommitted one has changed the database. Statements are
counted from 0, and the lookup of the account is the first. -/
def Mutation.HalfDone (faults : Faults) (db : Db) : Mutation → Prop
  | .provisionUserToken _ _ hash name =>
    db.userIdOf name = none ∧ fails faults 0 = false ∧ fails faults 1 = false ∧
      (fails faults 2 = true ∨ hash ∈ db.tokens.map (·.tokenHash))
  | .rotateUserToken _ _ hash name =>
    fails faults 0 = false ∧ fails faults 1 = false ∧
      match db.userIdOf name with
      | some id => (∃ t ∈ db.tokens, t.userId = id ∧ t.revokedAt = none) ∧
          (fails faults 2 = true ∨ hash ∈ db.tokens.map (·.tokenHash))
      | none => fails faults 2 = true ∨ fails faults 3 = true ∨ hash ∈ db.tokens.map (·.tokenHash)
  | .removeUser name force =>
    ∃ id, db.userIdOf name = some id ∧ force = true ∧
      fails faults 0 = false ∧ fails faults 1 = false ∧ fails faults 2 = false ∧
      (fails faults 3 = true ∧ (∃ t ∈ db.tokens, t.userId = id) ∨
        fails faults 3 = false ∧ fails faults 4 = true ∧
          ((∃ t ∈ db.tokens, t.userId = id) ∨ ∃ r ∈ db.hostnames, r.userId = id) ∨
        fails faults 3 = false ∧ fails faults 4 = false ∧ fails faults 5 = true ∧
          ((∃ t ∈ db.tokens, t.userId = id) ∨ (∃ r ∈ db.hostnames, r.userId = id) ∨
            ∃ r ∈ db.tcpPorts, r.userId = id))
  | _ => False

/-! ## The calls that are atomic -/

section atomic

variable (faults : Faults) (db : Db)

theorem post_ok_err {α : Type} {s db : Db} {tx : Option Db} (a : α) :
    Post (fun res d => ∀ e, res = .error e → d = s) (Op.ok a) db tx := by
  intro e he
  cases he

variable {db} in
theorem errLeaves_of_effect {α : Type} {p : Op α} {Q : Except RegistryError α → Db → Prop}
    (h : Post Q p db none) (hQ : ∀ res db', Q res db' → db' = db ∨ ∃ a, res = .ok a) :
    ErrLeaves db faults p db := by
  refine errLeaves_of_post (h.mono fun res db' hq e he => ?_) faults
  rcases hQ res db' hq with heq | ⟨a, ha⟩
  · exact heq
  · rw [he] at ha; cases ha

theorem addUser_errLeaves (now : Int) (name : String) : ErrLeaves db faults (addUser now name) db := by
  refine errLeaves_of_effect faults (addUser_effect db now name) ?_
  rintro res db' (⟨-, h⟩ | ⟨id, h, -⟩)
  · exact Or.inl h
  · exact Or.inr ⟨_, h⟩

theorem createToken_errLeaves (now : Int) (token : String) (hash : List UInt8) (user : String)
    (label : Option String) : ErrLeaves db faults (createToken now token hash user label) db := by
  refine errLeaves_of_post (post_withUserId (fun _ _ _ => rfl) fun id hid => ?_) faults
  exact (post_tryStmt_auto _ _).2 ⟨fun _ _ _ => rfl, fun _ _ _ => post_ok_err _⟩

theorem revokeToken_errLeaves (now id : Int) : ErrLeaves db faults (revokeToken now id) db :=
  errLeaves_last _ _

theorem addHostname_errLeaves (now : Int) (label user : String) :
    ErrLeaves db faults (addHostname now label user) db := by
  refine errLeaves_of_post ?_ faults
  unfold addHostname
  split
  · exact fun _ _ => rfl
  · refine post_withUserId (fun _ _ _ => rfl) fun id hid => ?_
    refine (post_query _ _).2 ⟨fun _ _ _ => rfl, ?_⟩
    split
    · exact fun _ _ => rfl
    · exact (post_tryStmt_auto _ _).2 ⟨fun _ _ _ => rfl, fun _ _ _ => post_ok_err _⟩

theorem removeHostname_errLeaves (label : String) : ErrLeaves db faults (removeHostname label) db :=
  errLeaves_last _ _

theorem addPort_errLeaves (now : Int) (port : UInt16) (user : String) :
    ErrLeaves db faults (addPort now port user) db := by
  refine errLeaves_of_post ((post_begin _).2 ⟨fun _ _ _ => rfl, ?_⟩) faults
  refine post_withUserId (fun _ _ _ => rfl) fun id hid => ?_
  refine (post_query _ _).2 ⟨fun _ _ _ => rfl, ?_⟩
  split
  · exact fun _ _ => rfl
  · refine (post_tryStmt_tx _ _ _).2 ⟨fun _ _ _ => rfl, fun _ db' hins => ?_⟩
    exact (post_commit _).2 ⟨fun _ _ _ => rfl, post_ok_err _⟩

theorem removePort_errLeaves (port : UInt16) : ErrLeaves db faults (removePort port) db :=
  errLeaves_last _ _

theorem releaseUserHostnames_errLeaves (name : String) (ports : Bool) :
    ErrLeaves db faults (releaseUserHostnames name ports) db := by
  refine errLeaves_of_effect faults (releaseUserHostnames_effect db name ports) ?_
  rintro res db' (⟨-, h⟩ | ⟨_, _, _, _, h, -⟩)
  · exact Or.inl h
  · exact Or.inr ⟨_, h⟩

theorem releaseHostnameOwned_errLeaves (domain : String) (u : Int) (name : String) :
    ErrLeaves db faults (releaseHostnameOwned domain u name) db := by
  refine errLeaves_of_effect faults (releaseHostnameOwned_effect db u domain name) ?_
  rintro res db' (⟨-, h⟩ | ⟨h, -⟩)
  · exact Or.inl h
  · exact Or.inr ⟨_, h⟩

theorem releasePortOwned_errLeaves (u : Int) (port : UInt16) :
    ErrLeaves db faults (releasePortOwned u port) db := by
  refine errLeaves_of_effect faults (releasePortOwned_effect db u port) ?_
  rintro res db' (⟨-, h⟩ | ⟨h, -⟩)
  · exact Or.inl h
  · exact Or.inr ⟨_, h⟩

theorem claimLabelCapped_errLeaves (now u : Int) (label : String) (max : Option Int) :
    ErrLeaves db faults (claimLabelCapped now u label max) db := by
  refine errLeaves_of_effect faults (claimLabelCapped_effect db u now label max) ?_
  intro res db' h
  cases h with
  | already => exact Or.inl rfl
  | inserted => exact Or.inr ⟨_, rfl⟩
  | refused => exact Or.inl rfl

theorem pruneOwnedToCap_errLeaves (u cap : Int) :
    ErrLeaves db faults (pruneOwnedToCap u cap) db := by
  refine errLeaves_of_effect faults (pruneOwnedToCap_effect db u cap) ?_
  rintro res db' (⟨-, h⟩ | ⟨h, -⟩)
  · exact Or.inl h
  · exact Or.inr ⟨_, h⟩

end atomic

/-! ## The calls that are not -/

section halfDone

variable {faults : Faults} {db : Db}

/-- The token insert that ends a provisioning or a rotation fails from outside or on its hash. -/
theorem errLeaves_mint {α : Type} {s db' : Db} {id now : Int} {hash : List UInt8}
    {label : Option String} {a : α} {name : String} (hid : db'.userIdOf name = some id) :
    ErrLeaves s faults (tryStmt RegistryError.db (·.insertToken id hash label now) fun _ => Op.ok a) db' ↔
      (fails faults 0 = true ∨ hash ∈ db'.tokens.map (·.tokenHash) → db' = s) := by
  obtain ⟨r, hr, -, hrid⟩ := userIdOf_eq_some.1 hid
  have hmem : id ∈ db'.users.map (·.id) := List.mem_map.2 ⟨r, hr, hrid⟩
  rw [errLeaves_tryStmt]
  cases hf : fails faults 0 with
  | true => simp
  | false =>
    by_cases hh : hash ∈ db'.tokens.map (·.tokenHash)
    · have : db'.insertToken id hash label now = .error .constraint := by
        unfold insertToken; rw [dif_neg (by tauto)]
      simp only [this, hh]; simp
    · obtain ⟨x, hx⟩ : ∃ x, db'.insertToken id hash label now = .ok x := by
        unfold insertToken; rw [dif_pos ⟨hh, hmem⟩]; exact ⟨_, rfl⟩
      simp [hx, hh, Op.ok]

theorem provisionUserToken_errLeaves (now : Int) (token : String) (hash : List UInt8) (name : String) :
    ErrLeaves db faults (provisionUserToken now token hash name) db ↔
      ¬ (Mutation.provisionUserToken now token hash name).HalfDone faults db := by
  rw [provisionUserToken, withAccount, errLeaves_query, Mutation.HalfDone]
  cases h0 : fails faults 0 with
  | true => simp
  | false =>
    cases hid : db.userIdOf name with
    | some id => simp [errLeaves_mint hid]
    | none =>
      obtain ⟨db1, hins⟩ := insertUser_free hid now
      have hc := insertUser_ok hins
      simp only [Bool.false_eq_true, if_false, errLeaves_tryStmt, fails_tail, hins,
        errLeaves_mint (Account.userIdOf (Or.inr hc)), hc.tokens, hc.ne]
      cases h1 : fails faults 1 <;> simp

theorem revokeTokens_eq_self {p : TokenRec → Bool} {now : Int} :
    (db.revokeTokens p now).2 = db ↔ ∀ t ∈ db.tokens, p t = true → t.revokedAt ≠ none := by
  rw [Db.eq_iff]
  simp only [revokeTokens, true_and, and_true]
  nth_rewrite 2 [← List.map_id db.tokens]
  rw [List.map_eq_map_iff]
  refine forall₂_congr fun t ht => ?_
  split
  · rename_i hc
    simp only [Bool.and_eq_true, Option.isNone_iff_eq_none] at hc
    refine iff_of_false (fun h => ?_) (fun h => h hc.1 hc.2)
    have hrev := congrArg TokenRec.revokedAt h
    rw [id, hc.2] at hrev
    cases hrev
  · rename_i hc
    simp only [Bool.and_eq_true, Option.isNone_iff_eq_none] at hc
    exact iff_of_true rfl fun hp hn => hc ⟨hp, hn⟩

/-- A new account has no token to revoke. -/
theorem Db.Created.revokeTokens {db' : Db} {name : String} {id now : Int} (hc : Created db db' name id) :
    (db'.revokeTokens (·.userId == id) now).2 = db' := by
  refine revokeTokens_eq_self.2 fun t ht hid _ => ?_
  rw [hc.tokens] at ht
  have := db.valid.token_fk t ht
  rw [beq_iff_eq.1 hid, hc.id_eq] at this
  exact nextId_notMem _ this

theorem rotateUserToken_errLeaves (now : Int) (token : String) (hash : List UInt8) (name : String) :
    ErrLeaves db faults (rotateUserToken now token hash name) db ↔
      ¬ (Mutation.rotateUserToken now token hash name).HalfDone faults db := by
  rw [rotateUserToken, withAccount, errLeaves_query, Mutation.HalfDone]
  cases h0 : fails faults 0 with
  | true => simp
  | false =>
    cases hid : db.userIdOf name with
    | some id =>
      have hid' : (db.revokeTokens (·.userId == id) now).2.userIdOf name = some id := hid
      simp only [Bool.false_eq_true, if_false, errLeaves_write, fails_tail, errLeaves_mint hid',
        revokeTokens_hashes, revokeTokens_eq_self]
      cases h1 : fails faults 1 with
      | true => simp
      | false =>
        simp only [Bool.false_eq_true, if_false]
        constructor
        · rintro h ⟨-, -, ⟨t, ht, hu, hr⟩, hbad⟩
          exact h hbad t ht (by simpa using hu) hr
        · intro h hbad t ht hu hr
          exact h ⟨trivial, trivial, ⟨t, ht, by simpa using hu, hr⟩, hbad⟩
    | none =>
      obtain ⟨db1, hins⟩ := insertUser_free hid now
      have hc := insertUser_ok hins
      have hacc : db1.userIdOf name = some _ := Account.userIdOf (Or.inr hc)
      simp only [Bool.false_eq_true, if_false, errLeaves_tryStmt (Db.insertUser · name now),
        errLeaves_write, fails_tail, hins, hc.revokeTokens, errLeaves_mint hacc, hc.tokens, hc.ne]
      cases h1 : fails faults 1 <;> cases h2 : fails faults 2 <;> simp

/-- With its rows gone, the account row can be deleted. -/
theorem deleteUser_unreferenced (db : Db) (id : Int) : ∃ db',
    ((((db.deleteTokens (·.userId == id)).2.deleteHostnames (·.userId == id)).2.deletePorts
      (·.userId == id)).2).deleteUser id = .ok ((), db') := by
  unfold deleteUser
  rw [dif_neg]
  · exact ⟨_, rfl⟩
  · simp [referenced, deleteTokens, deleteHostnames, deletePorts]

theorem owns_pos {id : Int} : 0 < db.countTokens id + db.countOwned id ↔
    (∃ t ∈ db.tokens, t.userId = id) ∨ (∃ r ∈ db.hostnames, r.userId = id) ∨
      ∃ r ∈ db.tcpPorts, r.userId = id := by
  have hpos : ∀ {α : Type} (l : List α) (owner : α → Int),
      0 < (l.filter (owner · == id)).length ↔ ∃ r ∈ l, owner r = id := by
    intro α l owner
    simp [List.length_pos_iff, List.filter_eq_nil_iff]
  rw [← hpos db.tokens (·.userId), ← hpos db.hostnames (·.userId), ← hpos db.tcpPorts (·.userId),
    countTokens, countOwned]
  omega

/-! The deletes of a removal, one after the other, change nothing exactly when there was nothing. -/

theorem deleteTokens_eq_self {id : Int} :
    (db.deleteTokens (·.userId == id)).2 = db ↔ ¬ ∃ t ∈ db.tokens, t.userId = id := by
  simp [Db.eq_iff, deleteTokens, List.filter_eq_self]

theorem deleteHostnames_eq_self {id : Int} :
    ((db.deleteTokens (·.userId == id)).2.deleteHostnames (·.userId == id)).2 = db ↔
      ¬ ((∃ t ∈ db.tokens, t.userId = id) ∨ ∃ r ∈ db.hostnames, r.userId = id) := by
  simp [Db.eq_iff, deleteTokens, deleteHostnames, List.filter_eq_self, not_or]

theorem deletePorts_eq_self {id : Int} :
    (((db.deleteTokens (·.userId == id)).2.deleteHostnames (·.userId == id)).2.deletePorts
        (·.userId == id)).2 = db ↔
      ¬ ((∃ t ∈ db.tokens, t.userId = id) ∨ (∃ r ∈ db.hostnames, r.userId = id) ∨
        ∃ r ∈ db.tcpPorts, r.userId = id) := by
  simp [Db.eq_iff, deleteTokens, deleteHostnames, deletePorts, List.filter_eq_self, not_or]

theorem removeUser_errLeaves (name : String) (force : Bool) :
    ErrLeaves db faults (removeUser name force) db ↔
      ¬ (Mutation.removeUser name force).HalfDone faults db := by
  rw [removeUser, withUserId, errLeaves_query, Mutation.HalfDone]
  cases hid : db.userIdOf name with
  | none => simp [Op.fail]
  | some id =>
    simp only [errLeaves_query, fails_tail, Option.some.injEq, exists_eq_left']
    by_cases hrefuse : 0 < db.countTokens id + db.countOwned id ∧ force = false
    · simp [hrefuse, Op.fail]
    · rw [if_neg hrefuse]
      obtain ⟨db', hdel⟩ := deleteUser_unreferenced db id
      -- without `force` the account owned nothing, so no delete changes anything
      have hforce : ((∃ t ∈ db.tokens, t.userId = id) ∨ (∃ r ∈ db.hostnames, r.userId = id) ∨
          ∃ r ∈ db.tcpPorts, r.userId = id) → force = true := by
        intro h
        by_contra hf
        exact hrefuse ⟨owns_pos.2 h, Bool.eq_false_iff.2 hf⟩
      simp only [errLeaves_write, errLeaves_tryStmt (Db.deleteUser · id), fails_tail, hdel,
        deleteTokens_eq_self, deleteHostnames_eq_self, deletePorts_eq_self]
      cases fails faults 0 with
      | true => simp
      | false =>
        cases fails faults 1 with
        | true => simp
        | false =>
          cases fails faults 2 with
          | true => simp
          | false =>
            cases fails faults 3 with
            | true =>
              simp only [Bool.true_eq_false, Bool.false_eq_true, false_and, or_false, if_true, if_false,
                true_and]
              exact not_congr (and_iff_right_of_imp fun h => hforce (.inl h)).symm
            | false =>
              cases fails faults 4 with
              | true =>
                simp only [Bool.true_eq_false, Bool.false_eq_true, false_and, or_false, false_or, if_true,
                  if_false, true_and]
                exact not_congr (and_iff_right_of_imp fun h => hforce (h.imp_right .inl)).symm
              | false =>
                cases fails faults 5 with
                | true =>
                  simp only [Bool.false_eq_true, false_and, false_or, if_true, if_false, true_and]
                  exact not_congr (and_iff_right_of_imp hforce).symm
                | false => simp [Op.ok]

end halfDone

section outcome

variable {α : Type} {db s : Db} {faults : Faults} {p : Op α}

theorem errLeaves_outcome : ErrLeaves s faults p.outcome db ↔ ErrLeaves s faults p db :=
  errLeaves_map fun r e => by cases r <;> simp

theorem errLeaves_atomic (h : ErrLeaves s faults p db) : ErrLeaves s faults p.outcome db ↔ ¬ False :=
  iff_of_true (errLeaves_outcome.2 h) id

end outcome

/-- **Failure atomicity.** Whatever the database and whichever statements fail, a call that returns an
error has changed nothing, except for the half-done calls of `remove_user`, `provision_user_token` and
`rotate_user_token` that `HalfDone` describes, and all of those have. -/
theorem failed_call_changes_nothing_iff (faults : Faults) (db : Db) (m : Mutation) :
    (∀ e, m.result faults db = .error e → m.exec faults db = db) ↔ ¬ m.HalfDone faults db := by
  change ErrLeaves db faults m.program db ↔ _
  cases m with
  | removeUser name force => exact errLeaves_outcome.trans (removeUser_errLeaves name force)
  | provisionUserToken now token hash name =>
    exact errLeaves_outcome.trans (provisionUserToken_errLeaves now token hash name)
  | rotateUserToken now token hash name =>
    exact errLeaves_outcome.trans (rotateUserToken_errLeaves now token hash name)
  | addUser now name => exact errLeaves_atomic (addUser_errLeaves faults db now name)
  | createToken now token hash user label =>
    exact errLeaves_atomic (createToken_errLeaves faults db now token hash user label)
  | revokeToken now i => exact errLeaves_atomic (revokeToken_errLeaves faults db now i)
  | addHostname now label user => exact errLeaves_atomic (addHostname_errLeaves faults db now label user)
  | removeHostname label => exact errLeaves_atomic (removeHostname_errLeaves faults db label)
  | addPort now port user => exact errLeaves_atomic (addPort_errLeaves faults db now port user)
  | removePort port => exact errLeaves_atomic (removePort_errLeaves faults db port)
  | releaseUserHostnames name ports =>
    exact errLeaves_atomic (releaseUserHostnames_errLeaves faults db name ports)
  | releaseHostnameOwned domain u name =>
    exact errLeaves_atomic (releaseHostnameOwned_errLeaves faults db domain u name)
  | releasePortOwned u port => exact errLeaves_atomic (releasePortOwned_errLeaves faults db u port)
  | claimLabelCapped now u label max =>
    exact errLeaves_atomic (claimLabelCapped_errLeaves faults db now u label max)
  | pruneOwnedToCap u cap => exact errLeaves_atomic (pruneOwnedToCap_errLeaves faults db u cap)

/-- The token insert that ends a rotation fails: `ann`'s token is revoked and there is no other. -/
theorem rotation_locks_out :
    let rotation := Mutation.rotateUserToken 5 "t2" (bytes "t2") "ann"
    rotation.result [none, none, some .failure] annProvisioned = .error (.db .failure) ∧
    rotation.exec [none, none, some .failure] annProvisioned ≠ annProvisioned ∧
    Registry.authenticate [] annProvisioned bytes "t1" = some ⟨1, "ann"⟩ ∧
    ∀ t ∈ (rotation.exec [none, none, some .failure] annProvisioned).tokens, t.revokedAt = some 5 :=
  ⟨rfl, by decide⟩

end EtherTunnel
