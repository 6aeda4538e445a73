import EtherTunnel.Registry.Mutations

/-!
# Accounts and tokens, and what an operation does to them

An id denotes the account whose `users` row carries it (`accountOf`); a token hash is good for the
account its unrevoked row belongs to (`tokenHolder`). The operations of `registry.rs:219-348` and
`:666-706` change the two tables in four ways: a new account (`Created`), a new token (`Minted`),
revoked tokens, or an account purged with everything it owned (`Purged`). The `_effect` lemmas say
which, whatever statement fails; later proofs do not look inside an operation again.
-/

namespace EtherTunnel

open Txn

namespace Db

variable {db db' : Db} {u v id : Int} {name A B : String} {hash : List UInt8}

/-! ## Looking up accounts -/

/-- The name of the account an id denotes. -/
def accountOf (db : Db) (u : Int) : Option String := (db.users.find? (·.id == u)).map (·.name)

theorem accountOf_eq_some : db.accountOf u = some A ↔ ∃ r ∈ db.users, r.id = u ∧ r.name = A := by
  simp only [accountOf, Option.map_eq_some_iff, find?_key_eq_some db.valid.user_id, and_assoc]

theorem userIdOf_eq_some : db.userIdOf A = some u ↔ ∃ r ∈ db.users, r.name = A ∧ r.id = u := by
  simp only [userIdOf, Option.map_eq_some_iff, find?_key_eq_some db.valid.user_name, and_assoc]

theorem accountOf_iff_userIdOf : db.accountOf u = some A ↔ db.userIdOf A = some u := by
  simp only [accountOf_eq_some, userIdOf_eq_some, and_comm (a := UserRec.id _ = _)]

theorem userIdOf_eq_none : db.userIdOf A = none ↔ A ∉ db.users.map (·.name) := by
  simp [userIdOf, List.find?_eq_none]

theorem exists_account (h : u ∈ db.users.map (·.id)) : ∃ A, db.accountOf u = some A := by
  obtain ⟨r, hr, rfl⟩ := List.mem_map.1 h
  exact ⟨r.name, accountOf_eq_some.2 ⟨r, hr, rfl, rfl⟩⟩

theorem accountOf_congr (h : db'.users = db.users) : db'.accountOf u = db.accountOf u := by
  rw [accountOf, accountOf, h]

/-- The row `tokenHolder` finds. -/
theorem tokenHolder_eq_some {n : String} {stored : List UInt8} :
    db.tokenHolder hash = some (u, n, stored) ↔
      stored = hash ∧ db.accountOf u = some n ∧
        ∃ t ∈ db.tokens, t.tokenHash = hash ∧ t.revokedAt = none ∧ t.userId = u := by
  unfold tokenHolder
  constructor
  · intro h
    obtain ⟨t, ht, hrow⟩ := List.exists_of_findSome?_eq_some h
    split at hrow
    · rename_i hc
      simp only [Bool.and_eq_true, beq_iff_eq, Option.isNone_iff_eq_none] at hc
      obtain ⟨r, hr, he⟩ := Option.map_eq_some_iff.1 hrow
      cases he
      obtain ⟨hr, hid⟩ := (find?_key_eq_some db.valid.user_id).1 hr
      exact ⟨hc.1, accountOf_eq_some.2 ⟨r, hr, rfl, rfl⟩, t, ht, hc.1, hc.2, hid.symm⟩
    · cases hrow
  · rintro ⟨rfl, hacc, t, ht, hhash, hrev, rfl⟩
    obtain ⟨r, hr, hid, rfl⟩ := accountOf_eq_some.1 hacc
    have hfind := (find?_key_eq_some db.valid.user_id).2 ⟨hr, hid⟩
    -- the hash column is distinct, so the first row that passes is `t`
    cases hs : db.tokens.findSome? _ with
    | none =>
      have := List.findSome?_eq_none_iff.1 hs t ht
      simp [hhash, hrev, hfind] at this
    | some row =>
      obtain ⟨t', ht', hrow⟩ := List.exists_of_findSome?_eq_some hs
      split at hrow
      · rename_i hc
        simp only [Bool.and_eq_true, beq_iff_eq] at hc
        obtain rfl := List.inj_on_of_nodup_map db.valid.token_hash ht' ht (hc.1.trans hhash.symm)
        rw [hfind] at hrow
        simp only [Option.map_some, Option.some.injEq] at hrow
        rw [← hrow, hid, hhash]
      · cases hrow

/-! ## A new account -/

/-- `db'` is `db` with one more account. -/
structure Created (db db' : Db) (name : String) (id : Int) : Prop where
  free : db.userIdOf name = none
  id_eq : id = nextId (db.users.map (·.id))
  row : ∃ now, db'.toTables = { db.toTables with users := db.users ++ [⟨id, name, now⟩] }

theorem insertUser_ok {now : Int} (h : db.insertUser name now = .ok (id, db')) :
    Created db db' name id := by
  unfold insertUser at h
  split at h
  · cases h
  · rename_i hfree
    cases h
    exact ⟨userIdOf_eq_none.2 hfree, rfl, now, rfl⟩

theorem insertUser_free (h : db.userIdOf name = none) (now : Int) :
    ∃ db', db.insertUser name now = .ok (nextId (db.users.map (·.id)), db') := by
  unfold insertUser
  rw [dif_neg (userIdOf_eq_none.1 h)]
  exact ⟨_, rfl⟩

theorem Created.users (h : Created db db' name id) :
    ∃ now, db'.users = db.users ++ [⟨id, name, now⟩] := by
  obtain ⟨now, hrow⟩ := h.row
  exact ⟨now, by rw [hrow]⟩

theorem Created.tokens (h : Created db db' name id) : db'.tokens = db.tokens := by
  obtain ⟨now, hrow⟩ := h.row
  rw [hrow]

theorem Created.ne (h : Created db db' name id) : db' ≠ db := by
  rintro rfl
  obtain ⟨now, hrow⟩ := h.users
  simp at hrow

theorem Created.accountOf (h : Created db db' name id) :
    db'.accountOf u = some A ↔ db.accountOf u = some A ∨ (u = id ∧ A = name) := by
  obtain ⟨now, hrow⟩ := h.users
  simp only [accountOf_eq_some, hrow, List.mem_append, List.mem_singleton]
  constructor
  · rintro ⟨r, hr | rfl, rfl, rfl⟩
    · exact Or.inl ⟨r, hr, rfl, rfl⟩
    · exact Or.inr ⟨rfl, rfl⟩
  · rintro (⟨r, hr, rfl, rfl⟩ | ⟨rfl, rfl⟩)
    · exact ⟨r, Or.inl hr, rfl, rfl⟩
    · exact ⟨_, Or.inr rfl, rfl, rfl⟩

/-- The account named, found or created: what `withAccount` runs its continuation on. -/
def Account (db db' : Db) (name : String) (id : Int) : Prop :=
  (db.userIdOf name = some id ∧ db' = db) ∨ Created db db' name id

theorem Account.userIdOf (h : Account db db' name id) : db'.userIdOf name = some id := by
  rcases h with ⟨h, rfl⟩ | h
  · exact h
  · exact accountOf_iff_userIdOf.1 (h.accountOf.2 (Or.inr ⟨rfl, rfl⟩))

theorem Account.tokens (h : Account db db' name id) : db'.tokens = db.tokens := by
  rcases h with ⟨-, rfl⟩ | h
  · rfl
  · exact h.tokens

/-! ## A new token -/

/-- `db'` is `db` with one more token of `u`. -/
structure Minted (db db' : Db) (u : Int) (hash : List UInt8) : Prop where
  fresh : hash ∉ db.tokens.map (·.tokenHash)
  user : u ∈ db.users.map (·.id)
  row : ∃ id label now, db'.toTables =
    { db.toTables with tokens := db.tokens ++ [⟨id, u, hash, label, now, none⟩] }

theorem insertToken_ok {now : Int} {label : Option String}
    (h : db.insertToken u hash label now = .ok (id, db')) : Minted db db' u hash := by
  unfold insertToken at h
  split at h
  · rename_i hc
    cases h
    exact ⟨hc.1, hc.2, _, _, _, rfl⟩
  · cases h

theorem Minted.users (h : Minted db db' u hash) : db'.users = db.users := by
  obtain ⟨id, label, now, hrow⟩ := h.row
  rw [hrow]

theorem Minted.tokens (h : Minted db db' u hash) :
    ∃ id label now, db'.tokens = db.tokens ++ [⟨id, u, hash, label, now, none⟩] := by
  obtain ⟨id, label, now, hrow⟩ := h.row
  exact ⟨id, label, now, by rw [hrow]⟩

theorem revokeTokens_hashes {p : TokenRec → Bool} {now : Int} :
    (db.revokeTokens p now).2.tokens.map (·.tokenHash) = db.tokens.map (·.tokenHash) := by
  simp only [revokeTokens, List.map_map]
  refine List.map_congr_left fun t _ => ?_
  simp only [Function.comp]
  split <;> rfl

/-! ## A removed account -/

/-- `db'` is `db` without the account `id` and all its rows. -/
structure Purged (db db' : Db) (id : Int) : Prop where
  users : db'.users = db.users.filter (·.id != id)
  tokens : db'.tokens = db.tokens.filter (!·.userId == id)

theorem Purged.accountOf (h : Purged db db' id) :
    db'.accountOf u = some A ↔ db.accountOf u = some A ∧ u ≠ id := by
  simp only [accountOf_eq_some, h.users, List.mem_filter, bne_iff_ne]
  constructor
  · rintro ⟨r, ⟨hr, hne⟩, rfl, rfl⟩
    exact ⟨⟨r, hr, rfl, rfl⟩, hne⟩
  · rintro ⟨⟨r, hr, rfl, rfl⟩, hne⟩
    exact ⟨r, ⟨hr, hne⟩, rfl, rfl⟩

theorem deleteUser_ok {x : Unit} (h : db.deleteUser id = .ok (x, db')) :
    db'.users = db.users.filter (·.id != id) ∧ db'.tokens = db.tokens := by
  unfold deleteUser at h
  split at h
  · cases h
  · cases h; exact ⟨rfl, rfl⟩

end Db

/-! ## Operations -/

section effects

open Db

variable {db : Db} {α : Type} {Q : Except RegistryError α → Db → Prop}

theorem post_withUserId {name : String} {k : Int → Op α} {tx : Option Db}
    (hfail : ∀ e, Q (.error e) db)
    (hk : ∀ id, (tx.getD db).userIdOf name = some id → Post Q (k id) db tx) :
    Post Q (withUserId name k) db tx := by
  refine (post_query _ _).2 ⟨fun e => hfail _, ?_⟩
  cases hid : (tx.getD db).userIdOf name with
  | none => exact hfail _
  | some id => exact hk id hid

theorem post_withAccount {now : Int} {name : String} {k : Int → Bool → Op α}
    (hfail : ∀ e, Q (.error e) db)
    (hk : ∀ id created db', Account db db' name id → Post Q (k id created) db' none) :
    Post Q (withAccount now name k) db none := by
  refine (post_query _ _).2 ⟨fun e => hfail _, ?_⟩
  simp only [Option.getD_none]
  cases hid : db.userIdOf name with
  | some id => exact hk id false db (Or.inl ⟨hid, rfl⟩)
  | none =>
    refine (post_tryStmt_auto _ _).2 ⟨fun e => hfail _, fun id db' hins => ?_⟩
    exact hk id true db' (Or.inr (insertUser_ok hins))

theorem addUser_effect (db : Db) (now : Int) (name : String) :
    Post (fun res db' => ((∃ e, res = .error e) ∧ db' = db) ∨
        ∃ id, res = .ok id ∧ Created db db' name id)
      (addUser now name) db none := by
  unfold addUser
  split
  · exact Or.inl ⟨⟨_, rfl⟩, rfl⟩
  · split
    · exact Or.inl ⟨⟨_, rfl⟩, rfl⟩
    · refine (post_query _ _).2 ⟨fun e => Or.inl ⟨⟨_, rfl⟩, rfl⟩, ?_⟩
      split
      · exact Or.inl ⟨⟨_, rfl⟩, rfl⟩
      · refine (post_tryStmt_auto _ _).2 ⟨fun e => Or.inl ⟨⟨_, rfl⟩, rfl⟩, fun id db' hins => ?_⟩
        exact Or.inr ⟨id, rfl, insertUser_ok hins⟩

/-- The `users` row goes last: while it stands, the call has not succeeded. -/
theorem removeUser_effect (db : Db) (name : String) (force : Bool) :
    Post (fun res db' => ((∃ e, res = .error e) ∧ db'.users = db.users) ∨
        (res = .ok () ∧ ∃ id, db.userIdOf name = some id ∧ Purged db db' id))
      (removeUser name force) db none := by
  refine post_withUserId (fun e => Or.inl ⟨⟨_, rfl⟩, rfl⟩) fun id hid => ?_
  refine (post_query _ _).2 ⟨fun e => Or.inl ⟨⟨_, rfl⟩, rfl⟩, ?_⟩
  split
  · exact Or.inl ⟨⟨_, rfl⟩, rfl⟩
  · refine (post_write_auto _ _).2 ⟨fun e => Or.inl ⟨⟨_, rfl⟩, rfl⟩, ?_⟩
    refine (post_write_auto _ _).2 ⟨fun e => Or.inl ⟨⟨_, rfl⟩, rfl⟩, ?_⟩
    refine (post_write_auto _ _).2 ⟨fun e => Or.inl ⟨⟨_, rfl⟩, rfl⟩, ?_⟩
    refine (post_tryStmt_auto _ _).2 ⟨fun e => Or.inl ⟨⟨_, rfl⟩, rfl⟩, fun x db' hdel => ?_⟩
    obtain ⟨husers, htokens⟩ := deleteUser_ok hdel
    exact Or.inr ⟨rfl, id, hid, husers, htokens⟩

end effects

/-- `ann`, with the token `t1`. -/
def annProvisioned : Db :=
  [Mutation.provisionUserToken 0 "t1" (bytes "t1") "ann"].foldl (fun db m => m.exec [] db) Db.empty

end EtherTunnel
