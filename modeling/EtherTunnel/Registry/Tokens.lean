import EtherTunnel.Lib.LastWriter
import EtherTunnel.Registry.Accounts

/-!
# The life of a token

Who a token authenticates is decided by its row and the account row it points to; both come and go by
six operations. Seen from one token `t`, a history of those operations is a history of one cell that
holds the account name: minting `t` writes it, revoking `t`'s row clears it, and so do a rotation and
the removal of the account it names. `authenticate` returns exactly what the cell holds
(`holder_step`), so it is decided by the latest minting of `t` and what came after (`token_lifecycle`).

| here | there |
| --- | --- |
| `TokenOp` | `add_user`, `create_token`, `provision_user_token`, `rotate_user_token`, `revoke_token`, `remove_user` |
| `TokenOp.step` | a call that succeeds |
| `mintedTokens` | the tokens `generate_token` gave, in order |
| `Ends t n` | the call revokes `t`'s row, rotates the tokens of `n` or removes `n` |

A row id may be given again after `remove_user`, so "the row of `t`" is the row that holds `t`'s hash
in the database the call finds.
-/

namespace EtherTunnel

open Txn Db LastWriter

/-! ## Operations -/

inductive TokenOp where
  | addUser (now : Int) (name : String)
  | createToken (now : Int) (token user : String) (label : Option String)
  | provisionUserToken (now : Int) (token name : String)
  | rotateUserToken (now : Int) (token name : String)
  | revokeToken (now id : Int)
  | removeUser (name : String) (force : Bool)

/-- The token a call mints, with the account it is for. -/
def TokenOp.mints : TokenOp → Option (String × String)
  | .createToken _ token user _ => some (token, user)
  | .provisionUserToken _ token name | .rotateUserToken _ token name => some (token, name)
  | _ => none

def mintedTokens (calls : List (Faults × TokenOp)) : List String :=
  calls.filterMap fun c => c.2.mints.map (·.1)

section hashed

variable (hashToken : String → List UInt8)

def TokenOp.mutation : TokenOp → Mutation
  | .addUser now name => .addUser now name
  | .createToken now token user label => .createToken now token (hashToken token) user label
  | .provisionUserToken now token name => .provisionUserToken now token (hashToken token) name
  | .rotateUserToken now token name => .rotateUserToken now token (hashToken token) name
  | .revokeToken now id => .revokeToken now id
  | .removeUser name force => .removeUser name force

/-- The database after the call, if the call succeeds. -/
def TokenOp.step (db : Db) (c : Faults × TokenOp) : Option Db :=
  match (c.2.mutation hashToken).result c.1 db with
  | .ok () => some ((c.2.mutation hashToken).exec c.1 db)
  | .error _ => none

/-- The call, made in the database it comes with, ends `t`'s validity for the account `n`. -/
def Ends (t n : String) : Db × (Faults × TokenOp) → Prop
  | (db, _, .revokeToken _ id) => ∃ r ∈ db.tokens, r.id = id ∧ r.tokenHash = hashToken t
  | (_, _, .rotateUserToken _ _ name) | (_, _, .removeUser name _) => name = n
  | _ => False

end hashed

/-! ## Who a hash is good for -/

/-- The hash is that of an unrevoked token of user `u`, who is named `n`. -/
def Db.Holds (db : Db) (hash : List UInt8) (u : Int) (n : String) : Prop :=
  db.accountOf u = some n ∧ ∃ t ∈ db.tokens, t.tokenHash = hash ∧ t.revokedAt = none ∧ t.userId = u

section holds

variable {db db' : Db} {hash hash' : List UInt8} {u v id : Int} {n name : String}

theorem authenticate_iff {hashToken : String → List UInt8} {t : String} :
    Registry.authenticate [] db hashToken t = some ⟨u, n⟩ ↔ db.Holds (hashToken t) u n := by
  have hrun : run [] (query .db (·.tokenHolder (hashToken t)) Op.ok) db =
      ((.ok (db.tokenHolder (hashToken t)) : Except RegistryError _), db) := rfl
  rw [Registry.authenticate, hrun]
  constructor
  · intro h
    split at h
    · rename_i id name stored db' heq
      simp only [Prod.mk.injEq, Except.ok.injEq] at heq
      split at h
      · cases h
        obtain ⟨-, hacc, ht⟩ := tokenHolder_eq_some.1 heq.1
        exact ⟨hacc, ht⟩
      · cases h
    · cases h
  · rintro ⟨hacc, ht⟩
    rw [tokenHolder_eq_some.2 ⟨rfl, hacc, ht⟩]
    simp

/-- An id and the name of its account stand for each other. -/
theorem Db.Holds.name_iff (h : db.Holds hash u n) (hid : db.userIdOf name = some id) :
    u = id ↔ n = name := by
  rw [← accountOf_iff_userIdOf] at hid
  constructor
  · rintro rfl
    exact Option.some.inj (h.1.symm.trans hid)
  · rintro rfl
    exact Option.some.inj ((accountOf_iff_userIdOf.1 h.1).symm.trans (accountOf_iff_userIdOf.1 hid))

theorem Db.Created.holds (h : Created db db' name id) : db'.Holds hash u n ↔ db.Holds hash u n := by
  simp only [Db.Holds, h.accountOf, h.tokens]
  constructor
  · rintro ⟨hacc | ⟨rfl, rfl⟩, t, ht, hh, hr, rfl⟩
    · exact ⟨hacc, t, ht, hh, hr, rfl⟩
    · -- no token refers to an id that was just given out
      have hfk := db.valid.token_fk t ht
      rw [h.id_eq] at hfk
      exact absurd hfk (nextId_notMem _)
  · rintro ⟨hacc, ht⟩
    exact ⟨Or.inl hacc, ht⟩

theorem Db.Account.holds (h : Account db db' name id) : db'.Holds hash u n ↔ db.Holds hash u n := by
  rcases h with ⟨-, rfl⟩ | h
  · exact Iff.rfl
  · exact h.holds

theorem Db.Minted.holds (h : Minted db db' v hash') :
    db'.Holds hash u n ↔ db.Holds hash u n ∨ (hash = hash' ∧ u = v ∧ db.accountOf v = some n) := by
  obtain ⟨i, label, now, hrow⟩ := h.tokens
  simp only [Db.Holds, accountOf_congr h.users, hrow, List.mem_append, List.mem_singleton]
  constructor
  · rintro ⟨hacc, t, ht | rfl, hh, hr, hu⟩
    · exact Or.inl ⟨hacc, t, ht, hh, hr, hu⟩
    · obtain rfl : v = u := hu
      exact Or.inr ⟨hh.symm, rfl, hacc⟩
  · rintro (⟨hacc, t, ht, hh⟩ | ⟨rfl, rfl, hacc⟩)
    · exact ⟨hacc, t, Or.inl ht, hh⟩
    · exact ⟨hacc, _, Or.inr rfl, rfl, rfl, rfl⟩

/-- After `UPDATE tokens SET revoked_at`, the unrevoked rows are those the update passed over. -/
theorem holds_revokeTokens {p : TokenRec → Bool} {now : Int} :
    (db.revokeTokens p now).2.Holds hash u n ↔ db.accountOf u = some n ∧
      ∃ t ∈ db.tokens, t.tokenHash = hash ∧ t.revokedAt = none ∧ t.userId = u ∧ p t = false := by
  refine and_congr_right fun _ => ?_
  simp only [revokeTokens, List.mem_map, exists_exists_and_eq_and]
  refine exists_congr fun t => and_congr_right fun ht => ?_
  by_cases hc : (p t && t.revokedAt.isNone) = true
  · rw [if_pos hc]
    simp only [Bool.and_eq_true] at hc
    simp [hc.1]
  · rw [if_neg hc]
    simp only [Bool.and_eq_true, Option.isNone_iff_eq_none, not_and'] at hc
    constructor
    · rintro ⟨hh, hr, hu⟩
      exact ⟨hh, hr, hu, Bool.eq_false_iff.2 (hc hr)⟩
    · rintro ⟨hh, hr, hu, -⟩
      exact ⟨hh, hr, hu⟩

theorem holds_revoke_user {now : Int} :
    (db.revokeTokens (·.userId == id) now).2.Holds hash u n ↔ db.Holds hash u n ∧ u ≠ id := by
  rw [holds_revokeTokens]
  constructor
  · rintro ⟨hacc, t, ht, hh, hr, rfl, hne⟩
    exact ⟨⟨hacc, t, ht, hh, hr, rfl⟩, by simpa using hne⟩
  · rintro ⟨⟨hacc, t, ht, hh, hr, rfl⟩, hne⟩
    exact ⟨hacc, t, ht, hh, hr, rfl, by simpa using hne⟩

theorem holds_revoke_row {now : Int} :
    (db.revokeTokens (·.id == id) now).2.Holds hash u n ↔
      db.Holds hash u n ∧ ¬ ∃ r ∈ db.tokens, r.id = id ∧ r.tokenHash = hash := by
  rw [holds_revokeTokens]
  constructor
  · rintro ⟨hacc, t, ht, hh, hr, hu, hne⟩
    refine ⟨⟨hacc, t, ht, hh, hr, hu⟩, ?_⟩
    rintro ⟨r, hr', rfl, hh'⟩
    obtain rfl := List.inj_on_of_nodup_map db.valid.token_hash ht hr' (hh.trans hh'.symm)
    simp at hne
  · rintro ⟨⟨hacc, t, ht, hh, hr, hu⟩, hne⟩
    refine ⟨hacc, t, ht, hh, hr, hu, ?_⟩
    rw [beq_eq_false_iff_ne]
    exact fun he => hne ⟨t, ht, he, hh⟩

theorem Db.Purged.holds (h : Purged db db' id) :
    db'.Holds hash u n ↔ db.Holds hash u n ∧ u ≠ id := by
  simp only [Db.Holds, h.accountOf, h.tokens, List.mem_filter]
  constructor
  · rintro ⟨⟨hacc, hne⟩, t, ⟨ht, -⟩, hrest⟩
    exact ⟨⟨hacc, t, ht, hrest⟩, hne⟩
  · rintro ⟨⟨hacc, t, ht, hh, hr, rfl⟩, hne⟩
    exact ⟨⟨hacc, hne⟩, t, ⟨ht, by simpa using hne⟩, hh, hr, rfl⟩

end holds

/-! ## One call -/

/-- What a call that succeeds has done. -/
inductive TokenEffect (hashToken : String → List UInt8) (db : Db) : TokenOp → Db → Prop where
  | addUser {now id : Int} {name : String} {db' : Db} (h : Created db db' name id) :
    TokenEffect hashToken db (.addUser now name) db'
  | createToken {now id : Int} {token user : String} {label : Option String} {db' : Db}
    (hid : db.userIdOf user = some id) (h : Minted db db' id (hashToken token)) :
    TokenEffect hashToken db (.createToken now token user label) db'
  | provisionUserToken {now id : Int} {token name : String} {db1 db' : Db}
    (hacc : Account db db1 name id) (h : Minted db1 db' id (hashToken token)) :
    TokenEffect hashToken db (.provisionUserToken now token name) db'
  | rotateUserToken {now id : Int} {token name : String} {db1 db' : Db}
    (hacc : Account db db1 name id)
    (h : Minted (db1.revokeTokens (·.userId == id) now).2 db' id (hashToken token)) :
    TokenEffect hashToken db (.rotateUserToken now token name) db'
  | revokeToken {now id : Int} :
    TokenEffect hashToken db (.revokeToken now id) (db.revokeTokens (·.id == id) now).2
  | removeUser {name : String} {force : Bool} {id : Int} {db' : Db}
    (hid : db.userIdOf name = some id) (h : Purged db db' id) :
    TokenEffect hashToken db (.removeUser name force) db'

section effects

variable {db : Db}

theorem createToken_effect (db : Db) (now : Int) (token : String) (hash : List UInt8) (user : String)
    (label : Option String) :
    Post (fun res db' => ∀ a, res = .ok a → ∃ id, db.userIdOf user = some id ∧ Minted db db' id hash)
      (createToken now token hash user label) db none := by
  refine post_withUserId (fun _ => nofun) fun id hid => ?_
  refine (post_tryStmt_auto _ _).2 ⟨fun _ => nofun, fun i db' hins a _ => ?_⟩
  exact ⟨id, hid, insertToken_ok hins⟩

theorem provisionUserToken_effect (db : Db) (now : Int) (token : String) (hash : List UInt8)
    (name : String) :
    Post (fun res db' => ∀ a, res = .ok a → ∃ id db1, Account db db1 name id ∧ Minted db1 db' id hash)
      (provisionUserToken now token hash name) db none := by
  refine post_withAccount (fun _ => nofun) fun id created db1 hacc => ?_
  refine (post_tryStmt_auto _ _).2 ⟨fun _ => nofun, fun i db' hins a _ => ?_⟩
  exact ⟨id, db1, hacc, insertToken_ok hins⟩

/-- A rotation that succeeds: the count it returns is that of the rows it revoked. -/
theorem rotateUserToken_effect (db : Db) (now : Int) (token : String) (hash : List UInt8)
    (name : String) :
    Post (fun res db' => ∀ a, res = .ok a → ∃ id db1, Account db db1 name id ∧
        Minted (db1.revokeTokens (·.userId == id) now).2 db' id hash ∧
        a = (token, (db1.revokeTokens (·.userId == id) now).1))
      (rotateUserToken now token hash name) db none := by
  refine post_withAccount (fun _ => nofun) fun id created db1 hacc => ?_
  refine (post_write_auto _ _).2 ⟨fun _ => nofun, ?_⟩
  refine (post_tryStmt_auto _ _).2 ⟨fun _ => nofun, fun i db' hins a ha => ?_⟩
  exact ⟨id, db1, hacc, insertToken_ok hins, (Except.ok.inj ha).symm⟩

theorem revokeToken_effect (db : Db) (now id : Int) :
    Post (fun res db' => ∀ a, res = .ok a → db' = (db.revokeTokens (·.id == id) now).2)
      (revokeToken now id) db none :=
  (post_write_auto _ _).2 ⟨fun _ => nofun, fun _ _ => rfl⟩

/-- An outcome that is `Ok` comes from an operation that returned `Ok`. -/
theorem outcome_ok {α : Type} {p : Op α} {faults : Faults}
    (h : (run faults p.outcome db).1 = .ok ()) : ∃ a, (run faults p db).1 = .ok a := by
  rw [Op.outcome, run_map] at h
  cases hr : (run faults p db).1 with
  | ok a => exact ⟨a, rfl⟩
  | error e => rw [hr] at h; cases h

theorem tokenOp_effect {hashToken : String → List UInt8} {db' : Db} {faults : Faults} {op : TokenOp}
    (h : TokenOp.step hashToken db (faults, op) = some db') : TokenEffect hashToken db op db' := by
  unfold TokenOp.step at h
  split at h
  · rename_i hok
    cases h
    cases op with
    | addUser now name =>
      obtain ⟨a, ha⟩ := outcome_ok hok
      rcases post_run (addUser_effect db now name) faults with ⟨⟨e, he⟩, -⟩ | ⟨id, -, hc⟩
      · rw [ha] at he; cases he
      · rw [← Op.run_outcome] at hc
        exact .addUser hc
    | createToken now token user label =>
      obtain ⟨a, ha⟩ := outcome_ok hok
      obtain ⟨id, hid, hm⟩ :=
        post_run (createToken_effect db now token (hashToken token) user label) faults a ha
      rw [← Op.run_outcome] at hm
      exact .createToken hid hm
    | provisionUserToken now token name =>
      obtain ⟨a, ha⟩ := outcome_ok hok
      obtain ⟨id, db1, hacc, hm⟩ :=
        post_run (provisionUserToken_effect db now token (hashToken token) name) faults a ha
      rw [← Op.run_outcome] at hm
      exact .provisionUserToken hacc hm
    | rotateUserToken now token name =>
      obtain ⟨a, ha⟩ := outcome_ok hok
      obtain ⟨id, db1, hacc, hm, -⟩ :=
        post_run (rotateUserToken_effect db now token (hashToken token) name) faults a ha
      rw [← Op.run_outcome] at hm
      exact .rotateUserToken hacc hm
    | revokeToken now id =>
      obtain ⟨a, ha⟩ := outcome_ok hok
      have hdb := post_run (revokeToken_effect db now id) faults a ha
      change TokenEffect hashToken db _ (run faults (revokeToken now id).outcome db).2
      rw [Op.run_outcome, hdb]
      exact .revokeToken
    | removeUser name force =>
      obtain ⟨a, ha⟩ := outcome_ok hok
      rcases post_run (removeUser_effect db name force) faults with ⟨⟨e, he⟩, -⟩ | ⟨-, id, hid, hp⟩
      · rw [ha] at he; cases he
      · rw [← Op.run_outcome] at hp
        exact .removeUser hid hp
  · cases h

end effects

/-! ## A token as a cell -/

/-- The account name a hash is good for. -/
def Db.holder (db : Db) (hash : List UInt8) : Option String := (db.tokenHolder hash).map (·.2.1)

theorem holder_eq_some {db : Db} {hash : List UInt8} {n : String} :
    db.holder hash = some n ↔ ∃ u, db.Holds hash u n := by
  rw [Db.holder, Option.map_eq_some_iff]
  constructor
  · rintro ⟨⟨u, m, stored⟩, hrow, rfl⟩
    obtain ⟨-, hacc, ht⟩ := tokenHolder_eq_some.1 hrow
    exact ⟨u, hacc, ht⟩
  · rintro ⟨u, hacc, ht⟩
    exact ⟨(u, n, hash), tokenHolder_eq_some.2 ⟨rfl, hacc, ht⟩, rfl⟩

section holder

variable {db db' : Db} {hash hash' : List UInt8} {id : Int} {name : String}

/-- Two databases in which the hash is good for the same accounts. -/
theorem holder_congr (h : ∀ u n, db'.Holds hash u n ↔ db.Holds hash u n) :
    db'.holder hash = db.holder hash := by
  refine Option.ext fun n => ?_
  rw [holder_eq_some, holder_eq_some]
  exact exists_congr fun u => h u n

/-- Losing the tokens of one account clears its name. -/
theorem holder_clear (hid : db.userIdOf name = some id)
    (h : ∀ u n, db'.Holds hash u n ↔ db.Holds hash u n ∧ u ≠ id) :
    db'.holder hash = apply (db.holder hash) (.clear (· == name)) := by
  refine Option.ext fun n => ?_
  simp only [apply_eq_some, holder_eq_some, h, reduceCtorEq, false_or, Event.Spares,
    beq_eq_false_iff_ne]
  constructor
  · rintro ⟨u, hu, hne⟩
    exact ⟨⟨u, hu⟩, fun he => hne ((hu.name_iff hid).2 he)⟩
  · rintro ⟨⟨u, hu⟩, hne⟩
    exact ⟨u, hu, fun he => hne ((hu.name_iff hid).1 he)⟩

theorem holder_minted_self (hid : db.userIdOf name = some id) (hm : Minted db db' id hash) :
    db'.holder hash = some name :=
  holder_eq_some.2 ⟨id, hm.holds.2 (Or.inr ⟨rfl, rfl, accountOf_iff_userIdOf.2 hid⟩)⟩

theorem holder_minted_other (hm : Minted db db' id hash') (hne : hash ≠ hash') :
    db'.holder hash = db.holder hash := by
  refine holder_congr fun u n => ?_
  rw [hm.holds]
  exact or_iff_left fun h => hne h.1

theorem holder_revoke_row {now : Int} : (db.revokeTokens (·.id == id) now).2.holder hash =
    if ∃ r ∈ db.tokens, r.id = id ∧ r.tokenHash = hash then none else db.holder hash := by
  split
  · rename_i h
    refine Option.eq_none_iff_forall_ne_some.2 fun n hn => ?_
    obtain ⟨u, hu⟩ := holder_eq_some.1 hn
    exact (holds_revoke_row.1 hu).2 h
  · rename_i h
    exact holder_congr fun u n => holds_revoke_row.trans (and_iff_left h)

end holder

section cell

variable (hashToken : String → List UInt8) (t : String)

/-- What a call does to the account `t` authenticates. -/
def TokenOp.event : Db × (Faults × TokenOp) → Event String
  | (_, _, .addUser _ _) => .keep
  | (_, _, .createToken _ token user _) => if token = t then .write user else .keep
  | (_, _, .provisionUserToken _ token name) => if token = t then .write name else .keep
  | (_, _, .rotateUserToken _ token name) => if token = t then .write name else .clear (· == name)
  | (db, _, .revokeToken _ id) =>
    if ∃ r ∈ db.tokens, r.id = id ∧ r.tokenHash = hashToken t then .clear fun _ => true else .keep
  | (_, _, .removeUser name _) => .clear (· == name)

variable {hashToken t}

/-- **One call on one cell.** A token other than `t` must have another hash. -/
theorem holder_step {db db' : Db} {c : Faults × TokenOp}
    (hinj : ∀ m ∈ c.2.mints, hashToken t = hashToken m.1 → t = m.1)
    (hstep : TokenOp.step hashToken db c = some db') :
    db'.holder (hashToken t) = apply (db.holder (hashToken t)) (TokenOp.event hashToken t (db, c)) := by
  obtain ⟨faults, op⟩ := c
  cases tokenOp_effect hstep with
  | addUser h => exact holder_congr fun u n => h.holds
  | @createToken now id token user label _ hid h =>
    by_cases ht : token = t
    · subst ht
      rw [holder_minted_self hid h, TokenOp.event, if_pos rfl, apply]
    · have hne : hashToken t ≠ hashToken token := fun he => ht (hinj _ rfl he).symm
      rw [holder_minted_other h hne, TokenOp.event, if_neg ht, apply]
  | @provisionUserToken now id token name db1 _ hacc h =>
    by_cases ht : token = t
    · subst ht
      rw [holder_minted_self hacc.userIdOf h, TokenOp.event, if_pos rfl, apply]
    · have hne : hashToken t ≠ hashToken token := fun he => ht (hinj _ rfl he).symm
      rw [holder_minted_other h hne, holder_congr fun u n => hacc.holds, TokenOp.event, if_neg ht, apply]
  | @rotateUserToken now id token name db1 _ hacc h =>
    have hid : (db1.revokeTokens (·.userId == id) now).2.userIdOf name = some id := hacc.userIdOf
    by_cases ht : token = t
    · subst ht
      rw [holder_minted_self hid h, TokenOp.event, if_pos rfl, apply]
    · have hne : hashToken t ≠ hashToken token := fun he => ht (hinj _ rfl he).symm
      rw [holder_minted_other h hne, holder_clear hacc.userIdOf fun u n => holds_revoke_user,
        holder_congr fun u n => hacc.holds, TokenOp.event, if_neg ht]
  | @revokeToken now id =>
    rw [holder_revoke_row, TokenOp.event]
    split
    · cases db.holder (hashToken t) <;> rfl
    · rfl
  | removeUser hid h => exact holder_clear hid fun u n => h.holds

theorem event_eq_write {n : String} {x : Db × (Faults × TokenOp)} :
    TokenOp.event hashToken t x = .write n ↔ x.2.2.mints = some (t, n) := by
  obtain ⟨db, faults, op⟩ := x
  cases op with
  | addUser => simp [TokenOp.event, TokenOp.mints]
  | createToken now token user label =>
    by_cases ht : token = t <;> simp [TokenOp.event, TokenOp.mints, ht]
  | provisionUserToken now token name =>
    by_cases ht : token = t <;> simp [TokenOp.event, TokenOp.mints, ht]
  | rotateUserToken now token name =>
    by_cases ht : token = t <;> simp [TokenOp.event, TokenOp.mints, ht]
  | revokeToken now id =>
    simp only [TokenOp.event, TokenOp.mints]
    split <;> simp
  | removeUser => simp [TokenOp.event, TokenOp.mints]

/-- A call that does not mint `t` spares the cell's value unless it ends it. -/
theorem event_spares {n : String} {x : Db × (Faults × TokenOp)} (hx : ∀ m ∈ x.2.2.mints, m.1 ≠ t) :
    (TokenOp.event hashToken t x).Spares n ↔ ¬ Ends hashToken t n x := by
  obtain ⟨db, faults, op⟩ := x
  cases op with
  | addUser => simp [TokenOp.event, Event.Spares, Ends]
  | createToken now token user label =>
    simp [TokenOp.event, Event.Spares, Ends, if_neg (hx _ rfl)]
  | provisionUserToken now token name =>
    simp [TokenOp.event, Event.Spares, Ends, if_neg (hx _ rfl)]
  | rotateUserToken now token name =>
    simp only [TokenOp.event, Event.Spares, Ends, if_neg (hx _ rfl), beq_eq_false_iff_ne]
    exact ne_comm
  | revokeToken now id =>
    simp only [TokenOp.event, Ends]
    split
    · rename_i h
      simp only [Event.Spares, Bool.true_eq_false, false_iff, not_not]
      exact h
    · rename_i h
      simp only [Event.Spares, true_iff]
      exact h
  | removeUser name force =>
    simp only [TokenOp.event, Event.Spares, Ends, beq_eq_false_iff_ne]
    exact ne_comm

end cell

/-! ## Runs -/

section runs

variable {hashToken : String → List UInt8} {calls : List (Faults × TokenOp)} {db : Db}

theorem mem_mintedTokens {t : String} :
    t ∈ mintedTokens calls ↔ ∃ c ∈ calls, ∃ n, c.2.mints = some (t, n) := by
  simp only [mintedTokens, List.mem_filterMap, Option.map_eq_some_iff]
  constructor
  · rintro ⟨c, hc, ⟨s, n⟩, hm, rfl⟩
    exact ⟨c, hc, n, hm⟩
  · rintro ⟨c, hc, n, hm⟩
    exact ⟨c, hc, (t, n), hm, rfl⟩

theorem holder_run {t : String} (hrun : Lts.run (TokenOp.step hashToken) Db.empty calls = some db)
    (ht : ∀ s ∈ mintedTokens calls, hashToken t = hashToken s → t = s) :
    db.holder (hashToken t) =
      value ((Lts.trace (TokenOp.step hashToken) Db.empty calls).map (TokenOp.event hashToken t)) := by
  have hG : Lts.Steps (TokenOp.step hashToken)
      (fun _ c => ∀ m ∈ c.2.mints, hashToken t = hashToken m.1 → t = m.1) Db.empty calls := by
    refine Lts.steps_of_forall (P := fun c : Faults × TokenOp =>
      ∀ m ∈ c.2.mints, hashToken t = hashToken m.1 → t = m.1) fun c hc m hm => ?_
    exact ht m.1 (mem_mintedTokens.2 ⟨c, hc, m.2, hm⟩)
  exact run_value (f := fun db : Db => db.holder (hashToken t)) (fun db c db' => holder_step) hG hrun

/-- The latest minting of `t` decides, if nothing after it ended `t`. -/
theorem holder_run_iff {t n : String}
    (hrun : Lts.run (TokenOp.step hashToken) Db.empty calls = some db)
    (hdistinct : (mintedTokens calls).Nodup)
    (ht : ∀ s ∈ mintedTokens calls, hashToken t = hashToken s → t = s) :
    db.holder (hashToken t) = some n ↔
      ∃ before c after, Lts.trace (TokenOp.step hashToken) Db.empty calls = before ++ c :: after ∧
        c.2.2.mints = some (t, n) ∧ ∀ c' ∈ after, ¬ Ends hashToken t n c' := by
  rw [holder_run hrun ht, value_map_eq_some]
  refine exists_congr fun before => exists_congr fun c => exists_congr fun after => ?_
  refine and_congr_right fun htrace => ?_
  rw [event_eq_write]
  refine and_congr_right fun hmint => forall₂_congr fun c' hc' => event_spares fun m hm hmt => ?_
  -- `t` would be minted twice
  have hcalls := congrArg (List.map (·.2)) htrace
  rw [Lts.map_snd_trace _ hrun, List.map_append, List.map_cons] at hcalls
  rw [hcalls, mintedTokens, List.filterMap_append, List.filterMap_cons_some (by rw [hmint]; rfl)]
    at hdistinct
  have hnodup := (List.nodup_append.1 hdistinct).2.1
  refine (List.nodup_cons.1 hnodup).1 (mem_mintedTokens.2 ⟨c'.2, List.mem_map_of_mem hc', m.2, ?_⟩)
  rw [← hmt]; exact hm

/-- A call adds at most the hash of the token it mints. -/
theorem tokenEffect_hashes {op : TokenOp} {db' : Db} (h : TokenEffect hashToken db op db')
    {x : List UInt8} (hx : x ∈ db'.tokens.map (·.tokenHash)) :
    x ∈ db.tokens.map (·.tokenHash) ∨ ∃ m ∈ op.mints, x = hashToken m.1 := by
  have hminted : ∀ {db1 : Db} {id : Int} {token : String}, Minted db1 db' id (hashToken token) →
      x ∈ db1.tokens.map (·.tokenHash) ∨ x = hashToken token := by
    intro db1 id token hm
    obtain ⟨i, label, now, hrow⟩ := hm.tokens
    rw [hrow, List.map_append, List.mem_append] at hx
    exact hx.imp_right List.mem_singleton.1
  cases h with
  | addUser h => rw [h.tokens] at hx; exact Or.inl hx
  | createToken hid h => exact (hminted h).imp_right fun he => ⟨_, rfl, he⟩
  | provisionUserToken hacc h =>
    rw [← hacc.tokens]
    exact (hminted h).imp_right fun he => ⟨_, rfl, he⟩
  | rotateUserToken hacc h =>
    have := hminted h
    rw [revokeTokens_hashes, hacc.tokens] at this
    exact this.imp_right fun he => ⟨_, rfl, he⟩
  | revokeToken => rw [revokeTokens_hashes] at hx; exact Or.inl hx
  | removeUser hid h =>
    rw [h.tokens] at hx
    exact Or.inl ((List.filter_sublist.map _).subset hx)

/-- Every row holds the hash of a minted token. -/
theorem hashes_minted (hrun : Lts.run (TokenOp.step hashToken) Db.empty calls = some db) :
    ∀ x ∈ db.tokens.map (·.tokenHash), ∃ s ∈ mintedTokens calls, x = hashToken s := by
  refine Lts.run_inv
    (I := fun db => ∀ x ∈ db.tokens.map (·.tokenHash), ∃ s ∈ mintedTokens calls, x = hashToken s)
    (G := fun _ c => c ∈ calls) (fun db c db' hI hc hstep x hx => ?_) (by simp [Db.empty])
    (Lts.steps_of_forall fun _ => id) hrun
  rcases tokenEffect_hashes (tokenOp_effect hstep) hx with hx | ⟨m, hm, rfl⟩
  · exact hI x hx
  · exact ⟨m.1, mem_mintedTokens.2 ⟨c, hc, m.2, hm⟩, rfl⟩

end runs

/-! ## Rotation -/

section rotation

variable {hashToken : String → List UInt8} {db db1 db' : Db} {id now : Int} {token n : String}
  {hash : List UInt8}

theorem rotation_step {faults : Faults}
    (h : TokenOp.step hashToken db (faults, .rotateUserToken now token n) = some db') :
    ∃ id db1, Account db db1 n id ∧
      Minted (db1.revokeTokens (·.userId == id) now).2 db' id (hashToken token) ∧
      (run faults (rotateUserToken now token (hashToken token) n) db).1 =
        .ok (token, (db1.revokeTokens (·.userId == id) now).1) := by
  unfold TokenOp.step at h
  split at h
  · rename_i hok
    cases h
    obtain ⟨a, ha⟩ := outcome_ok hok
    obtain ⟨id, db1, hacc, hm, rfl⟩ :=
      post_run (rotateUserToken_effect db now token (hashToken token) n) faults a ha
    rw [← Op.run_outcome] at hm
    exact ⟨id, db1, hacc, hm, ha⟩
  · cases h

/-- After a rotation for `n` the others hold what they held, and `n` the new token. -/
theorem rotation_holds (hacc : Account db db1 n id)
    (hm : Minted (db1.revokeTokens (·.userId == id) now).2 db' id (hashToken token)) {u : Int}
    {m : String} : db'.Holds hash u m ↔
      (db.Holds hash u m ∧ m ≠ n) ∨ (hash = hashToken token ∧ u = id ∧ m = n) := by
  have hid : db1.accountOf id = some n := accountOf_iff_userIdOf.2 hacc.userIdOf
  have hid' : (db1.revokeTokens (·.userId == id) now).2.accountOf id = some n := hid
  rw [hm.holds, holds_revoke_user, hid', Option.some.injEq, eq_comm (a := n)]
  refine or_congr_left ?_
  rw [← hacc.holds]
  exact and_congr_right fun h => not_congr (h.name_iff hacc.userIdOf)

/-- The tokens that authenticate as `n` are those whose hash the rotation revokes. -/
theorem holds_name_iff (hacc : Account db db1 n id) : (∃ u, db.Holds hash u n) ↔
    hash ∈ (db1.tokens.filter fun r => r.userId == id && r.revokedAt.isNone).map (·.tokenHash) := by
  simp only [List.mem_map, List.mem_filter, Bool.and_eq_true, beq_iff_eq, Option.isNone_iff_eq_none]
  constructor
  · rintro ⟨u, hu⟩
    have hu1 := hacc.holds.2 hu
    obtain rfl := (hu1.name_iff hacc.userIdOf).2 rfl
    obtain ⟨-, r, hr, hh, hrev, huid⟩ := hu1
    exact ⟨r, ⟨hr, huid, hrev⟩, hh⟩
  · rintro ⟨r, ⟨hr, huid, hrev⟩, hh⟩
    exact ⟨id, hacc.holds.1 ⟨accountOf_iff_userIdOf.2 hacc.userIdOf, r, hr, hh, hrev, huid⟩⟩

/-- The count a rotation returns, in tokens: each revoked row is the row of one minted token. -/
theorem revoked_count {tokens : List String} (hdistinct : tokens.Nodup)
    (hinj : ∀ s ∈ tokens, ∀ t ∈ tokens, hashToken s = hashToken t → s = t)
    (hrows : ∀ x ∈ db.tokens.map (·.tokenHash), ∃ s ∈ tokens, x = hashToken s)
    (hacc : Account db db1 n id) : (db1.revokeTokens (·.userId == id) now).1 =
      tokens.countP fun t => (Registry.authenticate [] db hashToken t).map (·.name) == some n := by
  have hauth : ∀ t, (Registry.authenticate [] db hashToken t).map (·.name) = some n ↔
      hashToken t ∈
        (db1.tokens.filter fun r => r.userId == id && r.revokedAt.isNone).map (·.tokenHash) := by
    intro t
    rw [← holds_name_iff hacc, Option.map_eq_some_iff]
    constructor
    · rintro ⟨⟨u, m⟩, hu, rfl⟩
      exact ⟨u, authenticate_iff.1 hu⟩
    · rintro ⟨u, hu⟩
      exact ⟨⟨u, n⟩, authenticate_iff.2 hu, rfl⟩
  have hperm : ((tokens.filter fun t =>
      (Registry.authenticate [] db hashToken t).map (·.name) == some n).map hashToken).Perm
      ((db1.tokens.filter fun r => r.userId == id && r.revokedAt.isNone).map (·.tokenHash)) := by
    refine (List.perm_ext_iff_of_nodup ?_ (nodup_map_filter _ db1.valid.token_hash)).2 fun x => ?_
    · refine (hdistinct.filter _).map_on fun s hs t ht he => ?_
      exact hinj s (List.mem_of_mem_filter hs) t (List.mem_of_mem_filter ht) he
    · simp only [List.mem_map (f := hashToken), List.mem_filter, beq_iff_eq, hauth]
      constructor
      · rintro ⟨t, ⟨-, ht⟩, rfl⟩
        exact ht
      · intro hx
        obtain ⟨s, hs, rfl⟩ := hrows x (by
          rw [← hacc.tokens]
          exact (List.filter_sublist.map _).subset hx)
        exact ⟨s, ⟨hs, hx⟩, rfl⟩
  have hlen := hperm.length_eq
  rw [List.length_map, List.length_map] at hlen
  rw [List.countP_eq_length_filter, hlen]
  rfl

end rotation

/-- **Token lifecycle.** For every sequence of calls that all succeed, with freshly generated tokens
distinct and not colliding under the hash:
* `t` authenticates as `n` iff it was minted for `n` and no call since has revoked its row, rotated the
  tokens of `n` or removed `n`;
* right after a rotation for `n`, the new token and no other authenticates as `n`, the count returned is
  the number of tokens that did before, and the tokens of all other accounts authenticate as before.

`t` may be any string, minted or not, whose hash is not that of another minted token. -/
theorem token_lifecycle (hashToken : String → List UInt8) (calls : List (Faults × TokenOp)) (db : Db)
    (hrun : Lts.run (TokenOp.step hashToken) Db.empty calls = some db)
    (hdistinct : (mintedTokens calls).Nodup)
    (hinj : ∀ s ∈ mintedTokens calls, ∀ t ∈ mintedTokens calls, hashToken s = hashToken t → s = t) :
    (∀ t n, (∀ s ∈ mintedTokens calls, hashToken t = hashToken s → t = s) →
      ((∃ u, Registry.authenticate [] db hashToken t = some ⟨u, n⟩) ↔
        ∃ before c after, Lts.trace (TokenOp.step hashToken) Db.empty calls = before ++ c :: after ∧
          c.2.2.mints = some (t, n) ∧ ∀ c' ∈ after, ¬ Ends hashToken t n c')) ∧
    ∀ before faults now token n db0, calls = before ++ [(faults, .rotateUserToken now token n)] →
      Lts.run (TokenOp.step hashToken) Db.empty before = some db0 →
      (∀ t, (∀ s ∈ mintedTokens calls, hashToken t = hashToken s → t = s) →
        ((∃ u, Registry.authenticate [] db hashToken t = some ⟨u, n⟩) ↔ t = token)) ∧
      (run faults (rotateUserToken now token (hashToken token) n) db0).1 = .ok (token,
        (mintedTokens before).countP fun t =>
          (Registry.authenticate [] db0 hashToken t).map (·.name) == some n) ∧
      ∀ t user, user.name ≠ n → (Registry.authenticate [] db hashToken t = some user ↔
        Registry.authenticate [] db0 hashToken t = some user) := by
  refine ⟨fun t n ht => ?_, fun before faults now token n db0 hcalls hrun0 => ?_⟩
  · simp only [authenticate_iff, ← holder_eq_some]
    exact holder_run_iff hrun hdistinct ht
  · subst hcalls
    obtain ⟨db0', hrun0', hlast⟩ := (Lts.run_append _).1 hrun
    obtain rfl : db0 = db0' := Option.some.inj (hrun0.symm.trans hrun0')
    obtain ⟨_, hstep, hend⟩ := (Lts.run_cons_eq_some _).1 hlast
    cases hend
    obtain ⟨id, db1, hacc, hm, hres⟩ := rotation_step hstep
    have hminted : mintedTokens (before ++ [(faults, .rotateUserToken now token n)]) =
        mintedTokens before ++ [token] := by
      simp [mintedTokens, TokenOp.mints]
    rw [hminted] at hdistinct hinj
    refine ⟨fun t ht => ?_, ?_, fun t ⟨u, m⟩ hne => ?_⟩
    · simp only [authenticate_iff, rotation_holds hacc hm, ne_eq, not_true, and_false, false_or, and_true]
      constructor
      · rintro ⟨u, hh, -⟩
        exact ht token (by rw [hminted]; simp) hh
      · rintro rfl
        exact ⟨id, rfl, rfl⟩
    · rw [hres, revoked_count (List.nodup_append.1 hdistinct).1
        (fun s hs t ht => hinj s (List.mem_append_left _ hs) t (List.mem_append_left _ ht))
        (hashes_minted hrun0) hacc]
    · simp only [authenticate_iff, rotation_holds hacc hm]
      constructor
      · rintro (⟨h, -⟩ | ⟨-, -, rfl⟩)
        · exact h
        · exact absurd rfl hne
      · intro h
        exact Or.inl ⟨h, hne⟩

/-- `ann`'s first token, a second one, a rotation, and `bob`'s token revoked by its row id. -/
def tokenHistory : List (Faults × TokenOp) :=
  [([], .provisionUserToken 0 "t1" "ann"), ([], .provisionUserToken 1 "t2" "bob"),
    ([], .createToken 2 "t3" "ann" none), ([], .revokeToken 3 2), ([], .rotateUserToken 4 "t4" "ann")]

theorem token_lifecycle_rotated : ∃ db,
    Lts.run (TokenOp.step bytes) Db.empty tokenHistory = some db ∧
    Registry.authenticate [] db bytes "t1" = none ∧ Registry.authenticate [] db bytes "t2" = none ∧
    ∀ t, (∀ s ∈ mintedTokens tokenHistory, bytes t = bytes s → t = s) →
      ((∃ u, Registry.authenticate [] db bytes t = some ⟨u, "ann"⟩) ↔ t = "t4") :=
  ⟨_, rfl, by decide, by decide, ((token_lifecycle bytes tokenHistory _ rfl (by decide) (by decide)).2
    (tokenHistory.take 4) [] 4 "t4" "ann" _ rfl rfl).1⟩

end EtherTunnel
