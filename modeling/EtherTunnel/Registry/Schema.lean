import Mathlib.Data.List.Basic
import Mathlib.Data.List.Nodup
import Mathlib.Data.List.MinMax

/-!
# The registry database

The four tables of `Registry::init` (`registry.rs:138-175`) and the SQL statements the registry
runs on them. `Db` carries the schema's constraints (PRIMARY KEY, UNIQUE, and REFERENCES under
`foreign_keys = ON`) as a field: a statement that would break one returns `SqlError.constraint`,
as SQLite does, so no operation can leave a database that breaks them.

| here | there |
| --- | --- |
| `UserRec`, `TokenRec`, `HostnameRec`, `PortRec` | rows of `users`, `tokens`, `hostnames`, `tcp_ports` |
| `Tables.Valid` | the constraints of the schema |
| `nextId` | SQLite's choice of an `INTEGER PRIMARY KEY`: one more than the largest row id present |
| `insertUser`, `insertToken`, `insertHostname`, `insertPort` | the `INSERT` statements |
| `deleteTokens`, `deleteHostnames`, `deletePorts`, `deleteUser`, `revokeTokens` | the `DELETE`/`UPDATE` statements, with their `WHERE` as an argument; they return the number of rows touched |

A token's hash is the byte string SHA-256 gives; created/revoked stamps are i64 seconds.
-/

namespace EtherTunnel

structure UserRec where
  id : Int
  name : String
  createdAt : Int
deriving DecidableEq

structure TokenRec where
  id : Int
  userId : Int
  tokenHash : List UInt8
  label : Option String
  createdAt : Int
  revokedAt : Option Int
deriving DecidableEq

structure HostnameRec where
  id : Int
  userId : Int
  label : String
  createdAt : Int
deriving DecidableEq

structure PortRec where
  port : UInt16
  userId : Int
  createdAt : Int
deriving DecidableEq

/-- Named, so that every comparison of hashes is the same term. -/
instance lawfulBEqHash : LawfulBEq (List UInt8) := inferInstance

structure Tables where
  users : List UserRec
  tokens : List TokenRec
  hostnames : List HostnameRec
  tcpPorts : List PortRec
deriving DecidableEq

/-- The constraints of the schema. -/
structure Tables.Valid (t : Tables) : Prop where
  user_id : (t.users.map (·.id)).Nodup
  user_name : (t.users.map (·.name)).Nodup
  token_id : (t.tokens.map (·.id)).Nodup
  token_hash : (t.tokens.map (·.tokenHash)).Nodup
  host_id : (t.hostnames.map (·.id)).Nodup
  host_label : (t.hostnames.map (·.label)).Nodup
  port_key : (t.tcpPorts.map (·.port)).Nodup
  token_fk : ∀ r ∈ t.tokens, r.userId ∈ t.users.map (·.id)
  host_fk : ∀ r ∈ t.hostnames, r.userId ∈ t.users.map (·.id)
  port_fk : ∀ r ∈ t.tcpPorts, r.userId ∈ t.users.map (·.id)

/-- A database that keeps its schema. -/
structure Db extends Tables where
  valid : toTables.Valid

@[ext] theorem Db.ext' {a b : Db} (h : a.toTables = b.toTables) : a = b := by
  cases a; cases b; simp_all

theorem Db.eq_iff {a b : Db} : a = b ↔ a.users = b.users ∧ a.tokens = b.tokens ∧
    a.hostnames = b.hostnames ∧ a.tcpPorts = b.tcpPorts := by
  rcases a with ⟨⟨⟩⟩
  rcases b with ⟨⟨⟩⟩
  simp

instance : DecidableEq Db := fun a b =>
  decidable_of_iff (a.toTables = b.toTables) ⟨Db.ext', fun h => h ▸ rfl⟩

/-- The database right after `CREATE TABLE`. -/
def Db.empty : Db := ⟨⟨[], [], [], []⟩, by constructor <;> simp⟩

/-- What a failed statement reports: a constraint violation, or anything else (busy, I/O). -/
inductive SqlError where
  | constraint
  | failure
deriving DecidableEq, Repr

/-- SQLite's next row id. -/
def nextId (ids : List Int) : Int :=
  match ids.max? with
  | none => 1
  | some m => m + 1

theorem nextId_notMem (ids : List Int) : nextId ids ∉ ids := by
  unfold nextId
  split
  · rename_i h
    have : ids = [] := by simpa using h
    simp [this]
  · rename_i m h
    intro hmem
    have := (List.max?_eq_some_iff.1 h).2 _ hmem
    omega

/-! ## Columns under `INSERT` and `DELETE` -/

section columns

variable {α β : Type} {f : α → β} {l : List α}

/-- Appending a row whose value is new keeps a column distinct. -/
theorem nodup_map_concat {x : α} (h : (l.map f).Nodup) (hx : f x ∉ l.map f) :
    ((l ++ [x]).map f).Nodup := by
  rw [List.map_append, List.nodup_append]
  refine ⟨h, by simp, fun a ha b hb he => ?_⟩
  simp only [List.map_cons, List.map_nil, List.mem_singleton] at hb
  exact hx (hb ▸ he ▸ ha)

theorem mem_map_concat {x : α} {b : β} (h : b ∈ l.map f) : b ∈ (l ++ [x]).map f := by
  rw [List.map_append]; exact List.mem_append_left _ h

theorem forall_mem_concat {P : α → Prop} {x : α} (h : ∀ r ∈ l, P r) (hx : P x) :
    ∀ r ∈ l ++ [x], P r := by
  intro r hr
  rcases List.mem_append.1 hr with hr | hr
  · exact h r hr
  · rw [List.mem_singleton.1 hr]; exact hx

/-- Looking a row up by the value of a distinct column. -/
theorem find?_key_eq_some [DecidableEq β] {r : α} {b : β} (h : (l.map f).Nodup) :
    l.find? (f · == b) = some r ↔ r ∈ l ∧ f r = b := by
  constructor
  · intro hr
    exact ⟨List.mem_of_find?_eq_some hr, by simpa using List.find?_some hr⟩
  · rintro ⟨hr, rfl⟩
    cases hf : l.find? (f · == f r) with
    | none => exact absurd (List.find?_eq_none.1 hf r hr) (by simp)
    | some r' =>
      have he : f r' = f r := by simpa using List.find?_some hf
      rw [List.inj_on_of_nodup_map h (List.mem_of_find?_eq_some hf) hr he]

/-- Deleting rows keeps a column distinct. -/
theorem nodup_map_filter (p : α → Bool) (h : (l.map f).Nodup) : ((l.filter p).map f).Nodup :=
  h.sublist ((List.filter_sublist (p := p)).map f)

end columns

/-! ## Statements -/

namespace Db

variable (db : Db)

/-- `INSERT INTO users (name, created_at)`; answers `last_insert_rowid()`. -/
def insertUser (name : String) (now : Int) : Except SqlError (Int × Db) :=
  if h : name ∈ db.users.map (·.name) then .error .constraint
  else
    .ok (nextId (db.users.map (·.id)), { db with
      users := db.users ++ [⟨nextId (db.users.map (·.id)), name, now⟩]
      valid := { db.valid with
        user_id := nodup_map_concat db.valid.user_id (nextId_notMem _)
        user_name := nodup_map_concat db.valid.user_name h
        token_fk := fun r hr => mem_map_concat (db.valid.token_fk r hr)
        host_fk := fun r hr => mem_map_concat (db.valid.host_fk r hr)
        port_fk := fun r hr => mem_map_concat (db.valid.port_fk r hr) } })

/-- `INSERT INTO tokens (user_id, token_hash, label, created_at)`. -/
def insertToken (userId : Int) (hash : List UInt8) (label : Option String) (now : Int) :
    Except SqlError (Int × Db) :=
  if h : hash ∉ db.tokens.map (·.tokenHash) ∧ userId ∈ db.users.map (·.id) then
    .ok (nextId (db.tokens.map (·.id)), { db with
      tokens := db.tokens ++ [⟨nextId (db.tokens.map (·.id)), userId, hash, label, now, none⟩]
      valid := { db.valid with
        token_id := nodup_map_concat db.valid.token_id (nextId_notMem _)
        token_hash := nodup_map_concat db.valid.token_hash h.1
        token_fk := forall_mem_concat db.valid.token_fk h.2 } })
  else .error .constraint

/-- `INSERT INTO hostnames (user_id, label, created_at)`. -/
def insertHostname (userId : Int) (label : String) (now : Int) : Except SqlError (Int × Db) :=
  if h : label ∉ db.hostnames.map (·.label) ∧ userId ∈ db.users.map (·.id) then
    .ok (nextId (db.hostnames.map (·.id)), { db with
      hostnames := db.hostnames ++ [⟨nextId (db.hostnames.map (·.id)), userId, label, now⟩]
      valid := { db.valid with
        host_id := nodup_map_concat db.valid.host_id (nextId_notMem _)
        host_label := nodup_map_concat db.valid.host_label h.1
        host_fk := forall_mem_concat db.valid.host_fk h.2 } })
  else .error .constraint

/-- `INSERT INTO tcp_ports (port, user_id, created_at)`. -/
def insertPort (port : UInt16) (userId : Int) (now : Int) : Except SqlError (Unit × Db) :=
  if h : port ∉ db.tcpPorts.map (·.port) ∧ userId ∈ db.users.map (·.id) then
    .ok ((), { db with
      tcpPorts := db.tcpPorts ++ [⟨port, userId, now⟩]
      valid := { db.valid with
        port_key := nodup_map_concat db.valid.port_key h.1
        port_fk := forall_mem_concat db.valid.port_fk h.2 } })
  else .error .constraint

/-- `DELETE FROM tokens WHERE …`. -/
def deleteTokens (p : TokenRec → Bool) : Nat × Db :=
  ((db.tokens.filter p).length, { db with
    tokens := db.tokens.filter (!p ·)
    valid := { db.valid with
      token_id := nodup_map_filter _ db.valid.token_id
      token_hash := nodup_map_filter _ db.valid.token_hash
      token_fk := fun r hr => db.valid.token_fk r (List.mem_of_mem_filter hr) } })

/-- `DELETE FROM hostnames WHERE …`. -/
def deleteHostnames (p : HostnameRec → Bool) : Nat × Db :=
  ((db.hostnames.filter p).length, { db with
    hostnames := db.hostnames.filter (!p ·)
    valid := { db.valid with
      host_id := nodup_map_filter _ db.valid.host_id
      host_label := nodup_map_filter _ db.valid.host_label
      host_fk := fun r hr => db.valid.host_fk r (List.mem_of_mem_filter hr) } })

/-- `DELETE FROM tcp_ports WHERE …`. -/
def deletePorts (p : PortRec → Bool) : Nat × Db :=
  ((db.tcpPorts.filter p).length, { db with
    tcpPorts := db.tcpPorts.filter (!p ·)
    valid := { db.valid with
      port_key := nodup_map_filter _ db.valid.port_key
      port_fk := fun r hr => db.valid.port_fk r (List.mem_of_mem_filter hr) } })

/-- Some row of the other tables references this user. -/
def referenced (id : Int) : Bool :=
  db.tokens.any (·.userId == id) || db.hostnames.any (·.userId == id) ||
    db.tcpPorts.any (·.userId == id)

theorem mem_users_filter {l : List UserRec} {id i : Int} (hi : i ∈ l.map (·.id)) (hne : i ≠ id) :
    i ∈ (l.filter (·.id != id)).map (·.id) := by
  obtain ⟨u, hu, rfl⟩ := List.mem_map.1 hi
  exact List.mem_map.2 ⟨u, List.mem_filter.2 ⟨hu, by simpa using hne⟩, rfl⟩

/-- `DELETE FROM users WHERE id = ?`: refused while another table references the user. -/
def deleteUser (id : Int) : Except SqlError (Unit × Db) :=
  if h : db.referenced id then .error .constraint
  else
    .ok ((), { db with
      users := db.users.filter (·.id != id)
      valid := by
        have v := db.valid
        simp only [referenced, Bool.not_eq_true, Bool.or_eq_false_iff, List.any_eq_false,
          beq_iff_eq] at h
        exact { v with
          user_id := nodup_map_filter _ v.user_id
          user_name := nodup_map_filter _ v.user_name
          token_fk := fun r hr => mem_users_filter (v.token_fk r hr) (h.1.1 r hr)
          host_fk := fun r hr => mem_users_filter (v.host_fk r hr) (h.1.2 r hr)
          port_fk := fun r hr => mem_users_filter (v.port_fk r hr) (h.2 r hr) } })

/-- `UPDATE tokens SET revoked_at = now WHERE … AND revoked_at IS NULL`. -/
def revokeTokens (p : TokenRec → Bool) (now : Int) : Nat × Db :=
  let hit (r : TokenRec) : Bool := p r && r.revokedAt.isNone
  let mark (r : TokenRec) : TokenRec := if hit r then { r with revokedAt := some now } else r
  ((db.tokens.filter hit).length, { db with
    tokens := db.tokens.map mark
    valid := by
      have v := db.valid
      have hid : ∀ r, (mark r).id = r.id := by intro r; simp only [mark]; split <;> rfl
      have hhash : ∀ r, (mark r).tokenHash = r.tokenHash := by
        intro r; simp only [mark]; split <;> rfl
      have huid : ∀ r, (mark r).userId = r.userId := by intro r; simp only [mark]; split <;> rfl
      exact { v with
        token_id := by simpa [List.map_map, Function.comp_def, hid] using v.token_id
        token_hash := by simpa [List.map_map, Function.comp_def, hhash] using v.token_hash
        token_fk := by
          intro r hr
          obtain ⟨r', hr', rfl⟩ := List.mem_map.1 hr
          rw [huid]; exact v.token_fk r' hr' } })

end Db

end EtherTunnel
