import EtherTunnel.Lib.Txn
import EtherTunnel.Registry.Labels
import EtherTunnel.Registry.Schema
import Mathlib.Data.List.Sort

/-!
# Registry operations

The operations of `Registry` (`registry.rs:204-800`), each as the sequence of SQL statements it runs.
Every method locks `self.conn` for its whole body, so inside one process an operation is atomic;
`Txn.run faults` executes one operation, `faults` saying which of its statements fail.

`now` is `Registry::now()`. A fresh token (`generate_token`) and its SHA-256 (`hash_token`) come from
outside the repository and are arguments.
-/

namespace EtherTunnel

open Txn

/-- `RegistryError` (`registry.rs:24`). -/
inductive RegistryError where
  | db (e : SqlError)
  | noSuchUser (name : String)
  | userExists (name : String)
  | userNotEmpty (name : String)
  | invalidLabel (label why : String)
  | labelTaken (label : String)
  | portTaken (port : UInt16)
  | capExceeded
  | invalidUser (why : String)
deriving DecidableEq, Repr

abbrev Op (α : Type) := Prog Db SqlError (Except RegistryError α)

def Op.ok {α : Type} (a : α) : Op α := .ret (.ok a)
def Op.fail {α : Type} (e : RegistryError) : Op α := .ret (.error e)

abbrev Faults := List (Option SqlError)

/-! ## Queries -/

namespace Db

variable (db : Db)

/-- `SELECT id FROM users WHERE name = ?`. -/
def userIdOf (name : String) : Option Int := (db.users.find? (·.name == name)).map (·.id)

/-- `SELECT user_id FROM hostnames WHERE label = ?`. -/
def labelOwner (label : String) : Option Int :=
  (db.hostnames.find? (·.label == label)).map (·.userId)

/-- `SELECT user_id FROM tcp_ports WHERE port = ?`. -/
def portOwner (port : UInt16) : Option Int := (db.tcpPorts.find? (·.port == port)).map (·.userId)

/-- `(SELECT COUNT(*) FROM hostnames WHERE user_id=?) + (SELECT COUNT(*) FROM tcp_ports WHERE user_id=?)`. -/
def countOwned (userId : Int) : Int :=
  ((db.hostnames.filter (·.userId == userId)).length : Int) +
    (db.tcpPorts.filter (·.userId == userId)).length

def countTokens (userId : Int) : Int := (db.tokens.filter (·.userId == userId)).length

/-- `SELECT 1 FROM hostnames WHERE label = ? AND user_id = ?`. -/
def hasLabel (userId : Int) (label : String) : Bool :=
  db.hostnames.any fun r => r.label == label && r.userId == userId

/-- `SELECT 1 FROM tcp_ports WHERE port = ? AND user_id = ?`. -/
def hasPort (userId : Int) (port : UInt16) : Bool :=
  db.tcpPorts.any fun r => r.port == port && r.userId == userId

/-- `SELECT u.id, u.name, t.token_hash FROM tokens t JOIN users u ON u.id = t.user_id
WHERE t.token_hash = ? AND t.revoked_at IS NULL`, its first row. -/
def tokenHolder (hash : List UInt8) : Option (Int × String × List UInt8) :=
  db.tokens.findSome? fun t =>
    if t.tokenHash == hash && t.revokedAt.isNone then
      (db.users.find? (·.id == t.userId)).map fun u => (u.id, u.name, t.tokenHash)
    else none

end Db

/-! ## Accounts and tokens -/

/-- `lookup_user_id` (`registry.rs:204`). -/
def lookupUserId (name : String) : Op (Option Int) := query .db (·.userIdOf name) Op.ok

/-- `Self::user_id(&conn, name)?` (`registry.rs:211`). -/
def withUserId {α : Type} (name : String) (k : Int → Op α) : Op α :=
  query .db (·.userIdOf name) fun
    | some id => k id
    | none => Op.fail (.noSuchUser name)

/-- `add_user` (`registry.rs:219`). -/
def addUser (now : Int) (name : String) : Op Int :=
  if name = "" then Op.fail (.invalidUser "must not be empty")
  else if 200 < (bytes name).length then Op.fail (.invalidUser "must be at most 200 bytes")
  else
    query .db (·.userIdOf name) fun found =>
      if found.isSome then Op.fail (.userExists name)
      else tryStmt .db (·.insertUser name now) Op.ok

/-- `remove_user` (`registry.rs:250`): four autocommitted deletes after the count. -/
def removeUser (name : String) (force : Bool) : Op Unit :=
  withUserId name fun id =>
    query .db (fun db => db.countTokens id + db.countOwned id) fun owns =>
      if 0 < owns ∧ force = false then Op.fail (.userNotEmpty name)
      else
        tryStmt .db (fun db => .ok (db.deleteTokens (·.userId == id))) fun _ =>
        tryStmt .db (fun db => .ok (db.deleteHostnames (·.userId == id))) fun _ =>
        tryStmt .db (fun db => .ok (db.deletePorts (·.userId == id))) fun _ =>
        tryStmt .db (·.deleteUser id) Op.ok

/-- Reuse the named account or insert it (`registry.rs:279-291`, `:317-329`); the flag says whether
it was created. -/
def withAccount {α : Type} (now : Int) (name : String) (k : Int → Bool → Op α) : Op α :=
  query .db (·.userIdOf name) fun
    | some id => k id false
    | none => tryStmt .db (·.insertUser name now) fun id => k id true

/-- `provision_user_token` (`registry.rs:277`). -/
def provisionUserToken (now : Int) (token : String) (hash : List UInt8) (name : String) :
    Op (String × Bool) :=
  withAccount now name fun id created =>
    tryStmt .db (·.insertToken id hash (some "self-serve") now) fun _ => Op.ok (token, created)

/-- `rotate_user_token` (`registry.rs:315`). -/
def rotateUserToken (now : Int) (token : String) (hash : List UInt8) (name : String) :
    Op (String × Nat) :=
  withAccount now name fun id _ =>
    tryStmt .db (fun db => .ok (db.revokeTokens (·.userId == id) now)) fun revoked =>
    tryStmt .db (·.insertToken id hash (some "self-serve-recovery") now) fun _ =>
      Op.ok (token, revoked)

/-- `create_token` (`registry.rs:666`). -/
def createToken (now : Int) (token : String) (hash : List UInt8) (user : String)
    (label : Option String) : Op String :=
  withUserId user fun id =>
    tryStmt .db (·.insertToken id hash label now) fun _ => Op.ok token

/-- `revoke_token` (`registry.rs:699`). -/
def revokeToken (now : Int) (id : Int) : Op Bool :=
  tryStmt .db (fun db => .ok (db.revokeTokens (·.id == id) now)) fun n => Op.ok (decide (0 < n))

/-! ## Labels and ports -/

/-- `add_hostname` (`registry.rs:708`). -/
def addHostname (now : Int) (label user : String) : Op Unit :=
  match validateLabel label with
  | .error e => Op.fail (.invalidLabel label e)
  | .ok () =>
    withUserId user fun id =>
      query .db (·.labelOwner label) fun owner =>
        if owner.isSome then Op.fail (.labelTaken label)
        else tryStmt .db (·.insertHostname id label now) fun _ => Op.ok ()

/-- `remove_hostname` (`registry.rs:743`). -/
def removeHostname (label : String) : Op Bool :=
  tryStmt .db (fun db => .ok (db.deleteHostnames (·.label == label))) fun n => Op.ok (decide (0 < n))

/-- `add_port` (`registry.rs:748`). -/
def addPort (now : Int) (port : UInt16) (user : String) : Op Unit :=
  begin .db <|
    withUserId user fun id =>
      query .db (·.portOwner port) fun taken =>
        if taken.isSome then Op.fail (.portTaken port)
        else tryStmt .db (·.insertPort port id now) fun _ => commit .db (Op.ok ())

/-- `remove_port` (`registry.rs:781`). -/
def removePort (port : UInt16) : Op Bool :=
  tryStmt .db (fun db => .ok (db.deletePorts (·.port == port))) fun n => Op.ok (decide (0 < n))

/-- `release_user_hostnames` (`registry.rs:357`). -/
def releaseUserHostnames (name : String) (releasePorts : Bool) : Op (List String × List UInt16) :=
  begin .db <|
    withUserId name fun id =>
      query .db (fun db => (db.hostnames.filter (·.userId == id)).map (·.label)) fun hostnames =>
      tryStmt .db (fun db => .ok (db.deleteHostnames (·.userId == id))) fun _ =>
        if releasePorts then
          query .db (fun db => (db.tcpPorts.filter (·.userId == id)).map (·.port)) fun ports =>
          tryStmt .db (fun db => .ok (db.deletePorts (·.userId == id))) fun _ =>
            commit .db (Op.ok (hostnames, ports))
        else commit .db (Op.ok (hostnames, []))

/-- `owned_hostnames` (`registry.rs:410`), `ORDER BY created_at, id`. -/
def ownedHostnames (domain : String) (userId : Int) : Op (List String) :=
  query .db (fun db => (db.hostnames.filter (·.userId == userId)).insertionSort fun a b =>
      a.createdAt < b.createdAt ∨ a.createdAt = b.createdAt ∧ a.id ≤ b.id)
    fun rows => Op.ok (rows.map fun r => fqdn domain r.label)

/-- `owned_ports` (`registry.rs:424`), `ORDER BY port`. -/
def ownedPorts (userId : Int) : Op (List UInt16) :=
  query .db (fun db => (db.tcpPorts.filter (·.userId == userId)).insertionSort fun a b =>
      a.port ≤ b.port)
    fun rows => Op.ok (rows.map (·.port))

/-- `release_hostname_owned` (`registry.rs:439`). -/
def releaseHostnameOwned (domain : String) (userId : Int) (name : String) : Op Bool :=
  match labelOf domain name with
  | none => Op.ok false
  | some label =>
    tryStmt .db (fun db => .ok (db.deleteHostnames fun r => r.label == label && r.userId == userId))
      fun n => Op.ok (decide (0 < n))

/-- `release_port_owned` (`registry.rs:452`). -/
def releasePortOwned (userId : Int) (port : UInt16) : Op Bool :=
  tryStmt .db (fun db => .ok (db.deletePorts fun r => r.port == port && r.userId == userId))
    fun n => Op.ok (decide (0 < n))

/-- The `INSERT` that ends `claim_label_capped` (`registry.rs:529-543`): a constraint violation is
reported as a taken label. -/
def claimInsert (now : Int) (userId : Int) (label : String) : Op Bool :=
  .stmt (·.insertHostname userId label now) fun
    | .ok _ => commit .db (Op.ok true)
    | .error .constraint => Op.fail (.labelTaken label)
    | .error e => Op.fail (.db e)

/-- `claim_label_capped` (`registry.rs:488`). -/
def claimLabelCapped (now : Int) (userId : Int) (label : String) (max : Option Int) : Op Bool :=
  match validateLabel label with
  | .error e => Op.fail (.invalidLabel label e)
  | .ok () =>
    begin .db <|
      query .db (·.labelOwner label) fun
        | some ownerId => if ownerId = userId then Op.ok false else Op.fail (.labelTaken label)
        | none =>
          match max with
          | some m =>
            query .db (·.countOwned userId) fun owned =>
              if m ≤ owned then Op.fail .capExceeded else claimInsert now userId label
          | none => claimInsert now userId label

/-! ## Pruning to a cap -/

/-- The local `enum Owned` of `over_cap` (`registry.rs:617`). -/
inductive Owned where
  | host (label : String)
  | port (port : UInt16)
deriving DecidableEq

def Owned.label? : Owned → Option String
  | .host l => some l
  | .port _ => none

def Owned.port? : Owned → Option UInt16
  | .host _ => none
  | .port p => some p

/-- One entry of `over_cap`'s pool: `(created_at, key, res)`. -/
structure PoolEntry where
  createdAt : Int
  key : Int
  res : Owned
deriving DecidableEq

/-- Sort order of the pool: `a.0.cmp(&b.0).then(a.1.cmp(&b.1))` is not `Greater`. -/
def PoolEntry.le (a b : PoolEntry) : Prop :=
  a.createdAt < b.createdAt ∨ a.createdAt = b.createdAt ∧ a.key ≤ b.key

instance : DecidableRel PoolEntry.le := fun a b => by unfold PoolEntry.le; infer_instance

/-- `SELECT created_at, id, label FROM hostnames WHERE user_id = ?`. -/
def Db.hostEntries (db : Db) (userId : Int) : List PoolEntry :=
  (db.hostnames.filter (·.userId == userId)).map fun r => ⟨r.createdAt, r.id, .host r.label⟩

/-- `SELECT created_at, port FROM tcp_ports WHERE user_id = ?`. -/
def Db.portEntries (db : Db) (userId : Int) : List PoolEntry :=
  (db.tcpPorts.filter (·.userId == userId)).map fun r => ⟨r.createdAt, r.port.toNat, .port r.port⟩

/-- The pool sorted oldest first (`registry.rs:649`); `sort_by` is stable. -/
def oldestFirst (pool : List PoolEntry) : List PoolEntry := pool.insertionSort PoolEntry.le

/-- The end of `over_cap` (`registry.rs:649-662`): labels and ports past the cap. -/
def newestOverCap (cap : Int) (pool : List PoolEntry) : List String × List UInt16 :=
  let owned := oldestFirst pool
  let cap := (max cap 0).toNat
  if owned.length ≤ cap then ([], [])
  else
    let newest := (owned.drop cap).map (·.res)
    (newest.filterMap Owned.label?, newest.filterMap Owned.port?)

/-- `over_cap(&conn, user_id, cap)?` (`registry.rs:608`). -/
def withOverCap {α : Type} (userId cap : Int) (k : List String → List UInt16 → Op α) : Op α :=
  query .db (·.hostEntries userId) fun hosts =>
  query .db (·.portEntries userId) fun ports =>
    let newest := newestOverCap cap (hosts ++ ports)
    k newest.1 newest.2

/-- `owned_over_cap` (`registry.rs:596`). -/
def ownedOverCap (userId cap : Int) : Op (List String × List UInt16) :=
  withOverCap userId cap fun hosts ports => Op.ok (hosts, ports)

/-- The two delete loops of `prune_owned_to_cap` (`registry.rs:577-588`). -/
def pruneHosts {α : Type} (userId : Int) (labels : List String) (k : Op α) : Op α :=
  labels.foldr (fun label k =>
    tryStmt .db (fun db => .ok (db.deleteHostnames fun r => r.label == label && r.userId == userId))
      fun _ => k) k

def prunePorts {α : Type} (userId : Int) (ports : List UInt16) (k : Op α) : Op α :=
  ports.foldr (fun port k =>
    tryStmt .db (fun db => .ok (db.deletePorts fun r => r.port == port && r.userId == userId))
      fun _ => k) k

/-- `prune_owned_to_cap` (`registry.rs:558`). -/
def pruneOwnedToCap (userId cap : Int) : Op (List String × List UInt16) :=
  withOverCap userId cap fun hosts ports =>
    if hosts = [] ∧ ports = [] then Op.ok (hosts, ports)
    else
      begin .db <| pruneHosts userId hosts <| prunePorts userId ports <|
        commit .db (Op.ok (hosts, ports))

/-! ## The `Authenticator` interface (`registry.rs:803-906`)

The trait methods swallow storage errors: a failed query is `false`, an empty list or
`ClaimOutcome::Error`. -/

structure AuthedUser where
  userId : Int
  name : String
deriving DecidableEq

/-- `ClaimOutcome` (`auth.rs:20`). -/
inductive ClaimOutcome where
  | owned
  | taken
  | invalid (why : String)
  | capExceeded
  | error
deriving DecidableEq

namespace Registry

variable (faults : Faults) (db : Db)

/-- `hash_token` is SHA-256 of the token's bytes. -/
def authenticate (hashToken : String → List UInt8) (token : String) : Option AuthedUser :=
  let hash := hashToken token
  match run faults (query .db (·.tokenHolder hash) Op.ok) db with
  | (.ok (some (id, name, stored)), _) => if stored = hash then some ⟨id, name⟩ else none
  | _ => none

def ownsHostname (domain : String) (userId : Int) (hostname : String) : Bool :=
  match labelOf domain hostname with
  | none => false
  | some label =>
    match run faults (query .db (·.hasLabel userId label) Op.ok) db with
    | (.ok b, _) => b
    | (.error _, _) => false

def ownsPort (userId : Int) (port : UInt16) : Bool :=
  match run faults (query .db (·.hasPort userId port) Op.ok) db with
  | (.ok b, _) => b
  | (.error _, _) => false

def claimHostname (domain : String) (now : Int) (userId : Int) (hostname : String)
    (max : Option Int) : ClaimOutcome × Db :=
  match labelOf domain hostname with
  | none => (.invalid "not a valid hostname under this relay", db)
  | some label =>
    match run faults (claimLabelCapped now userId label max) db with
    | (.ok _, db') => (.owned, db')
    | (.error (.labelTaken _), db') => (.taken, db')
    | (.error .capExceeded, db') => (.capExceeded, db')
    | (.error (.invalidLabel _ why), db') => (.invalid why, db')
    | (.error _, db') => (.error, db')

def ownedHostnames (domain : String) (userId : Int) : List String :=
  match run faults (EtherTunnel.ownedHostnames domain userId) db with
  | (.ok names, _) => names
  | (.error _, _) => []

def ownedPorts (userId : Int) : List UInt16 :=
  match run faults (EtherTunnel.ownedPorts userId) db with
  | (.ok ports, _) => ports
  | (.error _, _) => []

def releaseHostname (domain : String) (userId : Int) (hostname : String) : Bool × Db :=
  match run faults (releaseHostnameOwned domain userId hostname) db with
  | (.ok b, db') => (b, db')
  | (.error _, db') => (false, db')

def releasePort (userId : Int) (port : UInt16) : Bool × Db :=
  match run faults (releasePortOwned userId port) db with
  | (.ok b, db') => (b, db')
  | (.error _, db') => (false, db')

end Registry

end EtherTunnel
