import EtherTunnel.Lib.Map
import EtherTunnel.Polar.Cache
import EtherTunnel.Registry.Ops
import EtherTunnel.Router.Index

/-!
# The license gate

| here | there |
| --- | --- |
| `PolarPolicy`, `PolarGate`, `PolarGate.new` | `polar.rs:83`, `:560-595`; the clamp of `new` is a field of the gate |
| `addI64`, `subI64`, `saturatingSub` | `+`, `-` (release build: wrapping) and `i64::saturating_sub` |
| `ValidateOutcome`, `ActivateOutcome` | `polar.rs:112-135`: what the backend answered |
| `resolveCap`, `capFor` | `polar.rs:761`, `:736` |
| `resolveUser` | `polar.rs:950` |
| `tearDownRoutes`, `reconcileUserCap`, `evictOverCap`, `enforcePooledCap` | `polar.rs:929`, `:881`, `:905`, `:856` |
| `authenticate`, `ensureActivated`, `releaseActivation` | `polar.rs:613`, `:785`, `:827` |

`sha` stands for SHA-256. A call's `…Io` record holds what it meets outside the process: the clock,
the backend's answer, whether the validate budget had a token, and which storage operations fail.
Policy fields that only shape the HTTP request or the budget (`organization_id`,
`max_validate_per_sec`, `validate_burst`) and logging are left out.
-/

namespace EtherTunnel

open Txn

/-! ## Numbers -/

def addI64 (a b : Int) : Int := (a + b).bmod (2 ^ 64)

def subI64 (a b : Int) : Int := (a - b).bmod (2 ^ 64)

def saturatingSub (a b : Int) : Int := max (-2 ^ 63) (min (2 ^ 63 - 1) (a - b))

theorem addI64_eq {a b : Int} (h : -2 ^ 63 ≤ a + b ∧ a + b < 2 ^ 63) : addI64 a b = a + b := by
  unfold addI64
  rw [Int.bmod_eq_of_le] <;> omega

theorem saturatingSub_anti {a b c : Int} (h : b ≤ c) : saturatingSub a c ≤ saturatingSub a b := by
  unfold saturatingSub; omega

theorem saturatingSub_le {a b : Int} (hb : 0 ≤ b) (ha : 0 < a) : saturatingSub a b ≤ a := by
  unfold saturatingSub; omega

/-! ## Policy and gate -/

structure PolarPolicy where
  cacheTtlSecs : Int
  stalenessSecs : Int
  capPruneGraceSecs : Int
  activateOnClaim : Bool
  benefits : Map String Int

/-- The gate. Its policy went through the clamp of `new`, so the prune window contains the claim
window. `domain` is the installed reconciler's, if one is installed. -/
structure PolarGate where
  policy : PolarPolicy
  sha : String → List UInt8
  domain : Option String
  clamped : policy.stalenessSecs ≤ policy.capPruneGraceSecs

def PolarGate.new (policy : PolarPolicy) (sha : String → List UInt8) (domain : Option String) :
    PolarGate :=
  if h : policy.capPruneGraceSecs < policy.stalenessSecs then
    { policy := { policy with capPruneGraceSecs := policy.stalenessSecs }
      sha := sha, domain := domain, clamped := le_refl policy.stalenessSecs }
  else { policy := policy, sha := sha, domain := domain, clamped := not_lt.1 h }

/-- What the reconciler reaches: the registry and the router. -/
structure Live where
  db : Db
  router : Router
deriving DecidableEq

/-! ## Capacity -/

inductive CapDecision where
  | allow
  | cap (max : Int)
  | denyAll
deriving DecidableEq

/-- `resolve_cap`; `none` is a failed cache read. -/
def resolveCap (resolved : Option CustomerCap) : CapDecision :=
  match resolved with
  | none => .denyAll
  | some r =>
    if r.rows = 0 then .allow
    else
      match r.maxTunnels with
      | some m => .cap m
      | none => .denyAll

/-- The pooled cap of a customer over the keys validated in the last `window` seconds. -/
def pooledOver (cache : LicenseCache) (customerId : String) (now window : Int) (fails : Bool) :
    CapDecision :=
  resolveCap (if fails then none else
    some (cache.capForCustomer customerId (saturatingSub now window) now))

def PolarGate.capFor (gate : PolarGate) (cache : LicenseCache) (userName : String) (now : Int)
    (fails : Bool) : CapDecision :=
  if now = 0 then .denyAll else pooledOver cache userName now gate.policy.stalenessSecs fails

/-! ## Enforcing the pooled cap -/

/-- `{resource:?}`; names here are host names, which `Debug` does not escape. -/
def Resource.debug : Resource → String
  | .host name => "Host(\"" ++ name ++ "\")"
  | .port p => "Port(" ++ toString p ++ ")"

/-- Frames queued for sessions. -/
abbrev Notices := List (SessionHandle × ControlFrame)

def tearDownRoutes (domain : String) (router : Router) (labels : List String) (ports : List UInt16) :
    Router × Notices :=
  let fqdns := labels.map (fqdn domain)
  (router.evictRoutes fqdns ports,
    (router.evicted fqdns ports).map fun (handle, resource) =>
      (handle, .denied .limitExceeded
        ("tunnel " ++ resource.debug ++ " stopped: plan change reduced your limit")))

/-- `reconcile_user_cap`: prune the registry, then the routes of what was pruned. -/
def reconcileUserCap (domain : String) (faults : Faults) (live : Live) (userId cap : Int) :
    Live × Notices :=
  match run faults (pruneOwnedToCap userId cap) live.db with
  | (.error _, db) => ({ live with db := db }, [])
  | (.ok (labels, ports), db) =>
    if labels = [] ∧ ports = [] then ({ live with db := db }, [])
    else
      let (router, notices) := tearDownRoutes domain live.router labels ports
      (⟨db, router⟩, notices)

/-- `evict_over_cap`: stop the routes past the cap, keep the reservations. -/
def evictOverCap (domain : String) (faults : Faults) (live : Live) (userId cap : Int) :
    Live × Notices :=
  match run faults (ownedOverCap userId cap) live.db with
  | (.error _, db) => ({ live with db := db }, [])
  | (.ok (labels, ports), db) =>
    if labels = [] ∧ ports = [] then ({ live with db := db }, [])
    else
      let (router, notices) := tearDownRoutes domain live.router labels ports
      (⟨db, router⟩, notices)

/-- The storage failures `enforce_pooled_cap` may meet. -/
structure EnforceIo where
  graceFails : Bool := false
  prune : Faults := []
  liveFails : Bool := false
  evict : Faults := []

def PolarGate.enforcePooledCap (gate : PolarGate) (io : EnforceIo) (cache : LicenseCache)
    (domain : String) (live : Live) (user : AuthedUser) (cap now : Int) : Live × Notices :=
  let (live, pruned) :=
    match pooledOver cache user.name now gate.policy.capPruneGraceSecs io.graceFails with
    | .cap pooled => reconcileUserCap domain io.prune live user.userId (max pooled cap)
    | _ => (live, [])
  let (live, evicted) :=
    match pooledOver cache user.name now gate.policy.stalenessSecs io.liveFails with
    | .cap liveCap => evictOverCap domain io.evict live user.userId (max liveCap cap)
    | _ => (live, [])
  (live, pruned ++ evicted)

/-! ## Accounts -/

structure ResolveIo where
  now : Int := 0
  lookup : Faults := []
  add : Faults := []
  again : Faults := []

/-- `resolve_user`: an empty id is a negative-cache placeholder and resolves to nobody. -/
def resolveUser (io : ResolveIo) (db : Db) (customerId : String) : Option AuthedUser × Db :=
  if customerId = "" then (none, db)
  else
    match run io.lookup (lookupUserId customerId) db with
    | (.ok (some userId), db) => (some ⟨userId, customerId⟩, db)
    | (.error _, db) => (none, db)
    | (.ok none, db) =>
      match run io.add (addUser io.now customerId) db with
      | (.ok userId, db) => (some ⟨userId, customerId⟩, db)
      | (.error (.userExists _), db) =>
        match run io.again (lookupUserId customerId) db with
        | (.ok (some userId), db) => (some ⟨userId, customerId⟩, db)
        | (_, db) => (none, db)
      | (.error _, db) => (none, db)

/-- The name of the user that `resolve_user` answers is the customer's id. -/
theorem resolveUser_name {io : ResolveIo} {db : Db} {customerId : String} {user : AuthedUser}
    (h : (resolveUser io db customerId).1 = some user) :
    user.name = customerId ∧ customerId ≠ "" := by
  unfold resolveUser at h
  split at h
  · cases h
  · rename_i hne
    refine ⟨?_, hne⟩
    split at h
    · cases h; rfl
    · cases h
    · split at h
      · cases h; rfl
      · split at h
        · cases h; rfl
        · cases h
      · cases h

/-! ## Authentication -/

inductive ValidateOutcome where
  | granted (customerId benefitId : String)
  | notLicensed
  | unavailable (why : String)
deriving DecidableEq

/-- `key.starts_with("etun_")`: a local token, never a Polar credential. -/
def isLocalToken (key : String) : Bool := "etun_".toList.isPrefixOf key.toList

/-- `row.status == "granted" && row.max_tunnels.is_some()`. -/
def LicenseRow.usable (row : LicenseRow) : Bool := row.status == .granted && row.maxTunnels.isSome

/-- The cached result is fresh: no network round-trip, positive or negative. -/
def PolarPolicy.fresh (policy : PolarPolicy) (now : Int) (row : LicenseRow) : Bool :=
  decide (row.validatedAt ≤ now) && decide (now ≤ addI64 row.validatedAt policy.cacheTtlSecs)

/-- The cached grant is honored while Polar is unreachable. -/
def PolarPolicy.honored (policy : PolarPolicy) (now : Int) (row : LicenseRow) : Bool :=
  row.usable && decide (row.validatedAt ≤ now) &&
    decide (now ≤ addI64 row.validatedAt policy.stalenessSecs)

/-- The row a `Granted` answer stores. -/
def PolarPolicy.grantedRow (policy : PolarPolicy) (keyHash : List UInt8) (now : Int)
    (customerId benefitId : String) : LicenseRow where
  keyHash := keyHash
  customerId := customerId
  benefitId := benefitId
  maxTunnels := policy.benefits.lookup benefitId
  status := .granted
  activationId := none
  validatedAt := now

/-- The row a `NotLicensed` answer stores: the one read before the wait, or a placeholder. -/
def deniedRow (keyHash : List UInt8) (now : Int) (cached : Option LicenseRow) : LicenseRow :=
  let row := cached.getD
    { keyHash := keyHash, customerId := "", benefitId := "", maxTunnels := none,
      status := .notLicensed, activationId := none, validatedAt := now }
  { row with status := .notLicensed, validatedAt := now }

structure AuthIo where
  now : Int
  readFails : Bool := false
  budget : Bool := true
  answer : ValidateOutcome
  sweepFails : Bool := false
  upsertFails : Bool := false
  resolve : ResolveIo := {}
  enforce : EnforceIo := {}

/-- What a call concludes from: the backend's answer, or the exhausted budget. -/
def AuthIo.outcome (io : AuthIo) : ValidateOutcome :=
  if io.budget then io.answer else .unavailable "relay validate budget exhausted"

structure AuthResult where
  user : Option AuthedUser
  /-- The key was sent to the backend. -/
  asked : Bool
  cache : LicenseCache
  live : Live
  notices : Notices := []

namespace PolarGate

variable (gate : PolarGate)

/-- The `Granted` branch (`polar.rs:649-678`). -/
def onGranted (io : AuthIo) (cache : LicenseCache) (live : Live) (domain : String)
    (keyHash : List UInt8) (customerId benefitId : String) : AuthResult :=
  if io.upsertFails then ⟨none, io.budget, cache, live, []⟩
  else
    let row := gate.policy.grantedRow keyHash io.now customerId benefitId
    let cache := cache.upsert row
    match row.maxTunnels with
    | none => ⟨none, io.budget, cache, live, []⟩
    | some cap =>
      match resolveUser io.resolve live.db customerId with
      | (none, db) => ⟨none, io.budget, cache, { live with db := db }, []⟩
      | (some user, db) =>
        let (live, notices) :=
          gate.enforcePooledCap io.enforce cache domain { live with db := db } user cap io.now
        ⟨some user, io.budget, cache, live, notices⟩

/-- The `NotLicensed` branch (`polar.rs:679-704`). -/
def onNotLicensed (io : AuthIo) (cache : LicenseCache) (live : Live) (keyHash : List UInt8)
    (cached : Option LicenseRow) : AuthResult :=
  let cache :=
    if cached.isNone ∧ io.sweepFails = false then
      cache.sweepNegative (subI64 io.now gate.policy.cacheTtlSecs)
    else cache
  let cache := if io.upsertFails then cache else cache.upsert (deniedRow keyHash io.now cached)
  ⟨none, io.budget, cache, live, []⟩

/-- Answer from a cached row: its customer's account. -/
def fromCache (io : AuthIo) (cache : LicenseCache) (live : Live) (asked : Bool) (row : LicenseRow) :
    AuthResult :=
  let (user, db) := resolveUser io.resolve live.db row.customerId
  ⟨user, asked, cache, { live with db := db }, []⟩

def authenticate (io : AuthIo) (cache : LicenseCache) (live : Live) (key : String) : AuthResult :=
  if isLocalToken key then ⟨none, false, cache, live, []⟩
  else
    match gate.domain with
    | none => ⟨none, false, cache, live, []⟩
    | some domain =>
      let keyHash := gate.sha key
      if io.now = 0 then ⟨none, false, cache, live, []⟩
      else
        let cached := if io.readFails then none else cache.get keyHash
        match cached.filter (gate.policy.fresh io.now) with
        | some row =>
          if row.usable then fromCache io cache live false row else ⟨none, false, cache, live, []⟩
        | none =>
          match io.outcome with
          | .granted customerId benefitId =>
            gate.onGranted io cache live domain keyHash customerId benefitId
          | .notLicensed => gate.onNotLicensed io cache live keyHash cached
          | .unavailable _ =>
            match cached.filter (gate.policy.honored io.now) with
            | some row => fromCache io cache live io.budget row
            | none => ⟨none, io.budget, cache, live, []⟩

end PolarGate

/-! ## Activation -/

inductive ActivateOutcome where
  | activated (activationId : String)
  | limitReached
  | unavailable (why : String)
deriving DecidableEq

structure ActivateIo where
  readFails : Bool := false
  answer : ActivateOutcome
  writeFails : Bool := false

/-- The row `ensure_activated` goes on with: a granted one. -/
def grantedOnly (row : LicenseRow) : Bool := row.status == .granted

def PolarGate.ensureActivated (gate : PolarGate) (io : ActivateIo) (cache : LicenseCache)
    (key : String) : Except String Unit × LicenseCache :=
  if gate.policy.activateOnClaim = false then (.ok (), cache)
  else
    let keyHash := gate.sha key
    match (if io.readFails then none else cache.get keyHash).filter grantedOnly with
    | none => (.ok (), cache)
    | some row =>
      if row.activationId.isSome then (.ok (), cache)
      else
        match io.answer with
        | .activated activationId =>
          (.ok (), if io.writeFails then cache else cache.setActivation keyHash (some activationId))
        | .limitReached =>
          (.error "license activation limit reached (key already active on another device/relay)",
            cache)
        | .unavailable _ => (.ok (), cache)

structure DeactivateIo where
  readFails : Bool := false
  answer : Except String Unit
  writeFails : Bool := false

def PolarGate.releaseActivation (gate : PolarGate) (io : DeactivateIo) (cache : LicenseCache)
    (key : String) : LicenseCache :=
  let keyHash := gate.sha key
  match if io.readFails then none else cache.get keyHash with
  | none => cache
  | some row =>
    match row.activationId with
    | none => cache
    | some _ =>
      match io.answer with
      | .ok () => if io.writeFails then cache else cache.setActivation keyHash none
      | .error _ => cache

/-! ## A gate for examples -/

/-- A policy whose `solo` benefit buys two tunnels. -/
def soloPolicy : PolarPolicy where
  cacheTtlSecs := 60
  stalenessSecs := 100
  capPruneGraceSecs := 50
  activateOnClaim := true
  benefits := Finmap.insert "solo" 2 ∅

def soloGate : PolarGate := PolarGate.new soloPolicy bytes (some "d.io")

theorem soloGate_sha : Function.Injective soloGate.sha := bytes_injective

end EtherTunnel
