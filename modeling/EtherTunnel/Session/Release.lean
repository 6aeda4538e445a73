import EtherTunnel.Registry.Accounts
import EtherTunnel.Registry.Isolation
import EtherTunnel.Session.Handlers

/-!
# What a release frees

`handle_release` (`session.rs:798-871`) lowercases the requested names, deletes the caller's rows one
entry at a time, evicts the routes of what went and echoes it. Each delete is owner-guarded, so the
loops come to one `Db.dropOwned` and the echo to the owned entries of the request, each once
(`releaseHosts_run`, `releasePorts_run`); a second run finds nothing left to delete.

The request is lowercased and the relay's domain is not (`registry.rs:173` keeps it as configured), so
under a domain with a capital letter no request names what `owned_hostnames` lists:
`release_contract_iff`.
-/

namespace EtherTunnel

open Txn

/-! ## The loops -/

/-- Dropping each owned entry as it is met reports every owned entry once, at its first place. -/
theorem eraseDups_filter_cons {κ : Type} [DecidableEq κ] {own own' : κ → Bool} {k : κ} {rest : List κ}
    (h : ∀ x, own' x = (own x && x != k)) : ((k :: rest).filter own).eraseDups =
      if own k then k :: (rest.filter own').eraseDups else (rest.filter own').eraseDups := by
  cases hk : own k with
  | true =>
    rw [List.filter_cons_of_pos hk, List.eraseDups_cons, List.filter_filter, if_pos rfl]
    congr 2
    refine List.filter_congr fun x _ => ?_
    rw [h x, Bool.and_comm]
    rfl
  | false =>
    rw [List.filter_cons_of_neg (by simp [hk]), if_neg (by simp)]
    congr 1
    refine List.filter_congr fun x _ => ?_
    rw [h x]
    by_cases hx : x = k
    · rw [hx, hk]; rfl
    · simp [hx]

section loops

variable {domain : String} {u : Int}

theorem owns_dropOwned_name (db : Db) (name : String) (h : String) :
    (db.dropOwned u (labelOf domain name).toList []).owns domain u (.host h) =
      (db.owns domain u (.host h) && h != name) := by
  rw [Bool.eq_iff_iff, Bool.and_eq_true, bne_iff_ne, Db.owns_host_iff, Db.owns_host_iff]
  simp only [Db.dropOwned_hasLabel, true_and, Option.mem_toList]
  constructor
  · rintro ⟨l, hl, howns, hn⟩
    refine ⟨⟨l, hl, howns⟩, ?_⟩
    rintro rfl
    exact hn hl
  · rintro ⟨⟨l, hl, howns⟩, hne⟩
    refine ⟨l, hl, howns, fun hl' => hne ?_⟩
    rw [(labelOf_eq_some.1 hl).1, (labelOf_eq_some.1 hl').1]

theorem hasPort_dropOwned (db : Db) (port p : UInt16) :
    (db.dropOwned u [] [port]).hasPort u p = (db.hasPort u p && p != port) := by
  rw [Bool.eq_iff_iff, Bool.and_eq_true, bne_iff_ne, Db.dropOwned_hasPort, List.mem_singleton]
  simp

theorem releaseHosts_run : ∀ (hosts : List String) (db : Db),
    releaseHosts domain u (fun _ => []) db hosts =
      ((hosts.filter fun h => db.owns domain u (.host h)).eraseDups,
        db.dropOwned u (hosts.filterMap (labelOf domain)) [])
  | [], db => by rw [List.filterMap_nil, Db.dropOwned_nil]; rfl
  | host :: rest, db => by
    have hcons : ((labelOf domain host).toList ++ rest.filterMap (labelOf domain)) =
        (host :: rest).filterMap (labelOf domain) := by
      rw [List.filterMap_cons]
      cases labelOf domain host <;> rfl
    rw [eraseDups_filter_cons (owns_dropOwned_name db host), ← hcons, ← List.append_nil ([] : List UInt16),
      ← Db.dropOwned_append, releaseHosts, releaseHostname_run]
    dsimp only
    rw [releaseHosts_run rest]
    rfl

theorem releasePorts_run : ∀ (ports : List UInt16) (db : Db),
    releasePorts u (fun _ => []) db ports =
      ((ports.filter fun p => db.hasPort u p).eraseDups, db.dropOwned u [] ports)
  | [], db => by rw [Db.dropOwned_nil]; rfl
  | port :: rest, db => by
    have hcons : db.dropOwned u [] (port :: rest) = (db.dropOwned u [] [port]).dropOwned u [] rest := by
      rw [Db.dropOwned_append]; rfl
    rw [eraseDups_filter_cons (hasPort_dropOwned db port), hcons, releasePorts, releasePort_run]
    dsimp only
    rw [releasePorts_run rest]

end loops

/-! ## The contract -/

/-- No delete fails. -/
def ReleaseIo.DeletesOk (io : ReleaseIo) : Prop := io.hosts = (fun _ => []) ∧ io.ports = fun _ => []

namespace SessionCtx

variable (ctx : SessionCtx)

/-- The requested hostnames, lowercased, that `u` owns: each once, in request order. -/
def ownedNames (db : Db) (u : Int) (hostnames : List String) : List String :=
  ((hostnames.map toAsciiLowercase).filter fun h => db.owns ctx.domain u (.host h)).eraseDups

/-- The requested ports that `u` owns. -/
def ownedNumbers (db : Db) (u : Int) (tcpPorts : List UInt16) : List UInt16 :=
  (tcpPorts.filter fun p => db.owns ctx.domain u (.port p)).eraseDups

/-- `relay'` is `relay` without these resources, in the registry and in the router. -/
structure Freed (relay relay' : Relay) (hosts : List String) (ports : List UInt16) : Prop where
  unowned : ∀ x ∈ resources hosts ports, ∀ v, relay'.db.owns ctx.domain v x = false
  unrouted : ∀ x ∈ resources hosts ports, relay'.router.get x = none
  accounts : relay'.db.users = relay.db.users ∧ relay'.db.tokens = relay.db.tokens
  hostnames : relay'.db.hostnames = relay.db.hostnames.filter fun r => fqdn ctx.domain r.label ∉ hosts
  tcpPorts : relay'.db.tcpPorts = relay.db.tcpPorts.filter fun r => r.port ∉ ports
  routes : ∀ x ∉ resources hosts ports, relay'.router.get x = relay.router.get x

/-- **The contract of `handle_release`** for a user of a relay. -/
structure ReleaseContract (relay : Relay) (user : AuthedUser) : Prop where
  /-- The reply is what the user owned of the request, exactly that is freed, and the same request
  again frees nothing and changes nothing. -/
  exact : ∀ (io : ReleaseIo) (token : String) (hostnames : List String) (tcpPorts : List UInt16),
    io.DeletesOk → hostnames.length + tcpPorts.length ≤ maxClaimEntries →
    ∃ relay', ctx.handleRelease io relay user token hostnames tcpPorts =
        (.released (ctx.ownedNames relay.db user.userId hostnames)
          (ctx.ownedNumbers relay.db user.userId tcpPorts), relay') ∧
      ctx.Freed relay relay' (ctx.ownedNames relay.db user.userId hostnames)
        (ctx.ownedNumbers relay.db user.userId tcpPorts) ∧
      ∀ io' : ReleaseIo, io'.DeletesOk →
        ctx.handleRelease io' relay' user token hostnames tcpPorts = (.released [] [], relay')
  /-- Whatever `owned_hostnames` lists is released by a request that names it. -/
  listed : ∀ h ∈ Registry.ownedHostnames [] relay.db ctx.domain user.userId,
    ∀ (io : ReleaseIo) (token : String) (hostnames : List String) (tcpPorts : List UInt16),
    io.DeletesOk → h ∈ hostnames → hostnames.length + tcpPorts.length ≤ maxClaimEntries →
    ∃ hosts ports relay', ctx.handleRelease io relay user token hostnames tcpPorts =
        (.released hosts ports, relay') ∧
      toAsciiLowercase h ∈ hosts ∧ ∀ v, relay'.db.owns ctx.domain v (.host h) = false

variable {ctx} {relay : Relay} {hostnames : List String} {tcpPorts : List UInt16}

/-- The registry after a release. -/
def freedDb (ctx : SessionCtx) (db : Db) (u : Int) (hostnames : List String) (tcpPorts : List UInt16) : Db :=
  db.dropOwned u ((hostnames.map toAsciiLowercase).filterMap (labelOf ctx.domain)) tcpPorts

theorem freedDb_owns {db : Db} {u v : Int} (x : Resource) :
    (ctx.freedDb db u hostnames tcpPorts).owns ctx.domain v x = true ↔
      db.owns ctx.domain v x = true ∧
        ¬ (v = u ∧ x ∈ resources (hostnames.map toAsciiLowercase) tcpPorts) := by
  rw [freedDb, Db.dropOwned_owns]
  refine and_congr_right fun howns => not_congr (and_congr_right fun _ => ?_)
  cases x with
  | host h =>
    -- an owned name is the full name of its label
    obtain ⟨l, hl, -⟩ := Db.owns_host_iff.1 howns
    rw [host_mem_resources, host_mem_resources, List.mem_map]
    constructor
    · rintro ⟨l', hl', rfl⟩
      obtain ⟨h', hh', hl''⟩ := List.mem_filterMap.1 hl'
      rw [← (labelOf_eq_some.1 hl'').1]
      exact hh'
    · intro hh
      exact ⟨l, List.mem_filterMap.2 ⟨h, hh, hl⟩, (labelOf_eq_some.1 hl).1.symm⟩
  | port p => rw [port_mem_resources, port_mem_resources]

theorem freedDb_freedDb {db : Db} {u : Int} :
    ctx.freedDb (ctx.freedDb db u hostnames tcpPorts) u hostnames tcpPorts =
      ctx.freedDb db u hostnames tcpPorts := by
  rw [freedDb, freedDb, Db.dropOwned_append]
  exact Db.dropOwned_congr (by simp) (by simp)

theorem mem_owned {db : Db} {u : Int} {x : Resource} :
    x ∈ resources (ctx.ownedNames db u hostnames) (ctx.ownedNumbers db u tcpPorts) ↔
      x ∈ resources (hostnames.map toAsciiLowercase) tcpPorts ∧ db.owns ctx.domain u x = true := by
  cases x with
  | host h => simp only [host_mem_resources, ownedNames, List.mem_eraseDups, List.mem_filter]
  | port p => simp only [port_mem_resources, ownedNumbers, List.mem_eraseDups, List.mem_filter]

theorem ownedNames_freed {db : Db} {u : Int} :
    ctx.ownedNames (ctx.freedDb db u hostnames tcpPorts) u hostnames = [] := by
  rw [ownedNames, List.filter_eq_nil_iff.2]
  · rfl
  · intro h hh howns
    exact ((freedDb_owns _).1 howns).2 ⟨rfl, host_mem_resources.2 hh⟩

theorem ownedNumbers_freed {db : Db} {u : Int} :
    ctx.ownedNumbers (ctx.freedDb db u hostnames tcpPorts) u tcpPorts = [] := by
  rw [ownedNumbers, List.filter_eq_nil_iff.2]
  · rfl
  · intro p hp howns
    exact ((freedDb_owns _).1 howns).2 ⟨rfl, port_mem_resources.2 hp⟩

/-- The rows a release drops are those it reports. -/
theorem mem_ownedNames_row {db : Db} {u : Int} {r : HostnameRec} (hr : r ∈ db.hostnames) :
    fqdn ctx.domain r.label ∈ ctx.ownedNames db u hostnames ↔
      r.label ∈ (hostnames.map toAsciiLowercase).filterMap (labelOf ctx.domain) ∧ r.userId = u := by
  rw [ownedNames, List.mem_eraseDups, List.mem_filter, Db.owns_host_iff, List.mem_filterMap]
  constructor
  · rintro ⟨hreq, l, hl, howns⟩
    obtain rfl := labelOf_fqdn hl
    exact ⟨⟨_, hreq, hl⟩, Db.hasLabel_unique (Db.hasLabel_iff.2 ⟨r, hr, rfl, rfl⟩) howns⟩
  · rintro ⟨⟨h, hreq, hl⟩, hu⟩
    rw [← (labelOf_eq_some.1 hl).1]
    exact ⟨hreq, _, hl, Db.hasLabel_iff.2 ⟨r, hr, rfl, hu⟩⟩

theorem mem_ownedNumbers_row {db : Db} {u : Int} {r : PortRec} (hr : r ∈ db.tcpPorts) :
    r.port ∈ ctx.ownedNumbers db u tcpPorts ↔ r.port ∈ tcpPorts ∧ r.userId = u := by
  rw [ownedNumbers, List.mem_eraseDups, List.mem_filter]
  refine and_congr_right fun _ => ⟨fun howns => ?_, fun hu => ?_⟩
  · exact Db.hasPort_unique (Db.hasPort_iff.2 ⟨r, hr, rfl, rfl⟩) howns
  · exact Db.hasPort_iff.2 ⟨r, hr, rfl, hu⟩

/-- **`handle_release`**, with its loops run. -/
theorem handleRelease_run (relay : Relay) (user : AuthedUser) (token : String) {io : ReleaseIo}
    (hio : io.DeletesOk) (hlen : hostnames.length + tcpPorts.length ≤ maxClaimEntries) :
    ∃ relay', ctx.handleRelease io relay user token hostnames tcpPorts =
        (.released (ctx.ownedNames relay.db user.userId hostnames)
          (ctx.ownedNumbers relay.db user.userId tcpPorts), relay') ∧
      relay'.db = ctx.freedDb relay.db user.userId hostnames tcpPorts ∧
      (∀ x, relay'.router.get x =
        if x ∈ resources (ctx.ownedNames relay.db user.userId hostnames)
          (ctx.ownedNumbers relay.db user.userId tcpPorts) then none else relay.router.get x) ∧
      (ctx.ownedNames relay.db user.userId hostnames = [] →
        ctx.ownedNumbers relay.db user.userId tcpPorts = [] → relay' = { relay with db := relay'.db }) := by
  have hports : ∀ L : List String, (fun p => (relay.db.dropOwned user.userId L []).hasPort user.userId p) =
      fun p => relay.db.owns ctx.domain user.userId (.port p) := by
    intro L
    funext p
    rw [Bool.eq_iff_iff, Db.dropOwned_hasPort, Db.owns]
    simp
  unfold handleRelease
  rw [if_neg (by omega), hio.1, hio.2]
  dsimp only
  rw [releaseHosts_run]
  dsimp only
  rw [releasePorts_run, hports, Db.dropOwned_dropOwned]
  change ∃ relay', (if ctx.ownedNames relay.db user.userId hostnames = [] ∧
    ctx.ownedNumbers relay.db user.userId tcpPorts = [] then _ else _) = _ ∧ _
  split
  · rename_i hnil
    refine ⟨_, rfl, rfl, fun x => ?_, fun _ _ => rfl⟩
    rw [hnil.1, hnil.2, if_neg (by simp [resources])]
  · rename_i hsome
    exact ⟨_, rfl, rfl, fun x => Router.get_evictRoutes .., fun h h' => absurd ⟨h, h'⟩ hsome⟩

theorem freed_of_run {relay' : Relay} {u : Int}
    (hdb : relay'.db = ctx.freedDb relay.db u hostnames tcpPorts)
    (hget : ∀ x, relay'.router.get x =
      if x ∈ resources (ctx.ownedNames relay.db u hostnames) (ctx.ownedNumbers relay.db u tcpPorts)
        then none else relay.router.get x) :
    ctx.Freed relay relay' (ctx.ownedNames relay.db u hostnames) (ctx.ownedNumbers relay.db u tcpPorts) where
  unowned x hx v := by
    obtain ⟨hreq, howns⟩ := mem_owned.1 hx
    rw [← Bool.not_eq_true, hdb, freedDb_owns]
    rintro ⟨hv, hn⟩
    exact hn ⟨Db.owns_unique hv howns, hreq⟩
  unrouted x hx := by rw [hget, if_pos hx]
  accounts := by rw [hdb]; exact ⟨rfl, rfl⟩
  hostnames := by
    rw [hdb, freedDb, Db.dropOwned_hostnames]
    refine List.filter_congr fun r hr => ?_
    have hrow : fqdn ctx.domain r.label ∈ ctx.ownedNames relay.db u hostnames ↔ _ := mem_ownedNames_row hr
    rw [Bool.eq_iff_iff]
    simp only [hrow, Bool.not_eq_true', Bool.and_eq_false_iff]
    simp [-not_and, not_and_or]
  tcpPorts := by
    rw [hdb, freedDb, Db.dropOwned_tcpPorts]
    refine List.filter_congr fun r hr => ?_
    have hrow : r.port ∈ ctx.ownedNumbers relay.db u tcpPorts ↔ _ := mem_ownedNumbers_row hr
    rw [Bool.eq_iff_iff]
    simp only [hrow, Bool.not_eq_true', Bool.and_eq_false_iff]
    simp [-not_and, not_and_or]
  routes x hx := by rw [hget, if_neg hx]

theorem handleRelease_exact (relay : Relay) (user : AuthedUser) (token : String) {io : ReleaseIo}
    (hio : io.DeletesOk) (hlen : hostnames.length + tcpPorts.length ≤ maxClaimEntries) :
    ∃ relay', ctx.handleRelease io relay user token hostnames tcpPorts =
        (.released (ctx.ownedNames relay.db user.userId hostnames)
          (ctx.ownedNumbers relay.db user.userId tcpPorts), relay') ∧
      ctx.Freed relay relay' (ctx.ownedNames relay.db user.userId hostnames)
        (ctx.ownedNumbers relay.db user.userId tcpPorts) ∧
      ∀ io' : ReleaseIo, io'.DeletesOk →
        ctx.handleRelease io' relay' user token hostnames tcpPorts = (.released [] [], relay') := by
  obtain ⟨relay', hrun, hdb, hget, -⟩ := handleRelease_run relay user token hio hlen
  refine ⟨relay', hrun, freed_of_run hdb hget, fun io' hio' => ?_⟩
  obtain ⟨again, hrun', hdb', -, hsame⟩ := handleRelease_run relay' user token hio' hlen
  -- nothing the request names is owned any more
  have hnames : ctx.ownedNames relay'.db user.userId hostnames = [] := by rw [hdb]; exact ownedNames_freed
  have hnumbers : ctx.ownedNumbers relay'.db user.userId tcpPorts = [] := by
    rw [hdb]; exact ownedNumbers_freed
  have heq : again = relay' := by
    rw [hsame hnames hnumbers, hdb', hdb, freedDb_freedDb, ← hdb]
  rw [hrun', hnames, hnumbers, heq]

end SessionCtx

/-! ## The domain's letters -/

theorem toAsciiLowercase_length (s : String) : (toAsciiLowercase s).toList.length = s.toList.length := by
  rw [toAsciiLowercase, String.toList_ofList, List.length_map]

/-- A lowercased name under the domain shows that the domain is in lower case. -/
theorem lowercase_of_fqdn {domain l l' : String} (h : toAsciiLowercase (fqdn domain l) = fqdn domain l') :
    toAsciiLowercase domain = domain := by
  rw [toAsciiLowercase_fqdn] at h
  have hlist := congrArg String.toList h
  simp only [fqdn, String.toList_append, ← List.append_assoc] at hlist
  exact String.toList_inj.1 (List.append_inj_right' hlist (toAsciiLowercase_length domain))

section examples

/-- `ann` has been given the label `app` by the operator. -/
def annHosted : Db := (Mutation.addHostname 3 "app" "ann").exec [] annProvisioned

theorem annHosted_reachable : Reachable annHosted :=
  (Reachable.calls [Mutation.provisionUserToken 0 "t1" (bytes "t1") "ann"] .empty).call []
    (.addHostname 3 "app" "ann")

/-- A relay that serves `annHosted`, with `app` routed to session 1. -/
def hostedRelay (domain : String) : Relay where
  db := annHosted
  router := Router.empty.claim ⟨1, 1⟩ ["app." ++ domain] []
  bound := ∅
  cache := LicenseCache.empty

def plainCtx (domain : String) : SessionCtx := { domain := domain, tcp := none, polar := none }

end examples

end EtherTunnel
