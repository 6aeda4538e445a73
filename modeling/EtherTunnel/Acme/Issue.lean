import EtherTunnel.Acme
import Mathlib.Data.List.Infix

/-!
# Issuing a certificate

DNS-01: the relay proves that it controls the domain with TXT records in its zone.

| here | there |
| --- | --- |
| `ApiReply.check`, `Cloudflare.createTxt`, `deleteRecord` | `api`, `create_txt`, `delete_record` (`dns_cloudflare.rs:60-114`) |
| `Cloudflare.txtVisible` | `txt_visible` (`dns_cloudflare.rs:138-158`), from the `data` texts of the answers |
| `Provision.looking`, `pausing` | the loop of `wait_propagated` (`dns_cloudflare.rs:119-135`) |
| the phases up to `ordering` | `account` (`acme.rs:216-252`) |
| `Issuing.collect` | pass 1 of `issue` (`acme.rs:268-287`) |
| `Issuing.provision` | `provision_and_finalize` (`acme.rs:306-346`) |
| `IssuePhase.cleaning` | the end of `issue` (`acme.rs:295-301`) |

`Issuer` has what outlives an issuance: the zone at Cloudflare and the account on disk, over any number of
them and of deaths of the process. What the certificate authority, Cloudflare and the resolver answer is in
the events. A record that Cloudflare made may be one that the relay was never told of, since the response
can be lost; what Cloudflare does acknowledge is true. `Issuing.first`, `seen` and `told`, and `Issuer.acked`
and `attempted`, are carried along. Times are in seconds.
-/

namespace EtherTunnel

/-! ## Cloudflare and the resolver -/

structure ApiReply where
  status : UInt16
  statusText : String
  success : Option Bool
  errors : String
  /-- `result.id`, when it is a text. -/
  id : Option String
deriving DecidableEq

def ApiReply.ok (r : ApiReply) : Bool :=
  decide (200 ≤ r.status) && decide (r.status < 300) && decide (r.success ≠ some false)

def ApiReply.check (r : ApiReply) : Except String ApiReply :=
  if r.ok then .ok r else .error ("cloudflare API " ++ r.statusText ++ ": " ++ r.errors)

def Cloudflare.createTxt (reply : Except String ApiReply) : Except String String :=
  match reply.bind ApiReply.check with
  | .ok r => r.id.elim (.error "cloudflare response missing record id") .ok
  | .error e => .error e

def Cloudflare.deleteRecord (reply : Except String ApiReply) : Except String Unit :=
  (reply.bind ApiReply.check).map fun _ => ()

def trimMatches (c : Char) (s : String) : String :=
  String.ofList ((s.toList.dropWhile (· = c)).reverse.dropWhile (· = c)).reverse

/-- The `Answer` array of a lookup, if there is one: of each answer, its `data` if that is a text. -/
abbrev DohReply := Except String (Option (List (Option String)))

def Cloudflare.txtVisible (reply : DohReply) (expected : String) : Bool :=
  match reply with
  | .ok (some answers) => answers.any fun data => data.elim false fun d => trimMatches '"' d = expected
  | .ok none | .error _ => false

/-! ## The certificate authority -/

inductive AuthorizationStatus where
  | pending | valid | invalid | revoked | expired | deactivated
deriving DecidableEq

inductive OrderStatus where
  | pending | ready | processing | valid | invalid
deriving DecidableEq

def OrderStatus.debug : OrderStatus → String
  | .pending => "Pending"
  | .ready => "Ready"
  | .processing => "Processing"
  | .valid => "Valid"
  | .invalid => "Invalid"

inductive Identifier where
  | dns (name : String)
  | other (debug : String)
deriving DecidableEq

structure Authz where
  status : AuthorizationStatus
  identifier : Identifier
  /-- The `dns_value` of its DNS-01 challenge, if it has one. -/
  dns01 : Option String
deriving DecidableEq

structure AcmeAccount where
  /-- The directory that registered it. -/
  registered : String
  id : Nat
deriving DecidableEq

structure CachedAccount where
  directory : String
  credentials : AcmeAccount
deriving DecidableEq

/-! ## The manager -/

structure AcmeConfig where
  directoryUrl : String
deriving DecidableEq

structure TxtRecord where
  id : String
  name : String
deriving DecidableEq

/-- Where `provision_and_finalize` is. -/
inductive Provision where
  | creating (left : List (String × String))
  | propagating (left : List (String × String))
  | looking (name value : String) (left : List (String × String)) (deadline : Nat)
  | pausing (name value : String) (left : List (String × String)) (deadline : Nat)
  | readying (left : Nat)
  | answering (authz : Authz) (left : Nat)
  | polling
  | finalizing
  | downloading
deriving DecidableEq

abbrev IssueResult := Except String IssuedPair

inductive IssuePhase where
  | loading
  | reusing (account : AcmeAccount)
  | registering
  | caching (account : AcmeAccount)
  | ordering (account : AcmeAccount)
  | collecting (left : Nat)
  | provisioning (p : Provision) (created : List TxtRecord)
  | cleaning (left : List TxtRecord) (result : IssueResult)

structure Issuing where
  cfg : AcmeConfig
  /-- How many authorizations the order has. -/
  urls : Nat := 0
  wanted : List (String × String) := []
  clock : Nat := 0
  /-- What pass 1 was given. -/
  first : List Authz := []
  /-- What a lookup has shown. -/
  seen : List (String × String) := []
  /-- Of which authorizations the authority was told that they are ready. -/
  told : List Authz := []
  phase : IssuePhase := .loading

structure ZoneRecord where
  id : String
  name : String
  content : String
deriving DecidableEq

structure Issuer where
  zone : List ZoneRecord
  account : Option CachedAccount := none
  issuing : Option Issuing := none
  result : Option IssueResult := none
  /-- The records whose creation was acknowledged. -/
  acked : List String := []
  /-- The records that were asked to be deleted. -/
  attempted : List String := []

inductive IssueEvent where
  | begin (cfg : AcmeConfig) (now : Nat)
  /-- Control goes on by itself. -/
  | proceed
  /-- The account's file, if there is one, is read and parses, or is not. -/
  | loadAccount (reads : Bool)
  | reuse (r : Except String Unit)
  | register (r : Except String Nat)
  | cacheAccount (r : Except String Unit)
  | newOrder (r : Except String Nat)
  | authorization (r : Except String Authz)
  | createTxt (landed : Option String) (reply : Except String ApiReply)
  | wait (now : Nat)
  | lookup (reply : DohReply) (now : Nat)
  | sleep (now : Nat)
  | setReady (r : Except String Unit)
  | pollReady (r : Except String OrderStatus)
  | finalize (r : Except String Unit)
  | pollCertificate (r : IssueResult)
  | deleteRecord (gone : Bool) (reply : Except String ApiReply)
  | die

def propagationTimeout : Nat := 150

/-- `d.strip_prefix("*.").unwrap_or(d)`. -/
def stripWildcard (d : String) : String :=
  match d.toList with
  | '*' :: '.' :: rest => String.ofList rest
  | _ => d

def challengeName (d : String) : String := "_acme-challenge." ++ stripWildcard d

def noChallenge : String := "authorization has no DNS-01 challenge"

/-- What an authorization of pass 1 adds to `wanted`. -/
def Authz.wants (authz : Authz) : Except String (List (String × String)) :=
  if authz.status = .valid then .ok []
  else
    match authz.dns01, authz.identifier with
    | none, _ => .error noChallenge
    | some value, .dns d => .ok [(challengeName d, value)]
    | some _, .other debug => .error ("unexpected identifier type: " ++ debug)

namespace Issuing

variable (s : Issuing)

def collect (r : Except String Authz) : Except String Issuing :=
  r.bind fun authz => authz.wants.map fun more =>
    { s with wanted := s.wanted ++ more, first := s.first ++ [authz] }

/-- `provision_and_finalize` without `create_txt`: where it is next, or what it returns. -/
def provision : Provision → IssueEvent → Option (Issuing × (Provision ⊕ IssueResult))
  | .creating [], .proceed => some (s, .inl (.propagating s.wanted))
  | .propagating [], .proceed => some (s, .inl (.readying s.urls))
  | .propagating ((name, value) :: left), .wait now =>
    if now < s.clock then none
    else some ({ s with clock := now }, .inl (.looking name value left (now + propagationTimeout)))
  | .looking name value left deadline, .lookup reply now =>
    if now < s.clock then none
    else if Cloudflare.txtVisible reply value then
      some ({ s with clock := now, seen := s.seen ++ [(name, value)] }, .inl (.propagating left))
    else if deadline ≤ now then
      some ({ s with clock := now }, .inr (.error ("TXT " ++ name ++ " did not propagate within 150s")))
    else some ({ s with clock := now }, .inl (.pausing name value left deadline))
  | .pausing name value left deadline, .sleep now =>
    if now < s.clock + 3 then none
    else some ({ s with clock := now }, .inl (.looking name value left deadline))
  | .readying 0, .proceed => some (s, .inl .polling)
  | .readying (_ + 1), .authorization (.error e) => some (s, .inr (.error e))
  | .readying (left + 1), .authorization (.ok authz) =>
    if authz.status = .valid then some (s, .inl (.readying left))
    else if authz.dns01 = none then some (s, .inr (.error noChallenge))
    else some (s, .inl (.answering authz left))
  -- the authority has been told, whatever comes back
  | .answering authz _, .setReady (.error e) => some ({ s with told := s.told ++ [authz] }, .inr (.error e))
  | .answering authz left, .setReady (.ok ()) =>
    some ({ s with told := s.told ++ [authz] }, .inl (.readying left))
  | .polling, .pollReady (.error _) => some (s, .inr (.error "polling order"))
  | .polling, .pollReady (.ok status) =>
    if status = .ready then some (s, .inl .finalizing)
    else some (s, .inr (.error ("ACME order did not become ready (status " ++ status.debug ++ ")")))
  | .finalizing, .finalize (.error _) => some (s, .inr (.error "finalizing order"))
  | .finalizing, .finalize (.ok ()) => some (s, .inl .downloading)
  | .downloading, .pollCertificate (.error _) => some (s, .inr (.error "downloading certificate"))
  | .downloading, .pollCertificate (.ok pair) => some (s, .inr (.ok pair))
  | _, _ => none

end Issuing

namespace Issuer

variable (S : Issuer)

def goto (s : Issuing) (phase : IssuePhase) : Issuer := { S with issuing := some { s with phase := phase } }

def returns (r : IssueResult) : Issuer := { S with issuing := none, result := some r }

def ids : List String := S.zone.map (·.id)

/-- Cloudflare gives a record an id that no other has. -/
def landing (landed : Option String) (name value : String) : Option Issuer :=
  match landed with
  | none => some S
  | some id => if id ∈ S.ids then none else some { S with zone := S.zone ++ [⟨id, name, value⟩] }

/-- `created.push(cf.create_txt(name, value).await?)`. -/
def create (s : Issuing) (name value : String) (left : List (String × String)) (created : List TxtRecord)
    (landed : Option String) (reply : Except String ApiReply) : Option Issuer :=
  (S.landing landed name value).bind fun S' =>
    match Cloudflare.createTxt reply with
    | .ok id =>
      if landed = some id then
        some ({ S' with acked := S'.acked ++ [id] }.goto s
          (.provisioning (.creating left) (created ++ [TxtRecord.mk id name])))
      else none
    | .error e => some (S'.goto s (.cleaning created (.error e)))

/-- A failed deletion is logged, and no more. -/
def delete (s : Issuing) (rec : TxtRecord) (left : List TxtRecord) (result : IssueResult) (gone : Bool)
    (reply : Except String ApiReply) : Option Issuer :=
  if (Cloudflare.deleteRecord reply).isOk && !gone then none
  else
    some ({ S with
      zone := if gone then S.zone.filter (·.id ≠ rec.id) else S.zone
      attempted := S.attempted ++ [rec.id] }.goto s (.cleaning left result))

/-- One step of the issuance that runs. -/
def on (s : Issuing) : IssuePhase → IssueEvent → Option Issuer
  | .loading, .loadAccount reads =>
    match if reads then S.account else none with
    | some cached =>
      -- an account belongs to its directory
      if cached.directory = s.cfg.directoryUrl then some (S.goto s (.reusing cached.credentials))
      else some (S.goto s .registering)
    | none => some (S.goto s .registering)
  | .reusing _, .reuse (.error e) => some (S.returns (.error e))
  | .reusing account, .reuse (.ok ()) => some (S.goto s (.ordering account))
  | .registering, .register (.error _) => some (S.returns (.error "creating ACME account"))
  | .registering, .register (.ok id) => some (S.goto s (.caching ⟨s.cfg.directoryUrl, id⟩))
  | .caching _, .cacheAccount (.error e) => some (S.returns (.error e))
  | .caching account, .cacheAccount (.ok ()) =>
    some ({ S with account := some (CachedAccount.mk s.cfg.directoryUrl account) }.goto s (.ordering account))
  | .ordering _, .newOrder (.error _) => some (S.returns (.error "creating ACME order"))
  | .ordering _, .newOrder (.ok urls) => some (S.goto { s with urls := urls } (.collecting urls))
  | .collecting 0, .proceed => some (S.goto s (.provisioning (.creating s.wanted) []))
  | .collecting (left + 1), .authorization r =>
    match s.collect r with
    | .ok s' => some (S.goto s' (.collecting left))
    | .error e => some (S.returns (.error e))
  | .provisioning (.creating ((name, value) :: left)) created, .createTxt landed reply =>
    S.create s name value left created landed reply
  | .provisioning p created, ev =>
    (s.provision p ev).map fun next =>
      match next.2 with
      | .inl p' => S.goto next.1 (.provisioning p' created)
      | .inr r => S.goto next.1 (.cleaning created r)
  | .cleaning [] result, .proceed => some (S.returns result)
  | .cleaning (rec :: left) result, .deleteRecord gone reply => S.delete s rec left result gone reply
  | _, _ => none

def step : IssueEvent → Option Issuer
  | .begin cfg now =>
    if S.issuing.isNone then
      some { S with issuing := some { cfg := cfg, clock := now }, result := none }
    else none
  | .die => some { S with issuing := none }
  | ev => S.issuing.bind fun s => S.on s s.phase ev

end Issuer

/-- The records that are known and not yet asked to be deleted. -/
def IssuePhase.inflight : IssuePhase → List TxtRecord
  | .provisioning _ created => created
  | .cleaning left _ => left
  | _ => []

namespace Issuer

variable (S : Issuer)

/-- What one step of the issuance does, said once. -/
inductive Went (S : Issuer) (s : Issuing) : IssuePhase → IssueEvent → Issuer → Prop where
  /-- `issue` returns, with no record to delete. -/
  | returned {phase : IssuePhase} {ev : IssueEvent} (r : IssueResult) (hclear : phase.inflight = []) :
      Went S s phase ev (S.returns r)
  | reuses {cached : CachedAccount} (hcached : S.account = some cached)
      (hdirectory : cached.directory = s.cfg.directoryUrl) :
      Went S s .loading (.loadAccount true) (S.goto s (.reusing cached.credentials))
  | registers {reads : Bool} : Went S s .loading (.loadAccount reads) (S.goto s .registering)
  | reused {account : AcmeAccount} :
      Went S s (.reusing account) (.reuse (.ok ())) (S.goto s (.ordering account))
  | registered {id : Nat} :
      Went S s .registering (.register (.ok id)) (S.goto s (.caching ⟨s.cfg.directoryUrl, id⟩))
  | cached {account : AcmeAccount} :
      Went S s (.caching account) (.cacheAccount (.ok ()))
        ({ S with account := some (CachedAccount.mk s.cfg.directoryUrl account) }.goto s (.ordering account))
  | ordered {account : AcmeAccount} {urls : Nat} :
      Went S s (.ordering account) (.newOrder (.ok urls))
        (S.goto { s with urls := urls } (.collecting urls))
  | collected {left : Nat} {r : Except String Authz} {s' : Issuing} (hcollect : s.collect r = .ok s') :
      Went S s (.collecting (left + 1)) (.authorization r) (S.goto s' (.collecting left))
  | provisions : Went S s (.collecting 0) .proceed (S.goto s (.provisioning (.creating s.wanted) []))
  | acknowledged {id name value : String} {left : List (String × String)} {created : List TxtRecord}
      {reply : Except String ApiReply} (hfresh : id ∉ S.ids) :
      Went S s (.provisioning (.creating ((name, value) :: left)) created) (.createTxt (some id) reply)
        ({ S with zone := S.zone ++ [ZoneRecord.mk id name value], acked := S.acked ++ [id] }.goto s
          (.provisioning (.creating left) (created ++ [TxtRecord.mk id name])))
  | lost {id name value e : String} {left : List (String × String)} {created : List TxtRecord}
      {reply : Except String ApiReply} (hfresh : id ∉ S.ids) (hreply : Cloudflare.createTxt reply = .error e) :
      Went S s (.provisioning (.creating ((name, value) :: left)) created) (.createTxt (some id) reply)
        ({ S with zone := S.zone ++ [ZoneRecord.mk id name value] }.goto s (.cleaning created (.error e)))
  | refused {e : String} {p : Provision} {created : List TxtRecord} {reply : Except String ApiReply} :
      Went S s (.provisioning p created) (.createTxt none reply) (S.goto s (.cleaning created (.error e)))
  | goesOn {p p' : Provision} {created : List TxtRecord} {ev : IssueEvent} {s' : Issuing}
      (hnext : s.provision p ev = some (s', .inl p')) :
      Went S s (.provisioning p created) ev (S.goto s' (.provisioning p' created))
  | ends {p : Provision} {created : List TxtRecord} {ev : IssueEvent} {s' : Issuing} {r : IssueResult}
      (hnext : s.provision p ev = some (s', .inr r)) :
      Went S s (.provisioning p created) ev (S.goto s' (.cleaning created r))
  | deleted {rec : TxtRecord} {left : List TxtRecord} {result : IssueResult} {gone : Bool}
      {reply : Except String ApiReply} :
      Went S s (.cleaning (rec :: left) result) (.deleteRecord gone reply)
        ({ S with
          zone := if gone then S.zone.filter (·.id ≠ rec.id) else S.zone
          attempted := S.attempted ++ [rec.id] }.goto s (.cleaning left result))

variable {S} {S' : Issuer} {s : Issuing} {phase : IssuePhase} {ev : IssueEvent}

theorem went_create {name value : String} {left : List (String × String)} {created : List TxtRecord}
    {landed : Option String} {reply : Except String ApiReply}
    (h : S.create s name value left created landed reply = some S') :
    Went S s (.provisioning (.creating ((name, value) :: left)) created) (.createTxt landed reply) S' := by
  obtain ⟨T, hT, h⟩ := Option.bind_eq_some_iff.1 h
  cases landed with
  | none =>
    cases hT
    split at h
    · obtain ⟨hno, -⟩ := Option.ite_none_right_eq_some.1 h
      cases hno
    · cases h
      exact .refused
  | some id =>
    obtain ⟨hfresh, ⟨⟩⟩ := Option.ite_none_left_eq_some.1 hT
    split at h
    · obtain ⟨hid, ⟨⟩⟩ := Option.ite_none_right_eq_some.1 h
      cases hid
      exact .acknowledged hfresh
    · rename_i e hreply
      cases h
      exact .lost hfresh hreply

theorem went (h : S.on s phase ev = some S') : Went S s phase ev S' := by
  unfold on at h
  split at h
  · split at h
    · rename_i cached hcached
      obtain ⟨rfl, hcached⟩ := Option.ite_none_right_eq_some.1 hcached
      split at h <;> cases h
      · exact .reuses hcached ‹_›
      · exact .registers
    · cases h
      exact .registers
  · cases h
    exact .returned _ rfl
  · cases h
    exact .reused
  · cases h
    exact .returned _ rfl
  · cases h
    exact .registered
  · cases h
    exact .returned _ rfl
  · cases h
    exact .cached
  · cases h
    exact .returned _ rfl
  · cases h
    exact .ordered
  · cases h
    exact .provisions
  · split at h <;> cases h
    · exact .collected ‹_›
    · exact .returned _ rfl
  · exact went_create h
  · obtain ⟨⟨s', next⟩, hnext, rfl⟩ := Option.map_eq_some_iff.1 h
    cases next with
    | inl p' => exact .goesOn hnext
    | inr r => exact .ends hnext
  · cases h
    exact .returned _ rfl
  · obtain ⟨-, ⟨⟩⟩ := Option.ite_none_left_eq_some.1 h
    exact .deleted
  · cases h

end Issuer

/-! ## The records -/

def Issuer.inflight (S : Issuer) : List TxtRecord := S.issuing.elim [] fun s => s.phase.inflight

/-- No record is made that the relay is not told of, no deletion fails, and the process does not die. -/
def IssueEvent.Clean : IssueEvent → Prop
  | .createTxt landed reply => landed.isSome → (Cloudflare.createTxt reply).isOk
  | .deleteRecord gone _ => gone = true
  | .die => False
  | _ => True

namespace Issuer

/-- What one event does to the zone. -/
inductive Moved (S : Issuer) : IssueEvent → Issuer → Prop where
  | quiet {ev : IssueEvent} {S' : Issuer} (hzone : S'.zone = S.zone) (hacked : S'.acked = S.acked)
      (hattempted : S'.attempted = S.attempted) (hinflight : S'.inflight = S.inflight) : Moved S ev S'
  | died : Moved S .die { S with issuing := none }
  | lost {id name value e : String} {reply : Except String ApiReply} {S' : Issuer} (hfresh : id ∉ S.ids)
      (hreply : Cloudflare.createTxt reply = .error e) (hzone : S'.zone = S.zone ++ [⟨id, name, value⟩])
      (hacked : S'.acked = S.acked) (hattempted : S'.attempted = S.attempted)
      (hinflight : S'.inflight = S.inflight) : Moved S (.createTxt (some id) reply) S'
  | created {id name value : String} {reply : Except String ApiReply} {S' : Issuer} (hfresh : id ∉ S.ids)
      (hzone : S'.zone = S.zone ++ [⟨id, name, value⟩]) (hacked : S'.acked = S.acked ++ [id])
      (hattempted : S'.attempted = S.attempted) (hinflight : S'.inflight = S.inflight ++ [⟨id, name⟩]) :
      Moved S (.createTxt (some id) reply) S'
  | deleted {rec : TxtRecord} {gone : Bool} {reply : Except String ApiReply} {S' : Issuer}
      (hinflight : S.inflight = rec :: S'.inflight)
      (hzone : S'.zone = if gone then S.zone.filter (·.id ≠ rec.id) else S.zone)
      (hacked : S'.acked = S.acked) (hattempted : S'.attempted = S.attempted ++ [rec.id]) :
      Moved S (.deleteRecord gone reply) S'

variable {S S' : Issuer} {s : Issuing} {ev : IssueEvent}

theorem inflight_of (hs : S.issuing = some s) : S.inflight = s.phase.inflight := by
  rw [inflight, hs]
  rfl

theorem Went.moved (hs : S.issuing = some s) (h : Went S s s.phase ev S') : Moved S ev S' := by
  have hinflight := inflight_of hs
  generalize s.phase = phase at h hinflight
  cases h with
  | returned r hclear => exact .quiet rfl rfl rfl (hclear.symm.trans hinflight.symm)
  | reuses | registers | reused | registered | cached | ordered | collected | provisions | refused | goesOn
  | ends => exact .quiet rfl rfl rfl hinflight.symm
  | @acknowledged id name value left created reply hfresh =>
    refine .created hfresh (show _ = S.zone ++ [⟨id, name, value⟩] from rfl) rfl rfl ?_
    rw [hinflight]
    rfl
  | lost hfresh hreply => exact .lost hfresh hreply rfl rfl rfl hinflight.symm
  | deleted => exact .deleted hinflight rfl rfl rfl

theorem moved (h : S.step ev = some S') : Moved S ev S' := by
  cases ev with
  | begin cfg now =>
    obtain ⟨hnone, ⟨⟩⟩ := Option.ite_none_right_eq_some.1 h
    refine .quiet rfl rfl rfl ?_
    rw [inflight, inflight, Option.isNone_iff_eq_none.1 hnone]
    rfl
  | die =>
    cases h
    exact .died
  | _ =>
    obtain ⟨s, hs, h⟩ := Option.bind_eq_some_iff.1 h
    exact (went h).moved hs

section tidy

variable (zone : List ZoneRecord)

/-- The zone over the records that it had at first; `alive` and `clean` are what the schedule is known
for. -/
structure Tidy (alive clean : Prop) (S : Issuer) : Prop where
  kept : ∀ rec ∈ zone, rec ∈ S.zone
  own : ∀ rec ∈ S.inflight, rec.id ∉ zone.map (·.id)
  attempted : alive → S.acked = S.attempted ++ S.inflight.map (·.id)
  zone : clean → ∃ recs, S.zone = zone ++ recs ∧ recs.map (·.id) = S.inflight.map (·.id) ∧
    (S.inflight.map (·.id)).Nodup

variable {zone} {alive clean : Prop}

theorem not_mem_ids (h : Tidy zone alive clean S) {id : String} (hfresh : id ∉ S.ids) :
    id ∉ zone.map (·.id) := by
  intro hmem
  obtain ⟨rec, hrec, rfl⟩ := List.mem_map.1 hmem
  exact hfresh (List.mem_map_of_mem (h.kept rec hrec))

theorem filter_ids_eq_self {recs : List ZoneRecord} {id : String} (h : id ∉ recs.map (·.id)) :
    recs.filter (·.id ≠ id) = recs := by
  refine List.filter_eq_self.2 fun rec hrec => ?_
  simp only [ne_eq, decide_not, Bool.not_eq_eq_eq_not, Bool.not_true, decide_eq_false_iff_not]
  rintro rfl
  exact h (List.mem_map_of_mem hrec)

/-- One step. -/
theorem Tidy.step (h : Tidy zone alive clean S) (halive : alive → ev ≠ .die) (hclean : clean → ev.Clean)
    (hs : S.step ev = some S') : Tidy zone alive clean S' := by
  cases moved hs with
  | quiet hzone hacked hattempted hinflight =>
    refine ⟨?_, ?_, ?_, ?_⟩
    · rw [hzone]
      exact h.kept
    · rw [hinflight]
      exact h.own
    · rw [hacked, hattempted, hinflight]
      exact h.attempted
    · rw [hzone, hinflight]
      exact h.zone
  | died =>
    exact ⟨h.kept, nofun, fun ha => absurd rfl (halive ha), fun hc => (hclean hc).elim⟩
  | @lost id name value e reply _ hfresh hreply hzone hacked hattempted hinflight =>
    refine ⟨fun rec hrec => ?_, ?_, ?_, fun hc => ?_⟩
    · rw [hzone]
      exact List.mem_append_left _ (h.kept rec hrec)
    · rw [hinflight]
      exact h.own
    · rw [hacked, hattempted, hinflight]
      exact h.attempted
    · have hok := hclean hc rfl
      rw [hreply] at hok
      cases hok
  | @created id name value reply _ hfresh hzone hacked hattempted hinflight =>
    refine ⟨fun rec hrec => ?_, fun rec hrec => ?_, fun ha => ?_, fun hc => ?_⟩
    · rw [hzone]
      exact List.mem_append_left _ (h.kept rec hrec)
    · rw [hinflight] at hrec
      rcases List.mem_append.1 hrec with hrec | hrec
      · exact h.own rec hrec
      · cases List.mem_singleton.1 hrec
        exact not_mem_ids h hfresh
    · rw [hacked, hattempted, hinflight, h.attempted ha, List.map_append, List.append_assoc]
      rfl
    · obtain ⟨recs, hrecs, hids, hnodup⟩ := h.zone hc
      refine ⟨recs ++ [⟨id, name, value⟩], ?_, ?_, ?_⟩
      · rw [hzone, hrecs, List.append_assoc]
      · rw [hinflight, List.map_append, List.map_append, hids]
        rfl
      · rw [hinflight, List.map_append]
        refine List.nodup_append.2 ⟨hnodup, List.pairwise_singleton _ _, ?_⟩
        rintro x hx y hy rfl
        cases List.mem_singleton.1 hy
        rw [← hids] at hx
        refine hfresh ?_
        rw [ids, hrecs, List.map_append]
        exact List.mem_append_right _ hx
  | @deleted rec gone reply _ hinflight hzone hacked hattempted =>
    have hrec : rec.id ∉ zone.map (·.id) := h.own rec (hinflight ▸ List.mem_cons_self)
    refine ⟨fun r hr => ?_, fun r hr => ?_, fun ha => ?_, fun hc => ?_⟩
    · rw [hzone]
      split
      · refine List.mem_filter.2 ⟨h.kept r hr, decide_eq_true fun he => hrec ?_⟩
        exact he ▸ List.mem_map_of_mem hr
      · exact h.kept r hr
    · exact h.own r (hinflight ▸ List.mem_cons_of_mem _ hr)
    · rw [hacked, hattempted, h.attempted ha, hinflight, List.map_cons, List.append_assoc]
      rfl
    · obtain ⟨recs, hrecs, hids, hnodup⟩ := h.zone hc
      rw [hinflight, List.map_cons] at hids hnodup
      obtain ⟨r, recs', rfl, hr, hids'⟩ := List.map_eq_cons_iff.1 hids
      obtain ⟨hnot, hnodup'⟩ := List.nodup_cons.1 hnodup
      rw [← hids'] at hnot
      refine ⟨recs', ?_, hids', hnodup'⟩
      have hgone : gone = true := hclean hc
      rw [hzone, if_pos hgone, hrecs, List.filter_append, filter_ids_eq_self hrec, List.filter_cons_of_neg,
        filter_ids_eq_self hnot]
      simp [hr]

end tidy

end Issuer

/-- **The challenge records.** Over any number of issuances, on every path through them, and whatever the
authority, Cloudflare and the resolver answer: no record that was in the zone before is ever deleted. As long
as the process lives, every record whose creation was acknowledged has had exactly one request to delete it
when `issue` returns; and if none of these failed, and no creation went unacknowledged, the zone is then what
it was. -/
theorem challenge_records_cleaned (zone : List ZoneRecord) (account : Option CachedAccount)
    (sched : List IssueEvent) (S : Issuer)
    (hrun : Lts.run Issuer.step { zone := zone, account := account } sched = some S) :
    (∀ rec ∈ zone, rec ∈ S.zone) ∧
    (.die ∉ sched → S.issuing = none → S.attempted = S.acked) ∧
    ((∀ ev ∈ sched, ev.Clean) → S.issuing = none → S.zone = zone) := by
  have hS : S.Tidy zone (.die ∉ sched) (∀ ev ∈ sched, ev.Clean) := by
    refine Lts.run_inv (G := fun _ ev => ev ∈ sched) (fun T ev T' h hmem hs => ?_) ?_
      (Lts.steps_of_forall fun _ => id) hrun
    · exact h.step (fun ha he => ha (he ▸ hmem)) (fun hc => hc ev hmem) hs
    · exact ⟨fun _ => id, nofun, fun _ => rfl, fun _ => ⟨[], (List.append_nil _).symm, rfl, List.nodup_nil⟩⟩
  refine ⟨hS.kept, fun ha hidle => ?_, fun hc hidle => ?_⟩
  · have hacked := hS.attempted ha
    rw [Issuer.inflight, hidle] at hacked
    rw [hacked]
    exact (List.append_nil _).symm
  · obtain ⟨recs, hzone, hids, -⟩ := hS.zone hc
    rw [Issuer.inflight, hidle] at hids
    rw [hzone, List.map_eq_nil_iff.1 hids, List.append_nil]

def createdReply (id : String) : Except String ApiReply := .ok ⟨200, "200 OK", some true, "null", some id⟩

/-- Both names of the domain, in a registry of its own: the second value is not visible at first. -/
def firstOrder : List IssueEvent :=
  [.begin ⟨"production"⟩ 0, .loadAccount true, .register (.ok 1), .cacheAccount (.ok ()), .newOrder (.ok 2),
    .authorization (.ok ⟨.pending, .dns "d.io", some "v1"⟩),
    .authorization (.ok ⟨.pending, .dns "*.d.io", some "v2"⟩), .proceed,
    .createTxt (some "a") (createdReply "a"), .createTxt (some "b") (createdReply "b"), .proceed,
    .wait 1, .lookup (.ok (some [some "\"v1\""])) 2, .wait 3, .lookup (.ok none) 4, .sleep 7,
    .lookup (.ok (some [some "\"v1\"", none, some "\"v2\""])) 8, .proceed,
    .authorization (.ok ⟨.pending, .dns "d.io", some "v1"⟩), .setReady (.ok ()),
    .authorization (.ok ⟨.pending, .dns "*.d.io", some "v2"⟩), .setReady (.ok ()), .proceed,
    .pollReady (.ok .ready), .finalize (.ok ()), .pollCertificate (.ok (ninetyDays 1 0))]

/-- The records are deleted. -/
def firstCleanup : List IssueEvent :=
  [.deleteRecord true (createdReply "a"), .deleteRecord true (createdReply "b"), .proceed]

theorem challenge_records_cleaned_first : ∃ S,
    Lts.run Issuer.step { zone := [⟨"www", "d.io", "x"⟩] } (firstOrder ++ firstCleanup) = some S ∧
    S.acked = ["a", "b"] ∧ S.attempted = ["a", "b"] ∧ S.zone = [⟨"www", "d.io", "x"⟩] := by
  have hend : (Lts.run Issuer.step { zone := [⟨"www", "d.io", "x"⟩] } (firstOrder ++ firstCleanup)).map
      (fun S => (S.issuing.isNone, S.acked)) = some (true, ["a", "b"]) := by
    decide +kernel
  obtain ⟨S, hrun, hS⟩ := Option.map_eq_some_iff.1 hend
  rw [Prod.mk.injEq] at hS
  obtain ⟨-, hattempted, hzone⟩ := challenge_records_cleaned _ none _ S hrun
  have hidle : S.issuing = none := Option.isNone_iff_eq_none.1 hS.1
  refine ⟨S, hrun, hS.2, (hattempted ?_ hidle).trans hS.2, hzone ?_ hidle⟩
  · simp [firstOrder, firstCleanup]
  · simp [firstOrder, firstCleanup, IssueEvent.Clean, createdReply, Cloudflare.createTxt, ApiReply.check,
      ApiReply.ok, Except.bind, Except.isOk, Except.toBool]

end EtherTunnel
