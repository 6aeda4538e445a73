import EtherTunnel.Registry.Accounts
import EtherTunnel.Registry.Isolation
import Mathlib.Data.Finset.Card
import Mathlib.Data.Finset.Sort

/-!
# Who holds what

What an `Authenticator` (`auth.rs:38-98`) is for, in its own terms: every user holds a set of hostnames
and a set of ports, nobody holds another's, and a claim adds a free name within the caller's cap.
`Holdings` is that, over any type of user ids; `Request` is one call by one user.

`Db.view` reads a registry this way, and `Request.onRegistry_eq` says that on a registry without storage
failures every call answers and acts as it does on the holdings.
-/

namespace EtherTunnel

open Txn

/-! ## Holdings -/

/-- The hostnames and ports of each user. -/
structure Holdings (ι : Type) where
  hosts : ι → Finset String
  ports : ι → Finset UInt16

/-- A call of the `Authenticator` interface on behalf of a user, or a grant by the operator. `order` is
the order in which a hash map of all users happens to be walked. -/
inductive Request where
  | grantHostname (now : Int) (hostname : String)
  | grantPort (now : Int) (port : UInt16)
  | claimHostname (order : List Int) (now : Int) (hostname : String) (max : Option Int)
  | ownsHostname (hostname : String)
  | ownsPort (port : UInt16)
  | releaseHostname (hostname : String)
  | releasePort (port : UInt16)
  | ownedHostnames
  | ownedPorts

/-- What a call answers; lists of names as sets. -/
inductive Reply where
  | outcome (o : ClaimOutcome)
  | bool (b : Bool)
  | hostnames (names : Finset String)
  | ports (ports : Finset UInt16)
deriving DecidableEq

namespace Holdings

@[ext] theorem ext' {ι : Type} {H K : Holdings ι} (hh : H.hosts = K.hosts) (hp : H.ports = K.ports) :
    H = K := by
  cases H; cases K; simp_all

variable {ι : Type} [DecidableEq ι] (H : Holdings ι) (u : ι)

/-- The user holds the resource. -/
def Has (u : ι) : Resource → Prop
  | .host h => h ∈ H.hosts u
  | .port p => p ∈ H.ports u

def hold : Resource → Holdings ι
  | .host h => { H with hosts := Function.update H.hosts u (insert h (H.hosts u)) }
  | .port p => { H with ports := Function.update H.ports u (insert p (H.ports u)) }

def drop : Resource → Holdings ι
  | .host h => { H with hosts := Function.update H.hosts u ((H.hosts u).erase h) }
  | .port p => { H with ports := Function.update H.ports u ((H.ports u).erase p) }

def size : Int := (H.hosts u).card + (H.ports u).card

open Classical in
/-- A claim: what one holds is fine, what another holds is taken, a free name needs room. -/
noncomputable def claim (h : String) (max : Option Int) : ClaimOutcome :=
  if h ∈ H.hosts u then .owned
  else if ∃ v, h ∈ H.hosts v then .taken
  else if ∃ m ∈ max, m ≤ H.size u then .capExceeded
  else .owned

noncomputable def reply : Request → Reply
  | .grantHostname _ _ | .grantPort _ _ => .bool true
  | .claimHostname _ _ h max => .outcome (H.claim u h max)
  | .ownsHostname h | .releaseHostname h => .bool (decide (h ∈ H.hosts u))
  | .ownsPort p | .releasePort p => .bool (decide (p ∈ H.ports u))
  | .ownedHostnames => .hostnames (H.hosts u)
  | .ownedPorts => .ports (H.ports u)

open Classical in
noncomputable def after : Request → Holdings ι
  | .grantHostname _ h => H.hold u (.host h)
  | .grantPort _ p => H.hold u (.port p)
  | .claimHostname _ _ h max => if H.claim u h max = .owned then H.hold u (.host h) else H
  | .releaseHostname h => H.drop u (.host h)
  | .releasePort p => H.drop u (.port p)
  | _ => H

variable {H u}

theorem hold_self {x : Resource} (h : H.Has u x) : H.hold u x = H := by
  cases x with
  | host h' =>
    have hins : insert h' (H.hosts u) = H.hosts u := Finset.insert_eq_self.2 h
    simp only [hold, hins, Function.update_eq_self]
  | port p =>
    have hins : insert p (H.ports u) = H.ports u := Finset.insert_eq_self.2 h
    simp only [hold, hins, Function.update_eq_self]

theorem has_hold {v : ι} {x y : Resource} : (H.hold u x).Has v y ↔ H.Has v y ∨ v = u ∧ y = x := by
  cases x <;> cases y <;> by_cases hv : v = u <;>
    simp [hold, Has, Function.update, hv, or_comm]

theorem has_drop {v : ι} {x y : Resource} : (H.drop u x).Has v y ↔ H.Has v y ∧ ¬ (v = u ∧ y = x) := by
  cases x <;> cases y <;> by_cases hv : v = u <;>
    simp [drop, Has, Function.update, hv, and_comm]

omit [DecidableEq ι] in
/-- Holdings are determined by who has what. -/
theorem eq_of_has {H K : Holdings ι} (h : ∀ u x, H.Has u x ↔ K.Has u x) : H = K := by
  ext u x
  · exact h u (.host x)
  · exact h u (.port x)

end Holdings

/-- The hostname a call is about. -/
def Request.hostname? : Request → Option String
  | .grantHostname _ h | .claimHostname _ _ h _ | .ownsHostname h | .releaseHostname h => some h
  | _ => none

/-- The resource an operator grants. -/
def Request.granted? : Request → Option Resource
  | .grantHostname _ h => some (.host h)
  | .grantPort _ p => some (.port p)
  | _ => none

/-! ## The same holdings under other ids -/

/-- Two stores hold the same, up to the ids they gave to one account. -/
structure Alike {ι κ : Type} (pairs : List (ι × κ)) (H : Holdings ι) (K : Holdings κ) : Prop where
  left : ∀ u x, H.Has u x → ∃ v, (u, v) ∈ pairs
  right : ∀ v x, K.Has v x → ∃ u, (u, v) ∈ pairs
  same : ∀ p ∈ pairs, ∀ x, H.Has p.1 x ↔ K.Has p.2 x
  paired : ∀ p ∈ pairs, ∀ q ∈ pairs, p.1 = q.1 ↔ p.2 = q.2

namespace Alike

variable {ι κ : Type} [DecidableEq ι] [DecidableEq κ] {pairs : List (ι × κ)} {H : Holdings ι}
  {K : Holdings κ} {u : ι} {v : κ} {x : Resource}

section reads

omit [DecidableEq ι] [DecidableEq κ]

theorem hosts_eq (h : Alike pairs H K) (hp : (u, v) ∈ pairs) : H.hosts u = K.hosts v :=
  Finset.ext fun n => h.same _ hp (.host n)

theorem ports_eq (h : Alike pairs H K) (hp : (u, v) ∈ pairs) : H.ports u = K.ports v :=
  Finset.ext fun p => h.same _ hp (.port p)

theorem exists_has (h : Alike pairs H K) : (∃ u, H.Has u x) ↔ ∃ v, K.Has v x := by
  constructor
  · rintro ⟨u, hu⟩
    obtain ⟨v, hp⟩ := h.left u x hu
    exact ⟨v, (h.same _ hp x).1 hu⟩
  · rintro ⟨v, hv⟩
    obtain ⟨u, hp⟩ := h.right v x hv
    exact ⟨u, (h.same _ hp x).2 hv⟩

/-- If one side has at most one holder for each resource, so has the other. -/
theorem exclusive (h : Alike pairs H K) (hK : ∀ v w, K.Has v x → K.Has w x → v = w) {u u' : ι}
    (hu : H.Has u x) (hu' : H.Has u' x) : u = u' := by
  obtain ⟨v, hp⟩ := h.left u x hu
  obtain ⟨v', hp'⟩ := h.left u' x hu'
  exact (h.paired _ hp _ hp').2 (hK v v' ((h.same _ hp x).1 hu) ((h.same _ hp' x).1 hu'))

end reads

omit [DecidableEq ι] [DecidableEq κ] in
theorem claim_eq (h : Alike pairs H K) (hp : (u, v) ∈ pairs) (name : String) (max : Option Int) :
    H.claim u name max = K.claim v name max := by
  have hany : (∃ w, name ∈ H.hosts w) ↔ ∃ w, name ∈ K.hosts w := h.exists_has (x := .host name)
  unfold Holdings.claim Holdings.size
  rw [h.hosts_eq hp, h.ports_eq hp, propext hany]

omit [DecidableEq ι] [DecidableEq κ] in
/-- Alike stores answer alike. -/
theorem reply_eq (h : Alike pairs H K) (hp : (u, v) ∈ pairs) (req : Request) :
    H.reply u req = K.reply v req := by
  cases req <;> simp only [Holdings.reply, h.hosts_eq hp, h.ports_eq hp, h.claim_eq hp]

/-- An update of one account, the same on both sides. -/
theorem update (h : Alike pairs H K) (hp : (u, v) ∈ pairs) {H' : Holdings ι} {K' : Holdings κ}
    (hH : ∀ w y, w ≠ u → (H'.Has w y ↔ H.Has w y)) (hK : ∀ w y, w ≠ v → (K'.Has w y ↔ K.Has w y))
    (hsame : ∀ y, H'.Has u y ↔ K'.Has v y) : Alike pairs H' K' where
  left w y hw := by
    by_cases hwu : w = u
    · exact ⟨v, hwu ▸ hp⟩
    · exact h.left w y ((hH w y hwu).1 hw)
  right w y hw := by
    by_cases hwv : w = v
    · exact ⟨u, hwv ▸ hp⟩
    · exact h.right w y ((hK w y hwv).1 hw)
  same q hq y := by
    by_cases hqu : q.1 = u
    · have hqv : q.2 = v := (h.paired q hq _ hp).1 hqu
      rw [hqu, hqv]
      exact hsame y
    · have hqv : q.2 ≠ v := fun hqv => hqu ((h.paired q hq _ hp).2 hqv)
      rw [hH _ _ hqu, hK _ _ hqv]
      exact h.same q hq y
  paired := h.paired

theorem hold (h : Alike pairs H K) (hp : (u, v) ∈ pairs) (x : Resource) :
    Alike pairs (H.hold u x) (K.hold v x) := by
  refine h.update hp (fun w y hw => ?_) (fun w y hw => ?_) fun y => ?_
  · rw [Holdings.has_hold]
    simp [hw]
  · rw [Holdings.has_hold]
    simp [hw]
  · rw [Holdings.has_hold, Holdings.has_hold, h.same _ hp y]
    simp

theorem drop (h : Alike pairs H K) (hp : (u, v) ∈ pairs) (x : Resource) :
    Alike pairs (H.drop u x) (K.drop v x) := by
  refine h.update hp (fun w y hw => ?_) (fun w y hw => ?_) fun y => ?_
  · rw [Holdings.has_drop]
    simp [hw]
  · rw [Holdings.has_drop]
    simp [hw]
  · rw [Holdings.has_drop, Holdings.has_drop, h.same _ hp y]
    simp

/-- Alike stores stay alike. -/
theorem after (h : Alike pairs H K) (hp : (u, v) ∈ pairs) (req : Request) :
    Alike pairs (H.after u req) (K.after v req) := by
  cases req <;> simp only [Holdings.after]
  case claimHostname order now name max =>
    rw [h.claim_eq hp]
    split
    · exact h.hold hp _
    · exact h
  case grantHostname | grantPort => exact h.hold hp _
  case releaseHostname | releasePort => exact h.drop hp _
  all_goals exact h

omit [DecidableEq ι] [DecidableEq κ] in
/-- A new account on both sides. -/
theorem concat (h : Alike pairs H K) (hu : ∀ p ∈ pairs, p.1 ≠ u) (hv : ∀ p ∈ pairs, p.2 ≠ v)
    (hnone : ∀ x, ¬ K.Has v x) : Alike (pairs ++ [(u, v)]) H K where
  left w y hw := by
    obtain ⟨w', hw'⟩ := h.left w y hw
    exact ⟨w', List.mem_append_left _ hw'⟩
  right w y hw := by
    obtain ⟨w', hw'⟩ := h.right w y hw
    exact ⟨w', List.mem_append_left _ hw'⟩
  same q hq y := by
    rcases List.mem_append.1 hq with hq | hq
    · exact h.same q hq y
    · rw [List.mem_singleton.1 hq]
      refine iff_of_false (fun hy => ?_) (hnone y)
      obtain ⟨w, hw⟩ := h.left u y hy
      exact hu _ hw rfl
  paired q hq q' hq' := by
    rcases List.mem_append.1 hq with hq | hq <;> rcases List.mem_append.1 hq' with hq' | hq'
    · exact h.paired q hq q' hq'
    · rw [List.mem_singleton.1 hq']
      exact iff_of_false (hu q hq) (hv q hq)
    · rw [List.mem_singleton.1 hq]
      exact iff_of_false (fun e => hu q' hq' e.symm) fun e => hv q' hq' e.symm
    · rw [List.mem_singleton.1 hq, List.mem_singleton.1 hq']
      simp

end Alike

/-! ## A registry's holdings -/

namespace Db

variable {db db' : Db} {domain : String} {u v : Int}

def view (domain : String) (db : Db) : Holdings Int where
  hosts u := ((db.hostnames.filter (·.userId == u)).map fun r => fqdn domain r.label).toFinset
  ports u := ((db.tcpPorts.filter (·.userId == u)).map (·.port)).toFinset

theorem has_view_host {h : String} :
    (db.view domain).Has u (.host h) ↔ ∃ r ∈ db.hostnames, r.userId = u ∧ fqdn domain r.label = h := by
  simp [Holdings.Has, view, and_assoc]

theorem has_view_port {p : UInt16} : (db.view domain).Has u (.port p) ↔ db.hasPort u p = true := by
  simp only [Holdings.Has, view, hasPort_iff, List.mem_toFinset, List.mem_map, List.mem_filter, beq_iff_eq,
    and_assoc]
  exact exists_congr fun r => and_congr_right fun _ => and_comm

theorem has_view_label {h l : String} (hl : labelOf domain h = some l) :
    (db.view domain).Has u (.host h) ↔ db.hasLabel u l = true := by
  rw [has_view_host, hasLabel_iff, (labelOf_eq_some.1 hl).1]
  constructor
  · rintro ⟨r, hr, hu, hx⟩
    exact ⟨r, hr, fqdn_injective domain hx, hu⟩
  · rintro ⟨r, hr, rfl, hu⟩
    exact ⟨r, hr, hu, rfl⟩

theorem view_size : (db.view domain).size u = db.countOwned u := by
  have hhosts : ((db.hostnames.filter (·.userId == u)).map fun r => fqdn domain r.label).Nodup := by
    have h := (nodup_map_filter (·.userId == u) db.valid.host_label).map (fqdn_injective domain)
    rw [List.map_map] at h
    exact h
  have hports : ((db.tcpPorts.filter (·.userId == u)).map (·.port)).Nodup :=
    nodup_map_filter (·.userId == u) db.valid.port_key
  rw [Holdings.size, view, List.toFinset_card_of_nodup hhosts, List.toFinset_card_of_nodup hports,
    List.length_map, List.length_map, countOwned]

/-- Nobody holds what another holds. -/
theorem view_exclusive {x : Resource} (hu : (db.view domain).Has u x) (hv : (db.view domain).Has v x) :
    u = v := by
  cases x with
  | host h =>
    obtain ⟨r, hr, rfl, hx⟩ := has_view_host.1 hu
    obtain ⟨r', hr', rfl, hx'⟩ := has_view_host.1 hv
    rw [hostname_ext hr hr' (fqdn_injective domain (hx.trans hx'.symm))]
  | port p => exact hasPort_unique (has_view_port.1 hu) (has_view_port.1 hv)

/-- A holder is a user. -/
theorem view_holder {x : Resource} (h : (db.view domain).Has u x) : u ∈ db.users.map (·.id) := by
  cases x with
  | host h' =>
    obtain ⟨r, hr, rfl, -⟩ := has_view_host.1 h
    exact db.valid.host_fk r hr
  | port p =>
    obtain ⟨r, hr, -, rfl⟩ := hasPort_iff.1 (has_view_port.1 h)
    exact db.valid.port_fk r hr

/-! ### After a write -/

theorem Inserted.view {h l : String} (hi : db.Inserted db' u l) (hl : labelOf domain h = some l) :
    db'.view domain = (db.view domain).hold u (.host h) := by
  refine Holdings.eq_of_has fun v x => ?_
  rw [Holdings.has_hold]
  cases x with
  | host h' =>
    obtain ⟨id, now, hrow⟩ := hi.hostnames
    rw [has_view_host, has_view_host, hrow, Resource.host.injEq, (labelOf_eq_some.1 hl).1]
    constructor
    · rintro ⟨r, hr, hu, hx⟩
      rcases List.mem_append.1 hr with hr | hr
      · exact Or.inl ⟨r, hr, hu, hx⟩
      · rw [List.mem_singleton.1 hr] at hu hx
        exact Or.inr ⟨hu.symm, hx.symm⟩
    · rintro (⟨r, hr, hu, hx⟩ | ⟨rfl, rfl⟩)
      · exact ⟨r, List.mem_append_left _ hr, hu, hx⟩
      · exact ⟨_, List.mem_append_right _ (List.mem_singleton_self _), rfl, rfl⟩
  | port p =>
    rw [has_view_port, has_view_port, Db.hasPort, hi.tcpPorts]
    simp [Db.hasPort]

theorem insertPort_view {p : UInt16} {now : Int} (h : db.insertPort p u now = .ok ((), db')) :
    db'.view domain = (db.view domain).hold u (.port p) := by
  obtain ⟨hhosts, hports⟩ := rows_insertPort h
  refine Holdings.eq_of_has fun v x => ?_
  rw [Holdings.has_hold]
  cases x with
  | host h' =>
    rw [has_view_host, has_view_host, hhosts]
    simp
  | port p' =>
    rw [has_view_port, has_view_port, hasPort_iff, hasPort_iff, hports, Resource.port.injEq]
    constructor
    · rintro ⟨r, hr, hx, hu⟩
      rcases List.mem_append.1 hr with hr | hr
      · exact Or.inl ⟨r, hr, hx, hu⟩
      · rw [List.mem_singleton.1 hr] at hu hx
        exact Or.inr ⟨hu.symm, hx.symm⟩
    · rintro (⟨r, hr, hx, hu⟩ | ⟨rfl, rfl⟩)
      · exact ⟨r, List.mem_append_left _ hr, hx, hu⟩
      · exact ⟨_, List.mem_append_right _ (List.mem_singleton_self _), rfl, rfl⟩

theorem dropOwned_view_host {h l : String} (hl : labelOf domain h = some l) :
    (db.dropOwned u [l] []).view domain = (db.view domain).drop u (.host h) := by
  refine Holdings.eq_of_has fun v x => ?_
  rw [Holdings.has_drop]
  cases x with
  | host h' =>
    rw [has_view_host, has_view_host, dropOwned_hostnames, Resource.host.injEq, (labelOf_eq_some.1 hl).1]
    constructor
    · rintro ⟨r, hr, rfl, rfl⟩
      obtain ⟨hr, hkeep⟩ := List.mem_filter.1 hr
      refine ⟨⟨r, hr, rfl, rfl⟩, ?_⟩
      rintro ⟨rfl, hx⟩
      simp [fqdn_injective domain hx] at hkeep
    · rintro ⟨⟨r, hr, rfl, rfl⟩, hn⟩
      refine ⟨r, List.mem_filter.2 ⟨hr, ?_⟩, rfl, rfl⟩
      by_cases hlabel : r.label = l
      · have hu : r.userId ≠ u := fun hu => hn ⟨hu, by rw [hlabel]⟩
        simp [hu]
      · simp [hlabel]
  | port p =>
    rw [has_view_port, has_view_port, dropOwned_hasPort]
    simp

theorem dropOwned_view_port {p : UInt16} :
    (db.dropOwned u [] [p]).view domain = (db.view domain).drop u (.port p) := by
  refine Holdings.eq_of_has fun v x => ?_
  rw [Holdings.has_drop]
  cases x with
  | host h' =>
    rw [has_view_host, has_view_host, dropOwned_hostnames]
    simp
  | port p' =>
    rw [has_view_port, has_view_port, dropOwned_hasPort, Resource.port.injEq, List.mem_singleton]

end Db

/-! ## Calls on a registry -/

/-- A call on a registry without storage failures. The operator grants a label to a named account
(`etun admin hostname add`, `port add`); the other calls are those of the trait. -/
def Request.onRegistry (domain : String) (db : Db) (user : AuthedUser) : Request → Reply × Db
  | .grantHostname now h =>
    match labelOf domain h with
    | none => (.bool false, db)
    | some label =>
      let (res, db) := run [] (addHostname now label user.name) db
      (.bool res.isOk, db)
  | .grantPort now p =>
    let (res, db) := run [] (addPort now p user.name) db
    (.bool res.isOk, db)
  | .claimHostname _ now h max =>
    let (outcome, db) := Registry.claimHostname [] db domain now user.userId h max
    (.outcome outcome, db)
  | .ownsHostname h => (.bool (Registry.ownsHostname [] db domain user.userId h), db)
  | .ownsPort p => (.bool (Registry.ownsPort [] db user.userId p), db)
  | .releaseHostname h =>
    let (removed, db) := Registry.releaseHostname [] db domain user.userId h
    (.bool removed, db)
  | .releasePort p =>
    let (removed, db) := Registry.releasePort [] db user.userId p
    (.bool removed, db)
  | .ownedHostnames => (.hostnames (Registry.ownedHostnames [] db domain user.userId).toFinset, db)
  | .ownedPorts => (.ports (Registry.ownedPorts [] db user.userId).toFinset, db)

section onRegistry

variable {domain : String} {db : Db} {user : AuthedUser}

theorem insertHostname_free {u : Int} {l : String} (hfree : l ∉ db.hostnames.map (·.label))
    (huser : u ∈ db.users.map (·.id)) (now : Int) :
    ∃ id db', db.insertHostname u l now = .ok (id, db') ∧ db.Inserted db' u l := by
  have hins : ∃ id db', db.insertHostname u l now = .ok (id, db') := by
    unfold Db.insertHostname
    rw [dif_pos ⟨hfree, huser⟩]
    exact ⟨_, _, rfl⟩
  obtain ⟨id, db', hins⟩ := hins
  exact ⟨id, db', hins, Db.insertHostname_ok hins⟩

/-- A label nobody holds has no row. -/
theorem label_free {h l : String} (hl : labelOf domain h = some l)
    (hfree : ∀ v, ¬ (db.view domain).Has v (.host h)) : l ∉ db.hostnames.map (·.label) := by
  intro hmem
  obtain ⟨r, hr, rfl⟩ := List.mem_map.1 hmem
  exact hfree r.userId ((Db.has_view_label hl).2 (Db.hasLabel_iff.2 ⟨r, hr, rfl, rfl⟩))

theorem addHostname_run (now : Int) {h l : String} (hl : labelOf domain h = some l)
    (huser : db.userIdOf user.name = some user.userId) (hmem : user.userId ∈ db.users.map (·.id))
    (hfree : ∀ v, ¬ (db.view domain).Has v (.host h)) :
    ∃ db', run [] (addHostname now l user.name) db = (.ok (), db') ∧ db.Inserted db' user.userId l := by
  have hnone := label_free hl hfree
  obtain ⟨id, db', hins, hi⟩ := insertHostname_free hnone hmem now
  refine ⟨db', ?_, hi⟩
  simp only [run, addHostname, (labelOf_eq_some.1 hl).2, withUserId, exec_query, Option.getD_none, huser,
    Db.labelOwner_eq_none.2 hnone, Option.isSome_none, Bool.false_eq_true, if_false]
  simp [tryStmt, exec, Conn.fault, Conn.view, hins, Op.ok, Conn.pop, Conn.write]

theorem addPort_run (now : Int) {p : UInt16} (huser : db.userIdOf user.name = some user.userId)
    (hmem : user.userId ∈ db.users.map (·.id)) (hfree : ∀ v, ¬ (db.view domain).Has v (.port p)) :
    ∃ db', run [] (addPort now p user.name) db = (.ok (), db') ∧
      db.insertPort p user.userId now = .ok ((), db') := by
  have hport : p ∉ db.tcpPorts.map (·.port) := by
    intro hp
    obtain ⟨r, hr, rfl⟩ := List.mem_map.1 hp
    exact hfree r.userId (Db.has_view_port.2 (Db.hasPort_iff.2 ⟨r, hr, rfl, rfl⟩))
  have hnone : db.portOwner p = none := by
    rw [Db.portOwner, Option.map_eq_none_iff, List.find?_eq_none]
    intro r hr hp
    exact hport (List.mem_map.2 ⟨r, hr, by simpa using hp⟩)
  obtain ⟨db', hins⟩ : ∃ db', db.insertPort p user.userId now = .ok ((), db') := by
    unfold Db.insertPort
    rw [dif_pos ⟨hport, hmem⟩]
    exact ⟨_, rfl⟩
  refine ⟨db', ?_, hins⟩
  simp only [run, addPort, withUserId, exec_begin, exec_query, Option.getD_some, huser, hnone,
    Option.isSome_none, Bool.false_eq_true, if_false]
  simp [tryStmt, exec, Conn.fault, Conn.view, hins, Op.ok, Conn.pop, Conn.write]

theorem claimLabelCapped_held (now : Int) (max : Option Int) {u owner : Int} {l : String}
    (hvalid : validateLabel l = .ok ()) (howner : db.labelOwner l = some owner) :
    run [] (claimLabelCapped now u l max) db =
      if owner = u then (.ok false, db) else (.error (.labelTaken l), db) := by
  simp only [run, claimLabelCapped, hvalid, exec_begin, exec_query, Option.getD_some, howner]
  split <;> rfl

theorem claimLabelCapped_free (now : Int) (max : Option Int) {u : Int} {l : String}
    (hvalid : validateLabel l = .ok ()) (hnone : db.labelOwner l = none) :
    run [] (claimLabelCapped now u l max) db =
      if ∃ m ∈ max, m ≤ db.countOwned u then (.error .capExceeded, db)
      else run [] (begin .db (claimInsert now u l)) db := by
  simp only [run, claimLabelCapped, hvalid, exec_begin, exec_query, Option.getD_some, hnone]
  cases max with
  | none => simp
  | some m =>
    by_cases hm : m ≤ db.countOwned u
    · simp [hm, exec, Op.fail]
    · simp [hm]

/-- `claim_hostname` as the holdings see it. -/
theorem claimHostname_run (now : Int) (max : Option Int) {u : Int} {h l : String}
    (hl : labelOf domain h = some l) (hmem : u ∈ db.users.map (·.id)) :
    ∃ db', Registry.claimHostname [] db domain now u h max = ((db.view domain).claim u h max, db') ∧
      db'.users = db.users ∧
      db'.view domain = if (db.view domain).claim u h max = .owned then (db.view domain).hold u (.host h)
        else db.view domain := by
  have hvalid := (labelOf_eq_some.1 hl).2
  unfold Registry.claimHostname Holdings.claim
  rw [hl]
  dsimp only
  by_cases hmine : (db.view domain).Has u (.host h)
  · have howner : db.labelOwner l = some u := Db.labelOwner_eq_some.2 ((Db.has_view_label hl).1 hmine)
    rw [claimLabelCapped_held now max hvalid howner,
      if_pos (show h ∈ (db.view domain).hosts u from hmine), if_pos rfl, if_pos rfl]
    exact ⟨db, rfl, rfl, (Holdings.hold_self hmine).symm⟩
  · rw [if_neg (show h ∉ (db.view domain).hosts u from hmine)]
    by_cases htaken : ∃ v, (db.view domain).Has v (.host h)
    · obtain ⟨v, hv⟩ := htaken
      have howner : db.labelOwner l = some v := Db.labelOwner_eq_some.2 ((Db.has_view_label hl).1 hv)
      have hne : v ≠ u := by
        rintro rfl
        exact hmine hv
      rw [claimLabelCapped_held now max hvalid howner, if_neg hne,
        if_pos (show ∃ v, h ∈ (db.view domain).hosts v from ⟨v, hv⟩)]
      exact ⟨db, rfl, rfl, by rw [if_neg (by simp)]⟩
    · have hnone := label_free hl (not_exists.1 htaken)
      rw [claimLabelCapped_free now max hvalid (Db.labelOwner_eq_none.2 hnone),
        if_neg (show ¬ ∃ v, h ∈ (db.view domain).hosts v from htaken),
        Db.view_size]
      by_cases hcap : ∃ m ∈ max, m ≤ db.countOwned u
      · rw [if_pos hcap, if_pos hcap]
        exact ⟨db, rfl, rfl, by rw [if_neg (by simp)]⟩
      · obtain ⟨id, db', hins, hi⟩ := insertHostname_free hnone hmem now
        have hcommit : run [] (begin .db (claimInsert now u l)) db = (.ok true, db') := by
          simp [run, claimInsert, exec, Conn.fault, Conn.view, hins, Op.ok, Conn.pop, Conn.write]
        rw [if_neg hcap, if_neg hcap, hcommit]
        obtain ⟨id', now', hrow⟩ := hi.row
        exact ⟨db', rfl, by rw [hrow], by rw [if_pos rfl, hi.view hl]⟩

/-- **A registry answers and acts as its holdings do.** -/
theorem Request.onRegistry_eq (req : Request) (huser : db.userIdOf user.name = some user.userId)
    (hnames : ∀ h ∈ req.hostname?, (labelOf domain h).isSome)
    (hfree : ∀ x ∈ req.granted?, ∀ v, ¬ (db.view domain).Has v x) :
    (req.onRegistry domain db user).1 = (db.view domain).reply user.userId req ∧
      (req.onRegistry domain db user).2.view domain = (db.view domain).after user.userId req ∧
      (req.onRegistry domain db user).2.users = db.users := by
  have hmem : user.userId ∈ db.users.map (·.id) := by
    obtain ⟨r, hr, -, hid⟩ := Db.userIdOf_eq_some.1 huser
    exact List.mem_map.2 ⟨r, hr, hid⟩
  have howns : ∀ h, (labelOf domain h).isSome →
      (db.owns domain user.userId (.host h) = true ↔ h ∈ (db.view domain).hosts user.userId) := by
    intro h hname
    obtain ⟨l, hl⟩ := Option.isSome_iff_exists.1 hname
    rw [Db.owns, hl, Option.any_some]
    exact (Db.has_view_label hl).symm
  cases req with
  | grantHostname now h =>
    obtain ⟨l, hl⟩ := Option.isSome_iff_exists.1 (hnames h rfl)
    obtain ⟨db', hrun, hi⟩ := addHostname_run now hl huser hmem (hfree _ rfl)
    obtain ⟨id, now', hrow⟩ := hi.row
    simp only [onRegistry, hl, hrun]
    exact ⟨rfl, hi.view hl, by rw [hrow]⟩
  | grantPort now p =>
    obtain ⟨db', hrun, hins⟩ := addPort_run now huser hmem (hfree _ rfl)
    simp only [onRegistry, hrun]
    exact ⟨rfl, Db.insertPort_view hins, users_insertPort hins⟩
  | claimHostname order now h max =>
    obtain ⟨l, hl⟩ := Option.isSome_iff_exists.1 (hnames h rfl)
    obtain ⟨db', hrun, hsame, hview⟩ := claimHostname_run now max hl hmem
    simp only [onRegistry, hrun]
    exact ⟨rfl, hview, hsame⟩
  | ownsHostname h =>
    refine ⟨congrArg Reply.bool ?_, rfl, rfl⟩
    rw [Bool.eq_iff_iff, ownsHostname_eq_true, decide_eq_true_eq, ← howns h (hnames h rfl)]
    simp
  | ownsPort p =>
    refine ⟨congrArg Reply.bool ?_, rfl, rfl⟩
    rw [Bool.eq_iff_iff, decide_eq_true_eq]
    exact Db.has_view_port.symm
  | releaseHostname h =>
    obtain ⟨l, hl⟩ := Option.isSome_iff_exists.1 (hnames h rfl)
    simp only [onRegistry, releaseHostname_run, hl, Option.toList_some]
    refine ⟨congrArg Reply.bool ?_, Db.dropOwned_view_host hl, rfl⟩
    rw [Bool.eq_iff_iff, decide_eq_true_eq, howns h (hnames h rfl)]
  | releasePort p =>
    simp only [onRegistry, releasePort_run]
    refine ⟨congrArg Reply.bool ?_, Db.dropOwned_view_port, rfl⟩
    rw [Bool.eq_iff_iff, decide_eq_true_eq]
    exact Db.has_view_port.symm
  | ownedHostnames =>
    refine ⟨congrArg Reply.hostnames ?_, rfl, rfl⟩
    ext h
    rw [List.mem_toFinset, mem_ownedHostnames]
    exact Db.has_view_host.symm
  | ownedPorts =>
    refine ⟨congrArg Reply.ports ?_, rfl, rfl⟩
    ext p
    rw [List.mem_toFinset, mem_ownedPorts]
    exact Db.has_view_port.symm

end onRegistry

end EtherTunnel
