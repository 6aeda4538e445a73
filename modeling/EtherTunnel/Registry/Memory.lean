import EtherTunnel.Lib.Lts
import EtherTunnel.Lib.Map
import EtherTunnel.Registry.Holdings
import Mathlib.Data.String.Basic

/-!
# The in-memory authenticator against the registry

Most of the relay's tests run on `MemoryAuth` (`auth.rs:108-256`), which keeps a set of full names and a
set of ports for each user id, where the registry keeps rows unique by label.

| here | there |
| --- | --- |
| `MemoryInner` | `MemoryInner`; `or_default` and `get` on a missing user are the empty set |
| `MemoryInner.addUser` … `releasePort` | the methods of `MemoryAuth` and of its `Authenticator` impl |
| `order` | the order in which `hostnames.iter()` walks the map (`auth.rs:196-200`) |
| `Twins` | both stores under the same calls, with the pairs of ids they gave to one account |

Both are shown to answer as their holdings do (`Request.onMemory_eq`, `Request.onRegistry_eq`), and
holdings that agree up to a renaming of ids go on agreeing (`Alike`). `authenticate` and `revoke` are
left out.
-/

namespace EtherTunnel

open Txn

/-! ## `MemoryAuth` -/

structure MemoryInner where
  nextUserId : Int
  tokens : Map String Int
  users : Map Int String
  hostnames : Map Int (Finset String)
  ports : Map Int (Finset UInt16)

namespace MemoryInner

def empty : MemoryInner := ⟨0, ∅, ∅, ∅, ∅⟩

variable (m : MemoryInner) (u : Int)

def addUser (name token : String) : Int × MemoryInner :=
  let id := m.nextUserId + 1
  (id, { m with
    nextUserId := id
    users := m.users.insert id name
    tokens := m.tokens.insert token id })

def grantHostname (hostname : String) : MemoryInner :=
  { m with hostnames := m.hostnames.insert u (insert hostname ((m.hostnames.lookup u).getD ∅)) }

def grantPort (port : UInt16) : MemoryInner :=
  { m with ports := m.ports.insert u (insert port ((m.ports.lookup u).getD ∅)) }

def ownsHostname (hostname : String) : Bool := (m.hostnames.lookup u).any (hostname ∈ ·)

def ownsPort (port : UInt16) : Bool := (m.ports.lookup u).any (port ∈ ·)

def claimHostname (order : List Int) (hostname : String) (max : Option Int) :
    ClaimOutcome × MemoryInner :=
  match order.find? fun uid => m.ownsHostname uid hostname with
  | some uid => if uid = u then (.owned, m) else (.taken, m)
  | none =>
    match max with
    | some cap =>
      let owned : Int := ((m.hostnames.lookup u).elim 0 Finset.card : Nat) +
        ((m.ports.lookup u).elim 0 Finset.card : Nat)
      if cap ≤ owned then (.capExceeded, m) else (.owned, m.grantHostname u hostname)
    | none => (.owned, m.grantHostname u hostname)

def ownedHostnames : List String := (m.hostnames.lookup u).elim [] (Finset.sort · (· ≤ ·))

def ownedPorts : List UInt16 := (m.ports.lookup u).elim [] (Finset.sort · (· ≤ ·))

def releaseHostname (hostname : String) : Bool × MemoryInner :=
  match m.hostnames.lookup u with
  | none => (false, m)
  | some s => (decide (hostname ∈ s), { m with hostnames := m.hostnames.insert u (s.erase hostname) })

def releasePort (port : UInt16) : Bool × MemoryInner :=
  match m.ports.lookup u with
  | none => (false, m)
  | some s => (decide (port ∈ s), { m with ports := m.ports.insert u (s.erase port) })

/-- `order` is an order of the map's keys. -/
def Walks (order : List Int) : Prop := order.Nodup ∧ order.toFinset = m.hostnames.keys

instance (order : List Int) : Decidable (m.Walks order) := inferInstanceAs (Decidable (_ ∧ _))

def view : Holdings Int where
  hosts u := (m.hostnames.lookup u).getD ∅
  ports u := (m.ports.lookup u).getD ∅

end MemoryInner

def Request.onMemory (m : MemoryInner) (u : Int) : Request → Reply × MemoryInner
  | .grantHostname _ h => (.bool true, m.grantHostname u h)
  | .grantPort _ p => (.bool true, m.grantPort u p)
  | .claimHostname order _ h max =>
    let (outcome, m) := m.claimHostname u order h max
    (.outcome outcome, m)
  | .ownsHostname h => (.bool (m.ownsHostname u h), m)
  | .ownsPort p => (.bool (m.ownsPort u p), m)
  | .releaseHostname h =>
    let (removed, m) := m.releaseHostname u h
    (.bool removed, m)
  | .releasePort p =>
    let (removed, m) := m.releasePort u p
    (.bool removed, m)
  | .ownedHostnames => (.hostnames (m.ownedHostnames u).toFinset, m)
  | .ownedPorts => (.ports (m.ownedPorts u).toFinset, m)

/-- The order a claim walks is one of the map at hand. -/
def Request.Walks (m : MemoryInner) : Request → Prop
  | .claimHostname order _ _ _ => m.Walks order
  | _ => True

instance (m : MemoryInner) : (req : Request) → Decidable (req.Walks m)
  | .claimHostname order .. => inferInstanceAs (Decidable (m.Walks order))
  | .grantHostname .. | .grantPort .. | .ownsHostname _ | .ownsPort _ | .releaseHostname _
  | .releasePort _ | .ownedHostnames | .ownedPorts => .isTrue trivial

namespace MemoryInner

variable {m : MemoryInner} {u : Int}

theorem view_grantHostname {h : String} : (m.grantHostname u h).view = m.view.hold u (.host h) := by
  refine Holdings.ext' (funext fun v => ?_) rfl
  simp only [view, grantHostname, Holdings.hold, Map.lookup_insert_ite, Function.update_apply]
  split <;> rfl

theorem view_grantPort {p : UInt16} : (m.grantPort u p).view = m.view.hold u (.port p) := by
  refine Holdings.ext' rfl (funext fun v => ?_)
  simp only [view, grantPort, Holdings.hold, Map.lookup_insert_ite, Function.update_apply]
  split <;> rfl

theorem ownsHostname_eq (h : String) : m.ownsHostname u h = decide (h ∈ m.view.hosts u) := by
  cases hs : m.hostnames.lookup u <;> simp [ownsHostname, view, hs]

theorem ownsPort_eq (p : UInt16) : m.ownsPort u p = decide (p ∈ m.view.ports u) := by
  cases hs : m.ports.lookup u <;> simp [ownsPort, view, hs]

theorem releaseHostname_eq (h : String) : (m.releaseHostname u h).1 = decide (h ∈ m.view.hosts u) ∧
    (m.releaseHostname u h).2.view = m.view.drop u (.host h) := by
  unfold releaseHostname
  cases hs : m.hostnames.lookup u with
  | none =>
    have hempty : m.view.hosts u = ∅ := by simp [view, hs]
    refine ⟨by simp [hempty], Holdings.ext' ?_ rfl⟩
    simp only [Holdings.drop, hempty, Finset.erase_empty]
    rw [← hempty, Function.update_eq_self]
  | some s =>
    have hset : m.view.hosts u = s := by simp [view, hs]
    refine ⟨by simp [hset], Holdings.ext' (funext fun v => ?_) rfl⟩
    simp only [view, Holdings.drop, Map.lookup_insert_ite, Function.update_apply, hs, Option.getD_some]
    split <;> rfl

theorem releasePort_eq (p : UInt16) : (m.releasePort u p).1 = decide (p ∈ m.view.ports u) ∧
    (m.releasePort u p).2.view = m.view.drop u (.port p) := by
  unfold releasePort
  cases hs : m.ports.lookup u with
  | none =>
    have hempty : m.view.ports u = ∅ := by simp [view, hs]
    refine ⟨by simp [hempty], Holdings.ext' rfl ?_⟩
    simp only [Holdings.drop, hempty, Finset.erase_empty]
    rw [← hempty, Function.update_eq_self]
  | some s =>
    have hset : m.view.ports u = s := by simp [view, hs]
    refine ⟨by simp [hset], Holdings.ext' rfl (funext fun v => ?_)⟩
    simp only [view, Holdings.drop, Map.lookup_insert_ite, Function.update_apply, hs, Option.getD_some]
    split <;> rfl

theorem ownedHostnames_toFinset : (m.ownedHostnames u).toFinset = m.view.hosts u := by
  cases hs : m.hostnames.lookup u <;> simp [ownedHostnames, view, hs]

theorem ownedPorts_toFinset : (m.ownedPorts u).toFinset = m.view.ports u := by
  cases hs : m.ports.lookup u <;> simp [ownedPorts, view, hs]

/-- The walk finds an owner when there is one. -/
theorem find?_order {order : List Int} (h : String) (horder : m.Walks order) :
    (order.find? (fun uid => m.ownsHostname uid h)).isSome ↔ ∃ v, h ∈ m.view.hosts v := by
  rw [List.find?_isSome]
  constructor
  · rintro ⟨v, -, hv⟩
    rw [ownsHostname_eq, decide_eq_true_eq] at hv
    exact ⟨v, hv⟩
  · rintro ⟨v, hv⟩
    refine ⟨v, ?_, by rw [ownsHostname_eq, decide_eq_true_eq]; exact hv⟩
    rw [← List.mem_toFinset, horder.2, Finmap.mem_keys, ← Finmap.lookup_isSome]
    simp only [view] at hv
    cases hs : m.hostnames.lookup v with
    | none => simp [hs] at hv
    | some s => rfl

theorem claimHostname_eq {order : List Int} {h : String} (max : Option Int) (horder : m.Walks order)
    (hexcl : ∀ v w, h ∈ m.view.hosts v → h ∈ m.view.hosts w → v = w) :
    (m.claimHostname u order h max).1 = m.view.claim u h max ∧
      (m.claimHostname u order h max).2.view =
        if m.view.claim u h max = .owned then m.view.hold u (.host h) else m.view := by
  have hsize : m.view.size u = ((m.hostnames.lookup u).elim 0 Finset.card : Nat) +
      ((m.ports.lookup u).elim 0 Finset.card : Nat) := by
    cases hh : m.hostnames.lookup u <;> cases hp : m.ports.lookup u <;>
      simp [Holdings.size, view, hh, hp]
  have hfind := find?_order h horder
  unfold claimHostname Holdings.claim
  cases howner : order.find? (fun uid => m.ownsHostname uid h) with
  | some w =>
    have hw : h ∈ m.view.hosts w := by
      have := List.find?_some howner
      rwa [ownsHostname_eq, decide_eq_true_eq] at this
    dsimp only
    by_cases hwu : w = u
    · subst hwu
      rw [if_pos rfl, if_pos hw, if_pos rfl]
      exact ⟨rfl, (Holdings.hold_self (x := .host h) hw).symm⟩
    · have hnot : h ∉ m.view.hosts u := fun hu => hwu (hexcl w u hw hu)
      rw [if_neg hwu, if_neg hnot, if_pos ⟨w, hw⟩, if_neg (by simp)]
      exact ⟨rfl, rfl⟩
  | none =>
    rw [howner] at hfind
    have hnone : ¬ ∃ v, h ∈ m.view.hosts v := fun h => by simpa using hfind.2 h
    have hnot : h ∉ m.view.hosts u := fun hu => hnone ⟨u, hu⟩
    rw [if_neg hnot, if_neg hnone, hsize]
    cases max with
    | none =>
      dsimp only
      rw [if_neg (by simp), if_pos rfl]
      exact ⟨rfl, view_grantHostname⟩
    | some cap =>
      dsimp only
      by_cases hcap : cap ≤ (((m.hostnames.lookup u).elim 0 Finset.card : Nat) : Int) +
          ((m.ports.lookup u).elim 0 Finset.card : Nat)
      · rw [if_pos hcap, if_pos ⟨cap, rfl, hcap⟩, if_neg (by simp)]
        exact ⟨rfl, rfl⟩
      · rw [if_neg hcap, if_neg (by simpa using hcap), if_pos rfl]
        exact ⟨rfl, view_grantHostname⟩

end MemoryInner

/-- **`MemoryAuth` answers and acts as its holdings do**, as long as no name has two holders. -/
theorem Request.onMemory_eq (req : Request) {m : MemoryInner} {u : Int} (horder : req.Walks m)
    (hexcl : ∀ v w h, h ∈ m.view.hosts v → h ∈ m.view.hosts w → v = w) :
    (req.onMemory m u).1 = m.view.reply u req ∧ (req.onMemory m u).2.view = m.view.after u req := by
  cases req with
  | grantHostname now h => exact ⟨rfl, MemoryInner.view_grantHostname⟩
  | grantPort now p => exact ⟨rfl, MemoryInner.view_grantPort⟩
  | claimHostname order now h max =>
    obtain ⟨hout, hview⟩ := MemoryInner.claimHostname_eq max horder fun v w => hexcl v w h
    exact ⟨congrArg Reply.outcome hout, hview⟩
  | ownsHostname h => exact ⟨congrArg Reply.bool (MemoryInner.ownsHostname_eq h), rfl⟩
  | ownsPort p => exact ⟨congrArg Reply.bool (MemoryInner.ownsPort_eq p), rfl⟩
  | releaseHostname h =>
    obtain ⟨hout, hview⟩ := MemoryInner.releaseHostname_eq h
    exact ⟨congrArg Reply.bool hout, hview⟩
  | releasePort p =>
    obtain ⟨hout, hview⟩ := MemoryInner.releasePort_eq p
    exact ⟨congrArg Reply.bool hout, hview⟩
  | ownedHostnames => exact ⟨congrArg Reply.hostnames MemoryInner.ownedHostnames_toFinset, rfl⟩
  | ownedPorts => exact ⟨congrArg Reply.ports MemoryInner.ownedPorts_toFinset, rfl⟩

/-! ## Both under the same calls -/

/-- An in-memory store and a registry. `accounts` are the users both have created, with the id that each
gave them; `replies` are the two answers to every call so far. -/
structure Twins where
  mem : MemoryInner
  db : Db
  accounts : List (Int × AuthedUser)
  replies : List (Reply × Reply)

inductive TwinAct where
  | addUser (now : Int) (name token : String)
  | call (account : Nat) (req : Request)

def Twins.empty : Twins := ⟨MemoryInner.empty, Db.empty, [], []⟩

/-- `MemoryAuth` takes any name for a user; one that the registry refuses is no common account. -/
def Twins.step (domain : String) (T : Twins) : TwinAct → Option Twins
  | .addUser now name token =>
    let (memId, mem) := T.mem.addUser name token
    match run [] (addUser now name) T.db with
    | (.ok userId, db) =>
      some { T with mem := mem, db := db, accounts := T.accounts ++ [(memId, ⟨userId, name⟩)] }
    | (.error _, db) => some { T with mem := mem, db := db }
  | .call i req =>
    match T.accounts[i]? with
    | none => none
    | some (memId, user) =>
      if req.Walks T.mem then
        let (reply, mem) := req.onMemory T.mem memId
        let (reply', db) := req.onRegistry domain T.db user
        some { T with mem := mem, db := db, replies := T.replies ++ [(reply, reply')] }
      else none

/-- No row is about the resource. -/
def Db.Unheld (domain : String) (db : Db) : Resource → Prop
  | .host h => ∀ r ∈ db.hostnames, fqdn domain r.label ≠ h
  | .port p => ∀ r ∈ db.tcpPorts, r.port ≠ p

instance (domain : String) (db : Db) : (x : Resource) → Decidable (db.Unheld domain x)
  | .host h => inferInstanceAs (Decidable (∀ r ∈ db.hostnames, fqdn domain r.label ≠ h))
  | .port p => inferInstanceAs (Decidable (∀ r ∈ db.tcpPorts, r.port ≠ p))

/-- A call names valid labels under the domain, and a grant is of something nobody owns. -/
def Twins.Proper (domain : String) (T : Twins) : TwinAct → Prop
  | .addUser .. => True
  | .call _ req => (∀ h ∈ req.hostname?, (labelOf domain h).isSome) ∧
      ∀ x ∈ req.granted?, T.db.Unheld domain x

instance (domain : String) (T : Twins) : (act : TwinAct) → Decidable (T.Proper domain act)
  | .addUser .. => .isTrue trivial
  | .call _ req => inferInstanceAs (Decidable ((∀ h ∈ req.hostname?, (labelOf domain h).isSome) ∧
      ∀ x ∈ req.granted?, T.db.Unheld domain x))

structure Twins.Inv (domain : String) (T : Twins) : Prop where
  alike : Alike (T.accounts.map fun a => (a.1, a.2.userId)) T.mem.view (T.db.view domain)
  named : ∀ a ∈ T.accounts, T.db.userIdOf a.2.name = some a.2.userId
  numbered : ∀ a ∈ T.accounts, a.1 ≤ T.mem.nextUserId
  agreed : ∀ p ∈ T.replies, p.1 = p.2

section inv

variable {domain : String} {T T' : Twins}

theorem Db.Unheld.not_has {db : Db} {x : Resource} (h : db.Unheld domain x) (v : Int) :
    ¬ (db.view domain).Has v x := by
  cases x with
  | host name =>
    intro hv
    obtain ⟨r, hr, -, hx⟩ := Db.has_view_host.1 hv
    exact h r hr hx
  | port p =>
    intro hv
    obtain ⟨r, hr, hx, -⟩ := Db.hasPort_iff.1 (Db.has_view_port.1 hv)
    exact h r hr hx

theorem Db.Created.view {db db' : Db} {name : String} {id : Int} (h : Db.Created db db' name id) :
    db'.view domain = db.view domain := by
  obtain ⟨now, hrow⟩ := h.row
  have hhosts : db'.hostnames = db.hostnames := by rw [hrow]
  have hports : db'.tcpPorts = db.tcpPorts := by rw [hrow]
  rw [Db.view, Db.view, hhosts, hports]

theorem twins_empty : Twins.empty.Inv domain where
  alike := by
    refine ⟨fun u x h => ?_, fun v x h => ?_, nofun, nofun⟩
    · cases x <;> simp [Holdings.Has, Twins.empty, MemoryInner.empty, MemoryInner.view] at h
    · cases x <;> simp [Holdings.Has, Twins.empty, Db.empty, Db.view] at h
  named := nofun
  numbered := nofun
  agreed := nofun

theorem twins_addUser {now : Int} {name token : String} (h : T.Inv domain)
    (hs : T.step domain (.addUser now name token) = some T') : T'.Inv domain := by
  have heff := post_run (addUser_effect T.db now name) []
  simp only [Twins.step] at hs
  generalize run [] (addUser now name) T.db = r at heff hs
  obtain ⟨res, db'⟩ := r
  have hnumbered : ∀ a ∈ T.accounts, a.1 ≤ T.mem.nextUserId + 1 := by
    intro a ha
    have := h.numbered a ha
    omega
  rcases heff with ⟨⟨e, rfl⟩, rfl⟩ | ⟨id, rfl, hc⟩
  · cases hs
    exact ⟨h.alike, h.named, hnumbered, h.agreed⟩
  · cases hs
    have hnew : id ∉ T.db.users.map (·.id) := hc.id_eq ▸ nextId_notMem _
    have hmember : ∀ a ∈ T.accounts, a.2.userId ∈ T.db.users.map (·.id) := by
      intro a ha
      obtain ⟨r, hr, -, hid⟩ := Db.userIdOf_eq_some.1 (h.named a ha)
      exact List.mem_map.2 ⟨r, hr, hid⟩
    refine ⟨?_, fun a ha => ?_, fun a ha => ?_, h.agreed⟩
    · simp only [List.map_append, List.map_cons, List.map_nil, hc.view]
      refine h.alike.concat ?_ ?_ fun x hx => hnew (Db.view_holder hx)
      · intro p hp
        obtain ⟨a, ha, rfl⟩ := List.mem_map.1 hp
        have := h.numbered a ha
        simp only [MemoryInner.addUser]
        omega
      · intro p hp
        obtain ⟨a, ha, rfl⟩ := List.mem_map.1 hp
        rintro rfl
        exact hnew (hmember a ha)
    · rcases List.mem_append.1 ha with ha | ha
      · obtain ⟨now', hrow⟩ := hc.users
        obtain ⟨r, hr, hname, hid⟩ := Db.userIdOf_eq_some.1 (h.named a ha)
        exact Db.userIdOf_eq_some.2 ⟨r, by rw [hrow]; exact List.mem_append_left _ hr, hname, hid⟩
      · rw [List.mem_singleton.1 ha]
        obtain ⟨now', hrow⟩ := hc.users
        refine Db.userIdOf_eq_some.2 ⟨⟨id, name, now'⟩, ?_, rfl, rfl⟩
        rw [hrow]
        exact List.mem_append_right _ (List.mem_singleton_self _)
    · rcases List.mem_append.1 ha with ha | ha
      · exact hnumbered a ha
      · rw [List.mem_singleton.1 ha]
        exact le_rfl

theorem MemoryInner.onMemory_nextUserId (m : MemoryInner) (u : Int) (req : Request) :
    (req.onMemory m u).2.nextUserId = m.nextUserId := by
  cases req with
  | claimHostname order now h max =>
    simp only [Request.onMemory, claimHostname]
    split
    · split <;> rfl
    · split
      · split <;> rfl
      · rfl
  | releaseHostname h =>
    simp only [Request.onMemory, releaseHostname]
    split <;> rfl
  | releasePort p =>
    simp only [Request.onMemory, releasePort]
    split <;> rfl
  | _ => rfl

theorem twins_call {i : Nat} {req : Request} (h : T.Inv domain) (hproper : T.Proper domain (.call i req))
    (hs : T.step domain (.call i req) = some T') : T'.Inv domain := by
  simp only [Twins.step] at hs
  split at hs
  · cases hs
  · rename_i memId user hi
    split at hs
    · rename_i hwalks
      cases hs
      have hacct : (memId, user) ∈ T.accounts := List.mem_of_getElem? hi
      have hpair : (memId, user.userId) ∈ T.accounts.map fun a => (a.1, a.2.userId) :=
        List.mem_map.2 ⟨_, hacct, rfl⟩
      obtain ⟨hmem, hmemView⟩ := req.onMemory_eq (u := memId) hwalks fun v w name hv hw =>
        h.alike.exclusive (x := .host name) (fun _ _ => Db.view_exclusive) hv hw
      obtain ⟨hreg, hregView, husers⟩ := req.onRegistry_eq (h.named _ hacct) hproper.1
        fun x hx => (hproper.2 x hx).not_has
      refine ⟨?_, fun a ha => ?_, fun a ha => ?_, fun p hp => ?_⟩
      · dsimp only
        rw [hmemView, hregView]
        exact h.alike.after hpair req
      · dsimp only
        rw [Db.userIdOf, husers]
        exact h.named a ha
      · dsimp only
        rw [MemoryInner.onMemory_nextUserId]
        exact h.numbered a ha
      · rcases List.mem_append.1 hp with hp | hp
        · exact h.agreed p hp
        · rw [List.mem_singleton.1 hp]
          exact (hmem.trans (h.alike.reply_eq hpair req)).trans hreg.symm
    · cases hs

end inv

/-- **The two authenticators agree.** However users are created and whatever is granted, claimed, asked,
released and listed for common accounts, the two stores answer every call alike, and at every moment
list the same hostnames and ports for every common account. -/
theorem authenticators_agree (domain : String) (acts : List TwinAct) (T : Twins)
    (hproper : Lts.Steps (Twins.step domain) (Twins.Proper domain) Twins.empty acts)
    (hrun : Lts.run (Twins.step domain) Twins.empty acts = some T) :
    (∀ p ∈ T.replies, p.1 = p.2) ∧
    ∀ a ∈ T.accounts,
      (T.mem.ownedHostnames a.1).toFinset =
        (Registry.ownedHostnames [] T.db domain a.2.userId).toFinset ∧
      (T.mem.ownedPorts a.1).toFinset = (Registry.ownedPorts [] T.db a.2.userId).toFinset := by
  have hinv : T.Inv domain := by
    refine Lts.run_inv ?_ twins_empty hproper hrun
    intro T act T' h hp hs
    cases act with
    | addUser now name token => exact twins_addUser h hs
    | call i req => exact twins_call h hp hs
  refine ⟨hinv.agreed, fun a ha => ?_⟩
  have hpair : (a.1, a.2.userId) ∈ T.accounts.map fun a => (a.1, a.2.userId) :=
    List.mem_map.2 ⟨a, ha, rfl⟩
  rw [MemoryInner.ownedHostnames_toFinset, MemoryInner.ownedPorts_toFinset]
  refine ⟨Finset.ext fun h => ?_, Finset.ext fun p => ?_⟩
  · rw [List.mem_toFinset, mem_ownedHostnames, ← Db.has_view_host]
    exact hinv.alike.same _ hpair (.host h)
  · rw [List.mem_toFinset, mem_ownedPorts, ← Db.has_view_port]
    exact hinv.alike.same _ hpair (.port p)

/-- Two users claim one name, a second one is over the cap, and a release frees the first for the other. -/
def twoClaimants : List TwinAct :=
  [.addUser 1 "ann" "a", .addUser 2 "bob" "b", .call 0 (.claimHostname [] 3 "app.t.example" none),
    .call 1 (.claimHostname [1] 4 "app.t.example" none),
    .call 0 (.claimHostname [1] 5 "shop.t.example" (some 1)), .call 0 (.releaseHostname "app.t.example"),
    .call 1 (.claimHostname [1] 6 "app.t.example" none), .call 1 (.grantPort 7 9000),
    .call 1 (.ownsPort 9000)]

theorem authenticators_agree_twoClaimants :
    ∃ T, Lts.run (Twins.step "t.example") Twins.empty twoClaimants = some T ∧
      T.replies.map Prod.fst = [.outcome .owned, .outcome .taken, .outcome .capExceeded, .bool true,
        .outcome .owned, .bool true, .bool true] ∧
      ∀ p ∈ T.replies, p.1 = p.2 := by
  have hmap : (Lts.run (Twins.step "t.example") Twins.empty twoClaimants).map (·.replies.map Prod.fst) =
      some [.outcome .owned, .outcome .taken, .outcome .capExceeded, .bool true, .outcome .owned,
        .bool true, .bool true] := by
    decide +kernel
  obtain ⟨T, hT, hreplies⟩ := Option.map_eq_some_iff.1 hmap
  exact ⟨T, hT, hreplies, (authenticators_agree "t.example" _ T (by decide +kernel) hT).1⟩

end EtherTunnel
