import EtherTunnel.Frames
import EtherTunnel.Lib.Map

/-!
# The routing table

| here | there |
| --- | --- |
| `SessionHandle` | `SessionHandle` (`router.rs:21`); its two channels are the session itself |
| `ClaimSet`, `RouterInner` | `router.rs:68-79` |
| `claim`, `removeSession`, `evictRoutes` | `router.rs:107`, `:157`, `:189` |
| `lookupHttp`, `lookupTcp`, `hostnamesOf`, `projectedTunnelCount` | `router.rs:93-100`, `:218`, `:240` |
| `Router` | `Router`: the table behind its lock, with the invariant its methods keep |

A `HashMap` is a `Finmap`, a `HashSet` a `Finset`. A loop over a `HashSet` has no fixed order; it is a
`Multiset.foldl`, which asks for a proof that its steps commute. The two halves of the table, hosts
and ports, get the same treatment line by line in the source, so each loop body is written once for a
`Resource`.

The reverse index `by_session` exists for teardown. `Indexed` says what it must be at every moment:
the inverse of the routing table.
-/

namespace EtherTunnel

structure SessionHandle where
  sessionId : Nat
  userId : Int
deriving DecidableEq

structure ClaimSet where
  hosts : Finset String := ∅
  ports : Finset UInt16 := ∅
deriving DecidableEq

structure RouterInner where
  http : Map String SessionHandle := ∅
  tcp : Map UInt16 SessionHandle := ∅
  bySession : Map Nat ClaimSet := ∅
deriving DecidableEq

namespace ClaimSet

def insert (set : ClaimSet) : Resource → ClaimSet
  | .host h => { set with hosts := Insert.insert h set.hosts }
  | .port p => { set with ports := Insert.insert p set.ports }

def remove (set : ClaimSet) : Resource → ClaimSet
  | .host h => { set with hosts := set.hosts.erase h }
  | .port p => { set with ports := set.ports.erase p }

def Has (set : ClaimSet) : Resource → Prop
  | .host h => h ∈ set.hosts
  | .port p => p ∈ set.ports

@[simp] theorem has_empty (x : Resource) : ¬ ({} : ClaimSet).Has x := by
  cases x <;> simp [Has]

@[simp] theorem has_insert {set : ClaimSet} {x y : Resource} :
    (set.insert x).Has y ↔ y = x ∨ set.Has y := by
  cases x <;> cases y <;> simp [Has, insert]

@[simp] theorem has_remove {set : ClaimSet} {x y : Resource} :
    (set.remove x).Has y ↔ y ≠ x ∧ set.Has y := by
  cases x <;> cases y <;> simp [Has, remove]

end ClaimSet

namespace RouterInner

variable (r : RouterInner)

/-! ## Entries -/

/-- `http.get(host)` or `tcp.get(&port)`. -/
def get : Resource → Option SessionHandle
  | .host h => r.http.lookup h
  | .port p => r.tcp.lookup p

/-- `http.insert(host, session)` or `tcp.insert(port, session)`. -/
def put (session : SessionHandle) : Resource → RouterInner
  | .host h => { r with http := r.http.insert h session }
  | .port p => { r with tcp := r.tcp.insert p session }

/-- `http.remove(host)` or `tcp.remove(&port)`. -/
def drop : Resource → RouterInner
  | .host h => { r with http := r.http.erase h }
  | .port p => { r with tcp := r.tcp.erase p }

/-- `by_session.get(&session_id)`, an absent entry read as the empty set. -/
def claimSet (sessionId : Nat) : ClaimSet := (r.bySession.lookup sessionId).getD {}

/-- `if let Some(set) = by_session.get_mut(&session_id) { set.….remove(res) }`. -/
def unindex (sessionId : Nat) (x : Resource) : RouterInner :=
  match r.bySession.lookup sessionId with
  | some set => { r with bySession := r.bySession.insert sessionId (set.remove x) }
  | none => r

/-- `by_session.entry(session_id).or_default().….insert(res)`. -/
def index (sessionId : Nat) (x : Resource) : RouterInner :=
  { r with bySession := r.bySession.insert sessionId ((r.claimSet sessionId).insert x) }

section entries

variable {r} {x y : Resource} {session : SessionHandle} {s t : Nat}

@[simp] theorem get_put : (r.put session x).get y = if y = x then some session else r.get y := by
  cases x <;> cases y <;> simp [get, put]

@[simp] theorem get_drop : (r.drop x).get y = if y = x then none else r.get y := by
  cases x <;> cases y <;> simp [get, drop]

@[simp] theorem get_unindex : (r.unindex s x).get y = r.get y := by
  unfold unindex; split <;> cases y <;> rfl

@[simp] theorem get_index : (r.index s x).get y = r.get y := by cases y <;> rfl

@[simp] theorem claimSet_put : (r.put session x).claimSet s = r.claimSet s := by cases x <;> rfl

@[simp] theorem claimSet_drop : (r.drop x).claimSet s = r.claimSet s := by cases x <;> rfl

theorem has_unindex :
    ((r.unindex s x).claimSet t).Has y ↔ (r.claimSet t).Has y ∧ ¬ (t = s ∧ y = x) := by
  unfold unindex
  split
  · rename_i set hset
    by_cases hts : t = s
    · subst hts; simp [claimSet, hset, and_comm]
    · simp [claimSet, hts]
  · rename_i hnone
    by_cases hts : t = s
    · subst hts; simp [claimSet, hnone]
    · simp [hts]

theorem has_index :
    ((r.index s x).claimSet t).Has y ↔ (r.claimSet t).Has y ∨ t = s ∧ y = x := by
  unfold index
  by_cases hts : t = s
  · subst hts; simp [claimSet, or_comm]
  · simp [claimSet, hts]

end entries

/-! ## `claim` and `evict_routes` -/

/-- What both return: the handles that lost a resource. -/
abbrev Affected := List (SessionHandle × Resource)

/-- The body of the loops of `claim`. -/
def claimOne (session : SessionHandle) (st : RouterInner × Affected) (x : Resource) :
    RouterInner × Affected :=
  let inner := st.1.put session x
  let (inner, superseded) :=
    match st.1.get x with
    | some prev =>
      if prev.sessionId ≠ session.sessionId then
        (inner.unindex prev.sessionId x, st.2 ++ [(prev, x)])
      else (inner, st.2)
    | none => (inner, st.2)
  (inner.index session.sessionId x, superseded)

def claim (session : SessionHandle) (hosts : List String) (ports : List UInt16) :
    RouterInner × Affected :=
  let st := hosts.foldl (fun st h => claimOne session st (.host h)) (r, [])
  ports.foldl (fun st p => claimOne session st (.port p)) st

/-- The body of the loops of `evict_routes`. -/
def evictOne (st : RouterInner × Affected) (x : Resource) : RouterInner × Affected :=
  match st.1.get x with
  | some handle => ((st.1.drop x).unindex handle.sessionId x, st.2 ++ [(handle, x)])
  | none => st

def evictRoutes (hosts : List String) (ports : List UInt16) : RouterInner × Affected :=
  let st := hosts.foldl (fun st h => evictOne st (.host h)) (r, [])
  ports.foldl (fun st p => evictOne st (.port p)) st

/-! ## `remove_session` -/

/-- The body of the loops of `remove_session`: the guard keeps a superseding session's route. -/
def removeOne (sessionId : Nat) (x : Resource) : RouterInner :=
  if (r.get x).any (·.sessionId == sessionId) then r.drop x else r

variable {r} in
theorem get_removeOne {s : Nat} {x y : Resource} :
    (r.removeOne s x).get y =
      if y = x ∧ (r.get y).map (·.sessionId) = some s then none else r.get y := by
  have hany : ∀ z, (r.get z).any (·.sessionId == s) = true ↔ (r.get z).map (·.sessionId) = some s := by
    intro z; cases r.get z <;> simp
  simp only [removeOne, hany]
  by_cases hyx : y = x
  · subst hyx; split <;> simp_all
  · split <;> simp [hyx]

@[simp] theorem bySession_removeOne (s : Nat) (x : Resource) :
    (r.removeOne s x).bySession = r.bySession := by
  unfold removeOne; split
  · cases x <;> rfl
  · rfl

/-- Two tables with the same entries and the same reverse index are the same. -/
theorem ext_get {r r' : RouterInner} (hget : ∀ x, r.get x = r'.get x)
    (hidx : r.bySession = r'.bySession) : r = r' := by
  have hh : r.http = r'.http := Finmap.ext_lookup fun h => hget (.host h)
  have ht : r.tcp = r'.tcp := Finmap.ext_lookup fun p => hget (.port p)
  cases r; cases r'; simp_all

theorem removeOne_comm (s : Nat) (x y : Resource) :
    (r.removeOne s x).removeOne s y = (r.removeOne s y).removeOne s x := by
  refine ext_get (fun z => ?_) (by simp)
  simp only [get_removeOne]
  by_cases hs : (r.get z).map (·.sessionId) = some s
  · rcases eq_or_ne z x with rfl | hx
    · rcases eq_or_ne z y with rfl | hy
      · rfl
      · simp [hs, hy]
    · simp [hs, hx]
  · simp only [hs, and_false, if_false]

instance (s : Nat) : RightCommutative fun (r : RouterInner) h => r.removeOne s (.host h) :=
  ⟨fun r _ _ => r.removeOne_comm s _ _⟩

instance (s : Nat) : RightCommutative fun (r : RouterInner) p => r.removeOne s (.port p) :=
  ⟨fun r _ _ => r.removeOne_comm s _ _⟩

def removeSession (sessionId : Nat) : RouterInner :=
  match r.bySession.lookup sessionId with
  | none => r
  | some set =>
    let inner := { r with bySession := r.bySession.erase sessionId }
    let inner := set.hosts.val.foldl (fun r h => r.removeOne sessionId (.host h)) inner
    set.ports.val.foldl (fun r p => r.removeOne sessionId (.port p)) inner

/-! ## Reads -/

def lookupHttp (host : String) : Option SessionHandle := r.http.lookup host

def lookupTcp (port : UInt16) : Option SessionHandle := r.tcp.lookup port

/-- `hostnames_of`; the order of the returned `Vec` is the set's, so it is the set here. -/
def hostnamesOf (sessionId : Nat) : Finset String := (r.claimSet sessionId).hosts

/-- `projected_tunnel_count`. -/
def projectedTunnelCount (userId : Int) (newHosts : List String) (newPorts : List UInt16) : Nat :=
  let hosts := r.http.keys.filter fun h => (r.http.lookup h).any (·.userId == userId)
  let ports := r.tcp.keys.filter fun p => (r.tcp.lookup p).any (·.userId == userId)
  (hosts ∪ newHosts.toFinset).card + (ports ∪ newPorts.toFinset).card

end RouterInner

end EtherTunnel
