import EtherTunnel.Router.Table

/-!
# The reverse index is the inverse of the routing table

`Indexed r`: session `s` is recorded as holding `x` exactly when `x` is routed to `s`. One lemma per
loop body shows that it keeps `Indexed` and says which entry it changed; the loops follow by
induction on their lists, `get_claim`, `get_evictRoutes` and `get_removeSession` being what callers
use. `Router` packs a table with the invariant, so every later development starts from it.
-/

namespace EtherTunnel

namespace RouterInner

/-- `by_session` is the inverse of the routing table. -/
def Indexed (r : RouterInner) : Prop :=
  ∀ s x, (r.claimSet s).Has x ↔ (r.get x).map (·.sessionId) = some s

theorem indexed_empty : Indexed {} := by
  intro s x
  cases x <;> simp [claimSet, get, ClaimSet.Has]

section loops

variable {r : RouterInner} {session : SessionHandle} {st : RouterInner × Affected}

/-! ## `claim` -/

theorem get_claimOne (x y : Resource) :
    (claimOne session st x).1.get y = if y = x then some session else st.1.get y := by
  unfold claimOne
  cases hx : st.1.get x with
  | none => simp
  | some prev => by_cases hp : prev.sessionId = session.sessionId <;> simp [hp]

theorem indexed_claimOne (h : st.1.Indexed) (x : Resource) : (claimOne session st x).1.Indexed := by
  intro s y
  rw [get_claimOne]
  unfold claimOne
  have hst := h s y
  by_cases hyx : y = x
  · -- `x` leaves the set of the session it was routed to and enters this session's
    subst hyx
    cases hx : st.1.get y with
    | none =>
      rw [hx] at hst
      simp only [has_index, claimSet_put, hst]
      simp [eq_comm]
    | some prev =>
      rw [hx] at hst
      by_cases hp : prev.sessionId = session.sessionId
      · simp only [hp, ne_eq, not_true, if_false, has_index, claimSet_put, hst]
        simp [hp, eq_comm]
      · simp only [ne_eq, hp, not_false_eq_true, if_true, has_index, has_unindex, claimSet_put, hst]
        simp only [Option.map_some, Option.some.injEq, and_true]
        constructor
        · rintro (⟨h1, h2⟩ | h1)
          · exact absurd h1.symm h2
          · exact h1.symm
        · exact fun h1 => Or.inr h1.symm
  · cases hx : st.1.get x with
    | none => simp [has_index, hyx, hst]
    | some prev =>
      by_cases hp : prev.sessionId = session.sessionId <;>
        simp [hp, has_index, has_unindex, hyx, hst]

theorem get_claim_foldl (y : Resource) : ∀ (xs : List Resource) (st : RouterInner × Affected),
    (xs.foldl (claimOne session) st).1.get y = if y ∈ xs then some session else st.1.get y
  | [], st => by simp
  | x :: xs, st => by
    rw [List.foldl_cons, get_claim_foldl y xs, get_claimOne]
    by_cases hx : y = x <;> by_cases hxs : y ∈ xs <;> simp [hx, hxs]

theorem indexed_claim_foldl : ∀ (xs : List Resource) {st : RouterInner × Affected},
    st.1.Indexed → (xs.foldl (claimOne session) st).1.Indexed
  | [], _, h => h
  | x :: xs, _, h => indexed_claim_foldl xs (indexed_claimOne h x)

/-- The two loops of `claim` are one loop over the request's resources. -/
theorem claim_eq_foldl (hosts : List String) (ports : List UInt16) :
    r.claim session hosts ports = (resources hosts ports).foldl (claimOne session) (r, []) := by
  rw [claim, resources, List.foldl_append, List.foldl_map, List.foldl_map]

/-- **Newest wins.** -/
theorem get_claim (hosts : List String) (ports : List UInt16) (y : Resource) :
    (r.claim session hosts ports).1.get y =
      if y ∈ resources hosts ports then some session else r.get y := by
  rw [claim_eq_foldl, get_claim_foldl]

theorem indexed_claim (h : r.Indexed) (hosts : List String) (ports : List UInt16) :
    (r.claim session hosts ports).1.Indexed := by
  rw [claim_eq_foldl]
  exact indexed_claim_foldl _ h

/-! ## `evict_routes` -/

theorem get_evictOne (x y : Resource) :
    (evictOne st x).1.get y = if y = x then none else st.1.get y := by
  unfold evictOne
  cases hx : st.1.get x with
  | none =>
    by_cases hyx : y = x
    · rw [hyx, if_pos rfl]; exact hx
    · rw [if_neg hyx]
  | some handle => simp

theorem indexed_evictOne (h : st.1.Indexed) (x : Resource) : (evictOne st x).1.Indexed := by
  intro s y
  rw [get_evictOne]
  have hst := h s y
  unfold evictOne
  cases hx : st.1.get x with
  | none =>
    by_cases hyx : y = x
    · subst hyx; simp only [hst, hx]; simp
    · simp [hyx, hst]
  | some handle =>
    simp only [has_unindex, claimSet_drop, hst]
    by_cases hyx : y = x
    · subst hyx; rw [hx]; simp only [Option.map_some, Option.some.injEq, and_true, if_true]
      simp [eq_comm]
    · simp [hyx]

theorem get_evict_foldl (y : Resource) : ∀ (xs : List Resource) (st : RouterInner × Affected),
    (xs.foldl evictOne st).1.get y = if y ∈ xs then none else st.1.get y
  | [], st => by simp
  | x :: xs, st => by
    rw [List.foldl_cons, get_evict_foldl y xs, get_evictOne]
    by_cases hx : y = x <;> by_cases hxs : y ∈ xs <;> simp [hx, hxs]

theorem indexed_evict_foldl : ∀ (xs : List Resource) {st : RouterInner × Affected},
    st.1.Indexed → (xs.foldl evictOne st).1.Indexed
  | [], _, h => h
  | x :: xs, _, h => indexed_evict_foldl xs (indexed_evictOne h x)

theorem evictRoutes_eq_foldl (hosts : List String) (ports : List UInt16) :
    r.evictRoutes hosts ports = (resources hosts ports).foldl evictOne (r, []) := by
  rw [evictRoutes, resources, List.foldl_append, List.foldl_map, List.foldl_map]

/-- `evict_routes` removes by name, whoever holds the name. -/
theorem get_evictRoutes (hosts : List String) (ports : List UInt16) (y : Resource) :
    (r.evictRoutes hosts ports).1.get y =
      if y ∈ resources hosts ports then none else r.get y := by
  rw [evictRoutes_eq_foldl, get_evict_foldl]

theorem indexed_evictRoutes (h : r.Indexed) (hosts : List String) (ports : List UInt16) :
    (r.evictRoutes hosts ports).1.Indexed := by
  rw [evictRoutes_eq_foldl]
  exact indexed_evict_foldl _ h

/-! ## `remove_session` -/

/-- A loop of `remove_session` over a set of keys of one kind. -/
theorem get_remove_foldl {K : Type} (kind : K → Resource) (s : Nat)
    [RightCommutative fun (r : RouterInner) k => r.removeOne s (kind k)] (y : Resource)
    (ks : Multiset K) : ∀ r : RouterInner,
      (ks.foldl (fun r k => r.removeOne s (kind k)) r).get y =
        if y ∈ ks.map kind ∧ (r.get y).map (·.sessionId) = some s then none else r.get y := by
  induction ks using Multiset.induction with
  | empty => simp
  | cons k ks ih =>
    intro r
    rw [Multiset.foldl_cons, ih, get_removeOne]
    simp only [Multiset.map_cons, Multiset.mem_cons]
    by_cases hs : (r.get y).map (·.sessionId) = some s
    · rcases eq_or_ne y (kind k) with rfl | hk
      · simp only [hs, true_or, and_self, if_true, ite_self]
      · simp only [hs, hk, false_and, if_false, false_or]
    · simp only [hs, and_false, if_false]

theorem bySession_remove_foldl {K : Type} (kind : K → Resource) (s : Nat)
    [RightCommutative fun (r : RouterInner) k => r.removeOne s (kind k)] (ks : Multiset K) :
    ∀ r : RouterInner, (ks.foldl (fun r k => r.removeOne s (kind k)) r).bySession = r.bySession := by
  induction ks using Multiset.induction with
  | empty => simp
  | cons k ks ih => intro r; rw [Multiset.foldl_cons, ih, bySession_removeOne]

theorem bySession_removeSession (s : Nat) :
    (r.removeSession s).bySession = r.bySession.erase s := by
  unfold removeSession
  cases hset : r.bySession.lookup s with
  | none =>
    refine Finmap.ext_lookup fun t => ?_
    rw [Map.lookup_erase_ite]
    by_cases hts : t = s
    · rw [if_pos hts, hts]; exact hset
    · rw [if_neg hts]
  | some set => simp only [bySession_remove_foldl]

/-- **Teardown.** `remove_session(s)` removes the routes that point at `s` and no others. -/
theorem get_removeSession (h : r.Indexed) (s : Nat) (y : Resource) :
    (r.removeSession s).get y =
      if (r.get y).map (·.sessionId) = some s then none else r.get y := by
  have hy := h s y
  unfold removeSession
  cases hset : r.bySession.lookup s with
  | none =>
    simp only [claimSet, hset, Option.getD_none, ClaimSet.has_empty, false_iff] at hy
    rw [if_neg hy]
  | some set =>
    simp only [claimSet, hset, Option.getD_some] at hy
    have hget : ∀ z, ({ r with bySession := r.bySession.erase s } : RouterInner).get z = r.get z := by
      intro z; cases z <;> rfl
    have hmem : y ∈ set.hosts.val.map .host ∨ y ∈ set.ports.val.map .port ↔ set.Has y := by
      cases y <;> simp [ClaimSet.Has]
    rw [hy] at hmem
    simp only [get_remove_foldl, hget]
    by_cases hs : (r.get y).map (·.sessionId) = some s
    · rcases hmem.2 hs with hm | hm
      · simp only [hm, hs, and_self, if_true, Option.map_none, reduceCtorEq, and_false, if_false]
      · by_cases hp : y ∈ set.hosts.val.map .host <;>
          simp only [hm, hp, hs, and_self, false_and, if_true, if_false, ite_self]
    · simp only [hs, and_false, if_false]

theorem indexed_removeSession (h : r.Indexed) (s : Nat) : (r.removeSession s).Indexed := by
  intro t y
  rw [get_removeSession h, claimSet, bySession_removeSession, Map.lookup_erase_ite]
  have hy := h t y
  by_cases hts : t = s
  · subst hts
    by_cases hr : (r.get y).map (·.sessionId) = some t <;> simp [hr]
  · rw [claimSet] at hy
    simp only [hts, if_false, hy]
    by_cases hr : (r.get y).map (·.sessionId) = some s
    · simp only [hr, if_true, Option.map_none, reduceCtorEq, Option.some.injEq, iff_false]
      exact fun e => hts e.symm
    · simp [hr]

/-! ## Which sessions have an entry -/

/-- `by_session` has no entry for the session. -/
def Absent (r : RouterInner) (s : Nat) : Prop := r.bySession.lookup s = none

/-- `if let Some(set) = by_session.get_mut(..)` creates no entry. -/
theorem absent_unindex {s t : Nat} {x : Resource} : (r.unindex s x).Absent t ↔ r.Absent t := by
  unfold Absent unindex
  split
  · rename_i set hset
    rw [Map.lookup_insert_ite]
    by_cases hts : t = s
    · subst hts; simp [hset]
    · rw [if_neg hts]
  · exact Iff.rfl

/-- `by_session.entry(..).or_default()` does. -/
theorem absent_index {s t : Nat} {x : Resource} : (r.index s x).Absent t ↔ t ≠ s ∧ r.Absent t := by
  unfold Absent index
  rw [Map.lookup_insert_ite]
  by_cases hts : t = s
  · simp [hts]
  · simp [hts]

theorem absent_put {t : Nat} {x : Resource} : (r.put session x).Absent t ↔ r.Absent t := by
  cases x <;> exact Iff.rfl

theorem absent_drop {t : Nat} {x : Resource} : (r.drop x).Absent t ↔ r.Absent t := by
  cases x <;> exact Iff.rfl

theorem absent_claimOne {t : Nat} {x : Resource} :
    (claimOne session st x).1.Absent t ↔ t ≠ session.sessionId ∧ st.1.Absent t := by
  unfold claimOne
  cases hx : st.1.get x with
  | none => simp only [absent_index, absent_put]
  | some prev =>
    by_cases hp : prev.sessionId = session.sessionId
    · simp only [hp, ne_eq, not_true, if_false, absent_index, absent_put]
    · simp only [ne_eq, hp, not_false_eq_true, if_true, absent_index, absent_unindex, absent_put]

theorem absent_claim_foldl {t : Nat} : ∀ (xs : List Resource) {st : RouterInner × Affected},
    (xs.foldl (claimOne session) st).1.Absent t ↔
      (xs ≠ [] → t ≠ session.sessionId) ∧ st.1.Absent t
  | [], _ => by simp
  | x :: xs, _ => by
    rw [List.foldl_cons, absent_claim_foldl xs, absent_claimOne]
    constructor
    · rintro ⟨-, hne, h⟩; exact ⟨fun _ => hne, h⟩
    · rintro ⟨hne, h⟩; exact ⟨fun _ => hne (by simp), hne (by simp), h⟩

theorem absent_evictOne {t : Nat} {x : Resource} : (evictOne st x).1.Absent t ↔ st.1.Absent t := by
  unfold evictOne
  split
  · rw [absent_unindex, absent_drop]
  · exact Iff.rfl

theorem absent_evict_foldl {t : Nat} : ∀ (xs : List Resource) {st : RouterInner × Affected},
    (xs.foldl evictOne st).1.Absent t ↔ st.1.Absent t
  | [], _ => Iff.rfl
  | x :: xs, _ => by rw [List.foldl_cons, absent_evict_foldl xs, absent_evictOne]

end loops

/-- What `hostnames_of` lists, under the invariant. -/
theorem mem_hostnamesOf {r : RouterInner} (h : r.Indexed) {s : Nat} {host : String} :
    host ∈ r.hostnamesOf s ↔ (r.lookupHttp host).map (·.sessionId) = some s :=
  h s (.host host)

/-! ## Whole runs -/

/-- A call of one of the three methods that write the table. -/
inductive Call where
  | claim (session : SessionHandle) (hosts : List String) (ports : List UInt16)
  | removeSession (sessionId : Nat)
  | evictRoutes (hosts : List String) (ports : List UInt16)

def call (r : RouterInner) : Call → RouterInner
  | .claim session hosts ports => (r.claim session hosts ports).1
  | .removeSession s => r.removeSession s
  | .evictRoutes hosts ports => (r.evictRoutes hosts ports).1

theorem indexed_call {r : RouterInner} (h : r.Indexed) : ∀ c : Call, (r.call c).Indexed
  | .claim _ hosts ports => indexed_claim h hosts ports
  | .removeSession s => indexed_removeSession h s
  | .evictRoutes hosts ports => indexed_evictRoutes h hosts ports

/-- The table after a sequence of calls on the empty router. -/
def afterCalls (calls : List Call) : RouterInner := calls.foldl call {}

theorem indexed_afterCalls (calls : List Call) : (afterCalls calls).Indexed := by
  suffices ∀ r : RouterInner, r.Indexed → (calls.foldl call r).Indexed from this _ indexed_empty
  induction calls with
  | nil => exact fun _ h => h
  | cons c calls ih => exact fun _ h => ih _ (indexed_call h c)

/-- Membership in a session's claim set, with the entry it needs spelt out. -/
theorem has_claimSet {r : RouterInner} {s : Nat} {x : Resource} :
    (r.claimSet s).Has x ↔ ∃ set, r.bySession.lookup s = some set ∧ set.Has x := by
  unfold claimSet
  cases r.bySession.lookup s <;> simp

theorem routed_iff {o : Option SessionHandle} {s : Nat} :
    (∃ handle, o = some handle ∧ handle.sessionId = s) ↔ o.map (·.sessionId) = some s :=
  Option.map_eq_some_iff.symm

theorem get_removeSession_eq_some {r : RouterInner} (h : r.Indexed) {s : Nat} {x : Resource}
    {handle : SessionHandle} :
    (r.removeSession s).get x = some handle ↔ r.get x = some handle ∧ handle.sessionId ≠ s := by
  rw [get_removeSession h]
  cases hx : r.get x with
  | none => simp
  | some hd =>
    by_cases hs : hd.sessionId = s
    · simp only [Option.map_some, hs, if_true, Option.some.injEq, false_iff, reduceCtorEq]
      rintro ⟨rfl, hne⟩; exact hne hs
    · simp only [Option.map_some, Option.some.injEq, hs, if_false]
      constructor
      · rintro rfl; exact ⟨rfl, hs⟩
      · exact fun e => e.1

/-- **The reverse index represents the table.** After any sequence of calls: an entry points at `s`
iff `by_session[s]` lists it; `remove_session(s)` removes the entries that point at `s`, no other
entry, and the `by_session` entry of `s` alone; `hostnames_of(s)` is the set of hosts routed to
`s`. -/
theorem reverse_index_represents (calls : List Call) :
    let r := afterCalls calls
    (∀ s host, (∃ handle, r.http.lookup host = some handle ∧ handle.sessionId = s) ↔
      ∃ set, r.bySession.lookup s = some set ∧ host ∈ set.hosts) ∧
    (∀ s port, (∃ handle, r.tcp.lookup port = some handle ∧ handle.sessionId = s) ↔
      ∃ set, r.bySession.lookup s = some set ∧ port ∈ set.ports) ∧
    (∀ s host handle, (r.removeSession s).http.lookup host = some handle ↔
      r.http.lookup host = some handle ∧ handle.sessionId ≠ s) ∧
    (∀ s port handle, (r.removeSession s).tcp.lookup port = some handle ↔
      r.tcp.lookup port = some handle ∧ handle.sessionId ≠ s) ∧
    (∀ s t, (r.removeSession s).bySession.lookup t =
      if t = s then none else r.bySession.lookup t) ∧
    (∀ s host, host ∈ r.hostnamesOf s ↔
      ∃ handle, r.http.lookup host = some handle ∧ handle.sessionId = s) := by
  intro r
  have h : r.Indexed := indexed_afterCalls calls
  refine ⟨fun s host => ?_, fun s port => ?_, fun s host handle => ?_, fun s port handle => ?_,
    fun s t => ?_, fun s host => ?_⟩
  · rw [routed_iff]
    exact (h s (.host host)).symm.trans has_claimSet
  · rw [routed_iff]
    exact (h s (.port port)).symm.trans has_claimSet
  · exact get_removeSession_eq_some h (x := .host host)
  · exact get_removeSession_eq_some h (x := .port port)
  · rw [bySession_removeSession, Map.lookup_erase_ite]
  · rw [routed_iff]
    exact mem_hostnamesOf h

end RouterInner

/-! ## The router as its callers see it -/

/-- A routing table that its own methods built: the reverse index is right. -/
structure Router where
  inner : RouterInner
  indexed : inner.Indexed

namespace Router

variable (r : Router)

@[ext] theorem ext' {a b : Router} (h : a.inner = b.inner) : a = b := by
  cases a; cases b; simp_all

instance : DecidableEq Router := fun a b =>
  decidable_of_iff (a.inner = b.inner) ⟨ext', fun h => h ▸ rfl⟩

/-- `Router::new`. -/
def empty : Router := ⟨{}, RouterInner.indexed_empty⟩

def get (x : Resource) : Option SessionHandle := r.inner.get x

def claim (session : SessionHandle) (hosts : List String) (ports : List UInt16) : Router :=
  ⟨(r.inner.claim session hosts ports).1, RouterInner.indexed_claim r.indexed hosts ports⟩

/-- The pairs `claim` returns, whose handles are sent `Superseded`. -/
def superseded (session : SessionHandle) (hosts : List String) (ports : List UInt16) :
    RouterInner.Affected :=
  (r.inner.claim session hosts ports).2

def evictRoutes (hosts : List String) (ports : List UInt16) : Router :=
  ⟨(r.inner.evictRoutes hosts ports).1, RouterInner.indexed_evictRoutes r.indexed hosts ports⟩

/-- The pairs `evict_routes` returns. -/
def evicted (hosts : List String) (ports : List UInt16) : RouterInner.Affected :=
  (r.inner.evictRoutes hosts ports).2

def removeSession (s : Nat) : Router :=
  ⟨r.inner.removeSession s, RouterInner.indexed_removeSession r.indexed s⟩

def hostnamesOf (s : Nat) : Finset String := r.inner.hostnamesOf s

@[simp] theorem get_empty (x : Resource) : empty.get x = none := by cases x <;> rfl

@[simp] theorem get_claim (session : SessionHandle) (hosts : List String) (ports : List UInt16)
    (x : Resource) : (r.claim session hosts ports).get x =
      if x ∈ resources hosts ports then some session else r.get x :=
  RouterInner.get_claim hosts ports x

@[simp] theorem get_evictRoutes (hosts : List String) (ports : List UInt16) (x : Resource) :
    (r.evictRoutes hosts ports).get x = if x ∈ resources hosts ports then none else r.get x :=
  RouterInner.get_evictRoutes hosts ports x

theorem get_removeSession {s : Nat} {x : Resource} {handle : SessionHandle} :
    (r.removeSession s).get x = some handle ↔ r.get x = some handle ∧ handle.sessionId ≠ s :=
  RouterInner.get_removeSession_eq_some r.indexed

theorem mem_hostnamesOf {s : Nat} {host : String} :
    host ∈ r.hostnamesOf s ↔ (r.get (.host host)).map (·.sessionId) = some s :=
  RouterInner.mem_hostnamesOf r.indexed

/-! ### Sessions without an entry -/

/-- Nothing in the table is about session `s`. -/
structure Gone (s : Nat) : Prop where
  entry : r.inner.bySession.lookup s = none
  http : ∀ host handle, r.inner.http.lookup host = some handle → handle.sessionId ≠ s
  tcp : ∀ port handle, r.inner.tcp.lookup port = some handle → handle.sessionId ≠ s

variable {r}

/-- A session without an entry in the reverse index has no route. -/
theorem gone_iff {s : Nat} : r.Gone s ↔ r.inner.Absent s := by
  refine ⟨fun h => h.entry, fun h => ?_⟩
  have hnone : ∀ x handle, r.inner.get x = some handle → handle.sessionId ≠ s := by
    intro x handle hget hs
    have hhas := (r.indexed s x).2 (by rw [hget, Option.map_some, hs])
    obtain ⟨set, hset, -⟩ := RouterInner.has_claimSet.1 hhas
    rw [RouterInner.Absent, hset] at h
    cases h
  exact ⟨h, fun host => hnone (.host host), fun port => hnone (.port port)⟩

theorem gone_claim {session : SessionHandle} {hosts : List String} {ports : List UInt16} {s : Nat} :
    (r.claim session hosts ports).Gone s ↔
      (resources hosts ports ≠ [] → s ≠ session.sessionId) ∧ r.Gone s := by
  rw [gone_iff, gone_iff]
  show (r.inner.claim session hosts ports).1.Absent s ↔ _
  rw [RouterInner.claim_eq_foldl, RouterInner.absent_claim_foldl]

theorem gone_evictRoutes {hosts : List String} {ports : List UInt16} {s : Nat} :
    (r.evictRoutes hosts ports).Gone s ↔ r.Gone s := by
  rw [gone_iff, gone_iff]
  show (r.inner.evictRoutes hosts ports).1.Absent s ↔ _
  rw [RouterInner.evictRoutes_eq_foldl, RouterInner.absent_evict_foldl]

theorem gone_removeSession {s t : Nat} : (r.removeSession t).Gone s ↔ s = t ∨ r.Gone s := by
  rw [gone_iff, gone_iff, removeSession, RouterInner.Absent, RouterInner.bySession_removeSession,
    Map.lookup_erase_ite]
  by_cases hst : s = t
  · simp [hst]
  · simp [hst, RouterInner.Absent]

end Router

end EtherTunnel
