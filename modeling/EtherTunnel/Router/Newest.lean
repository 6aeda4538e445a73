import EtherTunnel.Lib.LastWriter
import EtherTunnel.Router.Index

/-!
# Newest wins

For each resource the router is a last-writer-wins cell: `claim` writes the session's handle,
`evict_routes` clears it, `remove_session` clears it if it holds that session (`get_call`). So a route
is that of the latest claim naming the resource, unless it was evicted or its session removed since; a
superseded session does not come back when the newer one leaves (`newest_iff`).

`claim` and `evict_routes` return the handles that lost a route, for the caller to notify. Both walk
the request and append what each step took away; a step takes nothing away from a resource it has
already been at, so a name repeated in the request is reported once (`affected_foldl`).
-/

namespace EtherTunnel

namespace RouterInner

open LastWriter

/-! ## The table as last-writer-wins cells -/

/-- What a call does to the route of `x`. -/
def Call.event (x : Resource) : Call → Event SessionHandle
  | .claim session hosts ports => if x ∈ resources hosts ports then .write session else .keep
  | .removeSession s => .clear (·.sessionId == s)
  | .evictRoutes hosts ports => if x ∈ resources hosts ports then .clear fun _ => true else .keep

theorem get_call {r : RouterInner} (h : r.Indexed) (c : Call) (x : Resource) :
    (r.call c).get x = apply (r.get x) (c.event x) := by
  cases c with
  | claim session hosts ports =>
    rw [call, get_claim, Call.event]
    split <;> rfl
  | removeSession s =>
    rw [call, get_removeSession h, Call.event, apply]
    cases r.get x with
    | none => rfl
    | some handle => by_cases hs : handle.sessionId = s <;> simp [Option.filter, hs]
  | evictRoutes hosts ports =>
    rw [call, get_evictRoutes, Call.event]
    split
    · cases r.get x <;> rfl
    · rfl

theorem afterCalls_concat (calls : List Call) (c : Call) :
    afterCalls (calls ++ [c]) = (afterCalls calls).call c := by
  rw [afterCalls, List.foldl_append]; rfl

/-- **Refinement.** -/
theorem get_afterCalls (calls : List Call) (x : Resource) :
    (afterCalls calls).get x = value (calls.map (Call.event x)) := by
  induction calls using List.reverseRecOn with
  | nil => cases x <;> rfl
  | append_singleton calls c ih =>
    rw [afterCalls_concat, get_call (indexed_afterCalls calls), ih, List.map_append, List.map_singleton,
      value_concat]

/-- The call leaves a route of `x` to `handle` alone: it neither claims `x`, nor evicts it, nor
removes that session. -/
def Call.Spares (handle : SessionHandle) (x : Resource) : Call → Prop
  | .claim _ hosts ports => x ∉ resources hosts ports
  | .removeSession s => s ≠ handle.sessionId
  | .evictRoutes hosts ports => x ∉ resources hosts ports

/-- `handle` made the latest claim naming `x`, and nothing since has evicted `x` or removed the
session. -/
def Newest (calls : List Call) (handle : SessionHandle) (x : Resource) : Prop :=
  ∃ pre hosts ports post, calls = pre ++ .claim handle hosts ports :: post ∧
    x ∈ resources hosts ports ∧ ∀ c ∈ post, c.Spares handle x

theorem event_spares {handle : SessionHandle} {x : Resource} {c : Call} :
    (c.event x).Spares handle ↔ c.Spares handle x := by
  cases c with
  | claim session hosts ports =>
    by_cases hx : x ∈ resources hosts ports <;> simp [Call.event, Call.Spares, Event.Spares, hx]
  | removeSession s =>
    simp only [Call.event, Call.Spares, Event.Spares, beq_eq_false_iff_ne]
    exact ne_comm
  | evictRoutes hosts ports =>
    by_cases hx : x ∈ resources hosts ports <;> simp [Call.event, Call.Spares, Event.Spares, hx]

theorem event_eq_write {handle : SessionHandle} {x : Resource} {c : Call} :
    c.event x = .write handle ↔
      ∃ hosts ports, c = .claim handle hosts ports ∧ x ∈ resources hosts ports := by
  cases c with
  | claim session hosts ports =>
    by_cases hx : x ∈ resources hosts ports
    · simp only [Call.event, hx, if_true, Event.write.injEq, Call.claim.injEq]
      constructor
      · rintro rfl; exact ⟨hosts, ports, ⟨rfl, rfl, rfl⟩, hx⟩
      · rintro ⟨_, _, ⟨h, -, -⟩, -⟩; exact h
    · simp only [Call.event, hx, if_false, reduceCtorEq, false_iff]
      rintro ⟨_, _, ⟨⟩, hx'⟩; exact hx hx'
  | removeSession s => simp [Call.event]
  | evictRoutes hosts ports =>
    by_cases hx : x ∈ resources hosts ports <;> simp [Call.event, hx]

/-- **Newest wins.** -/
theorem newest_iff (calls : List Call) (handle : SessionHandle) (x : Resource) :
    (afterCalls calls).get x = some handle ↔ Newest calls handle x := by
  rw [get_afterCalls, value_map_eq_some]
  constructor
  · rintro ⟨pre, c, post, rfl, hc, hpost⟩
    obtain ⟨hosts, ports, rfl, hx⟩ := event_eq_write.1 hc
    exact ⟨pre, hosts, ports, post, rfl, hx, fun c hc => event_spares.1 (hpost c hc)⟩
  · rintro ⟨pre, hosts, ports, post, rfl, hx, hpost⟩
    exact ⟨pre, _, post, rfl, event_eq_write.2 ⟨hosts, ports, rfl, hx⟩,
      fun c hc => event_spares.2 (hpost c hc)⟩

/-! ## What `claim` and `evict_routes` return -/

/-- A loop that appends, for each resource, the handle its step takes the resource from. -/
theorem affected_foldl {f : RouterInner × Affected → Resource → RouterInner × Affected}
    {lost : RouterInner → Resource → Option SessionHandle}
    (hout : ∀ st x, (f st x).2 = st.2 ++ ((lost st.1 x).map (·, x)).toList)
    (hlost : ∀ st x y, lost (f st x).1 y = if y = x then none else lost st.1 y) :
    ∀ (xs : List Resource) (st : RouterInner × Affected), (st.2.map (·.2)).Nodup →
      (∀ a ∈ st.2, lost st.1 a.2 = none) →
      ((xs.foldl f st).2.map (·.2)).Nodup ∧
        ∀ handle x, (handle, x) ∈ (xs.foldl f st).2 ↔
          (handle, x) ∈ st.2 ∨ x ∈ xs ∧ lost st.1 x = some handle
  | [], st, hnodup, _ => ⟨hnodup, by simp⟩
  | x :: xs, st, hnodup, hdone => by
    have hmem : ∀ a, a ∈ (f st x).2 ↔ a ∈ st.2 ∨ lost st.1 x = some a.1 ∧ a.2 = x := by
      rintro ⟨handle, y⟩
      rw [hout, List.mem_append]
      cases lost st.1 x <;> simp [eq_comm]
    have hnodup' : ((f st x).2.map (·.2)).Nodup := by
      rw [hout]
      cases hx : lost st.1 x with
      | none => simpa using hnodup
      | some handle =>
        rw [List.map_append]
        refine hnodup.append (by simp) (List.disjoint_singleton.2 fun hin => ?_)
        obtain ⟨a, ha, rfl⟩ := List.mem_map.1 hin
        rw [hdone a ha] at hx; cases hx
    have hdone' : ∀ a ∈ (f st x).2, lost (f st x).1 a.2 = none := by
      intro a ha
      rw [hlost]
      rcases (hmem a).1 ha with ha | ⟨-, hax⟩
      · rw [hdone a ha, ite_self]
      · rw [if_pos hax]
    obtain ⟨hn, hiff⟩ := affected_foldl hout hlost xs (f st x) hnodup' hdone'
    refine ⟨hn, fun handle y => ?_⟩
    rw [List.foldl_cons, hiff, hmem, hlost]
    by_cases hyx : y = x
    · subst hyx; simp
    · simp [hyx]

/-- Whom a claim by `session` takes the resource from. -/
def supersedes (session : SessionHandle) (r : RouterInner) (x : Resource) : Option SessionHandle :=
  (r.get x).filter (·.sessionId != session.sessionId)

theorem claimOne_affected (session : SessionHandle) (st : RouterInner × Affected) (x : Resource) :
    (claimOne session st x).2 = st.2 ++ ((supersedes session st.1 x).map (·, x)).toList := by
  unfold claimOne supersedes
  cases hx : st.1.get x with
  | none => simp
  | some prev =>
    by_cases hp : prev.sessionId = session.sessionId <;> simp [Option.filter, hp]

theorem supersedes_claimOne (session : SessionHandle) (st : RouterInner × Affected) (x y : Resource) :
    supersedes session (claimOne session st x).1 y = if y = x then none else supersedes session st.1 y := by
  rw [supersedes, get_claimOne]
  split
  · simp [Option.filter]
  · rfl

theorem evictOne_affected (st : RouterInner × Affected) (x : Resource) :
    (evictOne st x).2 = st.2 ++ ((st.1.get x).map (·, x)).toList := by
  unfold evictOne
  cases hx : st.1.get x <;> simp

/-- `claim` reports each resource it took from another session once, with the handle it had. -/
theorem claim_affected {r : RouterInner} (session : SessionHandle) (hosts : List String)
    (ports : List UInt16) :
    ((r.claim session hosts ports).2.map (·.2)).Nodup ∧
      ∀ prev x, (prev, x) ∈ (r.claim session hosts ports).2 ↔
        x ∈ resources hosts ports ∧ r.get x = some prev ∧ prev.sessionId ≠ session.sessionId := by
  have h := affected_foldl (claimOne_affected session) (supersedes_claimOne session)
    (resources hosts ports) (r, []) (by simp) (by simp)
  rw [← claim_eq_foldl] at h
  refine ⟨h.1, fun prev x => (h.2 prev x).trans ?_⟩
  simp [supersedes, Option.filter_eq_some_iff]

/-- `evict_routes` reports each live resource it removed once, with the handle it had. -/
theorem evictRoutes_affected {r : RouterInner} (hosts : List String) (ports : List UInt16) :
    ((r.evictRoutes hosts ports).2.map (·.2)).Nodup ∧
      ∀ handle x, (handle, x) ∈ (r.evictRoutes hosts ports).2 ↔
        x ∈ resources hosts ports ∧ r.get x = some handle := by
  have h := @affected_foldl evictOne get evictOne_affected
    (fun _ x y => get_evictOne x y) (resources hosts ports) (r, []) (by simp) (by simp)
  rw [← evictRoutes_eq_foldl] at h
  exact ⟨h.1, fun handle x => (h.2 handle x).trans (by simp)⟩

/-! ## Claiming again -/

theorem insert_of_has {set : ClaimSet} {x : Resource} (h : set.Has x) : set.insert x = set := by
  cases x with
  | host n => simp only [ClaimSet.insert, Finset.insert_eq_of_mem (show n ∈ set.hosts from h)]
  | port p => simp only [ClaimSet.insert, Finset.insert_eq_of_mem (show p ∈ set.ports from h)]

theorem claimOne_held {r : RouterInner} (h : r.Indexed) {session : SessionHandle} {x : Resource}
    (hx : r.get x = some session) (affected : Affected) :
    claimOne session (r, affected) x = (r, affected) := by
  -- the session's set has the resource already, so neither map changes
  obtain ⟨set, hset, hhas⟩ := has_claimSet.1 ((h session.sessionId x).2 (by rw [hx]; rfl))
  have hput : r.put session x = r := by
    refine ext_get (fun y => ?_) (by cases x <;> rfl)
    rw [get_put]
    split
    · subst_vars; exact hx.symm
    · rfl
  have hindex : r.index session.sessionId x = r := by
    refine ext_get (fun y => get_index) (Finmap.ext_lookup fun t => ?_)
    simp only [index, claimSet, hset, Option.getD_some, insert_of_has hhas, Map.lookup_insert_ite]
    split
    · subst_vars; exact hset.symm
    · rfl
  simp [claimOne, hx, hput, hindex]

theorem claim_held {r : RouterInner} (h : r.Indexed) {session : SessionHandle} {hosts : List String}
    {ports : List UInt16} (hall : ∀ x ∈ resources hosts ports, r.get x = some session) :
    r.claim session hosts ports = (r, []) := by
  rw [claim_eq_foldl]
  generalize resources hosts ports = xs at hall
  induction xs with
  | nil => rfl
  | cons x xs ih =>
    rw [List.foldl_cons, claimOne_held h (hall x List.mem_cons_self)]
    exact ih fun y hy => hall y (List.mem_cons_of_mem _ hy)

/-! ## The router over whole histories -/

/-- **Newest wins, and every lost route is reported once.** After any sequence of calls:
* `lookup_http` and `lookup_tcp` answer the session of the latest claim naming the resource, if the
  resource has not been evicted nor that session removed since, and nothing otherwise;
* `claim` returns, once each, the resources it took from another session, with the handle they had;
* `evict_routes` returns each resource that was live once;
* claiming what the session already holds returns nothing and leaves the table as it is. -/
theorem newest_wins (calls : List Call) :
    let r := afterCalls calls
    (∀ host handle, r.lookupHttp host = some handle ↔ Newest calls handle (.host host)) ∧
    (∀ port handle, r.lookupTcp port = some handle ↔ Newest calls handle (.port port)) ∧
    (∀ session hosts ports,
      ((r.claim session hosts ports).2.map (·.2)).Nodup ∧
      ∀ prev x, (prev, x) ∈ (r.claim session hosts ports).2 ↔
        x ∈ resources hosts ports ∧ r.get x = some prev ∧ prev.sessionId ≠ session.sessionId) ∧
    (∀ hosts ports,
      ((r.evictRoutes hosts ports).2.map (·.2)).Nodup ∧
      ∀ handle x, (handle, x) ∈ (r.evictRoutes hosts ports).2 ↔
        x ∈ resources hosts ports ∧ r.get x = some handle) ∧
    (∀ session hosts ports, (∀ x ∈ resources hosts ports, r.get x = some session) →
      r.claim session hosts ports = (r, [])) :=
  ⟨fun host handle => newest_iff calls handle (.host host),
    fun port handle => newest_iff calls handle (.port port),
    claim_affected, evictRoutes_affected, fun _ _ _ => claim_held (indexed_afterCalls calls)⟩

/-- A superseded session does not get its route back when the newer one leaves. -/
example : (afterCalls [.claim ⟨1, 7⟩ ["a"] [], .claim ⟨2, 7⟩ ["a", "a"] [], .removeSession 2]).lookupHttp
    "a" = none := by decide

end RouterInner

end EtherTunnel
