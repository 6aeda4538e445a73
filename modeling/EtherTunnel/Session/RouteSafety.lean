import EtherTunnel.Session.Moves

/-!
# Routes and ownership

A claim first asks the registry for every resource and then, in one router call, routes them all
(`session.rs:779`). What the registry said is not looked at again. If a row is deleted in between
(another session of the same user releases it, or the gate prunes it) the claim routes a name its user
no longer owns; the deletion's own `evict_routes` has run by then and removes nothing. The name may by
then be another tenant's (`stale_claim_routed`).

`routes_owned`: this is the only way. If no row is deleted while a session of its user holds it
checked, then every route is to a session of the owner, except those a deletion is about to evict.
-/

namespace EtherTunnel

open Threads

/-! ## The invariant -/

/-- No handler of the session is between its registry steps and its router step. -/
def Sess.AtRest (sess : Sess) : Prop := sess.checked = [] ∧ sess.pending = []

instance (sess : Sess) : Decidable sess.AtRest :=
  inferInstanceAs (Decidable (sess.checked = [] ∧ sess.pending = []))

/-- A step of the relay's own process: a session's, or the `add_user` of the license gate. -/
def RelayAct.inProcess : RelayAct → Bool
  | .env (.addUser .., _) => true
  | .env _ => false
  | _ => true

namespace SessionCtx

variable (ctx : SessionCtx)

/-- Rows are deleted only while no session of their user holds them checked. -/
abbrev DeletesApart : RelaySys → RelayAct → Prop := OnStep fun S t act =>
  ∀ p ∈ ctx.deleting S.shared t act, ∀ s ∈ S.threads, s.user = some p.1 → ∀ x ∈ p.2, x ∉ s.checked

/-- The user owns what the session has checked. -/
def CheckedOwned (S : RelaySys) : Prop :=
  ∀ t ∈ S.threads, ∀ u ∈ t.user, ∀ x ∈ t.checked, S.shared.db.owns ctx.domain u x = true

/-- A route is to a session of the owner, or about to be evicted. -/
def RoutesOwned (S : RelaySys) : Prop :=
  ∀ x handle, S.shared.router.get x = some handle →
    S.shared.db.owns ctx.domain handle.userId x = true ∨ ∃ t ∈ S.threads, x ∈ t.pending

/-- Both, and every handle is its session's. -/
structure RouteInv (S : RelaySys) : Prop where
  checked : ctx.CheckedOwned S
  routes : ctx.RoutesOwned S
  handled : Handled S

end SessionCtx

/-! ## Steps -/

/-- `add_user` touches no hostname and no port. -/
theorem owns_addUser {db : Db} {now : Int} {name domain : String} (faults : Faults) {u : Int}
    {x : Resource} (h : db.owns domain u x = true) :
    (Mutation.exec faults db (.addUser now name)).owns domain u x = true := by
  have hrows : (Mutation.exec faults db (.addUser now name)).hostnames = db.hostnames ∧
      (Mutation.exec faults db (.addUser now name)).tcpPorts = db.tcpPorts := by
    refine Txn.Keeps.run (I := fun d : Db => d.hostnames = db.hostnames ∧ d.tcpPorts = db.tcpPorts)
      ((Txn.keeps_map _ _).2 (keeps_addUser fun d id d' hd hi => ?_)) ⟨rfl, rfl⟩ faults
    obtain ⟨h1, h2⟩ := rows_insertUser hi
    exact ⟨h1.trans hd.1, h2.trans hd.2⟩
  cases x with
  | host n =>
    obtain ⟨l, hl, hown⟩ := Db.owns_host_iff.1 h
    refine Db.owns_host_iff.2 ⟨l, hl, ?_⟩
    rw [Db.hasLabel, hrows.1]; exact hown
  | port p =>
    rw [Db.owns, Db.hasPort, hrows.2]; exact h

theorem owns_env {db : Db} {m : Mutation} {faults : Faults} {domain : String} {u : Int} {x : Resource}
    (hproc : RelayAct.inProcess (.env (m, faults)) = true) (h : db.owns domain u x = true) :
    (m.exec faults db).owns domain u x = true := by
  cases m with
  | addUser now name => exact owns_addUser faults h
  | _ => cases hproc

section steps

variable {ctx : SessionCtx} {S S' : RelaySys} {a : RelayAct}

theorem checkedOwned_step (h : ctx.CheckedOwned S) (hproc : RelayAct.inProcess a = true)
    (hapart : ctx.DeletesApart S a) (hstep : ctx.relay S a = some S') : ctx.CheckedOwned S' := by
  cases relay_move hstep with
  | spawn =>
    intro s hs u hu x hx
    rcases List.mem_append.1 hs with hs | hs
    · exact h s hs u hu x hx
    · rw [List.mem_singleton.1 hs] at hx; cases hx
  | env m faults =>
    intro s hs u hu x hx
    exact owns_env hproc (h s hs u hu x hx)
  | @on i act t t' net' ht hmove =>
    -- what any session had checked its user still owns: the step deleted none of it
    have hkeep : ∀ s ∈ S.threads, ∀ u ∈ s.user, ∀ x ∈ s.checked,
        net'.db.owns ctx.domain u x = true := by
      intro s hs u hu x hx
      rcases hmove.db.keeps (h s hs u hu x hx) with hown | ⟨-, p, hp, rfl, hxp⟩
      · exact hown
      · exact absurd hx (hapart t ht p hp s hs hu x hxp)
    intro s hs u hu x hx
    obtain ⟨j, hj⟩ := List.mem_iff_getElem?.1 hs
    rcases getElem?_set_cases ht hj with ⟨-, rfl⟩ | ⟨-, hj⟩
    · rcases hmove.user with he | ⟨-, hnil⟩
      · rw [he] at hu
        rcases hmove.checked x hx with hold | ⟨v, hv, hown⟩
        · exact hkeep t (List.mem_of_getElem? ht) u hu x hold
        · rw [hu, Option.some.injEq] at hv
          rw [hv]; exact hown
      · rw [hnil] at hx; cases hx
    · exact hkeep s (List.mem_of_getElem? hj) u hu x hx

/-- A resource stays pending, until its route is gone. -/
theorem pending_step {i : Nat} {t t' s : Sess} {act : SessAct} {net' : Net} {x : Resource}
    (ht : S.threads[i]? = some t) (hmove : SessMove ctx i S.shared t act net' t') (hs : s ∈ S.threads)
    (hx : x ∈ s.pending) (hrouted : net'.router.get x ≠ none) :
    ∃ s' ∈ S.threads.set i t', x ∈ s'.pending := by
  obtain ⟨j, hj⟩ := List.mem_iff_getElem?.1 hs
  by_cases hji : j = i
  · subst hji
    rw [ht, Option.some.injEq] at hj
    subst hj
    rcases hmove.pending x hx with hx' | hnone
    · exact ⟨t', List.mem_of_getElem? (getElem?_set_moved ht), hx'⟩
    · exact absurd hnone hrouted
  · exact ⟨s, List.mem_of_getElem? (getElem?_set_other hji hj), hx⟩

theorem routesOwned_step (hchk : ctx.CheckedOwned S) (h : ctx.RoutesOwned S)
    (hproc : RelayAct.inProcess a = true) (hstep : ctx.relay S a = some S') : ctx.RoutesOwned S' := by
  intro x handle hget
  cases relay_move hstep with
  | spawn =>
    refine (h x handle hget).imp id ?_
    rintro ⟨t, ht, hx⟩
    exact ⟨t, List.mem_append_left _ ht, hx⟩
  | env m faults =>
    exact (h x handle hget).imp (owns_env hproc) id
  | @on i act t t' net' ht hmove =>
    have howned : S.shared.db.owns ctx.domain handle.userId x = true →
        net'.db.owns ctx.domain handle.userId x = true ∨ ∃ s ∈ S.threads.set i t', x ∈ s.pending := by
      intro hown
      refine (hmove.db.keeps hown).imp id ?_
      rintro ⟨hx, -⟩
      exact ⟨t', List.mem_of_getElem? (getElem?_set_moved ht), hx⟩
    rcases hmove.router.origin hget with hold | ⟨-, hu, -, hx⟩
    · rcases h x handle hold with hown | ⟨s, hs, hx⟩
      · exact howned hown
      · refine Or.inr (pending_step ht hmove hs hx ?_)
        rw [hget]; simp
    · exact howned (hchk t (List.mem_of_getElem? ht) handle.userId hu x hx)

theorem routeInv_step (h : ctx.RouteInv S) (hproc : RelayAct.inProcess a = true)
    (hapart : ctx.DeletesApart S a) (hstep : ctx.relay S a = some S') : ctx.RouteInv S' where
  checked := checkedOwned_step h.checked hproc hapart hstep
  routes := routesOwned_step h.checked h.routes hproc hstep
  handled := handled_step h.handled hstep

end steps

theorem routeInv_start (ctx : SessionCtx) (db : Db) : ctx.RouteInv (RelaySys.start db) where
  checked := by
    intro t ht u hu
    simp only [RelaySys.start, List.mem_singleton] at ht
    rw [ht] at hu; cases hu
  routes := by
    intro x handle hget
    simp [RelaySys.start] at hget
  handled := handled_start db

/-! ## Runs -/

/-- **Routes are to owners.** In every run of the relay's own process in which no row is deleted while
a session of its user holds it checked: when no handler is between its registry steps and its router
step, every route is to a session whose user owns the resource. -/
theorem routes_owned (ctx : SessionCtx) (db : Db) (sched : List RelayAct) {S : RelaySys}
    (hproc : ∀ a ∈ sched, RelayAct.inProcess a = true)
    (hapart : Lts.Steps ctx.relay ctx.DeletesApart (RelaySys.start db) sched)
    (hrun : Lts.run ctx.relay (RelaySys.start db) sched = some S)
    (hrest : ∀ t ∈ S.threads, t.AtRest) (x : Resource) (handle : SessionHandle)
    (hget : S.shared.router.get x = some handle) :
    S.shared.db.owns ctx.domain handle.userId x = true ∧
      ∃ t, S.threads[handle.sessionId]? = some t ∧ t.user = some handle.userId := by
  have hinv : ctx.RouteInv S :=
    Lts.run_inv (fun _ _ _ hi hg hstep => routeInv_step hi hg.1 hg.2 hstep) (routeInv_start ctx db)
      ((Lts.steps_of_forall hproc).and hapart) hrun
  refine ⟨?_, hinv.handled x handle hget⟩
  rcases hinv.routes x handle hget with hown | ⟨t, ht, hx⟩
  · exact hown
  · rw [(hrest t ht).2] at hx; cases hx

theorem routes_owned_releasedThenClaimed : ∃ S,
    Lts.run plainRelay.relay (RelaySys.start twoTenants) releasedThenClaimed = some S ∧
    S.shared.router.get (.host "shop.d.io") = some ⟨2, 2⟩ ∧
    S.shared.db.owns "d.io" 2 (.host "shop.d.io") = true := by
  refine ⟨_, rfl, by decide, ?_⟩
  exact (routes_owned plainRelay twoTenants releasedThenClaimed (by decide) (by decide) rfl (by decide)
    (.host "shop.d.io") ⟨2, 2⟩ (by decide)).1

/-- A session of `ann`'s has checked the name and is about to route it; another one of `ann`'s releases
it, and `bob` claims and serves it; then the first goes on. -/
def staleClaim : List RelayAct :=
  connects 1 1 ++ connects 2 1 ++ connects 3 2 ++ claims 1 "shop.d.io" ++
    releases 2 "shop.d.io" ++ [.on 2 .evict] ++ claims 3 "shop.d.io" ++ [.on 3 .route] ++ [.on 1 .route]

/-- With no handler under way, `bob`'s name is routed to `ann`. -/
theorem stale_claim_routed :
    (∀ a ∈ staleClaim, RelayAct.inProcess a = true) ∧
    ∃ S, Lts.run plainRelay.relay (RelaySys.start twoTenants) staleClaim = some S ∧
      (∀ t ∈ S.threads, t.AtRest) ∧
      S.shared.router.get (.host "shop.d.io") = some ⟨1, 1⟩ ∧
      S.shared.db.owns "d.io" 1 (.host "shop.d.io") = false ∧
      S.shared.db.owns "d.io" 2 (.host "shop.d.io") = true :=
  ⟨by decide, _, rfl, by decide, by decide, by decide, by decide⟩

end EtherTunnel
