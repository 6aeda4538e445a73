import EtherTunnel.Session.Moves

/-!
# Sessions that are gone

When a session's loop ends, `run_session` cancels its token and removes it from the router
(`session.rs:302-303`). The control task runs on: nobody awaits or aborts it, and a handler that is
waiting for a listener or for the license gate does not watch the token. When such a claim goes on, its
`router.claim` (`:779`) points routes at the dead session, takes them over from whoever serves them
now, and makes a new entry in the reverse index that no `remove_session` will ever take out
(`late_claim_routed`).

`torn_sessions_gone`: this late call is the only thing that can bring a removed session back. The
routing table stays free of removed sessions exactly as long as none of them claims anything.
-/

namespace EtherTunnel

open Threads

/-- What a step puts into the routing table. -/
def Sess.routing (sess : Sess) (act : SessAct) : List Resource :=
  match sess.user, sess.task, act with
  | some _, .route hosts ports, .route => resources hosts ports
  | _, _, _ => []

/-- The routing table knows nothing of a session that `run_session` has removed. -/
def TornGone (S : RelaySys) : Prop :=
  ∀ i t, S.threads[i]? = some t → t.torn = true → S.shared.router.Gone i

/-- A session that has been removed routes nothing. -/
abbrev LateRoutesNothing : RelaySys → RelayAct → Prop := OnStep fun _ t act =>
  t.torn = true → t.routing act = []

/-! ## Steps -/

section steps

variable {ctx : SessionCtx} {i : Nat} {net net' : Net} {sess sess' : Sess} {act : SessAct}

/-- The router after a step, seen from session `j`. -/
theorem RouterMove.gone {router' : Router} (h : RouterMove i net sess act router') {j : Nat}
    (hj : net.router.Gone j) (hroute : j = i → sess.routing act = []) : router'.Gone j := by
  cases h with
  | same => exact hj
  | @routes u hosts ports huser htask hact =>
    refine Router.gone_claim.2 ⟨fun hne hji => hne ?_, hj⟩
    have := hroute hji
    unfold Sess.routing at this
    rw [huser, htask, hact] at this
    exact this
  | evicts _ _ => exact Router.gone_evictRoutes.2 hj
  | tears _ _ => exact Router.gone_removeSession.2 (Or.inr hj)

/-- A step that routes something is enabled and leaves its session in the table. -/
theorem routing_step (hroute : sess.routing act ≠ []) (ctx : SessionCtx) (i : Nat) (net : Net) :
    ∃ net' sess', ctx.sessStep i net sess act = some (net', sess') ∧ ¬ net'.router.Gone i := by
  obtain ⟨torn, user, task⟩ := sess
  unfold Sess.routing at hroute
  dsimp only at hroute
  split at hroute
  · refine ⟨_, _, rfl, fun hgone => ?_⟩
    exact (Router.gone_claim.1 hgone).1 hroute rfl
  · exact absurd rfl hroute

end steps

section relay

variable {ctx : SessionCtx} {S S' : RelaySys} {a : RelayAct}

theorem tornGone_step (h : TornGone S) (hlate : LateRoutesNothing S a)
    (hstep : ctx.relay S a = some S') : TornGone S' := by
  intro j s hj htorn
  cases relay_move hstep with
  | spawn =>
    rcases getElem?_spawn hj with hj | rfl
    · exact h j s hj htorn
    · cases htorn
  | env m faults => exact h j s hj htorn
  | @on i act t t' net' ht hmove =>
    rcases getElem?_set_cases ht hj with ⟨rfl, rfl⟩ | ⟨hji, hj⟩
    · rcases hmove.torn with hsame | ⟨-, hrouter⟩
      · rw [hsame] at htorn
        exact hmove.router.gone (h j t ht htorn) fun _ => hlate t ht htorn
      · rw [hrouter]
        exact Router.gone_removeSession.2 (Or.inl rfl)
    · exact hmove.router.gone (h j s hj htorn) fun hji' => absurd hji' hji

/-- A removed session that routes something is back in the table. -/
theorem lateRoutesNothing_of_tornGone (hstep : ctx.relay S a = some S') (h : TornGone S') :
    LateRoutesNothing S a := by
  cases a with
  | spawn => trivial
  | env e => trivial
  | on i act =>
    intro t ht htorn
    by_contra hroute
    obtain ⟨net', t', hs, hback⟩ := routing_step hroute ctx i S.shared
    obtain ⟨_, _, _, ht', hs', rfl⟩ := step_on hstep
    rw [Option.mem_def, ht', Option.some.injEq] at ht
    subst ht
    rw [hs, Option.some.injEq, Prod.mk.injEq] at hs'
    obtain ⟨rfl, rfl⟩ := hs'
    refine hback (h i t' (getElem?_set_moved ht') ?_)
    exact (sessStep_move hs).torn.elim (fun e => e.trans htorn) And.left

theorem lateRoutesNothing_of_disabled (hstep : ctx.relay S a = none) : LateRoutesNothing S a := by
  cases a with
  | spawn => trivial
  | env e => trivial
  | on i act =>
    intro t ht _
    by_contra hroute
    obtain ⟨net', t', hs, -⟩ := routing_step hroute ctx i S.shared
    rw [Option.mem_def] at ht
    simp [SessionCtx.relay, Threads.step, ht, hs] at hstep

end relay

/-! ## Runs -/

/-- **No route to a dead session, unless it claims late.** Over any schedule of any number of sessions
and of registry changes from outside: every state passed through is free of routes and index entries of
removed sessions iff no removed session's `router.claim` has anything to route. -/
theorem torn_sessions_gone (ctx : SessionCtx) (db : Db) (sched : List RelayAct) :
    Lts.Always ctx.relay TornGone (RelaySys.start db) sched ↔
      Lts.Steps ctx.relay LateRoutesNothing (RelaySys.start db) sched := by
  refine Lts.always_iff_steps (fun S a S' h hlate hstep => tornGone_step h hlate hstep)
    (fun S a S' _ hstep h => lateRoutesNothing_of_tornGone hstep h)
    (fun S a hstep => lateRoutesNothing_of_disabled hstep) ?_
  intro i t ht _
  exact Router.gone_iff.2 rfl

/-- A session of `ann`'s is waiting for the license gate in a claim when its connection ends. `ann`
reconnects and serves the name from the new session; then the claim of the dead one goes on. -/
def lateClaim : List RelayAct :=
  connects 1 1 ++ connects 2 1 ++
    [.on 1 (.claim ["shop.d.io"] []), .on 1 .next, .on 1 .teardown] ++
    claims 2 "shop.d.io" (some (.cap 2)) ++ [.on 2 .route] ++
    [.on 1 (.gate (.ok (some (.cap 2)))), .on 1 (.host ⟨9, []⟩), .on 1 .next]

/-- The late claim takes the route over from the live session and leaves an entry for the dead one. -/
theorem late_claim_routed : ∃ S S',
    Lts.run licensedRelay.relay (RelaySys.start twoTenants) lateClaim = some S ∧
    licensedRelay.relay S (.on 1 .route) = some S' ∧
    S.threads.map (·.torn) = [true, true, false] ∧
    S.shared.router.get (.host "shop.d.io") = some ⟨2, 1⟩ ∧
    S.shared.router.inner.bySession.lookup 1 = none ∧
    S'.threads.map (·.torn) = [true, true, false] ∧
    S'.shared.router.get (.host "shop.d.io") = some ⟨1, 1⟩ ∧
    S'.shared.router.inner.bySession.lookup 1 = some { hosts := {"shop.d.io"} } :=
  ⟨_, _, rfl, rfl, by decide, by decide, by decide, by decide, by decide, by decide⟩

end EtherTunnel
