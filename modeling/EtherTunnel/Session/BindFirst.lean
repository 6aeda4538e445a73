import EtherTunnel.Session.Moves

/-!
# Bind before grant

A claim of a TCP port first makes sure that the relay listens on it (`ensure_bound`, `tcp.rs:71-108`), and
only then goes on to the gate, the hostnames and the router (`session.rs:616-653`, `:779`): a listener that
cannot be bound denies the claim. Listeners are never taken down, so whoever a port is routed to, however the
port changed hands in between, there is a listener for it.

`Sess.bound` is what a claim under way has bound; `sessStep_bound` is all that a step can do to it.
-/

namespace EtherTunnel

open Threads

namespace Sess

variable (sess : Sess)

/-- The ports that the claim has bound. -/
def bound : List UInt16 :=
  match sess.task with
  | .claimPorts _ done _ | .claimBind _ done _ _ => done
  | .claimGate _ ports | .claimHosts ports _ _ _ | .route _ ports => ports
  | _ => []

/-- The port that is to be bound next. -/
def binding : Option UInt16 :=
  match sess.task with
  | .claimBind _ _ port _ => some port
  | _ => none

end Sess

/-- The relay serves raw TCP and the port is in its range. -/
def SessionCtx.InRange (ctx : SessionCtx) (port : UInt16) : Prop :=
  ∃ manager, ctx.tcp = some manager ∧ manager.inRange port = true

/-- What a step can do to the listeners: a port is added that passed the range check, and a claim goes on
only with ports that have a listener. -/
structure BoundMove (ctx : SessionCtx) (net : Net) (sess : Sess) (net' : Net) (sess' : Sess) : Prop where
  grows : net.bound ⊆ net'.bound
  new : ∀ port ∈ net'.bound, port ∈ net.bound ∨ sess.binding = some port
  listens : ∀ port ∈ sess'.bound, port ∈ sess.bound ∨ port ∈ net'.bound
  ranged : ∀ port, sess'.binding = some port → sess.binding = some port ∨ ctx.InRange port

section moves

variable {ctx : SessionCtx} {i : Nat} {net net' : Net} {sess sess' : Sess} {act : SessAct} {u : Int}

/-- A step outside `ensure_bound`. -/
theorem BoundMove.same (hbound : net'.bound = net.bound) (hsess : ∀ port ∈ sess'.bound, port ∈ sess.bound)
    (hnext : sess'.binding = none) : BoundMove ctx net sess net' sess' where
  grows := hbound.ge
  new _ hport := .inl (hbound ▸ hport)
  listens port hport := .inl (hsess port hport)
  ranged port h := by rw [hnext] at h; cases h

/-- A task that is not in the middle of a claim. -/
theorem BoundMove.calm (hbound : net'.bound = net.bound) (hnone : sess'.bound = [])
    (hnext : sess'.binding = none) : BoundMove ctx net sess net' sess' :=
  .same hbound (by rw [hnone]; exact nofun) hnext

theorem authed_bound (sess : Sess) (u : Int) : (sess.authed u).bound = [] ∧ (sess.authed u).binding = none := by
  unfold Sess.authed
  split
  · exact ⟨rfl, rfl⟩
  · split <;> exact ⟨rfl, rfl⟩

theorem afterEvict_bound (sess : Sess) (u : Int) (after : After) :
    (sess.afterEvict u after).bound = [] ∧ (sess.afterEvict u after).binding = none := by
  cases after with
  | authed => exact authed_bound sess u
  | enforce | released | revoked => exact ⟨rfl, rfl⟩

theorem evicting_bound (sess : Sess) (u : Int) (hosts : List String) (ports : List UInt16) (after : After) :
    (sess.evicting u hosts ports after).bound = [] ∧ (sess.evicting u hosts ports after).binding = none := by
  unfold Sess.evicting
  split
  · exact afterEvict_bound sess u after
  · exact ⟨rfl, rfl⟩

theorem BoundMove.authed (s : Sess) (u : Int) (hbound : net'.bound = net.bound) :
    BoundMove ctx net sess net' (s.authed u) :=
  .calm hbound (authed_bound s u).1 (authed_bound s u).2

theorem BoundMove.evicting (s : Sess) (u : Int) (hosts : List String) (ports : List UInt16) (after : After)
    (hbound : net'.bound = net.bound) : BoundMove ctx net sess net' (s.evicting u hosts ports after) :=
  .calm hbound (evicting_bound s u hosts ports after).1 (evicting_bound s u hosts ports after).2

theorem next_bound (h : sess.next u = some sess') : BoundMove ctx net sess net sess' := by
  obtain ⟨torn, user, task⟩ := sess
  unfold Sess.next at h
  dsimp only at h
  split at h
  · cases h
    exact .same rfl (fun _ h => h) rfl
  · cases h
    exact .same rfl (fun _ h => h) rfl
  · cases h
    exact .calm rfl rfl rfl
  · cases h
    exact .evicting _ _ _ _ _ rfl
  · cases h
    exact .evicting _ _ _ _ _ rfl
  · cases h

/-- `ensure_bound` adds nothing but the port it is for. -/
theorem ensureBound_new {bound bound' : Finset UInt16} {port : UInt16} {answer : Except String Unit}
    {res : Except String Unit} (h : ensureBound bound port answer = (res, bound')) :
    bound ⊆ bound' ∧ ∀ p ∈ bound', p ∈ bound ∨ port = p := by
  unfold ensureBound at h
  split at h
  · cases h
    exact ⟨Finset.Subset.refl _, fun p hp => .inl hp⟩
  · split at h
    · cases h
      exact ⟨Finset.Subset.refl _, fun p hp => .inl hp⟩
    · cases h
      refine ⟨Finset.subset_insert .., fun p hp => ?_⟩
      rcases Finset.mem_insert.1 hp with rfl | hp
      · exact .inr rfl
      · exact .inl hp

theorem auth_bound {who : Option Int} {caps : Option (Option Int × Option Int)}
    (h : (match who, caps with
      | none, _ => some (net, sess.goto .done)
      | some u, none => some (net, sess.authed u)
      | some u, some (pooled, live) => some (net, sess.goto (.prune u pooled live))) = some (net', sess')) :
    BoundMove ctx net sess net' sess' := by
  split at h <;> cases h
  · exact .calm rfl rfl rfl
  · exact .authed _ _ rfl
  · exact .calm rfl rfl rfl

/-- **What a step can do to the listeners.** -/
theorem sessStep_bound (h : ctx.sessStep i net sess act = some (net', sess')) :
    BoundMove ctx net sess net' sess' := by
  obtain ⟨torn, user, task⟩ := sess
  unfold SessionCtx.sessStep at h
  dsimp only at h
  split at h
  · -- `teardown`
    split at h
    · cases h
    · cases h
      exact ⟨Finset.Subset.refl _, fun p hp => .inl hp, fun p hp => .inl hp, fun p hp => .inl hp⟩
  · exact auth_bound h
  · exact auth_bound h
  · -- `prune`
    split at h
    · cases h
      exact .calm rfl rfl rfl
    · cases h
      exact .evicting _ _ _ _ _ rfl
  · cases h
    exact .calm rfl rfl rfl
  · -- `overCap`
    split at h
    · cases h
      exact .authed _ _ rfl
    · cases h
      exact .evicting _ _ _ _ _ rfl
  · cases h
    exact .authed _ _ rfl
  · cases h
    exact .calm rfl (afterEvict_bound _ _ _).1 (afterEvict_bound _ _ _).2
  · -- `claim`
    split at h <;> cases h <;> exact .calm rfl rfl rfl
  · -- the range check
    split at h
    · cases h
      exact .calm rfl rfl rfl
    · rename_i hok
      cases h
      refine ⟨Finset.Subset.refl _, fun p hp => .inl hp, fun p hp => .inl hp, fun p hp => ?_⟩
      cases hp
      exact .inr (checkPort_ok hok).1
  · -- `ensure_bound`
    split at h
    · rename_i hbind
      obtain ⟨hgrows, hnew⟩ := ensureBound_new hbind
      cases h
      exact ⟨hgrows, fun p hp => (hnew p hp).imp_right (congrArg some), nofun, nofun⟩
    · rename_i hbind
      obtain ⟨hgrows, hnew⟩ := ensureBound_new hbind
      cases h
      refine ⟨hgrows, fun p hp => (hnew p hp).imp_right (congrArg some), fun p hp => ?_, nofun⟩
      rcases List.mem_append.1 hp with hp | hp
      · exact .inl hp
      · rw [List.mem_singleton.1 hp]
        exact .inr (ensureBound_ok hbind).1
  · -- the gate
    split at h
    · cases h
      exact .calm rfl rfl rfl
    · cases h
      exact .same rfl (fun _ h => h) rfl
    · split at h <;> cases h
      · exact .calm rfl rfl rfl
      · exact .same rfl (fun _ h => h) rfl
  · -- one hostname
    split at h <;> cases h
    · exact .calm rfl rfl rfl
    · exact .same rfl (fun _ h => h) rfl
  · cases h
    exact .calm rfl rfl rfl
  · -- `release`
    split at h <;> cases h <;> exact .calm rfl rfl rfl
  · cases h
    exact .calm rfl rfl rfl
  · cases h
    exact .calm rfl rfl rfl
  · split at h <;> cases h
    exact .calm rfl rfl rfl
  · cases h
    exact .calm rfl rfl rfl
  · rename_i stop
    cases h
    cases stop <;> exact .calm rfl rfl rfl
  · obtain ⟨s, hs, heq⟩ := Option.map_eq_some_iff.1 h
    cases heq
    exact next_bound hs
  · cases h
    exact .calm rfl rfl rfl
  · cases h
    exact .calm rfl rfl rfl
  · cases h

end moves

/-! ## Runs -/

/-- Every listener is in range; every port that is routed, or that a claim is about to route, has one. -/
structure BindFirst (ctx : SessionCtx) (S : RelaySys) : Prop where
  ranged : ∀ port ∈ S.shared.bound, ctx.InRange port
  routed : ∀ port handle, S.shared.router.get (.port port) = some handle → port ∈ S.shared.bound
  claimed : ∀ sess ∈ S.threads, ∀ port ∈ sess.bound, port ∈ S.shared.bound
  binding : ∀ sess ∈ S.threads, ∀ port, sess.binding = some port → ctx.InRange port

theorem bindFirst_start (ctx : SessionCtx) (db : Db) : BindFirst ctx (.start db) where
  ranged port h := absurd h (Finset.notMem_empty port)
  routed port handle h := by simp [RelaySys.start] at h
  claimed sess hsess port h := by rw [List.mem_singleton.1 hsess] at h; cases h
  binding sess hsess port h := by rw [List.mem_singleton.1 hsess] at h; cases h

section steps

variable {ctx : SessionCtx} {S S' : RelaySys} {a : RelayAct}

/-- What is about to be routed is bound. -/
theorem port_mem_bound {sess : Sess} {act : SessAct} {port : UInt16} (h : .port port ∈ sess.acquiring act) :
    port ∈ sess.bound := by
  unfold Sess.acquiring at h
  split at h
  · cases List.mem_singleton.1 h
  · rename_i htask
    unfold Sess.bound
    rw [htask]
    exact port_mem_resources.1 h
  · cases h

theorem bindFirst_step (h : BindFirst ctx S) (hstep : ctx.relay S a = some S') : BindFirst ctx S' := by
  cases a with
  | spawn =>
    cases hstep
    refine ⟨h.ranged, h.routed, fun sess hsess => ?_, fun sess hsess => ?_⟩
    · rcases List.mem_append.1 hsess with hsess | hsess
      · exact h.claimed sess hsess
      · rw [List.mem_singleton.1 hsess]
        exact nofun
    · rcases List.mem_append.1 hsess with hsess | hsess
      · exact h.binding sess hsess
      · rw [List.mem_singleton.1 hsess]
        exact nofun
  | env e =>
    cases hstep
    exact ⟨h.ranged, h.routed, h.claimed, h.binding⟩
  | on i act =>
    obtain ⟨t, net', t', ht, hsess, rfl⟩ := step_on hstep
    have hmem : t ∈ S.threads := List.mem_of_getElem? ht
    have hmove := sessStep_bound hsess
    refine ⟨fun port hport => ?_, fun port handle hget => ?_, fun s hs port hport => ?_, fun s hs port hport => ?_⟩
    · rcases hmove.new port hport with hold | hnew
      · exact h.ranged port hold
      · exact h.binding t hmem port hnew
    · rcases (sessStep_move hsess).router.origin hget with hold | ⟨-, -, hx, -⟩
      · exact hmove.grows (h.routed port handle hold)
      · exact hmove.grows (h.claimed t hmem port (port_mem_bound hx))
    · obtain ⟨j, hj⟩ := List.mem_iff_getElem?.1 hs
      rcases getElem?_set_cases ht hj with ⟨-, rfl⟩ | ⟨-, hj⟩
      · rcases hmove.listens port hport with hold | hnew
        · exact hmove.grows (h.claimed t hmem port hold)
        · exact hnew
      · exact hmove.grows (h.claimed s (List.mem_of_getElem? hj) port hport)
    · obtain ⟨j, hj⟩ := List.mem_iff_getElem?.1 hs
      rcases getElem?_set_cases ht hj with ⟨-, rfl⟩ | ⟨-, hj⟩
      · rcases hmove.ranged port hport with hold | hnew
        · exact h.binding t hmem port hold
        · exact hnew
      · exact h.binding s (List.mem_of_getElem? hj) port hport

theorem bound_step (hstep : ctx.relay S a = some S') : S.shared.bound ⊆ S'.shared.bound := by
  cases a with
  | spawn | env e =>
    cases hstep
    exact Finset.Subset.refl _
  | on i act =>
    obtain ⟨t, net', t', -, hsess, rfl⟩ := step_on hstep
    exact (sessStep_bound hsess).grows

end steps

/-- **Bind before grant.** Whatever the sessions, the operator and the gate do, in any interleaving: a port
that is routed to anybody is one the relay listens on, and one of the configured range; no other port is
ever listened on, and no listener goes. -/
theorem routed_ports_bound (ctx : SessionCtx) (db : Db) (sched later : List RelayAct) (S S' : RelaySys)
    (hrun : Lts.run ctx.relay (.start db) sched = some S) (hlater : Lts.run ctx.relay S later = some S') :
    (∀ port handle, S.shared.router.get (.port port) = some handle → port ∈ S.shared.bound) ∧
    (∀ port ∈ S.shared.bound, ctx.InRange port) ∧ S.shared.bound ⊆ S'.shared.bound := by
  have hS : BindFirst ctx S :=
    Lts.run_inv (G := fun _ _ => True) (fun _ _ _ h _ hs => bindFirst_step h hs) (bindFirst_start ctx db)
      (Lts.steps_of_forall fun _ _ => trivial) hrun
  refine ⟨hS.routed, hS.ranged, ?_⟩
  exact Lts.run_inv (I := fun T => S.shared.bound ⊆ T.shared.bound) (G := fun _ _ => True)
    (fun _ _ _ h _ hs => h.trans (bound_step hs)) (Finset.Subset.refl _)
    (Lts.steps_of_forall fun _ _ => trivial) hlater

def portRelay : SessionCtx := ⟨"d.io", some ⟨20000, 20010⟩, none⟩

/-- `bob` claims the port; a second session of theirs takes it over. -/
def takenOver : List RelayAct :=
  connects 1 2 ++ connects 2 2 ++ [1, 2].flatMap fun i =>
    [.on i (.claim [] [20000]), .on i (.check []), .on i (.bind (.ok ())), .on i .next, .on i (.gate (.ok none)),
      .on i .next, .on i .route]

theorem routed_ports_bound_takenOver : ∃ S,
    Lts.run portRelay.relay (.start twoTenants) takenOver = some S ∧
    S.shared.router.get (.port 20000) = some ⟨2, 2⟩ ∧ 20000 ∈ S.shared.bound := by
  refine ⟨_, rfl, by decide, ?_⟩
  exact (routed_ports_bound portRelay twoTenants takenOver [] _ _ rfl rfl).1 20000 ⟨2, 2⟩ (by decide)

end EtherTunnel
