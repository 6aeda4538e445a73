import EtherTunnel.Session.Moves

/-!
# Evictions and other tenants

Four callers first compute a list of names for a user and then hand it to `evict_routes`:
`handle_release` (`session.rs:840`), the ownership check of the tick (`:466`), and the gate after pruning
and after computing a cap's overhang (`polar.rs:881-945`). `evict_routes` removes by name; whose route it
removes it does not look at. If another tenant claims a listed name in between, the eviction takes
their route away, and nothing restores it (`eviction_hits_new_owner`).

`evictions_harmless`: while a name is on its way to an eviction for one user, let nobody else register
or route it; then no eviction ever removes a route of another user who owns the name.
-/

namespace EtherTunnel

open Threads

/-- The user a step evicts for, and what it evicts. -/
def Sess.evicts (sess : Sess) (act : SessAct) : Option (Int × List Resource) :=
  match sess.task, act with
  | .evict u hosts ports _, .evict => some (u, resources hosts ports)
  | _, _ => none

namespace SessionCtx

variable (ctx : SessionCtx)

/-- An eviction for a user removes no route of another user who owns the resource. -/
abbrev HarmlessEvictions : RelaySys → RelayAct → Prop := OnStep fun S t act =>
  ∀ p ∈ t.evicts act, ∀ x ∈ p.2, ∀ handle ∈ S.shared.router.get x, handle.userId ≠ p.1 →
    S.shared.db.owns ctx.domain handle.userId x = false

/-- What is listed for eviction is neither registered nor routed for another user. -/
def ListedApart (S : RelaySys) : RelayAct → Prop
  | .spawn => True
  | .on i act => ∀ t ∈ S.threads[i]?, ∀ v ∈ t.user, ∀ x ∈ t.acquiring act,
      ∀ s ∈ S.threads, ∀ p ∈ s.listing, x ∈ p.2 → p.1 = v
  | .env (m, _) => ∀ x ∈ m.inserts ctx.domain, ∀ s ∈ S.threads, ∀ p ∈ s.listing, x ∉ p.2

instance (S : RelaySys) : (a : RelayAct) → Decidable (ctx.ListedApart S a)
  | .spawn => .isTrue trivial
  | .on i act => inferInstanceAs (Decidable (∀ t ∈ S.threads[i]?, ∀ v ∈ t.user, ∀ x ∈ t.acquiring act,
      ∀ s ∈ S.threads, ∀ p ∈ s.listing, x ∈ p.2 → p.1 = v))
  | .env (m, _) => inferInstanceAs (Decidable (∀ x ∈ m.inserts ctx.domain, ∀ s ∈ S.threads,
      ∀ p ∈ s.listing, x ∉ p.2))

/-- Whoever a listed resource is routed to, other than the user it is listed for, does not own it. -/
def ListsHarmless (S : RelaySys) : Prop :=
  ∀ s ∈ S.threads, ∀ u x, s.Lists u x → ∀ handle, S.shared.router.get x = some handle →
    handle.userId ≠ u → ¬ S.shared.db.owns ctx.domain handle.userId x = true

structure EvictInv (S : RelaySys) : Prop where
  handled : Handled S
  lists : ctx.ListsHarmless S

end SessionCtx

/-! ## Steps -/

section steps

variable {ctx : SessionCtx} {S S' : RelaySys} {a : RelayAct}

/-- A resource that was listed before a session's step. -/
theorem listed_before {i : Nat} {act : SessAct} {t t' s : Sess} {net' : Net} {u : Int} {x : Resource}
    {handle : SessionHandle} (h : ctx.ListsHarmless S) (hapart : ctx.ListedApart S (.on i act))
    (ht : S.threads[i]? = some t) (hmove : SessMove ctx i S.shared t act net' t') (hs : s ∈ S.threads)
    (hlist : s.Lists u x) (hget : net'.router.get x = some handle) (hne : handle.userId ≠ u) :
    ¬ net'.db.owns ctx.domain handle.userId x = true := by
  -- a step that registered or routed `x` for `handle.userId` would have met the listing
  have hacq : t.user = some handle.userId → x ∉ t.acquiring act := by
    intro hu hx
    obtain ⟨p, hp, rfl, hxp⟩ := hlist
    exact hne (hapart t ht handle.userId hu x hx s hs p hp hxp).symm
  intro hown
  rcases hmove.db.gains hown with hown | ⟨hu, hx, -⟩
  · rcases hmove.router.origin hget with hold | ⟨-, hu, hx, -⟩
    · exact h s hs u x hlist handle hold hne hown
    · exact hacq hu hx
  · exact hacq hu hx

theorem listsHarmless_step (h : ctx.EvictInv S) (hapart : ctx.ListedApart S a)
    (hstep : ctx.relay S a = some S') : ctx.ListsHarmless S' := by
  intro s hs u x hlist handle hget hne
  cases relay_move hstep with
  | spawn =>
    rcases List.mem_append.1 hs with hs | hs
    · exact h.lists s hs u x hlist handle hget hne
    · rw [List.mem_singleton.1 hs] at hlist
      obtain ⟨p, hp, -⟩ := hlist
      cases hp
  | env m faults =>
    refine Mutation.exec_notOwned faults (fun hx => ?_) (h.lists s hs u x hlist handle hget hne)
    obtain ⟨p, hp, -, hxp⟩ := hlist
    exact hapart x hx s hs p hp hxp
  | @on i act t t' net' ht hmove =>
    obtain ⟨j, hj⟩ := List.mem_iff_getElem?.1 hs
    rcases getElem?_set_cases ht hj with ⟨-, rfl⟩ | ⟨-, hj⟩
    · rcases hmove.listed u x hlist with hold | honly | ⟨hu, hown⟩
      · exact listed_before h.lists hapart ht hmove (List.mem_of_getElem? ht) hold hget hne
      · -- newly listed, and nobody but `u` owned it
        intro hown
        rcases hmove.db.gains hown with hown | ⟨-, -, hnone⟩
        · exact hne (honly _ hown)
        · obtain ⟨p, hp, -⟩ := hlist
          rw [hnone] at hp; cases hp
      · -- newly listed, and routed to this very session
        exfalso
        rcases hmove.router.origin hget with hold | ⟨-, hu', -⟩
        · rw [hold, Option.map_some, Option.some.injEq] at hown
          obtain ⟨t₀, ht₀, hu₀⟩ := h.handled x handle hold
          rw [hown, ht, Option.some.injEq] at ht₀
          rw [ht₀, hu₀, Option.some.injEq] at hu
          exact hne hu
        · rw [hu', Option.some.injEq] at hu
          exact hne hu
    · exact listed_before h.lists hapart ht hmove (List.mem_of_getElem? hj) hlist hget hne

/-- What an eviction removes was listed. -/
theorem evicts_lists {t : Sess} {act : SessAct} {p : Int × List Resource} (h : t.evicts act = some p)
    {x : Resource} (hx : x ∈ p.2) : t.Lists p.1 x := by
  refine ⟨p, ?_, rfl, hx⟩
  unfold Sess.evicts at h
  split at h
  · rename_i htask
    unfold Sess.listing
    rw [htask]; exact h
  · cases h

end steps

/-! ## Runs -/

/-- What the invariant says of an eviction. -/
theorem SessionCtx.EvictInv.harmless {ctx : SessionCtx} {S : RelaySys} (h : ctx.EvictInv S) (a : RelayAct) :
    ctx.HarmlessEvictions S a := by
  cases a with
  | spawn => trivial
  | env e => trivial
  | on i act =>
    intro t ht p hp x hx handle hget hne
    have hlist := evicts_lists hp hx
    exact Bool.eq_false_iff.2 (h.lists t (List.mem_of_getElem? ht) p.1 x hlist handle hget hne)

theorem evictInv_start (ctx : SessionCtx) (db : Db) : ctx.EvictInv (RelaySys.start db) where
  handled := handled_start db
  lists := by
    intro s hs u x hlist handle hget
    simp [RelaySys.start] at hget

theorem evictInv_step {ctx : SessionCtx} {S S' : RelaySys} {a : RelayAct} (h : ctx.EvictInv S)
    (hapart : ctx.ListedApart S a) (hstep : ctx.relay S a = some S') : ctx.EvictInv S' :=
  ⟨handled_step h.handled hstep, listsHarmless_step h hapart hstep⟩

/-- **Evictions hit their own user's routes.** In every run in which nobody registers or routes a
resource while it is on its way to an eviction for someone else, no eviction removes a route of another
user who owns the resource at that moment. -/
theorem evictions_harmless (ctx : SessionCtx) (db : Db) (sched : List RelayAct)
    (hapart : Lts.Steps ctx.relay ctx.ListedApart (RelaySys.start db) sched) :
    Lts.Steps ctx.relay ctx.HarmlessEvictions (RelaySys.start db) sched :=
  Lts.steps_of_inv (fun _ _ _ hi hg hstep => evictInv_step hi hg hstep) (fun _ a hi _ => hi.harmless a)
    (evictInv_start ctx db) hapart

theorem evictions_harmless_releasedThenClaimed :
    (∃ S, Lts.run plainRelay.relay (RelaySys.start twoTenants) releasedThenClaimed = some S ∧
      S.shared.router.get (.host "shop.d.io") = some ⟨2, 2⟩) ∧
    Lts.Steps plainRelay.relay plainRelay.HarmlessEvictions (RelaySys.start twoTenants)
      releasedThenClaimed :=
  ⟨⟨_, rfl, by decide⟩, evictions_harmless plainRelay twoTenants releasedThenClaimed (by decide)⟩

/-- `ann` has released a name and not yet evicted it; `bob` claims and serves it. -/
def claimedBeforeEviction : List RelayAct :=
  connects 1 1 ++ connects 2 2 ++ releases 1 "shop.d.io" ++ claims 2 "shop.d.io" ++ [.on 2 .route]

/-- `ann`'s eviction removes `bob`'s route, to a name `bob` owns. -/
theorem eviction_hits_new_owner : ∃ S S',
    Lts.run plainRelay.relay (RelaySys.start twoTenants) claimedBeforeEviction = some S ∧
    plainRelay.relay S (.on 1 .evict) = some S' ∧
    S.threads.map (·.user) = [none, some 1, some 2] ∧
    S.shared.router.get (.host "shop.d.io") = some ⟨2, 2⟩ ∧
    S.shared.db.owns "d.io" 2 (.host "shop.d.io") = true ∧
    S'.shared.router.get (.host "shop.d.io") = none ∧
    ¬ plainRelay.HarmlessEvictions S (.on 1 .evict) :=
  ⟨_, _, rfl, rfl, by decide, by decide, by decide, by decide, by decide⟩

end EtherTunnel
