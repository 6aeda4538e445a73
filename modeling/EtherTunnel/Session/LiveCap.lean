import EtherTunnel.Session.Moves

/-!
# The cap on live routes

After a downgrade a customer may own more than their plan's cap `L`: the routes past the cap are
evicted, the reservations kept for a grace period (`polar.rs:856-925`). "A reconnect re-claims and is
refused by the same cap, so nothing silently comes back" (`polar.rs:902`). What refuses it is the count
of `projected_tunnel_count` (`session.rs:690-697`), since the registry's own cap lets a user re-claim
what they own (`registry.rs:497`). The count is taken under one lock and the claim's routes are made,
much later, under another. Two sessions of the customer that count before either routes are both let
through (`both_let_through`).

`live_routes_within_cap`: this is the only way. If the customer's claims come to the count one at a
time, each after the one before it has made its routes or been refused, the cap holds throughout.
-/

namespace EtherTunnel

open Threads

/-! ## Routes of a user -/

namespace RouterInner

variable (r : RouterInner)

/-- The hostnames and ports routed to sessions of the user. -/
def routedTo (u : Int) : Finset Resource :=
  (r.http.keys.filter fun h => (r.http.lookup h).any (·.userId == u)).image .host ∪
    (r.tcp.keys.filter fun p => (r.tcp.lookup p).any (·.userId == u)).image .port

variable {r} {u : Int}

theorem mem_routedTo {x : Resource} :
    x ∈ r.routedTo u ↔ ∃ handle, r.get x = some handle ∧ handle.userId = u := by
  cases x with
  | host h =>
    simp only [routedTo, get, Finset.mem_union, Finset.mem_image, Finset.mem_filter, Finmap.mem_keys,
      ← Finmap.lookup_isSome]
    cases hh : r.http.lookup h <;> simp [hh]
  | port p =>
    simp only [routedTo, get, Finset.mem_union, Finset.mem_image, Finset.mem_filter, Finmap.mem_keys,
      ← Finmap.lookup_isSome]
    cases hp : r.tcp.lookup p <;> simp [hp]

/-- `projected_tunnel_count` counts the user's routes together with the request. -/
theorem projectedTunnelCount_eq (hosts : List String) (ports : List UInt16) :
    r.projectedTunnelCount u hosts ports = (r.routedTo u ∪ (resources hosts ports).toFinset).card := by
  have hsplit : r.routedTo u ∪ (resources hosts ports).toFinset =
      ((r.http.keys.filter fun h => (r.http.lookup h).any (·.userId == u)) ∪ hosts.toFinset).image .host ∪
      ((r.tcp.keys.filter fun p => (r.tcp.lookup p).any (·.userId == u)) ∪ ports.toFinset).image .port := by
    ext x
    cases x <;> simp [routedTo]
  rw [hsplit, Finset.card_union_of_disjoint,
    Finset.card_image_of_injective _ fun _ _ h => Resource.host.inj h,
    Finset.card_image_of_injective _ fun _ _ h => Resource.port.inj h]
  · rfl
  · rw [Finset.disjoint_left]
    simp

end RouterInner

/-- The hostnames and ports routed to sessions of the user. -/
def Router.routedTo (r : Router) (u : Int) : Finset Resource := r.inner.routedTo u

theorem Router.mem_routedTo {r : Router} {u : Int} {x : Resource} :
    x ∈ r.routedTo u ↔ ∃ handle, r.get x = some handle ∧ handle.userId = u :=
  RouterInner.mem_routedTo

/-! ## Claims past the count -/

/-- What a claim that has passed the count, and not yet come to `router.claim`, will route. -/
def Sess.admitted (sess : Sess) : Option (List Resource) :=
  match sess.task with
  | .claimHosts ports _ done todo => some (resources (done ++ todo) ports)
  | .route hosts ports => some (resources hosts ports)
  | _ => none

/-- The gate's decision that a step meets, `none` on a relay without one. -/
def SessAct.decision : SessAct → Option (Option CapDecision)
  | .gate (.ok decision) => some decision
  | _ => none

/-- `cap_for` answers `Cap(L)` whenever a session of the customer asks. -/
abbrev CapStays (u L : Int) : RelaySys → RelayAct → Prop := OnStep fun _ t act =>
  t.user = some u → ∀ decision ∈ act.decision, decision = some (.cap L)

/-- A session of the customer comes to the count only while no claim of the customer is past it. -/
abbrev CountsAlone (u : Int) : RelaySys → RelayAct → Prop := OnStep fun S t act =>
  t.user = some u → act.decision.isSome → ∀ s ∈ S.threads, s.user = some u → s.admitted = none

/-! ## Steps -/

section steps

variable {ctx : SessionCtx} {i : Nat} {net net' : Net} {sess sess' : Sess} {act : SessAct}

/-- How a step comes to hold an admitted claim: it held it before, or the count let it through. -/
inductive Admits (net : Net) (sess : Sess) (act : SessAct) (sess' : Sess) (xs : List Resource) : Prop where
  | before (huser : sess'.user = sess.user) (h : sess.admitted = some xs)
  | counted {u : Int} {decision : Option CapDecision} (huser : sess.user = some u)
      (huser' : sess'.user = sess.user) (hact : act.decision = some decision)
      (hcount : ∀ m, decision = some (.cap m) →
        ((net.router.routedTo u ∪ xs.toFinset).card : Int) ≤ m)

theorem admits_of_capCheck {u : Int} {hosts : List String} {ports : List UInt16} {decision : CapDecision}
    {cap : Option Int} (h : SessionCtx.capCheck decision net.router u hosts ports = .ok cap) (m : Int)
    (hm : decision = .cap m) :
    ((net.router.routedTo u ∪ (resources hosts ports).toFinset).card : Int) ≤ m := by
  subst hm
  simp only [SessionCtx.capCheck] at h
  split at h
  · cases h
  · rename_i hle
    rw [RouterInner.projectedTunnelCount_eq] at hle
    exact Int.not_lt.1 hle

theorem authed_admitted (sess : Sess) (u : Int) : (sess.authed u).admitted = none := by
  unfold Sess.authed
  split
  · rfl
  · split <;> rfl

theorem afterEvict_admitted (sess : Sess) (u : Int) (after : After) :
    (sess.afterEvict u after).admitted = none := by
  cases after with
  | authed => exact authed_admitted sess u
  | enforce | released | revoked => rfl

theorem evicting_admitted (sess : Sess) (u : Int) (hosts : List String) (ports : List UInt16)
    (after : After) : (sess.evicting u hosts ports after).admitted = none := by
  unfold Sess.evicting
  split
  · exact afterEvict_admitted sess u after
  · rfl

theorem admits_next {u : Int} {xs : List Resource} (h : sess.next u = some sess')
    (hxs : sess'.admitted = some xs) : Admits net sess act sess' xs := by
  obtain ⟨torn, user, task⟩ := sess
  unfold Sess.next at h
  dsimp only at h
  split at h
  · cases h; cases hxs
  · cases h
    refine .before rfl ?_
    rw [← hxs]
    simp [Sess.admitted, Sess.goto]
  · cases h; cases hxs
  · cases h; rw [evicting_admitted] at hxs; cases hxs
  · cases h; rw [evicting_admitted] at hxs; cases hxs
  · cases h

/-- **Only the count admits a claim.** -/
theorem sessStep_admits (h : ctx.sessStep i net sess act = some (net', sess')) {xs : List Resource}
    (hxs : sess'.admitted = some xs) : Admits net sess act sess' xs := by
  obtain ⟨torn, user, task⟩ := sess
  unfold SessionCtx.sessStep at h
  dsimp only at h
  split at h
  · split at h
    · cases h
    · cases h; exact .before rfl hxs
  · split at h <;> cases h <;> first | cases hxs | (rw [authed_admitted] at hxs; cases hxs)
  · split at h <;> cases h <;> first | cases hxs | (rw [authed_admitted] at hxs; cases hxs)
  · split at h <;> cases h
    · cases hxs
    · rw [evicting_admitted] at hxs; cases hxs
  · cases h; cases hxs
  · split at h <;> cases h
    · rw [authed_admitted] at hxs; cases hxs
    · rw [evicting_admitted] at hxs; cases hxs
  · cases h; rw [authed_admitted] at hxs; cases hxs
  · cases h; rw [afterEvict_admitted] at hxs; cases hxs
  · split at h <;> cases h <;> cases hxs
  · split at h <;> cases h <;> cases hxs
  · split at h <;> cases h <;> cases hxs
  · -- the gate
    split at h
    · cases h; cases hxs
    · cases h
      exact .counted rfl rfl rfl fun m hm => nomatch hm
    · split at h
      · cases h; cases hxs
      · rename_i hok
        cases h
        cases hxs
        exact .counted rfl rfl rfl fun m hm => admits_of_capCheck hok m (Option.some.inj hm)
  · split at h
    · cases h; cases hxs
    · cases h
      refine .before rfl ?_
      rw [← hxs]
      simp [Sess.admitted, Sess.goto]
  · cases h; cases hxs
  · split at h <;> cases h <;> cases hxs
  · cases h; cases hxs
  · cases h; cases hxs
  · split at h <;> cases h; cases hxs
  · cases h; cases hxs
  · cases h; split at hxs <;> cases hxs
  · obtain ⟨sess'', hnext, hs⟩ := Option.map_eq_some_iff.1 h
    cases hs
    exact admits_next hnext hxs
  · cases h; cases hxs
  · cases h; cases hxs
  · cases h

/-- A step gives a user new routes only by routing an admitted claim of theirs. -/
theorem RouterMove.routedTo {router' : Router} (h : RouterMove i net sess act router') (u : Int) :
    router'.routedTo u ⊆ net.router.routedTo u ∨
      sess.user = some u ∧ ∃ xs, sess.admitted = some xs ∧
        router'.routedTo u ⊆ net.router.routedTo u ∪ xs.toFinset := by
  cases h with
  | same => exact Or.inl (Finset.Subset.refl _)
  | @routes v hosts ports huser htask hact =>
    have hsub : ∀ x ∈ (net.router.claim ⟨i, v⟩ hosts ports).routedTo u,
        x ∈ net.router.routedTo u ∨ v = u ∧ x ∈ resources hosts ports := by
      intro x hx
      obtain ⟨handle, hget, hu⟩ := Router.mem_routedTo.1 hx
      rw [Router.get_claim] at hget
      split at hget
      · rename_i hmem
        cases hget
        exact Or.inr ⟨hu, hmem⟩
      · exact Or.inl (Router.mem_routedTo.2 ⟨handle, hget, hu⟩)
    by_cases hv : v = u
    · subst hv
      refine Or.inr ⟨huser, resources hosts ports, by rw [Sess.admitted, htask], fun x hx => ?_⟩
      rcases hsub x hx with hx | ⟨-, hx⟩
      · exact Finset.mem_union_left _ hx
      · exact Finset.mem_union_right _ (List.mem_toFinset.2 hx)
    · exact Or.inl fun x hx => (hsub x hx).resolve_right fun hc => hv hc.1
  | evicts htask hact =>
    refine Or.inl fun x hx => ?_
    obtain ⟨handle, hget, hu⟩ := Router.mem_routedTo.1 hx
    rw [Router.get_evictRoutes] at hget
    split at hget
    · cases hget
    · exact Router.mem_routedTo.2 ⟨handle, hget, hu⟩
  | tears _ _ =>
    refine Or.inl fun x hx => ?_
    obtain ⟨handle, hget, hu⟩ := Router.mem_routedTo.1 hx
    exact Router.mem_routedTo.2 ⟨handle, ((Router.get_removeSession net.router).1 hget).1, hu⟩

/-- A step that meets the gate leaves the routing table alone. -/
theorem RouterMove.of_decision {router' : Router} (h : RouterMove i net sess act router')
    (hact : act.decision.isSome) : router' = net.router := by
  cases h with
  | same => rfl
  | routes _ _ h => rw [h] at hact; cases hact
  | evicts _ h => rw [h] at hact; cases hact
  | tears h _ => rw [h] at hact; cases hact

end steps

/-! ## The invariant -/

/-- The customer's routes are within the cap, also together with what an admitted claim will add,
and there is at most one such claim. -/
structure LiveCapInv (u L : Int) (S : RelaySys) : Prop where
  routed : ((S.shared.router.routedTo u).card : Int) ≤ L
  admitted : ∀ t ∈ S.threads, t.user = some u → ∀ xs ∈ t.admitted,
    ((S.shared.router.routedTo u ∪ xs.toFinset).card : Int) ≤ L
  single : ∀ (i j : Nat) (t s : Sess), S.threads[i]? = some t → S.threads[j]? = some s → t.user = some u →
    s.user = some u → t.admitted.isSome → s.admitted.isSome → i = j

section relay

variable {ctx : SessionCtx} {S S' : RelaySys} {a : RelayAct} {u L : Int}

theorem card_mono {s t : Finset Resource} {L : Int} (h : s ⊆ t) (ht : (t.card : Int) ≤ L) :
    (s.card : Int) ≤ L :=
  (Int.ofNat_le.2 (Finset.card_le_card h)).trans ht

section on

variable {i : Nat} {act : SessAct} {t t' : Sess} {net' : Net}

/-- A claim admitted before the step still fits. -/
theorem LiveCapInv.old_claim (h : LiveCapInv u L S) (ht : t ∈ S.threads)
    (hmove : RouterMove i S.shared t act net'.router) {xs : List Resource} (hu : t.user = some u)
    (hxs : t.admitted = some xs) : ((net'.router.routedTo u ∪ xs.toFinset).card : Int) ≤ L := by
  refine card_mono ?_ (h.admitted t ht hu xs hxs)
  rcases hmove.routedTo u with hsub | ⟨-, ys, hys, hsub⟩
  · exact Finset.union_subset_union_left hsub
  · rw [hxs, Option.some.injEq] at hys
    subst hys
    exact Finset.union_subset hsub Finset.subset_union_right

/-- A claim admitted by the step saw the present routes, and no other admitted claim. -/
theorem LiveCapInv.new_claim (h : LiveCapInv u L S) (hcap : CapStays u L S (.on i act))
    (halone : CountsAlone u S (.on i act)) (ht : S.threads[i]? = some t)
    (hstep : ctx.sessStep i S.shared t act = some (net', t')) {xs : List Resource}
    (hu : t'.user = some u) (hxs : t'.admitted = some xs) :
    ((net'.router.routedTo u ∪ xs.toFinset).card : Int) ≤ L ∧
      (t.user = some u ∧ t.admitted.isSome ∨ ∀ s ∈ S.threads, s.user = some u → s.admitted = none) := by
  have hrouter := (sessStep_move hstep).router
  cases sessStep_admits hstep hxs with
  | before huser hold =>
    rw [huser] at hu
    exact ⟨h.old_claim (List.mem_of_getElem? ht) hrouter hu hold, Or.inl ⟨hu, by rw [hold]; rfl⟩⟩
  | @counted v decision huser huser' hact hcount =>
    rw [huser'] at hu
    obtain rfl : u = v := Option.some.inj (hu.symm.trans huser)
    have hsome : act.decision.isSome := by rw [hact]; rfl
    rw [hrouter.of_decision hsome]
    exact ⟨hcount L (hcap t ht hu decision hact), Or.inr (halone t ht hu hsome)⟩

/-- A session's step, on the three parts of the invariant. -/
theorem liveCapInv_on (h : LiveCapInv u L S) (hcap : CapStays u L S (.on i act))
    (halone : CountsAlone u S (.on i act)) (ht : S.threads[i]? = some t)
    (hstep : ctx.sessStep i S.shared t act = some (net', t')) :
    LiveCapInv u L ⟨net', S.threads.set i t'⟩ := by
  have hrouter := (sessStep_move hstep).router
  refine ⟨?_, ?_, ?_⟩
  · rcases hrouter.routedTo u with hsub | ⟨hu, xs, hxs, hsub⟩
    · exact card_mono hsub h.routed
    · exact card_mono hsub (h.admitted t (List.mem_of_getElem? ht) hu xs hxs)
  · intro s hs hu xs hxs
    obtain ⟨j, hj⟩ := List.mem_iff_getElem?.1 hs
    rcases getElem?_set_cases ht hj with ⟨-, rfl⟩ | ⟨hji, hj⟩
    · exact (h.new_claim hcap halone ht hstep hu hxs).1
    · have hold := h.admitted s (List.mem_of_getElem? hj) hu xs hxs
      rcases hrouter.routedTo u with hsub | ⟨hut, ys, hys, -⟩
      · exact card_mono (Finset.union_subset_union_left hsub) hold
      · refine absurd (h.single j i s t hj ht hu hut ?_ ?_) hji
        · rw [hxs]; rfl
        · rw [hys]; rfl
  · -- the moved session against another one
    have hpair : ∀ j s, j ≠ i → S.threads[j]? = some s → s.user = some u → s.admitted.isSome →
        t'.user = some u → ¬ t'.admitted.isSome := by
      intro j s hji hj hu hs hu' ht'
      obtain ⟨xs, hxs⟩ := Option.isSome_iff_exists.1 ht'
      rcases (h.new_claim hcap halone ht hstep hu' hxs).2 with ⟨hut, hat⟩ | hnone
      · exact hji (h.single j i s t hj ht hu hut hs hat)
      · rw [hnone s (List.mem_of_getElem? hj) hu] at hs; cases hs
    intro j k s r hj hk hu hv hs hr
    rcases getElem?_set_cases ht hj with ⟨rfl, rfl⟩ | ⟨hji, hj'⟩
    · rcases getElem?_set_cases ht hk with ⟨rfl, -⟩ | ⟨hki, hk⟩
      · rfl
      · exact absurd hs (hpair k r hki hk hv hr hu)
    · rcases getElem?_set_cases ht hk with ⟨rfl, rfl⟩ | ⟨-, hk⟩
      · exact absurd hr (hpair j s hji hj' hu hs hv)
      · exact h.single j k s r hj' hk hu hv hs hr

end on

theorem liveCapInv_step (h : LiveCapInv u L S) (hcap : CapStays u L S a) (halone : CountsAlone u S a)
    (hstep : ctx.relay S a = some S') : LiveCapInv u L S' := by
  cases a with
  | spawn =>
    cases hstep
    refine ⟨h.routed, fun s hs hu => ?_, fun j k s r hj hk hu hv => ?_⟩
    · rcases List.mem_append.1 hs with hs | hs
      · exact h.admitted s hs hu
      · rw [List.mem_singleton.1 hs] at hu; cases hu
    · rcases getElem?_spawn hj with hj | rfl
      · rcases getElem?_spawn hk with hk | rfl
        · exact h.single j k s r hj hk hu hv
        · cases hv
      · cases hu
  | env e => cases hstep; exact ⟨h.routed, h.admitted, h.single⟩
  | on i act =>
    obtain ⟨t, net', t', ht, hs, rfl⟩ := step_on hstep
    exact liveCapInv_on h hcap halone ht hs

end relay

/-! ## Runs -/

/-- **The live-route cap.** Start with at most `L` resources routed for the customer and no claim of
theirs past the count, whatever they own. In every run in which `cap_for` stays `Cap(L)` and a claim of
the customer comes to the count only while no other one is between its count and its `router.claim`, no
state has more than `L` hostnames and ports routed to the customer's sessions. -/
theorem live_routes_within_cap (ctx : SessionCtx) (u L : Int) (S : RelaySys) (sched : List RelayAct)
    (hrouted : ((S.shared.router.routedTo u).card : Int) ≤ L)
    (hrest : ∀ t ∈ S.threads, t.user = some u → t.admitted = none)
    (hcap : Lts.Steps ctx.relay (CapStays u L) S sched)
    (halone : Lts.Steps ctx.relay (CountsAlone u) S sched) :
    Lts.Always ctx.relay (fun S => ((S.shared.router.routedTo u).card : Int) ≤ L) S sched := by
  refine Lts.always_of_inv (I := LiveCapInv u L)
    (fun _ _ _ hi hg hstep => liveCapInv_step hi hg.1 hg.2 hstep) (fun _ hi => hi.routed) ?_
    (hcap.and halone)
  refine ⟨hrouted, fun t ht hu xs hxs => ?_, fun i j t s hi _ hu _ ht _ => ?_⟩
  · rw [hrest t ht hu] at hxs; cases hxs
  · rw [hrest t (List.mem_of_getElem? hi) hu] at ht; cases ht

/-- `ann` owns two labels, one more than the plan now allows. -/
def overReserved : Db :=
  [Mutation.addUser 0 "ann", .claimLabelCapped 1 1 "shop" none, .claimLabelCapped 2 1 "blog" none].foldl
    (fun db m => m.exec [] db) Db.empty

/-- Two sessions of `ann`'s, one claim each: the second counts after the first has routed. -/
def oneAfterTheOther : List RelayAct :=
  connects 1 1 ++ connects 2 1 ++ claims 1 "shop.d.io" (some (.cap 1)) ++ [.on 1 .route] ++
    [.on 2 (.claim ["blog.d.io"] []), .on 2 .next, .on 2 (.gate (.ok (some (.cap 1))))]

theorem live_routes_within_cap_oneAfterTheOther :
    (∃ S, Lts.run licensedRelay.relay (RelaySys.start overReserved) oneAfterTheOther = some S ∧
      S.shared.router.routedTo 1 = {.host "shop.d.io"}) ∧
    Lts.Always licensedRelay.relay (fun S => ((S.shared.router.routedTo 1).card : Int) ≤ 1)
      (RelaySys.start overReserved) oneAfterTheOther :=
  ⟨⟨_, rfl, by decide⟩, live_routes_within_cap licensedRelay 1 1 (RelaySys.start overReserved)
    oneAfterTheOther (by decide) (by decide) (by decide) (by decide)⟩

/-- Both sessions count before either routes. -/
def countedTogether : List RelayAct :=
  connects 1 1 ++ connects 2 1 ++ claims 1 "shop.d.io" (some (.cap 1)) ++
    claims 2 "blog.d.io" (some (.cap 1)) ++ [.on 1 .route, .on 2 .route]

/-- Under a cap of one, two names are routed. -/
theorem both_let_through :
    Lts.Steps licensedRelay.relay (CapStays 1 1) (RelaySys.start overReserved) countedTogether ∧
    (RelaySys.start overReserved).shared.router.routedTo 1 = ∅ ∧
    ∃ S, Lts.run licensedRelay.relay (RelaySys.start overReserved) countedTogether = some S ∧
      S.shared.router.routedTo 1 = {.host "shop.d.io", .host "blog.d.io"} ∧
      1 < (S.shared.router.routedTo 1).card :=
  ⟨by decide, by decide, _, rfl, by decide, by decide⟩

end EtherTunnel
