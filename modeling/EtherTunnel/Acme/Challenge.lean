import EtherTunnel.Acme.Issue

/-!
# The challenges of an order

What the authority is told during an issuance, and that an issuance comes to an end. Pass 2 of `issue` asks
for the authorizations again and answers those that are not valid; what it relies on is that these are the
ones whose records pass 1 asked for.
-/

namespace EtherTunnel

/-! ## What the authority is told -/

namespace Authz

/-- What pass 1 makes of an authorization that is not refused. -/
def want (authz : Authz) : List (String × String) :=
  match authz.status, authz.dns01, authz.identifier with
  | .valid, _, _ => []
  | _, some value, .dns d => [(challengeName d, value)]
  | _, _, _ => []

theorem want_of_wants {authz : Authz} {more : List (String × String)} (h : authz.wants = .ok more) :
    more = authz.want ∧ (authz.status ≠ .valid →
      ∃ d value, authz.identifier = .dns d ∧ authz.dns01 = some value ∧
        (challengeName d, value) ∈ authz.want) := by
  obtain ⟨status, identifier, dns01⟩ := authz
  unfold wants at h
  split at h
  · rename_i hvalid
    cases hvalid
    cases h
    exact ⟨rfl, fun hne => absurd rfl hne⟩
  · rename_i hvalid
    cases dns01 with
    | none => cases h
    | some value =>
      cases identifier with
      | other debug => cases h
      | dns d =>
        cases h
        cases status with
        | valid => exact absurd rfl hvalid
        | _ => exact ⟨rfl, fun _ => ⟨d, value, rfl, rfl, List.mem_singleton_self _⟩⟩

end Authz

/-- The values that are still to be looked up. -/
def Provision.unseen (wanted : List (String × String)) : Provision → List (String × String)
  | .creating _ => wanted
  | .propagating left => left
  | .looking name value left _ | .pausing name value left _ => (name, value) :: left
  | _ => []

/-- How many authorizations pass 2 has still to ask for. -/
def Provision.unasked (urls : Nat) : Provision → Nat
  | .creating _ | .propagating _ | .looking .. | .pausing .. => urls
  | .readying left | .answering _ left => left
  | _ => 0

/-- Pass 1 did not refuse it. -/
def Authz.Usable (authz : Authz) : Prop :=
  authz.status ≠ .valid → ∃ d value, authz.identifier = .dns d ∧ authz.dns01 = some value ∧
    (challengeName d, value) ∈ authz.want

namespace Issuing

/-- The challenge of the authorization was visible to a lookup. -/
def Shown (s : Issuing) (authz : Authz) : Prop :=
  ∃ d value, authz.identifier = .dns d ∧ authz.dns01 = some value ∧ (challengeName d, value) ∈ s.seen

/-- Pass 2 is given an authorization: how many there were left, and what it is. -/
def asking : IssuePhase → IssueEvent → Option (Nat × Authz)
  | .provisioning (.readying (left + 1)) _, .authorization (.ok authz) => some (left + 1, authz)
  | _, _ => none

/-- The authority gives pass 2 the challenges that it gave to pass 1, and an authorization that was valid
still is. -/
def SameOrder (s : Issuing) (phase : IssuePhase) (ev : IssueEvent) : Prop :=
  ∀ q ∈ asking phase ev, ∀ before ∈ s.first[s.urls - q.1]?, q.2.identifier = before.identifier ∧
    q.2.dns01 = before.dns01 ∧ (before.status = .valid → q.2.status = .valid)

instance (s : Issuing) (phase : IssuePhase) (ev : IssueEvent) : Decidable (s.SameOrder phase ev) :=
  inferInstanceAs (Decidable (∀ q ∈ asking phase ev, ∀ before ∈ s.first[s.urls - q.1]?, _ ∧ _ ∧ _))

/-- In the middle: pass 1 is over, what was wanted is seen or still to be looked up, and the authorization
that is about to be answered was shown. -/
structure Provisioning (s : Issuing) (p : Provision) : Prop where
  asked : s.first.length = s.urls
  seen : s.seen ++ p.unseen s.wanted = s.wanted
  unasked : p.unasked s.urls ≤ s.urls
  shown : ∀ authz left, p = .answering authz left → s.Shown authz

def PhaseOk (s : Issuing) : IssuePhase → Prop
  | .loading | .registering => s.first = [] ∧ s.seen = []
  | .reusing account | .caching account | .ordering account =>
    (s.first = [] ∧ s.seen = []) ∧ account.registered = s.cfg.directoryUrl
  | .collecting left => s.first.length + left = s.urls ∧ s.seen = []
  | .provisioning p _ => s.Provisioning p
  | .cleaning _ _ => True

structure Inv (s : Issuing) : Prop where
  wanted : s.wanted = s.first.flatMap Authz.want
  usable : ∀ authz ∈ s.first, authz.Usable
  told : ∀ authz ∈ s.told, s.Shown authz
  phase : s.PhaseOk s.phase

variable {s s' : Issuing} {p : Provision} {ev : IssueEvent}

theorem Shown.mono {authz : Authz} (h : s.Shown authz) (hseen : s.seen ⊆ s'.seen) : s'.Shown authz := by
  obtain ⟨d, value, hid, hvalue, hmem⟩ := h
  exact ⟨d, value, hid, hvalue, hseen hmem⟩

/-- When everything wanted is seen, so is the challenge of an authorization that is not valid. -/
theorem Inv.shown (h : s.Inv) {authz before : Authz} (hbefore : before ∈ s.first) (hseen : s.seen = s.wanted)
    (hid : authz.identifier = before.identifier) (hvalue : authz.dns01 = before.dns01)
    (hvalid : before.status ≠ .valid) : s.Shown authz := by
  obtain ⟨d, value, hd, hv, hmem⟩ := h.usable before hbefore hvalid
  refine ⟨d, value, hid.trans hd, hvalue.trans hv, ?_⟩
  rw [hseen, h.wanted]
  exact List.mem_flatMap.2 ⟨before, hbefore, hmem⟩

/-- What a step of `provision_and_finalize` keeps. -/
structure Kept (s s' : Issuing) : Prop where
  wanted : s'.wanted = s.wanted
  first : s'.first = s.first
  seen : s.seen ⊆ s'.seen
  told : ∀ authz ∈ s'.told, authz ∈ s.told ∨ s.Shown authz

theorem Kept.refl (s : Issuing) : Kept s s := ⟨rfl, rfl, fun _ => id, fun _ => .inl⟩

theorem provision_ok {next : Provision ⊕ IssueResult} {created : List TxtRecord} (h : s.Inv)
    (hp : s.Provisioning p) (hsame : s.SameOrder (.provisioning p created) ev)
    (hstep : s.provision p ev = some (s', next)) :
    Kept s s' ∧ ∀ p', next = .inl p' → s'.Provisioning p' := by
  unfold provision at hstep
  split at hstep
  · cases hstep
    refine ⟨.refl s, ?_⟩
    rintro _ ⟨⟩
    exact ⟨hp.asked, hp.seen, hp.unasked, nofun⟩
  · cases hstep
    refine ⟨.refl s, ?_⟩
    rintro _ ⟨⟩
    exact ⟨hp.asked, hp.seen, Nat.le_refl _, nofun⟩
  · obtain ⟨-, ⟨⟩⟩ := Option.ite_none_left_eq_some.1 hstep
    refine ⟨⟨rfl, rfl, fun _ => id, fun _ => .inl⟩, ?_⟩
    rintro _ ⟨⟩
    exact ⟨hp.asked, hp.seen, Nat.le_refl _, nofun⟩
  · obtain ⟨-, hstep⟩ := Option.ite_none_left_eq_some.1 hstep
    split at hstep
    · cases hstep
      refine ⟨⟨rfl, rfl, fun _ => List.mem_append_left _, fun _ => .inl⟩, ?_⟩
      rintro _ ⟨⟩
      refine ⟨hp.asked, ?_, Nat.le_refl _, nofun⟩
      rw [List.append_assoc]
      exact hp.seen
    · split at hstep <;> cases hstep
      · exact ⟨⟨rfl, rfl, fun _ => id, fun _ => .inl⟩, nofun⟩
      · refine ⟨⟨rfl, rfl, fun _ => id, fun _ => .inl⟩, ?_⟩
        rintro _ ⟨⟩
        exact ⟨hp.asked, hp.seen, Nat.le_refl _, nofun⟩
  · obtain ⟨-, ⟨⟩⟩ := Option.ite_none_left_eq_some.1 hstep
    refine ⟨⟨rfl, rfl, fun _ => id, fun _ => .inl⟩, ?_⟩
    rintro _ ⟨⟩
    exact ⟨hp.asked, hp.seen, Nat.le_refl _, nofun⟩
  · cases hstep
    refine ⟨.refl s, ?_⟩
    rintro _ ⟨⟩
    exact ⟨hp.asked, hp.seen, Nat.zero_le _, nofun⟩
  · cases hstep
    exact ⟨.refl s, nofun⟩
  · rename_i left authz
    have hleft : left + 1 ≤ s.urls := hp.unasked
    split at hstep
    · cases hstep
      refine ⟨.refl s, ?_⟩
      rintro _ ⟨⟩
      exact ⟨hp.asked, hp.seen, Nat.le_of_succ_le hleft, nofun⟩
    · rename_i hvalid
      split at hstep <;> cases hstep
      · exact ⟨.refl s, nofun⟩
      · refine ⟨.refl s, ?_⟩
        rintro _ ⟨⟩
        refine ⟨hp.asked, hp.seen, Nat.le_of_succ_le hleft, ?_⟩
        rintro _ _ ⟨⟩
        -- pass 1 had this authorization at the same place
        have hlt : s.urls - (left + 1) < s.first.length := by
          rw [hp.asked]
          omega
        obtain ⟨hid, hvalue, hstill⟩ := hsame _ rfl _ (List.getElem?_eq_getElem hlt)
        refine h.shown (List.getElem_mem hlt) ?_ hid hvalue fun hbefore => hvalid (hstill hbefore)
        exact (List.append_nil _).symm.trans hp.seen
  · cases hstep
    refine ⟨⟨rfl, rfl, fun _ => id, fun authz hmem => ?_⟩, nofun⟩
    rcases List.mem_append.1 hmem with hmem | hmem
    · exact .inl hmem
    · cases List.mem_singleton.1 hmem
      exact .inr (hp.shown _ _ rfl)
  · cases hstep
    refine ⟨⟨rfl, rfl, fun _ => id, fun authz hmem => ?_⟩, ?_⟩
    · rcases List.mem_append.1 hmem with hmem | hmem
      · exact .inl hmem
      · cases List.mem_singleton.1 hmem
        exact .inr (hp.shown _ _ rfl)
    · rintro _ ⟨⟩
      exact ⟨hp.asked, hp.seen, hp.unasked, nofun⟩
  · cases hstep
    exact ⟨.refl s, nofun⟩
  · split at hstep <;> cases hstep
    · refine ⟨.refl s, ?_⟩
      rintro _ ⟨⟩
      exact ⟨hp.asked, hp.seen, Nat.zero_le _, nofun⟩
    · exact ⟨.refl s, nofun⟩
  · cases hstep
    exact ⟨.refl s, nofun⟩
  · cases hstep
    refine ⟨.refl s, ?_⟩
    rintro _ ⟨⟩
    exact ⟨hp.asked, hp.seen, Nat.zero_le _, nofun⟩
  · cases hstep
    exact ⟨.refl s, nofun⟩
  · cases hstep
    exact ⟨.refl s, nofun⟩
  · cases hstep

theorem Inv.goto (h : s.Inv) {phase : IssuePhase} (hphase : s.PhaseOk phase) :
    ({ s with phase := phase } : Issuing).Inv where
  wanted := h.wanted
  usable := h.usable
  told := h.told
  phase := by
    cases phase with
    | provisioning p created => exact ⟨hphase.asked, hphase.seen, hphase.unasked, hphase.shown⟩
    | _ => exact hphase

/-- After a step in the middle. -/
theorem Inv.kept (h : s.Inv) (hkept : Kept s s') {phase : IssuePhase} (hphase : s'.PhaseOk phase) :
    ({ s' with phase := phase } : Issuing).Inv where
  wanted := by rw [hkept.wanted, hkept.first]; exact h.wanted
  usable := by rw [hkept.first]; exact h.usable
  told authz hmem := by
    rcases hkept.told authz hmem with hmem | hshown
    · exact (h.told authz hmem).mono hkept.seen
    · exact hshown.mono hkept.seen
  phase := by
    cases phase with
    | provisioning p created => exact ⟨hphase.asked, hphase.seen, hphase.unasked, hphase.shown⟩
    | _ => exact hphase

/-- Pass 1 takes one more authorization. -/
theorem Inv.collect (h : s.Inv) {left : Nat} (hphase : s.phase = .collecting (left + 1))
    {r : Except String Authz} (hcollect : s.collect r = .ok s') :
    ({ s' with phase := .collecting left } : Issuing).Inv := by
  have hok := h.phase
  rw [hphase] at hok
  cases r with
  | error e => cases hcollect
  | ok authz =>
    cases hwants : authz.wants with
    | error e =>
      simp only [Issuing.collect, Except.bind, hwants, Except.map] at hcollect
      cases hcollect
    | ok more =>
      simp only [Issuing.collect, Except.bind, hwants, Except.map] at hcollect
      cases hcollect
      obtain ⟨rfl, husable⟩ := Authz.want_of_wants hwants
      refine ⟨?_, fun a ha => ?_, h.told, ?_, hok.2⟩
      · rw [List.flatMap_append, ← h.wanted, List.flatMap_singleton]
      · rcases List.mem_append.1 ha with ha | ha
        · exact h.usable a ha
        · cases List.mem_singleton.1 ha
          exact husable
      · have hcount : s.first.length + (left + 1) = s.urls := hok.1
        have hlength : (s.first ++ [authz]).length + left = s.urls := by
          rw [List.length_append, List.length_singleton]
          omega
        exact hlength

end Issuing

namespace Issuer

def SameOrder (S : Issuer) (ev : IssueEvent) : Prop := ∀ s ∈ S.issuing, s.SameOrder s.phase ev

instance (S : Issuer) (ev : IssueEvent) : Decidable (S.SameOrder ev) :=
  inferInstanceAs (Decidable (∀ s ∈ S.issuing, s.SameOrder s.phase ev))

/-- The account on disk is of the directory it is tagged with. -/
structure Inv (S : Issuer) : Prop where
  account : ∀ cached ∈ S.account, cached.credentials.registered = cached.directory
  issuing : ∀ s ∈ S.issuing, s.Inv

variable {S S' : Issuer} {s : Issuing} {ev : IssueEvent}

theorem Inv.goto (h : S.Inv) {s' : Issuing} {phase : IssuePhase}
    (hs : ({ s' with phase := phase } : Issuing).Inv) : (S.goto s' phase).Inv := by
  refine ⟨h.account, ?_⟩
  rintro _ ⟨⟩
  exact hs

theorem Inv.returns (h : S.Inv) (r : IssueResult) : (S.returns r).Inv := ⟨h.account, nofun⟩

/-- One step. -/
theorem Inv.went (h : S.Inv) (hsome : S.issuing = some s) (hsame : s.SameOrder s.phase ev)
    (hwent : Went S s s.phase ev S') : S'.Inv := by
  have hs := h.issuing s hsome
  have hok := hs.phase
  generalize hphase : s.phase = phase at hwent hok hsame
  cases hwent with
  | returned r hclear => exact h.returns r
  | @reuses cached hcached hdirectory =>
    exact h.goto (hs.goto ⟨hok, (h.account cached hcached).trans hdirectory⟩)
  | registers => exact h.goto (hs.goto hok)
  | reused => exact h.goto (hs.goto hok)
  | registered => exact h.goto (hs.goto ⟨hok, rfl⟩)
  | cached =>
    refine ⟨?_, ?_⟩
    · rintro _ ⟨⟩
      exact hok.2
    · rintro _ ⟨⟩
      exact hs.goto hok
  | ordered =>
    refine h.goto ⟨hs.wanted, hs.usable, hs.told, ?_, hok.1.2⟩
    rw [hok.1.1]
    exact Nat.zero_add _
  | collected hcollect => exact h.goto (hs.collect hphase hcollect)
  | provisions =>
    refine h.goto (hs.goto ⟨hok.1, ?_, Nat.le_refl _, nofun⟩)
    rw [hok.2]
    rfl
  | @acknowledged id name value left created reply hfresh =>
    have hnext : ∀ recs, s.PhaseOk (.provisioning (.creating left) recs) :=
      fun _ => ⟨hok.asked, hok.seen, hok.unasked, nofun⟩
    refine ⟨h.account, ?_⟩
    rintro _ ⟨⟩
    exact hs.goto (hnext _)
  | lost =>
    refine ⟨h.account, ?_⟩
    rintro _ ⟨⟩
    exact hs.goto trivial
  | refused => exact h.goto (hs.goto trivial)
  | @goesOn p p' created ev s' hnext =>
    obtain ⟨hkept, hprovisioning⟩ := Issuing.provision_ok hs hok hsame hnext
    exact h.goto (hs.kept hkept (hprovisioning p' rfl))
  | ends hnext =>
    obtain ⟨hkept, -⟩ := Issuing.provision_ok hs hok hsame hnext
    exact h.goto (hs.kept hkept trivial)
  | deleted =>
    refine ⟨h.account, ?_⟩
    rintro _ ⟨⟩
    exact hs.goto trivial

theorem Inv.step (h : S.Inv) (hsame : S.SameOrder ev) (hstep : S.step ev = some S') : S'.Inv := by
  cases ev with
  | begin cfg now =>
    obtain ⟨-, ⟨⟩⟩ := Option.ite_none_right_eq_some.1 hstep
    refine ⟨h.account, ?_⟩
    rintro _ ⟨⟩
    exact ⟨rfl, nofun, nofun, rfl, rfl⟩
  | die =>
    cases hstep
    exact ⟨h.account, nofun⟩
  | _ =>
    obtain ⟨s, hs, hon⟩ := Option.bind_eq_some_iff.1 hstep
    exact h.went hs (hsame s hs) (Issuer.went hon)

end Issuer

/-- **Ready means visible.** Over any number of issuances, under whichever configuration each has: the
authority is told that a challenge is ready only when a lookup at the public resolver has shown its value
under its name, provided that the two passes over an order are given the same challenges; and an order is
made only with an account that the configured directory registered. -/
theorem ready_only_when_visible (zone : List ZoneRecord) (account : Option CachedAccount)
    (sched : List IssueEvent) (S : Issuer)
    (haccount : ∀ cached ∈ account, cached.credentials.registered = cached.directory)
    (hsame : Lts.Steps Issuer.step Issuer.SameOrder { zone := zone, account := account } sched)
    (hrun : Lts.run Issuer.step { zone := zone, account := account } sched = some S) :
    ∀ s ∈ S.issuing, (∀ authz ∈ s.told, s.Shown authz) ∧
      ∀ account, s.phase = .ordering account → account.registered = s.cfg.directoryUrl := by
  have hS : S.Inv := by
    refine Lts.run_inv (fun _ _ _ h hG hs => h.step hG hs) ⟨haccount, ?_⟩ hsame hrun
    rintro _ ⟨⟩
  intro s hs
  refine ⟨(hS.issuing s hs).told, fun account hphase => ?_⟩
  have hok := (hS.issuing s hs).phase
  rw [hphase] at hok
  exact hok.2

theorem ready_only_when_visible_first : ∃ S s,
    Lts.run Issuer.step { zone := [] } firstOrder = some S ∧ S.issuing = some s ∧
    s.told = [⟨.pending, .dns "d.io", some "v1"⟩, ⟨.pending, .dns "*.d.io", some "v2"⟩] ∧
    ∀ authz ∈ s.told, s.Shown authz := by
  have hend : (Lts.run Issuer.step { zone := [] } firstOrder).map (fun S => S.issuing.map (·.told)) =
      some (some [⟨.pending, .dns "d.io", some "v1"⟩, ⟨.pending, .dns "*.d.io", some "v2"⟩]) := by
    decide +kernel
  obtain ⟨S, hrun, hS⟩ := Option.map_eq_some_iff.1 hend
  obtain ⟨s, hs, htold⟩ := Option.map_eq_some_iff.1 hS
  have hsame : Lts.Steps Issuer.step Issuer.SameOrder { zone := [] } firstOrder := by decide +kernel
  have hshown := ready_only_when_visible [] none firstOrder S nofun hsame hrun s hs
  exact ⟨S, s, hrun, hs, htold, hshown.1⟩

/-! ## That it returns -/

/-- How many lookups and pauses there are at most before the deadline. -/
def looks (clock deadline : Nat) : Nat := (deadline - clock + 2) / 3

/-- How many events `provision_and_finalize` has left at most, and the records that it may still create. -/
def Provision.fuel (s : Issuing) : Provision → Nat
  | .creating left => 2 * left.length + 102 * s.wanted.length + 2 * s.urls + 6
  | .propagating left => 102 * left.length + 2 * s.urls + 5
  | .looking _ _ left deadline => 1 + 2 * looks s.clock deadline + 102 * left.length + 2 * s.urls + 5
  | .pausing _ _ left deadline => 2 * looks s.clock deadline + 102 * left.length + 2 * s.urls + 5
  | .readying left => 2 * left + 4
  | .answering _ left => 2 * left + 5
  | .polling => 3
  | .finalizing => 2
  | .downloading => 1

/-- The same for all of `issue`; `n` bounds the number of authorizations of an order that is still to be
made. -/
def IssuePhase.fuel (n : Nat) (s : Issuing) : IssuePhase → Nat
  | .loading => 107 * n + 104 * s.wanted.length + 12
  | .registering => 107 * n + 104 * s.wanted.length + 11
  | .reusing _ | .caching _ => 107 * n + 104 * s.wanted.length + 10
  | .ordering _ => 107 * n + 104 * s.wanted.length + 9
  | .collecting left => 105 * left + 104 * s.wanted.length + 2 * s.urls + 8
  | .provisioning p created => p.fuel s + created.length + 1
  | .cleaning left _ => left.length + 1

def Issuer.fuel (n : Nat) (S : Issuer) : Nat := S.issuing.elim 0 fun s => s.phase.fuel n s

/-- An event of the issuance that runs, with no more authorizations than `n`. -/
def IssueEvent.Within (n : Nat) : IssueEvent → Prop
  | .begin _ _ | .die => False
  | .newOrder (.ok urls) => urls ≤ n
  | _ => True

section returns

variable {n : Nat} {s s' : Issuing} {S S' : Issuer} {p : Provision} {ev : IssueEvent}

theorem looks_le {clock now deadline : Nat} (h : clock ≤ now) : looks now deadline ≤ looks clock deadline := by
  unfold looks
  omega

/-- A pause takes three seconds, and there is none at or after the deadline. -/
theorem looks_lt {clock now deadline : Nat} (hbefore : clock < deadline) (h : clock + 3 ≤ now) :
    looks now deadline + 1 ≤ looks clock deadline := by
  unfold looks
  omega

theorem Provision.fuel_pos (s : Issuing) (p : Provision) : 1 ≤ p.fuel s := by
  cases p <;> simp only [Provision.fuel] <;> omega

/-- The pause is only entered before the deadline. -/
def Provision.Early (s : Issuing) : Provision → Prop
  | .pausing _ _ _ deadline => s.clock < deadline
  | _ => True

theorem Issuing.provision_fuel {next : Provision ⊕ IssueResult} (hearly : p.Early s)
    (h : s.provision p ev = some (s', next)) :
    ∀ p', next = .inl p' → p'.Early s' ∧ p'.fuel s' + 1 ≤ p.fuel s := by
  unfold provision at h
  split at h
  · cases h
    rintro _ ⟨⟩
    refine ⟨trivial, ?_⟩
    simp only [Provision.fuel, List.length_nil]
    omega
  · cases h
    rintro _ ⟨⟩
    refine ⟨trivial, ?_⟩
    simp only [Provision.fuel, List.length_nil]
    omega
  · obtain ⟨-, ⟨⟩⟩ := Option.ite_none_left_eq_some.1 h
    rintro _ ⟨⟩
    refine ⟨trivial, ?_⟩
    simp only [Provision.fuel, List.length_cons, looks, propagationTimeout]
    omega
  · rename_i deadline reply now
    obtain ⟨hclock, h⟩ := Option.ite_none_left_eq_some.1 h
    have hlooks : looks now deadline ≤ looks s.clock deadline := looks_le (Nat.le_of_not_lt hclock)
    split at h
    · cases h
      rintro _ ⟨⟩
      refine ⟨trivial, ?_⟩
      simp only [Provision.fuel]
      omega
    · split at h <;> cases h
      · nofun
      · rename_i hdeadline
        rintro _ ⟨⟩
        refine ⟨Nat.lt_of_not_le hdeadline, ?_⟩
        simp only [Provision.fuel]
        omega
  · rename_i deadline now
    obtain ⟨hclock, ⟨⟩⟩ := Option.ite_none_left_eq_some.1 h
    rintro _ ⟨⟩
    refine ⟨trivial, ?_⟩
    have hlooks := looks_lt hearly (Nat.le_of_not_lt hclock)
    simp only [Provision.fuel]
    omega
  · cases h
    rintro _ ⟨⟩
    exact ⟨trivial, Nat.le_refl _⟩
  · cases h
    nofun
  · split at h
    · cases h
      rintro _ ⟨⟩
      refine ⟨trivial, ?_⟩
      simp only [Provision.fuel]
      omega
    · split at h <;> cases h
      · nofun
      · rintro _ ⟨⟩
        refine ⟨trivial, ?_⟩
        simp only [Provision.fuel]
        omega
  · cases h
    nofun
  · cases h
    rintro _ ⟨⟩
    exact ⟨trivial, Nat.le_refl _⟩
  · cases h
    nofun
  · split at h <;> cases h
    · rintro _ ⟨⟩
      exact ⟨trivial, Nat.le_refl _⟩
    · nofun
  · cases h
    nofun
  · cases h
    rintro _ ⟨⟩
    exact ⟨trivial, Nat.le_refl _⟩
  · cases h
    nofun
  · cases h
    nofun
  · cases h

theorem Authz.wants_length {authz : Authz} {more : List (String × String)} (h : authz.wants = .ok more) :
    more.length ≤ 1 := by
  unfold wants at h
  split at h
  · cases h
    exact Nat.zero_le _
  · split at h <;> cases h
    exact Nat.le_refl _

theorem Issuing.collect_fuel {r : Except String Authz} (h : s.collect r = .ok s') :
    s'.wanted.length ≤ s.wanted.length + 1 ∧ s'.urls = s.urls := by
  cases r with
  | error e => cases h
  | ok authz =>
    cases hwants : authz.wants with
    | error e =>
      simp only [Issuing.collect, Except.bind, hwants, Except.map] at h
      cases h
    | ok more =>
      simp only [Issuing.collect, Except.bind, hwants, Except.map] at h
      cases h
      refine ⟨?_, rfl⟩
      rw [List.length_append]
      exact Nat.add_le_add_left (Authz.wants_length hwants) _

namespace Issuer

def Early (S : Issuer) : Prop :=
  ∀ s ∈ S.issuing, ∀ p created, s.phase = .provisioning p created → p.Early s

/-- What a step leaves of the fuel. -/
def Spent (n : Nat) (S S' : Issuer) : Prop := S'.Early ∧ S'.fuel n + 1 ≤ S.fuel n

/-- Cleaning up is within what was left. -/
theorem cleaning_fuel (p : Provision) (created : List TxtRecord) :
    created.length + 1 + 1 ≤ (IssuePhase.provisioning p created).fuel n s := by
  have hpos := p.fuel_pos s
  simp only [IssuePhase.fuel]
  omega

theorem Went.spent (hs : S.issuing = some s) (hearly : S.Early) (hwithin : ev.Within n)
    (h : Went S s s.phase ev S') : Spent n S S' := by
  have hfuel : S.fuel n = s.phase.fuel n s := by
    rw [fuel, hs]
    rfl
  have hpause := hearly s hs
  unfold Spent
  rw [hfuel]
  generalize s.phase = phase at h hpause ⊢
  cases h with
  | returned r hclear =>
    refine ⟨nofun, ?_⟩
    show 0 + 1 ≤ _
    cases phase <;> simp only [IssuePhase.fuel] <;> omega
  | reuses | registers | reused | registered | cached =>
    refine ⟨?_, ?_⟩
    · rintro _ ⟨⟩ _ _ ⟨⟩
    · simp only [fuel, goto, Option.elim_some, IssuePhase.fuel]
      omega
  | @ordered account urls =>
    have hurls : urls ≤ n := hwithin
    refine ⟨?_, ?_⟩
    · rintro _ ⟨⟩ _ _ ⟨⟩
    · simp only [fuel, goto, Option.elim_some, IssuePhase.fuel]
      omega
  | collected hcollect =>
    obtain ⟨hlength, hurls⟩ := Issuing.collect_fuel hcollect
    refine ⟨?_, ?_⟩
    · rintro _ ⟨⟩ _ _ ⟨⟩
    · simp only [fuel, goto, Option.elim_some, IssuePhase.fuel]
      omega
  | provisions =>
    refine ⟨?_, ?_⟩
    · rintro _ ⟨⟩ _ _ ⟨⟩
      trivial
    · simp only [fuel, goto, Option.elim_some, IssuePhase.fuel, Provision.fuel, List.length_nil]
      omega
  | acknowledged =>
    refine ⟨?_, ?_⟩
    · rintro _ ⟨⟩ _ _ ⟨⟩
      trivial
    · simp only [fuel, goto, Option.elim_some, IssuePhase.fuel, Provision.fuel, List.length_append,
        List.length_cons, List.length_nil]
      omega
  | lost | refused | ends =>
    refine ⟨?_, cleaning_fuel _ _⟩
    rintro _ ⟨⟩ _ _ ⟨⟩
  | @goesOn p p' created ev s' hnext =>
    obtain ⟨hp', hless⟩ := Issuing.provision_fuel (hpause p created rfl) hnext p' rfl
    have hsame : p'.fuel { s' with phase := .provisioning p' created } = p'.fuel s' := by
      cases p' <;> rfl
    refine ⟨?_, ?_⟩
    · rintro _ ⟨⟩ _ _ ⟨⟩
      cases p' <;> exact hp'
    · simp only [fuel, goto, Option.elim_some, IssuePhase.fuel]
      rw [hsame]
      omega
  | deleted =>
    refine ⟨?_, ?_⟩
    · rintro _ ⟨⟩ _ _ ⟨⟩
    · simp only [fuel, goto, Option.elim_some, IssuePhase.fuel, List.length_cons]
      omega

theorem spent (hearly : S.Early) (hwithin : ev.Within n) (h : S.step ev = some S') : Spent n S S' := by
  cases ev with
  | begin cfg now => exact hwithin.elim
  | die => exact hwithin.elim
  | _ =>
    obtain ⟨s, hs, h⟩ := Option.bind_eq_some_iff.1 h
    exact (went h).spent hs hearly hwithin

/-- A whole run of one issuance. -/
theorem fuel_run {sched : List IssueEvent} (hwithin : ∀ ev ∈ sched, ev.Within n) :
    ∀ {S : Issuer}, S.Early → Lts.run step S sched = some S' → sched.length + S'.fuel n ≤ S.fuel n := by
  induction sched with
  | nil =>
    intro S _ hrun
    cases hrun
    exact Nat.le_of_eq (Nat.zero_add _)
  | cons ev sched ih =>
    intro S hearly hrun
    obtain ⟨T, hT, hrest⟩ := (Lts.run_cons_eq_some _).1 hrun
    obtain ⟨hearly', hspent⟩ := spent hearly (hwithin ev List.mem_cons_self) hT
    have hlength := ih (fun e he => hwithin e (List.mem_cons_of_mem _ he)) hearly' hrest
    rw [List.length_cons]
    omega

/-- An answer that lets the issuance go on, whatever it waits for. -/
theorem goes_on (hs : S.issuing = some s) : ∃ ev : IssueEvent, ev.Within n ∧ (S.step ev).isSome := by
  have hstep : ∀ ev : IssueEvent, ev.Within n → (S.on s s.phase ev).isSome →
      ∃ ev : IssueEvent, ev.Within n ∧ (S.step ev).isSome := by
    intro ev hwithin hon
    refine ⟨ev, hwithin, ?_⟩
    cases ev with
    | begin cfg now => exact hwithin.elim
    | die => exact hwithin.elim
    | _ =>
      show (S.issuing.bind fun s => S.on s s.phase _).isSome
      rw [hs]
      exact hon
  cases hphase : s.phase with
  | loading => exact hstep (.loadAccount false) trivial (by rw [hphase]; rfl)
  | reusing account => exact hstep (.reuse (.error "")) trivial (by rw [hphase]; rfl)
  | registering => exact hstep (.register (.error "")) trivial (by rw [hphase]; rfl)
  | caching account => exact hstep (.cacheAccount (.error "")) trivial (by rw [hphase]; rfl)
  | ordering account => exact hstep (.newOrder (.error "")) trivial (by rw [hphase]; rfl)
  | collecting left =>
    cases left with
    | zero => exact hstep .proceed trivial (by rw [hphase]; rfl)
    | succ left => exact hstep (.authorization (.error "")) trivial (by rw [hphase]; rfl)
  | cleaning left result =>
    cases left with
    | nil => exact hstep .proceed trivial (by rw [hphase]; rfl)
    | cons rec left => exact hstep (.deleteRecord false (.error "")) trivial (by rw [hphase]; rfl)
  | provisioning p created =>
    cases p with
    | creating left =>
      cases left with
      | nil => exact hstep .proceed trivial (by rw [hphase]; rfl)
      | cons pair left => exact hstep (.createTxt none (.error "")) trivial (by rw [hphase]; rfl)
    | propagating left =>
      cases left with
      | nil => exact hstep .proceed trivial (by rw [hphase]; rfl)
      | cons pair left =>
        exact hstep (.wait s.clock) trivial (by simp [hphase, on, Issuing.provision])
    | looking name value left deadline =>
      refine hstep (.lookup (.error "") s.clock) trivial ?_
      rw [hphase]
      simp only [on, Issuing.provision, Nat.lt_irrefl, if_false, Cloudflare.txtVisible,
        Bool.false_eq_true, Option.isSome_map]
      split <;> rfl
    | pausing name value left deadline =>
      exact hstep (.sleep (s.clock + 3)) trivial (by simp [hphase, on, Issuing.provision])
    | readying left =>
      cases left with
      | zero => exact hstep .proceed trivial (by rw [hphase]; rfl)
      | succ left => exact hstep (.authorization (.error "")) trivial (by rw [hphase]; rfl)
    | answering authz left => exact hstep (.setReady (.error "")) trivial (by rw [hphase]; rfl)
    | polling => exact hstep (.pollReady (.error "")) trivial (by rw [hphase]; rfl)
    | finalizing => exact hstep (.finalize (.error "")) trivial (by rw [hphase]; rfl)
    | downloading => exact hstep (.pollCertificate (.error "")) trivial (by rw [hphase]; rfl)

/-- It runs, or it has returned something. -/
def Answered (S : Issuer) : Prop := S.issuing.isSome ∨ S.result.isSome

theorem Went.answered {phase : IssuePhase} (h : Went S s phase ev S') : S'.Answered := by
  cases h with
  | returned => exact .inr rfl
  | _ => exact .inl rfl

theorem answered_step (hwithin : ev.Within n) (h : S.step ev = some S') : S'.Answered := by
  cases ev with
  | begin cfg now => exact hwithin.elim
  | die => exact hwithin.elim
  | _ =>
    obtain ⟨s, -, h⟩ := Option.bind_eq_some_iff.1 h
    exact (went h).answered

end Issuer

end returns

/-- **An issuance returns.** However the authority, Cloudflare and the resolver answer, as long as they do: an
issuance of an order with at most `n` authorizations is over after at most `107 n + 12` events, lookups and
pauses included. Until then there is always an answer that lets it go on, and when it is over `issue` has
returned a certificate or an error. -/
theorem issue_returns (S S' : Issuer) (cfg : AcmeConfig) (now n : Nat) (sched : List IssueEvent)
    (hwithin : ∀ ev ∈ sched, ev.Within n)
    (hrun : Lts.run Issuer.step S (.begin cfg now :: sched) = some S') :
    sched.length ≤ 107 * n + 12 ∧
    ((S'.issuing = none ∧ S'.result.isSome) ∨ ∃ ev : IssueEvent, ev.Within n ∧ (S'.step ev).isSome) := by
  obtain ⟨T, hT, hrest⟩ := (Lts.run_cons_eq_some _).1 hrun
  obtain ⟨-, ⟨⟩⟩ := Option.ite_none_right_eq_some.1 hT
  constructor
  · refine Nat.le_trans (Nat.le_add_right _ (S'.fuel n)) (Issuer.fuel_run hwithin ?_ hrest)
    rintro _ ⟨⟩ _ _ ⟨⟩
  · have hanswered : S'.Answered :=
      Lts.run_inv (I := Issuer.Answered) (G := fun _ ev => ev.Within n)
        (fun _ _ _ _ hG hs => Issuer.answered_step hG hs) (.inl rfl) (Lts.steps_of_forall hwithin) hrest
    cases hissuing : S'.issuing with
    | some s => exact .inr (Issuer.goes_on hissuing)
    | none =>
      refine .inl ⟨rfl, hanswered.resolve_left ?_⟩
      rw [hissuing]
      exact Bool.false_ne_true

theorem issue_returns_first : ∃ S ev,
    Lts.run Issuer.step { zone := [] } firstOrder = some S ∧ IssueEvent.Within 2 ev ∧
    (S.step ev).isSome := by
  have hend : ((Lts.run Issuer.step { zone := [] } firstOrder).bind (·.issuing)).isSome = true := by
    decide +kernel
  obtain ⟨s, hs⟩ := Option.isSome_iff_exists.1 hend
  obtain ⟨S', hrun, hissuing⟩ := Option.bind_eq_some_iff.1 hs
  obtain ⟨-, ⟨hnone, -⟩ | ⟨ev, hwithin, hstep⟩⟩ := issue_returns { zone := [] } S' ⟨"production"⟩ 0 2
    firstOrder.tail (by simp [firstOrder, IssueEvent.Within]) hrun
  · rw [hissuing] at hnone
    cases hnone
  · exact ⟨S', ev, hrun, hwithin, hstep⟩

end EtherTunnel
