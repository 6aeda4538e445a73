import EtherTunnel.Polar.Calls

/-!
# Portal activations of one key

`ensure_activated` (`polar.rs:785`) reads the stored activation id, waits for the portal and writes the
id it got; `release_activation` (`polar.rs:827`) reads the id, waits for the portal and clears it. Here
the two run against a model of the portal: a successful `activate` gives out an id it has not given out
before, a successful `deactivate` removes the id.

Nothing keeps two `ensure_activated` calls of one key apart: both read that no id is stored, both get
one, and the second write overwrites the first id, which can then never be released
(`second_activation_leaked`). When a call that finds no id goes to the portal only while no other call
on the key is in flight, the relay holds exactly the activation it has stored, and never two
(`activations_accounted`). Releases need no such care: several may overlap.

| here | there |
| --- | --- |
| `Portal.held` | the activations of the key obtained and not deactivated |
| `PolarGate.portalSys` | any number of calls, over the cache and the portal |
| `CallState.idle` | not started, or returned |
| `ActivatesAlone` | past its read, `ensure_activated` finds every other call returned |
-/

namespace EtherTunnel

open Threads

/-! ## The portal -/

structure Portal where
  held : List String
  issued : List String
deriving DecidableEq

/-- The portal's side of a step; `none` when it would give out an id a second time. -/
def Portal.answer (p : Portal) : CallState → CallAct → Option Portal
  | .activating _ _, .portal (.activated id) =>
    if id ∈ p.issued then none else some ⟨p.held ++ [id], p.issued ++ [id]⟩
  | .releasing _ id, .deactivated true => some { p with held := p.held.filter (· != id) }
  | _, _ => some p

/-- The cache and the portal. -/
structure Licensing where
  store : CallStore
  portal : Portal
deriving DecidableEq

def PolarGate.portalStep (gate : PolarGate) (i : Nat) (s : Licensing) (t : CallState) (a : CallAct) :
    Option (Licensing × CallState) :=
  match gate.callStep i s.store t a, s.portal.answer t a with
  | some (store, t'), some portal => some (⟨store, portal⟩, t')
  | _, _ => none

abbrev PortalSys := Sys Licensing CallState

def PolarGate.portalSys (gate : PolarGate) : PortalSys → Act CallAct Empty → Option PortalSys :=
  Threads.step .ready gate.portalStep (fun _ e => nomatch e)

/-- The call has not started or has returned. -/
def CallState.idle : CallState → Bool
  | .ready | .done _ => true
  | _ => false

/-- Steps of `ensure_activated` and `release_activation` calls for `key`, cache writes succeeding. -/
def OfKey (key : String) : Act CallAct Empty → Prop
  | .on _ (.ensureActivated k _) | .on _ (.releaseActivation k _) => k = key
  | .on _ (.portal _) | .on _ (.deactivated _) | .spawn => True
  | .on _ (.setActivation ok) => ok = true
  | _ => False

instance (key : String) : DecidablePred (OfKey key)
  | .spawn => .isTrue trivial
  | .on _ a => by cases a <;> unfold OfKey <;> infer_instance

/-- An `ensure_activated` call goes past its read only while no other call is in flight. -/
def PolarGate.ActivatesAlone (gate : PolarGate) (S : PortalSys) (_t : CallState) : CallAct → Prop
  | .ensureActivated key ok =>
    gate.beginActivate S.shared.store key ok = .done none ∨ ∀ u ∈ S.threads, u.idle = true
  | _ => True

instance (gate : PolarGate) (S : PortalSys) (t : CallState) (a : CallAct) :
    Decidable (gate.ActivatesAlone S t a) := by
  cases a <;> unfold PolarGate.ActivatesAlone <;> infer_instance

/-! ## What a step can do -/

/-- A step of an activation call, by what it does to the cache and the portal. -/
inductive PortalMove (gate : PolarGate) (key : String) (s : Licensing) :
    CallState → CallAct → Licensing → CallState → Prop where
  | beginActivate (ok : Bool) : PortalMove gate key s .ready (.ensureActivated key ok) s
      (gate.beginActivate s.store key ok)
  | beginRelease (ok : Bool) : PortalMove gate key s .ready (.releaseActivation key ok) s
      (gate.beginRelease s.store key ok)
  | granted (k id : String) (seen : Nat) :
      PortalMove gate key s (.activating k seen) (.portal (.activated id))
        { s with portal := ⟨s.portal.held ++ [id], s.portal.issued ++ [id]⟩ } (.activated k id seen)
  | refused (k : String) (seen : Nat) (o : ActivateOutcome) :
      PortalMove gate key s (.activating k seen) (.portal o) s (.done none)
  | stored (k id : String) (seen : Nat) :
      PortalMove gate key s (.activated k id seen) (.setActivation true)
        { s with store := { s.store with
            cache := s.store.cache.setActivation (gate.sha k) (some id) } } (.done none)
  | removed (k id : String) :
      PortalMove gate key s (.releasing k id) (.deactivated true)
        { s with portal := { s.portal with held := s.portal.held.filter (· != id) } } (.released k id)
  | kept (k id : String) :
      PortalMove gate key s (.releasing k id) (.deactivated false) s (.done none)
  | cleared (k id : String) :
      PortalMove gate key s (.released k id) (.setActivation true)
        { s with store := s.store.clear (gate.sha k) } (.done none)

theorem portalStep_move {gate : PolarGate} {key : String} {i : Nat} {s s' : Licensing}
    {t t' : CallState} {a : CallAct} (ha : OfKey key (.on i a))
    (h : gate.portalStep i s t a = some (s', t')) : PortalMove gate key s t a s' t' := by
  unfold PolarGate.portalStep at h
  split at h
  · rename_i store t1 portal hcall hportal
    cases h
    unfold PolarGate.callStep at hcall
    split at hcall
    · exact ha.elim
    · cases hcall; cases hportal; cases ha; exact .beginActivate _
    · cases hcall; cases hportal; cases ha; exact .beginRelease _
    · exact ha.elim
    · exact ha.elim
    · exact ha.elim
    · exact ha.elim
    · exact ha.elim
    · rename_i k seen o
      cases o with
      | activated id =>
        cases hcall
        simp only [Portal.answer] at hportal
        split at hportal
        · cases hportal
        · cases hportal; exact .granted k id seen
      | limitReached => cases hcall; cases hportal; exact .refused ..
      | unavailable why => cases hcall; cases hportal; exact .refused ..
    · cases ha; cases hcall; cases hportal; exact .stored ..
    · rename_i k id ok
      cases ok <;> cases hcall <;> cases hportal
      · exact .kept ..
      · exact .removed ..
    · cases ha; cases hcall; cases hportal; exact .cleared ..
    · cases hcall
  · cases h

section reads

variable {gate : PolarGate} {s : CallStore} {key : String} {ok : Bool}

/-- Past its read, `ensure_activated` has found the key's row without an id. -/
theorem beginActivate_cases : gate.beginActivate s key ok = .done none ∨
    (∃ row, s.cache.get (gate.sha key) = some row ∧ row.activationId = none) ∧
      gate.beginActivate s key ok = .activating key s.cleared.length := by
  unfold PolarGate.beginActivate
  split
  · exact Or.inl rfl
  · split
    · exact Or.inl rfl
    · rename_i row hrow
      obtain ⟨hread, -⟩ := Option.filter_eq_some_iff.1 hrow
      split
      · exact Or.inl rfl
      · rename_i hid
        refine Or.inr ⟨⟨row, ?_, by simpa using hid⟩, rfl⟩
        unfold CallStore.read at hread
        split at hread
        · exact hread
        · cases hread

/-- Past its read, `release_activation` has found an id. -/
theorem beginRelease_cases : gate.beginRelease s key ok = .done none ∨
    ∃ id, s.activation (gate.sha key) = some id ∧ gate.beginRelease s key ok = .releasing key id := by
  unfold PolarGate.beginRelease
  split
  · exact Or.inl rfl
  · rename_i id hid
    refine Or.inr ⟨id, ?_, rfl⟩
    unfold CallStore.read at hid
    split at hid
    · exact hid
    · cases hid

end reads

/-! ## The invariant -/

/-- Between its read and its write, `ensure_activated` is about to store an id. -/
def CallState.activates : CallState → Bool
  | .activating _ _ | .activated _ _ _ => true
  | _ => false

/-- What the portal holds and what is stored may differ on account of this call. -/
def CallState.unsettled : CallState → Bool
  | .activating _ _ | .activated _ _ _ | .released _ _ => true
  | _ => false

theorem idle_not_activates {t : CallState} (h : t.idle = true) : t.activates = false := by
  cases t <;> first | rfl | cases h

theorem idle_not_unsettled {t : CallState} (h : t.idle = true) : t.unsettled = false := by
  cases t <;> first | rfl | cases h

section invariant

variable (gate : PolarGate) (key : String)

/-- The id in the key's row. -/
def Licensing.activation (s : Licensing) : Option String := s.store.activation (gate.sha key)

/-- What a call in flight knows about the portal and the row. -/
def Knows (s : Licensing) : CallState → Prop
  | .ready | .done _ => True
  | .activating k _ =>
    k = key ∧ (s.store.cache.get (gate.sha key)).isSome ∧ s.activation gate key = none ∧
      s.portal.held = []
  | .activated k id _ =>
    k = key ∧ (s.store.cache.get (gate.sha key)).isSome ∧ s.activation gate key = none ∧
      s.portal.held = [id]
  | .releasing k id => k = key ∧ (s.portal.held = [] ∨ s.portal.held = [id])
  | .released k _ => k = key ∧ s.portal.held = []
  | _ => False

structure Accounted (S : PortalSys) : Prop where
  /-- A call that is about to store an id is the only one in flight. -/
  alone : ∀ (i j : Nat) (t u : CallState), S.threads[i]? = some t → S.threads[j]? = some u → i ≠ j →
    t.activates = true → u.idle = true
  knows : ∀ (i : Nat) (t : CallState), S.threads[i]? = some t → Knows gate key S.shared t
  settled : (∀ (i : Nat) (t : CallState), S.threads[i]? = some t → t.unsettled = false) →
    S.shared.portal.held = (S.shared.activation gate key).toList

variable {gate key}

theorem knows_idle {s : Licensing} {t : CallState} (h : t.idle = true) : Knows gate key s t := by
  cases t <;> trivial

theorem Knows.held_le_one {s : Licensing} {t : CallState} (h : Knows gate key s t)
    (ht : t.unsettled = true) : s.portal.held.length ≤ 1 := by
  cases t <;> simp only [CallState.unsettled, Bool.false_eq_true] at ht
  · rw [h.2.2.2]; simp
  · rw [h.2.2.2]; simp
  · rw [h.2]; simp

/-- At most one activation is held, whoever is in flight. -/
theorem Accounted.held_le_one {S : PortalSys} (h : Accounted gate key S) :
    S.shared.portal.held.length ≤ 1 := by
  by_cases hs : ∀ (i : Nat) (t : CallState), S.threads[i]? = some t → t.unsettled = false
  · rw [h.settled hs]
    cases S.shared.activation gate key <;> simp
  · push Not at hs
    obtain ⟨i, t, hi, ht⟩ := hs
    exact (h.knows i t hi).held_le_one (by simpa using ht)

/-- One call moves: what must be shown of it and of the others. -/
theorem Accounted.moved {S : PortalSys} (h : Accounted gate key S) {i : Nat} {t t' : CallState}
    {s' : Licensing} (hi : S.threads[i]? = some t) (hown : Knows gate key s' t')
    (hothers : ∀ (j : Nat) (u : CallState), j ≠ i → S.threads[j]? = some u →
      Knows gate key s' u ∧ (t'.activates = true → u.idle = true) ∧
        (u.activates = true → t'.idle = true))
    (hsettled : (∀ (j : Nat) (u : CallState), j ≠ i → S.threads[j]? = some u → u.unsettled = false) →
      t'.unsettled = false → s'.portal.held = (s'.activation gate key).toList) :
    Accounted gate key ⟨s', S.threads.set i t'⟩ where
  alone := by
    intro a b u v ha hb hab hu
    rcases getElem?_set_cases hi ha with ⟨rfl, rfl⟩ | ⟨hai, ha'⟩
    · rcases getElem?_set_cases hi hb with ⟨rfl, rfl⟩ | ⟨hbi, hb'⟩
      · exact absurd rfl hab
      · exact (hothers b v hbi hb').2.1 hu
    · rcases getElem?_set_cases hi hb with ⟨rfl, rfl⟩ | ⟨hbi, hb'⟩
      · exact (hothers a u hai ha').2.2 hu
      · exact h.alone a b u v ha' hb' hab hu
  knows := by
    intro a u ha
    rcases getElem?_set_cases hi ha with ⟨rfl, rfl⟩ | ⟨hai, ha'⟩
    · exact hown
    · exact (hothers a u hai ha').1
  settled := by
    intro hs
    refine hsettled (fun j u hj hu => hs j u (getElem?_set_other hj hu)) ?_
    exact hs i t' (getElem?_set_moved hi)

/-- A call in flight that is not about to store an id: nobody is. -/
theorem Accounted.not_activates {S : PortalSys} (h : Accounted gate key S) {i : Nat} {t : CallState}
    (hi : S.threads[i]? = some t) (ht : t.idle = false) {j : Nat} {u : CallState} (hj : j ≠ i)
    (hu : S.threads[j]? = some u) : u.activates = false := by
  rw [← Bool.not_eq_true]
  intro ha
  rw [h.alone j i u t hu hi hj ha] at ht
  cases ht

section step

variable {S : PortalSys} {i : Nat} {t : CallState} {s' : Licensing}

/-- Portal and row agree when the other calls are settled and the mover was. -/
theorem Accounted.held_eq (h : Accounted gate key S) (hi : S.threads[i]? = some t)
    (ht : t.unsettled = false)
    (hs : ∀ (j : Nat) (u : CallState), j ≠ i → S.threads[j]? = some u → u.unsettled = false) :
    S.shared.portal.held = (S.shared.activation gate key).toList := by
  refine h.settled fun j u hu => ?_
  by_cases hji : j = i
  · rw [hji, hi] at hu
    cases hu
    exact ht
  · exact hs j u hji hu

/-- A call returns. -/
theorem Accounted.returned (h : Accounted gate key S) (hi : S.threads[i]? = some t)
    (hothers : ∀ (j : Nat) (u : CallState), j ≠ i → S.threads[j]? = some u → Knows gate key s' u)
    (hs : (∀ (j : Nat) (u : CallState), j ≠ i → S.threads[j]? = some u → u.unsettled = false) →
      s'.portal.held = (s'.activation gate key).toList) :
    Accounted gate key ⟨s', S.threads.set i (.done none)⟩ :=
  h.moved hi trivial (fun j u hj hu => ⟨hothers j u hj hu, nofun, fun _ => rfl⟩) fun hu _ => hs hu

/-- A call returns without having touched anything. -/
theorem Accounted.quit (h : Accounted gate key S) (hi : S.threads[i]? = some t)
    (ht : t.unsettled = false) : Accounted gate key ⟨S.shared, S.threads.set i (.done none)⟩ :=
  h.returned hi (fun j u _ hu => h.knows j u hu) (h.held_eq hi ht)

/-- A call moves on towards its store, with every other call idle. -/
theorem Accounted.activates (h : Accounted gate key S) (hi : S.threads[i]? = some t) {t' : CallState}
    (hown : Knows gate key s' t') (ht' : t'.unsettled = true)
    (hidle : ∀ (j : Nat) (u : CallState), j ≠ i → S.threads[j]? = some u → u.idle = true) :
    Accounted gate key ⟨s', S.threads.set i t'⟩ := by
  refine h.moved hi hown (fun j u hj hu => ⟨knows_idle (hidle j u hj hu), fun _ => hidle j u hj hu, ?_⟩) ?_
  · intro ha
    rw [idle_not_activates (hidle j u hj hu)] at ha
    cases ha
  · intro _ hsettled
    rw [ht'] at hsettled
    cases hsettled

theorem Accounted.beginActivate (h : Accounted gate key S) {ok : Bool}
    (hg : gate.ActivatesAlone S .ready (.ensureActivated key ok)) (hi : S.threads[i]? = some .ready) :
    Accounted gate key ⟨S.shared, S.threads.set i (gate.beginActivate S.shared.store key ok)⟩ := by
  rcases @beginActivate_cases gate S.shared.store key ok with hd | ⟨⟨row, hrow, hid⟩, hact⟩
  · rw [hd]
    exact h.quit hi rfl
  · have hidle : ∀ (j : Nat) (u : CallState), S.threads[j]? = some u → u.idle = true := by
      rcases hg with hg | hg
      · rw [hact] at hg; cases hg
      · exact fun j u hu => hg u (List.mem_of_getElem? hu)
    have hnone : S.shared.activation gate key = none := by
      simp [Licensing.activation, CallStore.activation, hrow, hid]
    have hheld : S.shared.portal.held = [] := by
      rw [h.settled fun j u hu => idle_not_unsettled (hidle j u hu), hnone]
      rfl
    rw [hact]
    exact h.activates hi ⟨rfl, by rw [hrow]; rfl, hnone, hheld⟩ rfl fun j u _ hu => hidle j u hu

/-- With an id stored nobody is about to store another. -/
theorem Accounted.stored_not_activates (h : Accounted gate key S) {id : String}
    (hid : S.shared.activation gate key = some id) {j : Nat} {u : CallState}
    (hu : S.threads[j]? = some u) : u.activates = false := by
  have hk := h.knows j u hu
  cases u <;> first | rfl | cases hid.symm.trans hk.2.2.1

/-- With an id stored the portal holds it, or has just let it go. -/
theorem Accounted.stored_held (h : Accounted gate key S) {id : String}
    (hid : S.shared.activation gate key = some id) :
    S.shared.portal.held = [] ∨ S.shared.portal.held = [id] := by
  by_cases hs : ∀ (j : Nat) (u : CallState), S.threads[j]? = some u → u.unsettled = false
  · right
    rw [h.settled hs, hid]
    rfl
  · left
    push Not at hs
    obtain ⟨j, u, hu, hun⟩ := hs
    have hk := h.knows j u hu
    have ha := h.stored_not_activates hid hu
    cases u <;> first | exact absurd rfl hun | exact hk.2 | cases ha

theorem Accounted.beginRelease (h : Accounted gate key S) {ok : Bool}
    (hi : S.threads[i]? = some .ready) :
    Accounted gate key ⟨S.shared, S.threads.set i (gate.beginRelease S.shared.store key ok)⟩ := by
  rcases @beginRelease_cases gate S.shared.store key ok with hd | ⟨id, hid, hrel⟩
  · rw [hd]
    exact h.quit hi rfl
  · rw [hrel]
    refine h.moved hi ⟨rfl, h.stored_held hid⟩ (fun j u _ hu => ⟨h.knows j u hu, nofun, fun ha => ?_⟩)
      fun hs _ => h.held_eq hi rfl hs
    rw [h.stored_not_activates hid hu] at ha
    cases ha

theorem Accounted.removed (h : Accounted gate key S) {id : String}
    (hi : S.threads[i]? = some (.releasing key id)) :
    Accounted gate key ⟨{ S.shared with portal :=
      { S.shared.portal with held := S.shared.portal.held.filter (· != id) } },
      S.threads.set i (.released key id)⟩ := by
  have hempty : S.shared.portal.held.filter (· != id) = [] := by
    rcases (h.knows i _ hi).2 with hheld | hheld <;> simp [hheld]
  refine h.moved hi ⟨rfl, hempty⟩ (fun j u hj hu => ?_) (fun _ => nofun)
  have hnot := h.not_activates hi rfl hj hu
  refine ⟨?_, nofun, fun ha => ?_⟩
  · have hk := h.knows j u hu
    cases u <;> first | trivial | exact ⟨hk.1, Or.inl hempty⟩ | exact ⟨hk.1, hempty⟩
  · rw [hnot] at ha; cases ha

theorem accounted_step {t' : CallState} {a : CallAct} (h : Accounted gate key S)
    (hg : gate.ActivatesAlone S t a) (hi : S.threads[i]? = some t)
    (hm : PortalMove gate key S.shared t a s' t') : Accounted gate key ⟨s', S.threads.set i t'⟩ := by
  have hknown := h.knows i t hi
  cases hm with
  | beginActivate ok => exact h.beginActivate hg hi
  | beginRelease ok => exact h.beginRelease hi
  | granted k id seen =>
    obtain ⟨rfl, hrow, hnone, hheld⟩ := hknown
    exact h.activates hi ⟨rfl, hrow, hnone, by simp [hheld]⟩ rfl
      fun j u hj hu => h.alone i j _ u hi hu (Ne.symm hj) rfl
  | refused k seen o =>
    obtain ⟨rfl, -, hnone, hheld⟩ := hknown
    refine h.returned hi (fun j u _ hu => h.knows j u hu) fun _ => ?_
    rw [hheld, hnone]
    rfl
  | stored k id seen =>
    obtain ⟨rfl, hrow, hnone, hheld⟩ := hknown
    refine h.returned hi (fun j u hj hu => knows_idle (h.alone i j _ u hi hu (Ne.symm hj) rfl)) fun _ => ?_
    obtain ⟨row, hrow⟩ := Option.isSome_iff_exists.1 hrow
    simp [hheld, Licensing.activation, CallStore.activation, LicenseCache.get_setActivation, hrow]
  | removed k id =>
    obtain ⟨rfl, -⟩ := hknown
    exact h.removed hi
  | kept k id => exact h.quit hi rfl
  | cleared k id =>
    obtain ⟨rfl, hheld⟩ := hknown
    refine h.returned hi (fun j u hj hu => ?_) fun _ => ?_
    · have hk := h.knows j u hu
      have hnot := h.not_activates hi rfl hj hu
      cases u <;> trivial
    · simp only [hheld, Licensing.activation, CallStore.activation, CallStore.clear,
        LicenseCache.get_setActivation, if_true]
      cases S.shared.store.cache.get (gate.sha k) <;> rfl

end step

end invariant

/-! ## Runs -/

/-- **No activation is lost.** Any number of `ensure_activated` and `release_activation` calls for one
key, started where the portal holds what is stored. If no `ensure_activated` call goes past its read
while another call on the key is in flight, then in every state the relay holds at most one activation,
and whenever no call is in flight it holds exactly the one whose id is stored, or none. -/
theorem activations_accounted (gate : PolarGate) (key : String) (S : PortalSys)
    (sched : List (Act CallAct Empty)) (hidle : ∀ t ∈ S.threads, t.idle = true)
    (hheld : S.shared.portal.held = (S.shared.store.activation (gate.sha key)).toList)
    (hkey : ∀ act ∈ sched, OfKey key act)
    (halone : Lts.Steps gate.portalSys (OnStep gate.ActivatesAlone) S sched) :
    Lts.Always gate.portalSys (fun S => S.shared.portal.held.length ≤ 1 ∧
      ((∀ t ∈ S.threads, t.idle = true) →
        S.shared.portal.held = (S.shared.store.activation (gate.sha key)).toList)) S sched := by
  have hacts : Lts.Steps gate.portalSys (fun _ act => OfKey key act) S sched :=
    Lts.steps_of_forall hkey
  refine Lts.always_of_inv (I := Accounted gate key) (fun S act S' h hg hstep => ?_)
    (fun S h => ⟨h.held_le_one, fun hidle => h.settled fun i t hi =>
      idle_not_unsettled (hidle t (List.mem_of_getElem? hi))⟩) ?_ (hacts.and halone)
  · cases act with
    | spawn =>
      cases hstep
      refine ⟨fun i j t u hi hj hij ha => ?_, fun i t hi => ?_, fun hs => h.settled fun i t hi => ?_⟩
      · rcases getElem?_spawn hj with hj | rfl
        · rcases getElem?_spawn hi with hi | rfl
          · exact h.alone i j t u hi hj hij ha
          · cases ha
        · rfl
      · rcases getElem?_spawn hi with hi | rfl
        · exact h.knows i t hi
        · trivial
      · exact hs i t (getElem?_spawn_old hi)
    | on i a =>
      obtain ⟨t, s', t', hi, hmove, rfl⟩ := step_on hstep
      exact accounted_step h (hg.2 t hi) hi (portalStep_move hg.1 hmove)
    | env e => cases e
  · refine ⟨fun i j t u hi hj _ _ => hidle u (List.mem_of_getElem? hj), fun i t hi => ?_, fun _ => hheld⟩
    exact knows_idle (hidle t (List.mem_of_getElem? hi))

/-- The row of a granted key, with no activation yet. -/
def grantedKey : PortalSys :=
  ⟨⟨{ cache := LicenseCache.empty.upsert ⟨soloGate.sha "key", "ann", "solo", some 2, .granted, none, 500⟩ },
    ⟨[], []⟩⟩, []⟩

/-- Two claims activate the key one after the other's call; two releases overlap. -/
def activatedInTurn : List (Act CallAct Empty) :=
  [.spawn, .spawn, .spawn, .spawn, .on 0 (.ensureActivated "key" true), .on 0 (.portal (.activated "a1")),
    .on 0 (.setActivation true), .on 1 (.ensureActivated "key" true),
    .on 2 (.releaseActivation "key" true), .on 3 (.releaseActivation "key" true),
    .on 2 (.deactivated true), .on 2 (.setActivation true), .on 3 (.deactivated false)]

theorem activations_accounted_inTurn :
    (∃ S, Lts.run soloGate.portalSys grantedKey activatedInTurn = some S ∧
      S.shared.portal = ⟨[], ["a1"]⟩) ∧
    Lts.Always soloGate.portalSys (fun S => S.shared.portal.held.length ≤ 1 ∧
      ((∀ t ∈ S.threads, t.idle = true) →
        S.shared.portal.held = (S.shared.store.activation (soloGate.sha "key")).toList))
      grantedKey activatedInTurn :=
  ⟨⟨_, rfl, by decide⟩, activations_accounted soloGate "key" grantedKey activatedInTurn (by decide)
    (by decide) (by decide) (by decide)⟩

/-- Two calls read before either has written. -/
def activatedTogether : List (Act CallAct Empty) :=
  [.spawn, .spawn, .on 0 (.ensureActivated "key" true), .on 1 (.ensureActivated "key" true),
    .on 0 (.portal (.activated "a1")), .on 1 (.portal (.activated "a2")), .on 0 (.setActivation true),
    .on 1 (.setActivation true)]

/-- Both calls have returned, the portal counts two activations, and only the second can be released. -/
theorem second_activation_leaked : ∃ S,
    Lts.run soloGate.portalSys grantedKey activatedTogether = some S ∧
    (∀ t ∈ S.threads, t.idle = true) ∧ S.shared.portal.held = ["a1", "a2"] ∧
    S.shared.store.activation (soloGate.sha "key") = some "a2" :=
  ⟨_, rfl, by decide⟩

end EtherTunnel
