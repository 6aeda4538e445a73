import EtherTunnel.Polar.Calls

/-!
# Which outcome the cache holds

A call stamps its outcome with the clock reading it took before it asked (`polar.rs:620`), and `upsert`
overwrites whatever is there (`:450-475`). The row therefore holds the outcome that was written last,
not the one that was obtained last. A denial also carries the whole row read before the wait, with its
activation id (`:683-692`), into a `COALESCE` that was written for calls that pass none.

`license_rows_recent` names the conditions under which the row is nevertheless the most recent outcome
and a released activation stays released: outcomes are stored in the order of their stamps, and an
activation is cleared while no other call still carries it. `late_write_back` violates both.
-/

namespace EtherTunnel

open Threads

/-- A key's hash, an activation id, and how many clearings the call had seen when it read. -/
abbrev Carried := List UInt8 × String × Nat

namespace PolarGate

variable (gate : PolarGate)

/-- The row a step stores. -/
def storing : CallState → CallAct → Option LicenseRow
  | .authGrant key now customerId benefitId, .upsert true =>
    some (gate.policy.grantedRow (gate.sha key) now customerId benefitId)
  | .authDeny key now cached _, .upsert true => some (deniedRow (gate.sha key) now cached)
  | _, _ => none

/-- The activation id a call carries. -/
def carrying : CallState → Option Carried
  | .authAsked _ _ (some row) seen | .authDeny _ _ (some row) seen =>
    row.activationId.map (row.keyHash, ·, seen)
  | .activated key activationId seen => some (gate.sha key, activationId, seen)
  | _ => none

/-- The activation id a step writes into a row. -/
def writing : CallState → CallAct → Option Carried
  | .authDeny key now cached seen, .upsert true => gate.carrying (.authDeny key now cached seen)
  | .activated key activationId seen, .setActivation true =>
    gate.carrying (.activated key activationId seen)
  | _, _ => none

/-- The key whose activation a step clears. -/
def clearing : CallState → CallAct → Option (List UInt8)
  | .released key _, .setActivation true => some (gate.sha key)
  | _, _ => none

/-- The activation id the portal issues in a step. -/
def issuing : CallState → CallAct → Option (List UInt8 × String)
  | .activating key _, .portal (.activated activationId) => some (gate.sha key, activationId)
  | _, _ => none

/-- An outcome is stored only if none with a later stamp has been stored for its key. -/
abbrev InOrder : CallSys → Act CallAct Empty → Prop := OnStep fun S t a =>
  ∀ row ∈ gate.storing t a, ∀ o ∈ S.shared.stored, o.keyHash = row.keyHash →
    o.validatedAt ≤ row.validatedAt

/-- An activation is cleared only while no call carries it. -/
abbrev ClearedAlone : CallSys → Act CallAct Empty → Prop := OnStep fun S t a =>
  ∀ h ∈ gate.clearing t a, ∀ id ∈ S.shared.activation h, ∀ u ∈ S.threads,
    ∀ p ∈ gate.carrying u, (p.1, p.2.1) ≠ (h, id)

/-- The portal does not issue an activation id that was cleared. -/
abbrev FreshIds : CallSys → Act CallAct Empty → Prop := OnStep fun S t a =>
  ∀ p ∈ gate.issuing t a, p ∉ S.shared.cleared

/-- An activation id that was cleared after the call read its row is not written. -/
abbrev NotWrittenBack : CallSys → Act CallAct Empty → Prop := OnStep fun S t a =>
  ∀ p ∈ gate.writing t a, (p.1, p.2.1) ∉ S.shared.cleared.drop p.2.2

end PolarGate

/-! ## Outcomes -/

/-- The row holds the outcome `o`. -/
structure LicenseRow.Holds (row o : LicenseRow) : Prop where
  keyHash : row.keyHash = o.keyHash
  status : row.status = o.status
  customerId : row.customerId = o.customerId
  benefitId : row.benefitId = o.benefitId
  validatedAt : row.validatedAt = o.validatedAt

/-- `o` is stored, and no outcome stored for its key has a later stamp. -/
structure CallStore.Latest (s : CallStore) (o : LicenseRow) : Prop where
  stored : o ∈ s.stored
  latest : ∀ o' ∈ s.stored, o'.keyHash = o.keyHash → o'.validatedAt ≤ o.validatedAt

/-- Every row holds a latest outcome of its key. -/
def Recent (s : CallStore) : Prop := ∀ r ∈ s.cache.rows, ∃ o, s.Latest o ∧ r.Holds o

section steps

variable {gate : PolarGate} {s s' : CallStore} {t t' : CallState} {a : CallAct}

/-- Storing an outcome: its key's row holds it, whatever the row was before. -/
theorem mem_rows_store {row r : LicenseRow} (h : r ∈ (s.store row).cache.rows) :
    r.Holds row ∨ (r.keyHash ≠ row.keyHash ∧ r ∈ s.cache.rows) := by
  rw [LicenseCache.mem_rows_iff] at h ⊢
  rw [CallStore.store, LicenseCache.get_upsert] at h
  split at h
  · rename_i hk
    left
    cases hold : s.cache.get r.keyHash with
    | none =>
      rw [hold] at h
      cases h
      exact ⟨rfl, rfl, rfl, rfl, rfl⟩
    | some old =>
      rw [hold, Option.some.injEq] at h
      rw [← h]
      exact ⟨rfl, rfl, rfl, rfl, rfl⟩
  · rename_i hk
    exact Or.inr ⟨hk, h⟩

theorem recent_store {row : LicenseRow} (h : Recent s)
    (horder : ∀ o ∈ s.stored, o.keyHash = row.keyHash → o.validatedAt ≤ row.validatedAt) :
    Recent (s.store row) := by
  intro r hr
  rcases mem_rows_store hr with hnew | ⟨hne, hold⟩
  · refine ⟨row, ⟨by simp [CallStore.store], fun o' ho' hk => ?_⟩, hnew⟩
    rcases List.mem_append.1 ho' with ho' | ho'
    · exact horder o' ho' hk
    · rw [List.mem_singleton.1 ho']
  · obtain ⟨o, hlatest, hholds⟩ := h r hold
    refine ⟨o, ⟨List.mem_append_left _ hlatest.stored, fun o' ho' hk => ?_⟩, hholds⟩
    rcases List.mem_append.1 ho' with ho' | ho'
    · exact hlatest.latest o' ho' hk
    · rw [List.mem_singleton.1 ho'] at hk
      exact absurd (hholds.keyHash.trans hk.symm) hne

/-- A step that stores nothing leaves rows of earlier rows, up to their activation ids. -/
theorem Recent.of_rows (h : Recent s) (hstored : s'.stored = s.stored)
    (hrows : ∀ r' ∈ s'.cache.rows, ∃ r ∈ s.cache.rows, r'.Holds r) : Recent s' := by
  intro r' hr'
  obtain ⟨r, hr, hsame⟩ := hrows r' hr'
  obtain ⟨o, hlatest, hholds⟩ := h r hr
  refine ⟨o, ⟨hstored ▸ hlatest.stored, fun o' ho' => hlatest.latest o' (hstored ▸ ho')⟩, ?_⟩
  exact ⟨hsame.keyHash.trans hholds.keyHash, hsame.status.trans hholds.status,
    hsame.customerId.trans hholds.customerId, hsame.benefitId.trans hholds.benefitId,
    hsame.validatedAt.trans hholds.validatedAt⟩

theorem holds_setActivation {h : List UInt8} {id : Option String} :
    ∀ r' ∈ (s.cache.setActivation h id).rows, ∃ r ∈ s.cache.rows, r'.Holds r := by
  intro r' hr'
  obtain ⟨r, hr, rfl⟩ := List.mem_map.1 hr'
  refine ⟨r, hr, ?_⟩
  split <;> exact ⟨rfl, rfl, rfl, rfl, rfl⟩

/-- What a step adds to the history of stored outcomes. -/
theorem CallMove.stored (hmove : CallMove gate s t a s' t') :
    s'.stored = s.stored ++ (gate.storing t a).toList ∨ s'.stored = s.stored := by
  cases hmove with
  | grant | deny => exact Or.inl rfl
  | _ => exact Or.inr rfl

/-- **One step keeps the rows recent**, if it stores in order. -/
theorem CallMove.recent (hmove : CallMove gate s t a s' t') (h : Recent s)
    (horder : ∀ row ∈ gate.storing t a, ∀ o ∈ s.stored, o.keyHash = row.keyHash →
      o.validatedAt ≤ row.validatedAt) : Recent s' := by
  cases hmove with
  | grant | deny => exact recent_store h (horder _ rfl)
  | sweep key now seen =>
    refine h.of_rows rfl fun r hr => ⟨r, (List.mem_filter.1 hr).1, ?_⟩
    exact ⟨rfl, rfl, rfl, rfl, rfl⟩
  | activate | clear => exact h.of_rows rfl holds_setActivation
  | _ => exact h

/-! ## Activation ids -/

/-- No id the call carries was cleared after it read. -/
def Unreleased (gate : PolarGate) (t : CallState) (s : CallStore) : Prop :=
  ∀ p ∈ gate.carrying t, (p.1, p.2.1) ∉ s.cleared.drop p.2.2

theorem writing_carrying {p : Carried} (h : gate.writing t a = some p) :
    gate.carrying t = some p := by
  unfold PolarGate.writing at h
  split at h
  · exact h
  · exact h
  · cases h

theorem CallMove.cleared (hmove : CallMove gate s t a s' t') :
    s'.cleared = s.cleared ∨
      ∃ h, gate.clearing t a = some h ∧
        s'.cleared = s.cleared ++ ((s.activation h).map (h, ·)).toList := by
  cases hmove with
  | clear key activationId => exact Or.inr ⟨gate.sha key, rfl, rfl⟩
  | _ => exact Or.inl rfl

/-- A call that does not carry the id being cleared is not affected. -/
theorem Unreleased.others {u : CallState} (hmove : CallMove gate s t a s' t')
    (halone : ∀ h ∈ gate.clearing t a, ∀ id ∈ s.activation h, ∀ p ∈ gate.carrying u,
      (p.1, p.2.1) ≠ (h, id))
    (hu : Unreleased gate u s) : Unreleased gate u s' := by
  intro p hp hmem
  rcases hmove.cleared with hsame | ⟨h, hclear, happ⟩
  · rw [hsame] at hmem
    exact hu p hp hmem
  · rw [happ, List.drop_append] at hmem
    rcases List.mem_append.1 hmem with hold | hnew
    · exact hu p hp hold
    · have hin := List.mem_of_mem_drop hnew
      cases hid : s.activation h with
      | none => simp [hid] at hin
      | some id =>
        rw [hid] at hin
        exact halone h hclear id hid p hp (List.mem_singleton.1 hin)

theorem unreleased_read {key : String} {now : Int} {ok : Bool} :
    Unreleased gate (gate.beginAuth s key now ok) s := by
  unfold PolarGate.beginAuth
  dsimp only
  intro p hp
  split at hp
  · cases hp
  · split at hp
    · split at hp <;> cases hp
    · have hseen : p.2.2 = s.cleared.length := by
        cases hread : s.read ok (gate.sha key) with
        | none => rw [hread] at hp; cases hp
        | some row =>
          rw [hread] at hp
          obtain ⟨id, -, rfl⟩ := Option.map_eq_some_iff.1 hp
          rfl
      rw [hseen, List.drop_length]
      exact List.not_mem_nil

theorem unreleased_answer {key : String} {now : Int} {cached : Option LicenseRow} {seen : Nat}
    {o : ValidateOutcome} (h : Unreleased gate (.authAsked key now cached seen) s) :
    Unreleased gate (gate.onAnswer key now cached seen o) s := by
  cases o with
  | granted => intro p hp; cases hp
  | notLicensed =>
    simp only [PolarGate.onAnswer]
    cases cached with
    | none => intro p hp; cases hp
    | some row => exact h
  | unavailable =>
    simp only [PolarGate.onAnswer]
    split <;> (intro p hp; cases hp)

/-- The call that moved carries no id cleared since its read. -/
theorem CallMove.unreleased (hmove : CallMove gate s t a s' t') (h : Unreleased gate t s)
    (hfresh : ∀ p ∈ gate.issuing t a, p ∉ s.cleared) : Unreleased gate t' s' := by
  cases hmove with
  | authenticate => exact unreleased_read
  | ensureActivated key ok =>
    unfold PolarGate.beginActivate
    intro p hp
    split at hp
    · cases hp
    · split at hp
      · cases hp
      · split at hp <;> cases hp
  | releaseActivation key ok =>
    unfold PolarGate.beginRelease
    intro p hp
    split at hp <;> cases hp
  | answer => exact unreleased_answer h
  | portal key seen activationId =>
    intro p hp hmem
    cases hp
    exact hfresh _ rfl (List.mem_of_mem_drop hmem)
  | grant =>
    intro p hp
    split at hp <;> cases hp
  | sweep | unswept | deny | resolve | activate | deactivated | clear | quit =>
    intro p hp; cases hp

end steps

/-! ## Runs -/

/-- The shared and the per-call invariant. -/
def RecentSys (gate : PolarGate) (S : CallSys) : Prop :=
  Recent S.shared ∧ All (fun _ t s => Unreleased gate t s) S

theorem recentSys_step {gate : PolarGate} {S S' : CallSys} {act : Act CallAct Empty}
    (hinv : RecentSys gate S)
    (hG : gate.InOrder S act ∧ gate.ClearedAlone S act ∧ gate.FreshIds S act)
    (hs : gate.callSys S act = some S') : RecentSys gate S' := by
  refine step_inv (J := fun _ t s => Unreleased gate t s)
    (G := fun S act => gate.InOrder S act ∧ gate.ClearedAlone S act ∧ gate.FreshIds S act)
    hinv.1 hinv.2 hG hs (fun i s _ p hp => nomatch hp) ?_ ?_ (fun e => nomatch e)
  · intro i a t s' t' hG ht hJ hst
    have hmove := callStep_move hst
    exact ⟨hmove.recent hinv.1 (hG.1 t ht), hmove.unreleased hJ (hG.2.2 t ht)⟩
  · intro i a t s' t' hG ht hJ hst j u hji hu hJu
    exact hJu.others (callStep_move hst) fun h hh id hid =>
      hG.2.1 t ht h hh id hid u (List.mem_of_getElem? hu)

/-- Stored outcomes are never forgotten. -/
theorem stored_step {gate : PolarGate} {S S' : CallSys} {act : Act CallAct Empty} {o : LicenseRow}
    (ho : o ∈ S.shared.stored) (hs : gate.callSys S act = some S') : o ∈ S'.shared.stored := by
  cases act with
  | spawn => cases hs; exact ho
  | on i a =>
    obtain ⟨t, s', t', ht, hst, rfl⟩ := step_on hs
    rcases (callStep_move hst).stored with h | h
    · rw [h]; exact List.mem_append_left _ ho
    · rw [h]; exact ho
  | env e => exact nomatch e

/-- **License-cache recency**, in every run that stores outcomes in the order of their stamps and
clears an activation only while no other call carries it: a row's stamp never goes back, the row holds
the stored outcome with the greatest stamp, and a call never writes back an activation id that was
cleared after it read the row. -/
theorem license_rows_recent (gate : PolarGate) (sched later : CallSchedule)
    (horder : Lts.Steps gate.callSys gate.InOrder CallSys.init (sched ++ later))
    (hclear : Lts.Steps gate.callSys gate.ClearedAlone CallSys.init (sched ++ later))
    (hfresh : Lts.Steps gate.callSys gate.FreshIds CallSys.init (sched ++ later))
    {S S' : CallSys} (hrun : Lts.run gate.callSys CallSys.init sched = some S)
    (hlater : Lts.run gate.callSys S later = some S') :
    (∀ h r r', S.shared.cache.get h = some r → S'.shared.cache.get h = some r' →
      r.validatedAt ≤ r'.validatedAt) ∧
    (∀ h r, S'.shared.cache.get h = some r → ∃ o ∈ S'.shared.stored, o.keyHash = h ∧
      (∀ o' ∈ S'.shared.stored, o'.keyHash = h → o'.validatedAt ≤ o.validatedAt) ∧
      r.status = o.status ∧ r.customerId = o.customerId ∧ r.benefitId = o.benefitId ∧
      r.validatedAt = o.validatedAt) ∧
    Lts.Steps gate.callSys gate.NotWrittenBack CallSys.init (sched ++ later) := by
  have hguard := horder.and (hclear.and hfresh)
  have hinit : RecentSys gate CallSys.init := ⟨fun r hr => (nomatch hr), fun i t ht => (nomatch ht)⟩
  have hS : RecentSys gate S := Lts.run_inv (fun _ _ _ => recentSys_step) hinit hguard.left hrun
  have hS' : RecentSys gate S' := Lts.run_inv (fun _ _ _ => recentSys_step) hS
    (Lts.steps_append hguard hrun) hlater
  refine ⟨fun h r r' hr hr' => ?_, fun h r hr => ?_, ?_⟩
  · -- the outcome held before is still stored, and the one held after has a later stamp
    obtain ⟨hmem, rfl⟩ := LicenseCache.get_eq_some.1 hr
    obtain ⟨hmem', hk'⟩ := LicenseCache.get_eq_some.1 hr'
    obtain ⟨o, hlatest, hholds⟩ := hS.1 r hmem
    obtain ⟨o', hlatest', hholds'⟩ := hS'.1 r' hmem'
    have hstill : o ∈ S'.shared.stored :=
      Lts.run_inv (G := fun _ _ => True) (fun _ _ _ ho _ hs => stored_step ho hs) hlatest.stored
        (Lts.steps_of_forall fun _ _ => trivial) hlater
    rw [hholds.validatedAt, hholds'.validatedAt]
    exact hlatest'.latest o hstill (by rw [← hholds.keyHash, ← hk', hholds'.keyHash])
  · obtain ⟨hmem, rfl⟩ := LicenseCache.get_eq_some.1 hr
    obtain ⟨o, hlatest, hholds⟩ := hS'.1 r hmem
    refine ⟨o, hlatest.stored, hholds.keyHash.symm, ?_, hholds.status, hholds.customerId,
      hholds.benefitId, hholds.validatedAt⟩
    rw [hholds.keyHash]
    exact hlatest.latest
  · refine Lts.steps_of_inv (fun _ _ _ => recentSys_step) (fun S act hinv _ => ?_) hinit hguard
    cases act with
    | on i a => exact fun t ht p hp => hinv.2 i t ht p (writing_carrying hp)
    | spawn | env => trivial

/-- A key is granted and activated; then two calls ask about it, at 600 and at 610. -/
def grantedActivated : CallSchedule :=
  [.spawn, .spawn, .spawn, .spawn, .spawn,
    .on 0 (.authenticate "key" 500 true), .on 0 (.answer (.granted "ann" "solo")),
    .on 0 (.upsert true), .on 0 (.resolve (some 1)),
    .on 1 (.ensureActivated "key" true), .on 1 (.portal (.activated "act")),
    .on 1 (.setActivation true),
    .on 2 (.authenticate "key" 600 true), .on 3 (.authenticate "key" 610 true)]

/-- The two answers are stored in order, and the activation is released after that. -/
def storedInOrder : CallSchedule :=
  [.on 2 (.answer (.granted "ann" "solo")), .on 2 (.upsert true),
    .on 3 (.answer .notLicensed), .on 3 (.upsert true),
    .on 4 (.releaseActivation "key" true), .on 4 (.deactivated true), .on 4 (.setActivation true)]

theorem license_rows_recent_inOrder : ∃ S S',
    Lts.run soloGate.callSys CallSys.init grantedActivated = some S ∧
    Lts.run soloGate.callSys S storedInOrder = some S' ∧
    S'.shared.activation (soloGate.sha "key") = none ∧
    ∀ h r r', S.shared.cache.get h = some r → S'.shared.cache.get h = some r' →
      r.validatedAt ≤ r'.validatedAt := by
  refine ⟨_, _, rfl, rfl, by decide, ?_⟩
  exact (license_rows_recent soloGate grantedActivated storedInOrder (by decide) (by decide)
    (by decide) rfl rfl).1

/-- The activation is released and the later answer stored first; then the earlier one, a denial,
arrives. -/
def releasedMeanwhile : CallSchedule :=
  [.on 4 (.releaseActivation "key" true), .on 4 (.deactivated true), .on 4 (.setActivation true),
    .on 3 (.answer (.granted "ann" "solo")), .on 3 (.upsert true)]

def earlierDenial : CallSchedule := [.on 2 (.answer .notLicensed), .on 2 (.upsert true)]

/-- The denial obtained at 600 replaces the grant obtained at 610 and brings the released activation
back. -/
theorem late_write_back :
    Lts.Steps soloGate.callSys soloGate.FreshIds CallSys.init
      (grantedActivated ++ releasedMeanwhile ++ earlierDenial) ∧
    ∃ S S' r r',
      Lts.run soloGate.callSys CallSys.init (grantedActivated ++ releasedMeanwhile) = some S ∧
      Lts.run soloGate.callSys S earlierDenial = some S' ∧
      S.shared.cache.get (soloGate.sha "key") = some r ∧
      S'.shared.cache.get (soloGate.sha "key") = some r' ∧
      (r.status, r.validatedAt, r.activationId) = (.granted, 610, none) ∧
      (r'.status, r'.validatedAt, r'.activationId) = (.notLicensed, 600, some "act") ∧
      ¬ Lts.Steps soloGate.callSys soloGate.NotWrittenBack S earlierDenial :=
  ⟨by decide, _, _, _, _, rfl, rfl, rfl, rfl, by decide, by decide, by decide⟩

end EtherTunnel
