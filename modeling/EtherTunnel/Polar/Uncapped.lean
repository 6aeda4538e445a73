import EtherTunnel.Polar.Calls

/-!
# A licensed customer and the unlimited plan

`resolve_cap` reads "no row names this customer" as "not a Polar customer", and that means no cap
(`polar.rs:346-351`, `:761-770`). So a customer who has been let in must keep a row. Every write of
the gate keeps the customer of the row it replaces, except one: a `NotLicensed` answer to a call that
found no row stores a placeholder without a customer (`polar.rs:683-698`), whatever was stored
during the wait. `placeholder_uncaps` runs into that; `licensed_never_uncapped` shows that nothing else
can go wrong.
-/

namespace EtherTunnel

open Threads

/-- The customer named by the key's row. -/
def CallStore.customer (s : CallStore) (keyHash : List UInt8) : Option String :=
  (s.cache.get keyHash).map (·.customerId)

/-- No customer is named: no row, or a placeholder. -/
def Unnamed (row : Option LicenseRow) : Prop := ∀ r ∈ row, r.customerId = ""

instance (row : Option LicenseRow) : Decidable (Unnamed row) :=
  inferInstanceAs (Decidable (∀ r ∈ row, r.customerId = ""))

/-- The keys presented in a schedule. -/
def presented (sched : CallSchedule) : Set String :=
  {key | ∃ i now ok, Act.on i (.authenticate key now ok) ∈ sched}

/-- The key and the customer of a grant that arrives. -/
def CallSys.granting (S : CallSys) : Act CallAct Empty → Option (String × String)
  | .on i (.answer (.granted customerId _)) =>
    match S.threads[i]? with
    | some (.authAsked key _ _ _) => some (key, customerId)
    | _ => none
  | _ => none

/-- The key and the row read of a denial that is about to be stored. -/
def CallSys.denying (S : CallSys) : Act CallAct Empty → Option (String × Option LicenseRow)
  | .on i (.upsert true) =>
    match S.threads[i]? with
    | some (.authDeny key _ cached _) => some (key, cached)
    | _ => none
  | _ => none

/-- The backend grants a key to one customer only. -/
def OneOwner (owner : String → String) (S : CallSys) (a : Act CallAct Empty) : Prop :=
  ∀ grant ∈ S.granting a, grant.2 = owner grant.1

/-- A denial that read no customer is stored while the key's row still names none. -/
def DenialInTime (gate : PolarGate) (S : CallSys) (a : Act CallAct Empty) : Prop :=
  ∀ denial ∈ S.denying a, Unnamed denial.2 → Unnamed (S.shared.cache.get (gate.sha denial.1))

instance (owner : String → String) (S : CallSys) (a : Act CallAct Empty) :
    Decidable (OneOwner owner S a) :=
  inferInstanceAs (Decidable (∀ grant ∈ S.granting a, grant.2 = owner grant.1))

instance (gate : PolarGate) (S : CallSys) (a : Act CallAct Empty) :
    Decidable (DenialInTime gate S a) :=
  inferInstanceAs (Decidable (∀ denial ∈ S.denying a,
    Unnamed denial.2 → Unnamed (S.shared.cache.get (gate.sha denial.1))))

/-! ## The customer of a row after a write -/

section customer

variable {s : CallStore} {h k : List UInt8} {c : String}

@[simp] theorem customer_store {row : LicenseRow} : (s.store row).customer h =
    if h = row.keyHash then some row.customerId else s.customer h := by
  simp only [CallStore.customer, CallStore.store, LicenseCache.get_upsert]
  split
  · cases s.cache.get h <;> rfl
  · rfl

@[simp] theorem customer_setActivation {a : Option String} :
    ({ s with cache := s.cache.setActivation k a } : CallStore).customer h = s.customer h := by
  simp only [CallStore.customer, LicenseCache.get_setActivation]
  split
  · cases s.cache.get h <;> rfl
  · rfl

@[simp] theorem customer_clear : (s.clear k).customer h = s.customer h :=
  customer_setActivation

theorem customer_of_sweep {olderThan : Int}
    (hc : ({ s with cache := s.cache.sweepNegative olderThan } : CallStore).customer h = some c) :
    s.customer h = some c := by
  obtain ⟨r, hr, rfl⟩ := Option.map_eq_some_iff.1 hc
  exact Option.map_eq_some_iff.2 ⟨r, (LicenseCache.get_sweepNegative.1 hr).1, rfl⟩

/-- The sweep deletes placeholders only. -/
theorem customer_sweep {olderThan : Int} (hne : c ≠ "") (hc : s.customer h = some c) :
    ({ s with cache := s.cache.sweepNegative olderThan } : CallStore).customer h = some c := by
  obtain ⟨r, hr, rfl⟩ := Option.map_eq_some_iff.1 hc
  refine Option.map_eq_some_iff.2 ⟨r, LicenseCache.get_sweepNegative.2 ⟨hr, ?_⟩, rfl⟩
  rintro ⟨h0, -⟩
  exact hne h0

theorem not_allow_of_customer {gate : PolarGate} {now : Int} {fails : Bool}
    (hc : s.customer h = some c) : gate.capFor s.cache c now fails ≠ .allow := by
  obtain ⟨r, hr, rfl⟩ := Option.map_eq_some_iff.1 hc
  have hrows : (s.cache.capForCustomer r.customerId
      (saturatingSub now gate.policy.stalenessSecs) now).rows ≠ 0 := fun h0 =>
    LicenseCache.capForCustomer_rows.1 h0 r (LicenseCache.get_eq_some.1 hr).1 rfl
  unfold PolarGate.capFor pooledOver resolveCap
  cases fails <;> simp only [if_true, if_false, Bool.false_eq_true]
  · rw [if_neg hrows]
    split <;> [simp; (split <;> simp)]
  · split <;> simp

end customer

/-! ## The invariant -/

/-- Rows name the customer their key is granted to, or nobody. -/
def Attributed (gate : PolarGate) (owner : String → String) (keys : Set String) (s : CallStore) :
    Prop :=
  ∀ h c, s.customer h = some c → c = "" ∨ ∃ key ∈ keys, gate.sha key = h ∧ c = owner key

/-- A named customer has a row. -/
def Named (s : CallStore) (c : String) : Prop := c = "" ∨ ∃ h, s.customer h = some c

/-- What a call knows of the customer of the row it read. -/
structure ReadBack (gate : PolarGate) (owner : String → String) (key : String) (s : CallStore)
    (row : LicenseRow) : Prop where
  keyHash : row.keyHash = gate.sha key
  owned : row.customerId = "" ∨ row.customerId = owner key
  named : Named s row.customerId

/-- The thread invariant: each customer a call may still write or answer with has a row. -/
def Backed (gate : PolarGate) (owner : String → String) (keys : Set String) (s : CallStore) :
    CallState → Prop
  | .authAsked key _ cached _ | .authDeny key _ cached _ =>
    key ∈ keys ∧ ∀ row ∈ cached, ReadBack gate owner key s row
  | .authSweep key _ _ => key ∈ keys
  | .authGrant key _ customerId _ => key ∈ keys ∧ customerId = owner key
  | .authResolve customerId => Named s customerId
  | .done (some user) => user.name ≠ "" ∧ Named s user.name
  | _ => True

section invariant

variable {gate : PolarGate} {owner : String → String} {keys : Set String} {s s' : CallStore}
  {t t' : CallState} {a : CallAct}

/-- Every named row still stands. -/
def RowsKept (s s' : CallStore) : Prop :=
  ∀ h c, c ≠ "" → s.customer h = some c → s'.customer h = some c

theorem RowsKept.refl : RowsKept s s := fun _ _ _ h => h

theorem Named.mono {c : String} (hkept : RowsKept s s') (h : Named s c) : Named s' c := by
  by_cases hne : c = ""
  · exact Or.inl hne
  · obtain h0 | ⟨k, hk⟩ := h
    · exact absurd h0 hne
    · exact Or.inr ⟨k, hkept k c hne hk⟩

theorem ReadBack.mono {key : String} {row : LicenseRow} (hkept : RowsKept s s')
    (h : ReadBack gate owner key s row) : ReadBack gate owner key s' row :=
  ⟨h.keyHash, h.owned, h.named.mono hkept⟩

theorem Backed.mono (hkept : RowsKept s s') (h : Backed gate owner keys s t) :
    Backed gate owner keys s' t := by
  cases t with
  | authAsked | authDeny => exact ⟨h.1, fun row hrow => (h.2 row hrow).mono hkept⟩
  | authSweep | authGrant => exact h
  | authResolve => exact Named.mono hkept h
  | done user =>
    cases user with
    | none => trivial
    | some user => exact ⟨h.1, h.2.mono hkept⟩
  | ready | activating | activated | releasing | released => trivial

/-- A write to the key's row that names its owner, or leaves a nameless row nameless. -/
theorem store_kept (hsha : Set.InjOn gate.sha keys) (hI : Attributed gate owner keys s)
    {key : String} (hkey : key ∈ keys) {row : LicenseRow} (hrow : row.keyHash = gate.sha key)
    (hc : row.customerId = owner key ∨
      row.customerId = "" ∧ Unnamed (s.cache.get (gate.sha key))) :
    RowsKept s (s.store row) ∧ Attributed gate owner keys (s.store row) := by
  constructor
  · intro h c hne hcust
    rw [customer_store]
    split
    · rename_i hh
      rw [hh, hrow] at hcust
      rcases hI _ _ hcust with h0 | ⟨key', hkey', hsame, rfl⟩
      · exact absurd h0 hne
      · have : key' = key := hsha hkey' hkey hsame
        subst this
        rcases hc with hc | ⟨-, hun⟩
        · rw [hc]
        · obtain ⟨r, hr, hrc⟩ := Option.map_eq_some_iff.1 hcust
          exact absurd (hrc.symm.trans (hun r hr)) hne
    · exact hcust
  · intro h c hcust
    rw [customer_store] at hcust
    split at hcust
    · rename_i hh
      cases hcust
      rcases hc with hc | ⟨hc, -⟩
      · exact Or.inr ⟨key, hkey, (hh.trans hrow).symm, hc⟩
      · exact Or.inl hc
    · exact hI h c hcust

/-- What a read of the key's row tells. -/
theorem read_back (hsha : Set.InjOn gate.sha keys) (hI : Attributed gate owner keys s) {key : String}
    (hkey : key ∈ keys) {row : LicenseRow} (hget : s.cache.get (gate.sha key) = some row) :
    ReadBack gate owner key s row := by
  have hcust : s.customer (gate.sha key) = some row.customerId := by
    rw [CallStore.customer, hget]; rfl
  refine ⟨LicenseCache.keyHash_of_get hget, ?_, Or.inr ⟨_, hcust⟩⟩
  rcases hI _ _ hcust with h0 | ⟨key', hkey', hsame, hown⟩
  · exact Or.inl h0
  · exact Or.inr (by rw [hown, hsha hkey' hkey hsame])

/-- **One step keeps every named row**, if a denial without a customer is stored in time. -/
theorem CallMove.kept (hmove : CallMove gate s t a s' t') (hsha : Set.InjOn gate.sha keys)
    (hI : Attributed gate owner keys s) (hJ : Backed gate owner keys s t)
    (hden : ∀ key now cached seen, t = .authDeny key now cached seen → a = .upsert true →
      Unnamed cached → Unnamed (s.cache.get (gate.sha key))) :
    RowsKept s s' ∧ Attributed gate owner keys s' := by
  cases hmove with
  | sweep key now seen =>
    exact ⟨fun h c hne hc => customer_sweep hne hc, fun h c hc => hI h c (customer_of_sweep hc)⟩
  | grant key now customerId benefitId => exact store_kept hsha hI hJ.1 rfl (Or.inl hJ.2)
  | deny key now cached seen =>
    have hin := hden key now cached seen rfl rfl
    obtain ⟨hkey, hread⟩ := hJ
    cases cached with
    | none => exact store_kept hsha hI hkey rfl (Or.inr ⟨rfl, hin (by simp [Unnamed])⟩)
    | some row =>
      have hrow := hread row rfl
      refine store_kept hsha hI hkey hrow.keyHash ?_
      rcases hrow.owned with h0 | hown
      · exact Or.inr ⟨h0, hin (by simpa [Unnamed] using h0)⟩
      · exact Or.inl hown
  | activate key activationId seen | clear key activationId =>
    constructor
    · intro h c hne hc; simpa using hc
    · intro h c hc; exact hI h c (by simpa using hc)
  | authenticate | ensureActivated | releaseActivation | answer | unswept | resolve | portal
  | deactivated | quit => exact ⟨.refl, hI⟩

theorem beginAuth_backed (hsha : Set.InjOn gate.sha keys) (hI : Attributed gate owner keys s)
    {key : String} (hkey : key ∈ keys) {now : Int} {ok : Bool} :
    Backed gate owner keys s (gate.beginAuth s key now ok) := by
  have hback : ∀ row ∈ s.read ok (gate.sha key), ReadBack gate owner key s row := by
    intro row hrow
    cases ok with
    | false => cases hrow
    | true => exact read_back hsha hI hkey hrow
  unfold PolarGate.beginAuth
  split
  · trivial
  · dsimp only
    split
    · rename_i row hrow
      split
      · exact (hback row (Option.filter_eq_some_iff.1 hrow).1).named
      · trivial
    · exact ⟨hkey, hback⟩

theorem onAnswer_backed {key : String} {now : Int} {cached : Option LicenseRow} {seen : Nat}
    {o : ValidateOutcome} (hJ : Backed gate owner keys s (.authAsked key now cached seen))
    (hown : ∀ c b, o = .granted c b → c = owner key) :
    Backed gate owner keys s (gate.onAnswer key now cached seen o) := by
  cases o with
  | granted c b => exact ⟨hJ.1, hown c b rfl⟩
  | notLicensed =>
    simp only [PolarGate.onAnswer]
    split
    · exact hJ.1
    · exact hJ
  | unavailable why =>
    simp only [PolarGate.onAnswer]
    split
    · rename_i row hrow
      exact (hJ.2 row (Option.filter_eq_some_iff.1 hrow).1).named
    · trivial

/-- The call that moved still has its customers backed. -/
theorem CallMove.backed (hmove : CallMove gate s t a s' t') (hsha : Set.InjOn gate.sha keys)
    (hI : Attributed gate owner keys s) (hJ : Backed gate owner keys s t)
    (hpres : ∀ key now ok, a = .authenticate key now ok → key ∈ keys)
    (hown : ∀ key now cached seen c b, t = .authAsked key now cached seen → a = .answer (.granted c b) →
      c = owner key) : Backed gate owner keys s' t' := by
  cases hmove with
  | authenticate key now ok => exact beginAuth_backed hsha hI (hpres key now ok rfl)
  | ensureActivated key ok =>
    unfold PolarGate.beginActivate
    split
    · trivial
    · split
      · trivial
      · split <;> trivial
  | releaseActivation key ok =>
    unfold PolarGate.beginRelease
    split <;> trivial
  | answer key now cached seen o =>
    exact onAnswer_backed hJ fun c b ho => hown key now cached seen c b rfl (by rw [ho])
  | sweep | unswept => exact ⟨hJ, by simp⟩
  | grant key now customerId benefitId =>
    split
    · exact Or.inr ⟨gate.sha key, by simp [PolarPolicy.grantedRow]⟩
    · trivial
  | resolve customerId userId =>
    by_cases hne : customerId = ""
    · rw [if_pos hne]; trivial
    · rw [if_neg hne]
      cases userId with
      | none => trivial
      | some userId => exact ⟨hne, hJ⟩
  | deny | portal | activate | deactivated | clear | quit => trivial

/-- The invariant of the whole system under the three conditions. -/
theorem callSys_backed {S S' : CallSys} {act : Act CallAct Empty} (hsha : Set.InjOn gate.sha keys)
    (hinv : Attributed gate owner keys S.shared ∧ All (fun _ t s => Backed gate owner keys s t) S)
    (hpres : ∀ i key now ok, act = .on i (.authenticate key now ok) → key ∈ keys)
    (hown : OneOwner owner S act) (hden : DenialInTime gate S act)
    (hs : gate.callSys S act = some S') :
    Attributed gate owner keys S'.shared ∧ All (fun _ t s => Backed gate owner keys s t) S' := by
  refine step_inv (G := fun S act => (∀ i key now ok, act = .on i (.authenticate key now ok) →
    key ∈ keys) ∧ OneOwner owner S act ∧ DenialInTime gate S act) hinv.1 hinv.2 ⟨hpres, hown, hden⟩ hs
    (fun i s _ => trivial) ?_ ?_ (fun e => nomatch e)
  · intro i a t s' t' hG ht hJ hst
    have hmove := callStep_move hst
    refine ⟨(hmove.kept hsha hinv.1 hJ ?_).2, hmove.backed hsha hinv.1 hJ ?_ ?_⟩
    · rintro key now cached seen rfl rfl
      exact hG.2.2 (key, cached) (by simp [CallSys.denying, ht])
    · rintro key now ok rfl
      exact hG.1 i key now ok rfl
    · rintro key now cached seen c b rfl rfl
      exact hG.2.1 (key, c) (by simp [CallSys.granting, ht])
  · intro i a t s' t' hG ht hJ hst j u hji hu hJu
    refine Backed.mono ((callStep_move hst).kept hsha hinv.1 hJ ?_).1 hJu
    rintro key now cached seen rfl rfl
    exact hG.2.2 (key, cached) (by simp [CallSys.denying, ht])

end invariant

/-- A call that has returned stays as it is. -/
theorem done_stays {gate : PolarGate} {S S' : CallSys} {act : Act CallAct Empty} {i : Nat}
    {user : Option AuthedUser} (h : S.threads[i]? = some (.done user))
    (hs : gate.callSys S act = some S') : S'.threads[i]? = some (.done user) := by
  cases act with
  | spawn =>
    simp only [PolarGate.callSys, Threads.step, Option.some.injEq] at hs
    subst hs
    rw [List.getElem?_append_left (List.getElem?_eq_some_iff.1 h).1]
    exact h
  | on j a =>
    obtain ⟨t, s', t', ht, hst, rfl⟩ := step_on hs
    have hij : i ≠ j := by
      rintro rfl
      rw [h, Option.some.injEq] at ht
      subst ht
      cases hst
    exact getElem?_set_other hij h
  | env e => cases e

/-- **A licensed customer is never uncapped**, in every run in which a denial that read no customer is
stored before any grant for its key: once a call has returned a user, that user's cap is never
`Allow` again. -/
theorem licensed_never_uncapped (gate : PolarGate) (owner : String → String)
    (sched later : CallSchedule) (hsha : Set.InjOn gate.sha (presented (sched ++ later)))
    (howner : Lts.Steps gate.callSys (OneOwner owner) CallSys.init (sched ++ later))
    (hdenial : Lts.Steps gate.callSys (DenialInTime gate) CallSys.init (sched ++ later))
    {S S' : CallSys} (hrun : Lts.run gate.callSys CallSys.init sched = some S)
    (hlater : Lts.run gate.callSys S later = some S') (i : Nat) (user : AuthedUser)
    (huser : S.threads[i]? = some (.done (some user))) (now : Int) (fails : Bool) :
    gate.capFor S'.shared.cache user.name now fails ≠ .allow := by
  have hpres : Lts.Steps gate.callSys (fun _ act => ∀ i key now ok,
      act = .on i (.authenticate key now ok) → key ∈ presented (sched ++ later))
      CallSys.init (sched ++ later) :=
    Lts.steps_of_forall fun act hact i key now ok he => ⟨i, now, ok, he ▸ hact⟩
  have hinit : Attributed gate owner (presented (sched ++ later)) CallSys.init.shared ∧
      All (fun _ t s => Backed gate owner (presented (sched ++ later)) s t) CallSys.init :=
    ⟨fun h c hc => (by cases hc), fun j t ht => (by cases ht)⟩
  have hinv := Lts.run_inv (fun S act S' hinv hG hs =>
    callSys_backed hsha hinv hG.1 hG.2.1 hG.2.2 hs) hinit (hpres.and (howner.and hdenial))
    ((Lts.run_append _).2 ⟨S, hrun, hlater⟩)
  have hdone : S'.threads[i]? = some (.done (some user)) :=
    Lts.run_inv (G := fun _ _ => True) (fun S act S' h _ hs => done_stays h hs) huser
      (Lts.steps_of_forall fun _ _ => trivial) hlater
  obtain ⟨hne, hnamed⟩ := hinv.2 i _ hdone
  rcases hnamed with h0 | ⟨h, hc⟩
  · exact absurd h0 hne
  · exact not_allow_of_customer hc

/-- A call is denied, then another call with the same key is granted; a third one is denied again. -/
def deniedThenGranted : CallSchedule :=
  [.spawn, .spawn, .on 0 (.authenticate "key" 500 true), .on 0 (.answer .notLicensed),
    .on 0 (.sweep true), .on 1 (.authenticate "key" 700 true), .on 0 (.upsert true),
    .on 1 (.answer (.granted "ann" "solo")), .on 1 (.upsert true), .on 1 (.resolve (some 1))]

def deniedAgain : CallSchedule :=
  [.spawn, .on 2 (.authenticate "key" 900 true), .on 2 (.answer .notLicensed), .on 2 (.upsert true)]

theorem licensed_never_uncapped_denied : ∃ S S',
    Lts.run soloGate.callSys CallSys.init deniedThenGranted = some S ∧
    Lts.run soloGate.callSys S deniedAgain = some S' ∧
    S.threads[1]? = some (.done (some ⟨1, "ann"⟩)) ∧
    ∀ now fails, soloGate.capFor S'.shared.cache "ann" now fails ≠ .allow := by
  refine ⟨_, _, rfl, rfl, by decide, ?_⟩
  exact licensed_never_uncapped soloGate (fun _ => "ann") deniedThenGranted deniedAgain
    soloGate_sha.injOn (by decide) (by decide) rfl rfl 1 ⟨1, "ann"⟩ (by decide)

/-- Two calls with one key: the first waits while the second is granted and returns; then the first
is denied. -/
def lateDenial : CallSchedule :=
  [.spawn, .spawn, .on 0 (.authenticate "key" 500 true), .on 1 (.authenticate "key" 501 true),
    .on 1 (.answer (.granted "ann" "solo")), .on 1 (.upsert true), .on 1 (.resolve (some 1)),
    .on 0 (.answer .notLicensed), .on 0 (.sweep true), .on 0 (.upsert true)]

/-- The late denial replaces the granted row by a placeholder, and the customer of a call that has
returned is unlimited. -/
theorem placeholder_uncaps : Function.Injective soloGate.sha ∧
    Lts.Steps soloGate.callSys (OneOwner fun _ => "ann") CallSys.init lateDenial ∧
    ∃ S, Lts.run soloGate.callSys CallSys.init lateDenial = some S ∧
      S.threads[1]? = some (.done (some ⟨1, "ann"⟩)) ∧
      soloGate.capFor S.shared.cache "ann" 502 false = .allow :=
  ⟨soloGate_sha, by decide, _, rfl, by decide, by decide⟩

end EtherTunnel
