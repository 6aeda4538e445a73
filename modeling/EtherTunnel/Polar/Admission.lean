import EtherTunnel.Polar.PooledCap

/-!
# Admission and capacity

`authenticate` admits a license key on a row that is fresh (`validated_at + cache_ttl_secs`,
`polar.rs:635`) or, while Polar is unreachable, honored (`validated_at + staleness_secs`, `:711`).
`cap_for` counts the rows of the customer with `validated_at >= now.saturating_sub(staleness_secs)`
(`:746`). The config relates none of the windows: with a TTL longer than the staleness window a key is
admitted from the cache and has no capacity, so every claim is refused and the next tick closes the
session.

| here | there |
| --- | --- |
| `inWindowByAdd` | the test of `authenticate`: a plain `+`, which wraps in a release build |
| `inWindowBySub` | the test of `cap_for` and `cap_for_customer` |
-/

namespace EtherTunnel

/-! ## The two window tests -/

/-- An `i64`. -/
def IsI64 (a : Int) : Prop := -2 ^ 63 ≤ a ∧ a < 2 ^ 63

instance (a : Int) : Decidable (IsI64 a) := inferInstanceAs (Decidable (_ ∧ _))

def inWindowByAdd (now window validatedAt : Int) : Prop :=
  validatedAt ≤ now ∧ now ≤ addI64 validatedAt window

def inWindowBySub (now window validatedAt : Int) : Prop :=
  saturatingSub now window ≤ validatedAt ∧ validatedAt ≤ now

/-- Where the sum does not overflow the two tests agree. -/
theorem inWindow_iff {now window validatedAt : Int} (hnow : IsI64 now) (hw : 0 ≤ window)
    (hat : IsI64 validatedAt) (hsum : validatedAt ≤ now → IsI64 (validatedAt + window)) :
    inWindowByAdd now window validatedAt ↔ inWindowBySub now window validatedAt := by
  unfold inWindowByAdd inWindowBySub
  by_cases hle : validatedAt ≤ now
  · rw [addI64_eq (hsum hle)]
    unfold IsI64 at hnow hat
    unfold saturatingSub
    omega
  · exact iff_of_false (fun h => hle h.1) fun h => hle h.2

/-! ## Admission -/

section admission

variable {gate : PolarGate} {io : AuthIo} {cache : LicenseCache} {live : Live} {key : String}
  {user : AuthedUser}

/-- The row a call admits its key on: one that it stores, or one of the cache it finds. -/
structure LicenseRow.Admits (row : LicenseRow) (policy : PolarPolicy) (cache : LicenseCache) (now : Int)
    (user : AuthedUser) : Prop where
  name : row.customerId = user.name
  granted : row.status = .granted
  mapped : row.maxTunnels.isSome
  window : row.validatedAt = now ∨ row ∈ cache.rows ∧
    (inWindowByAdd now policy.cacheTtlSecs row.validatedAt ∨
      inWindowByAdd now policy.stalenessSecs row.validatedAt)

theorem usable_iff {row : LicenseRow} :
    row.usable = true ↔ row.status = .granted ∧ row.maxTunnels.isSome = true := by
  rw [LicenseRow.usable, Bool.and_eq_true, beq_iff_eq]

/-- The row as stored after a grant is the new one, up to its activation id. -/
theorem get_upsert_self (cache : LicenseCache) (row : LicenseRow) : ∃ id,
    (cache.upsert row).get row.keyHash = some { row with activationId := id } := by
  rw [LicenseCache.get_upsert, if_pos rfl]
  cases cache.get row.keyHash with
  | none => exact ⟨row.activationId, rfl⟩
  | some old => exact ⟨row.activationId.or old.activationId, rfl⟩

theorem onGranted_admits {domain customerId benefitId : String}
    (h : (gate.onGranted io cache live domain (gate.sha key) customerId benefitId).user = some user) :
    ∃ row, (gate.onGranted io cache live domain (gate.sha key) customerId benefitId).cache.get
        (gate.sha key) = some row ∧ row.Admits gate.policy cache io.now user := by
  unfold PolarGate.onGranted at h ⊢
  split at h
  · cases h
  · rename_i hup
    rw [if_neg hup]
    dsimp only at h ⊢
    split at h
    · cases h
    · rename_i cap hcap
      split at h
      · cases h
      · rename_i user' db hres
        cases h
        have hname := (resolveUser_name (congrArg Prod.fst hres)).1
        obtain ⟨id, hget⟩ := get_upsert_self cache
          (gate.policy.grantedRow (gate.sha key) io.now customerId benefitId)
        refine ⟨_, hget, hname.symm, rfl, ?_, Or.inl rfl⟩
        exact Option.isSome_iff_exists.2 ⟨cap, hcap⟩

/-- A cached row that is usable and in one of the windows. -/
theorem cached_admits {row : LicenseRow} {p : LicenseRow → Bool}
    (hrow : (if io.readFails then none else cache.get (gate.sha key)).filter p = some row)
    (hres : (resolveUser io.resolve live.db row.customerId).1 = some user) (husable : row.usable = true)
    (hwin : inWindowByAdd io.now gate.policy.cacheTtlSecs row.validatedAt ∨
      inWindowByAdd io.now gate.policy.stalenessSecs row.validatedAt) :
    cache.get (gate.sha key) = some row ∧ row.Admits gate.policy cache io.now user := by
  obtain ⟨hget, -⟩ := Option.filter_eq_some_iff.1 hrow
  have hget : cache.get (gate.sha key) = some row := by
    split at hget
    · cases hget
    · exact hget
  obtain ⟨hgranted, hmapped⟩ := usable_iff.1 husable
  exact ⟨hget, (resolveUser_name hres).1.symm, hgranted, hmapped,
    Or.inr ⟨(LicenseCache.get_eq_some.1 hget).1, hwin⟩⟩

/-- **Whom `authenticate` admits, and on what row.** -/
theorem authenticate_admits (h : (gate.authenticate io cache live key).user = some user) :
    ∃ row, (gate.authenticate io cache live key).cache.get (gate.sha key) = some row ∧
      row.Admits gate.policy cache io.now user := by
  generalize hres : gate.authenticate io cache live key = res at h ⊢
  unfold PolarGate.authenticate at hres
  split at hres
  · subst hres; cases h
  · split at hres
    · subst hres; cases h
    · rename_i domain hdomain
      dsimp only at hres
      split at hres
      · subst hres; cases h
      · split at hres
        · rename_i row hrow
          split at hres
          · rename_i husable
            subst hres
            have hfresh := (Option.filter_eq_some_iff.1 hrow).2
            simp only [PolarPolicy.fresh, Bool.and_eq_true, decide_eq_true_eq] at hfresh
            exact ⟨row, cached_admits hrow h husable (Or.inl hfresh)⟩
          · subst hres; cases h
        · split at hres
          · subst hres; exact onGranted_admits h
          · subst hres; cases h
          · split at hres
            · rename_i row hrow
              subst hres
              have hhon := (Option.filter_eq_some_iff.1 hrow).2
              simp only [PolarPolicy.honored, Bool.and_eq_true, decide_eq_true_eq] at hhon
              exact ⟨row, cached_admits hrow h hhon.1.1 (Or.inr ⟨hhon.1.2, hhon.2⟩)⟩
            · subst hres; cases h

end admission

/-! ## Admission against capacity -/

/-- The stamps of a cache are `i64`. -/
def LicenseCache.Stamped (cache : LicenseCache) : Prop := ∀ r ∈ cache.rows, IsI64 r.validatedAt

/-- **Admission and capacity agree** at a clock reading, under a policy. -/
structure PolarPolicy.Agrees (policy : PolarPolicy) (now : Int) : Prop where
  /-- Whoever is admitted has a cap, no lower than that of the key. -/
  admitted : ∀ (sha : String → List UInt8) (domain : String) (io : AuthIo) (cache : LicenseCache)
    (live : Live) (key : String) (user : AuthedUser), io.now = now → cache.Stamped →
    let gate := PolarGate.new policy sha (some domain)
    let res := gate.authenticate io cache live key
    res.user = some user → ∃ row c m, res.cache.get (sha key) = some row ∧ row.maxTunnels = some c ∧
      gate.capFor res.cache user.name now false = .cap m ∧ c ≤ m
  /-- No window test overflows, whatever the row. -/
  inRange : ∀ validatedAt, IsI64 validatedAt → validatedAt ≤ now →
    IsI64 (validatedAt + policy.cacheTtlSecs) ∧ IsI64 (validatedAt + policy.stalenessSecs)
  /-- The outage test of `authenticate` and the test of `cap_for` pick the same rows. -/
  alike : ∀ validatedAt, IsI64 validatedAt →
    (inWindowByAdd now policy.stalenessSecs validatedAt ↔
      inWindowBySub now policy.stalenessSecs validatedAt)

/-- The gate checks windows with the policy it was given. -/
theorem PolarGate.new_windows (policy : PolarPolicy) (sha : String → List UInt8) (domain : Option String) :
    (PolarGate.new policy sha domain).policy.cacheTtlSecs = policy.cacheTtlSecs ∧
      (PolarGate.new policy sha domain).policy.stalenessSecs = policy.stalenessSecs ∧
      (PolarGate.new policy sha domain).sha = sha ∧ (PolarGate.new policy sha domain).domain = domain := by
  unfold PolarGate.new
  split <;> exact ⟨rfl, rfl, rfl, rfl⟩

section agree

variable {policy : PolarPolicy} {now : Int}

/-- A row of the customer that `cap_for` counts. -/
theorem capFor_of_window {gate : PolarGate} {cache : LicenseCache} {row : LicenseRow} {c : Int}
    (hrow : row ∈ cache.rows) (hgranted : row.status = .granted) (hc : row.maxTunnels = some c)
    (hnow : 0 < now) (hwin : inWindowBySub now gate.policy.stalenessSecs row.validatedAt) :
    ∃ m, gate.capFor cache row.customerId now false = .cap m ∧ c ≤ m := by
  have hq : LicenseCache.qualifyingCap (saturatingSub now gate.policy.stalenessSecs) now row = some c :=
    LicenseCache.qualifyingCap_eq_some.2 ⟨⟨hgranted, hwin.1, hwin.2⟩, hc⟩
  obtain ⟨m, hm, hcm⟩ := pooledOver_of_qualifying hrow rfl hq
  refine ⟨m, ?_, hcm⟩
  rw [PolarGate.capFor, if_neg (by omega), hm]

/-! ### A row past the staleness window -/

/-- `ann`'s key, last validated one second too long ago to count. -/
def agedRow (now staleness : Int) : LicenseRow where
  keyHash := bytes "key"
  customerId := "ann"
  benefitId := "solo"
  maxTunnels := some 2
  status := .granted
  activationId := none
  validatedAt := now - staleness - 1

def agedCache (now staleness : Int) : LicenseCache := ⟨[agedRow now staleness], by simp⟩

/-- A fresh usable row is answered from the cache. -/
theorem authenticate_fresh {gate : PolarGate} {io : AuthIo} {cache : LicenseCache} {live : Live}
    {key domain : String} {row : LicenseRow} (hlocal : isLocalToken key = false)
    (hdomain : gate.domain = some domain) (hnow : io.now ≠ 0) (hread : io.readFails = false)
    (hget : cache.get (gate.sha key) = some row) (hfresh : gate.policy.fresh io.now row = true)
    (husable : row.usable = true) :
    gate.authenticate io cache live key = PolarGate.fromCache io cache live false row := by
  unfold PolarGate.authenticate
  simp only [hlocal, hdomain, hnow, hread, hget, Option.filter_some_pos hfresh, husable, if_true, if_false,
    Bool.false_eq_true]

/-- The aged row gives its customer no capacity. -/
theorem capFor_aged {gate : PolarGate} (hnow : 0 < now) (hnow' : IsI64 now)
    (hw : IsI64 gate.policy.stalenessSecs) (hw' : 0 ≤ gate.policy.stalenessSecs) :
    gate.capFor (agedCache now gate.policy.stalenessSecs) "ann" now false = .denyAll := by
  have hq : LicenseCache.qualifyingCap (saturatingSub now gate.policy.stalenessSecs) now
      (agedRow now gate.policy.stalenessSecs) = none := by
    unfold LicenseCache.qualifyingCap
    rw [if_neg]
    rintro ⟨-, hlo, -⟩
    unfold IsI64 at hnow' hw
    simp only [agedRow, saturatingSub] at hlo
    omega
  rw [PolarGate.capFor, if_neg (by omega)]
  simp only [pooledOver, Bool.false_eq_true, if_false, LicenseCache.capForCustomer, LicenseCache.rowsOf,
    agedCache]
  rw [List.filter_cons_of_pos (by simp [agedRow]), List.filter_nil, List.filterMap_cons_none hq]
  rfl

/-- A key on the aged row is admitted while the TTL lasts. -/
theorem authenticate_aged {gate : PolarGate} {staleness : Int} (hdomain : gate.domain = some "d.io")
    (hsha : gate.sha = bytes) (hnow : 0 < now)
    (hfresh : gate.policy.fresh now (agedRow now staleness) = true) :
    let res := gate.authenticate { now := now, answer := .unavailable "" } (agedCache now staleness)
      ⟨Db.empty, Router.empty⟩ "key"
    res.user = some ⟨1, "ann"⟩ ∧ res.cache = agedCache now staleness := by
  intro res
  have hget : (agedCache now staleness).get (gate.sha "key") = some (agedRow now staleness) := by
    rw [hsha]; rfl
  have hres : res = PolarGate.fromCache { now := now, answer := .unavailable "" } (agedCache now staleness)
      ⟨Db.empty, Router.empty⟩ false (agedRow now staleness) :=
    authenticate_fresh (by decide) hdomain (ne_of_gt hnow) rfl hget hfresh rfl
  rw [hres]
  exact ⟨by rfl, rfl⟩

theorem ttl_le_of_agrees (h : policy.Agrees now) (hnow : 0 < now) (hnow' : IsI64 now)
    (hw : 0 ≤ policy.stalenessSecs) (hw' : IsI64 policy.stalenessSecs) :
    policy.cacheTtlSecs ≤ policy.stalenessSecs := by
  by_contra hlt
  obtain ⟨httl, hstale, hsha, hdomain⟩ := PolarGate.new_windows policy bytes (some "d.io")
  have hstamp : IsI64 (agedRow now policy.stalenessSecs).validatedAt := by
    unfold IsI64 at hnow' hw' ⊢
    simp only [agedRow]
    omega
  have hpast : (agedRow now policy.stalenessSecs).validatedAt ≤ now := by
    simp only [agedRow]
    omega
  have hfresh : (PolarGate.new policy bytes (some "d.io")).policy.fresh now
      (agedRow now policy.stalenessSecs) = true := by
    rw [PolarPolicy.fresh, httl, addI64_eq (h.inRange _ hstamp hpast).1, Bool.and_eq_true,
      decide_eq_true_eq, decide_eq_true_eq]
    refine ⟨hpast, ?_⟩
    simp only [agedRow]
    omega
  obtain ⟨huser, hcache⟩ := authenticate_aged hdomain hsha hnow hfresh
  obtain ⟨row, c, m, -, -, hcap, -⟩ := h.admitted bytes "d.io" { now := now, answer := .unavailable "" }
    (agedCache now policy.stalenessSecs) ⟨Db.empty, Router.empty⟩ "key" ⟨1, "ann"⟩ rfl
    (fun r hr => by rw [List.mem_singleton.1 hr]; exact hstamp) huser
  have hdeny := capFor_aged hnow hnow' (hstale ▸ hw') (hstale ▸ hw)
  rw [hcache, ← hstale, hdeny] at hcap
  cases hcap

theorem agrees_of_windows (hw : 0 ≤ policy.stalenessSecs) (hnow : 0 < now) (hnow' : IsI64 now)
    (httl : 0 ≤ policy.cacheTtlSecs) (hle : policy.cacheTtlSecs ≤ policy.stalenessSecs)
    (hsum : now + policy.stalenessSecs < 2 ^ 63) : policy.Agrees now := by
  have hrange : ∀ validatedAt, IsI64 validatedAt → validatedAt ≤ now →
      IsI64 (validatedAt + policy.cacheTtlSecs) ∧ IsI64 (validatedAt + policy.stalenessSecs) := by
    intro validatedAt hat hpast
    unfold IsI64 at hat ⊢
    omega
  have halike : ∀ validatedAt, IsI64 validatedAt → (inWindowByAdd now policy.stalenessSecs validatedAt ↔
      inWindowBySub now policy.stalenessSecs validatedAt) := fun validatedAt hat =>
    inWindow_iff hnow' hw hat fun hpast => (hrange validatedAt hat hpast).2
  refine ⟨?_, hrange, halike⟩
  intro sha domain io cache live key user hio hstamped gate res huser
  obtain ⟨hgttl, hgstale, hgsha, -⟩ := PolarGate.new_windows policy sha (some domain)
  obtain ⟨row, hget, hadmits⟩ := authenticate_admits huser
  obtain ⟨c, hc⟩ := Option.isSome_iff_exists.1 hadmits.mapped
  have hwin : inWindowBySub now gate.policy.stalenessSecs row.validatedAt := by
    rw [show gate.policy.stalenessSecs = policy.stalenessSecs from hgstale]
    rcases hadmits.window with heq | ⟨hmem, hfresh | hhonored⟩
    · rw [heq, hio]
      exact ⟨saturatingSub_le hw hnow, le_refl now⟩
    · -- within the TTL, hence within the staleness window
      have hat := hstamped row hmem
      rw [← halike _ hat]
      rw [hio, hgttl] at hfresh
      have hsums := hrange _ hat hfresh.1
      refine ⟨hfresh.1, ?_⟩
      have hlate := hfresh.2
      rw [addI64_eq hsums.1] at hlate
      rw [addI64_eq hsums.2]
      omega
    · rw [hio, hgstale] at hhonored
      exact (halike _ (hstamped row hmem)).1 hhonored
  obtain ⟨m, hm, hcm⟩ := capFor_of_window (LicenseCache.get_eq_some.1 hget).1 hadmits.granted hc hnow hwin
  rw [hadmits.name] at hm
  rw [hgsha] at hget
  exact ⟨row, c, m, hget, hc, hm, hcm⟩

end agree

/-- **Admission and capacity agree just when the TTL is within the staleness window**, is not negative,
and the clock plus the longer window is an `i64`. -/
theorem admission_agrees_iff (policy : PolarPolicy) (now : Int) (hstale : IsI64 policy.stalenessSecs)
    (hw : 0 ≤ policy.stalenessSecs) (hnow : 0 < now)
    (hnow' : IsI64 now) :
    policy.Agrees now ↔ 0 ≤ policy.cacheTtlSecs ∧ policy.cacheTtlSecs ≤ policy.stalenessSecs ∧
      now + policy.stalenessSecs < 2 ^ 63 := by
  constructor
  · intro h
    have hoverflow := (h.inRange now hnow' le_rfl).2.2
    have hunderflow := (h.inRange (-2 ^ 63) (by decide) (by omega)).1.1
    exact ⟨by omega, ttl_le_of_agrees h hnow hnow' hw hstale, hoverflow⟩
  · rintro ⟨h0, hle, hsum⟩
    exact agrees_of_windows hw hnow hnow' h0 hle hsum

theorem admission_agrees_iff_solo :
    IsI64 soloPolicy.stalenessSecs ∧ 0 ≤ soloPolicy.stalenessSecs ∧ soloPolicy.Agrees 550 :=
  ⟨by decide, by decide,
    (admission_agrees_iff soloPolicy 550 (by decide) (by decide) (by decide) (by decide)).2 (by decide)⟩

/-- `soloPolicy` with a TTL of 200 s, twice the staleness window. -/
def lazyPolicy : PolarPolicy := { soloPolicy with cacheTtlSecs := 200 }

def lazyGate : PolarGate := PolarGate.new lazyPolicy bytes (some "d.io")

/-- `ann`'s key is granted at 400. At 550, Polar reachable or not, it is admitted from the cache with no
capacity at all. -/
theorem admitted_without_capacity :
    let granted := lazyGate.authenticate { now := 400, answer := .granted "ann" "solo" }
      LicenseCache.empty ⟨Db.empty, Router.empty⟩ "key"
    let later := lazyGate.authenticate { now := 550, answer := .granted "ann" "solo" } granted.cache
      granted.live "key"
    granted.user = some ⟨1, "ann"⟩ ∧ later.user = some ⟨1, "ann"⟩ ∧ later.asked = false ∧
    lazyGate.capFor later.cache "ann" 550 false = .denyAll ∧ ¬ lazyPolicy.Agrees 550 := by
  refine ⟨by decide, by decide, by decide, by decide, fun h => ?_⟩
  exact absurd (ttl_le_of_agrees h (by decide) (by decide) (by decide) (by decide)) (by decide)

end EtherTunnel
