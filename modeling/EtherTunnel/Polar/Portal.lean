import EtherTunnel.Polar.Calls
import EtherTunnel.Ratelimit.Bucket

/-!
# The portal behind the gate

The gate's answers come over HTTP, and how often it may ask is one budget for the whole relay.

| here | there |
| --- | --- |
| `PortalJson` | **serde_json and hyper boundary**: the bodies that parse, the text of a status |
| `isSaneId` | `polar.rs:77` |
| `PortalJson.validate`, `activate`, `deactivate` | `PolarHttpClient` (`polar.rs:230-325`), from what `post_json` returned |
| `ValidateBudget` | `polar.rs:526-557` |
| `PolarGate.budgetedStep` | a call of the gate, with the budget and the exchanges |

A call that has to ask takes a token first; `waiting` is the wait for the response. Everything else is a
step of `PolarGate.callStep`, so a run here is a run of the calls (`budgetedStep_sim`) whose answers are the
portal's. `exchanges` is carried along: what was asked and what came back.

The source counts tokens in `f64`; here they are exact rationals, and so is the bound on the requests.
-/

namespace EtherTunnel

open Threads

/-! ## Responses -/

/-- What `post_json` returns: a status and a body, or why there is none. -/
abbrev HttpResult := Except String (UInt16 × List UInt8)

structure ValidateResp where
  customerId : String
  benefitId : String
  status : String
deriving DecidableEq

structure PortalJson where
  validateResp : List UInt8 → Except String ValidateResp
  activateResp : List UInt8 → Except String String
  statusText : UInt16 → String

def isSaneId (s : String) : Bool := decide (s ≠ "") && decide (s.utf8ByteSize ≤ 200)

def isSuccess (status : UInt16) : Bool := decide (200 ≤ status) && decide (status < 300)

def isServerError (status : UInt16) : Bool := decide (500 ≤ status) && decide (status < 600)

namespace PortalJson

variable (json : PortalJson)

def validate : HttpResult → ValidateOutcome
  | .error e => .unavailable e
  | .ok (status, body) =>
    if isSuccess status then
      match json.validateResp body with
      | .ok v =>
        if v.status = "granted" then
          if !isSaneId v.customerId || !isSaneId v.benefitId then .unavailable "malformed validate response"
          else .granted v.customerId v.benefitId
        else .notLicensed
      | .error e => .unavailable ("bad validate body: " ++ e)
    else if status = 429 ∨ isServerError status then
      .unavailable ("polar validate: " ++ json.statusText status)
    else if status = 404 ∨ status = 403 ∨ status = 422 then .notLicensed
    else .unavailable ("polar validate: unexpected " ++ json.statusText status)

def activate : HttpResult → ActivateOutcome
  | .error e => .unavailable e
  | .ok (status, body) =>
    if isSuccess status then
      match json.activateResp body with
      | .ok id => .activated id
      | .error e => .unavailable ("bad activate body: " ++ e)
    else if status = 403 then .limitReached
    else .unavailable ("polar activate: " ++ json.statusText status)

def deactivate : HttpResult → Except String Unit
  | .error e => .error e
  | .ok (status, _) =>
    if isSuccess status then .ok () else .error ("polar deactivate: " ++ json.statusText status)

end PortalJson

/-! ## The budget -/

structure ValidateBudget where
  rate : ℚ
  burst : ℚ
  state : Bucket

namespace ValidateBudget

def new (rate burst : UInt32) (now : Nat) : ValidateBudget where
  rate := rate.toNat
  burst := (max burst.toNat 1 : Nat)
  state := ⟨(max burst.toNat 1 : Nat), now⟩

variable (budget : ValidateBudget)

def tryTake (now : Nat) : Bool × ValidateBudget :=
  let tokens := min (budget.state.tokens + asSecs (now - budget.state.last) * budget.rate) budget.burst
  if 1 ≤ tokens then (true, { budget with state := ⟨tokens - 1, now⟩ })
  else (false, { budget with state := ⟨tokens, now⟩ })

end ValidateBudget

/-! ## Calls -/

inductive Endpoint where
  | validate
  | activate
  | deactivate
deriving DecidableEq

structure Exchange where
  endpoint : Endpoint
  key : String
  result : HttpResult

structure BudgetedStore extends CallStore where
  budget : ValidateBudget
  exchanges : List Exchange := []

inductive BudgetedState where
  | call (t : CallState)
  /-- The request to validate is out. -/
  | waiting (key : String) (now : Int) (cached : Option LicenseRow) (seen : Nat)

inductive BudgetedAct where
  | call (a : CallAct)
  /-- `try_take`, at an instant. -/
  | take (instant : Nat)
  | respond (r : HttpResult)

/-- The steps of a call that are answers from outside. -/
def CallAct.isAnswer : CallAct → Bool
  | .answer _ | .portal _ | .deactivated _ => true
  | _ => false

namespace BudgetedStore

variable (s : BudgetedStore)

def record (endpoint : Endpoint) (key : String) (r : HttpResult) : BudgetedStore :=
  { s with exchanges := s.exchanges ++ [⟨endpoint, key, r⟩] }

end BudgetedStore

namespace PolarGate

variable (gate : PolarGate) (json : PortalJson)

/-- A step of the call itself. -/
def innerStep (i : Nat) (s : BudgetedStore) (t : CallState) (a : CallAct) :
    Option (BudgetedStore × BudgetedState) :=
  (gate.callStep i s.toCallStore t a).map fun p => ({ s with toCallStore := p.1 }, .call p.2)

def budgetedStep (i : Nat) (s : BudgetedStore) :
    BudgetedState → BudgetedAct → Option (BudgetedStore × BudgetedState)
  | .call (.authAsked key now cached seen), .take instant =>
    -- the instant is read under the budget's lock
    if s.budget.state.last ≤ instant then
      let r := s.budget.tryTake instant
      some ({ s with budget := r.2 },
        if r.1 then .waiting key now cached seen
        else .call (gate.onAnswer key now cached seen (.unavailable "relay validate budget exhausted")))
    else none
  | .waiting key now cached seen, .respond r =>
    some (s.record .validate key r, .call (gate.onAnswer key now cached seen (json.validate r)))
  | .call (.activating key seen), .respond r =>
    gate.innerStep i (s.record .activate key r) (.activating key seen) (.portal (json.activate r))
  | .call (.releasing key activationId), .respond r =>
    gate.innerStep i (s.record .deactivate key r) (.releasing key activationId)
      (.deactivated (json.deactivate r).isOk)
  | .call t, .call a => if a.isAnswer then none else gate.innerStep i s t a
  | _, _ => none

end PolarGate

abbrev BudgetedSys := Sys BudgetedStore BudgetedState

abbrev BudgetedSchedule := List (Act BudgetedAct Empty)

def PolarGate.budgetedSys (gate : PolarGate) (json : PortalJson) :
    BudgetedSys → Act BudgetedAct Empty → Option BudgetedSys :=
  Threads.step (.call .ready) (gate.budgetedStep json) (fun _ e => nomatch e)

/-- The gate as it is made: an empty cache, a full budget. -/
def BudgetedSys.init (maxValidatePerSec validateBurst : UInt32) (now : Nat) : BudgetedSys :=
  ⟨{ cache := LicenseCache.empty, budget := .new maxValidatePerSec validateBurst now }, []⟩

/-! ## Calls, as before -/

/-- Waiting is part of being asked. -/
def BudgetedState.erase : BudgetedState → CallState
  | .call t => t
  | .waiting key now cached seen => .authAsked key now cached seen

/-- The answer of a step came out of an exchange. -/
def PortalJson.Grounds (json : PortalJson) (exchanges : List Exchange) : CallState → CallAct → Prop
  | .authAsked key _ _ _, .answer o =>
    (∃ why, o = .unavailable why) ∨ ∃ r, ⟨.validate, key, r⟩ ∈ exchanges ∧ json.validate r = o
  | .activating key _, .portal o => ∃ r, ⟨.activate, key, r⟩ ∈ exchanges ∧ json.activate r = o
  | _, _ => True

section steps

variable {gate : PolarGate} {json : PortalJson} {i : Nat} {s s' : BudgetedStore} {t t' : BudgetedState}
  {a : BudgetedAct}

theorem innerStep_eq {u : CallState} {b : CallAct} (h : gate.innerStep i s u b = some (s', t')) :
    gate.callStep i s.toCallStore u b = some (s'.toCallStore, t'.erase) ∧ s'.budget = s.budget ∧
      s'.exchanges = s.exchanges ∧ ∀ key now cached seen, t' ≠ .waiting key now cached seen := by
  obtain ⟨p, hp, heq⟩ := Option.map_eq_some_iff.1 h
  cases heq
  exact ⟨hp, rfl, rfl, nofun⟩

/-- **A step of the portal is a step of the calls**, with an answer that came out of an exchange, or it is
a request going out. -/
theorem budgetedStep_sim (h : gate.budgetedStep json i s t a = some (s', t')) :
    s.exchanges ⊆ s'.exchanges ∧
      ((s'.toCallStore = s.toCallStore ∧ t'.erase = t.erase) ∨
        ∃ b, gate.callStep i s.toCallStore t.erase b = some (s'.toCallStore, t'.erase) ∧
          json.Grounds s'.exchanges t.erase b) := by
  unfold PolarGate.budgetedStep at h
  split at h
  · rename_i key now cached seen instant
    split at h
    · cases h
      refine ⟨fun _ h => h, ?_⟩
      dsimp only
      split
      · exact .inl ⟨rfl, rfl⟩
      · exact .inr ⟨.answer (.unavailable "relay validate budget exhausted"), rfl, .inl ⟨_, rfl⟩⟩
    · cases h
  · rename_i key now cached seen r
    cases h
    exact ⟨List.subset_append_left _ _, .inr ⟨.answer (json.validate r), rfl,
      .inr ⟨r, List.mem_append_right _ (List.mem_singleton_self _), rfl⟩⟩⟩
  · rename_i key seen r
    obtain ⟨hcall, -, hex, -⟩ := innerStep_eq h
    rw [hex]
    exact ⟨List.subset_append_left _ _, .inr ⟨_, hcall, r,
      List.mem_append_right _ (List.mem_singleton_self _), rfl⟩⟩
  · rename_i key activationId r
    obtain ⟨hcall, -, hex, -⟩ := innerStep_eq h
    rw [hex]
    exact ⟨List.subset_append_left _ _, .inr ⟨_, hcall, trivial⟩⟩
  · rename_i u b
    split at h
    · cases h
    · obtain ⟨hcall, -, hex, -⟩ := innerStep_eq h
      rw [hex]
      refine ⟨fun _ h => h, .inr ⟨b, hcall, ?_⟩⟩
      cases u <;> cases b <;> trivial
  · cases h

end steps

/-! ## What a response says -/

/-- The portal grants the key: a success whose body says so, with ids that can be stored. -/
structure PortalJson.Grants (json : PortalJson) (r : HttpResult) (customerId benefitId : String) : Prop where
  granted : ∃ status body, r = .ok (status, body) ∧ isSuccess status = true ∧
    json.validateResp body = .ok ⟨customerId, benefitId, "granted"⟩
  sane : isSaneId customerId = true ∧ isSaneId benefitId = true

/-- The portal turns the key down, in one of the ways it documents. -/
def PortalJson.Refuses (json : PortalJson) (r : HttpResult) : Prop :=
  ∃ status body, r = .ok (status, body) ∧
    ((isSuccess status = true ∧ ∃ v, json.validateResp body = .ok v ∧ v.status ≠ "granted") ∨
      status = 404 ∨ status = 403 ∨ status = 422)

/-- The portal has activated the key. -/
def PortalJson.Activates (json : PortalJson) (r : HttpResult) (activationId : String) : Prop :=
  ∃ status body, r = .ok (status, body) ∧ isSuccess status = true ∧
    json.activateResp body = .ok activationId

namespace PortalJson

variable {json : PortalJson} {r : HttpResult}

theorem grants_of_validate {customerId benefitId : String} (h : json.validate r = .granted customerId benefitId) :
    json.Grants r customerId benefitId := by
  unfold validate at h
  split at h
  · cases h
  · rename_i status body
    split at h
    · rename_i hok
      split at h
      · rename_i v hv
        split at h
        · rename_i hgranted
          split at h
          · cases h
          · rename_i hsane
            cases h
            rw [Bool.or_eq_true, not_or, Bool.not_eq_true', Bool.not_eq_true', Bool.not_eq_false,
              Bool.not_eq_false] at hsane
            refine ⟨⟨status, body, rfl, hok, ?_⟩, hsane⟩
            rw [hv, ← hgranted]
        · cases h
      · cases h
    · split at h
      · cases h
      · split at h <;> cases h

theorem refuses_of_validate (h : json.validate r = .notLicensed) : json.Refuses r := by
  unfold validate at h
  split at h
  · cases h
  · rename_i status body
    refine ⟨status, body, rfl, ?_⟩
    split at h
    · rename_i hok
      split at h
      · rename_i v hv
        split at h
        · split at h <;> cases h
        · exact .inl ⟨hok, v, hv, ‹_›⟩
      · cases h
    · split at h
      · cases h
      · split at h
        · exact .inr ‹_›
        · cases h

theorem activates_of_activate {id : String} (h : json.activate r = .activated id) : json.Activates r id := by
  unfold activate at h
  split at h
  · cases h
  · rename_i status body
    split at h
    · rename_i hok
      split at h
      · rename_i id' hid
        cases h
        exact ⟨status, body, rfl, hok, hid⟩
      · cases h
    · split at h <;> cases h

end PortalJson

/-! ## What the cache rests on -/

namespace PolarGate

variable (gate : PolarGate) (json : PortalJson) (exchanges : List Exchange)

/-- There was an exchange for a key with this hash whose result is like this. -/
def Asked (endpoint : Endpoint) (keyHash : List UInt8) (P : HttpResult → Prop) : Prop :=
  ∃ key r, ⟨endpoint, key, r⟩ ∈ exchanges ∧ gate.sha key = keyHash ∧ P r

/-- Everything a row says was said by the portal. -/
structure Evident (row : LicenseRow) : Prop where
  /-- A grant, for this customer and benefit, with the capacity the relay gives it. -/
  granted : row.status = .granted → row.maxTunnels = gate.policy.benefits.lookup row.benefitId ∧
    gate.Asked exchanges .validate row.keyHash fun r => json.Grants r row.customerId row.benefitId
  denied : row.status = .notLicensed → gate.Asked exchanges .validate row.keyHash json.Refuses
  /-- A denied row still names the customer of an earlier grant, or nobody. -/
  customer : row.customerId = "" ∨
    gate.Asked exchanges .validate row.keyHash fun r => json.Grants r row.customerId row.benefitId
  activation : ∀ id ∈ row.activationId,
    gate.Asked exchanges .activate row.keyHash fun r => json.Activates r id

/-- A row that a call carries. -/
def CarriesRow (key : String) (cached : Option LicenseRow) : Prop :=
  ∀ row ∈ cached, row.keyHash = gate.sha key ∧ gate.Evident json exchanges row

/-- What a call is about to write has its exchange. -/
def Carries : CallState → Prop
  | .authAsked key _ cached _ => gate.CarriesRow json exchanges key cached
  | .authGrant key _ customerId benefitId =>
    gate.Asked exchanges .validate (gate.sha key) fun r => json.Grants r customerId benefitId
  | .authSweep key _ _ => gate.Asked exchanges .validate (gate.sha key) json.Refuses
  | .authDeny key _ cached _ =>
    gate.CarriesRow json exchanges key cached ∧ gate.Asked exchanges .validate (gate.sha key) json.Refuses
  | .activated key id _ => gate.Asked exchanges .activate (gate.sha key) fun r => json.Activates r id
  | _ => True

/-- Every row is evident. -/
def AllEvident (cache : LicenseCache) : Prop := ∀ row ∈ cache.rows, gate.Evident json exchanges row

end PolarGate

section evidence

variable {gate : PolarGate} {json : PortalJson} {E E' : List Exchange} {row : LicenseRow} {cache : LicenseCache}

theorem PolarGate.Asked.mono {endpoint : Endpoint} {k : List UInt8} {P : HttpResult → Prop} (hsub : E ⊆ E')
    (h : gate.Asked E endpoint k P) : gate.Asked E' endpoint k P := by
  obtain ⟨key, r, hmem, hk, hP⟩ := h
  exact ⟨key, r, hsub hmem, hk, hP⟩

theorem PolarGate.Evident.mono (hsub : E ⊆ E') (h : gate.Evident json E row) : gate.Evident json E' row :=
  ⟨fun hs => ⟨(h.granted hs).1, (h.granted hs).2.mono hsub⟩, fun hs => (h.denied hs).mono hsub,
    h.customer.imp_right fun hc => hc.mono hsub, fun id hid => (h.activation id hid).mono hsub⟩

theorem PolarGate.CarriesRow.mono {key : String} {cached : Option LicenseRow} (hsub : E ⊆ E')
    (h : gate.CarriesRow json E key cached) : gate.CarriesRow json E' key cached :=
  fun row hrow => ⟨(h row hrow).1, (h row hrow).2.mono hsub⟩

theorem PolarGate.Carries.mono {t : CallState} (hsub : E ⊆ E') (h : gate.Carries json E t) :
    gate.Carries json E' t := by
  cases t with
  | authAsked => exact PolarGate.CarriesRow.mono hsub h
  | authGrant | authSweep | activated => exact PolarGate.Asked.mono hsub h
  | authDeny => exact ⟨h.1.mono hsub, h.2.mono hsub⟩
  | _ => trivial

/-- Of two rows with the same verdict, one may have the other's activation. -/
theorem PolarGate.Evident.withActivation {id : Option String} (h : gate.Evident json E row)
    (hid : ∀ a ∈ id, gate.Asked E .activate row.keyHash fun r => json.Activates r a) :
    gate.Evident json E { row with activationId := id } :=
  ⟨h.granted, h.denied, h.customer, hid⟩

theorem evident_upsert (h : gate.AllEvident json E cache) (hrow : gate.Evident json E row) :
    gate.AllEvident json E (cache.upsert row) := by
  intro r hr
  unfold LicenseCache.upsert at hr
  split at hr
  · obtain ⟨old, hold, rfl⟩ := List.mem_map.1 hr
    split
    · rename_i hk
      refine hrow.withActivation fun a ha => ?_
      rcases Option.or_eq_some_iff.1 ha with ha | ⟨-, ha⟩
      · exact hrow.activation a ha
      · rw [← hk]
        exact (h old hold).activation a ha
    · exact h old hold
  · rcases List.mem_append.1 hr with hr | hr
    · exact h r hr
    · rw [List.mem_singleton.1 hr]
      exact hrow

theorem evident_sweep (h : gate.AllEvident json E cache) (olderThan : Int) :
    gate.AllEvident json E (cache.sweepNegative olderThan) :=
  fun r hr => h r (List.mem_of_mem_filter hr)

theorem evident_setActivation (h : gate.AllEvident json E cache) {k : List UInt8} {id : Option String}
    (hid : ∀ a ∈ id, gate.Asked E .activate k fun r => json.Activates r a) :
    gate.AllEvident json E (cache.setActivation k id) := by
  intro r hr
  obtain ⟨old, hold, rfl⟩ := List.mem_map.1 hr
  split
  · rename_i hk
    exact (h old hold).withActivation (hk ▸ hid)
  · exact h old hold

theorem evident_grantedRow {key customerId benefitId : String} {now : Int}
    (h : gate.Asked E .validate (gate.sha key) fun r => json.Grants r customerId benefitId) :
    gate.Evident json E (gate.policy.grantedRow (gate.sha key) now customerId benefitId) :=
  ⟨fun _ => ⟨rfl, h⟩, nofun, .inr h, nofun⟩

theorem evident_deniedRow {key : String} {now : Int} {cached : Option LicenseRow}
    (hcached : gate.CarriesRow json E key cached)
    (h : gate.Asked E .validate (gate.sha key) json.Refuses) :
    gate.Evident json E (deniedRow (gate.sha key) now cached) := by
  cases cached with
  | none => exact ⟨nofun, fun _ => h, .inl rfl, nofun⟩
  | some old =>
    obtain ⟨hk, hold⟩ := hcached old rfl
    exact ⟨nofun, fun _ => hk ▸ h, hold.customer, hold.activation⟩

theorem carriesRow_get {key : String} (h : gate.AllEvident json E cache) :
    gate.CarriesRow json E key (cache.get (gate.sha key)) := by
  intro row hrow
  obtain ⟨hmem, hk⟩ := LicenseCache.get_eq_some.1 hrow
  exact ⟨hk, h row hmem⟩

theorem carries_beginAuth {store : CallStore} (h : gate.AllEvident json E store.cache) (key : String) (now : Int)
    (ok : Bool) : gate.Carries json E (gate.beginAuth store key now ok) := by
  unfold PolarGate.beginAuth
  split
  · trivial
  · dsimp only
    split
    · split <;> trivial
    · cases ok with
      | false => exact nofun
      | true => exact carriesRow_get h

theorem carries_onAnswer {key : String} {now : Int} {cached : Option LicenseRow} {seen : Nat}
    {o : ValidateOutcome} (hcached : gate.CarriesRow json E key cached)
    (ho : (∃ why, o = .unavailable why) ∨ ∃ r, ⟨.validate, key, r⟩ ∈ E ∧ json.validate r = o) :
    gate.Carries json E (gate.onAnswer key now cached seen o) := by
  cases o with
  | unavailable why =>
    unfold PolarGate.onAnswer
    dsimp only
    split <;> trivial
  | granted customerId benefitId =>
    obtain ⟨why, hwhy⟩ | ⟨r, hmem, hr⟩ := ho
    · cases hwhy
    · exact ⟨key, r, hmem, rfl, PortalJson.grants_of_validate hr⟩
  | notLicensed =>
    obtain ⟨why, hwhy⟩ | ⟨r, hmem, hr⟩ := ho
    · cases hwhy
    · have hasked : gate.Asked E .validate (gate.sha key) json.Refuses :=
        ⟨key, r, hmem, rfl, PortalJson.refuses_of_validate hr⟩
      unfold PolarGate.onAnswer
      dsimp only
      split
      · exact hasked
      · exact ⟨hcached, hasked⟩

/-- One step of a call keeps the evidence. -/
theorem evident_move {store store' : CallStore} {t t' : CallState} {b : CallAct}
    (hmove : CallMove gate store t b store' t') (hgrounds : json.Grounds E t b)
    (hrows : gate.AllEvident json E store.cache) (ht : gate.Carries json E t) :
    gate.AllEvident json E store'.cache ∧ gate.Carries json E t' := by
  cases hmove with
  | authenticate key now ok => exact ⟨hrows, carries_beginAuth hrows key now ok⟩
  | ensureActivated key ok =>
    refine ⟨hrows, ?_⟩
    unfold PolarGate.beginActivate
    split
    · trivial
    · split
      · trivial
      · split <;> trivial
  | releaseActivation key ok =>
    refine ⟨hrows, ?_⟩
    unfold PolarGate.beginRelease
    split <;> trivial
  | answer key now cached seen o => exact ⟨hrows, carries_onAnswer ht hgrounds⟩
  | sweep key now seen => exact ⟨evident_sweep hrows _, nofun, ht⟩
  | unswept key now seen => exact ⟨hrows, nofun, ht⟩
  | grant key now customerId benefitId =>
    refine ⟨evident_upsert hrows (evident_grantedRow ht), ?_⟩
    split <;> trivial
  | deny key now cached seen => exact ⟨evident_upsert hrows (evident_deniedRow ht.1 ht.2), trivial⟩
  | resolve => exact ⟨hrows, trivial⟩
  | portal key seen activationId =>
    obtain ⟨r, hmem, hr⟩ := hgrounds
    exact ⟨hrows, key, r, hmem, rfl, PortalJson.activates_of_activate hr⟩
  | activate key activationId seen =>
    refine ⟨evident_setActivation hrows fun a ha => ?_, trivial⟩
    cases ha
    exact ht
  | deactivated => exact ⟨hrows, trivial⟩
  | clear key activationId => exact ⟨evident_setActivation hrows nofun, trivial⟩
  | quit => exact ⟨hrows, trivial⟩

theorem evident_step {i : Nat} {s s' : BudgetedStore} {t t' : BudgetedState} {a : BudgetedAct}
    (h : gate.budgetedStep json i s t a = some (s', t')) (hrows : gate.AllEvident json s.exchanges s.cache)
    (ht : gate.Carries json s.exchanges t.erase) :
    gate.AllEvident json s'.exchanges s'.cache ∧ gate.Carries json s'.exchanges t'.erase := by
  obtain ⟨hsub, hsim⟩ := budgetedStep_sim h
  have hrows' : gate.AllEvident json s'.exchanges s.cache := fun row hrow => (hrows row hrow).mono hsub
  rcases hsim with ⟨hstore, herase⟩ | ⟨b, hcall, hgrounds⟩
  · rw [herase, hstore]
    exact ⟨hrows', ht.mono hsub⟩
  · exact evident_move (callStep_move hcall) hgrounds hrows' (ht.mono hsub)

/-- Every row and every call has its evidence. -/
def EvidentSys (gate : PolarGate) (json : PortalJson) (S : BudgetedSys) : Prop :=
  gate.AllEvident json S.shared.exchanges S.shared.cache ∧
    All (fun _ t s => gate.Carries json s.exchanges t.erase) S

theorem evidentSys_init (rate burst : UInt32) (now : Nat) : EvidentSys gate json (.init rate burst now) :=
  ⟨fun _ hr => (nomatch hr), fun _ _ ht => (nomatch ht)⟩

theorem evidentSys_step {S S' : BudgetedSys} {act : Act BudgetedAct Empty} (h : EvidentSys gate json S)
    (hs : gate.budgetedSys json S act = some S') : EvidentSys gate json S' := by
  refine step_inv (I := fun s => gate.AllEvident json s.exchanges s.cache) (G := fun _ _ => True) h.1 h.2
    trivial hs (fun _ _ _ => trivial) ?_ ?_ nofun
  · intro i a t s' t' _ _ ht hstep
    exact evident_step hstep h.1 ht
  · intro i a t s' t' _ _ _ hstep j u _ _ hu
    exact hu.mono (budgetedStep_sim hstep).1

/-! ## Calls that learn nothing -/

/-- The step at which a call learns nothing: there is no token to ask with, or the response is none of those
that its endpoint documents. -/
def PortalJson.Undecided (json : PortalJson) (budget : ValidateBudget) : BudgetedState → BudgetedAct → Prop
  | .call (.authAsked ..), .take instant => (budget.tryTake instant).1 = false
  | .waiting .., .respond r => (∀ customerId benefitId, ¬ json.Grants r customerId benefitId) ∧ ¬ json.Refuses r
  | .call (.activating ..), .respond r => ∀ id, ¬ json.Activates r id
  | .call (.releasing ..), .respond r => ∀ status body, r = .ok (status, body) → isSuccess status = false
  | _, _ => False

/-- A call that has nothing more to write. -/
def BudgetedState.settled : BudgetedState → Bool
  | .call (.authResolve _) | .call (.done _) => true
  | _ => false

theorem onAnswer_settled {key : String} {now : Int} {cached : Option LicenseRow} {seen : Nat} (why : String) :
    BudgetedState.settled (.call (gate.onAnswer key now cached seen (.unavailable why))) = true := by
  unfold PolarGate.onAnswer
  dsimp only
  split <;> rfl

theorem validate_undecided {r : HttpResult}
    (hgrants : ∀ customerId benefitId, ¬ json.Grants r customerId benefitId) (hrefuses : ¬ json.Refuses r) :
    ∃ why, json.validate r = .unavailable why := by
  cases h : json.validate r with
  | granted customerId benefitId => exact absurd (PortalJson.grants_of_validate h) (hgrants _ _)
  | notLicensed => exact absurd (PortalJson.refuses_of_validate h) hrefuses
  | unavailable why => exact ⟨why, rfl⟩

section settled

variable {i : Nat} {s s' : BudgetedStore} {t t' : BudgetedState} {a : BudgetedAct}

theorem undecided_step (hundecided : json.Undecided s.budget t a)
    (h : gate.budgetedStep json i s t a = some (s', t')) : s'.cache = s.cache ∧ t'.settled = true := by
  unfold PolarGate.budgetedStep at h
  split at h
  · split at h
    · cases h
      refine ⟨rfl, ?_⟩
      rw [show (s.budget.tryTake _).1 = false from hundecided, if_neg Bool.false_ne_true]
      exact onAnswer_settled _
    · cases h
  · cases h
    obtain ⟨why, hwhy⟩ := validate_undecided hundecided.1 hundecided.2
    rw [hwhy]
    exact ⟨rfl, onAnswer_settled why⟩
  · rename_i key seen r
    cases hr : json.activate r with
    | activated id => exact absurd (PortalJson.activates_of_activate hr) (hundecided id)
    | limitReached =>
      rw [hr] at h
      cases h
      exact ⟨rfl, rfl⟩
    | unavailable why =>
      rw [hr] at h
      cases h
      exact ⟨rfl, rfl⟩
  · rename_i key activationId r
    have hfails : (json.deactivate r).isOk = false := by
      unfold PortalJson.deactivate
      split
      · rfl
      · rename_i status body
        rw [hundecided status body rfl]
        rfl
    rw [hfails] at h
    cases h
    exact ⟨rfl, rfl⟩
  · exact absurd hundecided (by cases ‹CallState› <;> exact id)
  · cases h

/-- Afterwards it resolves its user, at most. -/
theorem callSettled_step (hsettled : t.settled = true) (h : gate.budgetedStep json i s t a = some (s', t')) :
    s'.cache = s.cache ∧ t'.settled = true := by
  obtain ⟨u, rfl, hu⟩ : ∃ u, t = .call u ∧ ((∃ c, u = .authResolve c) ∨ ∃ user, u = .done user) := by
    unfold BudgetedState.settled at hsettled
    split at hsettled
    · exact ⟨_, rfl, .inl ⟨_, rfl⟩⟩
    · exact ⟨_, rfl, .inr ⟨_, rfl⟩⟩
    · cases hsettled
  rcases hu with ⟨c, rfl⟩ | ⟨user, rfl⟩
  · cases a with
    | call b =>
      cases b with
      | resolve userId =>
        cases h
        exact ⟨rfl, rfl⟩
      | _ => cases h
    | _ => cases h
  · cases a with
    | call b => cases b <;> cases h
    | _ => cases h

end settled

/-! ## What a call writes -/

/-- The row that a response to validate is turned into: what it grants, or that it refuses. A refusal also
removes old denials. -/
def PolarGate.Tells (gate : PolarGate) (json : PortalJson) (key : String) (r : HttpResult)
    (cache cache' : LicenseCache) : Prop :=
  cache' = cache ∨
  (∃ now customerId benefitId, json.Grants r customerId benefitId ∧
    cache' = cache.upsert (gate.policy.grantedRow (gate.sha key) now customerId benefitId)) ∨
  json.Refuses r ∧ ((∃ olderThan, cache' = cache.sweepNegative olderThan) ∨
    ∃ now cached, cache' = cache.upsert (deniedRow (gate.sha key) now cached))

/-- A call after the response. -/
def PortalJson.Answered (json : PortalJson) (key : String) (r : HttpResult) : BudgetedState → Prop
  | .call (.authGrant key' _ customerId benefitId) => key' = key ∧ json.Grants r customerId benefitId
  | .call (.authSweep key' _ _) => key' = key ∧ json.Refuses r
  | .call (.authDeny key' _ _ _) => key' = key ∧ json.Refuses r
  | t => t.settled = true

theorem answered_of_settled {key : String} {r : HttpResult} {t : BudgetedState} (h : t.settled = true) :
    json.Answered key r t := by
  unfold BudgetedState.settled at h
  split at h
  · exact h
  · exact h
  · cases h

theorem answered_onAnswer (key : String) (now : Int) (cached : Option LicenseRow) (seen : Nat) (r : HttpResult) :
    json.Answered key r (.call (gate.onAnswer key now cached seen (json.validate r))) := by
  cases hr : json.validate r with
  | granted customerId benefitId => exact ⟨rfl, PortalJson.grants_of_validate hr⟩
  | notLicensed =>
    unfold PolarGate.onAnswer
    dsimp only
    split <;> exact ⟨rfl, PortalJson.refuses_of_validate hr⟩
  | unavailable why => exact answered_of_settled (onAnswer_settled why)

theorem answered_step {key : String} {r : HttpResult} {i : Nat} {s s' : BudgetedStore} {t t' : BudgetedState}
    {a : BudgetedAct} (hanswered : json.Answered key r t) (h : gate.budgetedStep json i s t a = some (s', t')) :
    gate.Tells json key r s.cache s'.cache ∧ json.Answered key r t' := by
  unfold PortalJson.Answered at hanswered
  split at hanswered
  · rename_i key' now customerId benefitId
    obtain ⟨rfl, hgrants⟩ := hanswered
    cases a with
    | call b =>
      cases b with
      | upsert ok =>
        cases ok with
        | false =>
          cases h
          exact ⟨.inl rfl, rfl⟩
        | true =>
          cases h
          refine ⟨.inr (.inl ⟨now, customerId, benefitId, hgrants, rfl⟩), ?_⟩
          change json.Answered key' r (.call (if _ then .authResolve customerId else .done none))
          split <;> rfl
      | _ => cases h
    | _ => cases h
  · obtain ⟨rfl, hrefuses⟩ := hanswered
    cases a with
    | call b =>
      cases b with
      | sweep ok =>
        cases ok with
        | false =>
          cases h
          exact ⟨.inl rfl, rfl, hrefuses⟩
        | true =>
          cases h
          exact ⟨.inr (.inr ⟨hrefuses, .inl ⟨_, rfl⟩⟩), rfl, hrefuses⟩
      | _ => cases h
    | _ => cases h
  · rename_i key' now cached seen
    obtain ⟨rfl, hrefuses⟩ := hanswered
    cases a with
    | call b =>
      cases b with
      | upsert ok =>
        cases ok with
        | false =>
          cases h
          exact ⟨.inl rfl, rfl⟩
        | true =>
          cases h
          exact ⟨.inr (.inr ⟨hrefuses, .inr ⟨now, cached, rfl⟩⟩), rfl⟩
      | _ => cases h
    | _ => cases h
  · obtain ⟨hcache, hsettled⟩ := callSettled_step hanswered h
    exact ⟨.inl hcache, answered_of_settled hsettled⟩

/-- What a step of the `i`-th call does to the cache. -/
def PolarGate.Writes (gate : PolarGate) (json : PortalJson) (i : Nat) (Q : LicenseCache → LicenseCache → Prop)
    (S : BudgetedSys) (act : Act BudgetedAct Empty) : Prop :=
  ∀ a S', act = .on i a → gate.budgetedSys json S act = some S' → Q S.shared.cache S'.shared.cache

/-- What a call's own steps keep, and do, they keep and do in any company. -/
theorem writes_of_own {Q : LicenseCache → LicenseCache → Prop} {J : BudgetedState → Prop} {i : Nat}
    (hown : ∀ s t a s' t', J t → gate.budgetedStep json i s t a = some (s', t') → Q s.cache s'.cache ∧ J t')
    {S : BudgetedSys} {t : BudgetedState} (hi : S.threads[i]? = some t) (ht : J t) (more : BudgetedSchedule) :
    Lts.Steps (gate.budgetedSys json) (gate.Writes json i Q) S more := by
  refine Lts.steps_of_inv (I := fun V => ∃ u, V.threads[i]? = some u ∧ J u) (G := fun _ _ => True)
    ?_ ?_ ⟨t, hi, ht⟩ (Lts.steps_of_forall fun _ _ => trivial)
  · rintro V act V' ⟨u, hu, hJ⟩ - hs
    cases act with
    | spawn =>
      cases hs
      exact ⟨u, getElem?_spawn_old hu, hJ⟩
    | env e => exact nomatch e
    | on j b =>
      obtain ⟨v, s', v', hv, hstep, rfl⟩ := step_on hs
      by_cases hij : i = j
      · subst hij
        obtain rfl := Option.some.inj (hv.symm.trans hu)
        exact ⟨v', getElem?_set_moved hv, (hown _ _ _ _ _ hJ hstep).2⟩
      · exact ⟨u, getElem?_set_other hij hu, hJ⟩
  · rintro V act ⟨u, hu, hJ⟩ - b V' rfl hs
    obtain ⟨v, s', v', hv, hstep, rfl⟩ := step_on hs
    obtain rfl := Option.some.inj (hv.symm.trans hu)
    exact (hown _ _ _ _ _ hJ hstep).1

/-- **Where the cache's verdicts come from.** Under any number of concurrent calls, whatever the network,
the portal and the store do: every row is what the portal said of its key. A grant names the customer and
the benefit of a success response, with the capacity configured for it; a denial had one of the documented
refusals; an activation id was issued. A call writes what its own response says: the grant, or the denial. No
failure, and no status outside those, ever decides anything: a call that finds the budget exhausted, or gets a
response that neither grants nor refuses, writes nothing then or later, and neither does one whose activation
or deactivation was not confirmed. -/
theorem cache_evident (gate : PolarGate) (json : PortalJson) (maxValidatePerSec validateBurst : UInt32)
    (now : Nat) (sched : BudgetedSchedule) (S : BudgetedSys)
    (hrun : Lts.run (gate.budgetedSys json) (.init maxValidatePerSec validateBurst now) sched = some S) :
    (∀ keyHash row, S.shared.cache.get keyHash = some row → gate.Evident json S.shared.exchanges row) ∧
    (∀ i key t cached seen r S', S.threads[i]? = some (.waiting key t cached seen) →
      gate.budgetedSys json S (.on i (.respond r)) = some S' → S'.shared.cache = S.shared.cache ∧
        ∀ more, Lts.Steps (gate.budgetedSys json) (gate.Writes json i (gate.Tells json key r)) S' more) ∧
    ∀ i t a S', S.threads[i]? = some t → json.Undecided S.shared.budget t a →
      gate.budgetedSys json S (.on i a) = some S' → S'.shared.cache = S.shared.cache ∧
        ∀ more, Lts.Steps (gate.budgetedSys json)
          (gate.Writes json i fun cache cache' => cache' = cache) S' more := by
  have hS : EvidentSys gate json S :=
    Lts.run_inv (G := fun _ _ => True) (fun _ _ _ h _ hs => evidentSys_step h hs)
      (evidentSys_init maxValidatePerSec validateBurst now) (Lts.steps_of_forall fun _ _ => trivial) hrun
  refine ⟨fun keyHash row hget => hS.1 row (LicenseCache.get_eq_some.1 hget).1, ?_, ?_⟩
  · intro i key t cached seen r S' hi hs
    obtain ⟨u, s', t', hu, hstep, rfl⟩ := step_on hs
    obtain rfl := Option.some.inj (hi.symm.trans hu)
    cases hstep
    exact ⟨rfl, writes_of_own (J := json.Answered key r) (fun _ _ _ _ _ => answered_step)
      (getElem?_set_moved hi) (answered_onAnswer key t cached seen r)⟩
  · intro i t a S' hi hundecided hs
    obtain ⟨u, s', t', hu, hstep, rfl⟩ := step_on hs
    obtain rfl := Option.some.inj (hi.symm.trans hu)
    obtain ⟨hcache, hsettled⟩ := undecided_step hundecided hstep
    exact ⟨hcache, writes_of_own (J := fun v => v.settled = true) (fun _ _ _ _ _ => callSettled_step)
      (getElem?_set_moved hi) hsettled⟩

/-- A portal whose only body that parses is empty, and grants. -/
def soloPortal : PortalJson where
  validateResp body := if body = [] then .ok ⟨"ann", "solo", "granted"⟩ else .error "eof"
  activateResp _ := .error "eof"
  statusText _ := ""

/-- One key is granted; the portal fails another. -/
def grantedAndFailed : BudgetedSchedule :=
  [.spawn, .spawn, .on 0 (.call (.authenticate "key" 600 true)), .on 1 (.call (.authenticate "other" 600 true)),
    .on 0 (.take 5), .on 1 (.take 6), .on 1 (.respond (.ok (500, []))), .on 0 (.respond (.ok (200, []))),
    .on 0 (.call (.upsert true))]

theorem cache_evident_granted : ∃ S row,
    Lts.run (soloGate.budgetedSys soloPortal) (.init 5 10 0) grantedAndFailed = some S ∧
    S.shared.cache.get (soloGate.sha "key") = some row ∧ row.customerId = "ann" ∧
    S.shared.cache.get (soloGate.sha "other") = none ∧
    soloGate.Evident soloPortal S.shared.exchanges row := by
  have hend : (Lts.run (soloGate.budgetedSys soloPortal) (.init 5 10 0) grantedAndFailed).map (fun S =>
      ((S.shared.cache.get (soloGate.sha "key")).map (·.customerId),
        S.shared.cache.get (soloGate.sha "other"))) = some (some "ann", none) := by
    decide +kernel
  obtain ⟨S, hrun, hcache⟩ := Option.map_eq_some_iff.1 hend
  rw [Prod.mk.injEq] at hcache
  obtain ⟨row, hrow, hname⟩ := Option.map_eq_some_iff.1 hcache.1
  exact ⟨S, row, hrun, hrow, hname, hcache.2,
    (cache_evident soloGate soloPortal 5 10 0 grantedAndFailed S hrun).1 _ row hrow⟩

end evidence

/-! ## How often the portal is asked -/

section budget

/-- The instants of a schedule's `try_take`s, in order. -/
def takes (sched : BudgetedSchedule) : List Nat :=
  sched.filterMap fun act => match act with
    | .on _ (.take instant) => some instant
    | _ => none

/-- What the budget says to them. -/
def takeLog (step : BudgetedSys → Act BudgetedAct Empty → Option BudgetedSys) (S : BudgetedSys)
    (sched : BudgetedSchedule) :
    List (Nat × Bool) :=
  (Lts.trace step S sched).filterMap fun p => match p with
    | (S, .on _ (.take instant)) => some (instant, (S.shared.budget.tryTake instant).1)
    | _ => none

/-- A request to validate is out. -/
def BudgetedState.isWaiting : BudgetedState → Bool
  | .waiting .. => true
  | _ => false

/-- How many requests to validate were answered. -/
def BudgetedStore.answered (s : BudgetedStore) : Nat := s.exchanges.countP fun e => e.endpoint = .validate

/-- How many were made: those that were answered, and those that are out. -/
def BudgetedSys.validations (S : BudgetedSys) : Nat :=
  S.shared.answered + S.threads.countP BudgetedState.isWaiting

/-- The budget as a bucket for one key. -/
def ValidateBudget.keyed (budget : ValidateBudget) : TokenBucket.Keyed Unit ℚ := fun _ => some budget.state

/-- Tokens gained in a nanosecond. -/
def ValidateBudget.perTick (budget : ValidateBudget) : ℚ := budget.rate / 1000000000

namespace ValidateBudget

variable {budget : ValidateBudget}

theorem tryTake_eq (now : Nat) : budget.tryTake now =
    ((budget.keyed.check budget.perTick budget.burst () now).1, { budget with
      state := (TokenBucket.spend (budget.keyed.level budget.perTick budget.burst () now) now).2 }) := by
  have hlevel : min (budget.state.tokens + asSecs (now - budget.state.last) * budget.rate) budget.burst =
      budget.keyed.level budget.perTick budget.burst () now := by
    rw [TokenBucket.Keyed.level, keyed, Option.getD_some, TokenBucket.level, asSecs, perTick]
    congr 2
    ring
  unfold tryTake
  rw [hlevel]
  unfold TokenBucket.Keyed.check TokenBucket.spend
  dsimp only
  split <;> rfl

theorem keyed_tryTake (now : Nat) : (budget.tryTake now).2.keyed =
    (budget.keyed.check budget.perTick budget.burst () now).2 := by
  rw [tryTake_eq]
  funext u
  unfold keyed TokenBucket.Keyed.check
  dsimp only
  rw [Function.update_apply, if_pos rfl]

theorem tryTake_state (now : Nat) : (budget.tryTake now).2.rate = budget.rate ∧
    (budget.tryTake now).2.burst = budget.burst ∧ (budget.tryTake now).2.state.last = now := by
  unfold tryTake
  dsimp only
  split <;> exact ⟨rfl, rfl, rfl⟩

end ValidateBudget

section steps

variable {gate : PolarGate} {json : PortalJson} {i : Nat} {s s' : BudgetedStore} {t t' : BudgetedState}

theorem budgetedStep_take {instant : Nat}
    (h : gate.budgetedStep json i s t (.take instant) = some (s', t')) :
    s.budget.state.last ≤ instant ∧ s'.budget = (s.budget.tryTake instant).2 ∧
      s'.answered = s.answered ∧ t.isWaiting = false ∧ t'.isWaiting = (s.budget.tryTake instant).1 := by
  cases t with
  | waiting => cases h
  | call u =>
    cases u with
    | authAsked key now cached seen =>
      simp only [PolarGate.budgetedStep] at h
      split at h
      · rename_i hle
        rw [Option.some.injEq, Prod.mk.injEq] at h
        obtain ⟨rfl, rfl⟩ := h
        refine ⟨hle, rfl, rfl, rfl, ?_⟩
        cases (s.budget.tryTake instant).1 <;> rfl
      · cases h
    | _ => cases h

theorem innerStep_requests {u : CallState} {b : CallAct} (h : gate.innerStep i s u b = some (s', t')) :
    s'.budget = s.budget ∧ s'.answered = s.answered ∧ t'.isWaiting = false := by
  obtain ⟨p, -, heq⟩ := Option.map_eq_some_iff.1 h
  cases heq
  exact ⟨rfl, rfl, rfl⟩

/-- Every other step keeps the number of requests. -/
theorem budgetedStep_other {a : BudgetedAct} (ha : ∀ instant, a ≠ .take instant)
    (h : gate.budgetedStep json i s t a = some (s', t')) : s'.budget = s.budget ∧
      s'.answered + (if t'.isWaiting then 1 else 0) = s.answered + (if t.isWaiting then 1 else 0) := by
  unfold PolarGate.budgetedStep at h
  split at h
  · exact absurd rfl (ha _)
  · cases h
    refine ⟨rfl, ?_⟩
    rw [BudgetedStore.answered, BudgetedStore.record, List.countP_append]
    rfl
  · obtain ⟨hbudget, hanswered, hwaiting⟩ := innerStep_requests h
    rw [hbudget, hanswered, hwaiting, BudgetedStore.answered, BudgetedStore.record, List.countP_append]
    exact ⟨rfl, rfl⟩
  · obtain ⟨hbudget, hanswered, hwaiting⟩ := innerStep_requests h
    rw [hbudget, hanswered, hwaiting, BudgetedStore.answered, BudgetedStore.record, List.countP_append]
    exact ⟨rfl, rfl⟩
  · split at h
    · cases h
    · obtain ⟨hbudget, hanswered, hwaiting⟩ := innerStep_requests h
      rw [hbudget, hanswered, hwaiting]
      exact ⟨rfl, rfl⟩
  · cases h

/-- One step of the system: what it asks of the budget, and the requests after it. -/
theorem budgetedSys_requests {S S' : BudgetedSys} {act : Act BudgetedAct Empty}
    (hs : gate.budgetedSys json S act = some S') :
    (∃ j instant, act = .on j (.take instant) ∧ S.shared.budget.state.last ≤ instant ∧
      S'.shared.budget = (S.shared.budget.tryTake instant).2 ∧
      S'.validations = S.validations + if (S.shared.budget.tryTake instant).1 then 1 else 0) ∨
    ((∀ j instant, act ≠ .on j (.take instant)) ∧ S'.shared.budget = S.shared.budget ∧
      S'.validations = S.validations) := by
  cases act with
  | spawn =>
    cases hs
    refine .inr ⟨nofun, rfl, ?_⟩
    rw [BudgetedSys.validations, countP_spawn rfl]
    rfl
  | env e => exact nomatch e
  | on j a =>
    obtain ⟨u, s', u', hj, hstep, rfl⟩ := step_on hs
    have hmoved := countP_moved BudgetedState.isWaiting u' hj
    by_cases ha : ∃ instant, a = .take instant
    · obtain ⟨instant, rfl⟩ := ha
      obtain ⟨hle, hbudget, hanswered, hu, hu'⟩ := budgetedStep_take hstep
      refine .inl ⟨j, instant, rfl, hle, hbudget, ?_⟩
      rw [hu, hu', if_neg Bool.false_ne_true] at hmoved
      dsimp only [BudgetedSys.validations]
      omega
    · obtain ⟨hbudget, hcount⟩ := budgetedStep_other (fun instant h => ha ⟨instant, h⟩) hstep
      refine .inr ⟨fun j' instant h => ha ⟨instant, (Act.on.inj h).2⟩, hbudget, ?_⟩
      dsimp only [BudgetedSys.validations]
      omega

theorem takes_cons (act : Act BudgetedAct Empty) (sched : BudgetedSchedule) :
    takes (act :: sched) = takes [act] ++ takes sched :=
  List.filterMap_append (l := [act])

theorem takeLog_cons {S S' : BudgetedSys} {act : Act BudgetedAct Empty} {sched : BudgetedSchedule}
    (hs : gate.budgetedSys json S act = some S') : takeLog (gate.budgetedSys json) S (act :: sched) =
      ((takes [act]).map fun instant => (instant, (S.shared.budget.tryTake instant).1)) ++
        takeLog (gate.budgetedSys json) S' sched := by
  unfold takeLog
  rw [Lts.trace, hs]
  cases act with
  | on j a => cases a <;> rfl
  | _ => rfl

/-- The relay's requests are those of one bucket: the answers it gives, in the order of time, and a request
for each that is let through. -/
theorem takeLog_run {sched : BudgetedSchedule} {S' : BudgetedSys} : ∀ {S : BudgetedSys},
    Lts.run (gate.budgetedSys json) S sched = some S' →
    ((takes sched).Pairwise (· ≤ ·) ∧ ∀ instant ∈ takes sched, S.shared.budget.state.last ≤ instant) ∧
    (takeLog (gate.budgetedSys json) S sched).map (fun e => ((), e)) =
      TokenBucket.Keyed.log S.shared.budget.perTick S.shared.budget.burst S.shared.budget.keyed
        ((takes sched).map fun instant => ((), instant)) ∧
    S'.validations = S.validations + (takeLog (gate.budgetedSys json) S sched).countP (·.2) := by
  induction sched with
  | nil =>
    intro S hrun
    cases hrun
    exact ⟨⟨.nil, nofun⟩, rfl, rfl⟩
  | cons act sched ih =>
    intro S hrun
    obtain ⟨m, hm, hrest⟩ := (Lts.run_cons_eq_some _).1 hrun
    obtain ⟨⟨hsorted, hlast⟩, hlog, hcount⟩ := ih hrest
    rw [takes_cons, takeLog_cons hm]
    rcases budgetedSys_requests hm with ⟨j, instant, rfl, hle, hbudget, hmade⟩ | ⟨hno, hbudget, hmade⟩
    · obtain ⟨hrate, hburst, hstate⟩ := S.shared.budget.tryTake_state instant
      have htakes : takes [(.on j (.take instant) : Act BudgetedAct Empty)] = [instant] := rfl
      rw [hbudget] at hlog hlast
      rw [hstate] at hlast
      rw [htakes]
      refine ⟨⟨List.pairwise_cons.2 ⟨hlast, hsorted⟩, ?_⟩, ?_, ?_⟩
      · intro t ht
        rcases List.mem_cons.1 ht with rfl | ht
        · exact hle
        · exact hle.trans (hlast t ht)
      · have htick : (S.shared.budget.tryTake instant).2.perTick = S.shared.budget.perTick := by
          rw [ValidateBudget.perTick, hrate]
          rfl
        rw [htick, hburst, ValidateBudget.keyed_tryTake] at hlog
        have hanswer : (S.shared.budget.tryTake instant).1 = (S.shared.budget.keyed.check S.shared.budget.perTick
            S.shared.budget.burst () instant).1 := by rw [ValidateBudget.tryTake_eq]
        rw [List.map_append, hlog, List.map_singleton, hanswer]
        rfl
      · rw [hcount, hmade, List.countP_append]
        simp only [List.map_cons, List.map_nil, List.countP_singleton]
        omega
    · have htakes : takes [act] = [] := by
        cases act with
        | on j a =>
          cases a with
          | take instant => exact absurd rfl (hno j instant)
          | _ => rfl
        | _ => rfl
      rw [hbudget] at hlog hlast
      rw [htakes, List.nil_append, List.map_nil, List.nil_append]
      exact ⟨⟨hsorted, hlast⟩, hlog, by rw [hcount, hmade]⟩

end steps

/-- **One budget for the relay.** However many calls run at once, with whatever keys: between two instants
no more requests to validate go out than the burst and the rate allow, and no request goes out that was not
let through. -/
theorem validate_calls_bounded (gate : PolarGate) (json : PortalJson) (maxValidatePerSec validateBurst : UInt32)
    (now : Nat) (sched : BudgetedSchedule) (S : BudgetedSys)
    (hrun : Lts.run (gate.budgetedSys json) (.init maxValidatePerSec validateBurst now) sched = some S) :
    S.validations =
      (takeLog (gate.budgetedSys json) (.init maxValidatePerSec validateBurst now) sched).countP (·.2) ∧
    ∀ s t : Nat, s ≤ t →
      (((takeLog (gate.budgetedSys json) (.init maxValidatePerSec validateBurst now) sched).countP fun e =>
          e.2 ∧ s ≤ e.1 ∧ e.1 ≤ t : ℕ) : ℚ) ≤
        (max validateBurst.toNat 1 : Nat) + maxValidatePerSec.toNat * asSecs (t - s) := by
  obtain ⟨⟨hsorted, -⟩, hlog, hcount⟩ := takeLog_run hrun
  refine ⟨hcount.trans (Nat.zero_add _), fun s t hst => ?_⟩
  have hrate : (0 : ℚ) ≤ maxValidatePerSec.toNat / 1000000000 := div_nonneg (Nat.cast_nonneg _) (by norm_num)
  have hsolvent : TokenBucket.Keyed.Solvent (ValidateBudget.new maxValidatePerSec validateBurst now).keyed := by
    intro k b hb
    cases hb
    exact Nat.cast_nonneg _
  have hrequests : ((takes sched).map fun instant => ((), instant)).Pairwise fun a b => a.2 ≤ b.2 :=
    List.pairwise_map.2 hsorted
  have hbound := TokenBucket.Keyed.admitted_le (k := ()) hrate (Nat.cast_nonneg (max validateBurst.toNat 1))
    hsolvent hrequests hst
  have hlog' : (takeLog (gate.budgetedSys json) (.init maxValidatePerSec validateBurst now) sched).map
      (fun e => ((), e)) = TokenBucket.Keyed.log (maxValidatePerSec.toNat / 1000000000 : ℚ)
        (max validateBurst.toNat 1 : Nat) (ValidateBudget.new maxValidatePerSec validateBurst now).keyed
        ((takes sched).map fun instant => ((), instant)) := hlog
  rw [← hlog', List.countP_map] at hbound
  refine le_trans (Nat.cast_le.2 (List.countP_mono_left fun e _ he => ?_)) (hbound.trans_eq ?_)
  · simpa [and_comm, and_left_comm] using he
  · rw [asSecs]
    ring

/-- Two requests, in the first second. -/
theorem validate_calls_bounded_two : ∃ S,
    Lts.run (soloGate.budgetedSys soloPortal) (.init 5 10 0) grantedAndFailed = some S ∧ S.validations = 2 ∧
    (((takeLog (soloGate.budgetedSys soloPortal) (.init 5 10 0) grantedAndFailed).countP fun e =>
        e.2 ∧ 0 ≤ e.1 ∧ e.1 ≤ 1000000000 : ℕ) : ℚ) ≤
      (max (10 : UInt32).toNat 1 : Nat) + (5 : UInt32).toNat * asSecs (1000000000 - 0) := by
  have hend : (Lts.run (soloGate.budgetedSys soloPortal) (.init 5 10 0) grantedAndFailed).map
      BudgetedSys.validations = some 2 := by
    decide +kernel
  obtain ⟨S, hrun, hmade⟩ := Option.map_eq_some_iff.1 hend
  exact ⟨S, hrun, hmade, (validate_calls_bounded soloGate soloPortal 5 10 0 grantedAndFailed S hrun).2 0
    1000000000 (Nat.zero_le _)⟩

end budget

end EtherTunnel
