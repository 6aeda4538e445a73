import EtherTunnel.Lib.Threads
import EtherTunnel.Polar.FailOpen

/-!
# Calls of the gate, interleaved

`authenticate`, `ensure_activated` and `release_activation` each read the key's row, wait for an answer
from outside, and then write. Between the two, other calls run. Here a call is a thread; a step is what
it does without giving up the cache's lock or waiting:

| state | next step | source |
| --- | --- | --- |
| `ready` | read the clock and the row | `polar.rs:613-641`, `:785-798`, `:827-834` |
| `authAsked` | the validate answer, or the exhausted budget | `:643-648` |
| `authSweep`, `authDeny` | `sweep_negative`, then `upsert` of the row read before the wait | `:679-703` |
| `authGrant` | `upsert` of the granted row | `:649-674` |
| `authResolve` | `resolve_user`, and return | `:637`, `:675-677`, `:718` |
| `activating`, `activated` | the portal's answer, then `set_activation(Some)` | `:804-822` |
| `releasing`, `released` | the portal's answer, then `set_activation(None)` | `:835-841` |

`enforce_pooled_cap` only reads the cache and is not a step here. Two histories are carried along:
`stored`, every row ever upserted, and `cleared`, every activation id `release_activation` took out
of a row; `seen` in a call's state is how many clearings had happened when it read.
-/

namespace EtherTunnel

open Threads

structure CallStore where
  cache : LicenseCache
  stored : List LicenseRow := []
  cleared : List (List UInt8 × String) := []
deriving DecidableEq

inductive CallState where
  | ready
  | authAsked (key : String) (now : Int) (cached : Option LicenseRow) (seen : Nat)
  | authGrant (key : String) (now : Int) (customerId benefitId : String)
  | authSweep (key : String) (now : Int) (seen : Nat)
  | authDeny (key : String) (now : Int) (cached : Option LicenseRow) (seen : Nat)
  | authResolve (customerId : String)
  | activating (key : String) (seen : Nat)
  | activated (key activationId : String) (seen : Nat)
  | releasing (key activationId : String)
  | released (key activationId : String)
  | done (user : Option AuthedUser)
deriving DecidableEq

/-- A step, with what it meets outside; `ok` says whether the cache operation succeeds. -/
inductive CallAct where
  | authenticate (key : String) (now : Int) (ok : Bool)
  | answer (outcome : ValidateOutcome)
  | sweep (ok : Bool)
  | upsert (ok : Bool)
  | resolve (userId : Option Int)
  | ensureActivated (key : String) (ok : Bool)
  | portal (outcome : ActivateOutcome)
  | releaseActivation (key : String) (ok : Bool)
  | deactivated (ok : Bool)
  | setActivation (ok : Bool)
deriving DecidableEq

namespace CallStore

variable (s : CallStore)

/-- The row as a call reads it; a failed read is an absent row. -/
def read (ok : Bool) (keyHash : List UInt8) : Option LicenseRow :=
  if ok then s.cache.get keyHash else none

theorem read_not (fails : Bool) (keyHash : List UInt8) :
    s.read (!fails) keyHash = if fails then none else s.cache.get keyHash := by
  cases fails <;> rfl

def store (row : LicenseRow) : CallStore :=
  { s with cache := s.cache.upsert row, stored := s.stored ++ [row] }

/-- The activation id in the key's row. -/
def activation (keyHash : List UInt8) : Option String := (s.cache.get keyHash).bind (·.activationId)

/-- `set_activation(key_hash, None)`. -/
def clear (keyHash : List UInt8) : CallStore :=
  { s with
    cache := s.cache.setActivation keyHash none
    cleared := s.cleared ++ ((s.activation keyHash).map (keyHash, ·)).toList }

end CallStore

namespace PolarGate

variable (gate : PolarGate)

/-- `authenticate` up to its first wait. -/
def beginAuth (s : CallStore) (key : String) (now : Int) (ok : Bool) : CallState :=
  if isLocalToken key ∨ gate.domain = none ∨ now = 0 then .done none
  else
    let cached := s.read ok (gate.sha key)
    match cached.filter (gate.policy.fresh now) with
    | some row => if row.usable then .authResolve row.customerId else .done none
    | none => .authAsked key now cached s.cleared.length

/-- Where a validate answer takes the call. -/
def onAnswer (key : String) (now : Int) (cached : Option LicenseRow) (seen : Nat) :
    ValidateOutcome → CallState
  | .granted customerId benefitId => .authGrant key now customerId benefitId
  | .notLicensed => if cached.isNone then .authSweep key now seen else .authDeny key now cached seen
  | .unavailable _ =>
    match cached.filter (gate.policy.honored now) with
    | some row => .authResolve row.customerId
    | none => .done none

/-- `ensure_activated` up to its wait. -/
def beginActivate (s : CallStore) (key : String) (ok : Bool) : CallState :=
  if gate.policy.activateOnClaim = false then .done none
  else
    match (s.read ok (gate.sha key)).filter grantedOnly with
    | none => .done none
    | some row => if row.activationId.isSome then .done none else .activating key s.cleared.length

/-- `release_activation` up to its wait. -/
def beginRelease (s : CallStore) (key : String) (ok : Bool) : CallState :=
  match (s.read ok (gate.sha key)).bind (·.activationId) with
  | none => .done none
  | some activationId => .releasing key activationId

/-- One step of one call. -/
def callStep (_i : Nat) (s : CallStore) : CallState → CallAct → Option (CallStore × CallState)
  | .ready, .authenticate key now ok => some (s, gate.beginAuth s key now ok)
  | .ready, .ensureActivated key ok => some (s, gate.beginActivate s key ok)
  | .ready, .releaseActivation key ok => some (s, gate.beginRelease s key ok)
  | .authAsked key now cached seen, .answer o => some (s, gate.onAnswer key now cached seen o)
  | .authSweep key now seen, .sweep ok =>
    some (if ok then
        { s with cache := s.cache.sweepNegative (subI64 now gate.policy.cacheTtlSecs) }
      else s, .authDeny key now none seen)
  | .authGrant key now customerId benefitId, .upsert ok =>
    let row := gate.policy.grantedRow (gate.sha key) now customerId benefitId
    some (if ok then
        (s.store row, if row.maxTunnels.isSome then .authResolve customerId else .done none)
      else (s, .done none))
  | .authDeny key now cached _, .upsert ok =>
    some (if ok then s.store (deniedRow (gate.sha key) now cached) else s, .done none)
  | .authResolve customerId, .resolve userId =>
    some (s, .done (if customerId = "" then none else userId.map (⟨·, customerId⟩)))
  | .activating key seen, .portal o =>
    some (s, match o with
      | .activated activationId => .activated key activationId seen
      | _ => .done none)
  | .activated key activationId _, .setActivation ok =>
    some (if ok then
        { s with cache := s.cache.setActivation (gate.sha key) (some activationId) }
      else s, .done none)
  | .releasing key activationId, .deactivated ok =>
    some (s, if ok then .released key activationId else .done none)
  | .released key _, .setActivation ok => some (if ok then s.clear (gate.sha key) else s, .done none)
  | _, _ => none

end PolarGate

abbrev CallSys := Sys CallStore CallState

abbrev CallSchedule := List (Act CallAct Empty)

/-- The gate under any number of concurrent calls. -/
def PolarGate.callSys (gate : PolarGate) : CallSys → Act CallAct Empty → Option CallSys :=
  Threads.step .ready gate.callStep (fun _ e => nomatch e)

/-- An empty cache and no call yet. -/
def CallSys.init : CallSys := ⟨{ cache := LicenseCache.empty }, []⟩

/-! ## What a step can do -/

/-- A step of a call, by what it does to the cache. -/
inductive CallMove (gate : PolarGate) (s : CallStore) :
    CallState → CallAct → CallStore → CallState → Prop where
  | authenticate (key : String) (now : Int) (ok : Bool) :
      CallMove gate s .ready (.authenticate key now ok) s (gate.beginAuth s key now ok)
  | ensureActivated (key : String) (ok : Bool) :
      CallMove gate s .ready (.ensureActivated key ok) s (gate.beginActivate s key ok)
  | releaseActivation (key : String) (ok : Bool) :
      CallMove gate s .ready (.releaseActivation key ok) s (gate.beginRelease s key ok)
  | answer (key : String) (now : Int) (cached : Option LicenseRow) (seen : Nat)
      (o : ValidateOutcome) :
      CallMove gate s (.authAsked key now cached seen) (.answer o) s
        (gate.onAnswer key now cached seen o)
  | sweep (key : String) (now : Int) (seen : Nat) :
      CallMove gate s (.authSweep key now seen) (.sweep true)
        { s with cache := s.cache.sweepNegative (subI64 now gate.policy.cacheTtlSecs) }
        (.authDeny key now none seen)
  | unswept (key : String) (now : Int) (seen : Nat) :
      CallMove gate s (.authSweep key now seen) (.sweep false) s (.authDeny key now none seen)
  | grant (key : String) (now : Int) (customerId benefitId : String) :
      CallMove gate s (.authGrant key now customerId benefitId) (.upsert true)
        (s.store (gate.policy.grantedRow (gate.sha key) now customerId benefitId))
        (if (gate.policy.benefits.lookup benefitId).isSome then .authResolve customerId
          else .done none)
  | deny (key : String) (now : Int) (cached : Option LicenseRow) (seen : Nat) :
      CallMove gate s (.authDeny key now cached seen) (.upsert true)
        (s.store (deniedRow (gate.sha key) now cached)) (.done none)
  | resolve (customerId : String) (userId : Option Int) :
      CallMove gate s (.authResolve customerId) (.resolve userId) s
        (.done (if customerId = "" then none else userId.map (⟨·, customerId⟩)))
  | portal (key : String) (seen : Nat) (activationId : String) :
      CallMove gate s (.activating key seen) (.portal (.activated activationId)) s
        (.activated key activationId seen)
  | activate (key activationId : String) (seen : Nat) :
      CallMove gate s (.activated key activationId seen) (.setActivation true)
        { s with cache := s.cache.setActivation (gate.sha key) (some activationId) } (.done none)
  | deactivated (key activationId : String) :
      CallMove gate s (.releasing key activationId) (.deactivated true) s (.released key activationId)
  | clear (key activationId : String) :
      CallMove gate s (.released key activationId) (.setActivation true) (s.clear (gate.sha key))
        (.done none)
  | quit (t : CallState) (a : CallAct) : CallMove gate s t a s (.done none)

theorem callStep_move {gate : PolarGate} {i : Nat} {s s' : CallStore} {t t' : CallState} {a : CallAct}
    (h : gate.callStep i s t a = some (s', t')) : CallMove gate s t a s' t' := by
  unfold PolarGate.callStep at h
  split at h
  · cases h; exact .authenticate ..
  · cases h; exact .ensureActivated ..
  · cases h; exact .releaseActivation ..
  · cases h; exact .answer ..
  · rename_i ok
    cases ok <;> cases h
    · exact .unswept ..
    · exact .sweep ..
  · rename_i ok
    cases ok <;> cases h
    · exact .quit ..
    · exact .grant ..
  · rename_i ok
    cases ok <;> cases h
    · exact .quit ..
    · exact .deny ..
  · cases h; exact .resolve ..
  · rename_i o
    cases o <;> cases h
    · exact .portal ..
    · exact .quit ..
    · exact .quit ..
  · rename_i ok
    cases ok <;> cases h
    · exact .quit ..
    · exact .activate ..
  · rename_i ok
    cases ok <;> cases h
    · exact .quit ..
    · exact .deactivated ..
  · rename_i ok
    cases ok <;> cases h
    · exact .quit ..
    · exact .clear ..
  · cases h

/-! ## A call that runs alone -/

/-- A single call, started in `t`, can run to `t'`. -/
abbrev PolarGate.Alone (gate : PolarGate) : CallStore → CallState → CallStore → CallState → Prop :=
  Threads.Alone gate.callStep 0

/-- The account step of a call: `resolve_user` answers as in the sequential model. -/
theorem alone_resolve {gate : PolarGate} {s : CallStore} {io : ResolveIo} {db : Db}
    {customerId : String} :
    gate.Alone s (.authResolve customerId) s (.done (resolveUser io db customerId).1) := by
  refine .step (.resolve ((resolveUser io db customerId).1.map (·.userId))) rfl ?_
  cases hu : (resolveUser io db customerId).1 with
  | none => simpa using Alone.stop
  | some user =>
    obtain ⟨rfl, hne⟩ := resolveUser_name hu
    simpa [hne] using Alone.stop

theorem alone_granted {gate : PolarGate} {io : AuthIo} {s : CallStore} (live : Live)
    (domain : String) {key customerId benefitId : String} :
    let res := gate.onGranted io s.cache live domain (gate.sha key) customerId benefitId
    ∃ s', s'.cache = res.cache ∧
      gate.Alone s (.authGrant key io.now customerId benefitId) s' (.done res.user) := by
  intro res
  by_cases hf : io.upsertFails = true
  · refine ⟨s, by simp [res, PolarGate.onGranted, hf], .step (.upsert false) rfl ?_⟩
    simpa [res, PolarGate.onGranted, hf] using Alone.stop
  cases hcap : gate.policy.benefits.lookup benefitId with
  | none =>
    have hres : res.cache = s.cache.upsert
        (gate.policy.grantedRow (gate.sha key) io.now customerId benefitId) ∧ res.user = none := by
      simp [res, PolarGate.onGranted, hf, PolarPolicy.grantedRow, hcap]
    refine ⟨s.store _, hres.1.symm, .step (.upsert true) rfl ?_⟩
    simpa [hres, PolarPolicy.grantedRow, hcap] using Alone.stop
  | some cap =>
    have hres : res.cache = s.cache.upsert
        (gate.policy.grantedRow (gate.sha key) io.now customerId benefitId) ∧
        res.user = (resolveUser io.resolve live.db customerId).1 := by
      simp only [res, PolarGate.onGranted, hf, PolarPolicy.grantedRow, hcap]
      cases resolveUser io.resolve live.db customerId with
      | mk user db => cases user <;> exact ⟨rfl, rfl⟩
    refine ⟨s.store _, hres.1.symm, .step (.upsert true) rfl ?_⟩
    simpa [hres.2, PolarPolicy.grantedRow, hcap] using alone_resolve

theorem alone_notLicensed {gate : PolarGate} {io : AuthIo} {s : CallStore} (live : Live)
    {key : String} {cached : Option LicenseRow} {seen : Nat} :
    let res := gate.onNotLicensed io s.cache live (gate.sha key) cached
    ∃ s', s'.cache = res.cache ∧
      gate.Alone s (gate.onAnswer key io.now cached seen .notLicensed) s' (.done res.user) := by
  intro res
  -- the write-back, from whatever the sweep left
  have hwrite : ∀ m : CallStore,
      ∃ s', s'.cache = (if io.upsertFails then m.cache
          else m.cache.upsert (deniedRow (gate.sha key) io.now cached)) ∧
        gate.Alone m (.authDeny key io.now cached seen) s' (.done none) := by
    intro m
    cases hf : io.upsertFails with
    | true => exact ⟨m, rfl, .step (.upsert false) rfl .stop⟩
    | false => exact ⟨m.store _, rfl, .step (.upsert true) rfl .stop⟩
  cases cached with
  | some row => exact hwrite s
  | none =>
    cases hf : io.sweepFails with
    | true =>
      obtain ⟨s', hc, hrun⟩ := hwrite s
      exact ⟨s', by simp [res, PolarGate.onNotLicensed, hc, hf], .step (.sweep false) rfl hrun⟩
    | false =>
      obtain ⟨s', hc, hrun⟩ := hwrite
        { s with cache := s.cache.sweepNegative (subI64 io.now gate.policy.cacheTtlSecs) }
      exact ⟨s', by simp [res, PolarGate.onNotLicensed, hc, hf], .step (.sweep true) rfl hrun⟩

/-- **`authenticate` is a run of its own steps.** -/
theorem authenticate_alone (gate : PolarGate) (io : AuthIo) (s : CallStore) (live : Live)
    (key : String) : ∃ s', s'.cache = (gate.authenticate io s.cache live key).cache ∧
      gate.Alone s .ready s' (.done (gate.authenticate io s.cache live key).user) := by
  suffices h : ∃ s', s'.cache = (gate.authenticate io s.cache live key).cache ∧
      gate.Alone s (gate.beginAuth s key io.now !io.readFails) s'
        (.done (gate.authenticate io s.cache live key).user) by
    obtain ⟨s', hc, hrest⟩ := h
    exact ⟨s', hc, .step (.authenticate key io.now !io.readFails) rfl hrest⟩
  unfold PolarGate.authenticate PolarGate.beginAuth
  rw [CallStore.read_not]
  by_cases hlocal : isLocalToken key = true
  · simp only [hlocal, if_true, true_or]
    exact ⟨s, rfl, .stop⟩
  cases hdom : gate.domain with
  | none => simpa [hlocal] using ⟨s, rfl, Alone.stop⟩
  | some domain =>
    by_cases hnow : io.now = 0
    · simpa [hlocal, hnow] using ⟨s, rfl, Alone.stop⟩
    simp only [hlocal, hnow, if_false, reduceCtorEq, or_self, Bool.false_eq_true]
    generalize (if io.readFails = true then none else s.cache.get (gate.sha key)) = cached
    cases hfresh : cached.filter (gate.policy.fresh io.now) with
    | some row =>
      by_cases hu : row.usable = true
      · simp only [hu, if_true]
        exact ⟨s, rfl, alone_resolve⟩
      · simp only [hu, if_false, Bool.false_eq_true]
        exact ⟨s, rfl, .stop⟩
    | none =>
      -- past the cache, the call waits for the outcome
      have hask : ∀ {s' t'}, gate.Alone s (gate.onAnswer key io.now cached s.cleared.length io.outcome)
          s' t' → gate.Alone s (.authAsked key io.now cached s.cleared.length) s' t' :=
        fun h => .step (.answer io.outcome) rfl h
      cases hout : io.outcome with
      | granted customerId benefitId =>
        obtain ⟨s', hc, hrun⟩ := alone_granted live domain
        exact ⟨s', hc, hask (by rw [hout]; exact hrun)⟩
      | notLicensed =>
        obtain ⟨s', hc, hrun⟩ := alone_notLicensed live
        exact ⟨s', hc, hask (by rw [hout]; exact hrun)⟩
      | unavailable why =>
        rw [hout] at hask
        simp only [PolarGate.onAnswer] at hask
        cases hhon : cached.filter (gate.policy.honored io.now) with
        | some row =>
          rw [hhon] at hask
          exact ⟨s, rfl, hask alone_resolve⟩
        | none =>
          rw [hhon] at hask
          exact ⟨s, rfl, hask .stop⟩

/-- **`ensure_activated` is a run of its own steps.** -/
theorem ensureActivated_alone (gate : PolarGate) (io : ActivateIo) (s : CallStore) (key : String) :
    ∃ s', s'.cache = (gate.ensureActivated io s.cache key).2 ∧ gate.Alone s .ready s' (.done none) := by
  have hbegin : ∀ {s'}, gate.Alone s (gate.beginActivate s key !io.readFails) s' (.done none) →
      gate.Alone s .ready s' (.done none) :=
    fun h => .step (.ensureActivated key !io.readFails) rfl h
  unfold PolarGate.ensureActivated
  unfold PolarGate.beginActivate at hbegin
  rw [CallStore.read_not] at hbegin
  by_cases hon : gate.policy.activateOnClaim = false
  · rw [if_pos hon] at hbegin ⊢
    exact ⟨s, rfl, hbegin .stop⟩
  rw [if_neg hon] at hbegin ⊢
  dsimp only
  generalize (if io.readFails = true then none else s.cache.get (gate.sha key)).filter grantedOnly =
    cached at hbegin ⊢
  cases cached with
  | none => exact ⟨s, rfl, hbegin .stop⟩
  | some row =>
    dsimp only at hbegin ⊢
    by_cases hid : row.activationId.isSome = true
    · rw [if_pos hid] at hbegin ⊢
      exact ⟨s, rfl, hbegin .stop⟩
    rw [if_neg hid] at hbegin ⊢
    have hask : ∀ {s'}, gate.Alone s (match io.answer with
        | .activated activationId => .activated key activationId s.cleared.length
        | _ => .done none) s' (.done none) → gate.Alone s .ready s' (.done none) :=
      fun h => hbegin (.step (.portal io.answer) rfl h)
    cases hans : io.answer with
    | activated activationId =>
      rw [hans] at hask
      cases hf : io.writeFails with
      | true => exact ⟨s, rfl, hask (.step (.setActivation false) rfl .stop)⟩
      | false =>
        exact ⟨{ s with cache := s.cache.setActivation (gate.sha key) (some activationId) }, rfl,
          hask (.step (.setActivation true) rfl .stop)⟩
    | limitReached =>
      rw [hans] at hask
      exact ⟨s, rfl, hask .stop⟩
    | unavailable why =>
      rw [hans] at hask
      exact ⟨s, rfl, hask .stop⟩

/-- **`release_activation` is a run of its own steps.** -/
theorem releaseActivation_alone (gate : PolarGate) (io : DeactivateIo) (s : CallStore) (key : String) :
    ∃ s', s'.cache = gate.releaseActivation io s.cache key ∧ gate.Alone s .ready s' (.done none) := by
  have hbegin : ∀ {s'}, gate.Alone s (gate.beginRelease s key !io.readFails) s' (.done none) →
      gate.Alone s .ready s' (.done none) :=
    fun h => .step (.releaseActivation key !io.readFails) rfl h
  unfold PolarGate.releaseActivation
  unfold PolarGate.beginRelease at hbegin
  rw [CallStore.read_not] at hbegin
  dsimp only
  generalize (if io.readFails = true then none else s.cache.get (gate.sha key)) = cached at hbegin ⊢
  cases cached with
  | none => exact ⟨s, rfl, hbegin .stop⟩
  | some row =>
    simp only [Option.bind_some] at hbegin
    cases hid : row.activationId with
    | none =>
      rw [hid] at hbegin
      exact ⟨s, by simp [hid], hbegin .stop⟩
    | some activationId =>
      rw [hid] at hbegin
      cases hans : io.answer with
      | error why => exact ⟨s, by simp [hid], hbegin (.step (.deactivated false) rfl .stop)⟩
      | ok u =>
        cases hf : io.writeFails with
        | true =>
          exact ⟨s, by simp [hid],
            hbegin (.step (.deactivated true) rfl (.step (.setActivation false) rfl .stop))⟩
        | false =>
          exact ⟨s.clear (gate.sha key), by simp [hid, CallStore.clear],
            hbegin (.step (.deactivated true) rfl (.step (.setActivation true) rfl .stop))⟩

end EtherTunnel
