import EtherTunnel.Polar.Gate
import Mathlib.Data.Set.Function

/-!
# Bounded fail-open

A run of `authenticate` calls, one after another, from an empty cache. `Run` carries the cache and the
log of everything Polar answered. The invariant `Faithful` ties the two together: a cached row is the
most recent definitive answer for its key, stamped with the clock reading of the call that obtained
it. What a call may return is then read off `AuthEffect`, the one place where `authenticate` is taken
apart.

`sha` is assumed injective on the keys presented in the run, and the sums of clock readings and policy
windows to stay in the i64 range.
-/

namespace EtherTunnel

/-! ## One call -/

/-- The cache operations of the call succeed. -/
def AuthIo.CacheOk (io : AuthIo) : Prop :=
  io.readFails = false ∧ io.sweepFails = false ∧ io.upsertFails = false

/-- What one call of `authenticate` may do to the cache, and on what ground it may return a user. -/
inductive AuthEffect (gate : PolarGate) (io : AuthIo) (cache : LicenseCache) (key : String) :
    Option AuthedUser → Bool → LicenseCache → Prop where
  | inert : AuthEffect gate io cache key none false cache
  | fresh {user : Option AuthedUser} {row : LicenseRow} (hget : cache.get (gate.sha key) = some row)
      (hfresh : gate.policy.fresh io.now row = true) (husable : row.usable = true)
      (hname : ∀ u ∈ user, u.name = row.customerId) :
      AuthEffect gate io cache key user false cache
  | granted {user : Option AuthedUser} {customer benefit : String}
      (hlocal : isLocalToken key = false) (hasked : io.budget = true)
      (hanswer : io.answer = .granted customer benefit)
      (hname : ∀ u ∈ user, u.name = customer ∧ (gate.policy.benefits.lookup benefit).isSome) :
      AuthEffect gate io cache key user true
        (cache.upsert (gate.policy.grantedRow (gate.sha key) io.now customer benefit))
  | denied {cache₁ : LicenseCache} (hlocal : isLocalToken key = false) (hasked : io.budget = true)
      (hanswer : io.answer = .notLicensed)
      (hswept : cache₁ = cache ∨
        cache₁ = cache.sweepNegative (subI64 io.now gate.policy.cacheTtlSecs)) :
      AuthEffect gate io cache key none true
        (cache₁.upsert (deniedRow (gate.sha key) io.now (cache.get (gate.sha key))))
  | unavailable {user : Option AuthedUser} {why : String} (hlocal : isLocalToken key = false)
      (houtcome : io.outcome = .unavailable why)
      (hname : ∀ u ∈ user, ∃ row, cache.get (gate.sha key) = some row ∧
        gate.policy.honored io.now row = true ∧ u.name = row.customerId) :
      AuthEffect gate io cache key user io.budget cache

section effect

variable {gate : PolarGate} {io : AuthIo} {cache : LicenseCache} {live : Live} {key : String}

theorem fromCache_name {asked : Bool} {row : LicenseRow} {u : AuthedUser}
    (h : (PolarGate.fromCache io cache live asked row).user = some u) : u.name = row.customerId :=
  (resolveUser_name h).1

variable (gate cache live) in
theorem onGranted_effect (domain : String) (keyHash : List UInt8) (customer benefit : String)
    (hok : io.CacheOk) :
    let res := gate.onGranted io cache live domain keyHash customer benefit
    res.asked = io.budget ∧
      res.cache = cache.upsert (gate.policy.grantedRow keyHash io.now customer benefit) ∧
      ∀ u ∈ res.user, u.name = customer ∧ (gate.policy.benefits.lookup benefit).isSome := by
  intro res
  simp only [res, PolarGate.onGranted, hok.2.2, Bool.false_eq_true, if_false]
  split
  · exact ⟨rfl, rfl, by simp⟩
  · rename_i cap hcap
    have hmapped : (gate.policy.benefits.lookup benefit).isSome := by
      rw [show gate.policy.benefits.lookup benefit = some cap from hcap]; rfl
    split
    · exact ⟨rfl, rfl, by simp⟩
    · rename_i user db hres
      refine ⟨rfl, rfl, ?_⟩
      rintro u ⟨⟩
      exact ⟨(resolveUser_name (by rw [hres])).1, hmapped⟩

variable (gate cache live key) in
/-- **What a call can do.** -/
theorem authenticate_effect (hok : io.CacheOk) :
    let res := gate.authenticate io cache live key
    AuthEffect gate io cache key res.user res.asked res.cache := by
  intro res
  simp only [res, PolarGate.authenticate, hok.1, Bool.false_eq_true, if_false]
  split
  · exact .inert
  · rename_i hlocal
    have hlocal : isLocalToken key = false := by simpa using hlocal
    split
    · exact .inert
    · rename_i domain _
      split
      · exact .inert
      · split
        · rename_i row hrow
          obtain ⟨hget, hfresh⟩ := Option.filter_eq_some_iff.1 hrow
          split
          · rename_i husable
            exact .fresh hget hfresh husable fun u hu => fromCache_name hu
          · exact .inert
        · split
          · rename_i customer benefit ho
            obtain ⟨hasked, hcache, hname⟩ := onGranted_effect gate cache live domain (gate.sha key)
              customer benefit hok
            unfold AuthIo.outcome at ho
            split at ho
            · rename_i hb
              rw [hasked, hcache, hb]
              exact .granted hlocal hb ho hname
            · cases ho
          · rename_i ho
            unfold AuthIo.outcome at ho
            split at ho
            · rename_i hb
              simp only [PolarGate.onNotLicensed, hok.2.2, Bool.false_eq_true, if_false]
              rw [hb]
              refine .denied hlocal hb ho ?_
              split
              · exact Or.inr rfl
              · exact Or.inl rfl
            · cases ho
          · rename_i why ho
            split
            · rename_i row hrow
              obtain ⟨hget, hhon⟩ := Option.filter_eq_some_iff.1 hrow
              exact .unavailable hlocal ho fun u hu => ⟨row, hget, hhon, fromCache_name hu⟩
            · exact .unavailable hlocal ho (by simp)

end effect

/-! ## Runs -/

/-- One call of `authenticate`, with the registry and router it finds. -/
structure AuthCall where
  key : String
  io : AuthIo
  live : Live

/-- An answer Polar gave, and the clock reading of the call that obtained it. -/
structure Answer where
  key : String
  stamp : Int
  outcome : ValidateOutcome

/-- `Granted` or `NotLicensed`. -/
def Answer.definitive (a : Answer) : Bool :=
  match a.outcome with
  | .unavailable _ => false
  | _ => true

/-- The cache, and everything Polar answered so far. -/
structure Run where
  cache : LicenseCache
  log : List Answer

def Run.call (gate : PolarGate) (run : Run) (c : AuthCall) : Run :=
  let res := gate.authenticate c.io run.cache c.live c.key
  { cache := res.cache
    log := if res.asked then run.log ++ [⟨c.key, c.io.now, c.io.answer⟩] else run.log }

def Run.start : Run := ⟨LicenseCache.empty, []⟩

def Run.calls (gate : PolarGate) (cs : List AuthCall) : Run := cs.foldl (Run.call gate) Run.start

/-- The most recent definitive answer for a key. -/
def lastDefinitive (log : List Answer) (key : String) : Option Answer :=
  (log.filter fun a => a.key == key && a.definitive).getLast?

theorem lastDefinitive_concat (log : List Answer) (a : Answer) (key : String) :
    lastDefinitive (log ++ [a]) key =
      if a.key = key ∧ a.definitive = true then some a else lastDefinitive log key := by
  unfold lastDefinitive
  rw [List.filter_append]
  by_cases h : a.key = key ∧ a.definitive = true
  · simp [h.1, h.2]
  · have hf : (a.key == key && a.definitive) = false := by
      by_cases hk : a.key = key
      · simpa [hk] using fun hd => h ⟨hk, hd⟩
      · simp [hk]
    simp [hf, h]

/-! ## The cache is faithful to the log -/

/-- The row records this answer. -/
structure Records (policy : PolarPolicy) (row : LicenseRow) (a : Answer) : Prop where
  stamp : a.stamp = row.validatedAt
  granted : row.status = .granted → ∃ benefit, a.outcome = .granted row.customerId benefit ∧
    row.maxTunnels = policy.benefits.lookup benefit
  denied : row.status = .notLicensed → a.outcome = .notLicensed

/-- Every cached row of a presented key records the key's last definitive answer; local tokens are
neither cached nor asked about. -/
structure Faithful (gate : PolarGate) (keys : Set String) (times : Set Int) (run : Run) : Prop where
  records : ∀ k ∈ keys, ∀ row, run.cache.get (gate.sha k) = some row →
    ∃ a, lastDefinitive run.log k = some a ∧ Records gate.policy row a
  stored : ∀ k ∈ keys, isLocalToken k = true → run.cache.get (gate.sha k) = none
  asked : ∀ a ∈ run.log, isLocalToken a.key = false
  stamps : ∀ a ∈ run.log, a.stamp ∈ times

section faithful

variable {gate : PolarGate} {keys : Set String} {times : Set Int} {cache : LicenseCache}
  {log : List Answer}

theorem faithful_start : Faithful gate keys times Run.start where
  records := by intro k _ row h; cases h
  stored := by intro k _ _; rfl
  asked := by intro a ha; cases ha
  stamps := by intro a ha; cases ha

/-- Storing the answer of a call for `key` over a cache that lost nothing but negative rows. -/
theorem Faithful.store (hsha : Set.InjOn gate.sha keys) (h : Faithful gate keys times ⟨cache, log⟩)
    {key : String} (hkey : key ∈ keys) (hlocal : isLocalToken key = false) {a : Answer}
    (ha : a.key = key) (ht : a.stamp ∈ times) (hdef : a.definitive = true) {cache₁ : LicenseCache}
    (hsub : ∀ k row, cache₁.get k = some row → cache.get k = some row) {row : LicenseRow}
    (hrow : row.keyHash = gate.sha key)
    (hrec : ∀ old, Records gate.policy (LicenseCache.overwrite row old) a)
    (hrec' : Records gate.policy row a) :
    Faithful gate keys times ⟨cache₁.upsert row, log ++ [a]⟩ where
  records := by
    intro k hk r hr
    rw [LicenseCache.get_upsert] at hr
    rw [lastDefinitive_concat]
    by_cases hkk : gate.sha k = row.keyHash
    · have hke : k = key := hsha hk hkey (hkk.trans hrow)
      rw [if_pos hkk, Option.some.injEq] at hr
      rw [if_pos ⟨ha.trans hke.symm, hdef⟩]
      refine ⟨a, rfl, ?_⟩
      subst hr
      split
      · exact hrec _
      · exact hrec'
    · have hne : ¬ a.key = k := by
        rintro rfl; exact hkk (by rw [hrow, ha])
      rw [if_neg hkk] at hr
      rw [if_neg fun hc => hne hc.1]
      exact h.records k hk r (hsub _ _ hr)
  stored := by
    intro k hk hl
    rw [LicenseCache.get_upsert]
    by_cases hkk : gate.sha k = row.keyHash
    · have hke : k = key := hsha hk hkey (hkk.trans hrow)
      rw [hke, hlocal] at hl; cases hl
    · rw [if_neg hkk]
      cases hg : cache₁.get (gate.sha k) with
      | none => rfl
      | some r =>
        have hn := h.stored k hk hl
        rw [hsub _ _ hg] at hn; cases hn
  asked := by
    intro b hb
    rcases List.mem_append.1 hb with hb | hb
    · exact h.asked b hb
    · rw [List.mem_singleton.1 hb, ha]; exact hlocal
  stamps := by
    intro b hb
    rcases List.mem_append.1 hb with hb | hb
    · exact h.stamps b hb
    · rw [List.mem_singleton.1 hb]; exact ht

/-- An answer that decides nothing leaves the record as it is. -/
theorem Faithful.note (h : Faithful gate keys times ⟨cache, log⟩) {a : Answer} (ht : a.stamp ∈ times)
    (hlocal : isLocalToken a.key = false) (hdef : a.definitive = false) :
    Faithful gate keys times ⟨cache, log ++ [a]⟩ where
  records := by
    intro k hk r hr
    rw [lastDefinitive_concat, if_neg fun hc => by rw [hdef] at hc; cases hc.2]
    exact h.records k hk r hr
  stored := h.stored
  asked := by
    intro b hb
    rcases List.mem_append.1 hb with hb | hb
    · exact h.asked b hb
    · rw [List.mem_singleton.1 hb]; exact hlocal
  stamps := by
    intro b hb
    rcases List.mem_append.1 hb with hb | hb
    · exact h.stamps b hb
    · rw [List.mem_singleton.1 hb]; exact ht

theorem records_grantedRow {keyHash : List UInt8} {now : Int} {key customer benefit : String}
    {row : LicenseRow} (hrow : ∃ act, row = { gate.policy.grantedRow keyHash now customer benefit with
      activationId := act }) :
    Records gate.policy row ⟨key, now, .granted customer benefit⟩ := by
  obtain ⟨act, rfl⟩ := hrow
  exact ⟨rfl, fun _ => ⟨benefit, rfl, rfl⟩, by simp [PolarPolicy.grantedRow]⟩

theorem deniedRow_keyHash {keyHash : List UInt8} {now : Int} {cached : Option LicenseRow}
    (h : ∀ r ∈ cached, r.keyHash = keyHash) : (deniedRow keyHash now cached).keyHash = keyHash := by
  cases cached with
  | none => rfl
  | some r => exact h r rfl

theorem records_deniedRow {keyHash : List UInt8} {now : Int} {key : String}
    {cached : Option LicenseRow} {row : LicenseRow} (hrow : ∃ act, row = { deniedRow keyHash now cached
      with activationId := act }) : Records gate.policy row ⟨key, now, .notLicensed⟩ := by
  obtain ⟨act, rfl⟩ := hrow
  exact ⟨rfl, by simp [deniedRow], fun _ => rfl⟩

/-- **One call keeps the cache faithful.** -/
theorem Faithful.call (hsha : Set.InjOn gate.sha keys) {run : Run} (h : Faithful gate keys times run)
    {c : AuthCall} (hkey : c.key ∈ keys) (ht : c.io.now ∈ times) (hok : c.io.CacheOk) :
    Faithful gate keys times (run.call gate c) := by
  have heff := authenticate_effect gate run.cache c.live c.key hok
  unfold Run.call
  generalize gate.authenticate c.io run.cache c.live c.key = res at heff
  obtain ⟨user, asked, cache', live', notices⟩ := res
  dsimp only at heff ⊢
  cases heff with
  | inert => exact h
  | fresh => exact h
  | granted hlocal _ hanswer _ =>
    rw [if_pos rfl, hanswer]
    exact h.store hsha hkey hlocal rfl ht rfl (fun _ _ hr => hr) rfl
      (fun old => records_grantedRow ⟨_, rfl⟩) (records_grantedRow ⟨none, rfl⟩)
  | denied hlocal _ hanswer hswept =>
    rw [if_pos rfl, hanswer]
    refine h.store hsha hkey hlocal rfl ht rfl ?_
      (deniedRow_keyHash fun r hr => LicenseCache.keyHash_of_get hr)
      (fun old => records_deniedRow ⟨_, rfl⟩) (records_deniedRow ⟨_, rfl⟩)
    rcases hswept with rfl | rfl
    · exact fun _ _ hr => hr
    · exact fun _ _ hr => (LicenseCache.get_sweepNegative.1 hr).1
  | unavailable hlocal houtcome _ =>
    split
    · rename_i hb
      refine h.note ht hlocal ?_
      unfold AuthIo.outcome at houtcome
      rw [if_pos hb] at houtcome
      simp [Answer.definitive, houtcome]
    · exact h

/-- **Every run keeps the cache faithful.** -/
theorem faithful_calls (hsha : Set.InjOn gate.sha keys) {cs : List AuthCall}
    (hkeys : ∀ c ∈ cs, c.key ∈ keys) (ht : ∀ c ∈ cs, c.io.now ∈ times)
    (hok : ∀ c ∈ cs, c.io.CacheOk) : Faithful gate keys times (Run.calls gate cs) := by
  suffices ∀ run, Faithful gate keys times run → Faithful gate keys times (cs.foldl (Run.call gate) run) from
    this _ faithful_start
  induction cs with
  | nil => exact fun _ h => h
  | cons c cs ih =>
    intro run h
    exact ih (fun c' hc' => hkeys c' (List.mem_cons_of_mem _ hc'))
      (fun c' hc' => ht c' (List.mem_cons_of_mem _ hc'))
      (fun c' hc' => hok c' (List.mem_cons_of_mem _ hc')) _
      (h.call hsha (hkeys c List.mem_cons_self) (ht c List.mem_cons_self) (hok c List.mem_cons_self))

end faithful

/-! ## What a returned user rests on -/

theorem mem_of_lastDefinitive {log : List Answer} {key : String} {a : Answer}
    (h : lastDefinitive log key = some a) : a ∈ log :=
  List.mem_of_mem_filter (List.mem_of_getLast? h)

/-- The clock reading plus either window of the policy stays an i64. -/
def PolarPolicy.InRange (policy : PolarPolicy) (t : Int) : Prop :=
  (-2 ^ 63 ≤ t + policy.cacheTtlSecs ∧ t + policy.cacheTtlSecs < 2 ^ 63) ∧
    (-2 ^ 63 ≤ t + policy.stalenessSecs ∧ t + policy.stalenessSecs < 2 ^ 63)

/-- The ground on which a call at `t` may act on an answer recorded at `t0`. -/
def PolarPolicy.Honors (policy : PolarPolicy) (io : AuthIo) (t0 : Int) : Prop :=
  t0 = io.now ∨ (t0 ≤ io.now ∧ io.now ≤ t0 + policy.cacheTtlSecs) ∨
    (t0 ≤ io.now ∧ io.now ≤ t0 + policy.stalenessSecs ∧ ∃ why, io.outcome = .unavailable why)

/-- The user a call returns, given a cache that was faithful before it. -/
theorem Faithful.returns {gate : PolarGate} {keys : Set String} {times : Set Int} {run : Run}
    (h : Faithful gate keys times run) {c : AuthCall} (hkey : c.key ∈ keys)
    (hrange : ∀ t ∈ times, gate.policy.InRange t) (hok : c.io.CacheOk) {user : AuthedUser}
    (huser : (gate.authenticate c.io run.cache c.live c.key).user = some user) :
    ∃ a benefit, lastDefinitive (run.call gate c).log c.key = some a ∧
      a.outcome = .granted user.name benefit ∧ (gate.policy.benefits.lookup benefit).isSome ∧
      gate.policy.Honors c.io a.stamp := by
  have heff := authenticate_effect gate run.cache c.live c.key hok
  unfold Run.call
  generalize gate.authenticate c.io run.cache c.live c.key = res at heff huser
  obtain ⟨ru, asked, cache', live', notices⟩ := res
  dsimp only at heff huser ⊢
  subst huser
  -- a usable cached row, and the last definitive answer it records
  have hcached : ∀ row, run.cache.get (gate.sha c.key) = some row → row.usable = true →
      ∃ a benefit, lastDefinitive run.log c.key = some a ∧
        a.outcome = .granted row.customerId benefit ∧
        (gate.policy.benefits.lookup benefit).isSome ∧ a.stamp = row.validatedAt ∧
        gate.policy.InRange row.validatedAt := by
    intro row hget husable
    obtain ⟨a, ha, hrec⟩ := h.records c.key hkey row hget
    simp only [LicenseRow.usable, Bool.and_eq_true, beq_iff_eq] at husable
    obtain ⟨benefit, hout, hcap⟩ := hrec.granted husable.1
    refine ⟨a, benefit, ha, hout, hcap ▸ husable.2, hrec.stamp, ?_⟩
    exact hrec.stamp ▸ hrange _ (h.stamps a (mem_of_lastDefinitive ha))
  cases heff with
  | fresh hget hfresh husable hname =>
    obtain ⟨a, benefit, ha, hout, hmap, hst, hr⟩ := hcached _ hget husable
    simp only [PolarPolicy.fresh, Bool.and_eq_true, decide_eq_true_eq, addI64_eq hr.1] at hfresh
    refine ⟨a, benefit, ha, ?_, hmap, Or.inr (Or.inl ?_)⟩
    · rw [hname user rfl]; exact hout
    · rw [hst]; exact hfresh
  | granted hlocal hasked hanswer hname =>
    obtain ⟨rfl, hmap⟩ := hname user rfl
    rw [if_pos rfl, lastDefinitive_concat, hanswer, if_pos ⟨rfl, rfl⟩]
    exact ⟨_, _, rfl, rfl, hmap, Or.inl rfl⟩
  | unavailable hlocal houtcome hname =>
    rename_i why
    obtain ⟨row, hget, hhon, hn⟩ := hname user rfl
    simp only [PolarPolicy.honored, Bool.and_eq_true, decide_eq_true_eq] at hhon
    obtain ⟨a, benefit, ha, hout, hmap, hst, hr⟩ := hcached row hget hhon.1.1
    rw [addI64_eq hr.2] at hhon
    refine ⟨a, benefit, ?_, by rw [hn]; exact hout, hmap, Or.inr (Or.inr ?_)⟩
    · split
      · rename_i hb
        rw [AuthIo.outcome, if_pos hb] at houtcome
        rw [lastDefinitive_concat, houtcome, if_neg (by simp [Answer.definitive])]
        exact ha
      · exact ha
    · rw [hst]
      exact ⟨hhon.1.2, hhon.2, why, houtcome⟩

/-- **Bounded fail-open.** After any sequence of calls from an empty cache, a call that returns a user
rests on the most recent definitive answer for its key: a grant to the customer of that name, with a
mapped benefit, obtained by this call, or within the TTL, or within the staleness window while Polar
did not answer. No local token is ever sent to Polar or stored. -/
theorem authenticate_bounded_fail_open (gate : PolarGate) (calls : List AuthCall) (call : AuthCall)
    (hsha : Set.InjOn gate.sha {k | ∃ c ∈ calls ++ [call], c.key = k})
    (hok : ∀ c ∈ calls ++ [call], c.io.CacheOk)
    (hrange : ∀ c ∈ calls ++ [call], gate.policy.InRange c.io.now) :
    let before := Run.calls gate calls
    let after := Run.calls gate (calls ++ [call])
    (∀ user, (gate.authenticate call.io before.cache call.live call.key).user = some user →
      ∃ a benefit, lastDefinitive after.log call.key = some a ∧
        a.outcome = .granted user.name benefit ∧ (gate.policy.benefits.lookup benefit).isSome ∧
        (a.stamp = call.io.now ∨
          (a.stamp ≤ call.io.now ∧ call.io.now ≤ a.stamp + gate.policy.cacheTtlSecs) ∨
          (a.stamp ≤ call.io.now ∧ call.io.now ≤ a.stamp + gate.policy.stalenessSecs ∧
            ∃ why, call.io.outcome = .unavailable why))) ∧
    (∀ a ∈ after.log, isLocalToken a.key = false) ∧
    (∀ c ∈ calls ++ [call], isLocalToken c.key = true → after.cache.get (gate.sha c.key) = none) := by
  intro before after
  have hkeys : ∀ c ∈ calls ++ [call], c.key ∈ {k | ∃ c ∈ calls ++ [call], c.key = k} :=
    fun c hc => ⟨c, hc, rfl⟩
  have htimes : ∀ c ∈ calls ++ [call], c.io.now ∈ {t | ∃ c ∈ calls ++ [call], c.io.now = t} :=
    fun c hc => ⟨c, hc, rfl⟩
  have hsub : ∀ c ∈ calls, c ∈ calls ++ [call] := fun c hc => List.mem_append_left _ hc
  have hlast : call ∈ calls ++ [call] := by simp
  have hbefore := faithful_calls hsha (fun c hc => hkeys c (hsub c hc))
    (fun c hc => htimes c (hsub c hc)) (fun c hc => hok c (hsub c hc))
  have hafter := faithful_calls hsha hkeys htimes hok
  have hstep : after = before.call gate call := by
    simp only [after, before, Run.calls, List.foldl_append, List.foldl_cons, List.foldl_nil]
  refine ⟨fun user huser => ?_, hafter.asked, fun c hc hl => hafter.stored c.key (hkeys c hc) hl⟩
  rw [hstep]
  exact hbefore.returns (hkeys call hlast) (by rintro t ⟨c, hc, rfl⟩; exact hrange c hc)
    (hok call hlast) huser

def grantCall : AuthCall :=
  ⟨"key", { now := 500, answer := .granted "ann" "solo" }, ⟨Db.empty, Router.empty⟩⟩

def outageCall : AuthCall :=
  ⟨"key", { now := 590, answer := .unavailable "503" }, ⟨Db.empty, Router.empty⟩⟩

/-- An outage 90 s after the grant: past the TTL, within the staleness window. -/
theorem authenticate_bounded_fail_open_outage :
    (soloGate.authenticate outageCall.io (Run.calls soloGate [grantCall]).cache outageCall.live
      "key").user = some ⟨1, "ann"⟩ ∧
    ∃ a benefit, lastDefinitive (Run.calls soloGate [grantCall, outageCall]).log "key" = some a ∧
      a.outcome = .granted "ann" benefit := by
  have huser : (soloGate.authenticate outageCall.io (Run.calls soloGate [grantCall]).cache
      outageCall.live "key").user = some ⟨1, "ann"⟩ := by decide
  have h := authenticate_bounded_fail_open soloGate [grantCall] outageCall
    (by
      rintro k ⟨c, hc, rfl⟩ k' ⟨c', hc', rfl⟩ _
      have hkey : ∀ c ∈ [grantCall] ++ [outageCall], c.key = "key" := by decide
      rw [hkey c hc, hkey c' hc'])
    (by unfold AuthIo.CacheOk; decide) (by unfold PolarPolicy.InRange; decide)
  obtain ⟨a, benefit, ha, hout, -⟩ := h.1 _ huser
  exact ⟨huser, a, benefit, ha, hout⟩

end EtherTunnel
