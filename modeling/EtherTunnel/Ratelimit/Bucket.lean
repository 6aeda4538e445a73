import EtherTunnel.Frames
import EtherTunnel.Lib.Lts
import EtherTunnel.Lib.Map
import EtherTunnel.Lib.TokenBucket
import Mathlib.Data.Rat.Cast.Order

/-!
# Accepts per source

| here | there |
| --- | --- |
| `Bucket`, `RateLimiter`, `new` | `ratelimit.rs:31-54` |
| `RateLimiter.retain` | the two `retain` calls (`:67-71`, `:92-96`) |
| `RateLimiter.useBucket` | `check_at` from `entry` on (`:74-88`) |
| `RateLimiter.checkAt`, `sweep` | `check_at` (`:62`), `sweep` (`:92`) |

An `Instant` is a number of nanoseconds, a token amount a rational. A call carries the time it read.

A bucket is dropped when it would be full, and a new one is full. `RateLimiter.level` does not see the
difference, so `log_eq` follows: the limiter answers as `TokenBucket.Keyed`, which keeps every bucket.
-/

namespace EtherTunnel

/-! ## The limiter -/

abbrev Bucket := TokenBucket ℚ

structure RateLimiter where
  rate : ℚ
  burst : ℚ
  buckets : Map IpAddr Bucket
  maxEntries : Nat

/-- `Duration::as_secs_f64`. -/
def asSecs (nanos : Nat) : ℚ := nanos / 1000000000

namespace RateLimiter

def new (ratePerSec burst : UInt32) : RateLimiter where
  rate := ratePerSec.toNat
  burst := burst.toNat
  buckets := ∅
  maxEntries := 65536

variable (limiter : RateLimiter)

def refilled (b : Bucket) (now : Nat) : ℚ := b.tokens + asSecs (now - b.last) * limiter.rate

def retain (now : Nat) : RateLimiter :=
  { limiter with buckets := limiter.buckets.retain fun _ b => decide (limiter.refilled b now < limiter.burst) }

def useBucket (ip : IpAddr) (now : Nat) : Bool × RateLimiter :=
  let bucket := (limiter.buckets.lookup ip).getD ⟨limiter.burst, now⟩
  let tokens := min (limiter.refilled bucket now) limiter.burst
  if 1 ≤ tokens then (true, { limiter with buckets := limiter.buckets.insert ip ⟨tokens - 1, now⟩ })
  else (false, { limiter with buckets := limiter.buckets.insert ip ⟨tokens, now⟩ })

def checkAt (ip : IpAddr) (now : Nat) : Bool × RateLimiter :=
  if limiter.maxEntries ≤ limiter.buckets.keys.card then (limiter.retain now).useBucket ip now
  else limiter.useBucket ip now

def sweep (now : Nat) : RateLimiter := limiter.retain now

end RateLimiter

inductive LimiterCall where
  | check (ip : IpAddr) (now : Nat)
  | sweep (now : Nat)

namespace LimiterCall

def time : LimiterCall → Nat
  | .check _ now => now
  | .sweep now => now

/-- The request that a limiter without housekeeping sees. -/
def request : LimiterCall → Option (IpAddr × Nat)
  | .check ip now => some (ip, now)
  | .sweep _ => none

end LimiterCall

namespace RateLimiter

def step (limiter : RateLimiter) : LimiterCall → Option RateLimiter
  | .check ip now => some (limiter.checkAt ip now).2
  | .sweep now => some (limiter.sweep now)

/-- The checks of a sequence of calls, with their answers. -/
def log : RateLimiter → List LimiterCall → List (IpAddr × Nat × Bool)
  | _, [] => []
  | limiter, .check ip now :: rest =>
    (ip, now, (limiter.checkAt ip now).1) :: log (limiter.checkAt ip now).2 rest
  | limiter, .sweep now :: rest => log (limiter.sweep now) rest

/-! ## Levels -/

variable {limiter : RateLimiter} {ip ip' : IpAddr} {now t : Nat}

/-- The tokens gained in a nanosecond. -/
def perTick (limiter : RateLimiter) : ℚ := limiter.rate / 1000000000

/-- What a key has at a time, whether its bucket is stored or not. -/
def level (limiter : RateLimiter) (ip : IpAddr) (now : Nat) : ℚ :=
  TokenBucket.level limiter.perTick limiter.burst ((limiter.buckets.lookup ip).getD ⟨limiter.burst, now⟩) now

theorem refilled_eq (b : Bucket) (now : Nat) :
    limiter.refilled b now = b.tokens + ((now - b.last : ℕ) : ℚ) * limiter.perTick := by
  rw [refilled, asSecs, perTick]
  ring

/-- What is dropped is full, and stays full. -/
theorem level_retain (hrate : 0 ≤ limiter.rate) (h : now ≤ t) :
    (limiter.retain now).level ip t = limiter.level ip t := by
  have htick : 0 ≤ limiter.perTick := div_nonneg hrate (by norm_num)
  have hnew : TokenBucket.level limiter.perTick limiter.burst ⟨limiter.burst, t⟩ t = limiter.burst :=
    TokenBucket.level_new
  have hlookup : (limiter.retain now).buckets.lookup ip = (limiter.buckets.lookup ip).filter
      fun b => decide (limiter.refilled b now < limiter.burst) := Map.lookup_retain
  unfold level
  rw [hlookup]
  cases hb : limiter.buckets.lookup ip with
  | none => rfl
  | some b =>
    by_cases hfull : limiter.refilled b now < limiter.burst
    · rw [Option.filter_some, if_pos (decide_eq_true hfull)]
      rfl
    · rw [Option.filter_some, if_neg fun hlt => hfull (of_decide_eq_true hlt), Option.getD_none,
        Option.getD_some]
      rw [not_lt, refilled_eq] at hfull
      exact hnew.trans (TokenBucket.level_eq_burst htick hfull h).symm

/-- The second half of a check asks the key's level for a token and stores what is left. -/
theorem useBucket_eq : limiter.useBucket ip now =
    ((TokenBucket.spend (limiter.level ip now) now).1, { limiter with
      buckets := limiter.buckets.insert ip (TokenBucket.spend (limiter.level ip now) now).2 }) := by
  have hlevel : min (limiter.refilled ((limiter.buckets.lookup ip).getD ⟨limiter.burst, now⟩) now)
      limiter.burst = limiter.level ip now := by
    rw [refilled_eq]
    rfl
  unfold useBucket TokenBucket.spend
  simp only [hlevel]
  split <;> rfl

theorem level_useBucket : (limiter.useBucket ip now).2.level ip' t =
    if ip' = ip then
      (TokenBucket.spend (limiter.level ip now) now).2.level limiter.perTick limiter.burst t
    else limiter.level ip' t := by
  rw [useBucket_eq, level]
  dsimp only
  rw [Map.lookup_insert_ite]
  split <;> rfl

/-- A check purges or does not, and then asks. -/
theorem checkAt_cases (limiter : RateLimiter) (ip : IpAddr) (now : Nat) :
    ∃ limiter' : RateLimiter, limiter.checkAt ip now = limiter'.useBucket ip now ∧
    (limiter' = limiter ∨ limiter' = limiter.retain now) := by
  unfold checkAt
  split
  · exact ⟨_, rfl, .inr rfl⟩
  · exact ⟨_, rfl, .inl rfl⟩

/-! ## Against a limiter that keeps every bucket -/

/-- The same level for every key, at the time `start` and later. -/
structure SameFrom (start : Nat) (rate burst : ℚ) (limiter : RateLimiter)
    (m : TokenBucket.Keyed IpAddr ℚ) : Prop where
  perTick_eq : limiter.perTick = rate
  burst_eq : limiter.burst = burst
  level_eq : ∀ ip t, start ≤ t → limiter.level ip t = m.level rate burst ip t

variable {start : Nat} {rate burst : ℚ} {m : TokenBucket.Keyed IpAddr ℚ}

theorem SameFrom.later (h : SameFrom start rate burst limiter m) (hnow : start ≤ now) :
    SameFrom now rate burst limiter m :=
  ⟨h.perTick_eq, h.burst_eq, fun ip t ht => h.level_eq ip t (hnow.trans ht)⟩

theorem SameFrom.retain (h : SameFrom start rate burst limiter m) (hrate : 0 ≤ rate) (hnow : start ≤ now) :
    SameFrom now rate burst (limiter.retain now) m := by
  refine ⟨h.perTick_eq, h.burst_eq, fun ip t ht => ?_⟩
  have hnonneg : 0 ≤ limiter.rate := by
    have hmul : limiter.rate = rate * 1000000000 := by
      rw [← h.perTick_eq, perTick]
      ring
    rw [hmul]
    exact mul_nonneg hrate (by norm_num)
  rw [level_retain hnonneg ht, h.level_eq ip t (hnow.trans ht)]

theorem SameFrom.useBucket (h : SameFrom now rate burst limiter m) :
    (limiter.useBucket ip now).1 = (m.check rate burst ip now).1 ∧
      SameFrom now rate burst (limiter.useBucket ip now).2 (m.check rate burst ip now).2 := by
  have hnow : limiter.level ip now = m.level rate burst ip now := h.level_eq ip now le_rfl
  refine ⟨?_, ?_, ?_, fun ip' t ht => ?_⟩
  · rw [useBucket_eq, hnow]
    rfl
  · rw [useBucket_eq]
    exact h.perTick_eq
  · rw [useBucket_eq]
    exact h.burst_eq
  · rw [level_useBucket, TokenBucket.Keyed.level_check, h.perTick_eq, h.burst_eq, hnow, h.level_eq ip' t ht]

/-- One check: the same answer, and the same levels after it. -/
theorem SameFrom.checkAt (h : SameFrom start rate burst limiter m) (hrate : 0 ≤ rate) (hnow : start ≤ now)
    (ip : IpAddr) : (limiter.checkAt ip now).1 = (m.check rate burst ip now).1 ∧
      SameFrom now rate burst (limiter.checkAt ip now).2 (m.check rate burst ip now).2 := by
  obtain ⟨limiter', heq, rfl | rfl⟩ := checkAt_cases limiter ip now
  · rw [heq]
    exact (h.later hnow).useBucket
  · rw [heq]
    exact (h.retain hrate hnow).useBucket

/-- A run: the same answers, whatever was swept and purged on the way. -/
theorem SameFrom.log_eq (hrate : 0 ≤ rate) : ∀ {calls : List LimiterCall} {start : Nat}
    {limiter : RateLimiter} {m : TokenBucket.Keyed IpAddr ℚ}, SameFrom start rate burst limiter m →
    calls.Pairwise (fun a b => a.time ≤ b.time) → (∀ c ∈ calls, start ≤ c.time) →
    limiter.log calls = TokenBucket.Keyed.log rate burst m (calls.filterMap LimiterCall.request)
  | [], _, _, _, _, _, _ => rfl
  | .check ip now :: rest, start, limiter, m, h, hsorted, hstart => by
    obtain ⟨hhead, hsorted⟩ := List.pairwise_cons.1 hsorted
    have hnow : start ≤ now := hstart _ List.mem_cons_self
    obtain ⟨hanswer, hafter⟩ := h.checkAt hrate hnow ip
    rw [log, SameFrom.log_eq hrate hafter hsorted hhead, hanswer]
    rfl
  | .sweep now :: rest, start, limiter, m, h, hsorted, hstart => by
    obtain ⟨hhead, hsorted⟩ := List.pairwise_cons.1 hsorted
    have hnow : start ≤ now := hstart _ List.mem_cons_self
    rw [log, sweep, SameFrom.log_eq hrate (h.retain hrate hnow) hsorted hhead]
    rfl

theorem sameFrom_new (rate burst : UInt32) :
    SameFrom 0 (rate.toNat / 1000000000) burst.toNat (new rate burst) fun _ => none :=
  ⟨rfl, rfl, fun _ _ _ => rfl⟩

theorem pairwise_requests {calls : List LimiterCall} (h : calls.Pairwise fun a b => a.time ≤ b.time) :
    (calls.filterMap LimiterCall.request).Pairwise fun a b => a.2 ≤ b.2 := by
  rw [List.pairwise_filterMap]
  refine h.imp fun {a b} hle p hp q hq => ?_
  cases a with
  | sweep => cases hp
  | check ip now =>
    cases b with
    | sweep => cases hq
    | check ip' now' =>
      cases hp
      cases hq
      exact hle

end RateLimiter

/-- **Bucket eviction is invisible.** For calls in the order of time, sweeps and purges included, every
check is answered as by a limiter that keeps a bucket for every key; so no key is admitted more than
`burst + rate * (t - s)` times from `s` to `t`. -/
theorem eviction_invisible (rate burst : UInt32) (calls : List LimiterCall)
    (hsorted : calls.Pairwise fun a b => a.time ≤ b.time) :
    (RateLimiter.new rate burst).log calls =
      TokenBucket.Keyed.log (rate.toNat / 1000000000 : ℚ) burst.toNat (fun _ => none)
        (calls.filterMap LimiterCall.request) ∧
    ∀ (ip : IpAddr) (s t : Nat), s ≤ t →
      ((((RateLimiter.new rate burst).log calls).countP fun e =>
          e.1 = ip ∧ s ≤ e.2.1 ∧ e.2.1 ≤ t ∧ e.2.2 : ℕ) : ℚ) ≤
        burst.toNat + rate.toNat * asSecs (t - s) := by
  have hrate : (0 : ℚ) ≤ rate.toNat / 1000000000 := div_nonneg (Nat.cast_nonneg _) (by norm_num)
  have hlog := (RateLimiter.sameFrom_new rate burst).log_eq hrate hsorted fun _ _ => Nat.zero_le _
  refine ⟨hlog, fun ip s t hst => ?_⟩
  rw [hlog]
  have hbound := TokenBucket.Keyed.admitted_le hrate (Nat.cast_nonneg burst.toNat)
    (m := fun _ => none) (k := ip) nofun (RateLimiter.pairwise_requests hsorted) hst
  refine hbound.trans_eq ?_
  rw [asSecs]
  ring

/-- Two checks at once, a sweep, and one a second later. -/
theorem eviction_invisible_swept :
    (((RateLimiter.new 1 1).log [.check (.v4 #v[10, 0, 0, 1]) 0, .check (.v4 #v[10, 0, 0, 1]) 0,
        .sweep 500000000, .check (.v4 #v[10, 0, 0, 1]) 1000000000]).countP fun e =>
      e.1 = .v4 #v[10, 0, 0, 1] ∧ 0 ≤ e.2.1 ∧ e.2.1 ≤ 1000000000 ∧ e.2.2 : ℕ) ≤
      ((1 : UInt32).toNat + (1 : UInt32).toNat * asSecs (1000000000 - 0) : ℚ) :=
  (eviction_invisible 1 1 _ (by decide)).2 _ 0 1000000000 (by decide)

end EtherTunnel
