import EtherTunnel.Frames
import EtherTunnel.Lib.Map
import EtherTunnel.Lib.Threads
import Mathlib.Tactic.Common

/-!
# Concurrent connections per source

`ConnLimiter` (`ratelimit.rs:100-160`) bounds live connections twice: a semaphore for the process and a
map of counts per source key. The two are taken in one order and given back in the other, and a refusal
gives back half of what was taken.

| here | there |
| --- | --- |
| `limiterKey` | `limiter_key` (`:18`) |
| `ConnLimiter.new` | `ConnLimiter::new` (`:112`); `free` counts the semaphore's permits |
| `ConnLimiter.tryAcquire` | `try_acquire_owned` (`:128`) |
| `ConnLimiter.bump` | the critical section of `try_admit` (`:130-141`) |
| `ConnLimiter.decrement` | `ConnPermit::drop` (`:153-160`), before the slot in `_global` goes |
| `ConnLimiter.giveBack` | the drop of an `OwnedSemaphorePermit` |

A thread is one call of `try_admit` with the permit it may return. `Balanced` ties both counters to the
threads: every slot not free is held, and the map counts, per key, the permits not yet decremented.
-/

namespace EtherTunnel

open Threads

/-! ## The limiter -/

/-- IPv6 is masked to its /64, IPv4 used whole. -/
def limiterKey : IpAddr → IpAddr
  | .v4 octets => .v4 octets
  | .v6 octets => .v6 (Vector.ofFn fun i => if i.val < 8 then octets.get i else 0)

/-- `Semaphore::MAX_PERMITS`. -/
def maxPermits : Nat := (2 ^ 64 - 1) / 8

structure ConnLimiter where
  free : Nat
  perKey : Map IpAddr UInt32
  perKeyMax : UInt32

/-- A permit; `source` is the address it was given for, of which it keeps the key. -/
structure ConnPermit where
  source : IpAddr
  key : IpAddr
  key_eq : key = limiterKey source
deriving DecidableEq

namespace ConnLimiter

def new (globalMax : Nat) (perKeyMax : UInt32) : ConnLimiter where
  free := max 1 (min globalMax maxPermits)
  perKey := ∅
  perKeyMax := max perKeyMax 1

variable (limiter : ConnLimiter)

def tryAcquire : Option ConnLimiter :=
  if limiter.free = 0 then none else some { limiter with free := limiter.free - 1 }

def giveBack : ConnLimiter := { limiter with free := limiter.free + 1 }

def bump (ip : IpAddr) : Option ConnPermit × ConnLimiter :=
  let key := limiterKey ip
  -- `entry(key).or_insert(0)`: a missing count is there from here on
  let count := (limiter.perKey.lookup key).getD 0
  if limiter.perKeyMax ≤ count then
    (none, { limiter with perKey := limiter.perKey.insert key count })
  else
    (some ⟨ip, key, rfl⟩, { limiter with perKey := limiter.perKey.insert key (count + 1) })

def decrement (key : IpAddr) : ConnLimiter :=
  match limiter.perKey.lookup key with
  | none => limiter
  | some count =>
    let count := count - 1
    { limiter with
      perKey := if count = 0 then limiter.perKey.erase key else limiter.perKey.insert key count }

end ConnLimiter

/-! ## Calls and permits -/

/-- Where a call of `try_admit`, or the permit it returned, stands. -/
inductive Conn where
  | idle
  | acquired (ip : IpAddr)
  | refused
  | live (permit : ConnPermit)
  | decremented
  | over
deriving DecidableEq

inductive ConnAct where
  | tryAcquire (ip : IpAddr)
  | bump
  | drop
  | giveBack
deriving DecidableEq

/-- One elementary step of one call. -/
def Conn.step (limiter : ConnLimiter) : Conn → ConnAct → Option (ConnLimiter × Conn)
  | .idle, .tryAcquire ip =>
    match limiter.tryAcquire with
    | none => some (limiter, .over)
    | some limiter => some (limiter, .acquired ip)
  | .acquired ip, .bump =>
    match limiter.bump ip with
    | (some permit, limiter) => some (limiter, .live permit)
    | (none, limiter) => some (limiter, .refused)
  | .live permit, .drop => some (limiter.decrement permit.key, .decremented)
  | .refused, .giveBack | .decremented, .giveBack => some (limiter.giveBack, .over)
  | _, _ => none

abbrev LimiterSys := Sys ConnLimiter Conn

/-- Any number of calls, interleaved. -/
def limiterStep : LimiterSys → Act ConnAct Empty → Option LimiterSys :=
  Threads.step .idle (fun _ limiter conn act => conn.step limiter act) fun _ e => nomatch e

def LimiterSys.start (globalMax : Nat) (perKeyMax : UInt32) : LimiterSys :=
  ⟨ConnLimiter.new globalMax perKeyMax, []⟩

namespace Conn

def isLive : Conn → Bool
  | .live _ => true
  | _ => false

/-- A live permit for an address with the same key. -/
def isLiveLike (ip : IpAddr) : Conn → Bool
  | .live permit => limiterKey permit.source == limiterKey ip
  | _ => false

/-- A permit whose key is not yet decremented. -/
def counts (key : IpAddr) : Conn → Bool
  | .live permit => permit.key == key
  | _ => false

/-- A slot of the semaphore is held. -/
def holds : Conn → Bool
  | .idle | .over => false
  | _ => true

end Conn

/-! ## Balance -/

/-- The count of a key, `0` when it has no entry. -/
def ConnLimiter.count (limiter : ConnLimiter) (key : IpAddr) : Nat :=
  ((limiter.perKey.lookup key).getD 0).toNat

structure Balanced (slots : Nat) (perKeyMax : UInt32) (S : LimiterSys) : Prop where
  max_eq : S.shared.perKeyMax = perKeyMax
  slots : S.shared.free + S.threads.countP Conn.holds = slots
  nonzero : ∀ key, S.shared.perKey.lookup key ≠ some 0
  counts : ∀ key, S.threads.countP (Conn.counts key) = S.shared.count key
  bounded : ∀ key, S.shared.count key ≤ perKeyMax.toNat

section moves

variable {limiter limiter' : ConnLimiter} {conn conn' : Conn}

/-- What a step does to the counters, against what it does to its thread. -/
structure ConnMove (limiter limiter' : ConnLimiter) (conn conn' : Conn) : Prop where
  max_eq : limiter'.perKeyMax = limiter.perKeyMax
  free : limiter'.free + (if conn'.holds then 1 else 0) = limiter.free + if conn.holds then 1 else 0
  nonzero : ∀ key, limiter'.perKey.lookup key ≠ some 0
  counts : ∀ key, limiter'.count key + (if conn.counts key then 1 else 0) =
    limiter.count key + if conn'.counts key then 1 else 0
  bounded : ∀ key, limiter'.count key ≤ limiter.count key ∨ limiter'.count key ≤ limiter.perKeyMax.toNat

theorem count_insert {key key' : IpAddr} {n : UInt32} :
    ConnLimiter.count { limiter with perKey := limiter.perKey.insert key n } key' =
      if key' = key then n.toNat else limiter.count key' := by
  simp only [ConnLimiter.count, Map.lookup_insert_ite]
  split <;> rfl

theorem count_erase {key key' : IpAddr} :
    ConnLimiter.count { limiter with perKey := limiter.perKey.erase key } key' =
      if key' = key then 0 else limiter.count key' := by
  simp only [ConnLimiter.count, Map.lookup_erase_ite]
  split <;> rfl

/-- Only the semaphore moves. -/
theorem move_slot (h0 : ∀ key, limiter.perKey.lookup key ≠ some 0) (hkey : limiter'.perKey = limiter.perKey)
    (hmax : limiter'.perKeyMax = limiter.perKeyMax)
    (hcounts : ∀ key, conn'.counts key = conn.counts key)
    (hfree : limiter'.free + (if conn'.holds then 1 else 0) =
      limiter.free + if conn.holds then 1 else 0) : ConnMove limiter limiter' conn conn' where
  max_eq := hmax
  free := hfree
  nonzero := by rw [hkey]; exact h0
  counts key := by rw [ConnLimiter.count, ConnLimiter.count, hkey, hcounts]
  bounded key := Or.inl (by rw [ConnLimiter.count, ConnLimiter.count, hkey])

/-- A refusal: the count is at the limit, so it was there and stays as it is. -/
theorem move_refused {ip : IpAddr} (h0 : ∀ key, limiter.perKey.lookup key ≠ some 0)
    (hmax : 1 ≤ limiter.perKeyMax)
    (hfull : limiter.perKeyMax ≤ (limiter.perKey.lookup (limiterKey ip)).getD 0) :
    ConnMove limiter
      { limiter with
        perKey := limiter.perKey.insert (limiterKey ip) ((limiter.perKey.lookup (limiterKey ip)).getD 0) }
      (.acquired ip) .refused := by
  obtain ⟨n, hn⟩ : ∃ n, limiter.perKey.lookup (limiterKey ip) = some n := by
    cases hn : limiter.perKey.lookup (limiterKey ip) with
    | some n => exact ⟨n, rfl⟩
    | none =>
      rw [hn, Option.getD_none] at hfull
      exact absurd (UInt32.le_trans hmax hfull) (by decide)
  have hsame : limiter.perKey.insert (limiterKey ip) n = limiter.perKey := by
    apply Finmap.ext_lookup
    intro key
    rw [Map.lookup_insert_ite]
    by_cases hkey : key = limiterKey ip
    · rw [if_pos hkey, hkey, hn]
    · rw [if_neg hkey]
  rw [hn, Option.getD_some]
  exact move_slot h0 hsame rfl (fun _ => rfl) rfl

/-- An admission: the count was below the limit, so it does not wrap. -/
theorem move_admitted {ip : IpAddr} (h0 : ∀ key, limiter.perKey.lookup key ≠ some 0)
    (hroom : (limiter.perKey.lookup (limiterKey ip)).getD 0 < limiter.perKeyMax) :
    ConnMove limiter
      { limiter with
        perKey :=
          limiter.perKey.insert (limiterKey ip) ((limiter.perKey.lookup (limiterKey ip)).getD 0 + 1) }
      (.acquired ip) (.live ⟨ip, limiterKey ip, rfl⟩) := by
  have hlt : limiter.count (limiterKey ip) < limiter.perKeyMax.toNat := UInt32.lt_iff_toNat_lt.1 hroom
  have hbump : ((limiter.perKey.lookup (limiterKey ip)).getD 0 + 1).toNat =
      limiter.count (limiterKey ip) + 1 := by
    have hsize := limiter.perKeyMax.toNat_lt
    rw [UInt32.toNat_add]
    simp only [ConnLimiter.count] at hlt ⊢
    rw [show (1 : UInt32).toNat = 1 from rfl]
    omega
  refine ⟨rfl, rfl, fun key hzero => ?_, fun key => ?_, fun key => ?_⟩
  · simp only [Map.lookup_insert_ite] at hzero
    split at hzero
    · have := congrArg UInt32.toNat (Option.some.inj hzero)
      rw [hbump] at this
      simp at this
    · exact h0 key hzero
  · rw [count_insert]
    by_cases hkey : key = limiterKey ip
    · rw [if_pos hkey, hbump, hkey]
      simp [Conn.counts]
    · have hne : ¬ limiterKey ip = key := fun h => hkey h.symm
      rw [if_neg hkey]
      simp [Conn.counts, hne]
  · rw [count_insert]
    split
    · exact Or.inr (by omega)
    · exact Or.inl le_rfl

/-- Whether the entry stays or goes, its key counts one less. -/
theorem count_decrement {key : IpAddr} {n : UInt32} (hn : limiter.perKey.lookup key = some n)
    (hone : 1 ≤ n) (key' : IpAddr) :
    (limiter.decrement key).count key' = if key' = key then n.toNat - 1 else limiter.count key' := by
  have hpred : (n - 1).toNat = n.toNat - 1 := UInt32.toNat_sub_of_le n 1 hone
  unfold ConnLimiter.decrement
  rw [hn]
  dsimp only
  by_cases hzero : n - 1 = 0
  · rw [if_pos hzero, count_erase]
    rw [hzero] at hpred
    split
    · exact hpred
    · rfl
  · rw [if_neg hzero, count_insert, hpred]

theorem lookup_decrement_ne_zero {key : IpAddr} {n : UInt32} (hn : limiter.perKey.lookup key = some n)
    (h0 : ∀ key, limiter.perKey.lookup key ≠ some 0) (key' : IpAddr) :
    (limiter.decrement key).perKey.lookup key' ≠ some 0 := by
  intro hzero
  unfold ConnLimiter.decrement at hzero
  rw [hn] at hzero
  dsimp only at hzero
  split at hzero
  · rw [Map.lookup_erase_ite] at hzero
    split at hzero
    · cases hzero
    · exact h0 key' hzero
  · rename_i hne
    rw [Map.lookup_insert_ite] at hzero
    split at hzero
    · exact hne (Option.some.inj hzero)
    · exact h0 key' hzero

/-- A drop: the permit was counted, so there is something to take away. -/
theorem move_decrement {permit : ConnPermit} (h0 : ∀ key, limiter.perKey.lookup key ≠ some 0)
    (hpos : 0 < limiter.count permit.key) :
    ConnMove limiter (limiter.decrement permit.key) (.live permit) .decremented := by
  obtain ⟨n, hn⟩ : ∃ n, limiter.perKey.lookup permit.key = some n := by
    cases hn : limiter.perKey.lookup permit.key with
    | some n => exact ⟨n, rfl⟩
    | none => simp [ConnLimiter.count, hn] at hpos
  have hcount : limiter.count permit.key = n.toNat := by rw [ConnLimiter.count, hn, Option.getD_some]
  have hone : (1 : UInt32) ≤ n := by
    rw [UInt32.le_iff_toNat_le]
    rw [hcount] at hpos
    exact hpos
  refine ⟨?_, ?_, lookup_decrement_ne_zero hn h0, fun key => ?_, fun key => ?_⟩
  · unfold ConnLimiter.decrement
    rw [hn]
  · unfold ConnLimiter.decrement
    rw [hn]
    rfl
  · rw [count_decrement hn hone]
    by_cases hkey : key = permit.key
    · subst hkey
      rw [if_pos rfl, hcount]
      rw [hcount] at hpos
      simp only [Conn.counts, beq_self_eq_true, if_true, Bool.false_eq_true, if_false]
      omega
    · have hne : ¬ permit.key = key := fun h => hkey h.symm
      rw [if_neg hkey]
      simp [Conn.counts, hne]
  · rw [count_decrement hn hone]
    split
    · rename_i hkey
      subst hkey
      exact Or.inl (by omega)
    · exact Or.inl le_rfl

/-- **Every step of a call**, in a state where its own permit is counted. -/
theorem Conn.step_move {act : ConnAct} (h0 : ∀ key, limiter.perKey.lookup key ≠ some 0)
    (hmax : 1 ≤ limiter.perKeyMax) (hcounted : ∀ key, conn.counts key = true → 0 < limiter.count key)
    (h : conn.step limiter act = some (limiter', conn')) : ConnMove limiter limiter' conn conn' := by
  unfold Conn.step at h
  split at h
  · unfold ConnLimiter.tryAcquire at h
    split at h
    · rename_i hnone
      cases h
      exact move_slot h0 rfl rfl (fun _ => rfl) rfl
    · rename_i taken hsome
      cases h
      split at hsome
      · cases hsome
      · rename_i hfree
        cases hsome
        refine move_slot h0 rfl rfl (fun _ => rfl) ?_
        simp only [Conn.holds, if_true, Bool.false_eq_true, if_false]
        omega
  · rename_i ip
    unfold ConnLimiter.bump at h
    dsimp only at h
    by_cases hfull : limiter.perKeyMax ≤ (limiter.perKey.lookup (limiterKey ip)).getD 0
    · rw [if_pos hfull] at h
      cases h
      exact move_refused h0 hmax hfull
    · rw [if_neg hfull] at h
      cases h
      exact move_admitted h0 (UInt32.not_le.1 hfull)
  · rename_i permit
    cases h
    exact move_decrement h0 (hcounted permit.key (by simp [Conn.counts]))
  · cases h
    refine move_slot h0 rfl rfl (fun _ => rfl) ?_
    simp [ConnLimiter.giveBack, Conn.holds]
  · cases h
    refine move_slot h0 rfl rfl (fun _ => rfl) ?_
    simp [ConnLimiter.giveBack, Conn.holds]
  · cases h

end moves

/-! ## Runs -/

theorem balanced_start (globalMax : Nat) (perKeyMax : UInt32) :
    Balanced (ConnLimiter.new globalMax perKeyMax).free (max perKeyMax 1)
      (LimiterSys.start globalMax perKeyMax) where
  max_eq := rfl
  slots := rfl
  nonzero key h := by
    rw [LimiterSys.start, ConnLimiter.new, Finmap.lookup_empty] at h
    cases h
  counts key := by
    simp [LimiterSys.start, ConnLimiter.new, ConnLimiter.count]
  bounded key := by
    simp [LimiterSys.start, ConnLimiter.new, ConnLimiter.count]

variable {slots : Nat} {perKeyMax : UInt32} {S S' : LimiterSys}

/-- **One step of any call keeps the balance.** -/
theorem balanced_step {act : Act ConnAct Empty} (hmax : 1 ≤ perKeyMax) (h : Balanced slots perKeyMax S)
    (hs : limiterStep S act = some S') : Balanced slots perKeyMax S' := by
  cases act with
  | spawn =>
    cases hs
    exact {
      max_eq := h.max_eq
      slots := by rw [countP_spawn rfl]; exact h.slots
      nonzero := h.nonzero
      counts := fun key => by rw [countP_spawn rfl]; exact h.counts key
      bounded := h.bounded }
  | on i act =>
    obtain ⟨conn, limiter', conn', hi, hstep, rfl⟩ := step_on hs
    have hcounted : ∀ key, conn.counts key = true → 0 < S.shared.count key := by
      intro key hkey
      rw [← h.counts key, List.countP_pos_iff]
      exact ⟨conn, List.mem_of_getElem? hi, hkey⟩
    have hmove := Conn.step_move h.nonzero (h.max_eq ▸ hmax) hcounted hstep
    refine ⟨hmove.max_eq.trans h.max_eq, ?_, hmove.nonzero, fun key => ?_, fun key => ?_⟩
    · have hslots := h.slots
      have hfree := hmove.free
      have hcount := countP_moved Conn.holds conn' hi
      dsimp only
      omega
    · have hcounts := h.counts key
      have hkey := hmove.counts key
      have hcount := countP_moved (Conn.counts key) conn' hi
      dsimp only
      omega
    · have hbounded := h.bounded key
      rcases hmove.bounded key with hle | hle
      · exact hle.trans hbounded
      · rw [h.max_eq] at hle
        exact hle
  | env e => exact nomatch e

/-- What the limiter promises between any two steps. -/
structure LimitsKept (globalMax : Nat) (perKeyMax : UInt32) (S : LimiterSys) : Prop where
  global : S.threads.countP Conn.isLive ≤ max globalMax 1
  perSource : ∀ ip, S.threads.countP (Conn.isLiveLike ip) ≤ max perKeyMax.toNat 1
  /-- A count is never zero, and counts the permits that are not yet decremented. -/
  nonzero : ∀ key, S.shared.perKey.lookup key ≠ some 0
  counts : ∀ key, S.shared.count key = S.threads.countP (Conn.counts key)
  /-- The decrement of a live permit finds a count to take one from. -/
  noUnderflow : ∀ permit, Conn.live permit ∈ S.threads →
    ∃ count, S.shared.perKey.lookup permit.key = some count ∧ 1 ≤ count
  /-- Nothing leaks. -/
  quiet : (∀ conn ∈ S.threads, conn = .idle ∨ conn = .over) →
    S.shared.perKey = ∅ ∧ S.shared.free = (ConnLimiter.new globalMax perKeyMax).free

theorem counts_eq_isLiveLike (ip : IpAddr) : Conn.isLiveLike ip = Conn.counts (limiterKey ip) := by
  funext conn
  cases conn with
  | live permit => rw [Conn.isLiveLike, Conn.counts, permit.key_eq]
  | _ => rfl

theorem isLive_holds {conn : Conn} (h : conn.isLive = true) : conn.holds = true := by
  cases conn with
  | live permit => rfl
  | _ => cases h

theorem Balanced.lookup_eq_none (h : Balanced slots perKeyMax S) {key : IpAddr}
    (hnone : S.threads.countP (Conn.counts key) = 0) : S.shared.perKey.lookup key = none := by
  cases hn : S.shared.perKey.lookup key with
  | none => rfl
  | some n =>
    have hcount := h.counts key
    rw [hnone, ConnLimiter.count, hn, Option.getD_some] at hcount
    have hzero : n = 0 := UInt32.toNat_inj.1 hcount.symm
    exact absurd (hzero ▸ hn) (h.nonzero key)

theorem Balanced.limitsKept {globalMax : Nat}
    (h : Balanced (ConnLimiter.new globalMax perKeyMax).free (max perKeyMax 1) S) :
    LimitsKept globalMax perKeyMax S where
  global := by
    have hslots := h.slots
    have hle : S.threads.countP Conn.isLive ≤ S.threads.countP Conn.holds :=
      List.countP_mono_left fun conn _ => isLive_holds
    simp only [ConnLimiter.new] at hslots
    omega
  perSource ip := by
    have hmax : (max perKeyMax 1).toNat = max perKeyMax.toNat 1 := by
      rw [UInt32.toNat_max]
      rfl
    rw [counts_eq_isLiveLike, h.counts, ← hmax]
    exact h.bounded _
  nonzero := h.nonzero
  counts key := (h.counts key).symm
  noUnderflow permit hlive := by
    have hpos : 0 < S.shared.count permit.key := by
      rw [← h.counts, List.countP_pos_iff]
      exact ⟨_, hlive, by simp [Conn.counts]⟩
    cases hn : S.shared.perKey.lookup permit.key with
    | none => simp [ConnLimiter.count, hn] at hpos
    | some n =>
      refine ⟨n, rfl, ?_⟩
      rw [ConnLimiter.count, hn, Option.getD_some] at hpos
      exact UInt32.le_iff_toNat_le.2 hpos
  quiet hquiet := by
    have hnone : ∀ p : Conn → Bool, p .idle = false → p .over = false → S.threads.countP p = 0 := by
      intro p hidle hover
      rw [List.countP_eq_zero]
      intro conn hconn
      rcases hquiet conn hconn with rfl | rfl
      · simp [hidle]
      · simp [hover]
    refine ⟨?_, ?_⟩
    · apply Finmap.ext_lookup
      intro key
      rw [Finmap.lookup_empty]
      exact h.lookup_eq_none (hnone _ rfl rfl)
    · have hslots := h.slots
      rw [hnone Conn.holds rfl rfl, Nat.add_zero] at hslots
      exact hslots

/-- **The two counters are accounted for** in every state that any interleaving of any number of
admissions, refusals and drops can reach, for every pair of limits. -/
theorem limiter_accounted (globalMax : Nat) (perKeyMax : UInt32) (sched : List (Act ConnAct Empty))
    (S : LimiterSys) (hrun : Lts.run limiterStep (LimiterSys.start globalMax perKeyMax) sched = some S) :
    LimitsKept globalMax perKeyMax S := by
  have hmax : 1 ≤ max perKeyMax 1 := by
    rw [UInt32.le_iff_toNat_le, UInt32.toNat_max]
    exact le_max_right _ _
  refine Balanced.limitsKept (Lts.run_inv (G := fun _ _ => True) ?_ (balanced_start globalMax perKeyMax)
    (Lts.steps_of_forall fun _ _ => trivial) hrun)
  exact fun S act S' h _ hs => balanced_step hmax h hs

section examples

def visitor : IpAddr := .v4 #v[192, 0, 2, 1]

/-- A limit of one per source: a second call from the source is refused while the first permit lives,
gives its slot back, and a third is admitted after the drop. -/
def refusedThenAdmitted : List (Act ConnAct Empty) :=
  [.spawn, .spawn, .spawn, .on 0 (.tryAcquire visitor), .on 1 (.tryAcquire visitor), .on 0 .bump,
    .on 1 .bump, .on 0 .drop, .on 2 (.tryAcquire visitor), .on 2 .bump, .on 1 .giveBack, .on 0 .giveBack]

theorem limiter_accounted_refused : ∃ S,
    Lts.run limiterStep (LimiterSys.start 3 1) refusedThenAdmitted = some S ∧
    S.threads.map Conn.isLive = [false, false, true] ∧ S.shared.free = 2 ∧ LimitsKept 3 1 S := by
  have hend : (Lts.run limiterStep (LimiterSys.start 3 1) refusedThenAdmitted).map
      (fun S => (S.threads.map Conn.isLive, S.shared.free)) = some ([false, false, true], 2) := by
    decide +kernel
  obtain ⟨S, hrun, hS⟩ := Option.map_eq_some_iff.1 hend
  simp only [Prod.mk.injEq] at hS
  exact ⟨S, hrun, hS.1, hS.2, limiter_accounted 3 1 refusedThenAdmitted S hrun⟩

end examples

end EtherTunnel
