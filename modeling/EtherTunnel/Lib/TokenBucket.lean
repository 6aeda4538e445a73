import Mathlib.Algebra.Order.Field.Basic
import Mathlib.Data.Nat.Cast.Order.Ring
import Mathlib.Logic.Function.Basic
import Mathlib.Tactic.Linarith
import Mathlib.Tactic.Ring

/-!
# Token buckets

A bucket gains `rate` tokens a tick, up to `burst`, and an admission takes one. It is stored as its
content at the time it was last used; `level` is its content at any time, and `spend` is what becomes of
a content when it is asked for a token.

`Keyed` is a limiter with one bucket for each key that was ever asked about, and no other bookkeeping: what
an implementation that forgets buckets should be indistinguishable from. Its answers depend on the levels
alone, so a bucket may go when its level is what a new one's would be.

`admitted_le` is the bound that buckets are for. The level is a potential: an admission lowers it by one,
time raises it by at most `rate` a tick, and it is never more than `burst`.
-/

structure TokenBucket (K : Type) where
  tokens : K
  last : ℕ

namespace TokenBucket

variable {K : Type} [Field K] [LinearOrder K] (rate burst : K)

/-! ## One bucket -/

/-- The content of a bucket at a time. -/
def level (b : TokenBucket K) (now : ℕ) : K := min (b.tokens + ((now - b.last : ℕ) : K) * rate) burst

/-- Ask a content for one token. -/
def spend (tokens : K) (now : ℕ) : Bool × TokenBucket K :=
  if 1 ≤ tokens then (true, ⟨tokens - 1, now⟩) else (false, ⟨tokens, now⟩)

theorem level_le (b : TokenBucket K) (now : ℕ) : b.level rate burst now ≤ burst := min_le_right _ _

variable [IsStrictOrderedRing K] {rate burst} {b : TokenBucket K} {s t now : ℕ} {tokens : K}

theorem level_nonneg (hrate : 0 ≤ rate) (hburst : 0 ≤ burst) (hb : 0 ≤ b.tokens) :
    0 ≤ b.level rate burst now :=
  le_min (add_nonneg hb (mul_nonneg (Nat.cast_nonneg _) hrate)) hburst

/-- Time adds at most `rate` a tick. -/
theorem level_add (hrate : 0 ≤ rate) (hst : s ≤ t) :
    b.level rate burst t ≤ b.level rate burst s + ((t - s : ℕ) : K) * rate := by
  have hgain : ((t - b.last : ℕ) : K) * rate ≤
      ((s - b.last : ℕ) : K) * rate + ((t - s : ℕ) : K) * rate := by
    rw [← add_mul, ← Nat.cast_add]
    exact mul_le_mul_of_nonneg_right (Nat.cast_le.2 (by omega)) hrate
  have hpos : (0 : K) ≤ ((t - s : ℕ) : K) * rate := mul_nonneg (Nat.cast_nonneg _) hrate
  unfold level
  rw [← min_add_add_right]
  refine le_min ?_ ?_
  · exact (min_le_left _ _).trans (by linarith)
  · exact (min_le_right _ _).trans (by linarith)

/-- A full bucket stays full. -/
theorem level_eq_burst (hrate : 0 ≤ rate) (h : burst ≤ b.tokens + ((s - b.last : ℕ) : K) * rate)
    (hst : s ≤ t) : b.level rate burst t = burst := by
  have hgain : ((s - b.last : ℕ) : K) * rate ≤ ((t - b.last : ℕ) : K) * rate :=
    mul_le_mul_of_nonneg_right (Nat.cast_le.2 (by omega)) hrate
  exact min_eq_right (by linarith)

omit [IsStrictOrderedRing K] in
theorem level_new : (⟨burst, now⟩ : TokenBucket K).level rate burst now = burst := by
  rw [level, Nat.sub_self, Nat.cast_zero, zero_mul, add_zero, min_self]

theorem spend_nonneg (h : 0 ≤ tokens) : 0 ≤ (spend tokens now).2.tokens := by
  unfold spend
  split
  · exact sub_nonneg.2 ‹_›
  · exact h

/-- What is left is what was there less the token. -/
theorem level_spend (h : tokens ≤ burst) : (spend tokens now).2.level rate burst now +
    (if (spend tokens now).1 then 1 else 0) = tokens := by
  unfold spend level
  split
  · rw [Nat.sub_self, Nat.cast_zero, zero_mul, add_zero, if_pos rfl, min_eq_left (by linarith)]
    ring
  · rw [Nat.sub_self, Nat.cast_zero, zero_mul, add_zero, if_neg Bool.false_ne_true, min_eq_left h, add_zero]

/-! ## A limiter that keeps every bucket -/

abbrev Keyed (ι K : Type) := ι → Option (TokenBucket K)

namespace Keyed

section defs

omit [IsStrictOrderedRing K]

variable {ι : Type} [DecidableEq ι] (rate burst) (m : Keyed ι K) (k : ι) (now : ℕ)

/-- The content of a key's bucket, which is full before it is first used. -/
def level : K := ((m k).getD ⟨burst, now⟩).level rate burst now

def check : Bool × Keyed ι K :=
  let r := spend (m.level rate burst k now) now
  (r.1, Function.update m k (some r.2))

/-- The requests with their answers. -/
def log : Keyed ι K → List (ι × ℕ) → List (ι × ℕ × Bool)
  | _, [] => []
  | m, (k, now) :: rest =>
    (k, now, (m.check rate burst k now).1) :: log (m.check rate burst k now).2 rest

variable {rate burst m k now}

theorem level_check {k' : ι} {t : ℕ} : (m.check rate burst k now).2.level rate burst k' t =
    if k' = k then (spend (m.level rate burst k now) now).2.level rate burst t
    else m.level rate burst k' t := by
  unfold check level
  dsimp only
  rw [Function.update_apply]
  split <;> rfl

theorem mem_of_mem_log {e : ι × ℕ × Bool} : ∀ {m : Keyed ι K} {reqs : List (ι × ℕ)},
    e ∈ log rate burst m reqs → (e.1, e.2.1) ∈ reqs
  | _, [], h => by cases h
  | m, r :: rest, h => by
    rw [log] at h
    rcases List.mem_cons.1 h with rfl | h
    · exact List.mem_cons_self
    · exact List.mem_cons_of_mem _ (mem_of_mem_log h)

end defs

/-! ## How many are admitted -/

section window

variable {ι : Type} {m : Keyed ι K} {k k' : ι} {u : ℕ}

/-- No bucket owes a token. -/
def Solvent (m : Keyed ι K) : Prop := ∀ k b, m k = some b → 0 ≤ b.tokens

theorem level_gain (hrate : 0 ≤ rate) (hst : s ≤ t) :
    m.level rate burst k t ≤ m.level rate burst k s + ((t - s : ℕ) : K) * rate := by
  unfold level
  cases hm : m k with
  | none =>
    rw [Option.getD_none, Option.getD_none, level_new, level_new]
    exact le_add_of_nonneg_right (mul_nonneg (Nat.cast_nonneg _) hrate)
  | some b =>
    rw [Option.getD_some, Option.getD_some]
    exact level_add hrate hst

theorem Solvent.level_nonneg (h : Solvent m) (hrate : 0 ≤ rate) (hburst : 0 ≤ burst) :
    0 ≤ m.level rate burst k now := by
  unfold level
  cases hm : m k with
  | none =>
    rw [Option.getD_none, level_new]
    exact hburst
  | some b => exact TokenBucket.level_nonneg hrate hburst (h k b hm)

variable [DecidableEq ι]

theorem Solvent.check (h : Solvent m) (hrate : 0 ≤ rate) (hburst : 0 ≤ burst) (k : ι) (now : ℕ) :
    Solvent (m.check rate burst k now).2 := by
  intro k' b hb
  unfold Keyed.check at hb
  dsimp only at hb
  rw [Function.update_apply] at hb
  split at hb
  · cases hb
    exact spend_nonneg (h.level_nonneg hrate hburst)
  · exact h k' b hb

/-- One request costs the key it is for the token it gets, and no other key anything. -/
theorem check_cost : (m.check rate burst k' now).2.level rate burst k now +
    (if k' = k ∧ (m.check rate burst k' now).1 then 1 else 0) = m.level rate burst k now := by
  rw [level_check]
  by_cases hk : k = k'
  · subst hk
    rw [if_pos rfl]
    simp only [true_and]
    exact level_spend (level_le rate burst _ now)
  · rw [if_neg hk, if_neg fun h => hk h.1.symm, add_zero]

variable (hrate : 0 ≤ rate) (hburst : 0 ≤ burst)
include hrate hburst

/-- From a time on, a key is admitted as often as its level and the time to come allow. -/
theorem admitted_le_level (hsolvent : Solvent m) {reqs : List (ι × ℕ)}
    (hsorted : reqs.Pairwise fun a b => a.2 ≤ b.2) (hfrom : ∀ r ∈ reqs, u ≤ r.2) (hut : u ≤ t) :
    (((log rate burst m reqs).countP fun e => e.1 = k ∧ e.2.1 ≤ t ∧ e.2.2 : ℕ) : K) ≤
      m.level rate burst k u + ((t - u : ℕ) : K) * rate := by
  induction reqs generalizing m u with
  | nil =>
    rw [log, List.countP_nil, Nat.cast_zero]
    exact add_nonneg (hsolvent.level_nonneg hrate hburst) (mul_nonneg (Nat.cast_nonneg _) hrate)
  | cons r rest ih =>
    obtain ⟨k', now⟩ := r
    obtain ⟨hhead, hsorted⟩ := List.pairwise_cons.1 hsorted
    have hu : u ≤ now := hfrom _ List.mem_cons_self
    by_cases hnow : now ≤ t
    · have hrest := ih (hsolvent.check hrate hburst k' now) hsorted hhead hnow
      have hcost : (m.check rate burst k' now).2.level rate burst k now +
          (if k' = k ∧ (m.check rate burst k' now).1 then 1 else 0) = m.level rate burst k now := check_cost
      have hgain : m.level rate burst k now ≤ m.level rate burst k u + ((now - u : ℕ) : K) * rate :=
        level_gain hrate hu
      have hsplit : ((t - u : ℕ) : K) * rate =
          ((now - u : ℕ) : K) * rate + ((t - now : ℕ) : K) * rate := by
        rw [← add_mul, ← Nat.cast_add]
        congr 2
        omega
      rw [log, List.countP_cons, Nat.cast_add, hsplit]
      simp only [hnow, true_and, decide_eq_true_eq, Nat.cast_ite, Nat.cast_one, Nat.cast_zero]
      linarith
    · have hnone : (log rate burst m ((k', now) :: rest)).countP
          (fun e => e.1 = k ∧ e.2.1 ≤ t ∧ e.2.2) = 0 := by
        rw [List.countP_eq_zero]
        intro e he hin
        have hlate : now ≤ e.2.1 := by
          rcases List.mem_cons.1 (mem_of_mem_log he) with heq | hmem
          · exact (congrArg Prod.snd heq).ge
          · exact hhead _ hmem
        exact hnow (hlate.trans (of_decide_eq_true hin).2.1)
      rw [hnone, Nat.cast_zero]
      exact add_nonneg (hsolvent.level_nonneg hrate hburst) (mul_nonneg (Nat.cast_nonneg _) hrate)

/-- **The bound of a token bucket**, for every window of every sequence of requests in the order of time. -/
theorem admitted_le (hsolvent : Solvent m) {reqs : List (ι × ℕ)}
    (hsorted : reqs.Pairwise fun a b => a.2 ≤ b.2) (hst : s ≤ t) :
    (((log rate burst m reqs).countP fun e => e.1 = k ∧ s ≤ e.2.1 ∧ e.2.1 ≤ t ∧ e.2.2 : ℕ) : K) ≤
      burst + ((t - s : ℕ) : K) * rate := by
  induction reqs generalizing m with
  | nil =>
    rw [log, List.countP_nil, Nat.cast_zero]
    exact add_nonneg hburst (mul_nonneg (Nat.cast_nonneg _) hrate)
  | cons r rest ih =>
    obtain ⟨k', now⟩ := r
    by_cases hnow : now < s
    · -- before the window nothing counts
      rw [log, List.countP_cons, if_neg, Nat.add_zero]
      · exact ih (hsolvent.check hrate hburst k' now) (List.pairwise_cons.1 hsorted).2
      · exact fun h => Nat.not_le.2 hnow (of_decide_eq_true h).2.1
    · have hfrom : ∀ r ∈ (k', now) :: rest, s ≤ r.2 := by
        intro r hr
        rcases List.mem_cons.1 hr with rfl | hr
        · omega
        · have : now ≤ r.2 := (List.pairwise_cons.1 hsorted).1 r hr
          omega
      have hin : (log rate burst m ((k', now) :: rest)).countP
            (fun e => e.1 = k ∧ s ≤ e.2.1 ∧ e.2.1 ≤ t ∧ e.2.2) ≤
          (log rate burst m ((k', now) :: rest)).countP fun e => e.1 = k ∧ e.2.1 ≤ t ∧ e.2.2 := by
        refine List.countP_mono_left fun e _ h => ?_
        obtain ⟨hk, -, hwindow⟩ := of_decide_eq_true h
        exact decide_eq_true ⟨hk, hwindow⟩
      have hlevel : m.level rate burst k s ≤ burst := level_le rate burst _ s
      have hbound := admitted_le_level hrate hburst hsolvent hsorted hfrom hst (k := k)
      have hcast := (Nat.cast_le (α := K)).2 hin
      linarith

end window

end Keyed

end TokenBucket
