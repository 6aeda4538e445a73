import EtherTunnel.Ratelimit.Bucket

/-!
# How many buckets are stored

The module doc of `ratelimit.rs` says that the map "is swept and capped so it cannot grow without bound".
The purge of `check_at` (`:65-71`) drops the buckets that are full again, and the insertion after it asks
no more questions. `buckets_capped_iff` says for which sequences of calls that is a cap, and
`sources_overflow_map` is one for which it is not: a first connection from more addresses than the map may
hold, faster than a bucket refills.
-/

namespace EtherTunnel

variable {limiter : RateLimiter} {ip : IpAddr} {now : Nat}

namespace RateLimiter

/-- A call after which the map is no larger than it may be: there is room, or the key has its bucket, or
the purge finds one to drop. -/
def RoomFor (limiter : RateLimiter) : LimiterCall → Prop
  | .check ip now => limiter.buckets.keys.card < limiter.maxEntries ∨ ip ∈ limiter.buckets.keys ∨
      ∃ ip' b, limiter.buckets.lookup ip' = some b ∧ limiter.burst ≤ limiter.refilled b now
  | .sweep _ => True

theorem keys_useBucket :
    (limiter.useBucket ip now).2.buckets.keys = insert ip limiter.buckets.keys := by
  rw [useBucket_eq]
  exact Map.keys_insert

theorem maxEntries_checkAt : (limiter.checkAt ip now).2.maxEntries = limiter.maxEntries := by
  obtain ⟨limiter', heq, rfl | rfl⟩ := checkAt_cases limiter ip now
  · rw [heq, useBucket_eq]
  · rw [heq, useBucket_eq]
    rfl

theorem mem_keys_retain : ip ∈ (limiter.retain now).buckets.keys ↔
    ∃ b, limiter.buckets.lookup ip = some b ∧ limiter.refilled b now < limiter.burst := by
  rw [Finmap.mem_keys, ← Finmap.lookup_isSome, retain, Map.lookup_retain, Option.isSome_iff_exists]
  simp only [Option.filter_eq_some_iff, decide_eq_true_eq]

theorem mem_keys_iff : ip ∈ limiter.buckets.keys ↔ ∃ b, limiter.buckets.lookup ip = some b := by
  rw [Finmap.mem_keys, ← Finmap.lookup_isSome, Option.isSome_iff_exists]

theorem keys_retain_subset : (limiter.retain now).buckets.keys ⊆ limiter.buckets.keys :=
  Map.keys_retain_subset

/-- One check on a map that is no larger than it may be. -/
theorem card_checkAt (h : limiter.buckets.keys.card ≤ limiter.maxEntries) :
    (limiter.checkAt ip now).2.buckets.keys.card ≤ limiter.maxEntries ↔
      limiter.RoomFor (.check ip now) := by
  unfold checkAt
  by_cases hroom : limiter.buckets.keys.card < limiter.maxEntries
  · rw [if_neg (Nat.not_le.2 hroom), keys_useBucket]
    exact iff_of_true ((Finset.card_insert_le _ _).trans hroom) (.inl hroom)
  · rw [if_pos (Nat.not_lt.1 hroom), keys_useBucket]
    have hcard : limiter.buckets.keys.card = limiter.maxEntries := by omega
    constructor
    · intro hfits
      by_contra hno
      simp only [RoomFor, not_or] at hno
      obtain ⟨-, hkey, hfull⟩ := hno
      have hall : (limiter.retain now).buckets.keys = limiter.buckets.keys := by
        refine Finset.Subset.antisymm keys_retain_subset fun k hk => ?_
        obtain ⟨b, hb⟩ := mem_keys_iff.1 hk
        exact mem_keys_retain.2 ⟨b, hb, lt_of_not_ge fun hge => hfull ⟨k, b, hb, hge⟩⟩
      rw [hall, Finset.card_insert_of_notMem hkey] at hfits
      omega
    · rintro (hlt | hkey | ⟨k, b, hb, hfull⟩)
      · exact absurd hlt hroom
      · rw [← hcard]
        exact Finset.card_le_card (Finset.insert_subset hkey keys_retain_subset)
      · have hk : k ∉ (limiter.retain now).buckets.keys := by
          intro hin
          obtain ⟨b', hb', hlt⟩ := mem_keys_retain.1 hin
          rw [hb] at hb'
          cases hb'
          exact absurd hfull (not_le.2 hlt)
        have hss : (limiter.retain now).buckets.keys ⊂ limiter.buckets.keys :=
          (Finset.ssubset_iff_of_subset keys_retain_subset).2 ⟨k, mem_keys_iff.2 ⟨b, hb⟩, hk⟩
        have := Finset.card_lt_card hss
        exact (Finset.card_insert_le _ _).trans (by omega)

end RateLimiter

/-- **When the map is capped**: exactly when no check for a key without a bucket finds the map at its
limit with every bucket in use. -/
theorem buckets_capped_iff (rate burst : UInt32) (calls : List LimiterCall) :
    Lts.Always RateLimiter.step (fun limiter => limiter.buckets.keys.card ≤ limiter.maxEntries)
      (RateLimiter.new rate burst) calls ↔
    Lts.Steps RateLimiter.step RateLimiter.RoomFor (RateLimiter.new rate burst) calls := by
  refine Lts.always_iff_steps ?_ ?_ ?_ (Nat.zero_le _)
  · intro limiter call limiter' hfits hroom hstep
    cases call with
    | check ip now =>
      cases hstep
      rw [RateLimiter.maxEntries_checkAt]
      exact (RateLimiter.card_checkAt hfits).2 hroom
    | sweep now =>
      cases hstep
      exact (Finset.card_le_card RateLimiter.keys_retain_subset).trans hfits
  · intro limiter call limiter' hfits hstep hafter
    cases call with
    | check ip now =>
      cases hstep
      rw [RateLimiter.maxEntries_checkAt] at hafter
      exact (RateLimiter.card_checkAt hfits).1 hafter
    | sweep now => trivial
  · intro limiter call hstep
    cases call <;> cases hstep

/-! ### A flood -/

namespace RateLimiter

/-- Every bucket has just been used for the first time. -/
def Drained (limiter : RateLimiter) (now : Nat) : Prop :=
  ∀ ip b, limiter.buckets.lookup ip = some b → b = ⟨limiter.burst - 1, now⟩

theorem Drained.retain (h : limiter.Drained now) : limiter.retain now = limiter := by
  have hmap : (limiter.retain now).buckets = limiter.buckets := by
    refine Finmap.ext_lookup fun ip => ?_
    rw [RateLimiter.retain, Map.lookup_retain]
    cases hb : limiter.buckets.lookup ip with
    | none => rfl
    | some b =>
      have hlt : limiter.refilled b now < limiter.burst := by
        rw [h ip b hb, refilled_eq]
        simp
      rw [Option.filter_some, if_pos (decide_eq_true hlt)]
  unfold RateLimiter.retain at hmap ⊢
  dsimp only at hmap
  rw [hmap]

/-- A first check at the same time stores a bucket and drops none. -/
theorem Drained.checkAt (h : limiter.Drained now) (hburst : 1 ≤ limiter.burst)
    (hip : ip ∉ limiter.buckets.keys) : (limiter.checkAt ip now).2 =
      { limiter with buckets := limiter.buckets.insert ip ⟨limiter.burst - 1, now⟩ } := by
  have hnone : limiter.buckets.lookup ip = none := by
    cases hb : limiter.buckets.lookup ip with
    | none => rfl
    | some b => exact absurd (mem_keys_iff.2 ⟨b, hb⟩) hip
  have hlevel : limiter.level ip now = limiter.burst := by
    rw [level, hnone]
    exact TokenBucket.level_new
  obtain ⟨limiter', heq, hor⟩ := checkAt_cases limiter ip now
  have hsame : limiter' = limiter := hor.elim id fun hr => hr.trans h.retain
  rw [heq, hsame, useBucket_eq, hlevel, TokenBucket.spend, if_pos hburst]

theorem flood_run : ∀ {ips : List IpAddr} {limiter : RateLimiter}, limiter.Drained now →
    1 ≤ limiter.burst → ips.Nodup → (∀ ip ∈ ips, ip ∉ limiter.buckets.keys) →
    ∃ limiter', Lts.run step limiter (ips.map (.check · now)) = some limiter' ∧
      limiter'.maxEntries = limiter.maxEntries ∧
      limiter'.buckets.keys.card = limiter.buckets.keys.card + ips.length
  | [], limiter, _, _, _, _ => ⟨limiter, rfl, rfl, rfl⟩
  | ip :: ips, limiter, h, hburst, hnodup, hnew => by
    obtain ⟨hnotin, hnodup⟩ := List.nodup_cons.1 hnodup
    have hip := hnew ip List.mem_cons_self
    have hstep : step limiter (.check ip now) =
        some { limiter with buckets := limiter.buckets.insert ip ⟨limiter.burst - 1, now⟩ } :=
      congrArg some (h.checkAt hburst hip)
    have hkeys : (limiter.buckets.insert ip ⟨limiter.burst - 1, now⟩).keys =
        insert ip limiter.buckets.keys := Map.keys_insert
    have hdrained : Drained { limiter with
        buckets := limiter.buckets.insert ip ⟨limiter.burst - 1, now⟩ } now := by
      intro k b hb
      dsimp only at hb ⊢
      rw [Map.lookup_insert_ite] at hb
      split at hb
      · exact (Option.some_inj.1 hb).symm
      · exact h k b hb
    have hrest : ∀ k ∈ ips, k ∉ (limiter.buckets.insert ip ⟨limiter.burst - 1, now⟩).keys := by
      intro k hk
      rw [hkeys, Finset.mem_insert, not_or]
      exact ⟨fun heq => hnotin (heq ▸ hk), hnew k (List.mem_cons_of_mem _ hk)⟩
    obtain ⟨limiter', hrun, hmax, hcard⟩ := flood_run hdrained hburst hnodup hrest
    refine ⟨limiter', ?_, hmax, ?_⟩
    · rw [List.map_cons, Lts.run, hstep]
      exact hrun
    · dsimp only at hcard
      rw [hcard, hkeys, Finset.card_insert_of_notMem hip, List.length_cons]
      omega

/-- The `n`-th address of `10.0.0.0/8`. -/
def source (n : Nat) : IpAddr :=
  .v4 #v[10, UInt8.ofNat (n / 65536), UInt8.ofNat (n / 256), UInt8.ofNat n]

theorem source_injOn {n k : Nat} (hn : n < 16777216) (hk : k < 16777216) (h : source n = source k) :
    n = k := by
  have hlist : [10, UInt8.ofNat (n / 65536), UInt8.ofNat (n / 256), UInt8.ofNat n] =
      [10, UInt8.ofNat (k / 65536), UInt8.ofNat (k / 256), UInt8.ofNat k] :=
    congrArg Vector.toList (IpAddr.v4.inj h)
  simp only [List.cons.injEq, ← UInt8.toNat_inj, UInt8.toNat_ofNat'] at hlist
  omega

theorem sources_run (n : Nat) (hn : n ≤ 16777216) : ∃ limiter',
    Lts.run step (new 10 5) (((List.range n).map source).map (.check · 0)) = some limiter' ∧
      limiter'.maxEntries = 65536 ∧ limiter'.buckets.keys.card = n := by
  have hnodup : ((List.range n).map source).Nodup := by
    refine List.Nodup.map_on (fun j hj k hk h => ?_) List.nodup_range
    rw [List.mem_range] at hj hk
    exact source_injOn (by omega) (by omega) h
  have hburst : (1 : ℚ) ≤ (new 10 5).burst := Nat.one_le_cast.2 (by decide)
  have hdrained : (new 10 5).Drained 0 := by
    intro ip b hb
    rw [new, Finmap.lookup_empty] at hb
    cases hb
  have hempty : ∀ ip, ip ∉ (new 10 5).buckets.keys := by
    intro ip hin
    rw [new, Finmap.keys_empty] at hin
    cases hin
  obtain ⟨limiter', hrun, hmax, hcard⟩ := flood_run hdrained hburst hnodup fun ip _ => hempty ip
  rw [List.length_map, List.length_range] at hcard
  exact ⟨limiter', hrun, hmax, hcard.trans (Nat.zero_add n)⟩

end RateLimiter

/-- One connection each from 65 537 addresses, at one time. -/
def sourceFlood : List LimiterCall := ((List.range 65537).map RateLimiter.source).map (.check · 0)

theorem sources_overflow_map : ∃ limiter',
    Lts.run RateLimiter.step (RateLimiter.new 10 5) sourceFlood = some limiter' ∧
    limiter'.maxEntries < limiter'.buckets.keys.card ∧
    ¬ Lts.Always RateLimiter.step (fun limiter => limiter.buckets.keys.card ≤ limiter.maxEntries)
      (RateLimiter.new 10 5) sourceFlood := by
  obtain ⟨limiter', hrun, hmax, hcard⟩ := RateLimiter.sources_run 65537 (by omega)
  have hover : limiter'.maxEntries < limiter'.buckets.keys.card := by omega
  exact ⟨limiter', hrun, hover, Lts.not_always hrun (Nat.not_le.2 hover)⟩

end EtherTunnel
