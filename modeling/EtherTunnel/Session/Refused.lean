import EtherTunnel.Session.Granted

/-!
# Where a claim stops

`handle_claim` goes through the ports, the license gate and the hostnames of a claim, and stops at the first
that is refused. Each of them is judged here on the request, on the stores as they are before the claim and on
what fails outside: `PortPasses`, `GatePasses` and `HostPasses`. What the loops have done by then is the
earlier entries of the request: a port among them is bound, a hostname is the account's and counts against
its cap.

`UpTo G R` is a condition on such a loop: its entries pass when they have `G`, and the one that it stops at
has `R`.
-/

namespace EtherTunnel

open Txn

/-! ## Loops that stop -/

section upTo

variable {α : Type} {G R G' R' : Nat → α → Prop}

/-- An entry has `R` whenever all entries before it have `G`. -/
def UpTo (G R : Nat → α → Prop) (xs : List α) : Prop :=
  ∀ i x, xs[i]? = some x → (∀ j < i, ∀ y, xs[j]? = some y → G j y) → R i x

theorem upTo_nil : UpTo G R [] := nofun

theorem upTo_cons {x : α} {xs : List α} : UpTo G R (x :: xs) ↔
    R 0 x ∧ (G 0 x → UpTo (fun i => G (i + 1)) (fun i => R (i + 1)) xs) := by
  constructor
  · refine fun h => ⟨h 0 x rfl nofun, fun hG i y hy hbefore => h (i + 1) y hy fun j hj z hz => ?_⟩
    cases j with
    | zero =>
      cases hz
      exact hG
    | succ j => exact hbefore j (Nat.lt_of_succ_lt_succ hj) z hz
  · rintro ⟨hR, hrest⟩ i y hy hbefore
    cases i with
    | zero =>
      cases hy
      exact hR
    | succ i =>
      exact hrest (hbefore 0 (Nat.succ_pos i) x rfl) i y hy fun j hj z hz =>
        hbefore (j + 1) (Nat.succ_lt_succ hj) z hz

theorem upTo_congr {xs : List α} (hG : ∀ i x, G i x ↔ G' i x) (hR : ∀ i x, R i x ↔ R' i x) :
    UpTo G R xs ↔ UpTo G' R' xs := by
  simp only [UpTo, hG, hR]

end upTo

/-! ## Ports -/

section ports

variable (ctx : SessionCtx) (net : Net) (u : Int) (io : Nat → PortIo) (ports : List UInt16)

/-- The port loop goes on after the `i`-th port. -/
def PortPasses (i : Nat) (p : UInt16) : Prop :=
  Clear (io i).faults 1 ∧ PortClaimable ctx net.db u net.bound io ports i p

/-- The port is the user's, and `bind` fails with `e`: it is not bound, by this claim or before. -/
def BindFails (i : Nat) (p : UInt16) (e : String) : Prop :=
  ((∃ manager, ctx.tcp = some manager ∧ manager.inRange p = true) ∧ net.db.hasPort u p = true ∧
    Clear (io i).faults 1) ∧
  p ∉ net.bound ∧ p ∉ ports.take i ∧ (io i).bind = .error e

variable {ctx net u io ports} {p q : UInt16} {i : Nat} {e : String}

theorem portPasses_cons : PortPasses ctx net u io (p :: ports) (i + 1) q ↔
    PortPasses ctx { net with bound := insert p net.bound } u (fun i => io (i + 1)) ports i q :=
  and_congr_right fun _ => portClaimable_cons

theorem bindFails_cons : BindFails ctx net u io (p :: ports) (i + 1) q e ↔
    BindFails ctx { net with bound := insert p net.bound } u (fun i => io (i + 1)) ports i q e := by
  simp only [BindFails, List.take_succ_cons, List.mem_cons, Finset.mem_insert]
  tauto

theorem portPasses_zero : PortPasses ctx net u io (p :: ports) 0 p ↔
    ctx.checkPort (io 0).faults net.db u p = .ok () ∧ (ensureBound net.bound p (io 0).bind).1 = .ok () := by
  rw [checkPort_ok_iff, ensureBound_eq_ok]
  simp only [PortPasses, PortClaimable, List.take_zero, List.not_mem_nil, false_or]
  tauto

theorem bindFails_zero : BindFails ctx net u io (p :: ports) 0 p e ↔
    ctx.checkPort (io 0).faults net.db u p = .ok () ∧
      (ensureBound net.bound p (io 0).bind).1 = .error e := by
  rw [checkPort_ok_iff, BindFails, List.take_zero]
  refine and_congr_right fun _ => ?_
  unfold ensureBound
  by_cases hp : p ∈ net.bound
  · simp [hp]
  · cases (io 0).bind <;> simp [hp]

end ports

/-! ## The license gate -/

/-- The key has no activation, and the portal has none left for it. -/
def PolarGate.NoSeat (gate : PolarGate) (io : ActivateIo) (cache : LicenseCache) (key : String) : Prop :=
  gate.policy.activateOnClaim = true ∧ io.readFails = false ∧ io.answer = .limitReached ∧
    ∃ row ∈ cache.get (gate.sha key), grantedOnly row = true ∧ row.activationId = none

theorem ensureActivated_ok_iff {gate : PolarGate} {io : ActivateIo} {cache : LicenseCache} {key : String} :
    (gate.ensureActivated io cache key).1 = .ok () ↔ ¬ gate.NoSeat io cache key := by
  unfold PolarGate.ensureActivated PolarGate.NoSeat
  cases gate.policy.activateOnClaim with
  | false => simp
  | true =>
    cases io.readFails with
    | true => simp
    | false =>
      cases hrow : cache.get (gate.sha key) with
      | none => simp [hrow]
      | some row =>
        cases hgranted : grantedOnly row with
        | false => simp [hrow, Option.filter, hgranted]
        | true => cases hact : row.activationId <;> cases io.answer <;>
          simp [hrow, Option.filter, hgranted, hact]

/-- The gate lets the claim through, with this cap on what the account may have. -/
def SessionCtx.GatePasses (ctx : SessionCtx) (io : GateIo) (relay : Relay) (user : AuthedUser)
    (token : String) (hosts : List String) (ports : List UInt16) (cap : Option Int) : Prop :=
  match ctx.polar with
  | none => cap = none
  | some gate =>
    ¬ gate.NoSeat io.activate relay.cache token ∧
      gate.capFor relay.cache user.name io.now io.capFails = cap.elim .allow .cap ∧
      ∀ m ∈ cap, (relay.router.inner.projectedTunnelCount user.userId hosts ports : Int) ≤ m

theorem capCheck_ok_iff {decision : CapDecision} {router : Router} {u : Int} {hosts : List String}
    {ports : List UInt16} {cap : Option Int} :
    SessionCtx.capCheck decision router u hosts ports = .ok cap ↔
      decision = cap.elim .allow .cap ∧
        ∀ m ∈ cap, (router.inner.projectedTunnelCount u hosts ports : Int) ≤ m := by
  unfold SessionCtx.capCheck
  cases decision with
  | allow => cases cap <;> simp
  | denyAll => cases cap <;> simp
  | cap m =>
    dsimp only
    split
    · rename_i hlt
      refine iff_of_false nofun ?_
      rintro ⟨hcap, hle⟩
      cases cap with
      | none => cases hcap
      | some m' =>
        cases hcap
        exact absurd (hle m rfl) (Int.not_le.2 hlt)
    · rename_i hle
      cases cap with
      | none => simp
      | some m' =>
        simp only [Except.ok.injEq, Option.some.injEq, Option.elim_some, CapDecision.cap.injEq,
          Option.mem_some_iff, forall_eq']
        exact ⟨fun h => ⟨h, h ▸ Int.not_lt.1 hle⟩, And.left⟩

theorem claimGate_ok_iff {ctx : SessionCtx} {io : GateIo} {relay : Relay} {user : AuthedUser} {token : String}
    {hosts : List String} {ports : List UInt16} {cap : Option Int} :
    (ctx.claimGate io relay user token hosts ports).1 = .ok cap ↔
      ctx.GatePasses io relay user token hosts ports cap := by
  unfold SessionCtx.claimGate SessionCtx.GatePasses
  cases ctx.polar with
  | none => simp [eq_comm]
  | some gate =>
    have hcap := capFor_ensureActivated gate io.activate relay.cache token user.name io.now io.capFails
    have hseat := @ensureActivated_ok_iff gate io.activate relay.cache token
    dsimp only
    rw [← hseat]
    generalize gate.ensureActivated io.activate relay.cache token = res at hcap ⊢
    obtain ⟨why | _, cache⟩ := res
    · simp
    · dsimp only at hcap ⊢
      rw [hcap, capCheck_ok_iff]
      simp

/-! ## Hostnames

The statements of `claim_label_capped` are `BEGIN`, the owner of the label, the count if there is a cap,
`INSERT` and `COMMIT`. -/

section program

variable {db : Db} {u now : Int} {l : String} {max : Option Int} {faults : Faults}

theorem claimInsert_takes (hfree : l ∉ db.hostnames.map (·.label)) (huser : u ∈ db.users.map (·.id)) :
    Takes 2 (claimInsert now u l) db (some db) := by
  obtain ⟨id, db', hins, -⟩ := insertHostname_free hfree huser now
  have hcommit : Takes 1 (commit .db (Op.ok true)) db (some db') := ends_commit not_ok (takes_ok true)
  refine ends_succ (fun faults e hf => ?_) (fun faults hf => ?_) hcommit
  · simp only [claimInsert, exec, Conn.fault, hf]
    cases e <;> exact not_ok _
  · simp only [claimInsert, exec, Conn.fault, hf, Conn.view, Option.getD_some, hins]
    rfl

theorem claimLabelCapped_takes_held (hvalid : validateLabel l = .ok ()) (h : db.hasLabel u l = true) :
    Takes 2 (claimLabelCapped now u l max) db none := by
  unfold claimLabelCapped
  rw [hvalid]
  refine ends_begin not_ok (ends_query not_ok ?_)
  rw [Option.getD_some, Db.labelOwner_eq_some.2 h]
  dsimp only
  rw [if_pos rfl]
  exact takes_ok false

theorem claimLabelCapped_takes_free (hvalid : validateLabel l = .ok ())
    (hfree : l ∉ db.hostnames.map (·.label)) (huser : u ∈ db.users.map (·.id))
    (hcap : ∀ m ∈ max, db.countOwned u < m) :
    Takes (if max.isSome then 5 else 4) (claimLabelCapped now u l max) db none := by
  have hinsert : Takes 2 (claimInsert now u l) db (some db) := claimInsert_takes hfree huser
  unfold claimLabelCapped
  rw [hvalid]
  cases max with
  | none =>
    refine ends_begin not_ok (ends_query not_ok ?_)
    rw [Option.getD_some, Db.labelOwner_eq_none.2 hfree]
    exact hinsert
  | some m =>
    refine ends_begin not_ok (ends_query not_ok ?_)
    rw [Option.getD_some, Db.labelOwner_eq_none.2 hfree]
    refine ends_query not_ok ?_
    rw [Option.getD_some, if_neg (Int.not_le.2 (hcap m rfl))]
    exact hinsert

theorem claimLabelCapped_ok_iff (hvalid : validateLabel l = .ok ()) :
    (∃ b, (run faults (claimLabelCapped now u l max) db).1 = .ok b) ↔
      db.hasLabel u l = true ∧ Clear faults 2 ∨
      l ∉ db.hostnames.map (·.label) ∧ u ∈ db.users.map (·.id) ∧ (∀ m ∈ max, db.countOwned u < m) ∧
        Clear faults (if max.isSome then 5 else 4) := by
  constructor
  · rintro ⟨b, hb⟩
    have heff := post_run (claimLabelCapped_effect db u now l max) faults
    have hok : ∃ b, (run faults (claimLabelCapped now u l max) db).1 = .ok b := ⟨b, hb⟩
    rw [hb] at heff
    generalize (run faults (claimLabelCapped now u l max) db).2 = db' at heff
    cases heff with
    | already h => exact Or.inl ⟨h, (ends_run (claimLabelCapped_takes_held hvalid h) faults).1 hok⟩
    | inserted h hcap =>
      exact Or.inr ⟨h.free, h.user, hcap,
        (ends_run (claimLabelCapped_takes_free hvalid h.free h.user hcap) faults).1 hok⟩
  · rintro (⟨h, hclear⟩ | ⟨hfree, huser, hcap, hclear⟩)
    · exact (ends_run (claimLabelCapped_takes_held hvalid h) faults).2 hclear
    · exact (ends_run (claimLabelCapped_takes_free hvalid hfree huser hcap) faults).2 hclear

theorem claimInsert_errors {P : RegistryError → Prop} (htaken : P (.labelTaken l)) (hdb : ∀ e, P (.db e)) :
    Post (fun res _ => ∀ e, res = .error e → P e) (claimInsert now u l) db (some db) := by
  refine ⟨fun e => ?_, fun id db' hins => ?_⟩
  · cases e <;> rintro _ ⟨⟩
    all_goals first | exact htaken | exact hdb _
  · refine (post_commit _).2 ⟨?_, nofun⟩
    rintro e _ ⟨⟩
    exact hdb e

/-- The errors of `claim_label_capped`. -/
inductive ClaimError (db : Db) (u : Int) (l : String) (max : Option Int) : RegistryError → Prop where
  | taken : ClaimError db u l max (.labelTaken l)
  | capExceeded (hfree : db.labelOwner l = none) {m : Int} (hm : m ∈ max) (hle : m ≤ db.countOwned u) :
    ClaimError db u l max .capExceeded
  | db (e : SqlError) : ClaimError db u l max (.db e)

theorem claimLabelCapped_errors (hvalid : validateLabel l = .ok ()) :
    Post (fun res _ => ∀ e, res = .error e → ClaimError db u l max e) (claimLabelCapped now u l max) db
      none := by
  have hdb : ∀ e, ∀ e', (.error (.db e) : Except RegistryError Bool) = .error e' →
      ClaimError db u l max e' := by
    rintro e _ ⟨⟩
    exact .db e
  have hinsert := @claimInsert_errors db u now l (ClaimError db u l max) .taken .db
  unfold claimLabelCapped
  rw [hvalid]
  refine (post_begin _).2 ⟨hdb, (post_query _ _).2 ⟨hdb, ?_⟩⟩
  rw [Option.getD_some]
  cases howner : db.labelOwner l with
  | some owner =>
    dsimp only
    split
    · exact nofun
    · rintro _ ⟨⟩
      exact .taken
  | none =>
    cases max with
    | none => exact hinsert
    | some m =>
      refine (post_query _ _).2 ⟨hdb, ?_⟩
      rw [Option.getD_some]
      split
      · rename_i hle
        rintro _ ⟨⟩
        exact .capExceeded howner rfl hle
      · exact hinsert

theorem claimLabelCapped_capExceeded_iff (hvalid : validateLabel l = .ok ()) :
    (run faults (claimLabelCapped now u l max) db).1 = .error .capExceeded ↔
      db.labelOwner l = none ∧ (∃ m ∈ max, m ≤ db.countOwned u) ∧ Clear faults 3 := by
  have hends : ∀ m ∈ max, m ≤ db.countOwned u → db.labelOwner l = none →
      Txn.Ends (· = .error .capExceeded) 3 (claimLabelCapped now u l max) db none := by
    rintro m ⟨⟩ hle hfree
    unfold claimLabelCapped
    rw [hvalid]
    refine ends_begin nofun (ends_query nofun ?_)
    rw [Option.getD_some, hfree]
    refine ends_query nofun ?_
    rw [Option.getD_some, if_pos hle]
    exact ends_ret rfl
  constructor
  · intro h
    cases post_run (claimLabelCapped_errors hvalid) faults _ h with
    | capExceeded hfree hm hle => exact ⟨hfree, ⟨_, hm, hle⟩, (ends_run (hends _ hm hle hfree) faults).1 h⟩
  · rintro ⟨hfree, ⟨m, hm, hle⟩, hclear⟩
    exact (ends_run (hends m hm hle hfree) faults).2 hclear

end program

/-! ### Names of a request -/

section hosts

variable (domain : String) (db : Db) (u : Int)

/-- The account has the name, or the claim has it before. -/
def Claimed (earlier : List String) (host : String) : Prop :=
  db.owns domain u (.host host) = true ∨ host ∈ earlier

/-- No account has the name, and the claim does not have it before. -/
def Unclaimed (earlier : List String) (host : String) : Prop :=
  host ∉ earlier ∧ ∀ l ∈ labelOf domain host, l ∉ db.hostnames.map (·.label)

/-- What the account has, with the earlier names of the claim. -/
def countWith (earlier : List String) : Int :=
  db.countOwned u + (earlier.toFinset.filter fun h => db.owns domain u (.host h) = false).card

/-- The hostname loop goes on after this name. -/
def HostPasses (cap : Option Int) (io : HostIo) (earlier : List String) (host : String) : Prop :=
  (labelOf domain host).isSome ∧
    -- a name that is the account's needs no more than to be looked up
    (Claimed domain db u earlier host ∧ Clear io.faults 2 ∨
      Unclaimed domain db earlier host ∧ u ∈ db.users.map (·.id) ∧
        (∀ m ∈ cap, countWith domain db u earlier < m) ∧ Clear io.faults (if cap.isSome then 5 else 4))

/-- The hostname loop stops at this name, for the cap. -/
def HostOverCap (cap : Option Int) (io : HostIo) (earlier : List String) (host : String) : Prop :=
  (labelOf domain host).isSome ∧ Unclaimed domain db earlier host ∧
    (∃ m ∈ cap, m ≤ countWith domain db u earlier) ∧ Clear io.faults 3

variable {domain db u} {cap : Option Int} {io : HostIo} {host : String}

theorem countWith_nil : countWith domain db u [] = db.countOwned u := by
  simp [countWith]

/-- `claim_hostname` on the registry of the moment. -/
theorem claimHostname_cases {l : String} (hl : labelOf domain host = some l) :
    ((Registry.claimHostname io.faults db domain io.now u host cap).1 = .owned ↔
      HostPasses domain db u cap io [] host) ∧
    ((Registry.claimHostname io.faults db domain io.now u host cap).1 = .capExceeded ↔
      HostOverCap domain db u cap io [] host) ∧
    ∀ why, (Registry.claimHostname io.faults db domain io.now u host cap).1 ≠ .invalid why := by
  have hvalid := (labelOf_eq_some.1 hl).2
  have hok := @claimLabelCapped_ok_iff db u io.now l cap io.faults hvalid
  have hover := @claimLabelCapped_capExceeded_iff db u io.now l cap io.faults hvalid
  have herrors := post_run (@claimLabelCapped_errors db u io.now l cap hvalid) io.faults
  have hpasses : HostPasses domain db u cap io [] host ↔
      ∃ b, (run io.faults (claimLabelCapped io.now u l cap) db).1 = .ok b := by
    rw [hok]
    simp [HostPasses, Claimed, Unclaimed, countWith_nil, Db.owns, hl]
  have hcapped : HostOverCap domain db u cap io [] host ↔
      (run io.faults (claimLabelCapped io.now u l cap) db).1 = .error .capExceeded := by
    rw [hover, Db.labelOwner_eq_none]
    simp [HostOverCap, Unclaimed, countWith_nil, hl]
  rw [hpasses, hcapped, Registry.claimHostname, hl]
  dsimp only
  generalize run io.faults (claimLabelCapped io.now u l cap) db = r at herrors ⊢
  obtain ⟨e | b, db'⟩ := r
  · cases herrors e rfl <;> simp
  · simp

/-- `db'` is `db` with the name in the account's hands, as far as the rest of the claim can tell. -/
structure Passed (domain : String) (u : Int) (host : String) (db db' : Db) : Prop where
  owns : ∀ h, db'.owns domain u (.host h) = true ↔ db.owns domain u (.host h) = true ∨ h = host
  free : ∀ h l, labelOf domain h = some l →
    (l ∉ db'.hostnames.map (·.label) ↔ h ≠ host ∧ l ∉ db.hostnames.map (·.label))
  count : db'.countOwned u = db.countOwned u + if db.owns domain u (.host host) = true then 0 else 1
  users : db'.users = db.users

theorem HostEffect.passed {db' : Db} (h : HostEffect domain db u host cap (.ok ()) db') :
    Passed domain u host db db' := by
  cases h with
  | already hl hown =>
    have howns : db.owns domain u (.host host) = true := Db.owns_host_iff.2 ⟨_, hl, hown⟩
    refine ⟨fun h => ⟨Or.inl, ?_⟩, fun h l' hl' => ⟨fun hfree => ⟨?_, hfree⟩, And.right⟩, ?_, rfl⟩
    · rintro (hh | rfl)
      · exact hh
      · exact howns
    · rintro rfl
      obtain ⟨r, hr, hrl, -⟩ := Db.hasLabel_iff.1 hown
      rw [hl, Option.some.injEq] at hl'
      exact hfree (List.mem_map.2 ⟨r, hr, hrl.trans hl'⟩)
    · rw [if_pos howns, add_zero]
  | inserted hl hins hcap =>
    rename_i l
    have hnew : ¬ db.owns domain u (.host host) = true := by
      intro howns
      obtain ⟨l', hl', hown⟩ := Db.owns_host_iff.1 howns
      obtain ⟨r, hr, hrl, -⟩ := Db.hasLabel_iff.1 hown
      rw [hl, Option.some.injEq] at hl'
      exact hins.free (List.mem_map.2 ⟨r, hr, hrl.trans hl'.symm⟩)
    refine ⟨fun h => ?_, fun h l' hl' => ?_, ?_, ?_⟩
    · rw [hins.owns hl]
      simp
    · obtain ⟨id, now, hrow⟩ := hins.hostnames
      have hname : l' = l ↔ h = host := by
        rw [(labelOf_eq_some.1 hl).1, (labelOf_eq_some.1 hl').1]
        exact (fqdn_injective domain).eq_iff.symm
      rw [hrow, List.map_append, List.mem_append, not_or, List.map_singleton, List.mem_singleton, hname,
        and_comm]
    · rw [hins.countOwned, if_pos rfl, if_neg hnew]
    · obtain ⟨id, now, hrow⟩ := hins.row
      rw [hrow]

section passed

variable {db' : Db} {earlier : List String} {next : String}

theorem Passed.claimed (h : Passed domain u host db db') :
    Claimed domain db' u earlier next ↔ Claimed domain db u (host :: earlier) next := by
  rw [Claimed, Claimed, h.owns, List.mem_cons, or_assoc]

theorem Passed.unclaimed (h : Passed domain u host db db') (hlabel : (labelOf domain next).isSome) :
    Unclaimed domain db' earlier next ↔ Unclaimed domain db (host :: earlier) next := by
  obtain ⟨l, hl⟩ := Option.isSome_iff_exists.1 hlabel
  simp only [Unclaimed, hl, Option.mem_some_iff, forall_eq', h.free next l hl, List.mem_cons, not_or]
  tauto

theorem Passed.countWith (h : Passed domain u host db db') :
    EtherTunnel.countWith domain db' u earlier = EtherTunnel.countWith domain db u (host :: earlier) := by
  have hnew : ∀ h', db'.owns domain u (.host h') = false ↔
      db.owns domain u (.host h') = false ∧ h' ≠ host := by
    intro h'
    rw [← Bool.not_eq_true, h.owns, not_or, Bool.not_eq_true]
  have hfilter : (earlier.toFinset.filter fun h' => db'.owns domain u (.host h') = false) =
      (earlier.toFinset.filter fun h' => db.owns domain u (.host h') = false).erase host := by
    ext h'
    simp only [Finset.mem_filter, Finset.mem_erase, hnew]
    tauto
  rw [EtherTunnel.countWith, EtherTunnel.countWith, h.count, hfilter, List.toFinset_cons]
  by_cases howns : db.owns domain u (.host host) = true
  · have hskip : host ∉ earlier.toFinset.filter fun h' => db.owns domain u (.host h') = false := by
      simp [howns]
    rw [if_pos howns, Finset.filter_insert, if_neg (by simp [howns]), Finset.erase_eq_of_notMem hskip,
      add_zero]
  · rw [if_neg howns, Finset.filter_insert, if_pos (Bool.eq_false_iff.2 howns),
      ← Finset.erase_insert_eq_erase, ← Finset.card_erase_add_one (Finset.mem_insert_self host _)]
    push_cast
    omega

/-- After a name has passed, the next is judged as before, with that name among the earlier ones. -/
theorem Passed.hostPasses (h : Passed domain u host db db') :
    HostPasses domain db' u cap io earlier next ↔ HostPasses domain db u cap io (host :: earlier) next := by
  refine and_congr_right fun hlabel => ?_
  rw [h.claimed, h.unclaimed hlabel, h.countWith, h.users]

theorem Passed.hostOverCap (h : Passed domain u host db db') :
    HostOverCap domain db' u cap io earlier next ↔ HostOverCap domain db u cap io (host :: earlier) next := by
  refine and_congr_right fun hlabel => ?_
  rw [h.unclaimed hlabel, h.countWith]

end passed

end hosts

end EtherTunnel
