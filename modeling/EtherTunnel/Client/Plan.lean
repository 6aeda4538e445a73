import EtherTunnel.Client.Control
import EtherTunnel.Session.Claim

/-!
# The plan line

`etun list` and `etun add` end with one line about the plan, computed by the client from the relay's reply to
`ListOwned`. The relay enforces the cap elsewhere, in `handle_claim`: once on what is routed, before any name
is registered, and once on what is owned, in the transaction that registers a name.

| here | there |
| --- | --- |
| `OwnedSet.planNote`, `PlanNote.text`, `planLine` | `plan_line` (`client/src/commands.rs:126`) |
| `ClaimPath` | the ways through `handle_claim` (`session.rs:588`), with the check that ended it |

`plan_line_foretells` is that the two agree: what the line says about the next claim is what the relay does.
-/

namespace EtherTunnel

/-! ## The client's line -/

inductive PlanNote where
  | inactive
  | full (used : Nat) (cap : Int64)
  | within (used : Nat) (cap : Int64)
deriving DecidableEq

def PlanNote.text : PlanNote → String
  | .inactive =>
    "Plan: your subscription does not permit active tunnels. `etun up` will be rejected until you resubscribe."
  | .full used cap =>
    "Plan: " ++ toString used ++ "/" ++ toString cap ++ " tunnels used — at your limit. `etun up` will reject " ++
      "new tunnels until you upgrade or `etun release` one."
  | .within used cap => "Plan: " ++ toString used ++ "/" ++ toString cap ++ " tunnels used."

/-- `cap as usize` wraps a negative number. -/
def OwnedSet.planNote (owned : OwnedSet) : Option PlanNote :=
  match owned.maxTunnels with
  | none => none
  | some cap =>
    if cap = 0 then some .inactive
    else if cap.toUInt64.toNat ≤ owned.used then some (.full owned.used cap)
    else some (.within owned.used cap)

def planLine (owned : OwnedSet) : Option String := owned.planNote.map PlanNote.text

/-! ## The registry's refusal for the cap -/

section refusals

variable {ctx : SessionCtx} {db : Db} {u : Int}

open Txn in
theorem claimInsert_uncapped (now : Int) (label : String) :
    Post (fun res _ => res ≠ .error .capExceeded) (claimInsert now u label) db (some db) := by
  refine ⟨fun e => ?_, fun id db' _ => (post_commit _).2 ⟨fun e => nofun, nofun⟩⟩
  cases e <;> exact nofun

open Txn in
/-- A name is refused for the cap when it is nobody's and the user is at the cap. -/
theorem claimLabelCapped_capExceeded (db : Db) (u now : Int) (label : String) (max : Option Int) :
    Post (fun res _ => res = .error .capExceeded →
        db.labelOwner label = none ∧ ∃ m ∈ max, m ≤ db.countOwned u)
      (claimLabelCapped now u label max) db none := by
  have hinsert : Post (fun res _ => res = .error .capExceeded →
      db.labelOwner label = none ∧ ∃ m ∈ max, m ≤ db.countOwned u) (claimInsert now u label) db (some db) :=
    (claimInsert_uncapped now label).mono fun _ _ hne heq => absurd heq hne
  unfold claimLabelCapped
  split
  · exact nofun
  · refine (post_begin _).2 ⟨fun e => nofun, (post_query _ _).2 ⟨fun e => nofun, ?_⟩⟩
    simp only [Option.getD_some]
    split
    · split <;> exact nofun
    · rename_i hown
      split
      · rename_i m
        refine (post_query _ _).2 ⟨fun e => nofun, ?_⟩
        simp only [Option.getD_some]
        split
        · exact fun _ => ⟨hown, m, rfl, by assumption⟩
        · exact hinsert
      · exact hinsert

theorem claimHost_limitExceeded {io : HostIo} {host why : String} {cap : Option Int}
    (h : (ctx.claimHost io db u host cap).1 = .error (.limitExceeded, why)) :
    db.owns ctx.domain u (.host host) = false ∧ ∃ m ∈ cap, m ≤ db.countOwned u := by
  unfold SessionCtx.claimHost Registry.claimHostname at h
  cases hl : labelOf ctx.domain host with
  | none =>
    rw [hl] at h
    cases h
  | some l =>
    have hpost := Txn.post_run (claimLabelCapped_capExceeded db u io.now l cap) io.faults
    rw [hl] at h
    dsimp only at h
    generalize Txn.run io.faults (claimLabelCapped io.now u l cap) db = r at h hpost
    obtain ⟨e | b, db'⟩ := r
    · cases e with
      | capExceeded =>
        obtain ⟨hnone, hfull⟩ := hpost rfl
        refine ⟨?_, hfull⟩
        rw [← Bool.not_eq_true, Db.owns_host_iff]
        rintro ⟨l', hl', hown⟩
        rw [hl] at hl'
        cases hl'
        rw [Db.labelOwner_eq_some.2 hown] at hnone
        cases hnone
      | _ => cases h
    · cases h

/-- The names of a request that the user would have to register. -/
def SessionCtx.newNames (ctx : SessionCtx) (db : Db) (u : Int) (hosts : List String) : Finset String :=
  (hosts.filter fun h => !db.owns ctx.domain u (.host h)).toFinset

theorem mem_newNames {hosts : List String} {h : String} :
    h ∈ ctx.newNames db u hosts ↔ h ∈ hosts ∧ db.owns ctx.domain u (.host h) = false := by
  simp [SessionCtx.newNames]

/-- Registering one name uses up one of the new names. -/
theorem HostEffect.newNames {host : String} {rest : List String} {cap : Option Int} {mid : Db}
    (h : HostEffect ctx.domain db u host cap (.ok ()) mid) :
    mid.countOwned u + (ctx.newNames mid u rest).card ≤
      db.countOwned u + (ctx.newNames db u (host :: rest)).card := by
  cases h with
  | already hl hown =>
    have hsub : ctx.newNames db u rest ⊆ ctx.newNames db u (host :: rest) := fun x hx =>
      mem_newNames.2 ⟨List.mem_cons_of_mem _ (mem_newNames.1 hx).1, (mem_newNames.1 hx).2⟩
    have hcard := Finset.card_le_card hsub
    omega
  | inserted hl hins hcap =>
    have hnew : host ∈ ctx.newNames db u (host :: rest) := by
      refine mem_newNames.2 ⟨List.mem_cons_self, ?_⟩
      rw [← Bool.not_eq_true, Db.owns_host_iff]
      rintro ⟨l', hl', hown⟩
      rw [hl] at hl'
      cases hl'
      obtain ⟨r, hr, hlabel, -⟩ := Db.hasLabel_iff.1 hown
      exact hins.free (List.mem_map.2 ⟨r, hr, hlabel⟩)
    have hsub : ctx.newNames mid u rest ⊆ (ctx.newNames db u (host :: rest)).erase host := by
      intro x hx
      obtain ⟨hmem, hnot⟩ := mem_newNames.1 hx
      rw [← Bool.not_eq_true, hins.owns hl, not_or, Bool.not_eq_true] at hnot
      exact Finset.mem_erase.2 ⟨fun heq => hnot.2 ⟨rfl, congrArg _ heq⟩,
        mem_newNames.2 ⟨List.mem_cons_of_mem _ hmem, hnot.1⟩⟩
    have hcard := Finset.card_le_card hsub
    have hpos := Finset.card_pos.2 ⟨host, hnew⟩
    rw [Finset.card_erase_of_mem hnew] at hcard
    have hcount : mid.countOwned u = db.countOwned u + 1 := by rw [hins.countOwned, if_pos rfl]
    omega

/-- Within the cap, no name is refused for it. -/
theorem claimHosts_within (cap : Option Int) : ∀ (hosts : List String) (io : Nat → HostIo) (db : Db),
    (∀ m ∈ cap, db.countOwned u + (ctx.newNames db u hosts).card ≤ m) →
    ∀ why, (ctx.claimHosts u cap io db hosts).1 ≠ .error (.limitExceeded, why)
  | [], io, db, _, why => nofun
  | host :: rest, io, db, hroom, why => by
    have heff := claimHost_effect ctx (io 0) db u host cap
    unfold SessionCtx.claimHosts
    rcases hone : ctx.claimHost (io 0) db u host cap with ⟨e | _, mid⟩
    · rintro ⟨⟩
      obtain ⟨hnot, m, hm, hfull⟩ := claimHost_limitExceeded (congrArg Prod.fst hone)
      have hnew : host ∈ ctx.newNames db u (host :: rest) := mem_newNames.2 ⟨List.mem_cons_self, hnot⟩
      have hpos := Finset.card_pos.2 ⟨host, hnew⟩
      have := hroom m hm
      omega
    · rw [hone] at heff
      exact claimHosts_within cap rest _ mid (fun m hm => heff.newNames.trans (hroom m hm)) why

/-- At the cap, only names that the user has already go through. -/
theorem claimHosts_full {m : Int} : ∀ (hosts : List String) (io : Nat → HostIo) (db : Db),
    m ≤ db.countOwned u → (ctx.claimHosts u (some m) io db hosts).1 = .ok () →
    ∀ h ∈ hosts, db.owns ctx.domain u (.host h) = true
  | [], io, db, _, _ => nofun
  | host :: rest, io, db, hfull, hok => by
    have heff := claimHost_effect ctx (io 0) db u host (some m)
    unfold SessionCtx.claimHosts at hok
    rcases hone : ctx.claimHost (io 0) db u host (some m) with ⟨e | _, mid⟩
    · rw [hone] at hok
      cases hok
    · rw [hone] at heff hok
      cases heff with
      | already hl hown =>
        intro h hh
        rcases List.mem_cons.1 hh with rfl | hh
        · exact Db.owns_host_iff.2 ⟨_, hl, hown⟩
        · exact claimHosts_full rest _ mid hfull hok h hh
      | inserted hl hins hcap => exact absurd (hcap m rfl) (by omega)

end refusals

/-! ## The ways through a claim -/

section paths

variable (ctx : SessionCtx) (io : ClaimIo) (relay : Relay) (user : AuthedUser) (token : String)
  (hosts : List String) (ports : List UInt16)

/-- The reply of a claim, with the check that decided it. -/
inductive ClaimPath : ControlFrame → Prop where
  /-- Too many entries, or a port that is not to be had. -/
  | barred (why : Refusal) (h : why.1 ≠ .limitExceeded) : ClaimPath why.frame
  | gated (why : Refusal) (hports : ∀ p ∈ ports, relay.db.hasPort user.userId p = true)
      (h : (ctx.claimGate io.gate relay user token hosts ports).1 = .error why) : ClaimPath why.frame
  | refused (why : Refusal) {cap : Option Int}
      (hgate : (ctx.claimGate io.gate relay user token hosts ports).1 = .ok cap)
      (h : (ctx.claimHosts user.userId cap io.hosts relay.db hosts).1 = .error why) : ClaimPath why.frame
  | granted {cap : Option Int} (hgate : (ctx.claimGate io.gate relay user token hosts ports).1 = .ok cap)
      (h : (ctx.claimHosts user.userId cap io.hosts relay.db hosts).1 = .ok ()) :
      ClaimPath (.granted hosts ports)

variable {ctx io relay user token hosts ports}

theorem checkPort_error {faults : Faults} {db : Db} {u : Int} {port : UInt16} {why : Refusal}
    (h : ctx.checkPort faults db u port = .error why) : why.1 = .portNotReserved := by
  unfold SessionCtx.checkPort at h
  split at h
  · cases h
    rfl
  · split at h
    · cases h
      rfl
    · cases h

theorem claimPorts_error : ∀ {ports : List UInt16} {io : Nat → PortIo} {net : Net} {why : Refusal} {u : Int},
    (ctx.claimPorts u io net ports).1 = .error why → why.1 = .portNotReserved ∨ why.1 = .portUnavailable
  | [], io, net, why, u, h => by cases h
  | port :: rest, io, net, why, u, h => by
    unfold SessionCtx.claimPorts at h
    cases hcheck : ctx.checkPort (io 0).faults net.db u port with
    | error why' =>
      rw [hcheck] at h
      cases h
      exact .inl (checkPort_error hcheck)
    | ok _ =>
      rw [hcheck] at h
      dsimp only at h
      rcases hbind : ensureBound net.bound port (io 0).bind with ⟨e | _, bound⟩
      · rw [hbind] at h
        cases h
        exact .inr rfl
      · rw [hbind] at h
        exact claimPorts_error h

/-- The gate looks at the cache and the routes. -/
theorem claimGate_toNet {net : Net} (h : net.toLive = relay.toLive) :
    (ctx.claimGate io.gate { relay with toNet := net } user token hosts ports).1 =
        (ctx.claimGate io.gate relay user token hosts ports).1 ∧
      (ctx.claimGate io.gate { relay with toNet := net } user token hosts ports).2.db = relay.db := by
  have hrouter : net.router = relay.router := congrArg Live.router h
  have hdb : net.db = relay.db := congrArg Live.db h
  unfold SessionCtx.claimGate
  cases ctx.polar with
  | none => exact ⟨rfl, hdb⟩
  | some gate =>
    dsimp only
    rcases gate.ensureActivated io.gate.activate relay.cache token with ⟨why | _, cache⟩
    · exact ⟨rfl, hdb⟩
    · exact ⟨by rw [hrouter], hdb⟩

theorem handleClaim_path (handle : SessionHandle) (hostnames : List String) :
    ClaimPath ctx io relay user token (hostnames.map toAsciiLowercase) ports
      (ctx.handleClaim io relay handle user token hostnames ports).1 := by
  unfold SessionCtx.handleClaim
  split
  · exact .barred _ nofun
  · obtain ⟨hlive, -, hports⟩ := claimPorts_spec ctx user.userId ports io.ports relay.toNet
    dsimp only
    rcases hcp : ctx.claimPorts user.userId io.ports relay.toNet ports with ⟨why | _, net⟩
    · refine .barred why ?_
      rcases claimPorts_error (congrArg Prod.fst hcp) with hwhy | hwhy <;> rw [hwhy] <;> decide
    · rw [hcp] at hlive hports
      obtain ⟨hgate, hdb⟩ := @claimGate_toNet ctx io relay user token (hostnames.map toAsciiLowercase) ports
        net hlive
      have hown : ∀ p ∈ ports, relay.db.hasPort user.userId p = true := fun p hp => (hports rfl p hp).2.1
      dsimp only
      rcases hcg : ctx.claimGate io.gate { relay with toNet := net } user token
        (hostnames.map toAsciiLowercase) ports with ⟨why | cap, mid⟩
      · rw [hcg] at hgate
        exact .gated why hown hgate.symm
      · rw [hcg] at hgate hdb
        dsimp only at hdb ⊢
        rw [hdb]
        rcases hch : ctx.claimHosts user.userId cap io.hosts relay.db (hostnames.map toAsciiLowercase)
          with ⟨why | _, db⟩
        · exact .refused why hgate.symm (congrArg Prod.fst hch)
        · exact .granted hgate.symm (congrArg Prod.fst hch)

/-! ## The count before the names are registered -/

theorem mem_ownedHostnames_of_owns {domain : String} {db : Db} {u : Int} {h : String}
    (hown : db.owns domain u (.host h) = true) : h ∈ Registry.ownedHostnames [] db domain u := by
  obtain ⟨l, hl, hlabel⟩ := Db.owns_host_iff.1 hown
  obtain ⟨r, hr, rfl, hu⟩ := Db.hasLabel_iff.1 hlabel
  exact mem_ownedHostnames.2 ⟨r, hr, hu, (labelOf_eq_some.1 hl).1.symm⟩

/-- Where a user's routes are for what they own, the routes and a request together are at most what they own
and the names that are new. -/
theorem projectedTunnelCount_le
    (hrouted : ∀ x handle, relay.router.get x = some handle → handle.userId = user.userId →
      relay.db.owns ctx.domain user.userId x = true)
    (hports : ∀ p ∈ ports, relay.db.hasPort user.userId p = true) :
    (relay.router.inner.projectedTunnelCount user.userId hosts ports : Int) ≤
      relay.db.countOwned user.userId + (ctx.newNames relay.db user.userId hosts).card := by
  have hnames : (relay.router.inner.http.keys.filter fun h =>
      (relay.router.inner.http.lookup h).any (·.userId == user.userId)) ∪ hosts.toFinset ⊆
      (Registry.ownedHostnames [] relay.db ctx.domain user.userId).toFinset ∪
        ctx.newNames relay.db user.userId hosts := by
    intro h hh
    rw [Finset.mem_union, List.mem_toFinset]
    rcases Finset.mem_union.1 hh with hh | hh
    · obtain ⟨handle, hget, huser⟩ := (Option.any_eq_true _ _).1 (Finset.mem_filter.1 hh).2
      exact .inl (mem_ownedHostnames_of_owns (hrouted (.host h) handle hget (beq_iff_eq.1 huser)))
    · cases hown : relay.db.owns ctx.domain user.userId (.host h) with
      | true => exact .inl (mem_ownedHostnames_of_owns hown)
      | false => exact .inr (mem_newNames.2 ⟨List.mem_toFinset.1 hh, hown⟩)
  have hnumbers : (relay.router.inner.tcp.keys.filter fun p =>
      (relay.router.inner.tcp.lookup p).any (·.userId == user.userId)) ∪ ports.toFinset ⊆
      (Registry.ownedPorts [] relay.db user.userId).toFinset := by
    intro p hp
    rw [List.mem_toFinset, mem_ownedPorts]
    rcases Finset.mem_union.1 hp with hp | hp
    · obtain ⟨handle, hget, huser⟩ := (Option.any_eq_true _ _).1 (Finset.mem_filter.1 hp).2
      exact hrouted (.port p) handle hget (beq_iff_eq.1 huser)
    · exact hports p (List.mem_toFinset.1 hp)
  have h1 := (Finset.card_le_card hnames).trans (Finset.card_union_le _ _)
  have h2 := Finset.card_le_card hnumbers
  have h3 := List.toFinset_card_le (Registry.ownedHostnames [] relay.db ctx.domain user.userId)
  have h4 := List.toFinset_card_le (Registry.ownedPorts [] relay.db user.userId)
  have h5 := length_owned ctx.domain relay.db user.userId
  unfold RouterInner.projectedTunnelCount
  dsimp only
  omega

end paths

/-! ## The line and the next claim -/

/-- A refusal for the plan. -/
def ControlFrame.PlanRefusal (reply : ControlFrame) : Prop := ∃ why, reply = .denied .limitExceeded why

section standing

variable (ctx : SessionCtx) (user : AuthedUser)

/-- The cap and the number of resources are at the claim what they were at the list. A cap is an `i64`. -/
structure SameStanding (listed : Relay) (turn : TurnIo) (later : Relay) (gate : GateIo) : Prop where
  cap : ∀ g ∈ ctx.polar, g.capFor later.cache user.name gate.now gate.capFails =
    g.capFor listed.cache user.name turn.now turn.capFails
  bits : ∀ g ∈ ctx.polar, ∀ m, g.capFor listed.cache user.name turn.now turn.capFails = .cap m →
    m ≤ Int64.maxValue.toInt
  used : later.db.countOwned user.userId = listed.db.countOwned user.userId

/-- Nothing but the plan stands in the way: the key is activated, and what is routed to the user is theirs. -/
structure OnlyPlan (later : Relay) (gate : GateIo) (token : String) : Prop where
  activated : ∀ g ∈ ctx.polar, (g.ensureActivated gate.activate later.cache token).1 = .ok ()
  routed : ∀ x handle, later.router.get x = some handle → handle.userId = user.userId →
    later.db.owns ctx.domain user.userId x = true

/-- What each line means for a claim of these names and ports that is answered with `reply`. -/
def Foretells (later : Relay) (gate : GateIo) (token : String) (hosts : List String) (ports : List UInt16)
    (reply : ControlFrame) : Option PlanNote → Prop
  | none => OnlyPlan ctx user later gate token → ¬ reply.PlanRefusal
  | some .inactive => hosts ≠ [] ∨ ports ≠ [] → reply ≠ .granted hosts ports
  | some (.full _ _) => reply = .granted hosts ports →
      ∀ h ∈ hosts, later.db.owns ctx.domain user.userId (.host h) = true
  | some (.within used cap) => OnlyPlan ctx user later gate token →
      used + (ctx.newNames later.db user.userId hosts).card ≤ cap.toInt → ¬ reply.PlanRefusal

variable {ctx user} {later : Relay} {io : ClaimIo} {token : String} {hosts : List String} {ports : List UInt16}
  {reply : ControlFrame}

theorem claimGate_eq {gate : PolarGate} (hpolar : ctx.polar = some gate) {decision : CapDecision}
    (hcap : gate.capFor later.cache user.name io.gate.now io.gate.capFails = decision) :
    (∃ why, (gate.ensureActivated io.gate.activate later.cache token).1 = .error why ∧
      (ctx.claimGate io.gate later user token hosts ports).1 = .error (.limitExceeded, why)) ∨
    (ctx.claimGate io.gate later user token hosts ports).1 =
      SessionCtx.capCheck decision later.router user.userId hosts ports := by
  have hkeep := capFor_ensureActivated gate io.gate.activate later.cache token user.name io.gate.now
    io.gate.capFails
  unfold SessionCtx.claimGate
  rw [hpolar]
  dsimp only
  rcases hact : gate.ensureActivated io.gate.activate later.cache token with ⟨why | _, cache⟩
  · exact .inl ⟨why, rfl, rfl⟩
  · rw [hact] at hkeep
    dsimp only at hkeep ⊢
    rw [hkeep, hcap]
    exact .inr rfl

/-- No refusal for the plan, if the gate lets the claim through with room for its names. -/
theorem ClaimPath.no_refusal (h : ClaimPath ctx io later user token hosts ports reply)
    (hgate : (∀ p ∈ ports, later.db.hasPort user.userId p = true) →
      ∀ why, (ctx.claimGate io.gate later user token hosts ports).1 ≠ .error why)
    (hroom : ∀ cap, (ctx.claimGate io.gate later user token hosts ports).1 = .ok cap → ∀ m ∈ cap,
      later.db.countOwned user.userId + (ctx.newNames later.db user.userId hosts).card ≤ m) :
    ¬ reply.PlanRefusal := by
  rintro ⟨text, htext⟩
  cases h with
  | barred why hne =>
    obtain ⟨code, text'⟩ := why
    cases htext
    exact hne rfl
  | gated why hports herr => exact hgate hports why herr
  | refused why hok herr =>
    obtain ⟨code, text'⟩ := why
    cases htext
    exact claimHosts_within _ hosts io.hosts later.db (hroom _ hok) text' herr
  | granted => cases htext

theorem ClaimPath.granted_gate (h : ClaimPath ctx io later user token hosts ports (.granted hosts ports)) :
    ∃ cap, (ctx.claimGate io.gate later user token hosts ports).1 = .ok cap ∧
      (ctx.claimHosts user.userId cap io.hosts later.db hosts).1 = .ok () := by
  generalize hreply : ControlFrame.granted hosts ports = reply at h
  cases h with
  | barred | gated | refused => cases hreply
  | granted hgate hhosts => exact ⟨_, hgate, hhosts⟩

theorem foretells_uncapped (h : ClaimPath ctx io later user token hosts ports reply)
    (hfree : ∀ g ∈ ctx.polar, g.capFor later.cache user.name io.gate.now io.gate.capFails = .allow) :
    Foretells ctx user later io.gate token hosts ports reply none := by
  intro honly
  have hgate : (ctx.claimGate io.gate later user token hosts ports).1 = .ok none := by
    cases hpolar : ctx.polar with
    | none => rw [SessionCtx.claimGate, hpolar]
    | some g =>
      rcases claimGate_eq hpolar (hfree g hpolar) with ⟨why, hno, -⟩ | hcheck
      · rw [honly.activated g hpolar] at hno
        cases hno
      · rw [hcheck]
        rfl
  refine h.no_refusal (fun _ why herr => ?_) fun cap hok m hm => ?_
  · rw [hgate] at herr
    cases herr
  · rw [hgate] at hok
    cases hok
    cases hm

theorem foretells_inactive {g : PolarGate} (h : ClaimPath ctx io later user token hosts ports reply)
    (hpolar : ctx.polar = some g)
    (hcap : g.capFor later.cache user.name io.gate.now io.gate.capFails = .denyAll ∨
      ∃ m ≤ 0, g.capFor later.cache user.name io.gate.now io.gate.capFails = .cap m) :
    Foretells ctx user later io.gate token hosts ports reply (some .inactive) := by
  rintro hsome rfl
  obtain ⟨cap, hok, -⟩ := h.granted_gate
  obtain ⟨decision, hdecision⟩ : ∃ d, g.capFor later.cache user.name io.gate.now io.gate.capFails = d := ⟨_, rfl⟩
  rcases claimGate_eq hpolar hdecision with ⟨why, -, herr⟩ | hcheck
  · rw [hok] at herr
    cases herr
  rw [hok] at hcheck
  rcases hcap with hdeny | ⟨m, hm, hcapped⟩
  · rw [← hdecision, hdeny] at hcheck
    cases hcheck
  · rw [← hdecision, hcapped, SessionCtx.capCheck] at hcheck
    split at hcheck
    · cases hcheck
    · rename_i hcount
      unfold RouterInner.projectedTunnelCount at hcount
      dsimp only at hcount
      rcases hsome with hne | hne
      · obtain ⟨x, hx⟩ := List.exists_mem_of_ne_nil _ hne
        have hpos := Finset.card_pos.2 ⟨x, Finset.mem_union_right
          (later.router.inner.http.keys.filter fun h =>
            (later.router.inner.http.lookup h).any (·.userId == user.userId)) (List.mem_toFinset.2 hx)⟩
        omega
      · obtain ⟨x, hx⟩ := List.exists_mem_of_ne_nil _ hne
        have hpos := Finset.card_pos.2 ⟨x, Finset.mem_union_right
          (later.router.inner.tcp.keys.filter fun p =>
            (later.router.inner.tcp.lookup p).any (·.userId == user.userId)) (List.mem_toFinset.2 hx)⟩
        omega

theorem foretells_full {g : PolarGate} {m : Int} {used : Nat} {cap : Int64}
    (h : ClaimPath ctx io later user token hosts ports reply) (hpolar : ctx.polar = some g)
    (hcap : g.capFor later.cache user.name io.gate.now io.gate.capFails = .cap m)
    (hfull : m ≤ later.db.countOwned user.userId) :
    Foretells ctx user later io.gate token hosts ports reply (some (.full used cap)) := by
  rintro rfl
  obtain ⟨cap, hok, hhosts⟩ := h.granted_gate
  rcases claimGate_eq hpolar hcap with ⟨why, -, herr⟩ | hcheck
  · rw [hok] at herr
    cases herr
  rw [hok, SessionCtx.capCheck] at hcheck
  split at hcheck
  · cases hcheck
  · cases hcheck
    exact claimHosts_full hosts io.hosts later.db hfull hhosts

theorem foretells_within {g : PolarGate} {m : Int} {used : Nat} {cap : Int64}
    (h : ClaimPath ctx io later user token hosts ports reply) (hpolar : ctx.polar = some g)
    (hcap : g.capFor later.cache user.name io.gate.now io.gate.capFails = .cap m)
    (hused : (used : Int) = later.db.countOwned user.userId) (hm : cap.toInt = m) :
    Foretells ctx user later io.gate token hosts ports reply (some (.within used cap)) := by
  intro honly hroom
  rw [hused, hm] at hroom
  have hcheck : (ctx.claimGate io.gate later user token hosts ports).1 =
      SessionCtx.capCheck (.cap m) later.router user.userId hosts ports := by
    rcases claimGate_eq hpolar hcap with ⟨why, hno, -⟩ | hcheck
    · rw [honly.activated g hpolar] at hno
      cases hno
    · exact hcheck
  rw [SessionCtx.capCheck] at hcheck
  refine h.no_refusal (fun hports why herr => ?_) fun cap hok m' hm' => ?_
  · have hcount := @projectedTunnelCount_le ctx later user hosts ports honly.routed hports
    rw [hcheck, if_neg (by omega)] at herr
    cases herr
  · rw [hcheck] at hok
    split at hok
    · cases hok
    · cases hok
      cases hm'
      exact hroom

end standing

/-- A positive cap survives the wire and the client's cast. -/
theorem ofInt_cap {m : Int} (hpos : 0 < m) (hm : m ≤ Int64.maxValue.toInt) :
    (Int64.ofInt m).toInt = m ∧ (Int64.ofInt m).toUInt64.toNat = m.toNat ∧ Int64.ofInt m ≠ 0 := by
  have hmax : Int64.maxValue.toInt = 9223372036854775807 := by decide
  have hint : (Int64.ofInt m).toInt = m := Int64.toInt_ofInt_of_le (by omega) (by omega)
  have hle : 0 ≤ Int64.ofInt m := by
    rw [Int64.le_iff_toInt_le, hint]
    exact hpos.le
  refine ⟨hint, ?_, fun h => ?_⟩
  · rw [Int64.toNat_toUInt64_of_le hle]
    exact congrArg Int.toNat hint
  · rw [h] at hint
    change (0 : Int) = m at hint
    omega

namespace Greeter

/-- **The plan line tells what the relay will do.** Take any list that the client received, and any claim of
the same user after it, with the cap and the number of resources as they were. No line: the claim is not
refused for the plan. "Does not permit active tunnels": nothing is granted. "At your limit": whatever is
granted has no new name in it. "Used of cap": the claim is not refused for the plan if its new names fit. -/
theorem plan_line_foretells (greeter : Greeter) (io : RequestIo) (relay : Relay) (token : String)
    (owned : OwnedSet) (hlist : (greeter.listOwned io relay token).1 = .ok owned)
    (hfaults : io.turn.ownedHostnames = [] ∧ io.turn.ownedPorts = []) :
    ∃ user notices mid, greeter.resolves io.handshake relay ⟨token⟩ = (some user, notices, mid) ∧
      ∀ (later : Relay) (cio : ClaimIo) (handle : SessionHandle) (key : String) (hostnames : List String)
        (ports : List UInt16),
        SameStanding greeter.ctx user (io.between mid) io.turn later cio.gate →
        Foretells greeter.ctx user later cio.gate key (hostnames.map toAsciiLowercase) ports
          (greeter.ctx.handleClaim cio later handle user key hostnames ports).1 owned.planNote := by
  obtain ⟨-, user, notices, mid, hauth, rfl, -⟩ := listOwned_ok_iff.1 hlist
  refine ⟨user, notices, mid, hauth, fun later cio handle key hostnames ports hsame => ?_⟩
  have hpath := @handleClaim_path greeter.ctx cio later user key ports handle hostnames
  have hused : ((greeter.ownedSet io user (io.between mid)).used : Int) = later.db.countOwned user.userId := by
    rw [hsame.used, ← length_owned greeter.ctx.domain]
    unfold OwnedSet.used ownedSet
    rw [hfaults.1, hfaults.2]
  generalize howned : greeter.ownedSet io user (io.between mid) = owned at hused
  have hmax : owned.maxTunnels = (greeter.controlTask user ⟨""⟩).maxTunnels io.turn (io.between mid) := by
    rw [← howned]
    rfl
  unfold ControlTask.maxTunnels at hmax
  change owned.maxTunnels = greeter.ctx.polar.bind _ at hmax
  unfold OwnedSet.planNote
  cases hpolar : greeter.ctx.polar with
  | none =>
    rw [hpolar] at hmax
    rw [hmax]
    exact foretells_uncapped hpath fun g hg => by rw [hpolar] at hg; cases hg
  | some g =>
    have hcap := hsame.cap g hpolar
    rw [hpolar, Option.bind_some] at hmax
    cases hlisted : g.capFor (io.between mid).cache user.name io.turn.now io.turn.capFails with
    | allow =>
      have hnone : owned.maxTunnels = none := hmax.trans (by dsimp only [controlTask]; rw [hlisted])
      rw [hnone]
      refine foretells_uncapped hpath fun g' hg' => ?_
      rw [hpolar] at hg'
      cases hg'
      exact hcap.trans hlisted
    | denyAll =>
      have hzero : owned.maxTunnels = some 0 := hmax.trans (by dsimp only [controlTask]; rw [hlisted])
      rw [hzero]
      exact foretells_inactive hpath hpolar (.inl (hcap.trans hlisted))
    | cap m =>
      have hsome : owned.maxTunnels = some (Int64.ofInt (max m 0)) :=
        hmax.trans (by dsimp only [controlTask]; rw [hlisted])
      rw [hsome]
      by_cases hm : m ≤ 0
      · rw [max_eq_right hm]
        exact foretells_inactive hpath hpolar (.inr ⟨m, hm, hcap.trans hlisted⟩)
      · obtain ⟨hint, hnat, hne⟩ := ofInt_cap (by omega) (hsame.bits g hpolar m hlisted)
        rw [max_eq_left (by omega)]
        dsimp only
        rw [if_neg hne, hnat]
        split
        · exact foretells_full hpath hpolar (hcap.trans hlisted) (by omega)
        · exact foretells_within hpath hpolar (hcap.trans hlisted) hused hint

/-- `ann` has a plan of two tunnels, and two names. -/
def soloRelay : Relay where
  toNet := { (hostedRelay "d.io").toNet with db := (Mutation.addHostname 4 "web" "ann").exec [] annHosted }
  cache := (soloGate.authenticate { now := 400, answer := .granted "ann" "solo" } LicenseCache.empty
    ⟨Db.empty, Router.empty⟩ "key").cache

def soloGreeter : Greeter := { plainGreeter "d.io" with ctx := { plainCtx "d.io" with polar := some soloGate } }

def soloList : RequestIo := { turn := { now := 400 } }

/-- Two of two are used, and a claim of a third name is not granted. -/
theorem plan_line_foretells_solo : ∃ owned, (soloGreeter.listOwned soloList soloRelay "t1").1 = .ok owned ∧
    planLine owned = some ("Plan: 2/2 tunnels used — at your limit. `etun up` will reject new tunnels until " ++
      "you upgrade or `etun release` one.") ∧
    ∀ cio : ClaimIo, cio.gate.now = 400 → cio.gate.capFails = false →
      (soloGreeter.ctx.handleClaim cio soloRelay ⟨2, 1⟩ ⟨1, "ann"⟩ "t1" ["new.d.io"] []).1 ≠
        .granted ["new.d.io"] [] := by
  have hauth : soloGreeter.resolves soloList.handshake soloRelay ⟨"t1"⟩ = (some ⟨1, "ann"⟩, [], soloRelay) := by
    decide +kernel
  have hlist : (soloGreeter.listOwned soloList soloRelay "t1").1 = .ok ⟨["app.d.io", "web.d.io"], [], some 2⟩ :=
    listOwned_ok_iff.2 ⟨⟨by decide, by decide, by decide, ⟨rfl, rfl, rfl⟩, rfl, rfl, rfl⟩, _, _, _, hauth,
      by decide +kernel, by decide⟩
  refine ⟨_, hlist, by decide, fun cio hnow hfails hgranted => ?_⟩
  obtain ⟨user, notices, mid, hauth', hnext⟩ :=
    plan_line_foretells soloGreeter soloList soloRelay "t1" _ hlist ⟨rfl, rfl⟩
  rw [hauth] at hauth'
  cases hauth'
  have hlower : ["new.d.io"].map toAsciiLowercase = ["new.d.io"] := by decide
  have hfull := hnext soloRelay cio ⟨2, 1⟩ "t1" ["new.d.io"] [] ⟨fun g _ => by rw [hnow, hfails]; rfl,
    fun g hg m hm => ?_, rfl⟩
  · rw [hlower] at hfull
    exact absurd (hfull hgranted "new.d.io" List.mem_cons_self) (by decide)
  · cases hg
    have hcap : soloGate.capFor soloRelay.cache "ann" 400 false = .cap 2 := by decide +kernel
    cases hcap.symm.trans hm
    decide

end Greeter

end EtherTunnel
