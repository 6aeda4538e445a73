import EtherTunnel.Registry.Holdings
import EtherTunnel.Session.Claim

/-!
# When a claim is granted

`Session.Claim` says what a claim does if it is granted and if it is denied. Here is which of the two it
is, on a registry without storage failures. Each loop of `handle_claim` has its condition:
`claimPorts_ok_iff` for the ports (`claimPorts_eq_ok` with the failures), `claimHosts_ok` for hostnames that
are each owned or free and fit under the cap together. `handleClaim_granted` and `handleClaim_ungranted` put them in the handler's order.
-/

namespace EtherTunnel

open Txn

variable {ctx : SessionCtx} {u : Int}

/-! ## Ports -/

/-- The `i`-th port of a claim is the user's, in range, and bound or free to bind. -/
def PortClaimable (ctx : SessionCtx) (db : Db) (u : Int) (bound : Finset UInt16) (io : Nat → PortIo)
    (ports : List UInt16) (i : Nat) (p : UInt16) : Prop :=
  (∃ manager, ctx.tcp = some manager ∧ manager.inRange p = true) ∧ db.hasPort u p = true ∧
    (p ∈ bound ∨ p ∈ ports.take i ∨ (io i).bind = .ok ())

theorem checkPort_ok_iff {faults : Faults} {db : Db} {p : UInt16} :
    ctx.checkPort faults db u p = .ok () ↔
      (∃ manager, ctx.tcp = some manager ∧ manager.inRange p = true) ∧ db.hasPort u p = true ∧
        Clear faults 1 := by
  unfold SessionCtx.checkPort
  rw [← ownsPort_eq_true]
  cases ctx.tcp with
  | none => simp
  | some manager => cases hr : manager.inRange p <;> cases hown : Registry.ownsPort faults db u p <;> simp [hr]

theorem ensureBound_eq_ok {bound : Finset UInt16} {p : UInt16} {bind : Except String Unit} :
    (ensureBound bound p bind).1 = .ok () ↔ p ∈ bound ∨ bind = .ok () := by
  unfold ensureBound
  by_cases hp : p ∈ bound
  · simp [hp]
  · cases bind <;> simp [hp]

theorem ensureBound_bound {bound : Finset UInt16} {p : UInt16} {bind : Except String Unit}
    (h : (ensureBound bound p bind).1 = .ok ()) : (ensureBound bound p bind).2 = insert p bound := by
  unfold ensureBound at h ⊢
  by_cases hp : p ∈ bound
  · simp [hp]
  · cases bind with
    | error e => simp [hp] at h
    | ok _ => simp [hp]

/-- One port more, in front. -/
theorem portClaimable_cons {db : Db} {bound : Finset UInt16} {io : Nat → PortIo} {ports : List UInt16}
    {i : Nat} {p q : UInt16} :
    PortClaimable ctx db u bound io (p :: ports) (i + 1) q ↔
      PortClaimable ctx db u (insert p bound) (fun i => io (i + 1)) ports i q := by
  simp only [PortClaimable, List.take_succ_cons, List.mem_cons, Finset.mem_insert]
  tauto

/-- Each port has its query answered, and is claimable. -/
theorem claimPorts_eq_ok {ports : List UInt16} {io : Nat → PortIo} {net : Net} :
    (ctx.claimPorts u io net ports).1 = .ok () ↔ ∀ (i : Nat) (p : UInt16), ports[i]? = some p →
      Clear (io i).faults 1 ∧ PortClaimable ctx net.db u net.bound io ports i p := by
  induction ports generalizing io net with
  | nil => exact iff_of_true rfl nofun
  | cons p rest ih =>
    rw [SessionCtx.claimPorts]
    by_cases hp : ctx.checkPort (io 0).faults net.db u p = .ok ()
    · rw [hp]
      by_cases hb : (ensureBound net.bound p (io 0).bind).1 = .ok ()
      · have hbound : ensureBound net.bound p (io 0).bind = (.ok (), insert p net.bound) :=
          Prod.ext hb (ensureBound_bound hb)
        rw [hbound]
        dsimp only
        rw [ih]
        constructor
        · intro h i q hq
          cases i with
          | zero =>
            obtain rfl : p = q := Option.some_inj.1 hq
            obtain ⟨hrange, hown, hclear⟩ := checkPort_ok_iff.1 hp
            exact ⟨hclear, hrange, hown, (ensureBound_eq_ok.1 hb).imp_right .inr⟩
          | succ i => exact ⟨(h i q hq).1, portClaimable_cons.2 (h i q hq).2⟩
        · intro h i q hq
          exact ⟨(h (i + 1) q hq).1, portClaimable_cons.1 (h (i + 1) q hq).2⟩
      · refine iff_of_false ?_ fun h => ?_
        · cases hres : ensureBound net.bound p (io 0).bind with
          | mk res bound =>
            rw [hres] at hb
            cases res with
            | error e => exact nofun
            | ok _ => exact absurd rfl hb
        · obtain ⟨-, -, -, hready⟩ := h 0 p rfl
          refine hb (ensureBound_eq_ok.2 ?_)
          simpa using hready
    · refine iff_of_false ?_ fun h => ?_
      · cases hres : ctx.checkPort (io 0).faults net.db u p with
        | error why => exact nofun
        | ok _ => exact absurd hres hp
      · obtain ⟨hclear, hrange, hown, -⟩ := h 0 p rfl
        exact hp (checkPort_ok_iff.2 ⟨hrange, hown, hclear⟩)

theorem claimPorts_ok_iff {ports : List UInt16} {io : Nat → PortIo} {net : Net}
    (hio : ∀ i, (io i).faults = []) : (ctx.claimPorts u io net ports).1 = .ok () ↔
      ∀ (i : Nat) (p : UInt16), ports[i]? = some p →
        PortClaimable ctx net.db u net.bound io ports i p := by
  simp only [claimPorts_eq_ok, hio, clear_nil, true_and]

/-! ## Hostnames -/

theorem Holdings.size_hold {ι : Type} [DecidableEq ι] {H : Holdings ι} {v : ι} {h : String}
    (hnew : h ∉ H.hosts v) : (H.hold v (.host h)).size v = H.size v + 1 := by
  simp only [size, hold, Function.update_self, Finset.card_insert_of_notMem hnew]
  push_cast
  omega

/-- The hostnames of a claim that would be new rows. -/
def newHosts (H : Holdings Int) (u : Int) (hosts : List String) : Nat :=
  hosts.countP fun h => decide (h ∉ H.hosts u)

theorem newHosts_cons {H : Holdings Int} {h : String} {hosts : List String} :
    newHosts H u (h :: hosts) = newHosts H u hosts + if h ∉ H.hosts u then 1 else 0 := by
  rw [newHosts, List.countP_cons, newHosts]
  simp

/-- A name that is held now does not count, and the others count as before. -/
theorem newHosts_hold {H : Holdings Int} {h : String} {hosts : List String} (hnotin : h ∉ hosts) :
    newHosts (H.hold u (.host h)) u hosts = newHosts H u hosts := by
  refine List.countP_congr fun h' hh' => ?_
  have hne : h' ≠ h := fun heq => hnotin (heq ▸ hh')
  simp [Holdings.hold, hne]

/-- **Owned or free, and room for all of them**: then every name of the list is granted. -/
theorem claimHosts_ok {cap : Option Int} {hosts : List String} {io : Nat → HostIo} {db : Db}
    (hio : ∀ i, (io i).faults = []) (hmem : u ∈ db.users.map (·.id)) (hnodup : hosts.Nodup)
    (hlabel : ∀ h ∈ hosts, (labelOf ctx.domain h).isSome)
    (hfree : ∀ h ∈ hosts, ∀ v, (db.view ctx.domain).Has v (.host h) → v = u)
    (hroom : ∀ m ∈ cap, (db.view ctx.domain).size u + newHosts (db.view ctx.domain) u hosts ≤ m) :
    (ctx.claimHosts u cap io db hosts).1 = .ok () := by
  induction hosts generalizing io db with
  | nil => rfl
  | cons h rest ih =>
    obtain ⟨hnotin, hnodup⟩ := List.nodup_cons.1 hnodup
    obtain ⟨l, hl⟩ := Option.isSome_iff_exists.1 (hlabel h List.mem_cons_self)
    obtain ⟨db', hrun, husers, hview⟩ := claimHostname_run (io 0).now cap hl hmem
    have howned : (db.view ctx.domain).claim u h cap = .owned := by
      unfold Holdings.claim
      by_cases hmine : h ∈ (db.view ctx.domain).hosts u
      · rw [if_pos hmine]
      · have hnobody : ¬ ∃ v, h ∈ (db.view ctx.domain).hosts v := by
          rintro ⟨v, hv⟩
          exact hmine (hfree h List.mem_cons_self v hv ▸ hv)
        have huncapped : ¬ ∃ m ∈ cap, m ≤ (db.view ctx.domain).size u := by
          rintro ⟨m, hm, hle⟩
          have hfit := hroom m hm
          rw [newHosts_cons, if_pos hmine] at hfit
          push_cast at hfit
          omega
        rw [if_neg hmine, if_neg hnobody, if_neg huncapped]
    rw [howned, if_pos rfl] at hview
    rw [howned] at hrun
    have hone : ctx.claimHost (io 0) db u h cap = (.ok (), db') := by
      rw [SessionCtx.claimHost, hio 0, hrun]
    rw [SessionCtx.claimHosts, hone]
    refine ih (fun i => hio (i + 1)) (husers ▸ hmem) hnodup
      (fun h' hh' => hlabel h' (List.mem_cons_of_mem _ hh')) (fun h' hh' v hv => ?_) fun m hm => ?_
    · rw [hview, Holdings.has_hold] at hv
      rcases hv with hv | ⟨rfl, -⟩
      · exact hfree h' (List.mem_cons_of_mem _ hh') v hv
      · rfl
    · have hfit := hroom m hm
      rw [newHosts_cons] at hfit
      rw [hview, newHosts_hold hnotin]
      by_cases hmine : h ∈ (db.view ctx.domain).hosts u
      · have hhas : (db.view ctx.domain).Has u (.host h) := hmine
        rw [Holdings.hold_self hhas]
        simpa [hmine] using hfit
      · rw [Holdings.size_hold hmine]
        rw [if_pos hmine] at hfit
        push_cast at hfit
        omega

/-! ## The whole handler -/

/-- The gate reads the license cache and the router only. -/
theorem claimGate_fst {io : GateIo} {relay : Relay} {net : Net} (hlive : net.toLive = relay.toLive)
    (user : AuthedUser) (token : String) (hosts : List String) (ports : List UInt16) :
    (ctx.claimGate io { relay with toNet := net } user token hosts ports).1 =
      (ctx.claimGate io relay user token hosts ports).1 := by
  unfold SessionCtx.claimGate
  cases ctx.polar with
  | none => rfl
  | some gate =>
    dsimp only
    rcases gate.ensureActivated io.activate relay.cache token with ⟨why | _, cache⟩
    · rfl
    · dsimp only
      rw [hlive]

section handler

variable {io : ClaimIo} {relay : Relay} {handle : SessionHandle} {user : AuthedUser} {token : String}
  {hostnames : List String} {ports : List UInt16} {cap : Option Int}

theorem handleClaim_granted (hsize : hostnames.length + ports.length ≤ maxClaimEntries)
    (hports : (ctx.claimPorts user.userId io.ports relay.toNet ports).1 = .ok ())
    (hgate : (ctx.claimGate io.gate relay user token (hostnames.map toAsciiLowercase) ports).1 = .ok cap)
    (hhosts : (ctx.claimHosts user.userId cap io.hosts relay.db
      (hostnames.map toAsciiLowercase)).1 = .ok ()) :
    (ctx.handleClaim io relay handle user token hostnames ports).2.2.router =
      relay.router.claim handle (hostnames.map toAsciiLowercase) ports := by
  obtain ⟨hlive, -, -⟩ := claimPorts_spec ctx user.userId ports io.ports relay.toNet
  rw [SessionCtx.handleClaim, if_neg (Nat.not_lt_of_le hsize)]
  dsimp only
  rcases hcp : ctx.claimPorts user.userId io.ports relay.toNet ports with ⟨res, net⟩
  rw [hcp] at hports hlive
  obtain rfl : res = .ok () := hports
  dsimp only
  have hnet := (claimGate_spec ctx io.gate { relay with toNet := net } user token
    (hostnames.map toAsciiLowercase) ports).1
  rw [← claimGate_fst hlive] at hgate
  rcases hcg : ctx.claimGate io.gate { relay with toNet := net } user token
    (hostnames.map toAsciiLowercase) ports with ⟨res, mid⟩
  rw [hcg] at hgate hnet
  obtain rfl : res = .ok cap := hgate
  have hmid : mid.toLive = relay.toLive := by
    rw [show mid.toNet = net from hnet]
    exact hlive
  dsimp only
  rw [hmid]
  rcases hch : ctx.claimHosts user.userId cap io.hosts relay.db (hostnames.map toAsciiLowercase)
    with ⟨res, db⟩
  rw [hch] at hhosts
  obtain rfl : res = .ok () := hhosts
  rfl

/-- A claim that is too large, or has a port that cannot be had, changes no route. -/
theorem handleClaim_ungranted (h : maxClaimEntries < hostnames.length + ports.length ∨
      (ctx.claimPorts user.userId io.ports relay.toNet ports).1 ≠ .ok ()) :
    (ctx.handleClaim io relay handle user token hostnames ports).2.2.router = relay.router := by
  rw [SessionCtx.handleClaim]
  split
  · rfl
  · rename_i hsize
    have hports := h.resolve_left hsize
    obtain ⟨hlive, -, -⟩ := claimPorts_spec ctx user.userId ports io.ports relay.toNet
    dsimp only
    rcases hcp : ctx.claimPorts user.userId io.ports relay.toNet ports with ⟨why | _, net⟩
    · rw [hcp] at hlive
      exact congrArg Live.router hlive
    · rw [hcp] at hports
      exact absurd rfl hports

end handler

end EtherTunnel
