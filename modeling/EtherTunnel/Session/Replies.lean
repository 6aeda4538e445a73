import EtherTunnel.Polar.Admission
import EtherTunnel.Proto.Sizes
import EtherTunnel.Router.Newest
import EtherTunnel.Session.Control
import EtherTunnel.Session.Refused

/-!
# Replies on the wire

`spawn_writer` (`session.rs:908-923`) writes what is pushed to a session with the limit of 64 KiB, and takes
a frame that does not fit for a broken stream: it stops and cancels the session. A request has passed the
same limit in `read_frame`, and most replies are no longer than the request: `Granted` has the claim's own
entries, `Released` some of the release's, `Superseded` one of the claim's.

Two replies are not. A refusal puts words around the hostname or the error that it repeats
(`session.rs:648`, `:736`, `:761`, `:771`), and `Owned` lists all that the account has (`:557-561`).
`replies_written_iff` says how much room each of them needs.
-/

namespace EtherTunnel

open Postcard Txn

/-! ## The writer -/

/-- `spawn_writer` on a stream that takes every byte, over the frames received so far: the stream, and
whether the session is cancelled. -/
def spawnWriter : List UInt8 → List ControlFrame → List UInt8 × Bool
  | wr, [] => (wr, false)
  | wr, frame :: rest =>
    match writeFrame ControlFrame.wire wr frame maxControlFrame with
    | .error _ => (wr, true)
    | .ok wr => spawnWriter wr rest

theorem spawnWriter_of_fits : ∀ {frames : List ControlFrame} (wr : List UInt8),
    (∀ frame ∈ frames, frame.Fits) → (spawnWriter wr frames).2 = false
  | [], _, _ => rfl
  | frame :: rest, wr, h => by
    rw [spawnWriter, writeFrame_of_fits (h frame List.mem_cons_self)]
    exact spawnWriter_of_fits _ fun f hf => h f (List.mem_cons_of_mem _ hf)

theorem spawnWriter_cancels {frame : ControlFrame} (h : ¬ frame.Fits) (wr : List UInt8)
    (rest : List ControlFrame) : spawnWriter wr (frame :: rest) = (wr, true) := by
  have herror : writeFrame ControlFrame.wire wr frame maxControlFrame =
      .error (.tooLarge (ControlFrame.wire.enc frame).length maxControlFrame) :=
    if_pos (Nat.lt_of_not_le h)
  rw [spawnWriter, herror]

/-- All that the branch pushes, to its own session and to others. -/
def Turn.pushed (t : Turn) : List ControlFrame := t.reply.toList ++ t.notices.map (·.2)

/-- Every frame pushed fits, and no writer that has to write some of them cancels its session. -/
structure Turn.Written (t : Turn) : Prop where
  fits : ∀ frame ∈ t.pushed, frame.Fits
  kept : ∀ wr frames, frames ⊆ t.pushed → (spawnWriter wr frames).2 = false

theorem Turn.written_iff {t : Turn} : t.Written ↔ ∀ frame ∈ t.pushed, frame.Fits :=
  ⟨Turn.Written.fits, fun h => ⟨h, fun wr _ hsub => spawnWriter_of_fits wr fun f hf => h f (hsub hf)⟩⟩

/-! ## Refusals -/

theorem Refusal.fits_iff {why : Refusal} : why.frame.Fits ↔ why.2.utf8ByteSize ≤ messageRoom :=
  fits_denied_iff

theorem utf8ByteSize_i64_le {m : Int} (h : IsI64 m) : (toString m).utf8ByteSize ≤ 81 := by
  obtain ⟨hlo, hhi⟩ := h
  cases m with
  | ofNat n =>
    have hn : (n : Int) < 2 ^ 63 := hhi
    have hrepr := utf8ByteSize_repr_le (n := n) (e := 20) (by decide) (by omega)
    exact Nat.le_trans hrepr (by decide)
  | negSucc n =>
    have hrepr := utf8ByteSize_repr_le (n := n + 1) (e := 20) (by decide) (by omega)
    have hminus : (toString (Int.negSucc n)).utf8ByteSize = 1 + (n + 1).repr.utf8ByteSize :=
      String.utf8ByteSize_append
    omega

theorem tooLarge_fits : (tooLarge "claim").frame.Fits ∧ (tooLarge "release").frame.Fits := by decide

/-- A cap is an `i64`. -/
theorem limitReached_fits {m : Int} (h : IsI64 m) : (limitReached m).frame.Fits := by
  have hm := utf8ByteSize_i64_le h
  have hpre : "tunnel limit reached (".utf8ByteSize = 22 := rfl
  have hpost : "); upgrade your plan for more".utf8ByteSize = 29 := rfl
  have hroom : messageRoom = 65531 := rfl
  rw [Refusal.fits_iff, limitReached]
  simp only [String.utf8ByteSize_append]
  omega

/-! ## What a refusal repeats -/

/-- A text from outside that a refusal repeats, and the number of bytes that the relay puts around it. -/
abbrev Echo := Nat × String

def Echo.HasRoom (echo : Echo) : Prop := echo.1 + echo.2.utf8ByteSize ≤ messageRoom

instance (echo : Echo) : Decidable echo.HasRoom := inferInstanceAs (Decidable (_ ≤ _))

/-- Room for the error of `bind`, if that is what the port loop stops at. -/
def PortRoom (ctx : SessionCtx) (net : Net) (u : Int) (io : Nat → PortIo) (ports : List UInt16) (i : Nat)
    (p : UInt16) : Prop :=
  ∀ e, BindFails ctx net u io ports i p e →
    Echo.HasRoom (("port " ++ toString p ++ " unavailable: ").utf8ByteSize, e)

/-- Room for a hostname, if that is what the hostname loop stops at. A name with a label under the domain is
repeated when it is another account's or its row cannot be written, with as many bytes around it, and not
when it is over the cap. -/
def HostRoom (domain : String) (db : Db) (u : Int) (cap : Option Int) (io : HostIo) (earlier : List String)
    (host : String) : Prop :=
  if (labelOf domain host).isSome then
    HostPasses domain db u cap io earlier host ∨ HostOverCap domain db u cap io earlier host ∨
      Echo.HasRoom ("not authorized for ".utf8ByteSize, host)
  else Echo.HasRoom ("cannot claim : not a valid hostname under this relay".utf8ByteSize, host)

theorem portRoom_cons {ctx : SessionCtx} {net : Net} {u : Int} {io : Nat → PortIo} {ports : List UInt16}
    {p q : UInt16} {i : Nat} : PortRoom ctx net u io (p :: ports) (i + 1) q ↔
      PortRoom ctx { net with bound := insert p net.bound } u (fun i => io (i + 1)) ports i q :=
  forall_congr' fun _ => imp_congr_left bindFails_cons

theorem Passed.hostRoom {domain : String} {db : Db} {u : Int} {cap : Option Int} {io : HostIo} {host : String}
    {db' : Db} {earlier : List String} {next : String} (h : Passed domain u host db db') :
    HostRoom domain db' u cap io earlier next ↔ HostRoom domain db u cap io (host :: earlier) next := by
  rw [HostRoom, HostRoom, h.hostPasses, h.hostOverCap]

namespace SessionCtx

variable {ctx : SessionCtx} {u : Int}

theorem checkPort_fits {faults : Faults} {db : Db} {port : UInt16} {why : Refusal}
    (h : ctx.checkPort faults db u port = .error why) : why.frame.Fits := by
  unfold checkPort at h
  split at h
  · cases h
    decide
  · split at h
    · cases h
      have hport := utf8ByteSize_port_le port
      have hpre : "port ".utf8ByteSize = 5 := rfl
      have hpost : " not reserved".utf8ByteSize = 13 := rfl
      have hroom : messageRoom = 65531 := rfl
      rw [Refusal.fits_iff]
      simp only [String.utf8ByteSize_append]
      omega
    · cases h

/-- The port loop: only an error of `bind` may be too long. -/
theorem claimPorts_fits_iff {ports : List UInt16} {io : Nat → PortIo} {net : Net} :
    (∀ why, (ctx.claimPorts u io net ports).1 = .error why → why.frame.Fits) ↔
      UpTo (PortPasses ctx net u io ports) (PortRoom ctx net u io ports) ports := by
  induction ports generalizing io net with
  | nil => exact iff_of_true nofun upTo_nil
  | cons port rest ih =>
    rw [upTo_cons, PortRoom, portPasses_zero, claimPorts]
    simp only [bindFails_zero]
    cases hcheck : ctx.checkPort (io 0).faults net.db u port with
    | error why =>
      refine iff_of_true ?_ ⟨fun e h => (by cases h.1), fun h => (by cases h.1)⟩
      rintro _ ⟨⟩
      exact checkPort_fits hcheck
    | ok =>
      rcases hbound : ensureBound net.bound port (io 0).bind with ⟨e | _, bound⟩
      · have hroom : (portUnavailable port e).frame.Fits ↔
            Echo.HasRoom (("port " ++ toString port ++ " unavailable: ").utf8ByteSize, e) := by
          rw [Refusal.fits_iff, portUnavailable, String.utf8ByteSize_append, Echo.HasRoom]
        simp [hroom]
      · obtain rfl : insert port net.bound = bound := by
          rw [← ensureBound_bound (by rw [hbound]), hbound]
        have hrest := @upTo_congr _ _ _ _ _ rest (fun i q => @portPasses_cons ctx net u io rest port q i)
          fun i q => @portRoom_cons ctx net u io rest port q i
        rw [hrest, ← ih]
        simp

theorem claimHost_fits_iff {cap : Option Int} (hcap : ∀ m ∈ cap, IsI64 m) {io : HostIo} {db : Db}
    {host : String} :
    ((ctx.claimHost io db u host cap).1 = .ok () ↔ HostPasses ctx.domain db u cap io [] host) ∧
    ((∀ why, (ctx.claimHost io db u host cap).1 = .error why → why.frame.Fits) ↔
      HostRoom ctx.domain db u cap io [] host) := by
  unfold HostRoom claimHost
  cases hl : labelOf ctx.domain host with
  | none =>
    have hinvalid : Registry.claimHostname io.faults db ctx.domain io.now u host cap =
        (.invalid "not a valid hostname under this relay", db) := by
      rw [Registry.claimHostname, hl]
    rw [hinvalid]
    refine ⟨iff_of_false (fun h => by cases h) fun h => ?_, ?_⟩
    · rw [HostPasses, hl] at h
      cases h.1
    · have hwords : "cannot claim : not a valid hostname under this relay".utf8ByteSize = 52 := rfl
      have hpre : "cannot claim ".utf8ByteSize = 13 := rfl
      have hcolon : ": ".utf8ByteSize = 2 := rfl
      have hwhy : "not a valid hostname under this relay".utf8ByteSize = 37 := rfl
      simp only [Except.error.injEq, forall_eq', Refusal.fits_iff, String.utf8ByteSize_append, Echo.HasRoom,
        Option.isSome_none, Bool.false_eq_true, if_false]
      omega
  | some l =>
    obtain ⟨howned, hover, hinvalid⟩ := @claimHostname_cases ctx.domain db u cap io host l hl
    rw [← howned, ← hover]
    generalize Registry.claimHostname io.faults db ctx.domain io.now u host cap = res at hinvalid ⊢
    obtain ⟨outcome, db'⟩ := res
    cases outcome with
    | owned => simp
    | capExceeded =>
      have hmax : IsI64 (cap.getD 0) := by
        cases cap with
        | none => decide
        | some m => exact hcap m rfl
      simp [limitReached_fits hmax]
    | taken => simp [Refusal.fits_iff, Echo.HasRoom, String.utf8ByteSize_append]
    | error =>
      have hwords : "could not register ".utf8ByteSize = "not authorized for ".utf8ByteSize := rfl
      simp [Refusal.fits_iff, Echo.HasRoom, String.utf8ByteSize_append, hwords]
    | invalid why => exact absurd rfl (hinvalid why)

/-- The hostname loop. -/
theorem claimHosts_fits_iff {cap : Option Int} (hcap : ∀ m ∈ cap, IsI64 m) {hosts : List String}
    {io : Nat → HostIo} {db : Db} :
    (∀ why, (ctx.claimHosts u cap io db hosts).1 = .error why → why.frame.Fits) ↔
      UpTo (fun i => HostPasses ctx.domain db u cap (io i) (hosts.take i))
        (fun i => HostRoom ctx.domain db u cap (io i) (hosts.take i)) hosts := by
  induction hosts generalizing io db with
  | nil => exact iff_of_true nofun upTo_nil
  | cons host rest ih =>
    obtain ⟨hpasses, hroom⟩ := @claimHost_fits_iff ctx u cap hcap (io 0) db host
    have heff := claimHost_effect ctx (io 0) db u host cap
    rw [upTo_cons, List.take_zero, ← hpasses, ← hroom, claimHosts]
    generalize ctx.claimHost (io 0) db u host cap = res at heff ⊢
    obtain ⟨why | _, db'⟩ := res
    · simp
    · have hrest := @upTo_congr _ _ _ _ _ rest
        (fun i next => @Passed.hostPasses _ _ _ cap (io (i + 1)) _ _ (rest.take i) next heff.passed)
        fun i next => @Passed.hostRoom _ _ _ cap (io (i + 1)) _ _ (rest.take i) next heff.passed
      simp only [List.take_succ_cons]
      rw [← hrest, ← ih]
      simp

end SessionCtx

/-- `max_tunnels` is an `i64` column. -/
def LicenseCache.CapsI64 (cache : LicenseCache) : Prop := ∀ r ∈ cache.rows, ∀ m ∈ r.maxTunnels, IsI64 m

theorem capFor_i64 {gate : PolarGate} {cache : LicenseCache} {name : String} {now m : Int} {fails : Bool}
    (hcaps : cache.CapsI64) (h : gate.capFor cache name now fails = .cap m) : IsI64 m := by
  unfold PolarGate.capFor at h
  split at h
  · cases h
  · cases fails with
    | true => cases h
    | false =>
      simp only [pooledOver, Bool.false_eq_true, if_false, resolveCap] at h
      split at h
      · cases h
      · split at h
        · rename_i m' hmax
          cases h
          obtain ⟨⟨r, hr, -, hq⟩, -⟩ := LicenseCache.capForCustomer_max.1 hmax
          exact hcaps r hr m (LicenseCache.qualifyingCap_eq_some.1 hq).2
        · cases h

namespace SessionCtx

variable {ctx : SessionCtx}

theorem ensureActivated_error {gate : PolarGate} {io : ActivateIo} {cache cache' : LicenseCache}
    {key why : String} (h : gate.ensureActivated io cache key = (.error why, cache')) :
    why = "license activation limit reached (key already active on another device/relay)" := by
  unfold PolarGate.ensureActivated at h
  split at h
  · cases h
  · dsimp only at h
    split at h
    · cases h
    · split at h
      · cases h
      · split at h <;> cases h
        rfl

/-- The license gate repeats nothing. -/
theorem claimGate_fits {io : GateIo} {relay : Relay} (hcaps : relay.cache.CapsI64) {user : AuthedUser}
    {token : String} {hosts : List String} {ports : List UInt16} {why : Refusal}
    (h : (ctx.claimGate io relay user token hosts ports).1 = .error why) : why.frame.Fits := by
  unfold claimGate at h
  cases hpolar : ctx.polar with
  | none =>
    rw [hpolar] at h
    cases h
  | some gate =>
    have hcap := capFor_ensureActivated gate io.activate relay.cache token user.name io.now io.capFails
    rw [hpolar] at h
    dsimp only at h
    rcases hact : gate.ensureActivated io.activate relay.cache token with ⟨refused | _, cache⟩
    · rw [hact] at h
      cases h
      rw [ensureActivated_error hact]
      decide
    · rw [hact] at h hcap
      dsimp only at h hcap
      rw [hcap] at h
      cases hd : gate.capFor relay.cache user.name io.now io.capFails with
      | allow =>
        rw [hd] at h
        cases h
      | denyAll =>
        rw [hd] at h
        cases h
        decide
      | cap m =>
        rw [hd, capCheck] at h
        split at h
        · cases h
          exact limitReached_fits (capFor_i64 hcaps hd)
        · cases h

theorem GatePasses.isI64 {io : GateIo} {relay : Relay} (hcaps : relay.cache.CapsI64) {user : AuthedUser}
    {token : String} {hosts : List String} {ports : List UInt16} {cap : Option Int}
    (h : ctx.GatePasses io relay user token hosts ports cap) : ∀ m ∈ cap, IsI64 m := by
  rintro m rfl
  unfold GatePasses at h
  cases hpolar : ctx.polar with
  | none =>
    rw [hpolar] at h
    cases h
  | some gate =>
    rw [hpolar] at h
    exact capFor_i64 hcaps h.2.1

/-- Room for what the refusal of a claim repeats. The hostnames are in lower case; they matter if all ports
pass, and then the license gate. -/
structure ClaimRoom (ctx : SessionCtx) (io : ClaimIo) (relay : Relay) (user : AuthedUser) (token : String)
    (hosts : List String) (ports : List UInt16) : Prop where
  portRoom : UpTo (PortPasses ctx relay.toNet user.userId io.ports ports)
    (PortRoom ctx relay.toNet user.userId io.ports ports) ports
  hostRoom : (∀ i p, ports[i]? = some p → PortPasses ctx relay.toNet user.userId io.ports ports i p) →
    ∀ cap, ctx.GatePasses io.gate relay user token hosts ports cap →
      UpTo (fun i => HostPasses ctx.domain relay.db user.userId cap (io.hosts i) (hosts.take i))
        (fun i => HostRoom ctx.domain relay.db user.userId cap (io.hosts i) (hosts.take i)) hosts

section claim

variable {io : ClaimIo} {relay : Relay} {handle : SessionHandle} {user : AuthedUser} {token : String}
  {hosts : List String} {ports : List UInt16}

/-- Room enough for any refusal of the claim: no name has more than 65479 bytes. -/
theorem ClaimRoom.of_short
    (hhosts : ∀ h ∈ hosts, Echo.HasRoom ("cannot claim : not a valid hostname under this relay".utf8ByteSize, h))
    (hports : ∀ i p, ports[i]? = some p → PortRoom ctx relay.toNet user.userId io.ports ports i p) :
    ctx.ClaimRoom io relay user token hosts ports := by
  refine ⟨fun i p hp _ => hports i p hp, fun _ cap _ i h hh _ => ?_⟩
  have hroom := hhosts h (List.mem_of_getElem? hh)
  dsimp only [HostRoom]
  split
  · have hwords : "not authorized for ".utf8ByteSize ≤
        "cannot claim : not a valid hostname under this relay".utf8ByteSize := by decide
    exact Or.inr (Or.inr (le_trans (Nat.add_le_add_right hwords _) hroom))
  · exact hroom

/-- `ClaimRoom` by the loops of `handle_claim`. -/
theorem claimRoom_iff (hcaps : relay.cache.CapsI64) : ctx.ClaimRoom io relay user token hosts ports ↔
    (∀ why, (ctx.claimPorts user.userId io.ports relay.toNet ports).1 = .error why → why.frame.Fits) ∧
    ((ctx.claimPorts user.userId io.ports relay.toNet ports).1 = .ok () → ∀ cap,
      (ctx.claimGate io.gate relay user token hosts ports).1 = .ok cap → ∀ why,
        (ctx.claimHosts user.userId cap io.hosts relay.db hosts).1 = .error why → why.frame.Fits) := by
  constructor
  · intro h
    refine ⟨claimPorts_fits_iff.2 h.portRoom, fun hports cap hgate => ?_⟩
    have hpasses := claimGate_ok_iff.1 hgate
    exact (claimHosts_fits_iff (hpasses.isI64 hcaps)).2 (h.hostRoom (claimPorts_eq_ok.1 hports) cap hpasses)
  · rintro ⟨hports, hhosts⟩
    refine ⟨claimPorts_fits_iff.1 hports, fun hpass cap hgate => ?_⟩
    exact (claimHosts_fits_iff (hgate.isI64 hcaps)).1
      (hhosts (claimPorts_eq_ok.2 hpass) cap (claimGate_ok_iff.2 hgate))

/-- `handle_claim`: what it pushes fits when there is room for the text that its refusal repeats. -/
theorem handleClaim_fits_iff (hcaps : relay.cache.CapsI64) {hostnames : List String}
    (hclaim : (ControlFrame.claim hostnames ports).Fits) :
    ((ctx.handleClaim io relay handle user token hostnames ports).1.Fits ∧
      ∀ n ∈ (ctx.handleClaim io relay handle user token hostnames ports).2.1, n.2.Fits) ↔
    (hostnames.length + ports.length ≤ maxClaimEntries →
      ctx.ClaimRoom io relay user token (hostnames.map toAsciiLowercase) ports) := by
  have hsize : entriesSize (hostnames.map toAsciiLowercase) ports ≤ maxControlFrame := by
    rw [entriesSize_lowercase]
    exact fits_claim_iff.1 hclaim
  unfold handleClaim
  by_cases hmany : maxClaimEntries < hostnames.length + ports.length
  · rw [if_pos hmany]
    exact iff_of_true ⟨tooLarge_fits.1, nofun⟩ fun h => absurd h (Nat.not_le_of_lt hmany)
  · rw [if_neg hmany, forall_prop_of_true (Nat.le_of_not_lt hmany), claimRoom_iff hcaps]
    generalize hostnames.map toAsciiLowercase = hosts at hsize ⊢
    obtain ⟨hlive, -, -⟩ := claimPorts_spec ctx user.userId ports io.ports relay.toNet
    generalize ctx.claimPorts user.userId io.ports relay.toNet ports = res at hlive ⊢
    obtain ⟨why | _, net⟩ := res
    · simp
    · dsimp only at hlive ⊢
      obtain ⟨hnet, -⟩ := claimGate_spec ctx io.gate { relay with toNet := net } user token hosts ports
      have hgate := @claimGate_fits ctx io.gate { relay with toNet := net } hcaps user token hosts ports
      rw [← claimGate_fst hlive]
      generalize ctx.claimGate io.gate { relay with toNet := net } user token hosts ports = res at hnet hgate ⊢
      obtain ⟨why | cap, relay'⟩ := res
      · simp [hgate rfl]
      · have hdb : relay'.db = relay.db := by
          rw [show relay'.toNet = net from hnet, hlive]
        simp only [reduceCtorEq, false_imp_iff, implies_true, true_and, forall_true_left, Except.ok.injEq,
          forall_eq', hdb]
        generalize ctx.claimHosts user.userId cap io.hosts relay.db hosts = res
        obtain ⟨why | _, db⟩ := res
        · simp
        · refine iff_of_true ⟨fits_granted_iff.2 hsize, fun n hn => ?_⟩ nofun
          obtain ⟨⟨old, x⟩, hx, rfl⟩ := List.mem_map.1 hn
          exact fits_superseded (((RouterInner.claim_affected handle hosts ports).2 old x).1 hx).1 hsize

end claim

end SessionCtx

theorem releaseHosts_sublist (domain : String) (u : Int) : ∀ (io : Nat → Faults) (db : Db)
    (hosts : List String), (releaseHosts domain u io db hosts).1.Sublist hosts
  | _, _, [] => List.Sublist.slnil
  | io, db, host :: rest => by
    have ih := releaseHosts_sublist domain u (fun i => io (i + 1))
      (Registry.releaseHostname (io 0) db domain u host).2 rest
    rw [releaseHosts]
    dsimp only
    split
    · exact ih.cons_cons host
    · exact ih.cons host

theorem releasePorts_sublist (u : Int) : ∀ (io : Nat → Faults) (db : Db) (ports : List UInt16),
    (releasePorts u io db ports).1.Sublist ports
  | _, _, [] => List.Sublist.slnil
  | io, db, port :: rest => by
    have ih := releasePorts_sublist u (fun i => io (i + 1)) (Registry.releasePort (io 0) db u port).2 rest
    rw [releasePorts]
    dsimp only
    split
    · exact ih.cons_cons port
    · exact ih.cons port

theorem handleRelease_fits {ctx : SessionCtx} {io : ReleaseIo} {relay : Relay} {user : AuthedUser}
    {token : String} {hosts : List String} {ports : List UInt16}
    (hrelease : (ControlFrame.release hosts ports).Fits) :
    (ctx.handleRelease io relay user token hosts ports).1.Fits := by
  have hhosts := releaseHosts_sublist ctx.domain user.userId io.hosts relay.db (hosts.map toAsciiLowercase)
  have hports := releasePorts_sublist user.userId io.ports
    (releaseHosts ctx.domain user.userId io.hosts relay.db (hosts.map toAsciiLowercase)).2 ports
  have hsize := entriesSize_of_sublist hhosts hports
  rw [entriesSize_lowercase] at hsize
  have hfits := fits_released_iff.2 (hsize.trans (fits_release_iff.1 hrelease))
  unfold SessionCtx.handleRelease
  split
  · exact tooLarge_fits.2
  · dsimp only
    split <;> exact hfits

/-! ## Evictions -/

/-- The notice of an eviction repeats a hostname. -/
def Resource.HasRoom (why : String) : Resource → Prop
  | .host name => Echo.HasRoom ("tunnel Host(\"\")".utf8ByteSize + why.utf8ByteSize, name)
  | .port _ => True

theorem fits_stopped_iff {code : DenyCode} {why : String} (hwhy : why.utf8ByteSize ≤ 100) {x : Resource} :
    (ControlFrame.denied code ("tunnel " ++ x.debug ++ why)).Fits ↔ x.HasRoom why := by
  rw [fits_denied_iff, String.utf8ByteSize_append, String.utf8ByteSize_append]
  have htunnel : "tunnel ".utf8ByteSize = 7 := rfl
  cases x with
  | host name =>
    have hopen : "Host(\"".utf8ByteSize = 6 := rfl
    have hclose : "\")".utf8ByteSize = 2 := rfl
    have hall : "tunnel Host(\"\")".utf8ByteSize = 15 := rfl
    rw [Resource.debug, Resource.HasRoom, Echo.HasRoom, String.utf8ByteSize_append,
      String.utf8ByteSize_append]
    dsimp only
    omega
  | port p =>
    have hp := utf8ByteSize_port_le p
    have hopen : "Port(".utf8ByteSize = 5 := rfl
    have hclose : ")".utf8ByteSize = 1 := rfl
    have hroom : messageRoom = 65531 := rfl
    rw [Resource.debug, String.utf8ByteSize_append, String.utf8ByteSize_append]
    refine iff_of_true ?_ trivial
    omega

theorem evicted_hasRoom_iff {why : String} {router : Router} {hosts : List String} {ports : List UInt16} :
    (∀ x ∈ router.evicted hosts ports, x.2.HasRoom why) ↔
      ∀ h ∈ hosts, router.get (.host h) ≠ none → Resource.HasRoom why (.host h) := by
  have hmem : ∀ handle x, (handle, x) ∈ router.evicted hosts ports ↔
      x ∈ resources hosts ports ∧ router.get x = some handle := (RouterInner.evictRoutes_affected hosts ports).2
  constructor
  · intro h name hname hget
    obtain ⟨handle, hhandle⟩ := Option.ne_none_iff_exists'.1 hget
    exact h (handle, .host name) ((hmem _ _).2 ⟨host_mem_resources.2 hname, hhandle⟩)
  · rintro h ⟨handle, x⟩ hx
    obtain ⟨hin, hget⟩ := (hmem handle x).1 hx
    cases x with
    | host name => exact h name (host_mem_resources.1 hin) (by rw [hget]; exact Option.some_ne_none handle)
    | port p => trivial

/-! ## Listings -/

/-- The bytes of the cap in a listing: whether there is one, and twice its number. -/
def CapDecision.wireSize : CapDecision → Nat
  | .allow => 1
  | .denyAll => 2
  | .cap m => 1 + varintSize (2 * m.toNat)

namespace ControlTask

variable (task : ControlTask) (io : TurnIo) (relay : Relay)

/-- The account's names in a listing; a failed query lists nothing. -/
def listedHosts : List HostnameRec :=
  if Clear io.ownedHostnames 1 then relay.db.hostnames.filter (·.userId == task.user.userId) else []

def listedPorts : List PortRec :=
  if Clear io.ownedPorts 1 then relay.db.tcpPorts.filter (·.userId == task.user.userId) else []

/-- The size of a listing. A name is its label, a dot and the domain. -/
def listingSize : Nat :=
  let hosts := task.listedHosts io relay
  let ports := task.listedPorts io relay
  1 + (varintSize hosts.length +
      (hosts.map fun r => textSize (r.label.utf8ByteSize + 1 + task.ctx.domain.utf8ByteSize)).sum) +
    (varintSize ports.length + (ports.map fun r => varintSize r.port.toNat).sum) +
    task.ctx.polar.elim 1 fun gate =>
      (gate.capFor relay.cache task.user.name io.now io.capFails).wireSize

variable {task io relay}

theorem length_listedHosts :
    (hostnames.enc (Registry.ownedHostnames io.ownedHostnames relay.db task.ctx.domain
      task.user.userId)).length = varintSize (task.listedHosts io relay).length +
      ((task.listedHosts io relay).map fun r =>
        textSize (r.label.utf8ByteSize + 1 + task.ctx.domain.utf8ByteSize)).sum := by
  have hname : ∀ r : HostnameRec, (fqdn task.ctx.domain r.label).utf8ByteSize =
      r.label.utf8ByteSize + 1 + task.ctx.domain.utf8ByteSize := by
    intro r
    have hdot : ".".utf8ByteSize = 1 := rfl
    rw [fqdn, String.utf8ByteSize_append, String.utf8ByteSize_append, hdot, Nat.add_assoc]
  rw [ownedHostnames_eq, length_hostnames, listedHosts]
  split
  · have hrun : Registry.ownedHostnames [] relay.db task.ctx.domain task.user.userId =
        ((relay.db.hostnames.filter (·.userId == task.user.userId)).insertionSort fun a b =>
          a.createdAt < b.createdAt ∨ a.createdAt = b.createdAt ∧ a.id ≤ b.id).map
            fun r => fqdn task.ctx.domain r.label := rfl
    rw [hrun, List.length_map, List.length_insertionSort, List.map_map, Function.comp_def]
    simp only [hname]
    rw [((List.perm_insertionSort _ _).map _).sum_eq]
  · rfl

theorem length_listedPorts :
    (tcpPorts.enc (Registry.ownedPorts io.ownedPorts relay.db task.user.userId)).length =
      varintSize (task.listedPorts io relay).length +
        ((task.listedPorts io relay).map fun r => varintSize r.port.toNat).sum := by
  rw [ownedPorts_eq, length_tcpPorts, listedPorts]
  split
  · have hrun : Registry.ownedPorts [] relay.db task.user.userId =
        ((relay.db.tcpPorts.filter (·.userId == task.user.userId)).insertionSort fun a b =>
          a.port ≤ b.port).map (·.port) := rfl
    rw [hrun, List.length_map, List.length_insertionSort, List.map_map, Function.comp_def,
      ((List.perm_insertionSort _ _).map _).sum_eq]
  · rfl

theorem length_maxTunnels (hcaps : relay.cache.CapsI64) :
    ((option i64).enc (task.maxTunnels io relay)).length = task.ctx.polar.elim 1 fun gate =>
      (gate.capFor relay.cache task.user.name io.now io.capFails).wireSize := by
  unfold maxTunnels
  cases task.ctx.polar with
  | none => rfl
  | some gate =>
    rw [Option.bind_some, Option.elim_some]
    cases hd : gate.capFor relay.cache task.user.name io.now io.capFails with
    | allow => rfl
    | denyAll => rfl
    | cap m =>
      have hm := capFor_i64 hcaps hd
      have hsome : (option i64).enc (some (Int64.ofInt (max m 0))) =
          1 :: i64.enc (Int64.ofInt (max m 0)) := rfl
      dsimp only
      rw [hsome, List.length_cons, length_i64 (le_max_right m 0) (max_lt hm.2 (by decide)),
        CapDecision.wireSize, Nat.add_comm]
      congr 2
      omega

theorem fits_listing_iff (hcaps : relay.cache.CapsI64) :
    (ControlFrame.owned (Registry.ownedHostnames io.ownedHostnames relay.db task.ctx.domain task.user.userId)
      (Registry.ownedPorts io.ownedPorts relay.db task.user.userId) (task.maxTunnels io relay)).Fits ↔
    task.listingSize io relay ≤ maxControlFrame := by
  rw [fits_owned_iff, entriesSize, length_listedHosts, length_listedPorts, length_maxTunnels hcaps, listingSize]
  omega

end ControlTask

/-! ## All replies -/

/-- Room for what the reply repeats: the hostname or error in the refusal of a claim, the account's names
and ports in a listing. -/
def ControlTask.HasRoom (task : ControlTask) (io : TurnIo) (relay : Relay) : ControlFrame → Prop
  | .claim hosts ports => hosts.length + ports.length ≤ maxClaimEntries →
    task.ctx.ClaimRoom io.claim relay task.user task.token.expose (hosts.map toAsciiLowercase) ports
  | .listOwned => task.listingSize io relay ≤ maxControlFrame
  | _ => True

theorem Turn.written_reply {relay : Relay} {reply : ControlFrame} {notices : Notices}
    {exit : Option (Except CodecError Unit)} :
    (Turn.mk relay (some reply) notices exit).Written ↔ reply.Fits ∧ ∀ n ∈ notices, n.2.Fits := by
  rw [Turn.written_iff]
  simp only [Turn.pushed, Option.toList_some, List.singleton_append, List.forall_mem_cons,
    List.forall_mem_map]

theorem Turn.written_quiet {relay : Relay} {exit : Option (Except CodecError Unit)} :
    (Turn.mk relay none [] exit).Written :=
  Turn.written_iff.2 fun _ h => absurd h List.not_mem_nil

/-- **Replies and room.** A request that `read_frame` accepts is answered with frames that `write_frame`
accepts, just when there is room for what the answer repeats; and a notice of an eviction is accepted just
when there is room for the hostname in it: of a routed name that the tick no longer finds to be the user's, or
of a routed name past the cap. -/
theorem replies_written_iff (task : ControlTask) (io : TurnIo) (relay : Relay)
    (hcaps : relay.cache.CapsI64) :
    (∀ frame : ControlFrame, frame.Fits →
      ((task.dispatch io relay frame).Written ↔ task.HasRoom io relay frame)) ∧
    ((∀ n ∈ (task.evictRevoked io relay).1, n.2.Fits) ↔
      ∀ h ∈ io.order, relay.router.get (.host h) ≠ none →
        ¬ (relay.db.owns task.ctx.domain task.user.userId (.host h) = true ∧ Clear (io.owns h) 1) →
        Resource.HasRoom " stopped: hostname revoked" (.host h)) ∧
    ∀ domain labels ports, (∀ n ∈ (tearDownRoutes domain relay.router labels ports).2, n.2.Fits) ↔
      ∀ l ∈ labels, relay.router.get (.host (fqdn domain l)) ≠ none →
        Resource.HasRoom " stopped: plan change reduced your limit" (.host (fqdn domain l)) := by
  refine ⟨fun frame hfits => ?_, ?_, fun domain labels ports => ?_⟩
  · cases frame with
    | claim hosts ports => exact Turn.written_reply.trans (SessionCtx.handleClaim_fits_iff hcaps hfits)
    | release hosts ports =>
      exact iff_of_true (Turn.written_reply.2 ⟨handleRelease_fits hfits, nofun⟩) trivial
    | listOwned =>
      exact Turn.written_reply.trans ((and_iff_left nofun).trans (ControlTask.fits_listing_iff hcaps))
    | ping nonce => exact iff_of_true (Turn.written_reply.2 ⟨fits_pong nonce, nofun⟩) trivial
    | hello => exact iff_of_true (Turn.written_reply.2 ⟨by decide, nofun⟩) trivial
    | _ => exact iff_of_true Turn.written_quiet trivial
  · have hnotices : (∀ n ∈ (task.evictRevoked io relay).1, n.2.Fits) ↔
        ∀ x ∈ relay.router.evicted (task.revoked io relay) [], x.2.HasRoom " stopped: hostname revoked" := by
      unfold ControlTask.evictRevoked
      dsimp only
      split
      · rename_i hnone
        rw [hnone]
        exact iff_of_true nofun nofun
      · rw [List.forall_mem_map]
        exact forall₂_congr fun x _ => fits_stopped_iff (by decide)
    rw [hnotices, evicted_hasRoom_iff]
    simp only [ControlTask.revoked, List.mem_filter, Bool.not_eq_true', ← Bool.not_eq_true,
      ownsHostname_eq_true, clear_one]
    exact forall_congr' fun h => ⟨fun hall hin hget hlost => hall ⟨hin, hlost⟩ hget,
      fun hall hin hget => hall hin.1 hget hin.2⟩
  · rw [tearDownRoutes, List.forall_mem_map]
    refine (forall₂_congr fun x _ => fits_stopped_iff (by decide)).trans ?_
    rw [evicted_hasRoom_iff, List.forall_mem_map]

/-- `ann` claims a free name, and pings. -/
theorem replies_written_iff_ann :
    (annTask.dispatch {} annRelay (.claim ["shop.d.io"] [])).Written ∧
      (annTask.dispatch {} annRelay (.ping 7)).Written := by
  have h := (replies_written_iff annTask {} annRelay nofun).1
  have hroom : annTask.HasRoom {} annRelay (.claim ["shop.d.io"] []) :=
    fun _ => .of_short (by decide) nofun
  exact ⟨(h (.claim ["shop.d.io"] []) (by decide)).2 hroom, (h (.ping 7) (by decide)).2 trivial⟩

/-! ## A name without room -/

theorem labelOf_of_no_dot {domain name : String} (h : '.' ∉ name.toList) : labelOf domain name = none := by
  have hsuffix : ¬ ("." ++ domain).toList <:+ name.toList := by
    intro hsuffix
    exact h (hsuffix.subset (by simp))
  rw [labelOf, stripSuffix, if_neg hsuffix]

/-- `n` letters. -/
def longName (n : Nat) : String := String.ofList (List.replicate n 'a')

theorem utf8ByteSize_longName (n : Nat) : (longName n).utf8ByteSize = n := by
  rw [utf8ByteSize_eq_sum, longName, String.toList_ofList, List.map_replicate, List.sum_replicate]
  exact Nat.mul_one n

theorem entriesSize_longName (n : Nat) : entriesSize [longName n] [] = (usizeEnc n).length + n + 3 := by
  have hhosts : (hostnames.enc [longName n]).length = 1 + (string.enc (longName n)).length := by
    have henc : hostnames.enc [longName n] = 1 :: (string.enc (longName n) ++ []) := rfl
    rw [henc, List.append_nil, List.length_cons, Nat.add_comm]
  have hports : (tcpPorts.enc []).length = 1 := rfl
  rw [entriesSize, hhosts, hports, length_string, utf8ByteSize_longName]
  omega

/-- The refusal of a long name. -/
def longRefusal (n : Nat) : ControlFrame :=
  .denied .notOwner ("cannot claim " ++ longName n ++ ": " ++ "not a valid hostname under this relay")

theorem length_longRefusal (n : Nat) :
    (ControlFrame.wire.enc (longRefusal n)).length = (usizeEnc (n + 52)).length + n + 54 := by
  have hsize : ("cannot claim " ++ longName n ++ ": " ++
      "not a valid hostname under this relay").utf8ByteSize = n + 52 := by
    have hpre : "cannot claim ".utf8ByteSize = 13 := rfl
    have hcolon : ": ".utf8ByteSize = 2 := rfl
    have hwhy : "not a valid hostname under this relay".utf8ByteSize = 37 := rfl
    simp only [String.utf8ByteSize_append, utf8ByteSize_longName]
    omega
  rw [longRefusal, length_denied, hsize]
  omega

theorem dispatch_longName {task : ControlTask} (hpolar : task.ctx.polar = none) (io : TurnIo)
    (relay : Relay) (n : Nat) :
    (task.dispatch io relay (.claim [longName n] [])).reply = some (longRefusal n) := by
  have hlower : toAsciiLowercase (longName n) = longName n := by
    rw [longName, toAsciiLowercase, String.toList_ofList, List.map_replicate]
    rfl
  have hlabel : labelOf task.ctx.domain (longName n) = none := by
    refine labelOf_of_no_dot ?_
    rw [longName, String.toList_ofList, List.mem_replicate]
    simp
  have hfew : ¬ maxClaimEntries < [longName n].length + ([] : List UInt16).length := by
    rw [List.length_singleton]
    decide
  have hclaim : (task.ctx.handleClaim io.claim relay task.handle task.user task.token.expose
      [longName n] []).1 = longRefusal n := by
    rw [SessionCtx.handleClaim, if_neg hfew, List.map_singleton, hlower]
    simp only [SessionCtx.claimPorts, SessionCtx.claimGate, hpolar, SessionCtx.claimHosts,
      SessionCtx.claimHost, Registry.claimHostname, hlabel]
    rfl
  exact congrArg some hclaim

/-- **A refusal closes the session.** The claim of one name of 65530 bytes is read; the refusal of the name
takes 65587 bytes, and the writer stops at it and cancels the session. -/
theorem refusal_too_large :
    (ControlFrame.claim [longName 65530] []).Fits ∧
    ∃ frame, (annTask.dispatch {} annRelay (.claim [longName 65530] [])).reply = some frame ∧
      (ControlFrame.wire.enc frame).length = 65587 ∧ spawnWriter [] [frame] = ([], true) := by
  have hclaim : (usizeEnc 65530).length = 3 := rfl
  have hreply : (usizeEnc (65530 + 52)).length = 3 := rfl
  have hmax : maxControlFrame = 65536 := rfl
  have hlen : (ControlFrame.wire.enc (longRefusal 65530)).length = 65587 := by
    rw [length_longRefusal, hreply]
  refine ⟨?_, longRefusal 65530, dispatch_longName rfl {} annRelay 65530, hlen, spawnWriter_cancels ?_ [] []⟩
  · rw [fits_claim_iff, entriesSize_longName, hclaim, hmax]
  · rw [ControlFrame.Fits, hlen, hmax]
    omega

end EtherTunnel
