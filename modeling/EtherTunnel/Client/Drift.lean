import EtherTunnel.Client.Commands
import EtherTunnel.Session.Revalidate

/-!
# Drift

The relay's registry and the local file both say which tunnels an account has. A resource that the relay owns
for the account and the file does not name is an orphan: it counts against the plan.

The first sections follow the registry through everything the machine makes the relay do: the handshake, a list,
a release with any of its deletes failing, the claim of a daemon. Only the claim makes an account own more. It
carries the names of the file as the daemon found it at its start, so a daemon that outlives an edit of the file
registers again, when it reconnects, what has been removed and released since. `orphans_have_cause` looks at
whole runs of commands and connections.
-/

namespace EtherTunnel

/-! ## Registries that gain nothing -/

/-- What `u` owns in `db'` they own in `db`. -/
def NoGain (domain : String) (u : Int) (db db' : Db) : Prop :=
  ∀ x, db'.owns domain u x = true → db.owns domain u x = true

namespace NoGain

variable {domain : String} {u : Int} {db db' db'' : Db}

theorem refl (db : Db) : NoGain domain u db db := fun _ h => h

theorem trans (h : NoGain domain u db db') (h' : NoGain domain u db' db'') : NoGain domain u db db'' :=
  fun x hx => h x (h' x hx)

theorem of_holds (h : Holds db db') : NoGain domain u db db' := by
  intro x hx
  rwa [h.owns] at hx

theorem dropOwned {v : Int} {labels : List String} {ports : List UInt16} :
    NoGain domain u db (db.dropOwned v labels ports) :=
  fun x hx => ((Db.dropOwned_owns x).1 hx).1

theorem gone {x : Resource} (h : NoGain domain u db db') (hx : db.owns domain u x = false) :
    db'.owns domain u x = false :=
  Bool.eq_false_iff.2 fun hown => Bool.eq_false_iff.1 hx (h x hown)

end NoGain

/-- A dropped row's resource is nobody's. -/
theorem owns_dropOwned_self {domain : String} {u v : Int} {db : Db} {labels : List String}
    {ports : List UInt16} {x : Resource} (hown : db.owns domain u x = true)
    (hx : x ∈ resources (labels.map (fqdn domain)) ports) :
    (db.dropOwned u labels ports).owns domain v x = false := by
  rw [← Bool.not_eq_true, Db.dropOwned_owns]
  rintro ⟨hv, hnot⟩
  exact hnot ⟨Db.owns_unique hv hown, hx⟩

section gate

variable {gate : PolarGate} {cache : LicenseCache} {live : Live} {domain : String} {u : Int}

theorem reconcileUserCap_noGain {name : String} {faults : Faults} {v cap : Int} :
    NoGain domain u live.db (reconcileUserCap name faults live v cap).1.db := by
  rcases reconcileUserCap_effect live v cap faults with h | ⟨h, -⟩ <;> rw [h]
  · exact .refl _
  · exact .dropOwned

theorem enforcePooledCap_noGain {name : String} {io : EnforceIo} {user : AuthedUser} {cap now : Int} :
    NoGain domain u live.db (gate.enforcePooledCap io cache name live user cap now).1.db := by
  obtain ⟨mid, hprune, hevict⟩ := enforcePooledCap_passes gate cache name io live user cap now
  have hmid : NoGain domain u live.db mid.db := by
    rcases hprune with ⟨pooled, -, rfl⟩ | ⟨-, rfl⟩
    · exact reconcileUserCap_noGain
    · exact .refl _
  rcases hevict with ⟨liveCap, -, hafter⟩ | ⟨-, hafter⟩
  · rw [hafter, (evictOverCap_effect mid user.userId _ io.evict).1]
    exact hmid
  · rw [hafter]
    exact hmid

theorem authenticate_noGain {io : AuthIo} {key : String} :
    NoGain domain u live.db (gate.authenticate io cache live key).live.db := by
  cases huser : (gate.authenticate io cache live key).user with
  | none => exact .of_holds (authenticate_unmoved huser).holds
  | some user =>
    rcases authenticate_cases gate io cache live key with ⟨ren, -, -, henforced⟩ | ⟨-, hholds, -⟩
    · obtain ⟨-, db, hholds, hlive⟩ := henforced user huser
      rw [hlive]
      exact (NoGain.of_holds hholds).trans enforcePooledCap_noGain
    · exact .of_holds hholds

end gate

theorem authenticateAny_noGain {ctx : SessionCtx} {hashToken : String → List UInt8} {io : CredentialIo}
    {relay : Relay} {token domain : String} {u : Int} :
    NoGain domain u relay.db (ctx.authenticateAny hashToken io relay token).2.2.db := by
  unfold SessionCtx.authenticateAny
  split
  · exact .refl _
  · split
    · exact authenticate_noGain
    · exact .refl _

theorem handshake_noGain (greeter : Greeter) (io : HandshakeIo) (relay : Relay) (rd : Reader)
    {domain : String} {u : Int} : NoGain domain u relay.db (greeter.handshake io relay rd).relay.db := by
  have hauth : ∀ {token user notices mid}, greeter.resolves io relay token = (user, notices, mid) →
      NoGain domain u relay.db mid.db := by
    intro token user notices mid h
    have hgain := @authenticateAny_noGain greeter.ctx greeter.hashToken io.credential relay token.expose
      domain u
    rwa [← Greeter.resolves, h] at hgain
  have hmet := greeter.handshake_met io relay rd
  generalize greeter.handshake io relay rd = h at hmet
  cases hmet with
  | dropped => exact .refl _
  | refused rest why =>
    rw [(Greeter.deny_frames io relay why rest).2.1]
    exact .refl _
  | @stranger token lo hi proto notices relay' rest why hopens hproto hres =>
    dsimp only
    rw [(Greeter.deny_frames io relay' why rest).2.1]
    exact hauth hres
  | stalled rest hopens hproto hres => exact hauth hres
  | welcomed rest hopens hproto hres => exact hauth hres

/-! ## A release, with deletes that may fail -/

section release

variable {domain : String} {u v : Int}

/-- What is reported as released is nobody's. -/
theorem releaseHosts_frees : ∀ (hosts : List String) (io : Nat → Faults) (db : Db),
    NoGain domain v db (releaseHosts domain u io db hosts).2 ∧
      ∀ h ∈ (releaseHosts domain u io db hosts).1,
        (releaseHosts domain u io db hosts).2.owns domain v (.host h) = false
  | [], io, db => ⟨.refl db, nofun⟩
  | host :: rest, io, db => by
    obtain ⟨hgain, hfree⟩ := releaseHosts_frees rest (fun i => io (i + 1))
      (Registry.releaseHostname (io 0) db domain u host).2
    rw [releaseHosts]
    dsimp only
    rcases releaseHostname_effect db u (io 0) domain host with hno | ⟨l, hl, hown, hyes⟩
    · rw [hno] at hgain hfree ⊢
      exact ⟨hgain, hfree⟩
    · rw [hyes] at hgain hfree ⊢
      refine ⟨NoGain.dropOwned.trans hgain, fun h hh => ?_⟩
      rcases List.mem_cons.1 hh with rfl | hh
      · refine hgain.gone (owns_dropOwned_self (Db.owns_host_iff.2 ⟨l, hl, hown⟩) ?_)
        rw [host_mem_resources, (labelOf_eq_some.1 hl).1]
        exact List.mem_singleton_self _
      · exact hfree h hh

theorem releasePorts_frees : ∀ (ports : List UInt16) (io : Nat → Faults) (db : Db),
    NoGain domain v db (releasePorts u io db ports).2 ∧
      ∀ p ∈ (releasePorts u io db ports).1, (releasePorts u io db ports).2.owns domain v (.port p) = false
  | [], io, db => ⟨.refl db, nofun⟩
  | port :: rest, io, db => by
    obtain ⟨hgain, hfree⟩ := releasePorts_frees rest (fun i => io (i + 1))
      (Registry.releasePort (io 0) db u port).2
    rw [releasePorts]
    dsimp only
    rcases releasePort_effect db u (io 0) port with hno | ⟨hown, hyes⟩
    · rw [hno] at hgain hfree ⊢
      exact ⟨hgain, hfree⟩
    · rw [hyes] at hgain hfree ⊢
      refine ⟨NoGain.dropOwned.trans hgain, fun p hp => ?_⟩
      rcases List.mem_cons.1 hp with rfl | hp
      · exact hgain.gone (owns_dropOwned_self (x := .port p) hown (port_mem_resources.2 List.mem_cons_self))
      · exact hfree p hp

variable {ctx : SessionCtx}

theorem handleRelease_frees (io : ReleaseIo) (relay : Relay) (user : AuthedUser) (token : String)
    (hosts : List String) (ports : List UInt16) :
    NoGain ctx.domain v relay.db (ctx.handleRelease io relay user token hosts ports).2.db ∧
      ∀ freedHosts freedPorts,
        (ctx.handleRelease io relay user token hosts ports).1 = .released freedHosts freedPorts →
        ∀ x ∈ resources freedHosts freedPorts,
          (ctx.handleRelease io relay user token hosts ports).2.db.owns ctx.domain v x = false := by
  unfold SessionCtx.handleRelease
  split
  · exact ⟨.refl _, fun _ _ h => by cases h⟩
  · obtain ⟨hgain, hfree⟩ := @releaseHosts_frees ctx.domain user.userId v (hosts.map toAsciiLowercase) io.hosts
      relay.db
    dsimp only
    generalize releaseHosts ctx.domain user.userId io.hosts relay.db (hosts.map toAsciiLowercase) = r
      at hgain hfree ⊢
    obtain ⟨names, mid⟩ := r
    obtain ⟨hgain', hfree'⟩ := @releasePorts_frees ctx.domain user.userId v ports io.ports mid
    dsimp only
    generalize releasePorts user.userId io.ports mid ports = r at hgain' hfree' ⊢
    obtain ⟨numbers, db⟩ := r
    have hnone : ∀ x ∈ resources names numbers, db.owns ctx.domain v x = false := by
      intro x hx
      cases x with
      | host h => exact hgain'.gone (hfree h (host_mem_resources.1 hx))
      | port p => exact hfree' p (port_mem_resources.1 hx)
    dsimp only
    split
    · exact ⟨hgain.trans hgain', fun _ _ h => by cases h; exact hnone⟩
    · exact ⟨hgain.trans hgain', fun _ _ h => by cases h; exact hnone⟩

end release

/-! ## What a request does to the registry -/

/-- While the request waits, the resource becomes `u`'s. -/
def RequestIo.Gains (io : RequestIo) (domain : String) (u : Int) (x : Resource) : Prop :=
  ∃ R : Relay, R.db.owns domain u x = false ∧ (io.between R).db.owns domain u x = true

/-- The resource is `u`'s in `db'` only if it was in `db`, or became so while the request waited. -/
def Since (io : RequestIo) (domain : String) (u : Int) (x : Resource) (db db' : Db) : Prop :=
  db'.owns domain u x = true → db.owns domain u x = true ∨ io.Gains domain u x

namespace Since

variable {io : RequestIo} {domain : String} {u : Int} {x : Resource} {db db' db'' : Db}

theorem refl (db : Db) : Since io domain u x db db := .inl

theorem noGain (h : Since io domain u x db db') (h' : NoGain domain u db' db'') : Since io domain u x db db'' :=
  fun hx => h (h' x hx)

end Since

namespace Greeter

variable {greeter : Greeter} {io : RequestIo} {relay : Relay} {token : String} {u : Int}

theorem onHello_rest (io : HandshakeIo) (relay : Relay) (rest : Reader) (secret : Secret) (lo hi : UInt16) :
    (greeter.onHello io relay rest secret lo hi).rest = rest := by
  have hdeny : ∀ why relay, (deny io why relay rest).rest = rest := by
    intro why relay
    unfold deny
    cases io.denyFails <;> rfl
  unfold onHello
  split
  · exact hdeny _ _
  · split
    · exact hdeny _ _
    · split <;> rfl

/-- After the client's own opening nothing is left to read, and a loop that follows has the relay's context. -/
theorem handshake_client (hello : (helloFrame io.agentVersion token).Fits)
    {task : ControlTask} (htask : (greeter.handshake io.handshake relay
      ⟨writePreamble [] ++ frameBytes ControlFrame.wire (helloFrame io.agentVersion token), none⟩).task =
        some task) :
    task.ctx = greeter.ctx ∧ (greeter.handshake io.handshake relay
      ⟨writePreamble [] ++ frameBytes ControlFrame.wire (helloFrame io.agentVersion token), none⟩).rest.bytes =
        [] := by
  have hmet := greeter.handshake_met io.handshake relay
    ⟨writePreamble [] ++ frameBytes ControlFrame.wire (helloFrame io.agentVersion token), none⟩
  have hrest : io.handshake.preambleLate = false ∧ io.handshake.helloLate = false →
      (greeter.handshake io.handshake relay
        ⟨writePreamble [] ++ frameBytes ControlFrame.wire (helloFrame io.agentVersion token), none⟩).rest.bytes =
          [] := by
    intro hreads
    rw [handshake_hello hello hreads, onHello_rest]
  generalize greeter.handshake io.handshake relay _ = h at hmet htask hrest
  cases hmet with
  | dropped | stalled => cases htask
  | refused rest why =>
    rw [(deny_frames io.handshake relay why rest).1] at htask
    cases htask
  | @stranger secret lo hi proto notices relay' rest why =>
    dsimp only at htask
    rw [(deny_frames io.handshake relay' why rest).1] at htask
    cases htask
  | welcomed rest hopens hproto hauth hstalled =>
    cases htask
    obtain ⟨hpreamble, hhello, -, -, -⟩ := opens_hello hello hopens
    exact ⟨rfl, hrest ⟨hpreamble, hhello⟩⟩

/-- The registry keeps `P` through a handshake and whatever happens before the request is served. -/
structure Carries (greeter : Greeter) (io : RequestIo) (P : Db → Prop) : Prop where
  shake : ∀ (R : Relay) (rd : Reader), P R.db → P (greeter.handshake io.handshake R rd).relay.db
  between : ∀ R : Relay, P R.db → P (io.between R).db

theorem carries_since {db : Db} {domain : String} {x : Resource} :
    greeter.Carries io (Since io domain u x db) where
  shake R rd h := h.noGain (handshake_noGain greeter io.handshake R rd)
  between R h hx := by
    cases hR : R.db.owns domain u x with
    | true => exact h hR
    | false => exact .inr ⟨R, hR, hx⟩

variable {P : Db → Prop}

theorem request_inv {what : String} {frame : ControlFrame} (hcarries : greeter.Carries io P)
    (hturn : ∀ (task : ControlTask) (R : Relay), task.ctx = greeter.ctx → P R.db →
      P (task.dispatch io.turn R frame).relay.db) (h : P relay.db) :
    P (greeter.request io relay token what frame).2.db := by
  unfold request
  cases hopen : openBytes io.agentVersion token with
  | error e => exact h
  | ok sent =>
    obtain ⟨hello, rfl⟩ := writeFrame_ok hopen
    have hmet := hcarries.shake relay
      ⟨writePreamble [] ++ frameBytes ControlFrame.wire (helloFrame io.agentVersion token), none⟩ h
    have hclient := @handshake_client greeter io relay token hello
    dsimp only
    generalize greeter.handshake io.handshake relay _ = hs at hmet hclient ⊢
    split
    · exact hmet
    · split
      · exact hmet
      · cases hwrite : writeFrame ControlFrame.wire [] frame maxControlFrame with
        | error e => exact hmet
        | ok bytes =>
          obtain ⟨hfits, rfl⟩ := writeFrame_ok hwrite
          have hserved := hcarries.between hs.relay hmet
          dsimp only [Handshake.answers]
          cases htask : hs.task with
          | none => exact hserved
          | some task =>
            -- the request is the one frame that the relay has to read
            obtain ⟨hctx, hrest⟩ := hclient htask
            have hread := readFrame_one hfits []
            rw [List.append_nil] at hread
            dsimp only
            rw [hrest, List.nil_append, List.nil_append, hread]
            exact hturn task _ hctx hserved

theorem listOwned_inv (hcarries : greeter.Carries io P) (h : P relay.db) :
    P (greeter.listOwned io relay token).2.db :=
  request_inv hcarries (fun _ _ _ hR => hR) h

theorem release_inv {hosts : List String} {ports : List UInt16} (hcarries : greeter.Carries io P)
    (hrelease : ∀ (R : Relay) (user : AuthedUser) (secret : String), P R.db →
      P (greeter.ctx.handleRelease io.turn.release R user secret hosts ports).2.db) (h : P relay.db) :
    P (greeter.release io relay token hosts ports).2.db := by
  refine request_inv hcarries (fun task R hctx hR => ?_) h
  have hserved := hrelease R task.user task.token.expose hR
  rw [← hctx] at hserved
  exact hserved

theorem verify_inv (hcarries : greeter.Carries io P) (h : P relay.db) :
    P (greeter.verify io relay token).2.db := by
  unfold verify
  split
  · exact h
  · exact hcarries.shake relay _ h

/-- What the client is told was released is nobody's afterwards. -/
theorem release_frees {hosts : List String} {ports : List UInt16} {freed : ReleasedSet}
    (h : (greeter.release io relay token hosts ports).1 = .ok freed) :
    ∀ x ∈ resources freed.hostnames freed.tcpPorts,
      (greeter.release io relay token hosts ports).2.db.owns greeter.ctx.domain u x = false := by
  dsimp only [release] at h
  obtain ⟨reply, hreply, hof⟩ := bind_eq_ok.1 h
  obtain ⟨hclear, user, notices, mid, hauth, hframe, -⟩ := request_ok_iff.1 hreply
  rw [release_turn] at hframe
  rw [release, request_eq hclear hauth, release_turn]
  refine (handleRelease_frees io.turn.release (io.between mid) user token hosts ports).2 freed.hostnames
    freed.tcpPorts ?_
  rw [Option.some.inj hframe]
  cases reply <;> cases hof
  rfl

end Greeter

/-! ## What the daemon's claim does to the registry -/

theorem Registered.gains {domain : String} {u v : Int} {hosts : List String} {db db' : Db} {x : Resource}
    (h : Registered domain u hosts db db') (hx : db'.owns domain v x = true) :
    db.owns domain v x = true ∨ ∃ name ∈ hosts, x = .host name := by
  obtain ⟨added, htab, hadded⟩ := h.rows
  cases x with
  | host name =>
    obtain ⟨l, hl, hown⟩ := Db.owns_host_iff.1 hx
    obtain ⟨r, hr, rfl, hu⟩ := Db.hasLabel_iff.1 hown
    rw [htab] at hr
    rcases List.mem_append.1 hr with hr | hr
    · exact .inl (Db.owns_host_iff.2 ⟨r.label, hl, Db.hasLabel_iff.2 ⟨r, hr, rfl, hu⟩⟩)
    · obtain ⟨-, name', hname', hl'⟩ := hadded r hr
      refine .inr ⟨name', hname', ?_⟩
      rw [(labelOf_eq_some.1 hl).1, (labelOf_eq_some.1 hl').1]
  | port p =>
    obtain ⟨r, hr, hrow⟩ := Db.hasPort_iff.1 hx
    rw [htab] at hr
    exact .inl (Db.hasPort_iff.2 ⟨r, hr, hrow⟩)

theorem handleClaim_gains {ctx : SessionCtx} {io : ClaimIo} {relay : Relay} {handle : SessionHandle}
    {user : AuthedUser} {token : String} {hostnames : List String} {ports : List UInt16} {u : Int}
    {x : Resource}
    (hx : (ctx.handleClaim io relay handle user token hostnames ports).2.2.db.owns ctx.domain u x = true) :
    relay.db.owns ctx.domain u x = true ∨ ∃ name ∈ hostnames.map toAsciiLowercase, x = .host name := by
  have hrun := (handleClaim_run ctx io relay handle user token hostnames ports).1
  generalize ctx.handleClaim io relay handle user token hostnames ports = res at hx hrun
  cases hrun with
  | refused why hsplit hrouter hreg =>
    rw [hsplit]
    exact (hreg.gains hx).imp_right fun ⟨name, hname, h⟩ => ⟨name, List.mem_append_left _ hname, h⟩
  | granted notices hports hrouter hreg => exact hreg.gains hx

/-- Of a connection, only the claim has to keep `P`. -/
theorem connectOnce_inv {greeter : Greeter} {io : RequestIo} {claim : ClaimIo} {relay : Relay}
    {client : ClientConfig} {P : Db → Prop} (hcarries : greeter.Carries io P)
    (hclaim : ∀ (R : Relay) (handle : SessionHandle) (user : AuthedUser), P R.db →
      P (greeter.ctx.handleClaim claim R handle user client.token client.claimHostnames
        client.claimPorts).2.2.db) (h : P relay.db) :
    P (greeter.connectOnce io claim relay client).db := by
  unfold Greeter.connectOnce
  cases hopen : openBytes io.agentVersion client.token with
  | error e => exact h
  | ok sent =>
    obtain ⟨hello, rfl⟩ := writeFrame_ok hopen
    have hmet := hcarries.shake relay
      ⟨writePreamble [] ++ frameBytes ControlFrame.wire (helloFrame io.agentVersion client.token), none⟩ h
    have hclient := @Greeter.handshake_client greeter io relay client.token hello
    dsimp only
    generalize greeter.handshake io.handshake relay _ = hs at hmet hclient ⊢
    split
    · rename_i task _ htask
      have hserved := hcarries.between hs.relay hmet
      rw [(hclient htask).1]
      unfold ClientConfig.claimExchange
      split
      · exact hserved
      · split
        · exact hserved
        · rename_i bytes hwrite
          rw [readFrame_writeFrame (by decide) hwrite]
          exact hclaim _ task.handle task.user hserved
    · exact hmet

/-! ## Orphans -/

/-- A tunnel's resource as the relay knows it. -/
def FileConfig.resourceOf (cfg : FileConfig) (t : TunnelConfig) : List Resource :=
  resources ((tunnelResource cfg t).1.map toAsciiLowercase) (tunnelResource cfg t).2

/-- Some tunnel of the file has the resource. -/
def FileConfig.Names (cfg : FileConfig) (x : Resource) : Prop := ∃ t ∈ cfg.tunnels, x ∈ cfg.resourceOf t

instance (cfg : FileConfig) (x : Resource) : Decidable (cfg.Names x) :=
  inferInstanceAs (Decidable (∃ t ∈ cfg.tunnels, x ∈ cfg.resourceOf t))

/-- The configured relay owns the resource for `u`, and the file does not name it. -/
structure Orphan (greeters : String → Greeter) (u : Int) (W : World) (x : Resource) : Prop where
  owned : (W.relays W.cfg.relay).db.owns (greeters W.cfg.relay).ctx.domain u x = true
  unnamed : ¬ W.cfg.Names x

/-- The commands that can leave a resource behind: an `add` in the place of its tunnel, and a `remove` of its
tunnel that did not report it as released. -/
def LeavesBehind (greeters : String → Greeter) (x : Resource) (V : World) (io : CommandIo) : Command → Prop
  | .add name _ _ _ _ => ∃ t ∈ V.cfg.tunnels, t.name = name ∧ x ∈ V.cfg.resourceOf t
  | .remove name => (∃ t ∈ V.cfg.tunnels, t.name = name ∧ x ∈ V.cfg.resourceOf t) ∧
      ∀ removal freed, (V.remove greeters io name).1 = .ok removal → removal.released = .ok freed →
        x ∉ resources freed.hostnames freed.tcpPorts
  | _ => False

/-- The configuration claims the name that the relay knows as `x`. A claim registers no port. -/
def ClientConfig.Claims (client : ClientConfig) (x : Resource) : Prop :=
  ∃ name ∈ client.claimHostnames.map toAsciiLowercase, x = .host name

/-- A daemon that runs claims the resource, whether or not the file still names it. -/
def World.StillClaimed (V : World) (r : String) (x : Resource) : Prop :=
  ∃ client ∈ V.daemons, client.relayHost = r ∧ client.Claims x

/-- What makes an orphan: a command that leaves the resource behind, or a daemon that claims it when it connects
though the file does not name it. Such a claim may also be served while a command, or another daemon, waits. -/
def Strands (greeters : String → Greeter) (u : Int) (x : Resource) (V : World) : CliAct → Prop
  | .command io cmd => LeavesBehind greeters x V io cmd ∨
      V.StillClaimed V.cfg.relay x ∧ io.request.Gains (greeters V.cfg.relay).ctx.domain u x
  | .connect i io => ¬ V.cfg.Names x ∧
      ((∃ client, V.daemons[i]? = some client ∧ client.relayHost = V.cfg.relay ∧ client.Claims x) ∨
        V.StillClaimed V.cfg.relay x ∧ io.request.Gains (greeters V.cfg.relay).ctx.domain u x)
  | _ => False

/-- Nobody but the machine's own daemons makes `u` own more at the relay `r`. -/
def Unaided (greeters : String → Greeter) (u : Int) (r : String) (V : World) : CliAct → Prop
  | .command io _ => ∀ x, io.request.Gains (greeters r).ctx.domain u x → V.StillClaimed r x
  | .connect _ io => ∀ x, io.request.Gains (greeters r).ctx.domain u x → V.StillClaimed r x
  | .interrupt _ => True
  | .others name f => name = r → NoGain (greeters r).ctx.domain u (V.relays r).db (f (V.relays r)).db

/-- The `up` that starts a daemon with this configuration. -/
def Starts (client : ClientConfig) (V : World) : CliAct → Prop
  | .command io .up => ∃ token, credsResolve io V.creds V.cfg.relay = .ok (some token) ∧
      V.cfg.toClientConfig token = .ok client
  | _ => False

section orphans

variable {greeters : String → Greeter} {W W' : World} {io : CommandIo} {u : Int} {x : Resource}

theorem Orphan.of_cfg {io : RequestIo} (h : Orphan greeters u W' x) (hcfg : W'.cfg = W.cfg)
    (hsince : Since io (greeters W.cfg.relay).ctx.domain u x (W.relays W.cfg.relay).db
      (W'.relays W.cfg.relay).db) :
    Orphan greeters u W x ∨ io.Gains (greeters W.cfg.relay).ctx.domain u x := by
  obtain ⟨howned, hunnamed⟩ := h
  rw [hcfg] at howned hunnamed
  exact (hsince howned).imp_left fun hbefore => ⟨hbefore, hunnamed⟩

section carried

variable {P : Db → Prop} {r : String}

theorem setRelay_inv {name : String} {R : Relay} (h : P (W.relays r).db) (hR : name = r → P R.db) :
    P ((W.setRelay name R).relays r).db := by
  dsimp only [World.setRelay]
  by_cases hname : name = r
  · subst hname
    rw [Function.update_self]
    exact hR rfl
  · rw [Function.update_of_ne (Ne.symm hname)]
    exact h

theorem fetchOwned_inv (hcarries : (greeters W.cfg.relay).Carries io.request P)
    (h : P (W.relays W.cfg.relay).db) : P ((W.fetchOwned greeters io).2.relays W.cfg.relay).db := by
  unfold World.fetchOwned
  split
  · exact h
  · split
    · exact h
    · exact setRelay_inv h fun _ => Greeter.listOwned_inv hcarries h

theorem requestRelease_inv {resource : List String × List UInt16}
    (hcarries : (greeters W.cfg.relay).Carries io.request P)
    (hrelease : ∀ (R : Relay) (user : AuthedUser) (secret : String), P R.db →
      P ((greeters W.cfg.relay).ctx.handleRelease io.request.turn.release R user secret resource.1
        resource.2).2.db) (h : P (W.relays W.cfg.relay).db) :
    P ((W.requestRelease greeters io resource).2.relays W.cfg.relay).db := by
  unfold World.requestRelease
  split
  · exact h
  · split
    · exact h
    · exact setRelay_inv h fun _ => Greeter.release_inv hcarries hrelease h

theorem login_inv {arg : Option String} {input : LoginInput} (hset : W.cfg.relay ≠ "")
    (hcarries : (greeters r).Carries io.request P) (h : P (W.relays r).db) :
    (W.login greeters io arg input).2.cfg = W.cfg ∧ P ((W.login greeters io arg input).2.relays r).db := by
  unfold World.login
  split
  · exact ⟨rfl, h⟩
  dsimp only
  split
  · exact ⟨rfl, h⟩
  split
  · exact ⟨rfl, h⟩
  split
  · exact ⟨rfl, h⟩
  split
  · exact ⟨rfl, h⟩
  rename_i token _ _ _ _
  have hverify : P ((W.setRelay (resolveRelay arg W.cfg.relay) ((greeters (resolveRelay arg W.cfg.relay)).verify
      io.request (W.relays (resolveRelay arg W.cfg.relay)) token).2).relays r).db := by
    refine setRelay_inv h fun hname => ?_
    rw [hname]
    exact Greeter.verify_inv hcarries h
  generalize (greeters (resolveRelay arg W.cfg.relay)).verify io.request
    (W.relays (resolveRelay arg W.cfg.relay)) token = verdict at hverify ⊢
  obtain ⟨e | ok, R⟩ := verdict
  · exact ⟨rfl, hverify⟩
  · dsimp only
    split
    · exact ⟨rfl, hverify⟩
    · rw [if_pos (show (W.setRelay (resolveRelay arg W.cfg.relay) R).cfg.relay ≠ "" from hset)]
      exact ⟨rfl, hverify⟩

theorem supervise_inv {io : ConnectIo} {client : ClientConfig}
    (hcarries : client.relayHost = r → (greeters r).Carries io.request P)
    (hclaim : client.relayHost = r → ∀ (R : Relay) (handle : SessionHandle) (user : AuthedUser), P R.db →
      P ((greeters r).ctx.handleClaim io.claim R handle user client.token client.claimHostnames
        client.claimPorts).2.2.db) (h : P (W.relays r).db) :
    P ((W.supervise greeters io client).relays r).db := by
  unfold World.supervise
  split
  · exact h
  · refine setRelay_inv h fun hname => ?_
    rw [hname]
    exact connectOnce_inv (hcarries hname) (hclaim hname) h

end carried

theorem requestRelease_frees (W : World) {resource : List String × List UInt16} {freed : ReleasedSet}
    (h : (W.requestRelease greeters io resource).1 = .ok freed) :
    ∀ x ∈ resources freed.hostnames freed.tcpPorts,
      ((W.requestRelease greeters io resource).2.relays W.cfg.relay).db.owns
        (greeters W.cfg.relay).ctx.domain u x = false := by
  unfold World.requestRelease at h ⊢
  split at h
  · cases h
  · rename_i token htoken
    split at h
    · cases h
    · rename_i hreached
      dsimp only at h
      cases hrel : ((greeters W.cfg.relay).release io.request (W.relays W.cfg.relay) token resource.1
        resource.2).1 with
      | error e =>
        rw [hrel] at h
        cases h
      | ok freed' =>
        rw [hrel] at h
        cases h
        rw [if_neg hreached]
        dsimp only [World.setRelay]
        rw [Function.update_self]
        exact Greeter.release_frees hrel

theorem orphan_add {name : String} {port : UInt16} {hostname : Option String} {tcpPublicPort : Option UInt16}
    {localHost : Option String}
    (h : Orphan greeters u (W.add greeters io name port hostname tcpPublicPort localHost).2 x) :
    Orphan greeters u W x ∨ (∃ t ∈ W.cfg.tunnels, t.name = name ∧ x ∈ W.cfg.resourceOf t) ∨
      io.request.Gains (greeters W.cfg.relay).ctx.domain u x := by
  unfold World.add at h
  split at h
  · exact .inl h
  · dsimp only at h
    split at h
    · exact .inl h
    · generalize ht : TunnelConfig.mk name port (localHost.getD "127.0.0.1")
        (if tcpPublicPort.isSome then .tcp else .http) hostname tcpPublicPort = t at h
      obtain ⟨howned, hunnamed⟩ := h
      rw [(fetchOwned_files _ io).1] at howned hunnamed
      by_cases hnamed : W.cfg.Names x
      · obtain ⟨t', ht', hx⟩ := hnamed
        by_cases hname : t'.name = name
        · exact .inr (.inl ⟨t', ht', hname, hx⟩)
        · refine absurd ⟨t', List.mem_append_left _ (List.mem_filter.2 ⟨ht', ?_⟩), hx⟩ hunnamed
          rw [← ht]
          exact decide_eq_true hname
      · have hsince := @fetchOwned_inv greeters { W with cfg := W.cfg.put t } io
          (Since io.request (greeters W.cfg.relay).ctx.domain u x (W.relays W.cfg.relay).db)
          Greeter.carries_since (.refl _)
        exact (hsince howned).imp (fun hbefore => ⟨hbefore, hnamed⟩) .inr

/-- All but the first tunnel of a name stay. -/
theorem mem_drop_or {cfg : FileConfig} {name : String} {t t' : TunnelConfig}
    (hfind : cfg.tunnels.find? (·.name = name) = some t) (ht' : t' ∈ cfg.tunnels) :
    t' ∈ (cfg.drop name).tunnels ∨ t' = t := by
  obtain ⟨hp, before, after, heq, hbefore⟩ := List.find?_eq_some_iff_append.1 hfind
  have hdrop : (cfg.drop name).tunnels = before ++ after := by
    unfold FileConfig.drop
    dsimp only
    rw [heq, List.eraseP_append_right _ fun b hb => by simpa using hbefore b hb]
    have hfirst : (t :: after).eraseP (·.name = name) = after := List.eraseP_cons_of_pos hp
    rw [hfirst]
  rw [hdrop]
  rw [heq] at ht'
  rcases List.mem_append.1 ht' with h | h
  · exact .inl (List.mem_append_left _ h)
  · exact (List.mem_cons.1 h).symm.imp_left (List.mem_append_right _)

theorem orphan_remove {name : String} (h : Orphan greeters u (W.remove greeters io name).2 x) :
    Orphan greeters u W x ∨ ((∃ t ∈ W.cfg.tunnels, t.name = name ∧ x ∈ W.cfg.resourceOf t) ∧
      ∀ removal freed, (W.remove greeters io name).1 = .ok removal → removal.released = .ok freed →
        x ∉ resources freed.hostnames freed.tcpPorts) ∨
      io.request.Gains (greeters W.cfg.relay).ctx.domain u x := by
  unfold World.remove at h ⊢
  split at h
  · exact .inl h
  · rename_i hloads
    rw [if_neg hloads]
    split at h
    · exact .inl h
    · rename_i t hfind
      split at h
      · exact .inl h
      · rename_i hsaves
        dsimp only at h ⊢
        rw [if_neg hsaves]
        obtain ⟨howned, hunnamed⟩ := h
        rw [(requestRelease_files _ io _).1] at howned hunnamed
        by_cases hnamed : W.cfg.Names x
        · obtain ⟨t', ht', hx⟩ := hnamed
          rcases mem_drop_or hfind ht' with hmem | rfl
          · exact absurd ⟨t', hmem, hx⟩ hunnamed
          · have hname := List.find?_some hfind
            refine .inr (.inl ⟨⟨t', ht', of_decide_eq_true hname, hx⟩, ?_⟩)
            rintro removal freed ⟨⟩ hfreed hmem
            have hgone := @requestRelease_frees greeters io u { W with cfg := W.cfg.drop name } _ freed hfreed
              x hmem
            exact Bool.eq_false_iff.1 hgone howned
        · have hsince := @requestRelease_inv greeters { W with cfg := W.cfg.drop name } io
            (Since io.request (greeters W.cfg.relay).ctx.domain u x (W.relays W.cfg.relay).db)
            (tunnelResource W.cfg t) Greeter.carries_since
            (fun R user secret h => h.noGain (handleRelease_frees _ R user secret _ _).1) (.refl _)
          exact (hsince howned).imp (fun hbefore => ⟨hbefore, hnamed⟩) .inr

theorem orphan_command {cmd : Command} (hset : W.cfg.relay ≠ "")
    (h : Orphan greeters u (W.exec greeters io cmd) x) :
    Orphan greeters u W x ∨ LeavesBehind greeters x W io cmd ∨
      io.request.Gains (greeters W.cfg.relay).ctx.domain u x := by
  cases cmd with
  | login arg input =>
    obtain ⟨hcfg, hsince⟩ := @login_inv greeters W io _ W.cfg.relay arg input hset
      Greeter.carries_since (.refl _)
    exact (h.of_cfg hcfg hsince).imp_right .inr
  | add name port hostname tcpPublicPort localHost => exact orphan_add h
  | remove name => exact orphan_remove h
  | up =>
    obtain ⟨howned, hunnamed⟩ := h
    dsimp only [World.exec] at howned hunnamed
    rw [(up_files W io).1, (up_files W io).2.2] at howned
    rw [(up_files W io).1] at hunnamed
    exact .inl ⟨howned, hunnamed⟩
  | list json =>
    change Orphan greeters u (W.list greeters io json).2 x at h
    unfold World.list at h
    split at h
    · exact .inl h
    · split at h
      · exact .inl h
      · exact (h.of_cfg (fetchOwned_files W io).1
          (fetchOwned_inv Greeter.carries_since (.refl _))).imp_right .inr
  | release target =>
    change Orphan greeters u (W.release greeters io target).2 x at h
    unfold World.release at h
    split at h
    · exact .inl h
    · exact (h.of_cfg (requestRelease_files W io _).1 (requestRelease_inv Greeter.carries_since
        (fun R user secret h => h.noGain (handleRelease_frees _ R user secret _ _).1) (.refl _))).imp_right .inr

/-- A daemon claims what it was started with. -/
theorem orphan_connect {io : ConnectIo} {client : ClientConfig}
    (h : Orphan greeters u (W.supervise greeters io client) x) :
    Orphan greeters u W x ∨ (client.relayHost = W.cfg.relay ∧ client.Claims x) ∨
      io.request.Gains (greeters W.cfg.relay).ctx.domain u x := by
  obtain ⟨howned, hunnamed⟩ := h
  rw [(supervise_files W io client).1] at howned hunnamed
  have hkept := @supervise_inv greeters W (fun db => db.owns (greeters W.cfg.relay).ctx.domain u x = true →
    ((W.relays W.cfg.relay).db.owns (greeters W.cfg.relay).ctx.domain u x = true ∨
      io.request.Gains (greeters W.cfg.relay).ctx.domain u x) ∨
      client.relayHost = W.cfg.relay ∧ client.Claims x) W.cfg.relay io client
    (fun _ => ⟨fun R rd hR hx => hR (handshake_noGain _ _ R rd x hx), fun R hR hx => ?between⟩)
    (fun hhost R handle user hR hx => (handleClaim_gains hx).elim hR fun hname => .inr ⟨hhost, hname⟩)
    (fun hx => .inl (.inl hx)) howned
  case between =>
    cases hown : R.db.owns (greeters W.cfg.relay).ctx.domain u x with
    | true => exact hR hown
    | false => exact .inl (.inr ⟨R, hown, hx⟩)
  rcases hkept with (hbefore | hgains) | hclaims
  · exact .inl ⟨hbefore, hunnamed⟩
  · exact .inr (.inr hgains)
  · exact .inr (.inl hclaims)

theorem orphan_step {act : CliAct} (hset : W.cfg.relay ≠ "") (hact : Unaided greeters u W.cfg.relay W act)
    (hs : W.step greeters act = some W') (h : Orphan greeters u W' x) :
    Orphan greeters u W x ∨ Strands greeters u x W act := by
  cases act with
  | command io cmd =>
    cases hs
    exact (orphan_command hset h).imp_right fun hcause => hcause.imp_right fun hgains =>
      ⟨hact x hgains, hgains⟩
  | connect i io =>
    obtain ⟨client, hclient, rfl⟩ := Option.map_eq_some_iff.1 hs
    have hunnamed := h.unnamed
    rw [(supervise_files W io client).1] at hunnamed
    refine (orphan_connect h).imp_right fun hcause => ⟨hunnamed, ?_⟩
    exact hcause.imp (fun hclaims => ⟨client, hclient, hclaims⟩) fun hgains => ⟨hact x hgains, hgains⟩
  | interrupt i =>
    obtain ⟨client, -, rfl⟩ := Option.map_eq_some_iff.1 hs
    exact .inl ⟨h.owned, h.unnamed⟩
  | others name f =>
    cases hs
    refine .inl ⟨?_, h.unnamed⟩
    refine setRelay_inv (P := NoGain _ u _) (.refl _) (fun hname => ?_) x h.owned
    rw [hname]
    exact hact hname

theorem starts_step {act : CliAct} {client : ClientConfig} (hs : W.step greeters act = some W')
    (h : client ∈ W'.daemons) : client ∈ W.daemons ∨ Starts client W act := by
  cases act with
  | command io cmd =>
    cases hs
    rcases @exec_daemons greeters W io cmd with hkept | ⟨rfl, client', hup, hstarted⟩
    · exact .inl (hkept ▸ h)
    · rw [hstarted] at h
      rcases List.mem_append.1 h with h | h
      · exact .inl h
      · obtain rfl := List.mem_singleton.1 h
        exact .inr hup
  | connect i io =>
    obtain ⟨client', -, rfl⟩ := Option.map_eq_some_iff.1 hs
    rw [supervise_daemons] at h
    exact .inl h
  | interrupt i =>
    obtain ⟨client', -, rfl⟩ := Option.map_eq_some_iff.1 hs
    exact .inl (List.mem_of_mem_eraseIdx h)
  | others name f =>
    cases hs
    exact .inl h

end orphans

/-- **No silent drift.** Take any run of commands and of the daemons they start, on a machine with a configured
relay, with whatever files, connections and deletes failing, in which nobody else makes the account own more. A
resource that the relay owns for the account in the end, and that the file does not name, was such an orphan in
the beginning, or was the resource of a tunnel that an `add` replaced, or of one that a `remove` dropped without
reporting it as released, or was claimed by a daemon that connected with an older configuration: one that it had
in the beginning, or that an `up` of the run loaded from the file as it was then. -/
theorem orphans_have_cause (greeters : String → Greeter) (u : Int) (W W' : World) (acts : List CliAct)
    (hset : W.cfg.relay ≠ "")
    (hunaided : Lts.Steps (World.step greeters) (Unaided greeters u W.cfg.relay) W acts)
    (hrun : Lts.run (World.step greeters) W acts = some W') :
    (∀ x, Orphan greeters u W' x →
      Orphan greeters u W x ∨ ∃ p ∈ Lts.trace (World.step greeters) W acts, Strands greeters u x p.1 p.2) ∧
    ∀ p ∈ Lts.trace (World.step greeters) W acts, ∀ client ∈ p.1.daemons, client ∈ W.daemons ∨
      ∃ q ∈ Lts.trace (World.step greeters) W acts, Starts client q.1 q.2 := by
  refine ⟨fun x h => ?_, fun p hp client hclient => ?_⟩
  · generalize hr : W.cfg.relay = r at hset hunaided
    -- the configured relay stays the same along the run
    have hsteps : Lts.Steps (World.step greeters)
        (fun V act => V.cfg.relay = r ∧ Unaided greeters u r V act) W acts :=
      Lts.steps_of_inv (I := fun V => V.cfg.relay = r)
        (fun V act V' hV _ hs => (step_relay hs (hV ▸ hset)).trans hV) (fun V act hV hG => ⟨hV, hG⟩) hr hunaided
    refine Lts.cause_of_run (P := fun V => Orphan greeters u V x) (C := Strands greeters u x) ?_ hsteps hrun h
    rintro V act V' ⟨rfl, hG⟩ hs hV'
    exact orphan_step hset hG hs hV'
  · obtain ⟨before, hbefore, hmem⟩ := Lts.run_of_mem_trace (World.step greeters) hp
    refine (Lts.cause_of_run (P := fun V => client ∈ V.daemons) (G := fun _ _ => True) (C := Starts client)
      (fun _ _ _ _ hs => starts_step hs) (Lts.steps_of_forall fun _ _ => trivial) hbefore hclient).imp_right ?_
    rintro ⟨q, hq, hstarts⟩
    exact ⟨q, hmem q hq, hstarts⟩

/-- `ann` is logged in to `d.io`, where they own `app`, and the file names it. -/
def annMachine : World where
  cfg := ⟨"d.io", [{ name := "app", port := 8080 }]⟩
  creds := Finmap.insert "d.io" "t1" ∅
  relays := hostedRelay

/-- `etun up`; while its daemon runs, `etun remove app`, which reports the name as released; then the daemon
loses its connection and makes another. -/
def reclaimed : List CliAct :=
  [.command {} .up, .connect 0 {}, .command {} (.remove "app"), .connect 0 {}]

theorem orphans_have_cause_reclaimed :
    ((Lts.run (World.step Greeter.plainGreeter) annMachine (reclaimed.take 2)).bind fun V =>
      (V.remove Greeter.plainGreeter {} "app").1.toOption.bind fun removal =>
        removal.released.toOption.map (·.hostnames)) = some ["app.d.io"] ∧
    ∃ W', Lts.run (World.step Greeter.plainGreeter) annMachine reclaimed = some W' ∧
    Orphan Greeter.plainGreeter 1 W' (.host "app.d.io") ∧
    ∃ p ∈ Lts.trace (World.step Greeter.plainGreeter) annMachine reclaimed,
      Strands Greeter.plainGreeter 1 (.host "app.d.io") p.1 p.2 := by
  have hend : (Lts.run (World.step Greeter.plainGreeter) annMachine reclaimed).map (fun W => (W.cfg.tunnels,
      (W.relays W.cfg.relay).db.owns (Greeter.plainGreeter W.cfg.relay).ctx.domain 1 (.host "app.d.io"))) =
        some ([], true) := by decide +kernel
  obtain ⟨W', hrun, hfiles⟩ := Option.map_eq_some_iff.1 hend
  rw [Prod.mk.injEq] at hfiles
  have horphan : Orphan Greeter.plainGreeter 1 W' (.host "app.d.io") :=
    ⟨hfiles.2, by unfold FileConfig.Names; rw [hfiles.1]; simp⟩
  refine ⟨by decide +kernel, W', hrun, horphan, ?_⟩
  have hnone : ∀ {V : World} (x : Resource), ({} : RequestIo).Gains "d.io" 1 x → V.StillClaimed "d.io" x := by
    rintro V x ⟨R, hno, hyes⟩
    exact absurd (hno.symm.trans hyes) Bool.false_ne_true
  have hsteps : Lts.Steps (World.step Greeter.plainGreeter) (Unaided Greeter.plainGreeter 1 "d.io") annMachine
      reclaimed := ⟨hnone, fun _ _ => ⟨hnone, fun _ _ => ⟨hnone, fun _ _ => ⟨hnone, fun _ _ => trivial⟩⟩⟩⟩
  rcases (orphans_have_cause Greeter.plainGreeter 1 annMachine W' reclaimed (by decide) hsteps hrun).1 _ horphan
    with h | h
  · exact absurd (by decide) h.unnamed
  · exact h

end EtherTunnel
