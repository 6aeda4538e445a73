import EtherTunnel.Client.Config
import EtherTunnel.Lib.Lts
import EtherTunnel.Session.Control

/-!
# The daemon's status

| here | there |
| --- | --- |
| `ConnState`, `DaemonStatus` | `supervisor.rs:108-123` |
| `StatusSnapshot.fromDaemon` | `client/src/status.rs:25-39`; what `etun status` prints |
| `Supervisor.attempt`, `ended`, `wake` | `run_supervisor` (`supervisor.rs:151-211`): the loop head, the code after `connect_once`, the end of the sleep |
| `Supervisor.handshake`, `claimReply` | `connect_once` (`supervisor.rs:290-348`): the two replies it waits for |
| `Supervisor.read` | the reader task (`supervisor.rs:352-379`) |
| `Supervisor.step` | these, and the ways `connect_once` ends: an error, the dead connection, a failed ping, the two `cancelled` branches |

The network, the timers and the order in which ready branches are taken are the environment: an event is
one of them. `lived` is `started.elapsed() > STABLE_RESET`. What is published between two awaits is one
step. `granted` and `since` are what a truthful status would have to be read off: what was granted on the
connection, and the frames read from it since.
-/

namespace EtherTunnel

/-! ## The status -/

inductive ConnState where
  | connecting
  | connected
  | authFailed
deriving DecidableEq

structure DaemonStatus where
  state : ConnState := .connecting
  grantedHostnames : List String := []
  grantedPorts : List UInt16 := []
  reconnects : UInt32 := 0
deriving DecidableEq

structure StatusSnapshot where
  state : String
  relay : String
  grantedHostnames : List String
  grantedPorts : List UInt16
  reconnects : UInt32
  pid : UInt32
deriving DecidableEq

def StatusSnapshot.fromDaemon (relay : String) (pid : UInt32) (s : DaemonStatus) : StatusSnapshot where
  state :=
    match s.state with
    | .connecting => "connecting"
    | .connected => "connected"
    | .authFailed => "auth_failed"
  relay := relay
  grantedHostnames := s.grantedHostnames
  grantedPorts := s.grantedPorts
  reconnects := s.reconnects
  pid := pid

/-! ## The supervisor -/

inductive SupervisorPhase where
  | top
  /-- Up to the reply to `Hello`. -/
  | connecting
  /-- Authenticated, up to the reply to `Claim`. -/
  | claiming
  | steady (readerDone : Bool)
  | sleeping (wait : Nat) (authFailed : Bool)
  | stopped
deriving DecidableEq

structure Supervisor where
  phase : SupervisorPhase := .top
  status : DaemonStatus := {}
  backoff : Nat := 1
  reconnects : UInt32 := 0
  cancelled : Bool := false
  granted : List Resource := []
  since : List ControlFrame := []
deriving DecidableEq

inductive SupervisorEvent where
  | cancel
  | attempt
  /-- An error of `connect_once` before its steady state. -/
  | fails (lived : Bool)
  | frame (f : ControlFrame) (lived : Bool)
  /-- The dead-man timer, or a failed read. -/
  | readerEnds
  | disconnected (lived : Bool)
  | pingFails (lived : Bool)
  /-- `connect_once` sees the cancellation. -/
  | goodbye (lived : Bool)
  /-- `run_supervisor` sees the cancellation. -/
  | stop
  | wake

def backoffMax : Nat := 60

def backoffAuth : Nat := 300

namespace Supervisor

variable (cfg : ClientConfig) (S : Supervisor)

def attempt : Supervisor :=
  if S.cancelled then { S with phase := .stopped }
  else { S with phase := .connecting, status := { S.status with state := .connecting } }

/-- What follows the return of `connect_once`. -/
def ended (authFailed lived : Bool) : Supervisor :=
  let S := { S with
    status := { S.status with grantedHostnames := [], grantedPorts := [] }, granted := [], since := [] }
  if S.cancelled then { S with phase := .stopped }
  else
    let backoff := if !authFailed && lived then 1 else S.backoff
    let wait := if authFailed then backoffAuth else backoff
    let state := if authFailed then .authFailed else S.status.state
    let reconnects := S.reconnects + 1
    { S with
      phase := .sleeping wait authFailed, backoff := backoff, reconnects := reconnects
      status := { S.status with state := state, reconnects := reconnects } }

def wake (authFailed : Bool) : Supervisor :=
  { S with phase := .top, backoff := if authFailed then S.backoff else min (S.backoff * 2) backoffMax }

/-- The reply to `Hello`. -/
def handshake (f : ControlFrame) (lived : Bool) : Supervisor :=
  match f with
  | .welcome _ _ _ =>
    if cfg.claimHostnames ≠ [] ∨ cfg.claimPorts ≠ [] then { S with phase := .claiming }
    else { S with phase := .steady false, status := { S.status with state := .connected } }
  | .denied .authFailed _ => S.ended true lived
  | _ => S.ended false lived

/-- The reply to `Claim`. -/
def claimReply (f : ControlFrame) (lived : Bool) : Supervisor :=
  match f with
  | .granted hostnames tcpPorts =>
    { S with
      phase := .steady false
      status := { S.status with
        state := .connected, grantedHostnames := hostnames, grantedPorts := tcpPorts }
      granted := resources hostnames tcpPorts, since := [] }
  | .denied _ _ => { S with phase := .steady false, status := { S.status with state := .connected } }
  | _ => S.ended false lived

/-- The reader task: `Pong` and `Superseded` are logged at most, and only `Shutdown` ends it. -/
def read (f : ControlFrame) : Supervisor :=
  let done :=
    match f with
    | .shutdown _ => true
    | _ => false
  { S with phase := .steady done, since := S.since ++ [f] }

def step : SupervisorEvent → Option Supervisor
  | .cancel => some { S with cancelled := true }
  | .attempt => if S.phase = .top then some S.attempt else none
  | .fails lived =>
    if S.phase = .connecting ∨ S.phase = .claiming then some (S.ended false lived) else none
  | .frame f lived =>
    match S.phase with
    | .connecting => some (S.handshake cfg f lived)
    | .claiming => some (S.claimReply f lived)
    | .steady false => some (S.read f)
    | .top | .steady true | .sleeping _ _ | .stopped => none
  | .readerEnds => if S.phase = .steady false then some { S with phase := .steady true } else none
  | .disconnected lived => if S.phase = .steady true then some (S.ended false lived) else none
  | .pingFails lived =>
    if S.phase = .steady false ∨ S.phase = .steady true then some (S.ended false lived) else none
  | .goodbye lived =>
    if S.cancelled ∧ (S.phase = .steady false ∨ S.phase = .steady true) then some (S.ended false lived)
    else none
  | .stop =>
    if S.cancelled ∧ S.phase ∉ [.top, .stopped] then some { S with phase := .stopped, granted := [], since := [] }
    else none
  | .wake =>
    match S.phase with
    | .sleeping _ authFailed => some (S.wake authFailed)
    | .top | .connecting | .claiming | .steady _ | .stopped => none

/-! ## Truth -/

/-- An authenticated control connection is open. -/
def Connected : Prop := S.phase = .claiming ∨ ∃ done, S.phase = .steady done

/-- The resources that the status lists. -/
def published : List Resource := resources S.status.grantedHostnames S.status.grantedPorts

end Supervisor

/-- The frame tells a session that the resource is no longer routed to it: it was superseded, or it is an
eviction notice, from the session's own tick or from the license gate. -/
def TakesAway (f : ControlFrame) (r : Resource) : Prop :=
  f = .superseded r ∨ f = .denied .notOwner ("tunnel " ++ r.debug ++ " stopped: hostname revoked") ∨
    f = .denied .limitExceeded ("tunnel " ++ r.debug ++ " stopped: plan change reduced your limit")

/-- The notices of a tick that finds hostnames revoked. -/
theorem takesAway_of_evictRevoked {task : ControlTask} {io : TurnIo} {relay : Relay}
    {handle : SessionHandle} {f : ControlFrame} (h : (handle, f) ∈ (task.evictRevoked io relay).1) :
    ∃ r, (handle, r) ∈ relay.router.evicted (task.revoked io relay) [] ∧ TakesAway f r := by
  unfold ControlTask.evictRevoked at h
  dsimp only at h
  split at h
  · cases h
  · obtain ⟨⟨_, r⟩, hr, ⟨⟩⟩ := List.mem_map.1 h
    exact ⟨r, hr, .inr (.inl rfl)⟩

/-- The notices of the license gate. -/
theorem takesAway_of_tearDownRoutes {domain : String} {router : Router} {labels : List String}
    {ports : List UInt16} {handle : SessionHandle} {f : ControlFrame}
    (h : (handle, f) ∈ (tearDownRoutes domain router labels ports).2) :
    ∃ r, (handle, r) ∈ router.evicted (labels.map (fqdn domain)) ports ∧ TakesAway f r := by
  obtain ⟨⟨_, r⟩, hr, ⟨⟩⟩ := List.mem_map.1 h
  exact ⟨r, hr, .inr (.inr rfl)⟩

namespace Supervisor

structure Truthful (S : Supervisor) : Prop where
  state : ¬ S.Connected → S.status.state ≠ .connected
  grants : ∀ r ∈ S.published, r ∈ S.granted ∧ ∀ f ∈ S.since, ¬ TakesAway f r

/-- An event that ends a connection on which `Connected` was published. -/
def EndsConnection (S : Supervisor) : SupervisorEvent → Prop
  | .disconnected _ => S.phase = .steady true
  | .pingFails _ => ∃ done, S.phase = .steady done
  | .goodbye _ | .stop => S.cancelled = true ∧ ∃ done, S.phase = .steady done
  | .cancel | .attempt | .fails _ | .frame _ _ | .readerEnds | .wake => False

/-- An event that takes nothing back that was published. -/
def TakesNothingBack (S : Supervisor) (ev : SupervisorEvent) : Prop :=
  ¬ S.EndsConnection ev ∧
    ∀ f lived, ev = .frame f lived → S.phase = .steady false → ∀ r ∈ S.published, ¬ TakesAway f r

/-- What each phase finds in the status. -/
structure Inv (S : Supervisor) : Prop where
  unconnected : S.phase = .connecting ∨ S.phase = .claiming → S.status.state ≠ .connected
  connected : ∀ done, S.phase = .steady done → S.status.state = .connected
  cleared : (∀ done, S.phase ≠ .steady done) → S.phase ≠ .stopped → S.published = []
  published : ∀ done, S.phase = .steady done → ∀ r ∈ S.published, r ∈ S.granted

variable {cfg : ClientConfig} {S S' : Supervisor} {ev : SupervisorEvent} {f : ControlFrame}
  {lived authFailed : Bool}

theorem inv_start : Inv {} := ⟨fun h => by simp at h, nofun, fun _ _ => rfl, nofun⟩

theorem truthful_start : Truthful {} := ⟨fun _ => nofun, nofun⟩

theorem connected_steady {done : Bool} (h : S.phase = .steady done) : S.Connected := .inr ⟨done, h⟩

theorem not_connected (hclaiming : S.phase ≠ .claiming) (hsteady : ∀ done, S.phase ≠ .steady done) :
    ¬ S.Connected := by
  rintro (h | ⟨done, h⟩)
  · exact hclaiming h
  · exact hsteady done h

/-- A status that lists nothing is truthful as soon as its state is. -/
theorem truthful_of_nil (hnone : S.published = []) (hstate : ¬ S.Connected → S.status.state ≠ .connected) :
    S.Truthful := by
  refine ⟨hstate, fun r hr => ?_⟩
  rw [hnone] at hr
  cases hr

/-- In a phase without a connection, what has to be kept is little. -/
theorem inv_of_phase (hphase : S.phase = .stopped ∨ S.published = [])
    (hidle : S.phase ≠ .connecting) (hoff : ¬ S.Connected) : S.Inv where
  unconnected h := absurd (.inl (h.resolve_left hidle)) hoff
  connected _ h := absurd (connected_steady h) hoff
  cleared _ hne := hphase.resolve_left hne
  published _ h := absurd (connected_steady h) hoff

/-! ### After a connection -/

theorem ended_phase (S : Supervisor) (authFailed lived : Bool) :
    (S.ended authFailed lived).phase = .stopped ∨
      ∃ wait, (S.ended authFailed lived).phase = .sleeping wait authFailed := by
  unfold ended
  dsimp only
  split
  · exact .inl rfl
  · exact .inr ⟨_, rfl⟩

theorem ended_published (S : Supervisor) (authFailed lived : Bool) :
    (S.ended authFailed lived).published = [] := by
  unfold ended
  dsimp only
  split <;> rfl

theorem ended_state (S : Supervisor) (lived : Bool) :
    (S.ended false lived).status.state = S.status.state := by
  unfold ended
  dsimp only
  split <;> rfl

theorem ended_not_connected : ¬ (S.ended authFailed lived).Connected := by
  rcases ended_phase S authFailed lived with h | ⟨wait, h⟩
  · exact not_connected (by rw [h]; nofun) (by rw [h]; nofun)
  · exact not_connected (by rw [h]; nofun) (by rw [h]; nofun)

theorem inv_ended : Inv (S.ended authFailed lived) := by
  refine inv_of_phase (.inr (ended_published S authFailed lived)) (fun h => ?_) ended_not_connected
  rcases ended_phase S authFailed lived with h' | ⟨wait, h'⟩ <;> rw [h'] at h <;> cases h

/-- The end of a connection attempt: nothing said `Connected` yet, and nothing does now. -/
theorem truthful_ended (h : S.status.state ≠ .connected) : Truthful (S.ended authFailed lived) := by
  refine truthful_of_nil (ended_published S authFailed lived) fun _ => ?_
  unfold ended
  dsimp only
  split
  · exact h
  · cases authFailed
    · exact h
    · nofun

/-- The end of a connection that was up: the state is left as it was. -/
theorem not_truthful_ended (h : S.status.state = .connected) : ¬ Truthful (S.ended false lived) := by
  intro htrue
  exact htrue.state ended_not_connected ((ended_state S lived).trans h)

/-! ### Replies -/

/-- A reply either ends the attempt, or leads on with the status as the phase after it has it. -/
theorem handshake_cases (cfg : ClientConfig) (S : Supervisor) (f : ControlFrame) (lived : Bool) :
    (∃ auth, S.handshake cfg f lived = S.ended auth lived) ∨
      S.handshake cfg f lived = { S with phase := .claiming } ∨
      S.handshake cfg f lived =
        { S with phase := .steady false, status := { S.status with state := .connected } } := by
  unfold handshake
  split
  · split
    · exact .inr (.inl rfl)
    · exact .inr (.inr rfl)
  · exact .inl ⟨true, rfl⟩
  · exact .inl ⟨false, rfl⟩

theorem claimReply_cases (S : Supervisor) (f : ControlFrame) (lived : Bool) :
    S.claimReply f lived = S.ended false lived ∨
      S.claimReply f lived =
        { S with phase := .steady false, status := { S.status with state := .connected } } ∨
      ∃ hostnames tcpPorts, S.claimReply f lived = { S with
        phase := .steady false
        status := { S.status with
          state := .connected, grantedHostnames := hostnames, grantedPorts := tcpPorts }
        granted := resources hostnames tcpPorts, since := [] } := by
  unfold claimReply
  split
  · exact .inr (.inr ⟨_, _, rfl⟩)
  · exact .inr (.inl rfl)
  · exact .inl rfl

/-- Authenticated, with nothing granted. -/
theorem inv_steady (hnone : S.published = []) :
    Inv { S with phase := .steady false, status := { S.status with state := .connected } } where
  unconnected h := by simp at h
  connected _ _ := rfl
  cleared h _ := absurd rfl (h false)
  published _ _ r hr := by
    change r ∈ S.published at hr
    rw [hnone] at hr
    cases hr

theorem truthful_steady (hnone : S.published = []) :
    Truthful { S with phase := .steady false, status := { S.status with state := .connected } } :=
  truthful_of_nil hnone fun h => absurd (.inr ⟨false, rfl⟩) h

theorem cleared_of_phase (h : S.Inv) (hphase : S.phase = .connecting ∨ S.phase = .claiming) :
    S.published = [] := by
  refine h.cleared (fun done hs => ?_) fun hs => ?_
  · rcases hphase with h' | h' <;> rw [h'] at hs <;> cases hs
  · rcases hphase with h' | h' <;> rw [h'] at hs <;> cases hs

theorem handshake_ok (h : S.Inv) (hphase : S.phase = .connecting) :
    Inv (S.handshake cfg f lived) ∧ Truthful (S.handshake cfg f lived) := by
  have hnone := cleared_of_phase h (.inl hphase)
  have hstate := h.unconnected (.inl hphase)
  rcases handshake_cases cfg S f lived with ⟨auth, heq⟩ | heq | heq
  · rw [heq]
    exact ⟨inv_ended, truthful_ended hstate⟩
  · rw [heq]
    refine ⟨⟨fun _ => hstate, nofun, fun _ _ => hnone, nofun⟩, truthful_of_nil hnone fun _ => hstate⟩
  · rw [heq]
    exact ⟨inv_steady hnone, truthful_steady hnone⟩

theorem claimReply_ok (h : S.Inv) (hphase : S.phase = .claiming) :
    Inv (S.claimReply f lived) ∧ Truthful (S.claimReply f lived) := by
  have hnone := cleared_of_phase h (.inr hphase)
  have hstate := h.unconnected (.inr hphase)
  rcases claimReply_cases S f lived with heq | heq | ⟨hostnames, tcpPorts, heq⟩
  · rw [heq]
    exact ⟨inv_ended, truthful_ended hstate⟩
  · rw [heq]
    exact ⟨inv_steady hnone, truthful_steady hnone⟩
  · rw [heq]
    refine ⟨⟨fun h' => by simp at h', fun _ _ => rfl, fun h' _ => absurd rfl (h' false), fun _ _ r hr => hr⟩,
      ⟨fun h' => absurd (.inr ⟨false, rfl⟩) h', fun r hr => ⟨hr, nofun⟩⟩⟩

/-! ### Steps -/

/-- What an event does in the phases that it can happen in. -/
inductive Moved (cfg : ClientConfig) (S : Supervisor) : SupervisorEvent → Supervisor → Prop where
  | cancel : Moved cfg S .cancel { S with cancelled := true }
  | attempt (hphase : S.phase = .top) : Moved cfg S .attempt S.attempt
  | fails (lived : Bool) (hphase : S.phase = .connecting ∨ S.phase = .claiming) :
      Moved cfg S (.fails lived) (S.ended false lived)
  | handshake (f : ControlFrame) (lived : Bool) (hphase : S.phase = .connecting) :
      Moved cfg S (.frame f lived) (S.handshake cfg f lived)
  | claimReply (f : ControlFrame) (lived : Bool) (hphase : S.phase = .claiming) :
      Moved cfg S (.frame f lived) (S.claimReply f lived)
  | read (f : ControlFrame) (lived : Bool) (hphase : S.phase = .steady false) :
      Moved cfg S (.frame f lived) (S.read f)
  | readerEnds (hphase : S.phase = .steady false) : Moved cfg S .readerEnds { S with phase := .steady true }
  | ends {ev : SupervisorEvent} (lived : Bool) (hends : S.EndsConnection ev) (hev : ev ≠ .stop) :
      Moved cfg S ev (S.ended false lived)
  | stop (hcancelled : S.cancelled = true) (hphase : S.phase ∉ [.top, .stopped]) :
      Moved cfg S .stop { S with phase := .stopped, granted := [], since := [] }
  | wake (wait : Nat) (authFailed : Bool) (hphase : S.phase = .sleeping wait authFailed) :
      Moved cfg S .wake (S.wake authFailed)

theorem moved_of_step (h : S.step cfg ev = some S') : Moved cfg S ev S' := by
  have hsteady : S.phase = .steady false ∨ S.phase = .steady true → ∃ done, S.phase = .steady done :=
    fun h => h.elim (fun h => ⟨_, h⟩) fun h => ⟨_, h⟩
  cases ev with
  | cancel =>
    cases h
    exact .cancel
  | attempt =>
    obtain ⟨hphase, ⟨⟩⟩ := Option.ite_none_right_eq_some.1 h
    exact .attempt hphase
  | fails lived =>
    obtain ⟨hphase, ⟨⟩⟩ := Option.ite_none_right_eq_some.1 h
    exact .fails lived hphase
  | frame f lived =>
    simp only [step] at h
    cases hphase : S.phase with
    | top | sleeping | stopped =>
      rw [hphase] at h
      cases h
    | connecting =>
      rw [hphase] at h
      cases h
      exact .handshake f lived hphase
    | claiming =>
      rw [hphase] at h
      cases h
      exact .claimReply f lived hphase
    | steady done =>
      rw [hphase] at h
      cases done with
      | true => cases h
      | false =>
        cases h
        exact .read f lived hphase
  | readerEnds =>
    obtain ⟨hphase, ⟨⟩⟩ := Option.ite_none_right_eq_some.1 h
    exact .readerEnds hphase
  | disconnected lived =>
    obtain ⟨hphase, ⟨⟩⟩ := Option.ite_none_right_eq_some.1 h
    exact .ends lived hphase nofun
  | pingFails lived =>
    obtain ⟨hphase, ⟨⟩⟩ := Option.ite_none_right_eq_some.1 h
    exact .ends lived (hsteady hphase) nofun
  | goodbye lived =>
    obtain ⟨⟨hcancelled, hphase⟩, ⟨⟩⟩ := Option.ite_none_right_eq_some.1 h
    exact .ends lived ⟨hcancelled, hsteady hphase⟩ nofun
  | stop =>
    obtain ⟨⟨hcancelled, hphase⟩, ⟨⟩⟩ := Option.ite_none_right_eq_some.1 h
    exact .stop hcancelled hphase
  | wake =>
    simp only [step] at h
    cases hphase : S.phase with
    | top | connecting | claiming | steady | stopped =>
      rw [hphase] at h
      cases h
    | sleeping wait authFailed =>
      rw [hphase] at h
      cases h
      exact .wake wait authFailed hphase

theorem EndsConnection.steady (h : S.EndsConnection ev) : ∃ done, S.phase = .steady done := by
  cases ev with
  | disconnected => exact ⟨true, h⟩
  | pingFails => exact h
  | goodbye | stop => exact h.2
  | cancel | attempt | fails | frame | readerEnds | wake => exact h.elim

theorem Inv.moved (h : S.Inv) (hmove : Moved cfg S ev S') : S'.Inv := by
  cases hmove with
  | cancel => exact ⟨h.unconnected, h.connected, h.cleared, h.published⟩
  | attempt hphase =>
    have hnone : S.published = [] := h.cleared (by rw [hphase]; nofun) (by rw [hphase]; nofun)
    unfold attempt
    split
    · exact inv_of_phase (.inl rfl) nofun (not_connected nofun nofun)
    · exact ⟨fun _ => nofun, nofun, fun _ _ => hnone, nofun⟩
  | fails | ends => exact inv_ended
  | handshake f lived hphase => exact (handshake_ok h hphase).1
  | claimReply f lived hphase => exact (claimReply_ok h hphase).1
  | read f lived hphase =>
    exact ⟨fun h' => by simp [read] at h', fun _ _ => h.connected _ hphase,
      fun h' _ => absurd rfl (h' _), fun _ _ => h.published _ hphase⟩
  | readerEnds hphase =>
    exact ⟨fun h' => by simp at h', fun _ _ => h.connected _ hphase, fun h' _ => absurd rfl (h' _),
      fun _ _ => h.published _ hphase⟩
  | stop => exact inv_of_phase (.inl rfl) nofun (not_connected nofun nofun)
  | wake wait authFailed hphase =>
    have hnone : S.published = [] := h.cleared (by rw [hphase]; nofun) (by rw [hphase]; nofun)
    exact inv_of_phase (.inr hnone) nofun (not_connected nofun nofun)

/-- Away from a steady connection nothing is listed and nothing says `Connected`. -/
theorem Truthful.quiet (h : S.Truthful) (hinv : S.Inv) (hphase : ∀ done, S.phase ≠ .steady done)
    (hrun : S.phase ≠ .stopped) : S.published = [] ∧ S.status.state ≠ .connected := by
  refine ⟨hinv.cleared hphase hrun, ?_⟩
  by_cases hclaiming : S.phase = .claiming
  · exact hinv.unconnected (.inr hclaiming)
  · exact h.state (not_connected hclaiming hphase)

/-- An event that takes nothing back leaves a truthful status. -/
theorem Truthful.moved (h : S.Truthful) (hinv : S.Inv) (hev : S.TakesNothingBack ev)
    (hmove : Moved cfg S ev S') : S'.Truthful := by
  cases hmove with
  | cancel => exact ⟨h.state, h.grants⟩
  | attempt hphase =>
    obtain ⟨hnone, hstate⟩ := h.quiet hinv (by rw [hphase]; nofun) (by rw [hphase]; nofun)
    unfold attempt
    split
    · exact truthful_of_nil hnone fun _ => hstate
    · exact truthful_of_nil hnone fun _ => nofun
  | fails lived hphase => exact truthful_ended (hinv.unconnected hphase)
  | handshake f lived hphase => exact (handshake_ok hinv hphase).2
  | claimReply f lived hphase => exact (claimReply_ok hinv hphase).2
  | read f lived hphase =>
    refine ⟨fun h' => absurd (.inr ⟨_, rfl⟩) h', fun r hr => ⟨(h.grants r hr).1, fun g hg => ?_⟩⟩
    rcases List.mem_append.1 hg with hg | hg
    · exact (h.grants r hr).2 g hg
    · rw [List.mem_singleton.1 hg]
      exact hev.2 f lived rfl hphase r hr
  | readerEnds hphase => exact ⟨fun h' => absurd (.inr ⟨_, rfl⟩) h', h.grants⟩
  | ends lived hends _ => exact absurd hends hev.1
  | stop hcancelled hphase =>
    simp only [List.mem_cons, List.not_mem_nil, or_false, not_or] at hphase
    obtain ⟨hnone, hstate⟩ := h.quiet hinv (fun done hs => hev.1 ⟨hcancelled, done, hs⟩) hphase.2
    exact truthful_of_nil hnone fun _ => hstate
  | wake wait authFailed hphase =>
    obtain ⟨hnone, hstate⟩ := h.quiet hinv (by rw [hphase]; nofun) (by rw [hphase]; nofun)
    exact truthful_of_nil hnone fun _ => hstate

/-- Any other event leaves one that is not. -/
theorem takesNothingBack_of_moved (hinv : S.Inv) (hmove : Moved cfg S ev S') (h : S'.Truthful) :
    S.TakesNothingBack ev := by
  constructor
  · intro hends
    obtain ⟨done, hphase⟩ := hends.steady
    have hstate := hinv.connected done hphase
    cases hmove with
    | cancel | attempt | fails | handshake | claimReply | read | readerEnds | wake => exact hends
    | ends lived _ _ => exact not_truthful_ended hstate h
    | stop => exact h.state (not_connected nofun nofun) hstate
  · rintro f lived rfl hphase r hr htakes
    cases hmove with
    | handshake _ _ hp =>
      rw [hphase] at hp
      cases hp
    | claimReply _ _ hp =>
      rw [hphase] at hp
      cases hp
    | read =>
      exact (h.grants r hr).2 f (List.mem_append_right _ (List.mem_singleton_self f)) htakes
    | ends _ hends _ => exact hends

theorem takesNothingBack_of_off (h : S.step cfg ev = none) : S.TakesNothingBack ev := by
  constructor
  · intro hends
    obtain ⟨done, hphase⟩ := hends.steady
    cases ev with
    | cancel | attempt | fails | frame | readerEnds | wake => exact hends
    | disconnected => simp [step, show S.phase = .steady true from hends] at h
    | pingFails => cases done <;> simp [step, hphase] at h
    | goodbye => cases done <;> simp [step, hphase, hends.1] at h
    | stop => simp [step, hphase, hends.1] at h
  · rintro f lived rfl hphase
    simp [step, hphase] at h

end Supervisor

/-- **When the daemon's status is truthful**: exactly in the runs in which no connection that was up ever
ends, and no frame takes away a resource that the status lists. -/
theorem status_truthful_iff (cfg : ClientConfig) (events : List SupervisorEvent) :
    Lts.Always (Supervisor.step cfg) Supervisor.Truthful {} events ↔
      Lts.Steps (Supervisor.step cfg) Supervisor.TakesNothingBack {} events :=
  Lts.always_iff_steps_of_inv (I := Supervisor.Inv)
    (fun _ _ _ hinv hstep => hinv.moved (Supervisor.moved_of_step hstep))
    (fun _ _ _ hinv h hev hstep => h.moved hinv hev (Supervisor.moved_of_step hstep))
    (fun _ _ _ hinv _ hstep h => Supervisor.takesNothingBack_of_moved hinv (Supervisor.moved_of_step hstep) h)
    (fun _ _ => Supervisor.takesNothingBack_of_off) Supervisor.inv_start Supervisor.truthful_start

/-! ### Stale statuses -/

def demoClient : ClientConfig where
  relayHost := "d.io"
  token := "t1"
  httpTunnels := [⟨"app.d.io", "127.0.0.1", 3000⟩]
  tcpTunnels := []

/-- Up with one tunnel. -/
def connectedRun : List SupervisorEvent :=
  [.attempt, .frame (.welcome 2 "0.1.0" 1) false, .frame (.granted ["app.d.io"] []) false]

/-- The relay goes away, and the daemon sleeps until its next attempt; another session takes the name;
the daemon is stopped. After each of them `etun status` still says `connected`, or lists the name. -/
theorem stale_status_published :
    (∃ S, Lts.run (Supervisor.step demoClient) {} (connectedRun ++ [.readerEnds, .disconnected false]) = some S ∧
      S.phase = .sleeping 1 false ∧ (StatusSnapshot.fromDaemon "d.io" 1 S.status).state = "connected" ∧
      ¬ S.Truthful) ∧
    (∃ S, Lts.run (Supervisor.step demoClient) {}
        (connectedRun ++ [.frame (.superseded (.host "app.d.io")) false]) = some S ∧
      S.status.grantedHostnames = ["app.d.io"] ∧ ¬ S.Truthful) ∧
    (∃ S, Lts.run (Supervisor.step demoClient) {} (connectedRun ++ [.cancel, .stop]) = some S ∧
      S.phase = .stopped ∧ S.status.state = .connected ∧ S.status.grantedHostnames = ["app.d.io"] ∧
      ¬ S.Truthful) := by
  refine ⟨⟨_, rfl, rfl, rfl, fun h => ?_⟩, ⟨_, rfl, rfl, fun h => ?_⟩, ⟨_, rfl, rfl, rfl, rfl, fun h => ?_⟩⟩
  · exact h.state (Supervisor.not_connected nofun nofun) rfl
  · exact (h.grants (.host "app.d.io") (by decide)).2 _ List.mem_cons_self (.inl rfl)
  · exact h.state (Supervisor.not_connected nofun nofun) rfl

end EtherTunnel
