import EtherTunnel.Proxy.Exchange
import EtherTunnel.Ratelimit
import EtherTunnel.Ratelimit.Bucket

/-!
# Sockets and the permits they hold

The relay accepts on `:443` and on every bound TCP port. Both planes ask one rate limiter and one
connection limiter; daemons that upgrade ask a second connection limiter for a session.

| here | there |
| --- | --- |
| `Limits`, `Listener.new` | `config.rs:35-76`, `listener.rs:126-160` |
| `.accept` | the two accept loops up to `try_admit` (`listener.rs:190-200`, `tcp.rs:86-95`) |
| `.conns`, `.sessions` | one step of the socket's own `try_admit` or drop, as in `Ratelimit` |
| `.tlsAccepted` | the handshake of `handle_conn` (`listener.rs:271-281`), after which the permit is in the cell |
| `.request`, `.respond` | `route` on one request (`listener.rs:325-370`), the answer taken from `answer` |
| `Socket.mayConns` in `exchanging` | `let _ = permit_cell.lock().unwrap().take()` (`listener.rs:424`) |
| `.splicing` | the task that took the permit from the cell (`proxy.rs:441-459`) |
| `.tcp` | `serve_conn` (`tcp.rs:112-149`) |
| `.close` | the end of any of these tasks: peer gone, deadline, handshake failed, shutdown |

A permit moves: from the accept loop to `handle_conn`, into a cell that the router of requests can reach,
and from there to a splice, or away when a session permit takes its place. `SocketOk` says where the two
permits of a socket are at each stage. With it, each limiter's half of the system is one of the systems
of `Ratelimit`, so `Balanced` carries over; `relay_capacity` reads the bounds off.

`handle_control_upgrade` does not await, so a socket that asks for a session is not closed in between.
-/

namespace EtherTunnel

open Threads

/-! ## The listener -/

/-- The fields of `LimitsConfig` that `serve_with` builds limiters from. -/
structure Limits where
  acceptRatePerSec : UInt32
  acceptBurst : UInt32
  maxConnections : Nat
  maxConnectionsPerIp : UInt32
  maxSessions : Nat
  maxSessionsPerIp : UInt32

/-- What all sockets share. -/
structure Listener where
  rate : RateLimiter
  conns : ConnLimiter
  sessionLimiter : ConnLimiter
  router : Router

def Listener.new (limits : Limits) : Listener where
  rate := .new limits.acceptRatePerSec limits.acceptBurst
  conns := .new limits.maxConnections limits.maxConnectionsPerIp
  sessionLimiter := .new limits.maxSessions limits.maxSessionsPerIp
  router := .empty

inductive Plane where
  | https
  | tcp (port : UInt16)
deriving DecidableEq

inductive Stage where
  /-- In a listen queue. -/
  | queued
  | admitting (plane : Plane) (peer : IpAddr)
  | handshaking (peer : IpAddr)
  /-- Between requests, the permit in the cell. -/
  | serving (peer : IpAddr)
  /-- In `route`, which looked the host up in this routing table. -/
  | exchanging (peer : IpAddr) (req : HttpRequest) (router : Router)
  | splicing (peer : IpAddr)
  | session (peer : IpAddr)
  | tcp (port : UInt16) (peer : IpAddr)
  | closing

/-- A socket, its two permits, and the statuses it has sent. -/
structure Socket where
  stage : Stage
  accept : Conn
  session : Conn
  sent : List UInt16

def Socket.fresh : Socket := ⟨.queued, .idle, .idle, []⟩

inductive SocketAct where
  | accept (plane : Plane) (peer : IpAddr) (now : Nat)
  | conns (act : ConnAct)
  | sessions (act : ConnAct)
  | tlsAccepted
  | request (req : HttpRequest)
  | respond (upstream : Upstream)
  | close

inductive ListenerEvent where
  /-- The sweep task. -/
  | sweep (now : Nat)
  /-- Whatever the sessions do to the routing table. -/
  | reroute (router : Router)

/-- `try_admit` and the drop of its permit are the same calls in both places. -/
def admits (peer : IpAddr) (act : ConnAct) : Bool := act = .tryAcquire peer || act = .bump || act = .giveBack

def drops (act : ConnAct) : Bool := act = .drop || act = .giveBack

section steps

variable (deriveAcceptKey : List UInt8 → HeaderValue) (domain apexResponse : String)

/-- The request ends in `try_admit` on the session limiter. -/
def wantsSession (req : HttpRequest) : Bool :=
  decide (route domain req.headers = .control) && decide (AsksForSession req)

namespace Socket

def mayConns (socket : Socket) (act : ConnAct) : Bool :=
  match socket.stage with
  | .admitting _ peer => admits peer act
  | .exchanging _ _ _ => socket.session.isLive && drops act
  | .closing => drops act
  | _ => false

/-- Where `try_admit` leads. -/
def admitted (stage : Stage) (accept : Conn) : Stage :=
  match accept with
  | .live _ =>
    match stage with
    | .admitting .https peer => .handshaking peer
    | .admitting (.tcp port) peer => .tcp port peer
    | stage => stage
  | .over =>
    match stage with
    | .admitting _ _ => .closing
    | stage => stage
  | _ => stage

def maySessions (socket : Socket) (act : ConnAct) : Bool :=
  match socket.stage with
  | .exchanging peer req _ => wantsSession domain req && admits peer act
  | .closing => drops act
  | _ => false

/-- The answer is there: no session was asked for, or it was refused, or the accept permit is gone. -/
def mayRespond (socket : Socket) (req : HttpRequest) : Bool :=
  if wantsSession domain req then
    match socket.session with
    | .over => true
    | .live _ => socket.accept = .over
    | _ => false
  else true

def handedOff (peer : IpAddr) : Handoff → Stage
  | .stays => .serving peer
  | .splice => .splicing peer
  | .session => .session peer

def respond (socket : Socket) (peer : IpAddr) (req : HttpRequest) (router : Router) (upstream : Upstream) :
    Socket :=
  let (resp, handoff) :=
    answer deriveAcceptKey domain apexResponse router req socket.session.isLive upstream
  { stage := handedOff peer handoff
    accept := socket.accept
    -- a refused call is over, and the connection may ask again
    session := if socket.session.isLive then socket.session else .idle
    sent := socket.sent ++ [resp.status] }

def mayClose (socket : Socket) : Bool :=
  match socket.stage with
  | .handshaking _ | .serving _ | .splicing _ | .session _ | .tcp _ _ => true
  | .exchanging _ req _ => !wantsSession domain req
  | .queued | .admitting _ _ | .closing => false

def step (listener : Listener) (socket : Socket) : SocketAct → Option (Listener × Socket)
  | .accept plane peer now =>
    match socket.stage with
    | .queued =>
      let (passed, rate) := listener.rate.checkAt (limiterKey peer) now
      some ({ listener with rate },
        { socket with stage := if passed then .admitting plane peer else .closing })
    | _ => none
  | .conns act =>
    if socket.mayConns act then
      (socket.accept.step listener.conns act).map fun (conns, accept) =>
        ({ listener with conns }, { socket with stage := admitted socket.stage accept, accept })
    else none
  | .sessions act =>
    if socket.maySessions domain act then
      (socket.session.step listener.sessionLimiter act).map fun (sessionLimiter, session) =>
        ({ listener with sessionLimiter }, { socket with session })
    else none
  | .tlsAccepted =>
    match socket.stage with
    | .handshaking peer => some (listener, { socket with stage := .serving peer })
    | _ => none
  | .request req =>
    match socket.stage with
    | .serving peer => some (listener, { socket with stage := .exchanging peer req listener.router })
    | _ => none
  | .respond upstream =>
    match socket.stage with
    | .exchanging peer req router =>
      if socket.mayRespond domain req then
        some (listener, socket.respond deriveAcceptKey domain apexResponse peer req router upstream)
      else none
    | _ => none
  | .close => if socket.mayClose domain then some (listener, { socket with stage := .closing }) else none

end Socket

def Listener.event (listener : Listener) : ListenerEvent → Option Listener
  | .sweep now => some { listener with rate := listener.rate.sweep now }
  | .reroute router => some { listener with router }

abbrev ListenerSys := Sys Listener Socket

/-- Any number of sockets on both planes, interleaved. -/
def listenerStep : ListenerSys → Act SocketAct ListenerEvent → Option ListenerSys :=
  Threads.step .fresh (fun _ => Socket.step deriveAcceptKey domain apexResponse) Listener.event

end steps

def ListenerSys.start (limits : Limits) : ListenerSys := ⟨.new limits, []⟩

/-! ## Where the permits are -/

namespace Conn

/-- A live permit for this source. -/
def LiveFor (peer : IpAddr) (conn : Conn) : Prop := ∃ permit, conn = .live permit ∧ permit.source = peer

/-- In `try_admit`, or before it. -/
def Trying (peer : IpAddr) (conn : Conn) : Prop := conn = .idle ∨ conn = .acquired peer ∨ conn = .refused

/-- No call is under way; a permit may still be there. -/
def Settling (conn : Conn) : Prop := conn = .idle ∨ conn = .over ∨ conn = .decremented ∨ ∃ permit, conn = .live permit

variable {peer : IpAddr} {limiter limiter' : ConnLimiter} {conn conn' : Conn} {act : ConnAct}

theorem step_trying (h : conn.Trying peer) (hact : admits peer act = true)
    (hs : conn.step limiter act = some (limiter', conn')) :
    conn'.Trying peer ∨ conn' = .over ∨ conn'.LiveFor peer := by
  rcases h with rfl | rfl | rfl
  · cases act with
    | tryAcquire ip =>
      obtain rfl : ip = peer := by simpa [admits] using hact
      simp only [step] at hs
      split at hs
      · cases hs
        exact .inr (.inl rfl)
      · cases hs
        exact .inl (.inr (.inl rfl))
    | _ => cases hs
  · cases act with
    | bump =>
      simp only [step, ConnLimiter.bump] at hs
      split at hs
      · rename_i permit _ hbump
        cases hs
        split at hbump
        · cases hbump
        · cases hbump
          exact .inr (.inr ⟨_, rfl, rfl⟩)
      · cases hs
        exact .inl (.inr (.inr rfl))
    | _ => cases hs
  · cases act with
    | giveBack =>
      cases hs
      exact .inr (.inl rfl)
    | _ => cases hs

theorem step_settling (h : conn.Settling) (hact : drops act = true)
    (hs : conn.step limiter act = some (limiter', conn')) :
    (conn' = .decremented ∧ ∃ permit, conn = .live permit) ∨ (conn' = .over ∧ conn = .decremented) := by
  have hdrop : act = .drop ∨ act = .giveBack := by simpa [drops] using hact
  rcases h with rfl | rfl | rfl | ⟨permit, rfl⟩
  · rcases hdrop with rfl | rfl <;> cases hs
  · rcases hdrop with rfl | rfl <;> cases hs
  · cases act with
    | giveBack =>
      cases hs
      exact .inr ⟨rfl, rfl⟩
    | _ => cases hs
  · cases act with
    | drop =>
      cases hs
      exact .inl ⟨rfl, permit, rfl⟩
    | _ => cases hs

theorem LiveFor.settling (h : conn.LiveFor peer) : conn.Settling := by
  obtain ⟨permit, rfl, -⟩ := h
  exact .inr (.inr (.inr ⟨permit, rfl⟩))

theorem LiveFor.isLive (h : conn.LiveFor peer) : conn.isLive = true := by
  obtain ⟨permit, rfl, -⟩ := h
  rfl

theorem LiveFor.isLiveLike (h : conn.LiveFor peer) {ip : IpAddr} (hkey : limiterKey peer = limiterKey ip) :
    conn.isLiveLike ip = true := by
  obtain ⟨permit, rfl, rfl⟩ := h
  simpa [Conn.isLiveLike] using hkey

theorem Trying.not_live (h : conn.Trying peer) : conn.isLive = false := by
  rcases h with rfl | rfl | rfl <;> rfl

/-- A permit is not asked for again. -/
theorem LiveFor.no_admit (h : conn.LiveFor peer) {ip : IpAddr} (hact : admits ip act = true) :
    conn.step limiter act = none := by
  obtain ⟨permit, rfl, -⟩ := h
  cases act with
  | drop => cases hact
  | _ => rfl

end Conn

namespace Socket

variable (socket : Socket)

/-- No `101` yet. -/
def Unswitched : Prop := (101 : UInt16) ∉ socket.sent

/-- One `101`, and nothing after it. -/
def Switched : Prop := ∃ before, socket.sent = before ++ [101] ∧ (101 : UInt16) ∉ before

/-- What a socket holds while it answers a request. -/
inductive Exchanging (domain : String) (peer : IpAddr) (req : HttpRequest) : Prop where
  | plain : wantsSession domain req = false → socket.accept.LiveFor peer → socket.session = .idle →
      Exchanging domain peer req
  | asking : wantsSession domain req = true → socket.accept.LiveFor peer → socket.session.Trying peer →
      Exchanging domain peer req
  | refused : wantsSession domain req = true → socket.accept.LiveFor peer → socket.session = .over →
      Exchanging domain peer req
  /-- Both permits, until the first is gone. -/
  | replacing : wantsSession domain req = true → socket.session.LiveFor peer → socket.accept.Settling →
      socket.accept ≠ .idle → Exchanging domain peer req

/-- The permits of a socket at each stage. -/
def Ok (domain : String) : Prop :=
  match socket.stage with
  | .queued => socket.accept = .idle ∧ socket.session = .idle ∧ socket.Unswitched
  | .admitting _ peer => socket.accept.Trying peer ∧ socket.session = .idle ∧ socket.Unswitched
  | .handshaking peer | .tcp _ peer | .serving peer =>
      socket.accept.LiveFor peer ∧ socket.session = .idle ∧ socket.Unswitched
  | .exchanging peer req _ => socket.Exchanging domain peer req ∧ socket.Unswitched
  | .splicing peer => socket.accept.LiveFor peer ∧ socket.session = .idle ∧ socket.Switched
  | .session peer => socket.session.LiveFor peer ∧ socket.accept = .over ∧ socket.Switched
  | .closing => socket.accept.Settling ∧ socket.session.Settling ∧ (socket.Unswitched ∨ socket.Switched)

end Socket

section ok

variable {deriveAcceptKey : List UInt8 → HeaderValue} {domain apexResponse : String}
  {listener listener' : Listener} {socket socket' : Socket}

theorem Socket.Ok.accept {plane : Plane} {peer : IpAddr} {now : Nat} (h : socket.Ok domain)
    (hs : socket.step deriveAcceptKey domain apexResponse listener (.accept plane peer now) =
      some (listener', socket')) : socket'.Ok domain := by
  simp only [Socket.step] at hs
  split at hs
  · rename_i hstage
    cases hs
    simp only [Socket.Ok, hstage] at h
    obtain ⟨haccept, hsession, hsent⟩ := h
    cases (listener.rate.checkAt (limiterKey peer) now).1 with
    | false => exact ⟨.inl haccept, .inl hsession, .inl hsent⟩
    | true => exact ⟨.inl haccept, hsession, hsent⟩
  · cases hs

theorem Socket.Ok.conns {act : ConnAct} (h : socket.Ok domain)
    (hs : socket.step deriveAcceptKey domain apexResponse listener (.conns act) =
      some (listener', socket')) : socket'.Ok domain := by
  simp only [Socket.step] at hs
  split at hs
  · rename_i hmay
    obtain ⟨⟨conns, accept⟩, hstep, heq⟩ := Option.map_eq_some_iff.1 hs
    cases heq
    obtain ⟨stage, accept₀, session, sent⟩ := socket
    cases stage with
    | admitting plane peer =>
      obtain ⟨htrying, hsession, hsent⟩ := h
      rcases Conn.step_trying htrying hmay hstep with htry | rfl | hlive
      · rcases htry with rfl | rfl | rfl
        · exact ⟨.inl rfl, hsession, hsent⟩
        · exact ⟨.inr (.inl rfl), hsession, hsent⟩
        · exact ⟨.inr (.inr rfl), hsession, hsent⟩
      · exact ⟨.inr (.inl rfl), .inl hsession, .inl hsent⟩
      · obtain ⟨permit, rfl, hsource⟩ := hlive
        cases plane with
        | https => exact ⟨⟨permit, rfl, hsource⟩, hsession, hsent⟩
        | tcp port => exact ⟨⟨permit, rfl, hsource⟩, hsession, hsent⟩
    | exchanging peer req router =>
      obtain ⟨hex, hsent⟩ := h
      rw [Socket.mayConns, Bool.and_eq_true] at hmay
      cases hex with
      | plain _ _ hidle => rw [hidle] at hmay; cases hmay.1
      | asking _ _ htrying => rw [htrying.not_live] at hmay; cases hmay.1
      | refused _ _ hover => rw [hover] at hmay; cases hmay.1
      | replacing hwants hlive hsettling _ =>
        rcases Conn.step_settling hsettling hmay.2 hstep with ⟨rfl, -⟩ | ⟨rfl, -⟩
        · exact ⟨.replacing hwants hlive (.inr (.inr (.inl rfl))) nofun, hsent⟩
        · exact ⟨.replacing hwants hlive (.inr (.inl rfl)) nofun, hsent⟩
    | closing =>
      obtain ⟨haccept, hsession, hsent⟩ := h
      rcases Conn.step_settling haccept hmay hstep with ⟨rfl, -⟩ | ⟨rfl, -⟩
      · exact ⟨.inr (.inr (.inl rfl)), hsession, hsent⟩
      · exact ⟨.inr (.inl rfl), hsession, hsent⟩
    | _ => cases hmay
  · cases hs

theorem Socket.Ok.sessions {act : ConnAct} (h : socket.Ok domain)
    (hs : socket.step deriveAcceptKey domain apexResponse listener (.sessions act) =
      some (listener', socket')) : socket'.Ok domain := by
  simp only [Socket.step] at hs
  split at hs
  · rename_i hmay
    obtain ⟨⟨sessionLimiter, session⟩, hstep, heq⟩ := Option.map_eq_some_iff.1 hs
    cases heq
    obtain ⟨stage, accept, session₀, sent⟩ := socket
    cases stage with
    | exchanging peer req router =>
      obtain ⟨hex, hsent⟩ := h
      rw [Socket.maySessions, Bool.and_eq_true] at hmay
      refine ⟨?_, hsent⟩
      cases hex with
      | plain hno _ _ => rw [hno] at hmay; cases hmay.1
      | asking hwants haccept htrying =>
        rcases Conn.step_trying htrying hmay.2 hstep with htry | rfl | hlive
        · exact .asking hwants haccept htry
        · exact .refused hwants haccept rfl
        · exact .replacing hwants hlive haccept.settling fun hidle => by
            have := haccept.isLive
            rw [hidle] at this
            cases this
      | refused _ _ hover =>
        cases hover
        cases act <;> cases hstep
      | replacing _ hlive _ _ =>
        rw [hlive.no_admit hmay.2] at hstep
        cases hstep
    | closing =>
      obtain ⟨haccept, hsession, hsent⟩ := h
      refine ⟨haccept, ?_, hsent⟩
      rcases Conn.step_settling hsession hmay hstep with ⟨rfl, -⟩ | ⟨rfl, -⟩
      · exact .inr (.inr (.inl rfl))
      · exact .inr (.inl rfl)
    | _ => cases hmay
  · cases hs

theorem wantsSession_iff {req : HttpRequest} : wantsSession domain req = true ↔
    route domain req.headers = .control ∧ AsksForSession req := by
  rw [wantsSession, Bool.and_eq_true, decide_eq_true_eq, decide_eq_true_eq]

theorem unswitched_append {sent : List UInt16} {status : UInt16} (h : (101 : UInt16) ∉ sent)
    (hstatus : status ≠ 101) : (101 : UInt16) ∉ sent ++ [status] := by
  rw [List.mem_append, List.mem_singleton, not_or]
  exact ⟨h, hstatus.symm⟩

/-- The answer decides where the socket goes, and the permits are there for it. -/
theorem Socket.Exchanging.respond {peer : IpAddr} {req : HttpRequest} {router : Router}
    (hex : socket.Exchanging domain peer req) (hsent : socket.Unswitched)
    (hmay : socket.mayRespond domain req = true) (upstream : Upstream) :
    (socket.respond deriveAcceptKey domain apexResponse peer req router upstream).Ok domain := by
  have hout : Outcome router req socket.session.isLive upstream (route domain req.headers)
      (answer deriveAcceptKey domain apexResponse router req socket.session.isLive upstream) :=
    answer_outcome deriveAcceptKey domain apexResponse
  unfold Socket.respond
  generalize answer deriveAcceptKey domain apexResponse router req socket.session.isLive upstream = out
    at hout ⊢
  generalize hdest : route domain req.headers = dest at hout
  cases hex with
  | plain hno haccept hidle =>
    rw [hidle] at hout ⊢
    cases hout with
    | plain hplain _ _ => exact ⟨haccept, rfl, unswitched_append hsent hplain.1⟩
    | splice _ _ _ hstatus hrel =>
      exact ⟨haccept, rfl, socket.sent, congrArg (socket.sent ++ [·]) (hrel.status.trans hstatus), hsent⟩
    | session _ hadm _ _ => cases hadm
  | asking hwants _ htrying =>
    rw [Socket.mayRespond, if_pos hwants] at hmay
    rcases htrying with hs | hs | hs <;> rw [hs] at hmay <;> cases hmay
  | refused hwants haccept hover =>
    rw [hover] at hout ⊢
    cases hout with
    | plain hplain _ _ => exact ⟨haccept, rfl, unswitched_append hsent hplain.1⟩
    | splice _ _ _ _ _ =>
      rw [(wantsSession_iff.1 hwants).1] at hdest
      cases hdest
    | session _ hadm _ _ => cases hadm
  | replacing hwants hlive _ _ =>
    have haccept : socket.accept = .over := by
      obtain ⟨permit, hsession, -⟩ := hlive
      rw [Socket.mayRespond, if_pos hwants, hsession] at hmay
      exact of_decide_eq_true hmay
    obtain ⟨hcontrol, hasks⟩ := wantsSession_iff.1 hwants
    rw [hlive.isLive] at hout ⊢
    cases hout with
    | plain _ hnot _ => exact absurd ⟨hasks, rfl⟩ (hnot (hdest.symm.trans hcontrol))
    | splice _ _ _ _ _ =>
      rw [hcontrol] at hdest
      cases hdest
    | session _ _ hstatus _ =>
      exact ⟨hlive, haccept, socket.sent, congrArg (socket.sent ++ [·]) hstatus, hsent⟩

/-- A socket may be closed only while it holds no half of a permit. -/
theorem Socket.Ok.close (h : socket.Ok domain) (hmay : socket.mayClose domain = true) :
    ({ socket with stage := .closing } : Socket).Ok domain := by
  obtain ⟨stage, accept, session, sent⟩ := socket
  cases stage with
  | handshaking peer | serving peer | tcp port peer =>
    obtain ⟨haccept, hsession, hsent⟩ := h
    exact ⟨haccept.settling, .inl hsession, .inl hsent⟩
  | splicing peer =>
    obtain ⟨haccept, hsession, hsent⟩ := h
    exact ⟨haccept.settling, .inl hsession, .inr hsent⟩
  | session peer =>
    obtain ⟨hsession, haccept, hsent⟩ := h
    exact ⟨.inr (.inl haccept), hsession.settling, .inr hsent⟩
  | exchanging peer req router =>
    obtain ⟨hex, hsent⟩ := h
    rw [Socket.mayClose, Bool.not_eq_true'] at hmay
    cases hex with
    | plain _ haccept hidle => exact ⟨haccept.settling, .inl hidle, .inl hsent⟩
    | asking hwants _ _ | refused hwants _ _ | replacing hwants _ _ _ =>
      rw [hmay] at hwants
      cases hwants
  | _ => cases hmay

/-- **Every step of a socket** leaves its permits where its next stage expects them. -/
theorem Socket.Ok.step {act : SocketAct} (h : socket.Ok domain)
    (hs : socket.step deriveAcceptKey domain apexResponse listener act = some (listener', socket')) :
    socket'.Ok domain := by
  cases act with
  | accept plane peer now => exact h.accept hs
  | conns act => exact h.conns hs
  | sessions act => exact h.sessions hs
  | tlsAccepted =>
    simp only [Socket.step] at hs
    split at hs
    · rename_i peer hstage
      cases hs
      simp only [Socket.Ok, hstage] at h
      exact h
    · cases hs
  | request req =>
    simp only [Socket.step] at hs
    split at hs
    · rename_i peer hstage
      cases hs
      simp only [Socket.Ok, hstage] at h
      obtain ⟨haccept, hsession, hsent⟩ := h
      refine ⟨?_, hsent⟩
      cases hwants : wantsSession domain req with
      | false => exact .plain hwants haccept hsession
      | true => exact .asking hwants haccept (.inl hsession)
    · cases hs
  | respond upstream =>
    simp only [Socket.step] at hs
    split at hs
    · rename_i peer req router hstage
      simp only [Socket.Ok, hstage] at h
      obtain ⟨hmay, heq⟩ := Option.ite_none_right_eq_some.1 hs
      cases heq
      exact h.1.respond h.2 hmay upstream
    · cases hs
  | close =>
    obtain ⟨hmay, heq⟩ := Option.ite_none_right_eq_some.1 hs
    cases heq
    exact h.close hmay

end ok

/-! ## One limiter's half -/

/-- What a limiter sees of a step: one of its own, or nothing. -/
def ConnSeen (limiter : ConnLimiter) (conn : Conn) (limiter' : ConnLimiter) (conn' : Conn) : Prop :=
  (∃ act, conn.step limiter act = some (limiter', conn')) ∨
  (limiter' = limiter ∧ conn'.holds = conn.holds ∧ ∀ key, conn'.counts key = conn.counts key)

theorem ConnSeen.same {limiter : ConnLimiter} {conn : Conn} : ConnSeen limiter conn limiter conn :=
  .inr ⟨rfl, rfl, fun _ => rfl⟩

section seen

variable {slots : Nat} {perKeyMax : UInt32} {limiter limiter' : ConnLimiter} {conns : List Conn} {i : Nat}
  {conn conn' : Conn}

theorem Balanced.seen (hmax : 1 ≤ perKeyMax) (h : Balanced slots perKeyMax ⟨limiter, conns⟩)
    (hi : conns[i]? = some conn) (hseen : ConnSeen limiter conn limiter' conn') :
    Balanced slots perKeyMax ⟨limiter', conns.set i conn'⟩ := by
  rcases hseen with ⟨act, hstep⟩ | ⟨rfl, hholds, hcounts⟩
  · have hon : limiterStep ⟨limiter, conns⟩ (.on i act) = some ⟨limiter', conns.set i conn'⟩ := by
      simp only [limiterStep, Threads.step, hi, hstep, Option.map_some]
    exact balanced_step hmax h hon
  · have hsame : ∀ p : Conn → Bool, p conn' = p conn → (conns.set i conn').countP p = conns.countP p := by
      intro p hp
      have hmoved := countP_moved p conn' hi
      rw [hp] at hmoved
      omega
    exact {
      max_eq := h.max_eq
      slots := by
        dsimp only
        rw [hsame _ hholds]
        exact h.slots
      nonzero := h.nonzero
      counts := fun key => by
        dsimp only
        rw [hsame _ (hcounts key)]
        exact h.counts key
      bounded := h.bounded }

end seen

section views

variable {deriveAcceptKey : List UInt8 → HeaderValue} {domain apexResponse : String}
  {listener listener' : Listener} {socket socket' : Socket} {act : SocketAct}

theorem Socket.step_conns
    (hs : socket.step deriveAcceptKey domain apexResponse listener act = some (listener', socket')) :
    ConnSeen listener.conns socket.accept listener'.conns socket'.accept := by
  cases act with
  | conns act =>
    obtain ⟨-, hs⟩ := Option.ite_none_right_eq_some.1 hs
    obtain ⟨⟨conns, accept⟩, hstep, heq⟩ := Option.map_eq_some_iff.1 hs
    cases heq
    exact .inl ⟨act, hstep⟩
  | sessions act =>
    obtain ⟨-, hs⟩ := Option.ite_none_right_eq_some.1 hs
    obtain ⟨_, -, heq⟩ := Option.map_eq_some_iff.1 hs
    cases heq
    exact .same
  | close =>
    obtain ⟨-, heq⟩ := Option.ite_none_right_eq_some.1 hs
    cases heq
    exact .same
  | respond upstream =>
    simp only [Socket.step] at hs
    split at hs
    · obtain ⟨-, heq⟩ := Option.ite_none_right_eq_some.1 hs
      cases heq
      exact .same
    · cases hs
  | _ =>
    simp only [Socket.step] at hs
    split at hs
    · cases hs
      exact .same
    · cases hs

theorem Socket.step_sessions (h : socket.Ok domain)
    (hs : socket.step deriveAcceptKey domain apexResponse listener act = some (listener', socket')) :
    ConnSeen listener.sessionLimiter socket.session listener'.sessionLimiter socket'.session := by
  cases act with
  | conns act =>
    obtain ⟨-, hs⟩ := Option.ite_none_right_eq_some.1 hs
    obtain ⟨_, -, heq⟩ := Option.map_eq_some_iff.1 hs
    cases heq
    exact .same
  | sessions act =>
    obtain ⟨-, hs⟩ := Option.ite_none_right_eq_some.1 hs
    obtain ⟨_, hstep, heq⟩ := Option.map_eq_some_iff.1 hs
    cases heq
    exact .inl ⟨act, hstep⟩
  | close =>
    obtain ⟨-, heq⟩ := Option.ite_none_right_eq_some.1 hs
    cases heq
    exact .same
  | respond upstream =>
    simp only [Socket.step] at hs
    split at hs
    · rename_i peer req router hstage
      simp only [Socket.Ok, hstage] at h
      obtain ⟨hmay, heq⟩ := Option.ite_none_right_eq_some.1 hs
      cases heq
      -- only a call that is over, or was never made, is forgotten
      cases h.1 with
      | plain _ _ hidle =>
        simp only [Socket.respond, hidle]
        exact .same
      | asking hwants _ htrying =>
        rw [Socket.mayRespond, if_pos hwants] at hmay
        rcases htrying with hs | hs | hs <;> rw [hs] at hmay <;> cases hmay
      | refused _ _ hover =>
        simp only [Socket.respond, hover]
        exact .inr ⟨rfl, rfl, fun _ => rfl⟩
      | replacing _ hlive _ _ =>
        simp only [Socket.respond, hlive.isLive, if_true]
        exact .same
    · cases hs
  | _ =>
    simp only [Socket.step] at hs
    split at hs
    · cases hs
      exact .same
    · cases hs

end views

/-! ## Runs -/

namespace ListenerSys

/-- The calls and permits of the connection limiter. -/
def conns (S : ListenerSys) : LimiterSys := ⟨S.shared.conns, S.threads.map Socket.accept⟩

/-- The calls and permits of the session limiter. -/
def sessions (S : ListenerSys) : LimiterSys := ⟨S.shared.sessionLimiter, S.threads.map Socket.session⟩

end ListenerSys

/-- Every socket has the permits of its stage, and both limiters balance. -/
structure Held (limits : Limits) (domain : String) (S : ListenerSys) : Prop where
  sockets : ∀ socket ∈ S.threads, socket.Ok domain
  conns : Balanced (ConnLimiter.new limits.maxConnections limits.maxConnectionsPerIp).free
    (max limits.maxConnectionsPerIp 1) S.conns
  sessions : Balanced (ConnLimiter.new limits.maxSessions limits.maxSessionsPerIp).free
    (max limits.maxSessionsPerIp 1) S.sessions

section runs

variable {deriveAcceptKey : List UInt8 → HeaderValue} {domain apexResponse : String} {limits : Limits}
  {S S' : ListenerSys}

theorem held_start : Held limits domain (.start limits) where
  sockets _ hmem := absurd hmem List.not_mem_nil
  conns := balanced_start limits.maxConnections limits.maxConnectionsPerIp
  sessions := balanced_start limits.maxSessions limits.maxSessionsPerIp

theorem one_le_max (n : UInt32) : 1 ≤ max n 1 := by
  rw [UInt32.le_iff_toNat_le, UInt32.toNat_max]
  exact le_max_right _ _

theorem Balanced.spawn {slots : Nat} {perKeyMax : UInt32} {limiter : ConnLimiter} {conns : List Conn}
    (h : Balanced slots perKeyMax ⟨limiter, conns⟩) :
    Balanced slots perKeyMax ⟨limiter, conns ++ [.idle]⟩ where
  max_eq := h.max_eq
  slots := by
    rw [countP_spawn rfl]
    exact h.slots
  nonzero := h.nonzero
  counts key := by
    rw [countP_spawn rfl]
    exact h.counts key
  bounded := h.bounded

/-- **One step of any socket or of the environment.** -/
theorem Held.step {act : Act SocketAct ListenerEvent} (h : Held limits domain S)
    (hs : listenerStep deriveAcceptKey domain apexResponse S act = some S') : Held limits domain S' := by
  cases act with
  | spawn =>
    cases hs
    refine ⟨fun socket hmem => ?_, ?_, ?_⟩
    · rcases List.mem_append.1 hmem with hmem | hmem
      · exact h.sockets socket hmem
      · rw [List.mem_singleton.1 hmem]
        exact ⟨rfl, rfl, nofun⟩
    · simp only [ListenerSys.conns, List.map_append]
      exact h.conns.spawn
    · simp only [ListenerSys.sessions, List.map_append]
      exact h.sessions.spawn
  | on i act =>
    obtain ⟨socket, listener, socket', hi, hstep, rfl⟩ := step_on hs
    have hok := h.sockets socket (List.mem_of_getElem? hi)
    refine ⟨fun other hmem => ?_, ?_, ?_⟩
    · rcases List.mem_or_eq_of_mem_set hmem with hmem | rfl
      · exact h.sockets other hmem
      · exact hok.step hstep
    · simp only [ListenerSys.conns, List.map_set]
      refine h.conns.seen (one_le_max _) ?_ (Socket.step_conns hstep)
      rw [List.getElem?_map, hi, Option.map_some]
    · simp only [ListenerSys.sessions, List.map_set]
      refine h.sessions.seen (one_le_max _) ?_ (Socket.step_sessions hok hstep)
      rw [List.getElem?_map, hi, Option.map_some]
  | env e =>
    obtain ⟨listener, hevent, rfl⟩ := step_env hs
    cases e with
    | sweep now =>
      cases hevent
      exact ⟨h.sockets, h.conns, h.sessions⟩
    | reroute router =>
      cases hevent
      exact ⟨h.sockets, h.conns, h.sessions⟩

end runs

namespace Stage

/-- The stages of a socket that has no daemon's session. -/
def visitor? (domain : String) : Stage → Option IpAddr
  | .handshaking peer | .serving peer | .splicing peer | .tcp _ peer => some peer
  | .exchanging peer req _ => if wantsSession domain req then none else some peer
  | .queued | .admitting _ _ | .session _ | .closing => none

def session? : Stage → Option IpAddr
  | .session peer => some peer
  | _ => none

/-- The stages of a socket that is in the relay's hands. -/
def served? : Stage → Option IpAddr
  | .handshaking peer | .serving peer | .exchanging peer _ _ | .splicing peer | .session peer
  | .tcp _ peer => some peer
  | .queued | .admitting _ _ | .closing => none

end Stage

/-- A source with the key of `ip`. -/
def sameSource (ip : IpAddr) (source : Option IpAddr) : Bool :=
  source.any fun peer => limiterKey peer == limiterKey ip

section stages

variable {domain : String} {socket : Socket} {peer : IpAddr}

theorem Socket.Ok.visitor (h : socket.Ok domain) (hstage : socket.stage.visitor? domain = some peer) :
    socket.accept.LiveFor peer := by
  obtain ⟨stage, accept, session, sent⟩ := socket
  cases stage with
  | exchanging p req router =>
    rw [Stage.visitor?] at hstage
    split at hstage
    · cases hstage
    · rename_i hno
      cases hstage
      cases h.1 with
      | plain _ haccept _ => exact haccept
      | asking hwants _ _ | refused hwants _ _ | replacing hwants _ _ _ => exact absurd hwants hno
  | handshaking p | serving p | splicing p | tcp port p =>
    cases hstage
    exact h.1
  | _ => cases hstage

theorem Socket.Ok.session (h : socket.Ok domain) (hstage : socket.stage.session? = some peer) :
    socket.session.LiveFor peer := by
  obtain ⟨stage, accept, session, sent⟩ := socket
  cases stage with
  | session p =>
    cases hstage
    exact h.1
  | _ => cases hstage

/-- While one permit takes the other's place the socket has one of them, or both. -/
theorem Socket.Ok.served (h : socket.Ok domain) (hstage : socket.stage.served? = some peer) :
    socket.accept.LiveFor peer ∨ socket.session.LiveFor peer := by
  obtain ⟨stage, accept, session, sent⟩ := socket
  cases stage with
  | exchanging p req router =>
    cases hstage
    cases h.1 with
    | plain _ haccept _ | asking _ haccept _ | refused _ haccept _ => exact .inl haccept
    | replacing _ hsession _ _ => exact .inr hsession
  | session p =>
    cases hstage
    exact .inr h.1
  | handshaking p | serving p | splicing p | tcp port p =>
    cases hstage
    exact .inl h.1
  | _ => cases hstage

theorem Socket.Ok.switch (h : socket.Ok domain) : socket.Unswitched ∨ socket.Switched := by
  obtain ⟨stage, accept, session, sent⟩ := socket
  cases stage with
  | exchanging p req router => exact .inl h.2
  | session p => exact .inr h.2.2
  | splicing p => exact .inr h.2.2
  | closing => exact h.2.2
  | _ => exact .inl h.2.2

end stages

theorem sameSource_iff {ip : IpAddr} {source : Option IpAddr} :
    sameSource ip source = true ↔ ∃ peer, source = some peer ∧ limiterKey peer = limiterKey ip := by
  cases source <;> simp [sameSource]

/-- Both permits are given back, or were never there. -/
def Socket.Free (socket : Socket) : Prop :=
  (socket.accept = .idle ∨ socket.accept = .over) ∧ (socket.session = .idle ∨ socket.session = .over)

section closing

variable {deriveAcceptKey : List UInt8 → HeaderValue} {domain apexResponse : String} {i : Nat}

theorem alone_conns {accept : Conn} (h : accept.Settling) (listener : Listener) (session : Conn)
    (sent : List UInt16) : ∃ (listener' : Listener) (accept' : Conn), (accept' = .idle ∨ accept' = .over) ∧
      Alone (fun _ => Socket.step deriveAcceptKey domain apexResponse) i listener
        ⟨.closing, accept, session, sent⟩ listener' ⟨.closing, accept', session, sent⟩ := by
  rcases h with rfl | rfl | rfl | ⟨permit, rfl⟩
  · exact ⟨listener, .idle, .inl rfl, .stop⟩
  · exact ⟨listener, .over, .inr rfl, .stop⟩
  · exact ⟨_, .over, .inr rfl, .step (.conns .giveBack) rfl .stop⟩
  · exact ⟨_, .over, .inr rfl, .step (.conns .drop) rfl (.step (.conns .giveBack) rfl .stop)⟩

theorem alone_sessions {session : Conn} (h : session.Settling) (listener : Listener) (accept : Conn)
    (sent : List UInt16) : ∃ (listener' : Listener) (session' : Conn), (session' = .idle ∨ session' = .over) ∧
      Alone (fun _ => Socket.step deriveAcceptKey domain apexResponse) i listener
        ⟨.closing, accept, session, sent⟩ listener' ⟨.closing, accept, session', sent⟩ := by
  rcases h with rfl | rfl | rfl | ⟨permit, rfl⟩
  · exact ⟨listener, .idle, .inl rfl, .stop⟩
  · exact ⟨listener, .over, .inr rfl, .stop⟩
  · exact ⟨_, .over, .inr rfl, .step (.sessions .giveBack) rfl .stop⟩
  · exact ⟨_, .over, .inr rfl, .step (.sessions .drop) rfl (.step (.sessions .giveBack) rfl .stop)⟩

/-- A closed socket gives back what it holds without waiting for anyone. -/
theorem closing_drains {S : ListenerSys} {socket : Socket} (hi : S.threads[i]? = some socket)
    (hstage : socket.stage = .closing) (hok : socket.Ok domain) :
    ∃ (acts : List SocketAct) (S' : ListenerSys) (socket' : Socket),
      Lts.run (listenerStep deriveAcceptKey domain apexResponse) S (acts.map (.on i)) = some S' ∧
      S'.threads[i]? = some socket' ∧ socket'.Free := by
  obtain ⟨stage, accept, session, sent⟩ := socket
  cases hstage
  obtain ⟨haccept, hsession, -⟩ := hok
  obtain ⟨listener₁, accept', ha, hfirst⟩ := alone_conns haccept S.shared session sent
  obtain ⟨listener₂, session', hb, hsecond⟩ := alone_sessions hsession listener₁ accept' sent
  obtain ⟨acts, hrun⟩ := (hfirst.trans hsecond).sys hi
  exact ⟨acts, _, _, hrun, getElem?_set_moved hi, ha, hb⟩

end closing

/-- What the limits mean for the relay as a whole. -/
structure CapacityKept (deriveAcceptKey : List UInt8 → HeaderValue) (domain apexResponse : String)
    (limits : Limits) (S : ListenerSys) : Prop where
  /-- Visitors of either plane, requests and splices alike. -/
  visitors : S.threads.countP (fun s => (s.stage.visitor? domain).isSome) ≤ max limits.maxConnections 1
  visitorsPerSource : ∀ ip, S.threads.countP (fun s => sameSource ip (s.stage.visitor? domain)) ≤
    max limits.maxConnectionsPerIp.toNat 1
  sessions : S.threads.countP (fun s => s.stage.session?.isSome) ≤ max limits.maxSessions 1
  sessionsPerSource : ∀ ip, S.threads.countP (fun s => sameSource ip s.stage.session?) ≤
    max limits.maxSessionsPerIp.toNat 1
  /-- Every socket that is being served, whatever it is doing. -/
  served : S.threads.countP (fun s => s.stage.served?.isSome) ≤
    max limits.maxConnections 1 + max limits.maxSessions 1
  servedPerSource : ∀ ip, S.threads.countP (fun s => sameSource ip s.stage.served?) ≤
    max limits.maxConnectionsPerIp.toNat 1 + max limits.maxSessionsPerIp.toNat 1
  /-- A socket is switched once at most, and is sent nothing after that. -/
  switchedOnce : ∀ socket ∈ S.threads, socket.Unswitched ∨ socket.Switched
  /-- What is closed gives back what it holds by its own steps. -/
  drains : ∀ (i : Nat) (socket : Socket), S.threads[i]? = some socket → socket.stage = .closing →
    ∃ (acts : List SocketAct) (S' : ListenerSys) (socket' : Socket),
      Lts.run (listenerStep deriveAcceptKey domain apexResponse) S (acts.map (.on i)) = some S' ∧
      S'.threads[i]? = some socket' ∧ socket'.Free
  /-- Nothing leaks. -/
  quiet : (∀ socket ∈ S.threads, socket.Free) →
    S.shared.conns.perKey = ∅ ∧ S.shared.sessionLimiter.perKey = ∅ ∧
    S.shared.conns.free = (ConnLimiter.new limits.maxConnections limits.maxConnectionsPerIp).free ∧
    S.shared.sessionLimiter.free = (ConnLimiter.new limits.maxSessions limits.maxSessionsPerIp).free

section capacity

variable {domain : String} {limits : Limits} {S : ListenerSys}

/-- Sockets of a kind that has live accept permits. -/
theorem Held.countP_conns (h : Held limits domain S) {p : Socket → Bool} {q : Conn → Bool}
    (hpq : ∀ socket, socket.Ok domain → p socket = true → q socket.accept = true) :
    S.threads.countP p ≤ S.conns.threads.countP q := by
  rw [ListenerSys.conns, List.countP_map]
  exact List.countP_mono_left fun socket hmem => hpq socket (h.sockets socket hmem)

theorem Held.countP_sessions (h : Held limits domain S) {p : Socket → Bool} {q : Conn → Bool}
    (hpq : ∀ socket, socket.Ok domain → p socket = true → q socket.session = true) :
    S.threads.countP p ≤ S.sessions.threads.countP q := by
  rw [ListenerSys.sessions, List.countP_map]
  exact List.countP_mono_left fun socket hmem => hpq socket (h.sockets socket hmem)

/-- Sockets of a kind that has one permit or the other. -/
theorem Held.countP_both (h : Held limits domain S) {p : Socket → Bool} {q : Conn → Bool}
    (hpq : ∀ socket, socket.Ok domain → p socket = true → q socket.accept = true ∨ q socket.session = true) :
    S.threads.countP p ≤ S.conns.threads.countP q + S.sessions.threads.countP q := by
  rw [ListenerSys.conns, ListenerSys.sessions, List.countP_map, List.countP_map]
  exact countP_le_add fun socket hmem => hpq socket (h.sockets socket hmem)

theorem Held.capacityKept (h : Held limits domain S) (deriveAcceptKey : List UInt8 → HeaderValue)
    (apexResponse : String) : CapacityKept deriveAcceptKey domain apexResponse limits S := by
  have hconns := h.conns.limitsKept
  have hsessions := h.sessions.limitsKept
  exact {
    visitors := by
      refine (h.countP_conns fun socket hok hsome => ?_).trans hconns.global
      obtain ⟨peer, hpeer⟩ := Option.isSome_iff_exists.1 hsome
      exact (hok.visitor hpeer).isLive
    visitorsPerSource := fun ip => by
      refine (h.countP_conns fun socket hok hsome => ?_).trans (hconns.perSource ip)
      obtain ⟨peer, hpeer, hkey⟩ := sameSource_iff.1 hsome
      exact (hok.visitor hpeer).isLiveLike hkey
    sessions := by
      refine (h.countP_sessions fun socket hok hsome => ?_).trans hsessions.global
      obtain ⟨peer, hpeer⟩ := Option.isSome_iff_exists.1 hsome
      exact (hok.session hpeer).isLive
    sessionsPerSource := fun ip => by
      refine (h.countP_sessions fun socket hok hsome => ?_).trans (hsessions.perSource ip)
      obtain ⟨peer, hpeer, hkey⟩ := sameSource_iff.1 hsome
      exact (hok.session hpeer).isLiveLike hkey
    served := by
      refine (h.countP_both fun socket hok hsome => ?_).trans (Nat.add_le_add hconns.global hsessions.global)
      obtain ⟨peer, hpeer⟩ := Option.isSome_iff_exists.1 hsome
      exact (hok.served hpeer).imp Conn.LiveFor.isLive Conn.LiveFor.isLive
    servedPerSource := fun ip => by
      refine (h.countP_both fun socket hok hsome => ?_).trans
        (Nat.add_le_add (hconns.perSource ip) (hsessions.perSource ip))
      obtain ⟨peer, hpeer, hkey⟩ := sameSource_iff.1 hsome
      exact (hok.served hpeer).imp (·.isLiveLike hkey) (·.isLiveLike hkey)
    switchedOnce := fun socket hmem => (h.sockets socket hmem).switch
    drains := fun i socket hi hstage =>
      closing_drains hi hstage (h.sockets socket (List.mem_of_getElem? hi))
    quiet := fun hfree => by
      have haccept : ∀ conn ∈ S.conns.threads, conn = .idle ∨ conn = .over := by
        intro conn hmem
        obtain ⟨socket, hsocket, rfl⟩ := List.mem_map.1 hmem
        exact (hfree socket hsocket).1
      have hsession : ∀ conn ∈ S.sessions.threads, conn = .idle ∨ conn = .over := by
        intro conn hmem
        obtain ⟨socket, hsocket, rfl⟩ := List.mem_map.1 hmem
        exact (hfree socket hsocket).2
      exact ⟨(hconns.quiet haccept).1, (hsessions.quiet hsession).1, (hconns.quiet haccept).2,
        (hsessions.quiet hsession).2⟩ }

end capacity

/-- **The relay's capacity.** However the sockets of both planes interleave, with any requests, answers,
upgrades, refusals and deadlines: visitors and their splices, whichever port they came to, stay within the
connection limits, sessions within theirs, and all together within the sum; no socket is switched twice;
and every permit finds its way back. -/
theorem relay_capacity (deriveAcceptKey : List UInt8 → HeaderValue) (domain apexResponse : String)
    (limits : Limits) (sched : List (Act SocketAct ListenerEvent)) (S : ListenerSys)
    (hrun : Lts.run (listenerStep deriveAcceptKey domain apexResponse) (.start limits) sched = some S) :
    CapacityKept deriveAcceptKey domain apexResponse limits S := by
  refine Held.capacityKept (Lts.run_inv (G := fun _ _ => True) ?_ held_start
    (Lts.steps_of_forall fun _ _ => trivial) hrun) deriveAcceptKey apexResponse
  exact fun S act S' h _ hs => h.step hs

section examples

theorem connectValue_valid : (bytes "connect.d.io").all valueByte = true := by decide

/-- A daemon's upgrade. -/
def daemonUpgrade : HttpRequest :=
  ⟨.get, ⟨[(.host, ⟨bytes "connect.d.io", connectValue_valid⟩), (.connection, upgradeValue),
    (.upgrade, websocketValue), (.secWebsocketKey, noStore)]⟩⟩

/-- One place for a connection and one for a session. The daemon's session frees the place it was accepted
on, which a visitor of a TCP port takes; the next visitor is turned away. -/
def daemonThenVisitors : List (Act SocketAct ListenerEvent) :=
  [.spawn, .spawn, .spawn, .on 0 (.accept .https visitor 0), .on 0 (.conns (.tryAcquire visitor)),
    .on 0 (.conns .bump), .on 0 .tlsAccepted, .on 0 (.request daemonUpgrade),
    .on 0 (.sessions (.tryAcquire visitor)), .on 0 (.sessions .bump), .on 0 (.conns .drop),
    .on 0 (.conns .giveBack), .on 0 (.respond .failed), .on 1 (.accept (.tcp 7000) visitor 1),
    .on 2 (.accept .https visitor 2), .on 1 (.conns (.tryAcquire visitor)), .on 1 (.conns .bump),
    .on 2 (.conns (.tryAcquire visitor))]

def smallLimits : Limits := ⟨10, 10, 1, 1, 1, 1⟩

theorem relay_capacity_daemon : ∃ S,
    Lts.run (listenerStep (fun _ => noStore) "d.io" "up") (.start smallLimits) daemonThenVisitors = some S ∧
    S.threads.map (fun s => (s.stage.session?.isSome, s.stage.served?.isSome, s.sent)) =
      [(true, true, [101]), (false, true, []), (false, false, [])] ∧
    CapacityKept (fun _ => noStore) "d.io" "up" smallLimits S := by
  have hend : (Lts.run (listenerStep (fun _ => noStore) "d.io" "up") (.start smallLimits)
      daemonThenVisitors).map
      (fun S => S.threads.map fun s => (s.stage.session?.isSome, s.stage.served?.isSome, s.sent)) =
        some [(true, true, [101]), (false, true, []), (false, false, [])] := by
    decide +kernel
  obtain ⟨S, hrun, hS⟩ := Option.map_eq_some_iff.1 hend
  exact ⟨S, hrun, hS, relay_capacity (fun _ => noStore) "d.io" "up" smallLimits daemonThenVisitors S hrun⟩

end examples

/-! ## Accepts in time -/

/-- The call of the rate limiter that a step makes. -/
def limiterCall : Act SocketAct ListenerEvent → Option LimiterCall
  | .on _ (.accept _ peer now) => some (.check (limiterKey peer) now)
  | .env (.sweep now) => some (.sweep now)
  | _ => none

/-- One check of the rate limiter: for which socket, from where, when, and the answer. -/
structure AcceptCheck where
  socket : Nat
  peer : IpAddr
  time : Nat
  passed : Bool

/-- The check that a step makes. -/
def checked (S : ListenerSys) : Act SocketAct ListenerEvent → Option AcceptCheck
  | .on i (.accept _ peer now) => some ⟨i, peer, now, (S.shared.rate.checkAt (limiterKey peer) now).1⟩
  | _ => none

/-- The checks of a run, on whichever plane they were made. -/
def acceptLog (step : ListenerSys → Act SocketAct ListenerEvent → Option ListenerSys) (S : ListenerSys)
    (sched : List (Act SocketAct ListenerEvent)) : List AcceptCheck :=
  (Lts.trace step S sched).filterMap fun p => checked p.1 p.2

/-- Where a socket came from, once the rate limiter let it pass. -/
def Stage.passed? : Stage → Option IpAddr
  | .admitting _ peer => some peer
  | stage => stage.served?

section rate

variable {deriveAcceptKey : List UInt8 → HeaderValue} {domain apexResponse : String} {S S' : ListenerSys}
  {listener listener' : Listener} {socket socket' : Socket}

theorem Socket.step_accept {plane : Plane} {peer : IpAddr} {now : Nat}
    (hs : socket.step deriveAcceptKey domain apexResponse listener (.accept plane peer now) =
      some (listener', socket')) :
    socket.stage = .queued ∧ listener'.rate = (listener.rate.checkAt (limiterKey peer) now).2 ∧
    socket'.stage =
      if (listener.rate.checkAt (limiterKey peer) now).1 then .admitting plane peer else .closing := by
  simp only [Socket.step] at hs
  split at hs
  · cases hs
    exact ⟨‹_›, rfl, rfl⟩
  · cases hs

/-- A socket's source, after any step but the first, is what it was or nobody. -/
theorem Socket.step_passed {act : SocketAct} (hact : ∀ plane peer now, act ≠ .accept plane peer now)
    (hs : socket.step deriveAcceptKey domain apexResponse listener act = some (listener', socket')) :
    listener'.rate = listener.rate ∧
      (socket'.stage.passed? = socket.stage.passed? ∨ socket'.stage.passed? = none) := by
  cases act with
  | accept plane peer now => exact absurd rfl (hact plane peer now)
  | conns act =>
    obtain ⟨-, hs⟩ := Option.ite_none_right_eq_some.1 hs
    obtain ⟨⟨conns, accept⟩, -, heq⟩ := Option.map_eq_some_iff.1 hs
    cases heq
    refine ⟨rfl, ?_⟩
    dsimp only [Socket.admitted]
    match accept with
    | .live permit =>
      cases socket.stage with
      | admitting plane peer => cases plane <;> exact .inl rfl
      | _ => exact .inl rfl
    | .over =>
      cases socket.stage with
      | admitting plane peer => exact .inr rfl
      | _ => exact .inl rfl
    | .idle | .acquired _ | .refused | .decremented => exact .inl rfl
  | sessions act =>
    obtain ⟨-, hs⟩ := Option.ite_none_right_eq_some.1 hs
    obtain ⟨_, -, heq⟩ := Option.map_eq_some_iff.1 hs
    cases heq
    exact ⟨rfl, .inl rfl⟩
  | close =>
    obtain ⟨-, heq⟩ := Option.ite_none_right_eq_some.1 hs
    cases heq
    exact ⟨rfl, .inr rfl⟩
  | respond upstream =>
    simp only [Socket.step] at hs
    split at hs
    · rename_i peer req router hstage
      obtain ⟨-, heq⟩ := Option.ite_none_right_eq_some.1 hs
      cases heq
      refine ⟨rfl, .inl ?_⟩
      rw [hstage]
      dsimp only [Socket.respond]
      cases (answer deriveAcceptKey domain apexResponse router req socket.session.isLive upstream).2 <;> rfl
    · cases hs
  | tlsAccepted =>
    simp only [Socket.step] at hs
    split at hs
    · rename_i peer hstage
      cases hs
      exact ⟨rfl, .inl (by rw [hstage]; rfl)⟩
    · cases hs
  | request req =>
    simp only [Socket.step] at hs
    split at hs
    · rename_i peer hstage
      cases hs
      exact ⟨rfl, .inl (by rw [hstage]; rfl)⟩
    · cases hs

/-- The check passed a socket of this source. -/
def AcceptCheck.passes (ip : IpAddr) (e : AcceptCheck) : Bool := limiterKey e.peer == limiterKey ip && e.passed

/-- The check as the limiter saw it. -/
def AcceptCheck.keyed (e : AcceptCheck) : IpAddr × Nat × Bool := (limiterKey e.peer, e.time, e.passed)

/-- What one step does to the buckets. -/
theorem listenerStep_rate {act : Act SocketAct ListenerEvent}
    (hs : listenerStep deriveAcceptKey domain apexResponse S act = some S') (calls : List LimiterCall) :
    S.shared.rate.log ((limiterCall act).toList ++ calls) =
      (checked S act).toList.map AcceptCheck.keyed ++ S'.shared.rate.log calls := by
  cases act with
  | spawn =>
    cases hs
    rfl
  | env e =>
    obtain ⟨listener, hevent, rfl⟩ := step_env hs
    cases e <;> cases hevent <;> rfl
  | on i act =>
    obtain ⟨socket, listener, socket', hi, hstep, rfl⟩ := step_on hs
    by_cases hact : ∀ plane peer now, act ≠ .accept plane peer now
    · have hnone : limiterCall (.on i act) = none ∧ checked S (.on i act) = none := by
        cases act with
        | accept plane peer now => exact absurd rfl (hact plane peer now)
        | _ => exact ⟨rfl, rfl⟩
      rw [hnone.1, hnone.2]
      dsimp only
      rw [(Socket.step_passed hact hstep).1]
      rfl
    · simp only [not_forall, not_not] at hact
      obtain ⟨plane, peer, now, rfl⟩ := hact
      dsimp only
      rw [(Socket.step_accept hstep).2.1]
      rfl

/-- The `i`-th socket has passed the rate limiter, coming from `peer`, and is not closed. -/
def PassedFrom (i : Nat) (peer : IpAddr) (S : ListenerSys) : Prop :=
  ∃ socket, S.threads[i]? = some socket ∧ socket.stage.passed? = some peer

/-- A socket comes to have passed by a check of its own. -/
theorem passedFrom_step {act : Act SocketAct ListenerEvent} {i : Nat} {peer : IpAddr}
    (hs : listenerStep deriveAcceptKey domain apexResponse S act = some S') (h : PassedFrom i peer S') :
    PassedFrom i peer S ∨ ∃ now, checked S act = some ⟨i, peer, now, true⟩ := by
  obtain ⟨u, hu, hpeer⟩ := h
  cases act with
  | spawn =>
    cases hs
    rcases getElem?_spawn hu with hu | rfl
    · exact .inl ⟨u, hu, hpeer⟩
    · cases hpeer
  | env e =>
    obtain ⟨listener, -, rfl⟩ := step_env hs
    exact .inl ⟨u, hu, hpeer⟩
  | on j act =>
    obtain ⟨socket, listener, socket', hj, hstep, rfl⟩ := step_on hs
    rcases getElem?_set_cases hj hu with ⟨rfl, rfl⟩ | ⟨-, hu⟩
    · by_cases hact : ∀ plane peer now, act ≠ .accept plane peer now
      · rcases (Socket.step_passed hact hstep).2 with hsame | hnone
        · exact .inl ⟨socket, hj, hsame ▸ hpeer⟩
        · rw [hnone] at hpeer
          cases hpeer
      · simp only [not_forall, not_not] at hact
        obtain ⟨plane, peer', now, rfl⟩ := hact
        rw [(Socket.step_accept hstep).2.2] at hpeer
        cases hok : (S.shared.rate.checkAt (limiterKey peer') now).1 with
        | false =>
          rw [hok] at hpeer
          cases hpeer
        | true =>
          rw [hok] at hpeer
          cases hpeer
          exact .inr ⟨now, by rw [checked, hok]⟩
    · exact .inl ⟨u, hu, hpeer⟩

/-- Every socket that has passed is in the log. -/
theorem passedFrom_logged {sched : List (Act SocketAct ListenerEvent)} {i : Nat} {peer : IpAddr}
    (hrun : Lts.run (listenerStep deriveAcceptKey domain apexResponse) S sched = some S')
    (hnew : S.threads = []) (h : PassedFrom i peer S') :
    ∃ now, ⟨i, peer, now, true⟩ ∈ acceptLog (listenerStep deriveAcceptKey domain apexResponse) S sched := by
  rcases Lts.cause_of_run (P := PassedFrom i peer) (G := fun _ _ => True)
    (C := fun S act => ∃ now, checked S act = some ⟨i, peer, now, true⟩) (fun _ _ _ _ hs => passedFrom_step hs)
    (Lts.steps_of_forall fun _ _ => trivial) hrun h with ⟨socket, hi, -⟩ | ⟨p, hp, now, hchecked⟩
  · rw [hnew] at hi
    cases hi
  · exact ⟨now, List.mem_filterMap.2 ⟨p, hp, hchecked⟩⟩

theorem acceptLog_cons {step : ListenerSys → Act SocketAct ListenerEvent → Option ListenerSys}
    {act : Act SocketAct ListenerEvent} {sched : List (Act SocketAct ListenerEvent)} (hs : step S act = some S') :
    acceptLog step S (act :: sched) = (checked S act).toList ++ acceptLog step S' sched := by
  unfold acceptLog
  rw [Lts.trace, hs, List.filterMap_cons]
  cases checked S act <;> rfl

theorem acceptLog_run {sched : List (Act SocketAct ListenerEvent)} :
    ∀ {S}, Lts.run (listenerStep deriveAcceptKey domain apexResponse) S sched = some S' →
    (acceptLog (listenerStep deriveAcceptKey domain apexResponse) S sched).map AcceptCheck.keyed =
      S.shared.rate.log (sched.filterMap limiterCall) := by
  induction sched with
  | nil =>
    intro S hrun
    rfl
  | cons act sched ih =>
    intro S hrun
    obtain ⟨m, hm, hrest⟩ := (Lts.run_cons_eq_some _).1 hrun
    have hcalls : (act :: sched).filterMap limiterCall =
        (limiterCall act).toList ++ sched.filterMap limiterCall := by
      rw [List.filterMap_cons]
      cases limiterCall act <;> rfl
    rw [acceptLog_cons hm, hcalls, listenerStep_rate hm, List.map_append, ih hrest]

end rate

/-- **Two planes, one budget.** However the accepts of `:443` and of all TCP ports interleave with
everything else, with the limiter's clock readings in order: from one source no more than
`burst + rate * (t - s)` sockets pass between `s` and `t`, counted over both planes; and every socket that is
being admitted or served has passed a check of its own, made for the address that it is served under. -/
theorem accepts_rate_bounded (deriveAcceptKey : List UInt8 → HeaderValue) (domain apexResponse : String)
    (limits : Limits) (sched : List (Act SocketAct ListenerEvent)) (S : ListenerSys)
    (hrun : Lts.run (listenerStep deriveAcceptKey domain apexResponse) (.start limits) sched = some S)
    (hsorted : (sched.filterMap limiterCall).Pairwise fun a b => a.time ≤ b.time) :
    (∀ ip, ∀ s t : Nat, s ≤ t →
      (((acceptLog (listenerStep deriveAcceptKey domain apexResponse) (.start limits) sched).countP fun e =>
          e.passes ip ∧ s ≤ e.time ∧ e.time ≤ t : ℕ) : ℚ) ≤
        limits.acceptBurst.toNat + limits.acceptRatePerSec.toNat * asSecs (t - s)) ∧
    ∀ i socket peer, S.threads[i]? = some socket → socket.stage.passed? = some peer →
      ∃ now, ⟨i, peer, now, true⟩ ∈
        acceptLog (listenerStep deriveAcceptKey domain apexResponse) (.start limits) sched := by
  refine ⟨fun ip s t hst => ?_, fun i socket peer hi hpeer => passedFrom_logged hrun rfl ⟨socket, hi, hpeer⟩⟩
  have hrate : (0 : ℚ) ≤ limits.acceptRatePerSec.toNat / 1000000000 :=
    div_nonneg (Nat.cast_nonneg _) (by norm_num)
  have hkeyed := (RateLimiter.sameFrom_new limits.acceptRatePerSec limits.acceptBurst).log_eq hrate hsorted
    fun _ _ => Nat.zero_le _
  have hbound := TokenBucket.Keyed.admitted_le hrate (Nat.cast_nonneg limits.acceptBurst.toNat)
    (m := fun _ => none) (k := limiterKey ip) nofun (RateLimiter.pairwise_requests hsorted) hst
  rw [← hkeyed, show RateLimiter.new limits.acceptRatePerSec limits.acceptBurst =
    (ListenerSys.start limits).shared.rate from rfl, ← acceptLog_run hrun, List.countP_map] at hbound
  refine le_trans (Nat.cast_le.2 (List.countP_mono_left fun e _ he => ?_)) (hbound.trans_eq ?_)
  · simp only [AcceptCheck.passes, Bool.and_eq_true, decide_eq_true_eq, beq_iff_eq] at he
    exact decide_eq_true ⟨he.1.1, he.2.1, he.2.2, he.1.2⟩
  · rw [asSecs]
    ring

/-- The three sockets of `daemonThenVisitors`, in the first second. -/
theorem accepts_rate_bounded_daemon : ∃ S,
    Lts.run (listenerStep (fun _ => noStore) "d.io" "up") (.start smallLimits) daemonThenVisitors = some S ∧
    (((acceptLog (listenerStep (fun _ => noStore) "d.io" "up") (.start smallLimits)
        daemonThenVisitors).countP fun e => e.passes visitor ∧ 0 ≤ e.time ∧ e.time ≤ 1000000000 : ℕ) : ℚ) ≤
      (10 : UInt32).toNat + (10 : UInt32).toNat * asSecs (1000000000 - 0) := by
  have hend : (Lts.run (listenerStep (fun _ => noStore) "d.io" "up") (.start smallLimits)
      daemonThenVisitors).isSome = true := by
    decide +kernel
  obtain ⟨S, hrun⟩ := Option.isSome_iff_exists.1 hend
  exact ⟨S, hrun, (accepts_rate_bounded (fun _ => noStore) "d.io" "up" smallLimits daemonThenVisitors S hrun
    (by decide)).1 visitor 0 1000000000 (by decide)⟩

end EtherTunnel
