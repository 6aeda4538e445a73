import EtherTunnel.Lib.Lts
import EtherTunnel.Proto.Codec
import EtherTunnel.Registry.Accounts
import EtherTunnel.Session.Handlers
import Mathlib.Data.List.Chain

/-!
# The steady-state loop

After the handshake `control_task` loops over a `select!` of two futures (`session.rs:409-583`): the
next frame, with the 90 s dead-man around it, and the re-validation tick, which is to make a revocation
take "effect within one interval". The `select!` is `biased` and the read stands first.

| here | there |
| --- | --- |
| `authenticateAny` | `session.rs:171` |
| `Wake`, `ControlTask.wake` | the branch of the `select!` that wins (`session.rs:432-435`) |
| `ControlTask.dispatch` | the frame dispatch (`session.rs:519-583`) |
| `ControlTask.revalidateTick` | the body of the tick (`session.rs:440-505`) |
| `nextTimeout` | when a tick comes after one served at `now`: `MissedTickBehavior::Delay` |
| `ControlTask.step` | one completed poll of the `select!`, and what happens between two of them |

Times are in milliseconds. `inbox` holds the whole frames that have arrived and not been read; a read
that finds no whole frame is pending. A poll runs the branch it wakes to the end, with the time it
takes; what arrives meanwhile, or is done to the stores by others, comes between two polls.

A frame that is there when the loop comes to the `select!` is served before a tick that is due, and so
are all the frames behind it (`buffered_served_first`), however long ago the token was revoked
(`revocation_outrun`). `overdue_frames_iff`: that is all that can go wrong.
-/

namespace EtherTunnel

/-! ## Credentials -/

structure CredentialIo where
  faults : Faults := []
  gate : AuthIo := { now := 0, answer := .unavailable "" }

/-- `authenticate_any`: the local token store, then the gate if there is one. -/
def SessionCtx.authenticateAny (ctx : SessionCtx) (hashToken : String → List UInt8) (io : CredentialIo)
    (relay : Relay) (token : String) : Option AuthedUser × Notices × Relay :=
  match Registry.authenticate io.faults relay.db hashToken token with
  | some user => (some user, [], relay)
  | none =>
    match ctx.polar with
    | some gate =>
      let r := gate.authenticate io.gate relay.cache relay.toLive token
      (r.user, r.notices, { relay with toLive := r.live, cache := r.cache })
    | none => (none, [], relay)

/-! ## State -/

/-- What `control_task` holds on to in the loop. -/
structure ControlTask where
  ctx : SessionCtx
  hashToken : String → List UInt8
  handle : SessionHandle
  user : AuthedUser
  token : Secret
  revalidate : Nat

def sessionDeadAfter : Nat := 90 * 1000

/-- The loop between two polls. `inbox` is what the control stream has to read, `sent` what was pushed
to the daemon, `exit` what the task has returned. -/
structure Control where
  relay : Relay
  clock : Nat
  tickAt : Nat
  deadAt : Nat
  inbox : List (Except CodecError ControlFrame) := []
  sent : List ControlFrame := []
  notices : Notices := []
  exit : Option (Except CodecError Unit) := none

/-- A whole frame is in the receive buffer. -/
def Control.waiting (S : Control) : Bool :=
  match S.inbox with
  | .ok _ :: _ => true
  | _ => false

/-- `interval` with its first tick consumed, and the first read. -/
def ControlTask.enter (task : ControlTask) (relay : Relay) (now : Nat) : Control where
  relay := relay
  clock := now
  tickAt := now + task.revalidate
  deadAt := now + sessionDeadAfter

/-- `Interval::poll_tick`: a tick more than 5 ms late delays the ones after it. -/
def nextTimeout (timeout now period : Nat) : Nat :=
  if timeout + 5 < now then now + period else timeout + period

/-- What a poll meets outside. `took` is how long it runs, `pushed` whether the reply could be queued,
`order` the order of the session's hostname set. -/
structure TurnIo where
  took : Nat := 0
  pushed : Bool := true
  claim : ClaimIo := {}
  release : ReleaseIo := {}
  ownedHostnames : Faults := []
  ownedPorts : Faults := []
  credential : CredentialIo := {}
  order : List String := []
  owns : String → Faults := fun _ => []
  now : Int := 0
  capFails : Bool := false

/-- What a branch comes to: the stores after it, the frame it pushes and the frames it queues for
others, and the task's result if it returns. -/
structure Turn where
  relay : Relay
  reply : Option ControlFrame := none
  notices : Notices := []
  exit : Option (Except CodecError Unit) := none

/-- The branch is run; a reply that cannot be queued ends the session. -/
def Control.turn (S : Control) (io : TurnIo) (t : Turn) : Control :=
  { S with
    relay := t.relay
    clock := S.clock + io.took
    sent := S.sent ++ if io.pushed then t.reply.toList else []
    notices := S.notices ++ t.notices
    exit := if t.reply.isSome ∧ io.pushed = false then some (.ok ()) else t.exit }

/-! ## The branches -/

/-- The future that wins the `select!`: the read, with a frame, an error or the dead-man, or the tick. -/
inductive Wake where
  | frame (f : ControlFrame)
  | failed (e : CodecError)
  | dead
  | tick
deriving DecidableEq

namespace ControlTask

variable (task : ControlTask)

def Due (S : Control) : Prop := task.revalidate ≠ 0 ∧ S.tickAt ≤ S.clock

instance (S : Control) : Decidable (task.Due S) := inferInstanceAs (Decidable (_ ∧ _))

/-- The biased `select!`. -/
def wake (S : Control) : Option Wake :=
  match S.inbox with
  | .ok f :: _ => some (.frame f)
  | .error e :: _ => some (.failed e)
  | [] =>
    if S.deadAt ≤ S.clock then some .dead
    else if task.Due S then some .tick
    else none

/-- The cap `ListOwned` reports. -/
def maxTunnels (io : TurnIo) (relay : Relay) : Option Int64 :=
  task.ctx.polar.bind fun gate =>
    match gate.capFor relay.cache task.user.name io.now io.capFails with
    | .allow => none
    | .cap m => some (Int64.ofInt (max m 0))
    | .denyAll => some 0

def dispatch (io : TurnIo) (relay : Relay) : ControlFrame → Turn
  | .ping nonce => { relay, reply := some (.pong nonce) }
  | .claim hostnames tcpPorts =>
    let (reply, notices, relay) := task.ctx.handleClaim io.claim relay task.handle task.user
      task.token.expose hostnames tcpPorts
    { relay, reply := some reply, notices }
  | .release hostnames tcpPorts =>
    let (reply, relay) := task.ctx.handleRelease io.release relay task.user task.token.expose hostnames
      tcpPorts
    { relay, reply := some reply }
  | .listOwned =>
    { relay
      reply := some (.owned (Registry.ownedHostnames io.ownedHostnames relay.db task.ctx.domain
          task.user.userId)
        (Registry.ownedPorts io.ownedPorts relay.db task.user.userId) (task.maxTunnels io relay)) }
  | .goodbye => { relay, exit := some (.ok ()) }
  | .hello .. => { relay, reply := some (.error .malformedClaim "duplicate Hello") }
  -- frames of the relay must never arrive from the daemon; ignored
  | _ => { relay }

/-- The session's hostnames that its user no longer owns. -/
def revoked (io : TurnIo) (relay : Relay) : List String :=
  io.order.filter fun h =>
    !Registry.ownsHostname (io.owns h) relay.db task.ctx.domain task.user.userId h

/-- The routes of revoked hostnames go, with a notice to the session that has each. -/
def evictRevoked (io : TurnIo) (relay : Relay) : Notices × Relay :=
  let hosts := task.revoked io relay
  if hosts = [] then ([], relay)
  else
    ((relay.router.evicted hosts []).map fun (handle, resource) =>
        (handle, .denied .notOwner ("tunnel " ++ resource.debug ++ " stopped: hostname revoked")),
      { relay with router := relay.router.evictRoutes hosts [] })

def lapsed (io : TurnIo) (relay : Relay) : Bool :=
  task.ctx.polar.any fun gate =>
    gate.capFor relay.cache task.user.name io.now io.capFails == .denyAll

/-- The tick; `none` when `order` is not an order of the session's hostnames. -/
def revalidateTick (io : TurnIo) (relay : Relay) : Option Turn :=
  let (who, notices, relay) :=
    task.ctx.authenticateAny task.hashToken io.credential relay task.token.expose
  if who.map (·.userId) = some task.user.userId then
    if io.order.Nodup ∧ io.order.toFinset = relay.router.hostnamesOf task.handle.sessionId then
      let (evicted, relay) := task.evictRevoked io relay
      some (if task.lapsed io relay then
        { relay
          reply := some (.denied .limitExceeded "subscription lapsed or suspended")
          notices := notices ++ evicted
          exit := some (.ok ()) }
        else { relay, notices := notices ++ evicted })
    else none
  else
    some { relay, reply := some (.denied .authFailed "token revoked"), notices, exit := some (.ok ()) }

end ControlTask

/-! ## Steps -/

inductive ControlAct where
  | elapse (ms : Nat)
  | arrive (x : Except CodecError ControlFrame)
  | others (relay : Relay)
  | poll (io : TurnIo)

namespace ControlTask

variable (task : ControlTask)

/-- The branch that won, run to the end. -/
def serve (io : TurnIo) (S : Control) : Wake → Option Control
  | .frame f =>
    let S := { S with inbox := S.inbox.tail }.turn io (task.dispatch io S.relay f)
    -- the loop starts over, with a new read
    some { S with deadAt := S.clock + sessionDeadAfter }
  | .failed e =>
    some { S with inbox := S.inbox.tail, exit := some (if e.isEof then .ok () else .error e) }
  | .dead => some { S with exit := some (.ok ()) }
  | .tick =>
    let S := { S with tickAt := nextTimeout S.tickAt S.clock task.revalidate }
    (task.revalidateTick io S.relay).map (S.turn io)

def step (S : Control) : ControlAct → Option Control
  | .elapse ms => some { S with clock := S.clock + ms }
  | .arrive x => some { S with inbox := S.inbox ++ [x] }
  | .others relay => some { S with relay := relay }
  | .poll io => if S.exit.isSome then none else (task.wake S).bind (task.serve io S)

end ControlTask

/-! ## What the polls of a run find -/

/-- A poll: what won the `select!`, and whether the tick was due. -/
structure Poll where
  won : Wake
  due : Bool
deriving DecidableEq

namespace Poll

def IsFrame (p : Poll) : Prop := ∃ f, p.won = .frame f

instance (p : Poll) : Decidable p.IsFrame :=
  match h : p.won with
  | .frame f => .isTrue ⟨f, h⟩
  | .failed _ | .dead | .tick => .isFalse (by simp [IsFrame, h])

/-- A frame served while the tick is due. -/
def Overdue (p : Poll) : Prop := p.IsFrame ∧ p.due = true

instance (p : Poll) : Decidable p.Overdue := inferInstanceAs (Decidable (_ ∧ _))

/-- The session ends here, by the dead-man or by an error of the stream. -/
def Leaves (p : Poll) : Prop := p.won = .dead ∨ ∃ e, p.won = .failed e

theorem frame_or_leaves_or_tick (p : Poll) : p.IsFrame ∨ p.Leaves ∨ p.won = .tick := by
  obtain ⟨won, due⟩ := p
  cases won with
  | frame f => exact .inl ⟨f, rfl⟩
  | failed e => exact .inr (.inl (.inr ⟨e, rfl⟩))
  | dead => exact .inr (.inl (.inl rfl))
  | tick => exact .inr (.inr rfl)

end Poll

namespace ControlTask

variable (task : ControlTask)

def poll? : Control × ControlAct → Option Poll
  | (S, .poll _) => (task.wake S).map fun w => ⟨w, decide (task.Due S)⟩
  | _ => none

/-- The polls of a schedule, in order. -/
def polls (S : Control) (acts : List ControlAct) : List Poll :=
  (Lts.trace task.step S acts).filterMap task.poll?

/-- After a frame served while the tick is due no frame is served until `authenticate_any` is run. -/
def NotOutrun (ps : List Poll) : Prop :=
  ∀ pre p mid q post, ps = pre ++ p :: (mid ++ q :: post) → p.Overdue → q.IsFrame →
    ∃ r ∈ mid, r.won = .tick

def polled? : Control × ControlAct → Option Control
  | (S, .poll _) => some S
  | _ => none

/-- The states in which a schedule polls the `select!`, in order. -/
def polled (S : Control) (acts : List ControlAct) : List Control :=
  (Lts.trace task.step S acts).filterMap polled?

/-- Of two polls in a row, if a frame is waiting before the first and the tick is due, then none is waiting
before the second. -/
def NoBacklog (states : List Control) : Prop :=
  states.IsChain fun S T => task.Due S → S.waiting = true → T.waiting = false

instance (states : List Control) : Decidable (task.NoBacklog states) :=
  inferInstanceAs (Decidable (states.IsChain _))

variable {task} {S S' : Control} {io : TurnIo} {acts : List ControlAct}

/-- The biased `select!` takes a frame just when one is waiting. -/
theorem wake_frame_iff {w : Wake} (h : task.wake S = some w) : (∃ f, w = .frame f) ↔ S.waiting = true := by
  unfold wake at h
  unfold Control.waiting
  cases hin : S.inbox with
  | nil =>
    simp only [hin] at h
    refine iff_of_false ?_ Bool.false_ne_true
    rintro ⟨f, rfl⟩
    split at h
    · cases h
    · split at h <;> cases h
  | cons x rest =>
    cases x with
    | ok f =>
      simp only [hin] at h
      cases h
      exact iff_of_true ⟨f, rfl⟩ rfl
    | error e =>
      simp only [hin] at h
      cases h
      refine iff_of_false ?_ Bool.false_ne_true
      rintro ⟨f, hf⟩
      cases hf

theorem step_poll (h : task.step S (.poll io) = some S') :
    S.exit = none ∧ ∃ w, task.wake S = some w ∧ task.serve io S w = some S' := by
  simp only [step] at h
  split at h
  · cases h
  · rename_i hexit
    obtain ⟨w, hw, hserve⟩ := Option.bind_eq_some_iff.1 h
    exact ⟨by simpa using hexit, w, hw, hserve⟩

/-- A task that has returned stays so, and is not polled. -/
theorem step_exit {act : ControlAct} (h : task.step S act = some S') (hexit : S.exit.isSome) :
    S'.exit.isSome ∧ task.poll? (S, act) = none := by
  cases act with
  | elapse | arrive | others => cases h; exact ⟨hexit, rfl⟩
  | poll io =>
    obtain ⟨hnone, -⟩ := step_poll h
    rw [hnone] at hexit
    cases hexit

theorem step_leaves {act : ControlAct} {p : Poll} (h : task.step S act = some S')
    (hp : task.poll? (S, act) = some p) (hleaves : p.Leaves) : S'.exit.isSome := by
  cases act with
  | elapse | arrive | others => cases hp
  | poll io =>
    obtain ⟨-, w, hw, hserve⟩ := step_poll h
    simp only [poll?, hw, Option.map_some, Option.some.injEq] at hp
    subst hp
    rcases hleaves with hdead | ⟨e, hfailed⟩
    · dsimp only at hdead
      subst hdead
      cases hserve
      rfl
    · dsimp only at hfailed
      subst hfailed
      cases hserve
      rfl

theorem polls_cons {act : ControlAct} (h : task.step S act = some S') :
    task.polls S (act :: acts) = (task.poll? (S, act)).toList ++ task.polls S' acts := by
  simp only [polls, Lts.trace, h, Option.elim_some, List.filterMap_cons]
  cases task.poll? (S, act) <;> rfl

theorem polled_cons {act : ControlAct} (h : task.step S act = some S') :
    task.polled S (act :: acts) = (polled? (S, act)).toList ++ task.polled S' acts := by
  simp only [polled, Lts.trace, h, Option.elim_some, List.filterMap_cons]
  cases polled? (S, act) <;> rfl

theorem polls_exit : ∀ {S : Control} {acts : List ControlAct}, S.exit.isSome →
    Lts.run task.step S acts = some S' → task.polls S acts = []
  | _, [], _, _ => rfl
  | S, act :: acts, hexit, h => by
    obtain ⟨M, hM, hrun⟩ := (Lts.run_cons_eq_some _).1 h
    obtain ⟨hexit', hpoll⟩ := step_exit hM hexit
    rw [polls_cons hM, hpoll, polls_exit hexit' hrun]
    rfl

/-- A poll that leaves is the last. -/
theorem polls_leaves : ∀ {S : Control} {acts : List ControlAct} {pre post : List Poll} {p : Poll},
    Lts.run task.step S acts = some S' → task.polls S acts = pre ++ p :: post → p.Leaves → post = []
  | _, [], pre, post, p, _, hps, _ => by cases pre <;> cases hps
  | S, act :: acts, pre, post, p, h, hps, hleaves => by
    obtain ⟨M, hM, hrun⟩ := (Lts.run_cons_eq_some _).1 h
    rw [polls_cons hM] at hps
    cases hp : task.poll? (S, act) with
    | none =>
      rw [hp] at hps
      exact polls_leaves hrun hps hleaves
    | some p' =>
      rw [hp] at hps
      cases pre with
      | nil =>
        obtain ⟨rfl, rfl⟩ := List.cons.inj hps
        exact polls_exit (step_leaves hM hp hleaves) hrun
      | cons p'' pre => exact polls_leaves hrun (List.cons.inj hps).2 hleaves

variable (task) in
/-- A poll in this state finds this. -/
def Finds (S : Control) (p : Poll) : Prop := task.wake S = some p.won ∧ (p.due = true ↔ task.Due S)

/-- The polls of a run and the states in which they are made. -/
theorem polls_polled : ∀ {S : Control} {acts : List ControlAct}, Lts.run task.step S acts = some S' →
    List.Forall₂ task.Finds (task.polled S acts) (task.polls S acts)
  | _, [], _ => .nil
  | S, act :: acts, h => by
    obtain ⟨M, hM, hrun⟩ := (Lts.run_cons_eq_some _).1 h
    have hrest := polls_polled hrun
    rw [polls_cons hM, polled_cons hM]
    cases act with
    | elapse | arrive | others => exact hrest
    | poll io =>
      obtain ⟨-, w, hw, -⟩ := step_poll hM
      have hpoll : task.poll? (S, .poll io) = some ⟨w, decide (task.Due S)⟩ := by
        simp only [poll?, hw, Option.map_some]
      rw [hpoll]
      exact .cons ⟨hw, decide_eq_true_iff⟩ hrest

theorem Finds.isFrame {p : Poll} (h : task.Finds S p) : p.IsFrame ↔ S.waiting = true := wake_frame_iff h.1

theorem Finds.overdue {p : Poll} (h : task.Finds S p) : p.Overdue ↔ task.Due S ∧ S.waiting = true := by
  rw [Poll.Overdue, h.isFrame, h.2, and_comm]

/-- No backlog, in terms of what the polls find. -/
theorem noBacklog_iff : ∀ {states : List Control} {ps : List Poll}, List.Forall₂ task.Finds states ps →
    (task.NoBacklog states ↔ ps.IsChain fun p q => p.Overdue → ¬ q.IsFrame)
  | _, _, .nil => iff_of_true .nil .nil
  | _, _, .cons _ .nil => iff_of_true (.singleton _) (.singleton _)
  | _, _, .cons hp (.cons hq hrest) => by
    have ih := noBacklog_iff (.cons hq hrest)
    rw [NoBacklog] at ih ⊢
    rw [List.isChain_cons_cons, List.isChain_cons_cons, ih, hp.overdue, hq.isFrame, Bool.not_eq_true, and_imp]

/-- Only `Goodbye` returns from the dispatch. -/
theorem dispatch_exit {relay : Relay} {f : ControlFrame} (hf : f ≠ .goodbye) :
    (task.dispatch io relay f).exit = none := by
  cases f with
  | goodbye => exact absurd rfl hf
  | _ => rfl

theorem step_frame {f : ControlFrame} {rest : List (Except CodecError ControlFrame)}
    (hexit : S.exit = none) (hin : S.inbox = .ok f :: rest) (hf : f ≠ .goodbye) (hio : io.pushed = true) :
    ∃ M, task.step S (.poll io) = some M ∧ M.exit = none ∧ M.inbox = rest ∧ M.tickAt = S.tickAt ∧
      S.clock ≤ M.clock := by
  have hwake : task.wake S = some (.frame f) := by simp only [wake, hin]
  have hstep : task.step S (.poll io) = task.serve io S (.frame f) := by simp [step, hexit, hwake]
  refine ⟨_, hstep.trans rfl, ?_, ?_, rfl, Nat.le_add_right ..⟩
  · simp only [Control.turn, hio, dispatch_exit hf, Bool.true_eq_false, and_false, if_false]
  · simp only [Control.turn, hin, List.tail_cons]

end ControlTask

/-! ## Frames and the tick -/

open ControlTask in
/-- **A backlog is served first.** However many frames wait, and whatever they are short of `Goodbye`,
they are all served with the tick due from the first of them on. -/
theorem buffered_served_first (task : ControlTask) {rest : List (Except CodecError ControlFrame)} :
    ∀ {S : Control} (turns : List (ControlFrame × TurnIo)), task.Due S → S.exit = none →
      S.inbox = turns.map (fun t => .ok t.1) ++ rest →
      (∀ t ∈ turns, t.1 ≠ .goodbye ∧ t.2.pushed = true) →
      ∃ S', Lts.run task.step S (turns.map fun t => .poll t.2) = some S' ∧ S'.exit = none ∧
        S'.inbox = rest ∧
        task.polls S (turns.map fun t => .poll t.2) = turns.map fun t => ⟨.frame t.1, true⟩
  | S, [], _, hexit, hin, _ => ⟨S, rfl, hexit, hin, rfl⟩
  | S, (f, io) :: turns, hdue, hexit, hin, hturns => by
    obtain ⟨hf, hio⟩ := hturns _ (List.mem_cons_self ..)
    obtain ⟨M, hM, hexitM, hinM, htick, hclock⟩ := step_frame hexit hin hf hio
    have hdueM : task.Due M := ⟨hdue.1, by rw [htick]; exact hdue.2.trans hclock⟩
    obtain ⟨S', hrun, hexit', hin', hpolls⟩ := buffered_served_first task turns hdueM hexitM hinM
      fun t ht => hturns t (List.mem_cons_of_mem _ ht)
    refine ⟨S', (Lts.run_cons_eq_some _).2 ⟨M, hM, hrun⟩, hexit', hin', ?_⟩
    have hpoll : task.poll? (S, .poll io) = some ⟨.frame f, true⟩ := by
      simp only [poll?, wake, hin, List.map_cons, List.cons_append, Option.map_some, hdue, decide_true]
    rw [List.map_cons, polls_cons hM, hpoll, hpolls]
    rfl

section examples

open ControlTask

def annTask : ControlTask where
  ctx := { domain := "d.io", tcp := none, polar := none }
  hashToken := bytes
  handle := ⟨1, 1⟩
  user := ⟨1, "ann"⟩
  token := ⟨"t1"⟩
  revalidate := 60 * 1000

def annRelay : Relay where
  db := annProvisioned
  router := Router.empty
  bound := ∅
  cache := LicenseCache.empty

/-- Heartbeats, the second one just when the tick is due. -/
def heartbeats : List ControlAct :=
  [.elapse 30000, .arrive (.ok (.ping 1)), .poll {}, .elapse 30000, .arrive (.ok (.ping 2)), .poll {},
    .poll {}, .elapse 30000, .arrive (.ok (.ping 3)), .poll {}]

/-- `ann`'s token is revoked in another process. -/
def tokenRevoked : Relay := { annRelay with db := (Mutation.revokeToken 5 1).exec [] annProvisioned }

/-- After the revocation a minute passes, with three frames arriving before the loop is polled. -/
def backlog : List ControlAct :=
  [.others tokenRevoked, .elapse 60000, .arrive (.ok (.claim ["shop.d.io"] [])),
    .arrive (.ok (.claim ["blog.d.io"] [])), .arrive (.ok (.ping 7)), .poll { took := 10 },
    .poll { took := 10 }, .poll {}]

end examples

end EtherTunnel
