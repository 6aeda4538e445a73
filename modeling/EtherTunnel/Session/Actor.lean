import EtherTunnel.Lib.Lts
import EtherTunnel.Proto.Codec
import Mathlib.Data.List.Basic
import Mathlib.Data.List.Nodup
import Mathlib.Data.List.Pairwise
import Mathlib.Data.List.Perm.Basic

/-!
# Opening data streams through the session actor

| here | there |
| --- | --- |
| `OpenError`, `SessionCmd` | `session.rs:47-65` |
| `OpenCall` | one call of `SessionHandle::open_stream` (`router.rs:52-65`), with its `oneshot` channel |
| `Actor` | the locals of `run_session` (`session.rs:194-301`), its channel and the tasks it spawned |
| `ActorAct.top` | the check for an abandoned command at the start of an iteration (`:212-216`) |
| `ActorAct.opened`, `inbound`, `command` | what `poll_fn` returns, and the arm that handles it (`:228-299`) |
| `ActorAct.cancelled`, `deadline` | the other two branches of the `select!` |
| `ActorAct.wrote`, `writeFailed` | the end of a preamble task (`:282-292`) |
| `ActorAct.exit` | the return of `run_session`, which drops the receiver and a pending command |

A command moves from the channel into `pending_open`, from there into a preamble task with a fresh
stream, and ends as an answer on its own `oneshot`. `OpenLog` records who was where; it is never read
by a step. Any caller may give up at any time, whether or not a reply is waiting for it: its timeout may
have run out, or its own future may have been dropped.
-/

namespace EtherTunnel

inductive OpenError where
  | sessionClosed
  | timeout
  | mux
deriving DecidableEq, Repr

/-- What is sent on the `oneshot`: a stream, by its number. -/
abbrev OpenResult := Except OpenError Nat

/-- `OpenStream`; `reply` is the call whose `oneshot` it holds. -/
structure SessionCmd where
  header : StreamHeader
  reply : Nat
deriving DecidableEq

/-- Slots of the command channel (`mpsc::channel::<SessionCmd>(64)`). -/
def cmdSlots : Nat := 64

inductive CallPhase where
  | sending
  | waiting
  | returned (result : OpenResult)
  | dropped
deriving DecidableEq

structure OpenCall where
  header : StreamHeader
  phase : CallPhase
  /-- The value in the `oneshot`, once one was sent to an open receiver. -/
  reply : Option OpenResult
deriving DecidableEq

namespace OpenCall

/-- `Sender::is_closed`: the receiver is gone. -/
def isClosed (c : OpenCall) : Bool :=
  match c.phase with
  | .sending | .waiting => false
  | .returned _ | .dropped => true

/-- `Sender::send`. -/
def send (result : OpenResult) (c : OpenCall) : OpenCall :=
  if c.isClosed then c else { c with reply := some result }

end OpenCall

/-- Where the loop stands: before the check, at the `select!`, past a `break`, returned. -/
inductive LoopPoint where
  | top
  | select
  | leaving
  | ended
deriving DecidableEq

/-- The history of a session's commands. -/
structure OpenLog where
  /-- Commands in the order the channel took them. -/
  sent : List SessionCmd
  /-- Commands in the order the actor received them. -/
  received : List SessionCmd
  /-- Commands the actor is done with: a result of `poll_new_outbound`, or dropped. -/
  served : List SessionCmd
  /-- The results of `poll_new_outbound`, each with the command that was pending. -/
  opens : List (SessionCmd × Option Nat)
  /-- What was sent on each `oneshot`. -/
  answers : List (Nat × OpenResult)
  /-- The calls that had given up when the present iteration started. -/
  abandoned : List Nat

structure Actor where
  calls : List OpenCall
  queue : List SessionCmd
  loop : LoopPoint
  pendingOpen : Option SessionCmd
  controlStarted : Bool
  /-- The bytes written on each outbound stream. -/
  streams : List (List UInt8)
  /-- Running preamble tasks, each with its stream. -/
  writers : List (SessionCmd × Nat)
  log : OpenLog

inductive Inbound where
  | stream
  | error
  | closed

inductive ActorAct where
  | call (header : StreamHeader)
  | send (call : Nat)
  | recv (call : Nat)
  | timeout (call : Nat)
  | drop (call : Nat)
  | top
  | cancelled
  | deadline
  | opened (ok : Bool)
  | inbound (event : Inbound)
  | command
  | exit
  | wrote (cmd : SessionCmd) (stream : Nat)
  | writeFailed (cmd : SessionCmd) (stream : Nat) (written : List UInt8)

namespace Actor

def start : Actor := ⟨[], [], .top, none, false, [], [], ⟨[], [], [], [], [], []⟩⟩

variable (A : Actor)

def isClosed (call : Nat) : Bool := A.calls[call]?.any OpenCall.isClosed

/-- No one holds the sender of the call's `oneshot` any more. -/
def SenderGone (call : Nat) : Prop :=
  (∀ cmd ∈ A.queue, cmd.reply ≠ call) ∧ (∀ cmd ∈ A.pendingOpen, cmd.reply ≠ call) ∧
    ∀ w ∈ A.writers, w.1.reply ≠ call

instance (call : Nat) : Decidable (A.SenderGone call) := inferInstanceAs (Decidable (_ ∧ _ ∧ _))

def setPhase (call : Nat) (phase : CallPhase) : Actor :=
  { A with calls := A.calls.modify call fun c => { c with phase := phase } }

def answer (call : Nat) (result : OpenResult) : Actor :=
  { A with
    calls := A.calls.modify call (OpenCall.send result)
    log := { A.log with answers := A.log.answers ++ [(call, result)] } }

/-- The command in the slot is done with. -/
def clearPending : Actor :=
  { A with
    pendingOpen := none
    log := { A.log with served := A.log.served ++ A.pendingOpen.toList } }

/-- A step of one call, in the phase it must be in. -/
def onCall (call : Nat) (f : OpenCall → Option Actor) : Option Actor := A.calls[call]?.bind f

def step : ActorAct → Option Actor
  | .call header => some { A with calls := A.calls ++ [⟨header, .sending, none⟩] }
  | .send call => A.onCall call fun c =>
    if c.phase ≠ .sending then none
    else if A.loop = .ended then some (A.setPhase call (.returned (.error .sessionClosed)))
    else if cmdSlots ≤ A.queue.length then none
    else
      let cmd : SessionCmd := ⟨c.header, call⟩
      some { A.setPhase call .waiting with
        queue := A.queue ++ [cmd]
        log := { A.log with sent := A.log.sent ++ [cmd] } }
  | .recv call => A.onCall call fun c =>
    if c.phase ≠ .waiting then none
    else
      match c.reply with
      | some result => some (A.setPhase call (.returned result))
      | none =>
        if A.SenderGone call then some (A.setPhase call (.returned (.error .sessionClosed))) else none
  | .timeout call => A.onCall call fun c =>
    if c.phase = .waiting then some (A.setPhase call (.returned (.error .timeout))) else none
  | .drop call => A.onCall call fun c =>
    if c.isClosed then none else some (A.setPhase call .dropped)
  | .top =>
    if A.loop ≠ .top then none
    else
      let checked := if A.pendingOpen.any fun cmd => A.isClosed cmd.reply then A.clearPending else A
      some { checked with
        loop := .select
        log := { checked.log with abandoned := (List.range A.calls.length).filter A.isClosed } }
  | .cancelled => if A.loop = .select then some { A with loop := .leaving } else none
  | .deadline =>
    if A.loop = .select ∧ A.controlStarted = false then some { A with loop := .leaving } else none
  | .opened ok =>
    if A.loop ≠ .select then none
    else
      match A.pendingOpen with
      | none => none
      | some cmd =>
        let result := if ok then some A.streams.length else none
        let taken := { A.clearPending with
          loop := .top
          log := { A.clearPending.log with opens := A.log.opens ++ [(cmd, result)] } }
        if ok then
          some { taken with
            streams := A.streams ++ [[]]
            writers := A.writers ++ [(cmd, A.streams.length)] }
        else some (taken.answer cmd.reply (.error .mux))
  | .inbound event =>
    if A.loop ≠ .select then none
    else
      match event with
      | .stream =>
        if A.controlStarted then some { A with loop := .leaving }
        else some { A with loop := .top, controlStarted := true }
      | .error | .closed => some { A with loop := .leaving }
  | .command =>
    if A.loop ≠ .select then none
    else
      match A.pendingOpen, A.queue with
      | none, cmd :: queue => some { A with
          loop := .top
          queue := queue
          pendingOpen := some cmd
          log := { A.log with received := A.log.received ++ [cmd] } }
      | _, _ => none
  | .exit => if A.loop = .leaving then some { A.clearPending with loop := .ended, queue := [] } else none
  | .wrote cmd stream =>
    if (cmd, stream) ∉ A.writers then none
    else
      match writeFrame StreamHeader.wire [] cmd.header maxStreamHeader with
      | .ok bytes => some (answer { A with
          streams := A.streams.set stream bytes
          writers := A.writers.erase (cmd, stream) } cmd.reply (.ok stream))
      | .error _ => none
  | .writeFailed cmd stream written =>
    if (cmd, stream) ∉ A.writers then none
    else some (answer { A with
      streams := A.streams.set stream written
      writers := A.writers.erase (cmd, stream) } cmd.reply (.error .mux))

/-! ## What a step can do -/

/-- A step of the session, by its effect. -/
inductive Move : Actor → Actor → Prop
  | call {A : Actor} (header : StreamHeader) :
    Move A { A with calls := A.calls ++ [⟨header, .sending, none⟩] }
  | setPhase {A : Actor} {call : Nat} {c : OpenCall} {phase : CallPhase}
    (hc : A.calls[call]? = some c) (hphase : phase ≠ .sending)
    (hok : ∀ s, phase = .returned (.ok s) → c.reply = some (.ok s)) : Move A (A.setPhase call phase)
  | send {A : Actor} {call : Nat} {c : OpenCall} (hc : A.calls[call]? = some c)
    (hphase : c.phase = .sending) (hloop : A.loop ≠ .ended) :
    Move A { A.setPhase call .waiting with
      queue := A.queue ++ [⟨c.header, call⟩]
      log := { A.log with sent := A.log.sent ++ [⟨c.header, call⟩] } }
  | top {A checked : Actor} (hloop : A.loop = .top)
    (hchecked : checked = if A.pendingOpen.any fun cmd => A.isClosed cmd.reply then A.clearPending else A) :
    Move A { checked with
      loop := .select
      log := { checked.log with abandoned := (List.range A.calls.length).filter A.isClosed } }
  | goto {A : Actor} {point : LoopPoint} {control : Bool} (hloop : A.loop = .select)
    (hpoint : point ≠ .select) : Move A { A with loop := point, controlStarted := control }
  | opened {A : Actor} {cmd : SessionCmd} (hloop : A.loop = .select)
    (hpending : A.pendingOpen = some cmd) :
    Move A { A.clearPending with
      loop := .top
      streams := A.streams ++ [[]]
      writers := A.writers ++ [(cmd, A.streams.length)]
      log := { A.clearPending.log with opens := A.log.opens ++ [(cmd, some A.streams.length)] } }
  | refused {A : Actor} {cmd : SessionCmd} (hloop : A.loop = .select)
    (hpending : A.pendingOpen = some cmd) :
    Move A (answer { A.clearPending with
      loop := .top
      log := { A.clearPending.log with opens := A.log.opens ++ [(cmd, none)] } } cmd.reply (.error .mux))
  | command {A : Actor} {cmd : SessionCmd} {queue : List SessionCmd} (hloop : A.loop = .select)
    (hpending : A.pendingOpen = none) (hqueue : A.queue = cmd :: queue) :
    Move A { A with
      loop := .top
      queue := queue
      pendingOpen := some cmd
      log := { A.log with received := A.log.received ++ [cmd] } }
  | exit {A : Actor} : Move A { A.clearPending with loop := .ended, queue := [] }
  | written {A : Actor} {cmd : SessionCmd} {stream : Nat} {bytes : List UInt8} {result : OpenResult}
    (hwriter : (cmd, stream) ∈ A.writers)
    (hok : ∀ s, result = .ok s → s = stream ∧
      writeFrame StreamHeader.wire [] cmd.header maxStreamHeader = .ok bytes) :
    Move A (answer { A with
      streams := A.streams.set stream bytes
      writers := A.writers.erase (cmd, stream) } cmd.reply result)

theorem step_move {A A' : Actor} {act : ActorAct} (hs : A.step act = some A') : Move A A' := by
  cases act with
  | call header =>
    cases hs
    exact .call header
  | send call =>
    obtain ⟨c, hc, hs⟩ := Option.bind_eq_some_iff.1 hs
    split at hs
    · cases hs
    · rename_i hphase
      split at hs
      · cases hs
        exact .setPhase hc (by simp) (by simp)
      · split at hs
        · cases hs
        · cases hs
          exact .send hc (not_not.1 hphase) ‹_›
  | recv call =>
    obtain ⟨c, hc, hs⟩ := Option.bind_eq_some_iff.1 hs
    split at hs
    · cases hs
    · split at hs
      · rename_i hreply
        cases hs
        refine .setPhase hc (by simp) fun s hp => ?_
        cases hp
        exact hreply
      · split at hs
        · cases hs
          exact .setPhase hc (by simp) (by simp)
        · cases hs
  | timeout call =>
    obtain ⟨c, hc, hs⟩ := Option.bind_eq_some_iff.1 hs
    split at hs
    · cases hs
      exact .setPhase hc (by simp) (by simp)
    · cases hs
  | drop call =>
    obtain ⟨c, hc, hs⟩ := Option.bind_eq_some_iff.1 hs
    split at hs
    · cases hs
    · cases hs
      exact .setPhase hc (by simp) (by simp)
  | top =>
    simp only [step] at hs
    split at hs
    · cases hs
    · cases hs
      exact .top (not_not.1 ‹_›) rfl
  | cancelled =>
    simp only [step] at hs
    split at hs
    · cases hs
      exact .goto ‹_› (by simp)
    · cases hs
  | deadline =>
    simp only [step] at hs
    split at hs
    · rename_i h
      cases hs
      exact .goto h.1 (by simp)
    · cases hs
  | opened ok =>
    simp only [step] at hs
    split at hs
    · cases hs
    · rename_i hloop
      split at hs
      · cases hs
      · rename_i cmd hpending
        cases ok with
        | true =>
          cases hs
          exact .opened (not_not.1 hloop) hpending
        | false =>
          cases hs
          exact .refused (not_not.1 hloop) hpending
  | inbound event =>
    simp only [step] at hs
    split at hs
    · cases hs
    · rename_i hloop
      have hselect : A.loop = .select := not_not.1 hloop
      cases event with
      | stream =>
        dsimp only at hs
        split at hs
        · cases hs
          exact .goto hselect (by simp)
        · cases hs
          exact .goto hselect (by simp)
      | error =>
        cases hs
        exact .goto hselect (by simp)
      | closed =>
        cases hs
        exact .goto hselect (by simp)
  | command =>
    simp only [step] at hs
    split at hs
    · cases hs
    · rename_i hloop
      cases hpending : A.pendingOpen with
      | some cmd =>
        rw [hpending] at hs
        cases hs
      | none =>
        cases hqueue : A.queue with
        | nil =>
          rw [hpending, hqueue] at hs
          cases hs
        | cons cmd queue =>
          rw [hpending, hqueue] at hs
          cases hs
          exact .command (not_not.1 hloop) hpending hqueue
  | exit =>
    simp only [step] at hs
    split at hs
    · cases hs
      exact .exit
    · cases hs
  | wrote cmd stream =>
    simp only [step] at hs
    split at hs
    · cases hs
    · rename_i hwriter
      cases hframe : writeFrame StreamHeader.wire [] cmd.header maxStreamHeader with
      | error e =>
        rw [hframe] at hs
        cases hs
      | ok bytes =>
        rw [hframe] at hs
        cases hs
        refine .written (not_not.1 hwriter) fun s hres => ?_
        cases hres
        exact ⟨rfl, hframe⟩
  | writeFailed cmd stream written =>
    simp only [step] at hs
    split at hs
    · cases hs
    · cases hs
      exact .written (not_not.1 ‹_›) nofun

end Actor

/-! ## The calls -/

/-- Calls keep their header, and a command once sent stays sent. -/
def CallsKept (l l' : List OpenCall) : Prop :=
  ∀ (i : Nat) (c : OpenCall), l[i]? = some c → ∃ c' : OpenCall, l'[i]? = some c' ∧ c'.header = c.header ∧
    (c.phase ≠ .sending → c'.phase ≠ .sending)

section calls

variable {l : List OpenCall} {i j : Nat} {f : OpenCall → OpenCall}

theorem getElem?_modify_some {c' : OpenCall} (h : (l.modify i f)[j]? = some c') :
    ∃ c, l[j]? = some c ∧ ((i = j ∧ c' = f c) ∨ (i ≠ j ∧ c' = c)) := by
  rw [List.getElem?_modify] at h
  obtain ⟨c, hc, rfl⟩ := Option.map_eq_some_iff.1 h
  refine ⟨c, hc, ?_⟩
  by_cases hij : i = j
  · exact .inl ⟨hij, by simp [hij]⟩
  · exact .inr ⟨hij, by simp [hij]⟩

theorem callsKept_refl (l : List OpenCall) : CallsKept l l := fun _ c hc => ⟨c, hc, rfl, id⟩

theorem callsKept_modify
    (hf : ∀ c, (f c).header = c.header ∧ (c.phase ≠ .sending → (f c).phase ≠ .sending)) :
    CallsKept l (l.modify i f) := by
  intro j c hc
  by_cases hij : i = j
  · exact ⟨f c, by simp [hij, hc], hf c⟩
  · exact ⟨c, by simp [hij, hc], rfl, id⟩

theorem callsKept_concat (c : OpenCall) : CallsKept l (l ++ [c]) := by
  intro j c' hc'
  refine ⟨c', ?_, rfl, id⟩
  rw [List.getElem?_append_left (List.getElem?_eq_some_iff.1 hc').1]
  exact hc'

theorem callsKept_setPhase {phase : CallPhase} (hphase : phase ≠ .sending) :
    CallsKept l (l.modify i fun c => { c with phase := phase }) :=
  callsKept_modify fun _ => ⟨rfl, fun _ => hphase⟩

theorem send_header (result : OpenResult) (c : OpenCall) : (c.send result).header = c.header := by
  unfold OpenCall.send
  split <;> rfl

theorem send_phase (result : OpenResult) (c : OpenCall) : (c.send result).phase = c.phase := by
  unfold OpenCall.send
  split <;> rfl

theorem callsKept_send (result : OpenResult) : CallsKept l (l.modify i (OpenCall.send result)) :=
  callsKept_modify fun c => ⟨send_header result c, fun h => send_phase result c ▸ h⟩

end calls

/-! ## Commands in order, one at a time -/

namespace Actor

variable {A A' : Actor}

/-- Every command is in the channel, in the slot or done with, in the order the channel took them. -/
structure Ordered (A : Actor) : Prop where
  once : (A.log.sent.map SessionCmd.reply).Nodup
  own : ∀ cmd ∈ A.log.sent, ∃ c, A.calls[cmd.reply]? = some c ∧ c.header = cmd.header ∧
    c.phase ≠ .sending
  channel : A.log.received ++ A.queue <+: A.log.sent
  whole : A.loop ≠ .ended → A.log.received ++ A.queue = A.log.sent
  slot : A.log.received = A.log.served ++ A.pendingOpen.toList
  opens : (A.log.opens.map Prod.fst).Sublist A.log.served
  live : A.loop = .select → ∀ cmd ∈ A.pendingOpen, cmd.reply ∉ A.log.abandoned

theorem Ordered.start : Ordered start :=
  ⟨List.nodup_nil, nofun, List.nil_prefix, fun _ => rfl, rfl, List.Sublist.refl _, nofun⟩

/-- Steps of calls and preamble tasks leave the commands where they are. -/
theorem Ordered.of_calls (h : Ordered A) {calls : List OpenCall} (hkept : CallsKept A.calls calls)
    (streams : List (List UInt8)) (writers : List (SessionCmd × Nat)) (answers : List (Nat × OpenResult)) :
    Ordered { A with
      calls := calls
      streams := streams
      writers := writers
      log := { A.log with answers := answers } } := by
  refine ⟨h.once, fun cmd hcmd => ?_, h.channel, h.whole, h.slot, h.opens, h.live⟩
  obtain ⟨c, hc, hheader, hphase⟩ := h.own cmd hcmd
  obtain ⟨c', hc', hheader', hphase'⟩ := hkept _ _ hc
  exact ⟨c', hc', hheader'.trans hheader, hphase' hphase⟩

theorem Ordered.setPhase (h : Ordered A) {call : Nat} {phase : CallPhase} (hphase : phase ≠ .sending) :
    Ordered (A.setPhase call phase) :=
  h.of_calls (callsKept_setPhase hphase) _ _ _

theorem Ordered.send (h : Ordered A) {call : Nat} {c : OpenCall} (hc : A.calls[call]? = some c)
    (hphase : c.phase = .sending) (hloop : A.loop ≠ .ended) :
    Ordered { A.setPhase call .waiting with
      queue := A.queue ++ [⟨c.header, call⟩]
      log := { A.log with sent := A.log.sent ++ [⟨c.header, call⟩] } } := by
  have hwaiting : Ordered (A.setPhase call .waiting) := h.setPhase (by decide)
  have hnew : call ∉ A.log.sent.map SessionCmd.reply := by
    intro hin
    obtain ⟨cmd, hcmd, rfl⟩ := List.mem_map.1 hin
    obtain ⟨c', hc', -, hphase'⟩ := h.own cmd hcmd
    rw [hc, Option.some_inj] at hc'
    exact hphase' (hc' ▸ hphase)
  have happ : A.log.received ++ (A.queue ++ [⟨c.header, call⟩]) = A.log.sent ++ [⟨c.header, call⟩] := by
    rw [← List.append_assoc, h.whole hloop]
  refine ⟨?_, fun cmd hcmd => ?_, ⟨[], by rw [List.append_nil]; exact happ⟩, fun _ => happ, h.slot, h.opens,
    h.live⟩
  · rw [List.map_append, List.map_singleton]
    refine List.nodup_append.2 ⟨h.once, List.nodup_singleton _, fun r hr r' hr' heq => ?_⟩
    obtain rfl : r' = call := List.mem_singleton.1 hr'
    exact hnew (heq ▸ hr)
  · rcases List.mem_append.1 hcmd with hcmd | hcmd
    · exact hwaiting.own cmd hcmd
    · rw [List.mem_singleton.1 hcmd]
      exact ⟨{ c with phase := .waiting }, by simp [Actor.setPhase, hc], rfl, by simp⟩

/-- The slot is emptied, and what was in it is done with. -/
theorem Ordered.clearPending (h : Ordered A) : Ordered A.clearPending := by
  refine ⟨h.once, h.own, h.channel, h.whole, ?_, ?_, nofun⟩
  · rw [Actor.clearPending, Option.toList_none, List.append_nil]
    exact h.slot
  · exact h.opens.trans (List.sublist_append_left _ _)

/-- A result of `poll_new_outbound` empties the slot. -/
theorem Ordered.took (h : Ordered A) {cmd : SessionCmd} (hloop : A.loop = .select)
    (hpending : A.pendingOpen = some cmd) (result : Option Nat) :
    Ordered { A.clearPending with
      loop := .top
      log := { A.clearPending.log with opens := A.log.opens ++ [(cmd, result)] } } := by
  have hclear := h.clearPending
  refine ⟨h.once, h.own, h.channel, fun _ => h.whole (by simp [hloop]), hclear.slot, ?_, nofun⟩
  rw [List.map_append, Actor.clearPending, hpending]
  exact h.opens.append (List.Sublist.refl _)

/-- Past the check the slot is empty or its caller still waits. -/
theorem not_abandoned {checked : Actor}
    (hchecked : checked = if A.pendingOpen.any fun cmd => A.isClosed cmd.reply then A.clearPending else A)
    {cmd : SessionCmd} (hcmd : checked.pendingOpen = some cmd) :
    cmd.reply ∉ (List.range A.calls.length).filter A.isClosed := by
  split at hchecked
  · subst hchecked
    cases hcmd
  · rename_i hopen
    subst hchecked
    intro hin
    exact hopen (by rw [hcmd]; exact (List.mem_filter.1 hin).2)

theorem Ordered.move (h : Ordered A) (hm : Move A A') : Ordered A' := by
  cases hm with
  | call header => exact h.of_calls (callsKept_concat _) _ _ _
  | setPhase hc hphase hok => exact h.setPhase hphase
  | send hc hphase hloop => exact h.send hc hphase hloop
  | top hloop hchecked =>
    rename_i checked
    have hord : Ordered checked := by
      split at hchecked
      · exact hchecked ▸ h.clearPending
      · exact hchecked ▸ h
    have hended : checked.loop ≠ .ended := by
      split at hchecked <;> simp [hchecked, Actor.clearPending, hloop]
    exact ⟨hord.once, hord.own, hord.channel, fun _ => hord.whole hended, hord.slot, hord.opens,
      fun _ cmd hcmd => not_abandoned hchecked hcmd⟩
  | goto hloop hpoint =>
    exact ⟨h.once, h.own, h.channel, fun _ => h.whole (by simp [hloop]), h.slot, h.opens,
      fun hs => absurd hs hpoint⟩
  | opened hloop hpending => exact (h.took hloop hpending _).of_calls (callsKept_refl _) _ _ _
  | refused hloop hpending => exact (h.took hloop hpending _).of_calls (callsKept_send _) _ _ _
  | command hloop hpending hqueue =>
    rename_i cmd queue
    have hsame : A.log.received ++ [cmd] ++ queue = A.log.received ++ A.queue := by
      rw [hqueue, List.append_assoc, List.singleton_append]
    refine ⟨h.once, h.own, ?_, fun _ => ?_, ?_, h.opens, nofun⟩
    · dsimp only
      rw [hsame]
      exact h.channel
    · dsimp only
      rw [hsame]
      exact h.whole (by simp [hloop])
    · have hslot := h.slot
      rw [hpending, Option.toList_none, List.append_nil] at hslot
      dsimp only
      rw [hslot, Option.toList_some]
  | exit =>
    have hclear := h.clearPending
    refine ⟨h.once, h.own, ?_, nofun, hclear.slot, hclear.opens, nofun⟩
    dsimp only
    rw [List.append_nil]
    exact (List.prefix_append _ _).trans h.channel
  | written hwriter hok => exact h.of_calls (callsKept_send _) _ _ _

/-- What was opened was sent. -/
theorem Ordered.opens_sublist (h : Ordered A) : (A.log.opens.map Prod.fst).Sublist A.log.received := by
  rw [h.slot]
  exact h.opens.trans (List.sublist_append_left _ _)

theorem Ordered.received_prefix (h : Ordered A) : A.log.received <+: A.log.sent :=
  (List.prefix_append _ _).trans h.channel

theorem Ordered.opens_sent (h : Ordered A) : (A.log.opens.map Prod.fst).Sublist A.log.sent :=
  h.opens_sublist.trans h.received_prefix.sublist

theorem Ordered.opens_nodup (h : Ordered A) : (A.log.opens.map fun o => o.1.reply).Nodup := by
  have hsub := h.opens_sent.map SessionCmd.reply
  rw [List.map_map] at hsub
  exact hsub.nodup h.once

/-! ## Every stream goes to the call that asked for it -/

/-- Every result of `poll_new_outbound` is with one preamble task or one answer, and no stream is with
two. -/
structure Answered (A : Actor) : Prop where
  split : ((A.writers.map fun w => w.1.reply) ++ A.log.answers.map Prod.fst).Perm
    (A.log.opens.map fun o => o.1.reply)
  running : ∀ w ∈ A.writers, (w.1, some w.2) ∈ A.log.opens
  distinct : A.log.opens.Pairwise fun o o' => ∀ s, o.2 = some s → o'.2 ≠ some s
  bound : ∀ cmd s, (cmd, some s) ∈ A.log.opens → s < A.streams.length
  preamble : ∀ r s, (r, .ok s) ∈ A.log.answers → ∃ cmd bytes, cmd.reply = r ∧
    (cmd, some s) ∈ A.log.opens ∧ A.streams[s]? = some bytes ∧
    writeFrame StreamHeader.wire [] cmd.header maxStreamHeader = .ok bytes
  backed : ∀ (i : Nat) (c : OpenCall), A.calls[i]? = some c →
    (∀ r, c.reply = some r → (i, r) ∈ A.log.answers) ∧
    ∀ s, c.phase = .returned (.ok s) → (i, .ok s) ∈ A.log.answers

theorem Answered.start : Answered start :=
  ⟨List.Perm.refl _, nofun, List.Pairwise.nil, nofun, nofun, nofun⟩

/-- Steps of the loop leave tasks, streams and answers as they are. -/
theorem Answered.of_loop (h : Answered A) (queue : List SessionCmd) (loop : LoopPoint)
    (pendingOpen : Option SessionCmd) (control : Bool) (sent received served : List SessionCmd)
    (abandoned : List Nat) :
    Answered { A with
      queue := queue
      loop := loop
      pendingOpen := pendingOpen
      controlStarted := control
      log := ⟨sent, received, served, A.log.opens, A.log.answers, abandoned⟩ } :=
  ⟨h.split, h.running, h.distinct, h.bound, h.preamble, h.backed⟩

/-- A stream was opened for one command only. -/
theorem Answered.opens_inj (h : Answered A) {cmd cmd' : SessionCmd} {s : Nat}
    (ho : (cmd, some s) ∈ A.log.opens) (ho' : (cmd', some s) ∈ A.log.opens) : cmd = cmd' := by
  by_contra hne
  have hsymm : Std.Symm fun (o o' : SessionCmd × Option Nat) => ∀ s, o.2 = some s → o'.2 ≠ some s :=
    ⟨fun o o' hoo s hs hs' => hoo s hs' hs⟩
  exact h.distinct.forall ho ho' (fun heq => hne (congrArg Prod.fst heq)) s rfl rfl

theorem Answered.setPhase (h : Answered A) {call : Nat} {c : OpenCall} {phase : CallPhase}
    (hc : A.calls[call]? = some c) (hok : ∀ s, phase = .returned (.ok s) → c.reply = some (.ok s)) :
    Answered (A.setPhase call phase) := by
  refine ⟨h.split, h.running, h.distinct, h.bound, h.preamble, fun i c' hc' => ?_⟩
  obtain ⟨c₀, hc₀, ⟨rfl, rfl⟩ | ⟨-, rfl⟩⟩ := getElem?_modify_some hc'
  · obtain rfl : c = c₀ := Option.some_inj.1 (hc.symm.trans hc₀)
    exact ⟨(h.backed _ _ hc).1, fun s hs => (h.backed _ _ hc).1 _ (hok s hs)⟩
  · exact h.backed _ _ hc₀

/-- An answer to one call: the others see nothing of it. -/
theorem Answered.backed_answer (h : Answered A) {call : Nat} {result : OpenResult} (i : Nat) (c : OpenCall)
    (hc : (A.calls.modify call (OpenCall.send result))[i]? = some c) :
    (∀ r, c.reply = some r → (i, r) ∈ A.log.answers ++ [(call, result)]) ∧
    ∀ s, c.phase = .returned (.ok s) → (i, .ok s) ∈ A.log.answers ++ [(call, result)] := by
  obtain ⟨c₀, hc₀, hcase⟩ := getElem?_modify_some hc
  obtain ⟨hreply, hphase⟩ := h.backed _ _ hc₀
  rcases hcase with ⟨rfl, rfl⟩ | ⟨-, rfl⟩
  · refine ⟨fun r hr => ?_, fun s hs => ?_⟩
    · unfold OpenCall.send at hr
      split at hr
      · exact List.mem_append_left _ (hreply r hr)
      · cases hr
        exact List.mem_append_right _ (List.mem_singleton_self _)
    · rw [send_phase] at hs
      exact List.mem_append_left _ (hphase s hs)
  · exact ⟨fun r hr => List.mem_append_left _ (hreply r hr),
      fun s hs => List.mem_append_left _ (hphase s hs)⟩

theorem Answered.opened (h : Answered A) (cmd : SessionCmd) :
    Answered { A with
      streams := A.streams ++ [[]]
      writers := A.writers ++ [(cmd, A.streams.length)]
      log := { A.log with opens := A.log.opens ++ [(cmd, some A.streams.length)] } } := by
  have hmore : ∀ {o : SessionCmd × Option Nat}, o ∈ A.log.opens →
      o ∈ A.log.opens ++ [(cmd, some A.streams.length)] := List.mem_append_left _
  refine ⟨?_, fun w hw => ?_, ?_, fun cmd' s hs => ?_, fun r s hrs => ?_, h.backed⟩
  · simp only [List.map_append, List.map_cons, List.map_nil, List.append_assoc]
    refine List.Perm.trans ?_ (h.split.append_right _)
    rw [List.append_assoc]
    exact (List.perm_append_comm).append_left _
  · rcases List.mem_append.1 hw with hw | hw
    · exact hmore (h.running w hw)
    · rw [List.mem_singleton.1 hw]
      exact List.mem_append_right _ (List.mem_singleton_self _)
  · refine List.pairwise_append.2 ⟨h.distinct, List.pairwise_singleton _ _, fun o ho o' ho' s hs => ?_⟩
    rw [List.mem_singleton.1 ho']
    have hlt := h.bound o.1 s (hs ▸ ho)
    simp only [ne_eq, Option.some.injEq]
    omega
  · dsimp only
    rw [List.length_append, List.length_singleton]
    rcases List.mem_append.1 hs with hs | hs
    · have := h.bound cmd' s hs
      omega
    · cases List.mem_singleton.1 hs
      omega
  · obtain ⟨cmd', bytes, hr, ho, hbytes, hframe⟩ := h.preamble r s hrs
    refine ⟨cmd', bytes, hr, hmore ho, ?_, hframe⟩
    rw [List.getElem?_append_left (h.bound _ _ ho)]
    exact hbytes

theorem Answered.refused (h : Answered A) (cmd : SessionCmd) :
    Answered (answer { A with log := { A.log with opens := A.log.opens ++ [(cmd, none)] } } cmd.reply
      (.error .mux)) := by
  have hmore : ∀ {o : SessionCmd × Option Nat}, o ∈ A.log.opens → o ∈ A.log.opens ++ [(cmd, none)] :=
    List.mem_append_left _
  refine ⟨?_, fun w hw => hmore (h.running w hw), ?_, fun cmd' s hs => ?_, fun r s hrs => ?_,
    h.backed_answer⟩
  · simp only [answer, List.map_append, List.map_cons, List.map_nil, ← List.append_assoc]
    exact h.split.append_right _
  · refine List.pairwise_append.2 ⟨h.distinct, List.pairwise_singleton _ _, fun o _ o' ho' s _ => ?_⟩
    rw [List.mem_singleton.1 ho']
    exact nofun
  · rcases List.mem_append.1 hs with hs | hs
    · exact h.bound cmd' s hs
    · cases List.mem_singleton.1 hs
  · rcases List.mem_append.1 hrs with hrs | hrs
    · obtain ⟨cmd', bytes, hr, ho, hbytes⟩ := h.preamble r s hrs
      exact ⟨cmd', bytes, hr, hmore ho, hbytes⟩
    · cases List.mem_singleton.1 hrs

/-- A preamble task ends: its stream is its own, so no stream already handed out is written to. -/
theorem Answered.written (h : Answered A) (hnodup : (A.log.opens.map fun o => o.1.reply).Nodup)
    {cmd : SessionCmd} {stream : Nat} {bytes : List UInt8} {result : OpenResult}
    (hwriter : (cmd, stream) ∈ A.writers)
    (hok : ∀ s, result = .ok s → s = stream ∧
      writeFrame StreamHeader.wire [] cmd.header maxStreamHeader = .ok bytes) :
    Answered (answer { A with
      streams := A.streams.set stream bytes
      writers := A.writers.erase (cmd, stream) } cmd.reply result) := by
  have hopen : (cmd, some stream) ∈ A.log.opens := h.running _ hwriter
  have hdisjoint : ∀ r ∈ A.log.answers.map Prod.fst, cmd.reply ≠ r := fun r hr =>
    (List.nodup_append.1 (h.split.nodup_iff.2 hnodup)).2.2 _ (List.mem_map.2 ⟨_, hwriter, rfl⟩) r hr
  refine ⟨?_, fun w hw => h.running w (List.mem_of_mem_erase hw), h.distinct, fun cmd' s hs => ?_,
    fun r s hrs => ?_, h.backed_answer⟩
  · have hperm : (A.writers.map fun w => w.1.reply).Perm
        (cmd.reply :: (A.writers.erase (cmd, stream)).map fun w => w.1.reply) :=
      (List.perm_cons_erase hwriter).map fun w => w.1.reply
    simp only [answer, List.map_append, List.map_cons, List.map_nil, ← List.append_assoc]
    refine (List.perm_append_singleton _ _).trans ?_
    exact (hperm.symm.append_right (A.log.answers.map Prod.fst)).trans h.split
  · rw [answer, List.length_set]
    exact h.bound cmd' s hs
  · rcases List.mem_append.1 hrs with hrs | hrs
    · obtain ⟨cmd', bytes', hr, ho, hbytes, hframe⟩ := h.preamble r s hrs
      refine ⟨cmd', bytes', hr, ho, ?_, hframe⟩
      have hne : stream ≠ s := by
        rintro rfl
        have hsame : cmd = cmd' := h.opens_inj hopen ho
        exact hdisjoint r (List.mem_map.2 ⟨_, hrs, rfl⟩) (hsame ▸ hr)
      rw [answer, List.getElem?_set_ne hne]
      exact hbytes
    · obtain ⟨hr, hs⟩ := Prod.mk.inj (List.mem_singleton.1 hrs)
      obtain ⟨rfl, hframe⟩ := hok s hs.symm
      refine ⟨cmd, bytes, hr.symm, hopen, ?_, hframe⟩
      exact List.getElem?_set_self (h.bound _ _ hopen)

theorem Answered.move (h : Answered A) (hnodup : (A.log.opens.map fun o => o.1.reply).Nodup)
    (hm : Move A A') : Answered A' := by
  cases hm with
  | call header =>
    refine ⟨h.split, h.running, h.distinct, h.bound, h.preamble, fun i c hc => ?_⟩
    by_cases hi : i < A.calls.length
    · rw [List.getElem?_append_left hi] at hc
      exact h.backed i c hc
    · rw [List.getElem?_append_right (by omega)] at hc
      rw [List.mem_singleton.1 (List.mem_of_getElem? hc)]
      exact ⟨nofun, nofun⟩
  | setPhase hc hphase hok => exact h.setPhase hc hok
  | send hc hphase hloop => exact (h.setPhase hc (by simp)).of_loop _ _ _ _ _ _ _ _
  | top hloop hchecked =>
    split at hchecked
    · subst hchecked
      exact h.of_loop _ _ _ _ _ _ _ _
    · subst hchecked
      exact h.of_loop _ _ _ _ _ _ _ _
  | goto hloop hpoint => exact h.of_loop _ _ _ _ _ _ _ _
  | opened hloop hpending => exact (h.opened _).of_loop _ _ _ _ _ _ _ _
  | refused hloop hpending => exact (h.refused _).of_loop _ _ _ _ _ _ _ _
  | command hloop hpending hqueue => exact h.of_loop _ _ _ _ _ _ _ _
  | exit => exact h.of_loop _ _ _ _ _ _ _ _
  | written hwriter hok => exact h.written hnodup hwriter hok

/-! ## Correlation -/

/-- The two invariants of the session. -/
structure Inv (A : Actor) : Prop where
  ordered : Ordered A
  answered : Answered A

theorem Inv.step (h : Inv A) {act : ActorAct} (hs : A.step act = some A') : Inv A' :=
  ⟨h.ordered.move (step_move hs), h.answered.move h.ordered.opens_nodup (step_move hs)⟩

/-- The call that a stream was answered to, and what is on the stream. -/
theorem Inv.own (h : Inv A) {r s : Nat} (hrs : (r, .ok s) ∈ A.log.answers) :
    ∃ c bytes, A.calls[r]? = some c ∧ A.streams[s]? = some bytes ∧
      writeFrame StreamHeader.wire [] c.header maxStreamHeader = .ok bytes := by
  obtain ⟨cmd, bytes, rfl, ho, hbytes, hframe⟩ := h.answered.preamble r s hrs
  have hsent : cmd ∈ A.log.sent := h.ordered.opens_sent.subset (List.mem_map.2 ⟨_, ho, rfl⟩)
  obtain ⟨c, hc, hheader, -⟩ := h.ordered.own cmd hsent
  exact ⟨c, bytes, hc, hbytes, hheader ▸ hframe⟩

/-- What holds at every moment of a session. -/
structure Correlated (A : Actor) : Prop where
  /-- No command is answered twice. -/
  once : (A.log.answers.map Prod.fst).Nodup
  /-- A stream handed to a call carries that call's header and nothing else. -/
  own : ∀ r s, (r, .ok s) ∈ A.log.answers → ∃ c bytes, A.calls[r]? = some c ∧
    A.streams[s]? = some bytes ∧ bytes = frameBytes StreamHeader.wire c.header ∧
    readFrame StreamHeader.wire ⟨bytes, none⟩ maxStreamHeader = (.ok c.header, ⟨[], none⟩)
  /-- It is handed to no other call. -/
  exclusive : ∀ r r' s, (r, .ok s) ∈ A.log.answers → (r', .ok s) ∈ A.log.answers → r = r'
  /-- A call returns no stream but the one it was answered. -/
  handed : ∀ (r : Nat) (c : OpenCall) (s : Nat), A.calls[r]? = some c → c.phase = .returned (.ok s) →
    (r, .ok s) ∈ A.log.answers
  /-- Opens come in the order in which the commands were received, and these in the order sent. -/
  ordered : (A.log.opens.map Prod.fst).Sublist A.log.received ∧ A.log.received <+: A.log.sent ∧
    (A.log.sent.map SessionCmd.reply).Nodup

theorem Inv.correlated (h : Inv A) : Correlated A where
  once := by
    have hnodup := h.answered.split.nodup_iff.2 h.ordered.opens_nodup
    exact (List.nodup_append.1 hnodup).2.1
  own r s hrs := by
    obtain ⟨c, bytes, hc, hbytes, hframe⟩ := h.own hrs
    exact ⟨c, bytes, hc, hbytes, (writeFrame_ok hframe).2, readFrame_writeFrame (by decide) hframe⟩
  exclusive r r' s hr hr' := by
    obtain ⟨cmd, -, rfl, ho, -⟩ := h.answered.preamble r s hr
    obtain ⟨cmd', -, rfl, ho', -⟩ := h.answered.preamble r' s hr'
    rw [h.answered.opens_inj ho ho']
  handed r c s hc hs := (h.answered.backed r c hc).2 s hs
  ordered := ⟨h.ordered.opens_sublist, h.ordered.received_prefix, h.ordered.once⟩

/-- A step opens nothing, or it opens for the one command that is received and not done with, whose caller
had not given up when the iteration started. -/
def OpensOne (A A' : Actor) : Prop :=
  A'.log.opens = A.log.opens ∨
  ∃ cmd result, A'.log.opens = A.log.opens ++ [(cmd, result)] ∧ A.pendingOpen = some cmd ∧
    A.log.received = A.log.served ++ [cmd] ∧ cmd.reply ∉ A.log.abandoned

theorem Ordered.opensOne (h : Ordered A) (hm : Move A A') : OpensOne A A' := by
  have htook : ∀ {cmd : SessionCmd} (result : Option Nat), A.loop = .select → A.pendingOpen = some cmd →
      A'.log.opens = A.log.opens ++ [(cmd, result)] → OpensOne A A' := by
    intro cmd result hloop hpending hopens
    refine .inr ⟨cmd, result, hopens, hpending, ?_, h.live hloop cmd hpending⟩
    rw [h.slot, hpending, Option.toList_some]
  cases hm with
  | opened hloop hpending => exact htook _ hloop hpending rfl
  | refused hloop hpending => exact htook _ hloop hpending rfl
  | top hloop hchecked =>
    split at hchecked
    · exact .inl (hchecked ▸ rfl)
    · exact .inl (hchecked ▸ rfl)
  | call | setPhase | send | goto | command | exit | written => exact .inl rfl

end Actor

/-- **Opened streams reach their callers.** Whatever the order of commands, inbound events, results of
`poll_new_outbound`, ends of preamble tasks and callers giving up: at every moment of the session answers,
streams and commands correspond, and every open is for the pending command alone. -/
theorem open_streams_correlated (acts : List ActorAct) :
    Lts.Always Actor.step Actor.Correlated Actor.start acts ∧
    Lts.Steps Actor.step (fun A act => ∀ A' ∈ A.step act, A.OpensOne A') Actor.start acts := by
  have hinit : Actor.start.Inv := ⟨Actor.Ordered.start, Actor.Answered.start⟩
  have hall : Lts.Steps Actor.step (fun _ _ => True) Actor.start acts :=
    Lts.steps_of_forall fun _ _ => trivial
  have hstep : ∀ A act A', Actor.Inv A → True → Actor.step A act = some A' → Actor.Inv A' :=
    fun A act A' h _ hs => h.step hs
  constructor
  · exact Lts.always_of_inv hstep (fun A h => h.correlated) hinit hall
  · refine Lts.steps_of_inv hstep (fun A act h _ A' hs => ?_) hinit hall
    exact h.ordered.opensOne (Actor.step_move hs)

/-- The first caller gives up while its open is pending; the second gets the only stream. -/
example :
    ((Lts.run Actor.step Actor.start
      [.call (.tcp 1 (.v4 #v[1, 2, 3, 4]) 5), .call (.tcp 2 (.v4 #v[1, 2, 3, 4]) 6), .top,
        .inbound .stream, .send 0, .send 1, .top, .command, .timeout 0, .top, .command, .top, .opened true,
        .wrote ⟨.tcp 2 (.v4 #v[1, 2, 3, 4]) 6, 1⟩ 0, .recv 1]).map
      fun A => (A.calls.map (·.phase), A.log.answers)) =
    some ([.returned (.error .timeout), .returned (.ok 0)], [(1, .ok 0)]) := by
  decide +kernel

end EtherTunnel
