import EtherTunnel.Session.Handshake
import EtherTunnel.Session.Release
import EtherTunnel.Session.Replies

/-!
# One-shot requests

`etun list`, `release` and `remove` talk to the relay outside the daemon: a stream, `Hello` and `Welcome`,
one request, one reply, `Goodbye` (`client/src/control.rs`).

| here | there |
| --- | --- |
| `ControlError` | the errors of `control.rs`, with what their texts are made of |
| `helloFrame`, `openBytes`, `readWelcome` | the handshake of `open` (`control.rs:112-146`) |
| `readReply` | `read_reply` (`control.rs:151`) |
| `OwnedSet`, `Greeter.listOwned` | `control.rs:167`, `:188` |
| `ReleasedSet`, `Greeter.release` | `Freed` (`control.rs:181`), `control.rs:220` |
| `Handshake.answers` | the relay's turn for the request: one read, `dispatch`, the writer |

Both ends are the code's own, joined by the bytes between them. `Greeter.request` is the conversation that
the two requests share; other tasks of the relay may do anything (`RequestIo.between`) after the handshake
and before the request is served. Connecting comes before, and the re-validation tick, a minute away at
least as the relay is configured, does not come in the twenty seconds that a request can take.
-/

namespace EtherTunnel

/-! ## The client's end -/

inductive ControlError where
  | noWelcome
  | rejected
  | denied (code : DenyCode) (message : String)
  | unexpectedWelcome (frame : ControlFrame)
  | tooOld (what : String)
  | noReply
  | unexpectedReply (frame : ControlFrame)
  | reading (e : CodecError)
  | writing (e : CodecError)
deriving DecidableEq

/-- `PROTO_OWNED_SET`. -/
def protoOwnedSet : UInt16 := 3

def helloFrame (agentVersion token : String) : ControlFrame := .hello ⟨token⟩ agentVersion 1 protocolVersion

def openBytes (agentVersion token : String) : Except CodecError (List UInt8) :=
  writeFrame ControlFrame.wire (writePreamble []) (helloFrame agentVersion token) maxControlFrame

def readWelcome (late : Bool) (rd : Reader) : Except ControlError UInt16 × Reader :=
  if late then (.error .noWelcome, rd)
  else
    match readFrame ControlFrame.wire rd maxControlFrame with
    | (.ok (.welcome proto _ _), rd) => (.ok proto, rd)
    | (.ok (.denied .authFailed _), rd) => (.error .rejected, rd)
    | (.ok (.denied code message), rd) => (.error (.denied code message), rd)
    | (.ok other, rd) => (.error (.unexpectedWelcome other), rd)
    | (.error e, rd) => (.error (.reading e), rd)

def readReply (late : Bool) (rd : Reader) : Except ControlError ControlFrame :=
  if late then .error .noReply
  else
    match readFrame ControlFrame.wire rd maxControlFrame with
    | (.ok frame, _) => .ok frame
    | (.error e, _) => .error (.reading e)

/-! ## The relay's end -/

/-- The request's turn in the loop; an unread or unwritten frame ends the session instead. -/
def Handshake.answers (h : Handshake) (io : TurnIo) (relay : Relay) (bytes : List UInt8) :
    List UInt8 × Relay :=
  match h.task with
  | none => ([], relay)
  | some task =>
    match readFrame ControlFrame.wire ⟨h.rest.bytes ++ bytes, none⟩ maxControlFrame with
    | (.error _, _) => ([], relay)
    | (.ok frame, _) =>
      let turn := task.dispatch io relay frame
      ((spawnWriter [] (if io.pushed then turn.reply.toList else [])).1, turn.relay)

/-! ## The conversation -/

structure RequestIo where
  agentVersion : String := "0"
  /-- Ten seconds without a whole frame, for the client. -/
  welcomeLate : Bool := false
  replyLate : Bool := false
  handshake : HandshakeIo := {}
  /-- What the relay's other tasks do before the request is served. -/
  between : Relay → Relay := id
  turn : TurnIo := {}

structure OwnedSet where
  hostnames : List String
  tcpPorts : List UInt16
  maxTunnels : Option Int64
deriving DecidableEq

def OwnedSet.used (owned : OwnedSet) : Nat := owned.hostnames.length + owned.tcpPorts.length

def OwnedSet.ofReply : ControlFrame → Except ControlError OwnedSet
  | .owned hostnames tcpPorts maxTunnels => .ok ⟨hostnames, tcpPorts, maxTunnels⟩
  | other => .error (.unexpectedReply other)

structure ReleasedSet where
  hostnames : List String
  tcpPorts : List UInt16
deriving DecidableEq

def ReleasedSet.ofReply : ControlFrame → Except ControlError ReleasedSet
  | .released hostnames tcpPorts => .ok ⟨hostnames, tcpPorts⟩
  | other => .error (.unexpectedReply other)

namespace Greeter

variable (greeter : Greeter)

def request (io : RequestIo) (relay : Relay) (token what : String) (frame : ControlFrame) :
    Except ControlError ControlFrame × Relay :=
  match openBytes io.agentVersion token with
  | .error e => (.error (.writing e), relay)
  | .ok sent =>
    let h := greeter.handshake io.handshake relay ⟨sent, none⟩
    match readWelcome io.welcomeLate ⟨(spawnWriter [] h.written).1, none⟩ with
    | (.error e, _) => (.error e, h.relay)
    | (.ok proto, rd) =>
      if proto < protoOwnedSet then (.error (.tooOld what), h.relay)
      else
        match writeFrame ControlFrame.wire [] frame maxControlFrame with
        | .error e => (.error (.writing e), h.relay)
        | .ok bytes =>
          let (reply, relay) := h.answers io.turn (io.between h.relay) bytes
          (readReply io.replyLate ⟨rd.bytes ++ reply, none⟩, relay)

def listOwned (io : RequestIo) (relay : Relay) (token : String) : Except ControlError OwnedSet × Relay :=
  let r := greeter.request io relay token "report owned tunnels" .listOwned
  (r.1.bind OwnedSet.ofReply, r.2)

def release (io : RequestIo) (relay : Relay) (token : String) (hostnames : List String)
    (tcpPorts : List UInt16) : Except ControlError ReleasedSet × Relay :=
  let r := greeter.request io relay token "release tunnels remotely" (.release hostnames tcpPorts)
  (r.1.bind ReleasedSet.ofReply, r.2)

/-! ## What goes through -/

/-- Nothing on the way of the request is late or too long. -/
structure Clear (io : RequestIo) (token : String) (frame : ControlFrame) : Prop where
  hello : (helloFrame io.agentVersion token).Fits
  welcome : (greeter.welcome protocolVersion).Fits
  frame : frame.Fits
  reads : io.handshake.preambleLate = false ∧ io.handshake.helloLate = false ∧ io.handshake.stalled = false
  replies : io.welcomeLate = false ∧ io.replyLate = false ∧ io.turn.pushed = true

end Greeter

theorem spawnWriter_one {frame : ControlFrame} (h : frame.Fits) :
    (spawnWriter [] [frame]).1 = frameBytes ControlFrame.wire frame := by
  rw [spawnWriter, writeFrame_of_fits h]
  rfl

theorem readFrame_one {frame : ControlFrame} (h : frame.Fits) (rest : List UInt8) :
    readFrame ControlFrame.wire ⟨frameBytes ControlFrame.wire frame ++ rest, none⟩ maxControlFrame =
      (.ok frame, ⟨rest, none⟩) :=
  readFrame_frameBytes (by decide) h rest none

theorem readFrame_nothing : readFrame ControlFrame.wire ⟨[], none⟩ maxControlFrame =
    (.error (.io .unexpectedEof), ⟨[], none⟩) := by
  rw [readFrame, readExact_short (by decide)]

namespace Greeter

variable {greeter : Greeter} {io : RequestIo} {relay : Relay} {token : String} {frame reply : ControlFrame}

theorem handshake_hello (hfits : (helloFrame io.agentVersion token).Fits)
    (hreads : io.handshake.preambleLate = false ∧ io.handshake.helloLate = false) :
    greeter.handshake io.handshake relay
        ⟨writePreamble [] ++ frameBytes ControlFrame.wire (helloFrame io.agentVersion token), none⟩ =
      greeter.onHello io.handshake relay ⟨[], none⟩ ⟨token⟩ 1 protocolVersion := by
  have hframe := readFrame_one hfits []
  rw [List.append_nil] at hframe
  rw [handshake, if_neg (by simp [hreads.1]), readPreamble_writePreamble]
  dsimp only
  rw [if_neg (by simp [hreads.2]), hframe]
  rfl

/-- The turn that a user's request gets. -/
def turn (greeter : Greeter) (io : RequestIo) (token : String) (user : AuthedUser) (mid : Relay)
    (frame : ControlFrame) : Turn :=
  (greeter.controlTask user ⟨token⟩).dispatch io.turn (io.between mid) frame

/-- A request on a clear way. -/
theorem request_eq {user : AuthedUser} {notices : Notices} {mid : Relay} {what : String}
    (h : greeter.Clear io token frame)
    (hauth : greeter.resolves io.handshake relay ⟨token⟩ = (some user, notices, mid)) :
    greeter.request io relay token what frame =
      (readReply false ⟨(spawnWriter [] (greeter.turn io token user mid frame).reply.toList).1, none⟩,
        (greeter.turn io token user mid frame).relay) := by
  obtain ⟨hpreamble, hhello, hstalled⟩ := h.reads
  obtain ⟨hwelcome, hreply, hpushed⟩ := h.replies
  have hgreeted : greeter.onHello io.handshake relay ⟨[], none⟩ ⟨token⟩ 1 protocolVersion =
      { relay := mid, rest := ⟨[], none⟩, notices, written := [greeter.welcome protocolVersion]
        task := some (greeter.controlTask user ⟨token⟩) } := by
    have hproto : negotiate 1 protocolVersion = some protocolVersion := by decide
    rw [resolves] at hauth
    rw [onHello, hproto]
    dsimp only
    rw [hauth]
    dsimp only
    rw [if_neg (by simp [hstalled])]
  have hread := readFrame_one h.welcome []
  have hserved := readFrame_one h.frame []
  rw [List.append_nil] at hread hserved
  rw [request, openBytes, writeFrame_of_fits h.hello]
  dsimp only
  rw [handshake_hello h.hello ⟨hpreamble, hhello⟩, hgreeted]
  dsimp only
  rw [spawnWriter_one h.welcome, readWelcome, if_neg (by simp [hwelcome]), hread]
  dsimp only [welcome]
  rw [if_neg (by decide), writeFrame_of_fits h.frame]
  dsimp only [Handshake.answers]
  rw [List.nil_append, List.nil_append, List.nil_append, hserved]
  dsimp only
  rw [if_pos hpushed, hreply]
  rfl

/-- What an end of the stream shows of a frame: the frame, or nothing if it is too long. -/
theorem readFrame_written (frame : ControlFrame) :
    (frame.Fits ∧ readFrame ControlFrame.wire ⟨(spawnWriter [] [frame]).1, none⟩ maxControlFrame =
        (.ok frame, ⟨[], none⟩)) ∨
      readFrame ControlFrame.wire ⟨(spawnWriter [] [frame]).1, none⟩ maxControlFrame =
        (.error (.io .unexpectedEof), ⟨[], none⟩) := by
  by_cases hfits : frame.Fits
  · have hread := readFrame_one hfits []
    rw [List.append_nil] at hread
    rw [spawnWriter_one hfits]
    exact .inl ⟨hfits, hread⟩
  · rw [spawnWriter_cancels hfits]
    exact .inr readFrame_nothing

theorem readReply_ok {late : Bool} {sent : Option ControlFrame}
    (h : readReply late ⟨(spawnWriter [] sent.toList).1, none⟩ = .ok reply) :
    late = false ∧ sent = some reply ∧ reply.Fits := by
  unfold readReply at h
  cases late with
  | true => cases h
  | false =>
    rw [if_neg Bool.false_ne_true] at h
    cases sent with
    | none =>
      rw [Option.toList_none, spawnWriter, readFrame_nothing] at h
      cases h
    | some frame =>
      rw [Option.toList_some] at h
      rcases readFrame_written frame with ⟨hfits, hread⟩ | hread <;> rw [hread] at h
      · cases h
        exact ⟨rfl, rfl, hfits⟩
      · cases h

theorem readReply_of_fits (h : reply.Fits) :
    readReply false ⟨(spawnWriter [] [reply]).1, none⟩ = .ok reply := by
  have hread := readFrame_one h []
  rw [List.append_nil] at hread
  rw [readReply, if_neg Bool.false_ne_true, spawnWriter_one h, hread]

/-- Only a `Welcome` is taken for one. -/
theorem readWelcome_ok {late : Bool} {frames : List ControlFrame} {proto : UInt16} {rd : Reader}
    (hone : frames = [] ∨ ∃ frame, frames = [frame])
    (h : readWelcome late ⟨(spawnWriter [] frames).1, none⟩ = (.ok proto, rd)) :
    late = false ∧ rd = ⟨[], none⟩ ∧ ∃ version id, frames = [.welcome proto version id] ∧
      (ControlFrame.welcome proto version id).Fits := by
  unfold readWelcome at h
  cases late with
  | true => cases h
  | false =>
    rw [if_neg Bool.false_ne_true] at h
    rcases hone with rfl | ⟨frame, rfl⟩
    · rw [spawnWriter, readFrame_nothing] at h
      cases h
    · rcases readFrame_written frame with ⟨hfits, hread⟩ | hread <;> rw [hread] at h
      · cases frame with
        | welcome proto' version id =>
          cases h
          exact ⟨rfl, rfl, version, id, rfl, hfits⟩
        | denied code message => cases code <;> cases h
        | _ => cases h
      · cases h

/-- A handshake writes one frame at most. -/
theorem Met.one {rd : Reader} {h : Handshake} (hmet : greeter.Met io.handshake relay rd h) :
    h.written = [] ∨ ∃ frame, h.written = [frame] := by
  cases hmet with
  | dropped | stalled => exact .inl rfl
  | refused rest why hno =>
    obtain ⟨-, -, -, hwritten⟩ := deny_frames io.handshake relay why rest
    exact hwritten.imp_right fun h => ⟨_, h⟩
  | @stranger token lo hi proto notices relay' rest why hopens hproto hauth =>
    obtain ⟨-, -, -, hwritten⟩ := deny_frames io.handshake relay' why rest
    exact hwritten.imp_right fun h => ⟨_, h⟩
  | welcomed => exact .inr ⟨_, rfl⟩

/-- A `Welcome` is for a user. -/
theorem Met.user {rd : Reader} {h : Handshake} {proto : UInt16} {version : String} {id : UInt64}
    (hmet : greeter.Met io.handshake relay rd h) (hw : h.written = [.welcome proto version id]) :
    io.handshake.stalled = false ∧ ControlFrame.welcome proto version id = greeter.welcome proto ∧
      ∃ token lo hi user notices mid, Opens io.handshake rd token lo hi ∧ negotiate lo hi = some proto ∧
        greeter.resolves io.handshake relay token = (some user, notices, mid) ∧ h.task.isSome := by
  cases hmet with
  | dropped | stalled => cases hw
  | refused rest why hno =>
    obtain ⟨-, -, -, h | h⟩ := deny_frames io.handshake relay why rest <;> rw [h] at hw <;> cases hw
  | @stranger token lo hi proto notices relay' rest why hopens hproto hauth =>
    dsimp only at hw
    obtain ⟨-, -, -, h | h⟩ := deny_frames io.handshake relay' why rest <;> rw [h] at hw <;> cases hw
  | welcomed rest hopens hproto hauth hstalled =>
    cases hw
    exact ⟨hstalled, rfl, _, _, _, _, _, _, hopens, hproto, hauth, rfl⟩

/-- The client's own opening. -/
theorem opens_hello {secret : Secret} {lo hi : UInt16} (hfits : (helloFrame io.agentVersion token).Fits)
    (h : Opens io.handshake
      ⟨writePreamble [] ++ frameBytes ControlFrame.wire (helloFrame io.agentVersion token), none⟩ secret lo hi) :
    io.handshake.preambleLate = false ∧ io.handshake.helloLate = false ∧ secret = ⟨token⟩ ∧ lo = 1 ∧
      hi = protocolVersion := by
  obtain ⟨hpreamble, hhello, v, agent, rd₁, rd₂, hpre, hframe⟩ := h
  have hone := readFrame_one hfits []
  rw [List.append_nil] at hone
  rw [readPreamble_writePreamble] at hpre
  cases hpre
  rw [hone] at hframe
  cases hframe
  exact ⟨hpreamble, hhello, rfl, rfl, rfl⟩

theorem answers_ok {hs : Handshake} {relay : Relay} {bytes : List UInt8} {late : Bool}
    (h : readReply late ⟨(hs.answers io.turn relay bytes).1, none⟩ = .ok reply) :
    late = false ∧ io.turn.pushed = true := by
  have hnothing : ∀ b, readReply b ⟨[], none⟩ ≠ .ok reply := by
    intro b hb
    have hb' : readReply b ⟨(spawnWriter [] (none : Option ControlFrame).toList).1, none⟩ = .ok reply := hb
    obtain ⟨-, hsent, -⟩ := readReply_ok hb'
    cases hsent
  unfold Handshake.answers at h
  split at h
  · exact absurd h (hnothing late)
  · split at h
    · exact absurd h (hnothing late)
    · dsimp only at h
      split at h
      · exact ⟨(readReply_ok h).1, ‹_›⟩
      · exact absurd h (hnothing late)

theorem request_ok {what : String} (h : (greeter.request io relay token what frame).1 = .ok reply) :
    greeter.Clear io token frame ∧ ∃ user notices mid,
      greeter.resolves io.handshake relay ⟨token⟩ = (some user, notices, mid) := by
  unfold request at h
  cases hopen : openBytes io.agentVersion token with
  | error e =>
    rw [hopen] at h
    cases h
  | ok sent =>
    rw [hopen] at h
    dsimp only at h
    obtain ⟨hello, rfl⟩ := writeFrame_ok hopen
    have hmet := greeter.handshake_met io.handshake relay
      ⟨writePreamble [] ++ frameBytes ControlFrame.wire (helloFrame io.agentVersion token), none⟩
    generalize greeter.handshake io.handshake relay _ = hs at h hmet
    rcases hread : readWelcome io.welcomeLate ⟨(spawnWriter [] hs.written).1, none⟩ with ⟨e | proto, rd⟩
    · rw [hread] at h
      cases h
    rw [hread] at h
    obtain ⟨hwelcome, rfl, version, id, hwritten, hfits⟩ := readWelcome_ok hmet.one hread
    obtain ⟨hstalled, hframe, secret, lo, hi, user, notices, mid, hopens, hproto, hauth, -⟩ :=
      hmet.user hwritten
    obtain ⟨hpreamble, hhello, rfl, rfl, rfl⟩ := opens_hello hello hopens
    cases hproto
    rw [hframe] at hfits
    dsimp only at h
    rw [if_neg (by decide)] at h
    cases hwrite : writeFrame ControlFrame.wire [] frame maxControlFrame with
    | error e =>
      rw [hwrite] at h
      cases h
    | ok bytes =>
      rw [hwrite] at h
      obtain ⟨hreply, hpushed⟩ := answers_ok h
      exact ⟨⟨hello, hfits, (writeFrame_ok hwrite).1, ⟨hpreamble, hhello, hstalled⟩, hwelcome, hreply, hpushed⟩,
        user, notices, mid, hauth⟩

/-- What comes back is the answer of the user's turn. -/
theorem request_ok_iff {what : String} : (greeter.request io relay token what frame).1 = .ok reply ↔
    greeter.Clear io token frame ∧ ∃ user notices mid,
      greeter.resolves io.handshake relay ⟨token⟩ = (some user, notices, mid) ∧
      (greeter.turn io token user mid frame).reply = some reply ∧ reply.Fits := by
  constructor
  · intro h
    obtain ⟨hclear, user, notices, mid, hauth⟩ := request_ok h
    rw [request_eq hclear hauth] at h
    dsimp only at h
    obtain ⟨-, hreply, hfits⟩ := readReply_ok h
    exact ⟨hclear, user, notices, mid, hauth, hreply, hfits⟩
  · rintro ⟨hclear, user, notices, mid, hauth, hreply, hfits⟩
    rw [request_eq hclear hauth, hreply]
    exact readReply_of_fits hfits

end Greeter

theorem bind_eq_ok {ε α β : Type} {x : Except ε α} {f : α → Except ε β} {b : β} :
    x.bind f = .ok b ↔ ∃ a, x = .ok a ∧ f a = .ok b := by
  cases x with
  | error e => exact ⟨nofun, nofun⟩
  | ok a => exact ⟨fun h => ⟨a, rfl, h⟩, fun ⟨_, ha, h⟩ => Except.ok.inj ha ▸ h⟩

/-! ## Listing -/

namespace Greeter

/-- The reply to `ListOwned`. -/
def ownedSet (greeter : Greeter) (io : RequestIo) (user : AuthedUser) (relay : Relay) : OwnedSet where
  hostnames := Registry.ownedHostnames io.turn.ownedHostnames relay.db greeter.ctx.domain user.userId
  tcpPorts := Registry.ownedPorts io.turn.ownedPorts relay.db user.userId
  maxTunnels := (greeter.controlTask user ⟨""⟩).maxTunnels io.turn relay

end Greeter

def OwnedSet.frame (owned : OwnedSet) : ControlFrame := .owned owned.hostnames owned.tcpPorts owned.maxTunnels

theorem OwnedSet.ofReply_eq_ok {frame : ControlFrame} {owned : OwnedSet} :
    OwnedSet.ofReply frame = .ok owned ↔ frame = owned.frame := by
  constructor
  · intro h
    cases frame <;> cases h
    rfl
  · rintro rfl
    rfl

/-- A list of what the user owns, all of it and nothing else. -/
structure OwnedSet.Reports (owned : OwnedSet) (domain : String) (db : Db) (u : Int) : Prop where
  hostnames : ∀ h, h ∈ owned.hostnames ↔ db.owns domain u (.host h) = true
  tcpPorts : ∀ p, p ∈ owned.tcpPorts ↔ db.owns domain u (.port p) = true
  used : (owned.used : Int) = db.countOwned u

theorem mem_ownedHostnames_iff {domain : String} {db : Db} {u : Int} (hvalid : db.LabelsValid) (h : String) :
    h ∈ Registry.ownedHostnames [] db domain u ↔ db.owns domain u (.host h) = true := by
  rw [mem_ownedHostnames, Db.owns_host_iff]
  constructor
  · rintro ⟨r, hr, hu, rfl⟩
    exact ⟨r.label, labelOf_eq_some.2 ⟨rfl, hvalid r hr⟩, Db.hasLabel_iff.2 ⟨r, hr, rfl, hu⟩⟩
  · rintro ⟨l, hl, hown⟩
    obtain ⟨r, hr, rfl, hu⟩ := Db.hasLabel_iff.1 hown
    exact ⟨r, hr, hu, (labelOf_eq_some.1 hl).1.symm⟩

theorem length_owned (domain : String) (db : Db) (u : Int) :
    ((Registry.ownedHostnames [] db domain u).length + (Registry.ownedPorts [] db u).length : Nat) =
      db.countOwned u := by
  have hhosts : (Registry.ownedHostnames [] db domain u).length = (db.hostnames.filter (·.userId == u)).length := by
    change (List.map _ (List.insertionSort _ _)).length = _
    rw [List.length_map, List.length_insertionSort]
    rfl
  have hports : (Registry.ownedPorts [] db u).length = (db.tcpPorts.filter (·.userId == u)).length := by
    change (List.map _ (List.insertionSort _ _)).length = _
    rw [List.length_map, List.length_insertionSort]
    rfl
  rw [hhosts, hports, Db.countOwned]
  exact Int.natCast_add ..

namespace Greeter

variable {greeter : Greeter} {io : RequestIo} {relay : Relay} {token : String}

theorem ownedSet_reports {user : AuthedUser} (hfaults : io.turn.ownedHostnames = [] ∧ io.turn.ownedPorts = [])
    (hdb : Reachable relay.db) :
    (greeter.ownedSet io user relay).Reports greeter.ctx.domain relay.db user.userId := by
  unfold ownedSet
  rw [hfaults.1, hfaults.2]
  exact ⟨mem_ownedHostnames_iff (reachable_labels hdb), fun p => mem_ownedPorts,
    length_owned greeter.ctx.domain relay.db user.userId⟩

theorem listOwned_ok_iff {owned : OwnedSet} : (greeter.listOwned io relay token).1 = .ok owned ↔
    greeter.Clear io token .listOwned ∧ ∃ user notices mid,
      greeter.resolves io.handshake relay ⟨token⟩ = (some user, notices, mid) ∧
      owned = greeter.ownedSet io user (io.between mid) ∧ owned.frame.Fits := by
  have hturn : ∀ user mid, (greeter.turn io token user mid .listOwned).reply =
      some (greeter.ownedSet io user (io.between mid)).frame := fun _ _ => rfl
  dsimp only [listOwned]
  rw [bind_eq_ok]
  constructor
  · rintro ⟨reply, hreply, hof⟩
    obtain rfl := OwnedSet.ofReply_eq_ok.1 hof
    obtain ⟨hclear, user, notices, mid, hauth, hframe, hfits⟩ := request_ok_iff.1 hreply
    rw [hturn] at hframe
    refine ⟨hclear, user, notices, mid, hauth, ?_, hfits⟩
    cases owned
    cases hframe
    rfl
  · rintro ⟨hclear, user, notices, mid, hauth, rfl, hfits⟩
    exact ⟨_, request_ok_iff.2 ⟨hclear, user, notices, mid, hauth, hturn user mid, hfits⟩, rfl⟩

theorem listOwned_relay {user : AuthedUser} {notices : Notices} {mid : Relay}
    (h : greeter.Clear io token .listOwned)
    (hauth : greeter.resolves io.handshake relay ⟨token⟩ = (some user, notices, mid)) :
    (greeter.listOwned io relay token).2 = io.between mid := by
  rw [listOwned, request_eq h hauth]
  rfl

/-- **What `etun list` shows.** A list that arrives is the list of the user whose token it is: every name
and port the registry gives them when the request is served, each counted once, and the cap the relay
enforces. It arrives whenever the token resolves and no frame is too long or late; asking changes nothing. -/
theorem listOwned_exact (greeter : Greeter) (io : RequestIo) (relay : Relay) (token : String) :
    (∀ owned, (greeter.listOwned io relay token).1 = .ok owned → ∃ user notices mid,
      greeter.resolves io.handshake relay ⟨token⟩ = (some user, notices, mid) ∧
      (greeter.listOwned io relay token).2 = io.between mid ∧
      owned.maxTunnels = (greeter.controlTask user ⟨token⟩).maxTunnels io.turn (io.between mid) ∧
      (io.turn.ownedHostnames = [] → io.turn.ownedPorts = [] → Reachable (io.between mid).db →
        owned.Reports greeter.ctx.domain (io.between mid).db user.userId)) ∧
    (∀ user notices mid, greeter.resolves io.handshake relay ⟨token⟩ = (some user, notices, mid) →
      greeter.Clear io token .listOwned → (greeter.ownedSet io user (io.between mid)).frame.Fits →
      ∃ owned, (greeter.listOwned io relay token).1 = .ok owned) := by
  refine ⟨fun owned h => ?_, fun user notices mid hauth hclear hfits => ?_⟩
  · obtain ⟨hclear, user, notices, mid, hauth, rfl, -⟩ := listOwned_ok_iff.1 h
    exact ⟨user, notices, mid, hauth, listOwned_relay hclear hauth, rfl,
      fun hhosts hports hdb => ownedSet_reports ⟨hhosts, hports⟩ hdb⟩
  · exact ⟨_, listOwned_ok_iff.2 ⟨hclear, user, notices, mid, hauth, rfl, hfits⟩⟩

/-! ## Releasing -/

variable {hosts : List String} {ports : List UInt16}

theorem release_turn {user : AuthedUser} {mid : Relay} : (greeter.turn io token user mid (.release hosts ports)) =
    { relay := (greeter.ctx.handleRelease io.turn.release (io.between mid) user token hosts ports).2
      reply := some (greeter.ctx.handleRelease io.turn.release (io.between mid) user token hosts ports).1 } := rfl

theorem ofReply_release {user : AuthedUser} {R : Relay} {freed : ReleasedSet}
    (hio : io.turn.release.DeletesOk) :
    ReleasedSet.ofReply (greeter.ctx.handleRelease io.turn.release R user token hosts ports).1 = .ok freed ↔
      hosts.length + ports.length ≤ maxClaimEntries ∧
        freed = ⟨greeter.ctx.ownedNames R.db user.userId hosts, greeter.ctx.ownedNumbers R.db user.userId ports⟩ := by
  by_cases hlen : hosts.length + ports.length ≤ maxClaimEntries
  · obtain ⟨relay', hrun, -⟩ := @SessionCtx.handleRelease_run greeter.ctx hosts ports R user token _ hio hlen
    rw [hrun]
    exact ⟨fun h => ⟨hlen, (Except.ok.inj h).symm⟩, fun h => congrArg _ h.2.symm⟩
  · unfold SessionCtx.handleRelease
    rw [if_pos (Nat.lt_of_not_le hlen)]
    exact ⟨nofun, fun h => absurd h.1 hlen⟩

theorem release_ok_iff {freed : ReleasedSet} (hio : io.turn.release.DeletesOk) :
    (greeter.release io relay token hosts ports).1 = .ok freed ↔
      greeter.Clear io token (.release hosts ports) ∧ hosts.length + ports.length ≤ maxClaimEntries ∧
      ∃ user notices mid, greeter.resolves io.handshake relay ⟨token⟩ = (some user, notices, mid) ∧
        freed = ⟨greeter.ctx.ownedNames (io.between mid).db user.userId hosts,
          greeter.ctx.ownedNumbers (io.between mid).db user.userId ports⟩ := by
  dsimp only [release]
  rw [bind_eq_ok]
  constructor
  · rintro ⟨reply, hreply, hof⟩
    obtain ⟨hclear, user, notices, mid, hauth, hframe, -⟩ := request_ok_iff.1 hreply
    cases hframe
    obtain ⟨hlen, hfreed⟩ := (ofReply_release hio).1 hof
    exact ⟨hclear, hlen, user, notices, mid, hauth, hfreed⟩
  · rintro ⟨hclear, hlen, user, notices, mid, hauth, hfreed⟩
    exact ⟨_, request_ok_iff.2 ⟨hclear, user, notices, mid, hauth, rfl, handleRelease_fits hclear.frame⟩,
      (ofReply_release hio).2 ⟨hlen, hfreed⟩⟩

/-- **What `etun release` frees.** The client is told of a release exactly when the token resolves, the
request is not too long and nothing is late; it is told the names and ports of its request that its user
owned when the request was served. Those and no others are freed, in the registry and in the routing table,
and if they were all its user had, nothing is left. -/
theorem release_exact (greeter : Greeter) (io : RequestIo) (relay : Relay) (token : String)
    (hosts : List String) (ports : List UInt16) (hio : io.turn.release.DeletesOk) :
    (∀ freed, (greeter.release io relay token hosts ports).1 = .ok freed ↔
      greeter.Clear io token (.release hosts ports) ∧ hosts.length + ports.length ≤ maxClaimEntries ∧
      ∃ user notices mid, greeter.resolves io.handshake relay ⟨token⟩ = (some user, notices, mid) ∧
        freed = ⟨greeter.ctx.ownedNames (io.between mid).db user.userId hosts,
          greeter.ctx.ownedNumbers (io.between mid).db user.userId ports⟩) ∧
    (∀ freed user notices mid, (greeter.release io relay token hosts ports).1 = .ok freed →
      greeter.resolves io.handshake relay ⟨token⟩ = (some user, notices, mid) →
      greeter.ctx.Freed (io.between mid) (greeter.release io relay token hosts ports).2 freed.hostnames
        freed.tcpPorts ∧
      ((∀ x, (io.between mid).db.owns greeter.ctx.domain user.userId x = true →
          x ∈ resources (hosts.map toAsciiLowercase) ports) →
        ∀ x, (greeter.release io relay token hosts ports).2.db.owns greeter.ctx.domain user.userId x =
          false)) := by
  refine ⟨fun freed => release_ok_iff hio, fun freed user notices mid h hauth => ?_⟩
  obtain ⟨hclear, hlen, user', notices', mid', hauth', rfl⟩ := (release_ok_iff hio).1 h
  rw [hauth] at hauth'
  cases hauth'
  have hrelay : (greeter.release io relay token hosts ports).2 =
      (greeter.ctx.handleRelease io.turn.release (io.between mid) user token hosts ports).2 := by
    rw [release, request_eq hclear hauth, release_turn]
  obtain ⟨relay', hrun, hdb, hget, -⟩ := @SessionCtx.handleRelease_run greeter.ctx hosts ports (io.between mid)
    user token _ hio hlen
  rw [hrelay, hrun]
  refine ⟨SessionCtx.freed_of_run hdb hget, fun hall x => ?_⟩
  rw [← Bool.not_eq_true, hdb, SessionCtx.freedDb_owns]
  rintro ⟨hown, hnot⟩
  exact hnot ⟨rfl, hall x hown⟩

/-- A relay without a gate. -/
def plainGreeter (domain : String) : Greeter where
  ctx := plainCtx domain
  hashToken := bytes
  serverVersion := "0.1"
  revalidate := 60000
  sessionId := 7

theorem release_exact_app : ({} : RequestIo).turn.release.DeletesOk ∧
    ((plainGreeter "d.io").release {} (hostedRelay "d.io") "t1" ["app.d.io"] []).1 = .ok ⟨["app.d.io"], []⟩ ∧
    ∀ x, ((plainGreeter "d.io").release {} (hostedRelay "d.io") "t1" ["app.d.io"] []).2.db.owns "d.io" 1 x =
      false := by
  have hio : ({} : RequestIo).turn.release.DeletesOk := ⟨rfl, rfl⟩
  have hauth : (plainGreeter "d.io").resolves {} (hostedRelay "d.io") ⟨"t1"⟩ =
      (some ⟨1, "ann"⟩, [], hostedRelay "d.io") := by decide
  obtain ⟨hiff, heffect⟩ :=
    release_exact (plainGreeter "d.io") {} (hostedRelay "d.io") "t1" ["app.d.io"] [] hio
  have hok := (hiff ⟨["app.d.io"], []⟩).2
    ⟨⟨by decide, by decide, by decide, ⟨rfl, rfl, rfl⟩, rfl, rfl, rfl⟩, by decide, _, _, _, hauth, by decide⟩
  refine ⟨hio, hok, (heffect _ _ _ _ hok hauth).2 fun x hown => ?_⟩
  cases x with
  | host h =>
    have hlisted : Registry.ownedHostnames [] annHosted "d.io" 1 = ["app.d.io"] := by decide
    have hmem : h ∈ Registry.ownedHostnames [] annHosted "d.io" 1 :=
      (mem_ownedHostnames_iff (reachable_labels annHosted_reachable) h).2 hown
    rw [hlisted, List.mem_singleton] at hmem
    rw [hmem]
    decide
  | port p =>
    have hlisted : Registry.ownedPorts [] annHosted 1 = [] := by decide
    have hmem : p ∈ Registry.ownedPorts [] annHosted 1 := mem_ownedPorts.2 hown
    rw [hlisted] at hmem
    cases hmem

end Greeter

end EtherTunnel
