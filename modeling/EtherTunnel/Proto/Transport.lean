import EtherTunnel.Lib.Lts
import Mathlib.Data.List.Basic

/-!
# Bytes over WebSocket messages

`WsByteStream` (`transport.rs:44`) turns a WebSocket into the byte stream yamux runs on.

| here | there |
| --- | --- |
| `Message` | `tungstenite::Message` |
| `Item` | what `ws.poll_next` yields: a message, an error, the end; nothing to yield is `Pending` |
| `pollRead`, `pollWrite` | `transport.rs:91`, `:146`; `Ok(n)` is the `n` bytes copied to the reader's buffer |
| `maxWsMessage` | `MAX_WS_MESSAGE` (`limits.rs`) |
| `Link` | one direction of a connection: a writer with its buffers, the wire, and a reader |

The WebSocket layer delivers messages intact and in order, after any delay; pings, pongs, texts and
empty messages may appear anywhere between them, and so may a close frame, the end of the stream, an
error or an oversized message of a hostile peer. A `poll_write` that is `Pending` or fails puts nothing
on the wire; the caller comes back with what was not accepted.
-/

namespace EtherTunnel

def maxWsMessage : Nat := 1024 * 1024

inductive Message where
  | text (data : String)
  | binary (data : List UInt8)
  | ping (data : List UInt8)
  | pong (data : List UInt8)
  | close
  | frame (raw : List UInt8)
deriving DecidableEq

inductive Item where
  | message (m : Message)
  | error (code : Nat)
  | ended
deriving DecidableEq

/-- The `io::Error` of a read: the WebSocket's own, or `"oversized WS message"`. -/
inductive ReadError where
  | ws (code : Nat)
  | oversized
deriving DecidableEq

inductive ReadResult where
  | pending
  | ok (bytes : List UInt8)
  | error (e : ReadError)
deriving DecidableEq

structure WsByteStream where
  readBuf : List UInt8 := []
  closed : Bool := false
deriving DecidableEq

namespace WsByteStream

/-- `poll_read` with a buffer of `n` bytes, and what is left of the items that have arrived. -/
def pollRead (n : Nat) (this : WsByteStream) (items : List Item) :
    ReadResult × WsByteStream × List Item :=
  if this.readBuf ≠ [] then
    (.ok (this.readBuf.take n), { this with readBuf := this.readBuf.drop n }, items)
  else if this.closed then (.ok [], this, items)
  else
    match items with
    | [] => (.pending, this, [])
    | .message (.binary data) :: rest =>
      if data ≠ [] then
        if maxWsMessage < data.length then (.error .oversized, this, rest)
        else pollRead n { this with readBuf := data } rest
      else pollRead n this rest
    | .message .close :: rest => (.ok [], { this with closed := true }, rest)
    -- ping, pong, text and raw frames are not part of the byte protocol
    | .message _ :: rest => pollRead n this rest
    | .error code :: rest => (.error (.ws code), this, rest)
    | .ended :: rest => (.ok [], { this with closed := true }, rest)

end WsByteStream

/-- What the sink answers to `poll_ready` and then to `start_send`. -/
inductive SinkAnswer where
  | pending
  | accepts
  | refuses
deriving DecidableEq

/-- `poll_write`: the message that goes out and the bytes it accepts, if any do. -/
def pollWrite (sink : SinkAnswer) (buf : List UInt8) : Option (Message × Nat) :=
  match sink with
  | .pending | .refuses => none
  | .accepts =>
    let n := min buf.length maxWsMessage
    some (.binary (buf.take n), n)

/-! ## One direction of a connection -/

/-- `todo` are the buffers still to be written, the first one from where `poll_write` left it. -/
structure Link where
  todo : List (List UInt8)
  emitted : List Message := []
  wire : List Item := []
  inbox : List Item := []
  consumed : List Item := []
  ws : WsByteStream := {}
  log : List ReadResult := []

inductive LinkAct where
  | write (sink : SinkAnswer)
  | insert (x : Item)
  | deliver
  | read (n : Nat)
deriving DecidableEq

namespace Item

/-- The reader ends here: a close frame or the end of the stream. -/
def closes : Item → Bool
  | .message .close | .ended => true
  | _ => false

/-- The reader fails here. -/
def fails : Item → Option ReadError
  | .error code => some (.ws code)
  | .message (.binary data) => if maxWsMessage < data.length then some .oversized else none
  | _ => none

/-- The bytes the item carries. -/
def bytes : Item → List UInt8
  | .message (.binary data) => if maxWsMessage < data.length then [] else data
  | _ => []

end Item

def payload (items : List Item) : List UInt8 := items.flatMap Item.bytes

namespace Link

/-- Buffers as `poll_write` leaves them: the rest of the first, or the next one. -/
def resubmit (rest : List UInt8) (todo : List (List UInt8)) : List (List UInt8) :=
  if rest = [] then todo else rest :: todo

/-- Others put only items without payload on the wire, and read buffers are not empty. -/
def step (S : Link) : LinkAct → Option Link
  | .write sink =>
    match S.todo with
    | [] => none
    | buf :: todo =>
      match pollWrite sink buf with
      | none => some S
      | some (m, n) => some { S with
          todo := resubmit (buf.drop n) todo
          emitted := S.emitted ++ [m]
          wire := S.wire ++ [.message m] }
  | .insert x => if x.bytes = [] then some { S with wire := S.wire ++ [x] } else none
  | .deliver =>
    match S.wire with
    | [] => none
    | x :: wire => some { S with wire := wire, inbox := S.inbox ++ [x] }
  | .read n =>
    if n = 0 then none
    else
      let (res, ws, inbox) := S.ws.pollRead n S.inbox
      some { S with
        ws := ws
        inbox := inbox
        consumed := S.consumed ++ S.inbox.take (S.inbox.length - inbox.length)
        log := S.log ++ [res] }

end Link

namespace ReadResult

def bytes : ReadResult → List UInt8
  | .ok bytes => bytes
  | _ => []

def error? : ReadResult → Option ReadError
  | .error e => some e
  | _ => none

end ReadResult

/-- The bytes the reads have returned. -/
def received (log : List ReadResult) : List UInt8 := log.flatMap ReadResult.bytes

/-! ## One read -/

/-- The reader passes over the item. -/
structure Item.Skipped (x : Item) : Prop where
  closes : x.closes = false
  fails : x.fails = none
  bytes : x.bytes = []

theorem payload_append (xs ys : List Item) : payload (xs ++ ys) = payload xs ++ payload ys :=
  List.flatMap_append ..

theorem payload_skipped {xs : List Item} (h : ∀ x ∈ xs, x.Skipped) : payload xs = [] :=
  List.flatMap_eq_nil_iff.2 fun x hx => (h x hx).bytes

theorem fails_skipped {xs : List Item} (h : ∀ x ∈ xs, x.Skipped) : xs.filterMap Item.fails = [] :=
  List.filterMap_eq_nil_iff.2 fun x hx => (h x hx).fails

theorem Item.fails_of_closes {x : Item} (h : x.closes = true) : x.fails = none ∧ x.bytes = [] := by
  unfold Item.closes at h
  split at h
  · exact ⟨rfl, rfl⟩
  · exact ⟨rfl, rfl⟩
  · cases h

theorem Item.closes_of_fails {x : Item} {e : ReadError} (h : x.fails = some e) :
    x.closes = false ∧ x.bytes = [] := by
  unfold Item.fails at h
  split at h
  · exact ⟨rfl, rfl⟩
  · split at h
    · rename_i data hbig
      exact ⟨rfl, if_pos hbig⟩
    · cases h
  · cases h

theorem payload_binary {data : List UInt8} (h : data.length ≤ maxWsMessage) :
    payload [.message (.binary data)] = data := by
  rw [payload, List.flatMap_singleton, Item.bytes, if_neg (by omega)]

theorem fails_binary {data : List UInt8} (h : data.length ≤ maxWsMessage) :
    Item.fails (.message (.binary data)) = none := by
  rw [Item.fails, if_neg (by omega)]

/-- How a read with a non-empty buffer ends, and the items it has taken. -/
inductive ReadCase (this : WsByteStream) : ReadResult → WsByteStream → List Item → Prop where
  /-- From the payload left over. -/
  | leftover {b rest : List UInt8} (hb : b ≠ []) (hbuf : this.readBuf = b ++ rest) :
      ReadCase this (.ok b) { this with readBuf := rest } []
  /-- From the next message with payload. -/
  | fresh (before : List Item) {b rest : List UInt8} (hbuf : this.readBuf = []) (hopen : this.closed = false)
      (hskip : ∀ y ∈ before, y.Skipped) (hb : b ≠ []) (hsmall : (b ++ rest).length ≤ maxWsMessage) :
      ReadCase this (.ok b) { this with readBuf := rest } (before ++ [.message (.binary (b ++ rest))])
  /-- End of file again. -/
  | again (hbuf : this.readBuf = []) (hclosed : this.closed = true) : ReadCase this (.ok []) this []
  | eof (before : List Item) {x : Item} (hbuf : this.readBuf = []) (hopen : this.closed = false)
      (hskip : ∀ y ∈ before, y.Skipped) (hx : x.closes = true) :
      ReadCase this (.ok []) { this with closed := true } (before ++ [x])
  | failed (before : List Item) {x : Item} {e : ReadError} (hbuf : this.readBuf = [])
      (hopen : this.closed = false) (hskip : ∀ y ∈ before, y.Skipped) (hx : x.fails = some e) :
      ReadCase this (.error e) this (before ++ [x])
  | pending {before : List Item} (hbuf : this.readBuf = []) (hopen : this.closed = false)
      (hskip : ∀ y ∈ before, y.Skipped) : ReadCase this .pending this before

/-- One more skipped item in front. -/
theorem ReadCase.skip {this this' : WsByteStream} {res : ReadResult} {taken : List Item} {x : Item}
    (hx : x.Skipped) (hbuf : this.readBuf = []) (hopen : this.closed = false)
    (h : ReadCase this res this' taken) : ReadCase this res this' (x :: taken) := by
  have hmore : ∀ {before : List Item}, (∀ y ∈ before, y.Skipped) → ∀ y ∈ x :: before, y.Skipped := by
    intro before hskip y hy
    rcases List.mem_cons.1 hy with rfl | hy
    · exact hx
    · exact hskip y hy
  cases h with
  | leftover hb hbuf' =>
    rw [hbuf] at hbuf'
    exact absurd (List.append_eq_nil_iff.1 hbuf'.symm).1 hb
  | fresh _ _ _ hskip hb hsmall => exact .fresh (x :: _) hbuf hopen (hmore hskip) hb hsmall
  | again _ hclosed => rw [hopen] at hclosed; cases hclosed
  | eof _ _ _ hskip hclose => exact .eof (x :: _) hbuf hopen (hmore hskip) hclose
  | failed _ _ _ hskip hfail => exact .failed (x :: _) hbuf hopen (hmore hskip) hfail
  | pending _ _ hskip => exact .pending hbuf hopen (hmore hskip)

section cases

variable {this this' : WsByteStream} {res : ReadResult} {taken : List Item}

/-- No byte is lost or made up. -/
theorem ReadCase.bytes_eq (h : ReadCase this res this' taken) :
    res.bytes ++ this'.readBuf = this.readBuf ++ payload taken := by
  cases h with
  | leftover _ hbuf => rw [hbuf, payload, List.flatMap_nil, List.append_nil]; rfl
  | fresh _ hbuf _ hskip _ hsmall =>
    rw [hbuf, payload_append, payload_skipped hskip, payload_binary hsmall]; rfl
  | again hbuf _ => rw [hbuf]; rfl
  | eof _ hbuf _ hskip hx =>
    rw [hbuf, payload_append, payload_skipped hskip]
    simp [payload, (Item.fails_of_closes hx).2, ReadResult.bytes]
  | failed _ hbuf _ hskip hx =>
    rw [hbuf, payload_append, payload_skipped hskip]
    simp [payload, (Item.closes_of_fails hx).2, ReadResult.bytes]
  | pending hbuf _ hskip => rw [hbuf, payload_skipped hskip]; rfl

/-- An error is an error item or an oversized message, and each of them is an error. -/
theorem ReadCase.errors_eq (h : ReadCase this res this' taken) :
    [res].filterMap ReadResult.error? = taken.filterMap Item.fails := by
  cases h with
  | leftover | again => rfl
  | fresh _ _ _ hskip _ hsmall =>
    simp [fails_skipped hskip, fails_binary hsmall, ReadResult.error?]
  | eof _ _ _ hskip hx =>
    simp [fails_skipped hskip, (Item.fails_of_closes hx).1, ReadResult.error?]
  | failed _ _ _ hskip hx =>
    simp [fails_skipped hskip, hx, ReadResult.error?]
  | pending _ _ hskip => rw [fails_skipped hskip]; rfl

/-- The stream is still open: no closing item has been taken and the read did not return `Ok(0)`. -/
theorem ReadCase.isOpen (h : ReadCase this res this' taken) (hopen : this'.closed = false) :
    this.closed = false ∧ (∀ y ∈ taken, y.closes = false) ∧ res ≠ .ok [] := by
  cases h with
  | leftover hb _ => exact ⟨hopen, by simp, by simpa using hb⟩
  | fresh _ _ _ hskip hb _ =>
    refine ⟨hopen, fun y hy => ?_, by simpa using hb⟩
    rcases List.mem_append.1 hy with hy | hy
    · exact (hskip y hy).closes
    · rw [List.mem_singleton.1 hy]; rfl
  | again _ hclosed => rw [hopen] at hclosed; cases hclosed
  | eof => cases hopen
  | failed _ _ _ hskip hx =>
    refine ⟨hopen, fun y hy => ?_, by simp⟩
    rcases List.mem_append.1 hy with hy | hy
    · exact (hskip y hy).closes
    · rw [List.mem_singleton.1 hy]; exact (Item.closes_of_fails hx).1
  | pending _ _ hskip => exact ⟨hopen, fun y hy => (hskip y hy).closes, by simp⟩

/-- The stream is closed: it was, or the read found the closing item and returned `Ok(0)`. -/
theorem ReadCase.isClosed (h : ReadCase this res this' taken) (hclosed : this'.closed = true) :
    (this.closed = true ∧ taken = [] ∧ (this.readBuf = [] → res = .ok [] ∧ this' = this)) ∨
      (this.closed = false ∧ this'.readBuf = [] ∧ ∃ before x, taken = before ++ [x] ∧ x.closes = true ∧
        ∀ y ∈ before, y.closes = false) := by
  cases h with
  | leftover hb hbuf =>
    refine Or.inl ⟨hclosed, rfl, fun hnil => ?_⟩
    rw [hnil] at hbuf
    exact absurd (List.append_eq_nil_iff.1 hbuf.symm).1 hb
  | again => exact Or.inl ⟨hclosed, rfl, fun _ => ⟨rfl, rfl⟩⟩
  | eof _ hbuf hopen hskip hx => exact Or.inr ⟨hopen, hbuf, _, _, rfl, hx, fun y hy => (hskip y hy).closes⟩
  | fresh _ _ hopen | failed _ _ hopen | pending _ hopen => rw [hopen] at hclosed; cases hclosed

end cases

namespace WsByteStream

variable {n : Nat} {this : WsByteStream}

theorem pollRead_leftover (h : this.readBuf ≠ []) (items : List Item) : this.pollRead n items =
    (.ok (this.readBuf.take n), { this with readBuf := this.readBuf.drop n }, items) := by
  rw [pollRead.eq_def, if_pos h]

theorem pollRead_closed (h : this.readBuf = []) (hclosed : this.closed = true) (items : List Item) :
    this.pollRead n items = (.ok [], this, items) := by
  rw [pollRead.eq_def, if_neg (by simp [h]), if_pos hclosed]

theorem take_ne_nil (hn : 0 < n) {b : List UInt8} (hb : b ≠ []) : b.take n ≠ [] := by
  rw [ne_eq, List.take_eq_nil_iff]
  rintro (rfl | rfl)
  · omega
  · exact hb rfl

/-- A read with nothing left over goes through the items that have arrived. -/
theorem pollRead_open (hn : 0 < n) (hbuf : this.readBuf = []) (hopen : this.closed = false)
    (items : List Item) : ∃ taken, items = taken ++ (this.pollRead n items).2.2 ∧
      ReadCase this (this.pollRead n items).1 (this.pollRead n items).2.1 taken := by
  induction items with
  | nil =>
    rw [pollRead.eq_def, if_neg (by simp [hbuf]), if_neg (by simp [hopen])]
    exact ⟨[], rfl, .pending hbuf hopen (by simp)⟩
  | cons x rest ih =>
    have hskip : x.Skipped → ∃ taken, x :: rest = taken ++ (this.pollRead n rest).2.2 ∧
        ReadCase this (this.pollRead n rest).1 (this.pollRead n rest).2.1 taken := by
      intro hx
      obtain ⟨taken, hsplit, hcase⟩ := ih
      exact ⟨x :: taken, by rw [List.cons_append, ← hsplit], hcase.skip hx hbuf hopen⟩
    rw [pollRead.eq_def, if_neg (by simp [hbuf]), if_neg (by simp [hopen])]
    cases x with
    | error code => exact ⟨[.error code], rfl, .failed [] hbuf hopen (by simp) rfl⟩
    | ended => exact ⟨[.ended], rfl, .eof [] hbuf hopen (by simp) rfl⟩
    | message m =>
      cases m with
      | text data => exact hskip ⟨rfl, rfl, rfl⟩
      | ping data => exact hskip ⟨rfl, rfl, rfl⟩
      | pong data => exact hskip ⟨rfl, rfl, rfl⟩
      | frame raw => exact hskip ⟨rfl, rfl, rfl⟩
      | close => exact ⟨[.message .close], rfl, .eof [] hbuf hopen (by simp) rfl⟩
      | binary data =>
        dsimp only
        by_cases hdata : data = []
        · subst hdata
          exact hskip ⟨rfl, rfl, rfl⟩
        · rw [if_pos hdata]
          refine ⟨[.message (.binary data)], ?_⟩
          by_cases hbig : maxWsMessage < data.length
          · rw [if_pos hbig]
            exact ⟨rfl, .failed [] hbuf hopen (by simp) (by rw [Item.fails, if_pos hbig])⟩
          · rw [if_neg hbig, pollRead_leftover hdata]
            have hcut := List.take_append_drop n data
            have hsmall : (data.take n ++ data.drop n).length ≤ maxWsMessage := by rw [hcut]; omega
            have hfresh := ReadCase.fresh [] hbuf hopen (by simp) (take_ne_nil hn hdata) hsmall
            rw [hcut] at hfresh
            exact ⟨rfl, hfresh⟩

/-- **What a read does.** -/
theorem pollRead_spec (hn : 0 < n) (items : List Item) (this : WsByteStream) :
    ∃ taken, items = taken ++ (this.pollRead n items).2.2 ∧
      ReadCase this (this.pollRead n items).1 (this.pollRead n items).2.1 taken := by
  by_cases hbuf : this.readBuf = []
  · cases hclosed : this.closed with
    | true =>
      rw [pollRead_closed hbuf hclosed]
      exact ⟨[], rfl, .again hbuf hclosed⟩
    | false => exact pollRead_open hn hbuf hclosed items
  · rw [pollRead_leftover hbuf]
    exact ⟨[], rfl, .leftover (take_ne_nil hn hbuf) (List.take_append_drop n _).symm⟩

/-- A read is `Pending` only at the end of what has arrived. -/
theorem pollRead_pending : ∀ {items : List Item}, (this.pollRead n items).1 = .pending →
    (this.pollRead n items).2.2 = []
  | items, h => by
    by_cases hbuf : this.readBuf = []
    · cases hclosed : this.closed with
      | true => rw [pollRead_closed hbuf hclosed] at h; cases h
      | false =>
        induction items with
        | nil => rw [pollRead.eq_def, if_neg (by simp [hbuf]), if_neg (by simp [hclosed])]
        | cons x rest ih =>
          rw [pollRead.eq_def, if_neg (by simp [hbuf]), if_neg (by simp [hclosed])] at h ⊢
          cases x with
          | error code => cases h
          | ended => cases h
          | message m =>
            cases m with
            | text | ping | pong | frame => exact ih h
            | close => cases h
            | binary data =>
              dsimp only at h ⊢
              by_cases hdata : data = []
              · rw [if_neg (by simp [hdata])] at h ⊢
                exact ih h
              · rw [if_pos hdata] at h
                split at h
                · cases h
                · rw [pollRead_leftover hdata] at h
                  cases h
    · rw [pollRead_leftover hbuf] at h
      cases h

end WsByteStream

/-! ## Runs -/

/-- The bytes of the messages `poll_write` has sent. -/
def sent (ms : List Message) : List UInt8 := ms.flatMap fun
  | .binary data => data
  | _ => []

namespace Link

def start (bufs : List (List UInt8)) : Link := { todo := bufs }

theorem resubmit_flatten (rest : List UInt8) (todo : List (List UInt8)) :
    (resubmit rest todo).flatten = rest ++ todo.flatten := by
  unfold resubmit
  split
  · rename_i h; rw [h, List.nil_append]
  · rw [List.flatten_cons]

/-- What holds of a connection at every moment. `consumed ++ inbox ++ wire` is everything that was put
on the wire, in order. -/
structure Inv (bufs : List (List UInt8)) (S : Link) : Prop where
  small : ∀ m ∈ S.emitted, ∃ data, m = .binary data ∧ data.length ≤ maxWsMessage
  written : sent S.emitted ++ S.todo.flatten = bufs.flatten
  onWire : payload S.consumed ++ payload S.inbox ++ payload S.wire = sent S.emitted
  returned : received S.log ++ S.ws.readBuf = payload S.consumed
  errors : S.log.filterMap ReadResult.error? = S.consumed.filterMap Item.fails
  isOpen : S.ws.closed = false → (∀ y ∈ S.consumed, y.closes = false) ∧ .ok [] ∉ S.log
  isClosed : S.ws.closed = true → S.ws.readBuf = [] ∧ ∃ before x, S.consumed = before ++ [x] ∧
    x.closes = true ∧ ∀ y ∈ before, y.closes = false
  sticky : ∀ pre post, S.log = pre ++ .ok [] :: post → ∀ r ∈ post, r = .ok []
  failure : ∀ pre e, S.log = pre ++ [.error e] → S.ws.readBuf = []

variable {bufs : List (List UInt8)} {S S' : Link}

theorem start_inv (bufs : List (List UInt8)) : Inv bufs (start bufs) where
  small := by simp [start]
  written := rfl
  onWire := rfl
  returned := rfl
  errors := rfl
  isOpen _ := by simp [start]
  isClosed h := by cases h
  sticky pre post h := by simp [start] at h
  failure pre e h := by simp [start] at h

theorem write_inv {sink : SinkAnswer} (hI : Inv bufs S) (h : step S (.write sink) = some S') :
    Inv bufs S' := by
  simp only [step] at h
  split at h
  · cases h
  · rename_i buf todo htodo
    split at h
    · cases h; exact hI
    · rename_i m n hw
      cases h
      have hmsg : m = .binary (buf.take n) ∧ n ≤ maxWsMessage := by
        unfold pollWrite at hw
        split at hw
        · cases hw
        · cases hw
        · cases hw; exact ⟨rfl, Nat.min_le_right ..⟩
      obtain ⟨rfl, hn⟩ := hmsg
      have hlen : (buf.take n).length ≤ maxWsMessage := by rw [List.length_take]; omega
      have hsent : sent (S.emitted ++ [.binary (buf.take n)]) = sent S.emitted ++ buf.take n := by
        simp [sent]
      refine { hI with small := fun m' hm' => ?_, written := ?_, onWire := ?_ }
      · rcases List.mem_append.1 hm' with hm' | hm'
        · exact hI.small m' hm'
        · exact ⟨_, List.mem_singleton.1 hm', hlen⟩
      · have := hI.written
        rw [htodo, List.flatten_cons] at this
        rw [hsent, resubmit_flatten, ← this, List.append_assoc, ← List.append_assoc (buf.take n),
          List.take_append_drop]
      · simp only [payload_append, payload_binary hlen, hsent, ← hI.onWire, List.append_assoc]

theorem insert_inv {x : Item} (hI : Inv bufs S) (h : step S (.insert x) = some S') : Inv bufs S' := by
  simp only [step] at h
  split at h
  · rename_i hx
    cases h
    refine { hI with onWire := ?_ }
    have hbytes : payload [x] = [] := by simp [payload, hx]
    rw [← hI.onWire, payload_append, hbytes, List.append_nil]
  · cases h

theorem deliver_inv (hI : Inv bufs S) (h : step S .deliver = some S') : Inv bufs S' := by
  simp only [step] at h
  split at h
  · cases h
  · rename_i x wire hwire
    cases h
    refine { hI with onWire := ?_ }
    rw [← hI.onWire, hwire, payload_append, ← List.singleton_append (l := wire), payload_append]
    simp only [List.append_assoc]

/-- A read that returns `Ok(0)` finds or leaves the stream closed, so `Ok(0)` stays. -/
theorem sticky_concat {log : List ReadResult} {res : ReadResult}
    (hsticky : ∀ pre post, log = pre ++ .ok [] :: post → ∀ r ∈ post, r = .ok [])
    (hres : .ok [] ∈ log → res = .ok []) :
    ∀ pre post, log ++ [res] = pre ++ .ok [] :: post → ∀ r ∈ post, r = .ok [] := by
  intro pre post h r hr
  rcases List.eq_nil_or_concat post with rfl | ⟨post', last, rfl⟩
  · cases hr
  · rw [List.concat_eq_append] at h hr
    rw [← List.cons_append, ← List.append_assoc] at h
    obtain ⟨hlog, hlast⟩ := List.append_inj' h rfl
    rcases List.mem_append.1 hr with hr | hr
    · exact hsticky pre post' hlog r hr
    · rw [List.mem_singleton.1 hr, ← (List.cons.inj hlast).1]
      exact hres (by rw [hlog]; simp)

/-- What a read does to the connection. -/
structure Read (S S' : Link) (res : ReadResult) (taken : List Item) : Prop where
  inbox : S.inbox = taken ++ S'.inbox
  consumed : S'.consumed = S.consumed ++ taken
  log : S'.log = S.log ++ [res]
  writer : S'.todo = S.todo ∧ S'.emitted = S.emitted ∧ S'.wire = S.wire
  case : ReadCase S.ws res S'.ws taken
  pending : res = .pending → S'.inbox = []
  again : S.ws.closed = true → S.ws.readBuf = [] → res = .ok []

theorem step_read {n : Nat} (h : step S (.read n) = some S') : ∃ res taken, Read S S' res taken := by
  simp only [step] at h
  split at h
  · cases h
  · rename_i hn
    obtain ⟨taken, hsplit, hcase⟩ := WsByteStream.pollRead_spec (Nat.pos_of_ne_zero hn) S.inbox S.ws
    have hpending := @WsByteStream.pollRead_pending n S.ws S.inbox
    have hagain : S.ws.closed = true → S.ws.readBuf = [] → (S.ws.pollRead n S.inbox).1 = .ok [] :=
      fun hclosed hbuf => congrArg Prod.fst (WsByteStream.pollRead_closed hbuf hclosed S.inbox)
    generalize S.ws.pollRead n S.inbox = r at h hsplit hcase hpending hagain
    obtain ⟨res, ws, inbox⟩ := r
    cases h
    have htaken : S.inbox.take (S.inbox.length - inbox.length) = taken := by
      rw [hsplit, List.length_append, Nat.add_sub_cancel, List.take_left]
    refine ⟨res, taken, hsplit, ?_, rfl, ⟨rfl, rfl, rfl⟩, hcase, hpending, hagain⟩
    simp only [htaken]

theorem read_inv {n : Nat} (hI : Inv bufs S) (h : step S (.read n) = some S') : Inv bufs S' := by
  obtain ⟨res, taken, hread⟩ := step_read h
  obtain ⟨htodo, hemitted, hwire⟩ := hread.writer
  have hcase := hread.case
  refine ⟨?_, ?_, ?_, ?_, ?_, fun hopen => ?_, fun hclosed => ?_, ?_, fun pre e hlast => ?_⟩
  · rw [hemitted]
    exact hI.small
  · rw [hemitted, htodo]
    exact hI.written
  · rw [hemitted, hwire, hread.consumed, ← hI.onWire, hread.inbox, payload_append, payload_append]
    simp only [List.append_assoc]
  · rw [hread.log, hread.consumed, received, List.flatMap_append, List.flatMap_singleton, payload_append,
      ← hI.returned, List.append_assoc, List.append_assoc, hcase.bytes_eq]
    rfl
  · rw [hread.log, hread.consumed, List.filterMap_append, List.filterMap_append, hI.errors, hcase.errors_eq]
  · obtain ⟨hwas, htake, hres⟩ := hcase.isOpen hopen
    obtain ⟨hcons, hlog⟩ := hI.isOpen hwas
    rw [hread.log, hread.consumed]
    refine ⟨fun y hy => (List.mem_append.1 hy).elim (hcons y) (htake y), fun hmem => ?_⟩
    rcases List.mem_append.1 hmem with hmem | hmem
    · exact hlog hmem
    · exact hres (List.mem_singleton.1 hmem).symm
  · rw [hread.consumed]
    rcases hcase.isClosed hclosed with ⟨hwas, rfl, hsame⟩ | ⟨hwas, hbuf, before, x, rfl, hx, hbefore⟩
    · obtain ⟨hbuf, hends⟩ := hI.isClosed hwas
      rw [(hsame hbuf).2, List.append_nil]
      exact ⟨hbuf, hends⟩
    · refine ⟨hbuf, S.consumed ++ before, x, (List.append_assoc ..).symm, hx, fun y hy => ?_⟩
      exact (List.mem_append.1 hy).elim ((hI.isOpen hwas).1 y) (hbefore y)
  · rw [hread.log]
    refine sticky_concat hI.sticky fun hok => ?_
    have hwas : S.ws.closed = true := by
      by_contra hopen
      exact (hI.isOpen (by simpa using hopen)).2 hok
    exact hread.again hwas (hI.isClosed hwas).1
  · rw [hread.log] at hlast
    obtain ⟨-, hres⟩ := List.append_inj' hlast rfl
    obtain rfl := (List.cons.inj hres).1
    generalize S'.ws = ws' at hcase
    cases hcase with
    | failed _ hbuf => exact hbuf

theorem step_inv {a : LinkAct} (hI : Inv bufs S) (h : step S a = some S') : Inv bufs S' := by
  cases a with
  | write sink => exact write_inv hI h
  | insert x => exact insert_inv hI h
  | deliver => exact deliver_inv hI h
  | read n => exact read_inv hI h

/-! ## Progress -/

/-- The bytes that have arrived and that no read has returned. -/
def arrived (S : Link) : List UInt8 := S.ws.readBuf ++ payload S.inbox

/-- The reader has met no end, and no end and no failure has arrived. -/
structure Clear (S : Link) : Prop where
  isOpen : S.ws.closed = false
  inbox : ∀ y ∈ S.inbox, y.closes = false ∧ y.fails = none

/-- A read returns some of the bytes that have arrived, if any have. -/
theorem Clear.read {n : Nat} (hclear : S.Clear) (h : step S (.read n) = some S') :
    S'.Clear ∧ ∃ b, received S'.log = received S.log ++ b ∧ S.arrived = b ++ S'.arrived ∧
      (S.arrived ≠ [] → b ≠ []) := by
  obtain ⟨res, taken, hread⟩ := step_read h
  have hmem : ∀ y ∈ taken, y.closes = false ∧ y.fails = none := fun y hy =>
    hclear.inbox y (by rw [hread.inbox]; exact List.mem_append_left _ hy)
  have hrest : ∀ y ∈ S'.inbox, y.closes = false ∧ y.fails = none := fun y hy =>
    hclear.inbox y (by rw [hread.inbox]; exact List.mem_append_right _ hy)
  have harrived : S.arrived = res.bytes ++ S'.arrived := by
    rw [arrived, arrived, hread.inbox, payload_append, ← List.append_assoc, ← hread.case.bytes_eq,
      List.append_assoc]
  have hreceived : received S'.log = received S.log ++ res.bytes := by
    rw [hread.log, received, List.flatMap_append, List.flatMap_singleton]
    rfl
  have hsome : S'.ws.closed = false ∧ (S.arrived ≠ [] → res.bytes ≠ []) := by
    have hcase := hread.case
    generalize hws : S'.ws = ws' at hcase
    cases hcase with
    | leftover hb _ => exact ⟨hclear.isOpen, fun _ => hb⟩
    | fresh _ _ _ _ hb _ => exact ⟨hclear.isOpen, fun _ => hb⟩
    | again _ hclosed => rw [hclear.isOpen] at hclosed; cases hclosed
    | @eof before x _ _ _ hx =>
      rw [(hmem x (List.mem_append_right _ (List.mem_singleton_self x))).1] at hx
      cases hx
    | @failed before x e _ _ _ hx =>
      rw [(hmem x (List.mem_append_right _ (List.mem_singleton_self x))).2] at hx
      cases hx
    | pending hbuf _ hskip =>
      refine ⟨hclear.isOpen, fun hne => absurd ?_ hne⟩
      rw [arrived, hbuf, hread.inbox, hread.pending rfl, List.append_nil, payload_skipped hskip]
      rfl
  exact ⟨⟨hsome.1, hrest⟩, res.bytes, hreceived, harrived, hsome.2⟩

theorem Clear.drain : ∀ {ns : List Nat} {S : Link}, S.Clear → S.arrived.length ≤ ns.length →
    Lts.run step S (ns.map .read) = some S' → received S'.log = received S.log ++ S.arrived
  | [], S, _, hlen, hrun => by
    cases hrun
    rw [List.length_eq_zero_iff.1 (Nat.le_zero.1 hlen), List.append_nil]
  | n :: ns, S, hclear, hlen, hrun => by
    obtain ⟨M, hM, hrun⟩ := (Lts.run_cons_eq_some _).1 hrun
    obtain ⟨hclear', b, hreceived, harrived, hsome⟩ := hclear.read hM
    have hless : M.arrived.length ≤ ns.length := by
      rw [harrived, List.length_append, List.length_cons] at hlen
      by_cases hb : b = []
      · have hnone : S.arrived = [] := by
          by_contra hne
          exact hsome hne hb
        rw [hb, List.nil_append] at harrived
        rw [← harrived, hnone]
        exact Nat.zero_le _
      · have := List.length_pos_iff.2 hb
        omega
    rw [hclear'.drain hless hrun, hreceived, harrived, List.append_assoc]

end Link

/-- What a byte stream over a connection promises. -/
structure Link.Faithful (bufs : List (List UInt8)) (S : Link) : Prop where
  /-- No message is larger than `MAX_WS_MESSAGE`. -/
  small : ∀ m ∈ S.emitted, ∃ data, m = .binary data ∧ data.length ≤ maxWsMessage
  /-- The messages carry the buffers, from the first byte to where the writer is. -/
  written : sent S.emitted ++ S.todo.flatten = bufs.flatten
  /-- What the reads returned, what is left over and what is under way are the bytes sent, in order. -/
  inOrder : received S.log ++ S.ws.readBuf ++ payload S.inbox ++ payload S.wire = sent S.emitted
  /-- `Ok(0)` comes after a close frame or the end of the stream, with every byte before it returned. -/
  eof : .ok [] ∈ S.log → S.ws.readBuf = [] ∧ ∃ before x, S.consumed = before ++ [x] ∧
    x.closes = true ∧ (∀ y ∈ before, y.closes = false) ∧ received S.log = payload before
  /-- After `Ok(0)` every read returns `Ok(0)`. -/
  sticky : ∀ pre post, S.log = pre ++ .ok [] :: post → ∀ r ∈ post, r = .ok []
  /-- The failed reads are the errors and the oversized messages met, in order. -/
  errors : S.log.filterMap ReadResult.error? = S.consumed.filterMap Item.fails
  /-- When a read fails, every byte before the failure has been returned. -/
  failure : ∀ pre e, S.log = pre ++ [.error e] → S.ws.readBuf = [] ∧ received S.log = payload S.consumed
  /-- A read is `Pending` only when nothing that has arrived is left, and every byte of it was returned. -/
  pending : ∀ n S', S.step (.read n) = some S' → S'.log = S.log ++ [.pending] →
    S'.ws.readBuf = [] ∧ S'.inbox = [] ∧ (∀ y ∈ S.inbox, y.Skipped) ∧
      received S.log = payload (S.consumed ++ S.inbox)
  /-- With no end and no failure among what has arrived, as many reads as bytes have arrived return them. -/
  drains : S.Clear → ∀ ns : List Nat, S.arrived.length ≤ ns.length →
    ∀ S', Lts.run Link.step S (ns.map .read) = some S' → received S'.log = received S.log ++ S.arrived

theorem Link.Inv.faithful {bufs : List (List UInt8)} {S : Link} (hI : Link.Inv bufs S) :
    Link.Faithful bufs S where
  small := hI.small
  written := hI.written
  inOrder := by rw [hI.returned]; exact hI.onWire
  eof hok := by
    have hclosed : S.ws.closed = true := by
      by_contra hopen
      exact (hI.isOpen (by simpa using hopen)).2 hok
    obtain ⟨hbuf, before, x, hcons, hx, hbefore⟩ := hI.isClosed hclosed
    refine ⟨hbuf, before, x, hcons, hx, hbefore, ?_⟩
    have hreturned := hI.returned
    rw [hbuf, hcons, payload_append, List.append_nil] at hreturned
    rw [hreturned]
    simp [payload, (Item.fails_of_closes hx).2]
  sticky := hI.sticky
  errors := hI.errors
  failure pre e hlast := by
    have hbuf := hI.failure pre e hlast
    have hreturned := hI.returned
    rw [hbuf, List.append_nil] at hreturned
    exact ⟨hbuf, hreturned⟩
  pending n S' hstep hlog := by
    obtain ⟨res, taken, hread⟩ := Link.step_read hstep
    obtain rfl : res = .pending := by
      rw [hread.log] at hlog
      exact (List.cons.inj (List.append_inj' hlog rfl).2).1
    have hinbox := hread.pending rfl
    have htaken : S.inbox = taken := by rw [hread.inbox, hinbox, List.append_nil]
    have hcase := hread.case
    generalize S'.ws = ws' at hcase ⊢
    cases hcase with
    | pending hbuf _ hskip =>
      have hreturned := hI.returned
      rw [hbuf, List.append_nil] at hreturned
      rw [htaken]
      refine ⟨hbuf, hinbox, hskip, ?_⟩
      rw [payload_append, payload_skipped hskip, List.append_nil, hreturned]
  drains hclear ns hlen S' hrun := hclear.drain hlen hrun

/-- **The byte stream is faithful.** For any buffers, any pattern of `Pending`, any read sizes and
anything without payload put between the messages, at every moment of a connection; and no byte that has
arrived is held back. -/
theorem ws_byte_stream_faithful {bufs : List (List UInt8)} {acts : List LinkAct} {S : Link}
    (hrun : Lts.run Link.step (Link.start bufs) acts = some S) : Link.Faithful bufs S :=
  (Lts.run_inv (fun _ _ _ hI _ hs => Link.step_inv hI hs) (Link.start_inv bufs)
    (Lts.steps_of_forall (P := fun _ => True) fun _ _ => trivial) hrun).faithful

/-- Two buffers, read in twos across a ping and an empty message, then a close frame. -/
def chattyLink : List LinkAct :=
  [.write .pending, .write .accepts, .insert (.message (.ping [7])), .read 2, .deliver, .read 2, .deliver,
    .insert (.message (.binary [])), .write .accepts, .insert (.message .close), .deliver, .deliver, .deliver,
    .read 2, .read 2, .read 2, .read 2]

theorem ws_byte_stream_faithful_chatty :
    ∃ S, Lts.run Link.step (Link.start [[1, 2, 3], [4]]) chattyLink = some S ∧
      S.log = [.pending, .ok [1, 2], .ok [3], .ok [4], .ok [], .ok []] ∧
      Link.Faithful [[1, 2, 3], [4]] S := by
  have hlog : (Lts.run Link.step (Link.start [[1, 2, 3], [4]]) chattyLink).map (·.log) =
      some [.pending, .ok [1, 2], .ok [3], .ok [4], .ok [], .ok []] := by decide +kernel
  obtain ⟨S, hrun, hlog⟩ := Option.map_eq_some_iff.1 hlog
  exact ⟨S, hrun, hlog, ws_byte_stream_faithful hrun⟩

end EtherTunnel
