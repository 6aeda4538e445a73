import EtherTunnel.Lib.Lts
import Mathlib.Tactic.Common

/-!
# Splicing two streams

| here | there |
| --- | --- |
| `CopyOne`, `CopyOne.step` | `copy_one` (`proxy.rs:260-279`), one action for each `await` that is ready |
| `Splice`, `Splice.step` | `copy_both` (`proxy.rs:221-256`); the `select!` polls its two branches in any order |
| `Splice.returned` | what `copy_both` returns, if it does |

With neither deadline set `copy_bidirectional_timeout` is `copy_both` (`proxy.rs:169`). Its comment says that
it then behaves "exactly like a plain bidirectional copy".

The streams are the environment. A reader hands over any chunk that fits the buffer, the empty one at end
of file. A writer takes part of what it is offered, and keeps as much of that as it likes to itself until
it is flushed or shut down, as `AsyncWrite` allows; `passedOn` counts the bytes that the peer can see.
`received` is what was read so far. `CopyOne.total` counts without a bound; the `u64` of `proxy.rs:267` is the
same number as long as fewer than `2^64` bytes were copied.

Nothing here calls `flush`. `splice_faithful` says what holds for every writer, and what only for one
that passes on what it takes; `byte_held_while_waiting` is a writer that does not.
-/

namespace EtherTunnel

/-! ## One direction -/

structure SpliceWriter where
  accepted : List UInt8 := []
  passedOn : Nat := 0
  shutdowns : Nat := 0
deriving DecidableEq

inductive CopyPhase where
  | reading
  /-- In `write_all`, with what is left of a chunk of `n` bytes. -/
  | writing (n : Nat) (rest : List UInt8)
  | closing
  | done
  | failed
deriving DecidableEq

structure CopyOne where
  phase : CopyPhase := .reading
  total : Nat := 0
  received : List UInt8 := []
  writer : SpliceWriter := {}
deriving DecidableEq

inductive CopyAct where
  | read (chunk : List UInt8)
  | readFails
  /-- The writer takes `k` bytes, and passes on `passed` of all that it holds. -/
  | write (k passed : Nat)
  /-- An error, or `WriteZero`. -/
  | writeFails
  | shutdown (ok : Bool)
  /-- The writer passes on bytes on its own account. -/
  | drain (passed : Nat)

namespace CopyPhase

/-- What `write_all` has yet to write. -/
def unwritten : CopyPhase → List UInt8
  | .writing _ rest => rest
  | .reading | .closing | .done | .failed => []

/-- The size of the chunk in `write_all`, which is not counted yet. -/
def uncounted : CopyPhase → Nat
  | .writing n _ => n
  | .reading | .closing | .done | .failed => 0

end CopyPhase

namespace SpliceWriter

variable (w : SpliceWriter)

def take (chunk : List UInt8) (passed : Nat) : Option SpliceWriter :=
  if w.passedOn + passed ≤ w.accepted.length + chunk.length then
    some { w with accepted := w.accepted ++ chunk, passedOn := w.passedOn + passed }
  else none

/-- A shutdown flushes first; a failed one may have passed on nothing. -/
def shutdown (ok : Bool) : SpliceWriter where
  accepted := w.accepted
  passedOn := if ok then w.accepted.length else w.passedOn
  shutdowns := w.shutdowns + 1

end SpliceWriter

namespace CopyOne

/-- The buffer of `copy_one`. -/
def bufferSize : Nat := 16 * 1024

def step (c : CopyOne) : CopyAct → Option CopyOne
  | .read chunk =>
    if c.phase = .reading ∧ chunk.length ≤ bufferSize then
      some { c with
        phase := if chunk = [] then .closing else .writing chunk.length chunk
        received := c.received ++ chunk }
    else none
  | .readFails => if c.phase = .reading then some { c with phase := .failed } else none
  | .write k passed =>
    match c.phase with
    | .writing n rest =>
      if 0 < k ∧ k ≤ rest.length then
        (c.writer.take (rest.take k) passed).map fun writer =>
          if rest.drop k = [] then { c with phase := .reading, total := c.total + n, writer := writer }
          else { c with phase := .writing n (rest.drop k), writer := writer }
      else none
    | .reading | .closing | .done | .failed => none
  | .writeFails =>
    match c.phase with
    | .writing _ _ => some { c with phase := .failed }
    | .reading | .closing | .done | .failed => none
  | .shutdown ok =>
    if c.phase = .closing then some { c with phase := .done, writer := c.writer.shutdown ok } else none
  | .drain passed => (c.writer.take [] passed).map fun writer => { c with writer := writer }

variable {c c' : CopyOne} {act : CopyAct}

theorem take_eq_some {w w' : SpliceWriter} {chunk : List UInt8} {passed : Nat}
    (h : w.take chunk passed = some w') : w'.accepted = w.accepted ++ chunk ∧
      w'.passedOn = w.passedOn + passed ∧ w'.passedOn ≤ w'.accepted.length ∧
      w'.shutdowns = w.shutdowns := by
  unfold SpliceWriter.take at h
  split at h
  · rename_i hle
    cases h
    refine ⟨rfl, rfl, ?_, rfl⟩
    rw [List.length_append]
    exact hle
  · cases h

/-- What one ready `await` can do to a direction. -/
inductive Moved (c : CopyOne) : CopyAct → CopyOne → Prop where
  | read (chunk : List UInt8) (hphase : c.phase = .reading) :
      Moved c (.read chunk)
        { c with phase := .writing chunk.length chunk, received := c.received ++ chunk }
  | eof (hphase : c.phase = .reading) : Moved c (.read []) { c with phase := .closing }
  | readFails (hphase : c.phase = .reading) : Moved c .readFails { c with phase := .failed }
  | part (n : Nat) (chunk rest : List UInt8) (passed : Nat) (writer : SpliceWriter)
      (hphase : c.phase = .writing n (chunk ++ rest)) (hwriter : c.writer.take chunk passed = some writer) :
      Moved c (.write chunk.length passed) { c with phase := .writing n rest, writer := writer }
  | last (n : Nat) (chunk : List UInt8) (passed : Nat) (writer : SpliceWriter)
      (hphase : c.phase = .writing n chunk) (hwriter : c.writer.take chunk passed = some writer) :
      Moved c (.write chunk.length passed)
        { c with phase := .reading, total := c.total + n, writer := writer }
  | writeFails (n : Nat) (rest : List UInt8) (hphase : c.phase = .writing n rest) :
      Moved c .writeFails { c with phase := .failed }
  | shutdown (ok : Bool) (hphase : c.phase = .closing) :
      Moved c (.shutdown ok) { c with phase := .done, writer := c.writer.shutdown ok }
  | drain (passed : Nat) (writer : SpliceWriter) (hwriter : c.writer.take [] passed = some writer) :
      Moved c (.drain passed) { c with writer := writer }

theorem moved_of_write {n k passed : Nat} {rest : List UInt8} {writer : SpliceWriter}
    (hphase : c.phase = .writing n rest) (hk : k ≤ rest.length)
    (hwriter : c.writer.take (rest.take k) passed = some writer) :
    Moved c (.write k passed)
      (if rest.drop k = [] then { c with phase := .reading, total := c.total + n, writer := writer }
      else { c with phase := .writing n (rest.drop k), writer := writer }) := by
  have hlen : (rest.take k).length = k := List.length_take_of_le hk
  split
  · rename_i hdrop
    have htake : rest.take k = rest := by
      have := List.take_append_drop k rest
      rwa [hdrop, List.append_nil] at this
    rw [htake] at hwriter hlen
    rw [← hlen]
    exact .last n rest passed writer hphase hwriter
  · rw [← List.take_append_drop k rest] at hphase
    have hmove := Moved.part n _ _ passed writer hphase hwriter
    rwa [hlen] at hmove

theorem moved_of_step (h : c.step act = some c') : Moved c act c' := by
  cases act with
  | read chunk =>
    simp only [step] at h
    split at h
    · rename_i hguard
      cases h
      by_cases hchunk : chunk = []
      · subst hchunk
        rw [if_pos rfl, List.append_nil]
        exact .eof hguard.1
      · rw [if_neg hchunk]
        exact .read chunk hguard.1
    · cases h
  | readFails =>
    simp only [step] at h
    split at h
    · cases h
      exact .readFails ‹_›
    · cases h
  | write k passed =>
    simp only [step] at h
    cases hphase : c.phase with
    | reading | closing | done | failed =>
      rw [hphase] at h
      cases h
    | writing n rest =>
      rw [hphase] at h
      dsimp only at h
      split at h
      · rename_i hk
        obtain ⟨writer, hwriter, rfl⟩ := Option.map_eq_some_iff.1 h
        exact moved_of_write hphase hk.2 hwriter
      · cases h
  | writeFails =>
    simp only [step] at h
    cases hphase : c.phase with
    | reading | closing | done | failed =>
      rw [hphase] at h
      cases h
    | writing n rest =>
      rw [hphase] at h
      cases h
      exact .writeFails n rest hphase
  | shutdown ok =>
    simp only [step] at h
    split at h
    · cases h
      exact .shutdown ok ‹_›
    · cases h
  | drain passed =>
    obtain ⟨writer, hwriter, rfl⟩ := Option.map_eq_some_iff.1 h
    exact .drain passed writer hwriter

/-! ### What a direction owes -/

/-- Whoever writes: what was taken is what was read, in order and as far as it goes. -/
structure Inv (c : CopyOne) : Prop where
  inOrder : c.writer.accepted <+: c.received
  written : c.phase ≠ .failed → c.received = c.writer.accepted ++ c.phase.unwritten
  counted : c.phase ≠ .failed → c.total + c.phase.uncounted = c.received.length
  passed : c.writer.passedOn ≤ c.writer.accepted.length
  once : c.writer.shutdowns = if c.phase = .done then 1 else 0

theorem inv_start : Inv {} := ⟨List.prefix_rfl, fun _ => rfl, fun _ => rfl, Nat.le_refl _, rfl⟩

/-- A failed direction keeps the order only. -/
theorem Inv.failed (h : c.Inv) (hnot : c.phase ≠ .done) : Inv { c with phase := .failed } := by
  refine ⟨h.inOrder, fun hne => absurd rfl hne, fun hne => absurd rfl hne, h.passed, ?_⟩
  rw [if_neg nofun, h.once, if_neg hnot]

theorem Inv.moved (h : c.Inv) (hmove : Moved c act c') : c'.Inv := by
  have hwritten := h.written
  have hcounted := h.counted
  have honce := h.once
  cases hmove with
  | read chunk hphase =>
    rw [hphase] at hwritten hcounted honce
    refine ⟨h.inOrder.trans (List.prefix_append _ _), fun _ => ?_, fun _ => ?_, h.passed, honce⟩
    · have hall : c.received = c.writer.accepted ++ [] := hwritten nofun
      rw [List.append_nil] at hall
      exact congrArg (· ++ chunk) hall
    · rw [List.length_append, ← hcounted nofun]
      rfl
  | eof hphase =>
    rw [hphase] at hwritten hcounted honce
    exact ⟨h.inOrder, fun _ => hwritten nofun, fun _ => hcounted nofun, h.passed, honce⟩
  | readFails hphase => exact h.failed (by rw [hphase]; nofun)
  | part n chunk rest passed writer hphase hwriter =>
    obtain ⟨haccepted, -, hle, hshut⟩ := take_eq_some hwriter
    rw [hphase] at hwritten hcounted honce
    have hall : c.received = writer.accepted ++ rest := by
      rw [haccepted, List.append_assoc]
      exact hwritten nofun
    refine ⟨?_, fun _ => hall, fun _ => hcounted nofun, hle, hshut.trans honce⟩
    rw [hall]
    exact List.prefix_append _ _
  | last n chunk passed writer hphase hwriter =>
    obtain ⟨haccepted, -, hle, hshut⟩ := take_eq_some hwriter
    rw [hphase] at hwritten hcounted honce
    have hall : c.received = writer.accepted ++ [] := by
      rw [haccepted, List.append_nil]
      exact hwritten nofun
    refine ⟨?_, fun _ => hall, fun _ => hcounted nofun, hle, hshut.trans honce⟩
    rw [hall]
    exact List.prefix_append _ _
  | writeFails n rest hphase => exact h.failed (by rw [hphase]; nofun)
  | shutdown ok hphase =>
    rw [hphase] at hwritten hcounted honce
    refine ⟨h.inOrder, fun _ => hwritten nofun, fun _ => hcounted nofun, ?_, congrArg (· + 1) honce⟩
    cases ok
    · exact h.passed
    · exact Nat.le_refl _
  | drain passed writer hwriter =>
    obtain ⟨haccepted, -, hle, hshut⟩ := take_eq_some hwriter
    rw [List.append_nil] at haccepted
    exact ⟨haccepted ▸ h.inOrder, haccepted ▸ hwritten, hcounted, hle, hshut.trans honce⟩

/-- With nothing in hand, all that was read has been written. -/
theorem Inv.accepted_eq (h : c.Inv) (hphase : c.phase = .reading ∨ c.phase = .done) :
    c.writer.accepted = c.received := by
  have hall := h.written
  rcases hphase with hphase | hphase
  · rw [hphase] at hall
    exact ((hall nofun).trans (List.append_nil _)).symm
  · rw [hphase] at hall
    exact ((hall nofun).trans (List.append_nil _)).symm

/-- The writer has passed on all that it has taken. -/
def Prompt (c : CopyOne) : Prop := c.writer.passedOn = c.writer.accepted.length

/-- A write after which the writer holds nothing back. -/
def PassesOn (c : CopyOne) : CopyAct → Prop
  | .write k passed => c.writer.passedOn + passed = c.writer.accepted.length + k
  | .read _ | .readFails | .writeFails | .shutdown _ | .drain _ => True

instance : ∀ act, Decidable (c.PassesOn act)
  | .write k passed =>
    inferInstanceAs (Decidable (c.writer.passedOn + passed = c.writer.accepted.length + k))
  | .read _ | .readFails | .writeFails | .shutdown _ | .drain _ => .isTrue trivial

theorem Prompt.moved (h : c.Prompt) (hpass : c.PassesOn act) (hmove : Moved c act c') : c'.Prompt := by
  unfold Prompt at h ⊢
  cases hmove with
  | read | eof | readFails | writeFails => exact h
  | part n chunk rest passed writer hphase hwriter =>
    obtain ⟨haccepted, hon, -, -⟩ := take_eq_some hwriter
    rw [haccepted, hon, List.length_append]
    exact hpass
  | last n chunk passed writer hphase hwriter =>
    obtain ⟨haccepted, hon, -, -⟩ := take_eq_some hwriter
    rw [haccepted, hon, List.length_append]
    exact hpass
  | shutdown ok hphase =>
    cases ok
    · exact h
    · rfl
  | drain passed writer hwriter =>
    obtain ⟨haccepted, hon, hle, -⟩ := take_eq_some hwriter
    rw [List.append_nil] at haccepted
    dsimp only
    rw [haccepted] at hle ⊢
    omega

end CopyOne

/-! ## Both directions -/

inductive Side where
  | a2b
  | b2a
deriving DecidableEq

structure Splice where
  a2b : CopyOne := {}
  b2a : CopyOne := {}
deriving DecidableEq

namespace Splice

def dir (s : Splice) : Side → CopyOne
  | .a2b => s.a2b
  | .b2a => s.b2a

def set (s : Splice) (c : CopyOne) : Side → Splice
  | .a2b => { s with a2b := c }
  | .b2a => { s with b2a := c }

/-- The byte counts when both directions are done, the error as soon as one of them has failed. -/
def returned (s : Splice) : Option (Except Unit (Nat × Nat)) :=
  if s.a2b.phase = .failed ∨ s.b2a.phase = .failed then some (.error ())
  else if s.a2b.phase = .done ∧ s.b2a.phase = .done then some (.ok (s.a2b.total, s.b2a.total))
  else none

def step (s : Splice) (act : Side × CopyAct) : Option Splice :=
  if s.returned = none then ((s.dir act.1).step act.2).map (s.set · act.1) else none

/-- What a splice owes, whoever writes. -/
structure Faithful (s : Splice) : Prop where
  inOrder : ∀ side, (s.dir side).writer.accepted <+: (s.dir side).received
  complete : ∀ side, (s.dir side).phase = .reading → (s.dir side).writer.accepted = (s.dir side).received
  once : ∀ side, (s.dir side).writer.shutdowns ≤ 1
  counts : ∀ n, s.returned = some (.ok n) → n = (s.a2b.received.length, s.b2a.received.length) ∧
    ∀ side, (s.dir side).writer.accepted = (s.dir side).received ∧ (s.dir side).writer.shutdowns = 1
  /-- Until both are done, neither waits for the other. -/
  halfClose : ∀ side, (s.dir side).phase ≠ .done → (∀ side', (s.dir side').phase ≠ .failed) →
    ∀ act, (s.step (side, act)).isSome = ((s.dir side).step act).isSome

/-- While both directions wait for input, everything read has reached the other side. -/
def Flushed (s : Splice) : Prop :=
  s.a2b.phase = .reading → s.b2a.phase = .reading → ∀ side,
    (s.dir side).writer.accepted.take (s.dir side).writer.passedOn = (s.dir side).received

def PassesOn (s : Splice) (act : Side × CopyAct) : Prop := (s.dir act.1).PassesOn act.2

instance (s : Splice) (act : Side × CopyAct) : Decidable (s.PassesOn act) :=
  inferInstanceAs (Decidable ((s.dir act.1).PassesOn act.2))

variable {s s' : Splice} {act : Side × CopyAct}

/-- A step moves one direction and leaves the other as it is. -/
theorem forall_dir_step {P : CopyOne → Prop} (h : ∀ side, P (s.dir side))
    (hmove : ∀ c', (s.dir act.1).Moved act.2 c' → P c') (hstep : s.step act = some s') :
    ∀ side, P (s'.dir side) := by
  obtain ⟨side, act⟩ := act
  unfold step at hstep
  split at hstep
  · obtain ⟨c', hc, rfl⟩ := Option.map_eq_some_iff.1 hstep
    have hc' := hmove c' (CopyOne.moved_of_step hc)
    intro side'
    cases side <;> cases side'
    · exact hc'
    · exact h .b2a
    · exact h .a2b
    · exact hc'
  · cases hstep

theorem faithful_of_inv (h : ∀ side, (s.dir side).Inv) : s.Faithful where
  inOrder side := (h side).inOrder
  complete side hphase := (h side).accepted_eq (.inl hphase)
  once side := by
    rw [(h side).once]
    split <;> decide
  counts n hn := by
    unfold returned at hn
    split at hn
    · cases hn
    · split at hn
      · rename_i hdone
        have hside : ∀ side, (s.dir side).phase = .done := by
          intro side
          cases side
          · exact hdone.1
          · exact hdone.2
        have htotal : ∀ side, (s.dir side).total = (s.dir side).received.length := by
          intro side
          have hcounted := (h side).counted
          rw [hside side] at hcounted
          exact hcounted nofun
        cases hn
        refine ⟨Prod.ext (htotal .a2b) (htotal .b2a), fun side => ⟨?_, ?_⟩⟩
        · exact (h side).accepted_eq (.inr (hside side))
        · rw [(h side).once, if_pos (hside side)]
      · cases hn
  halfClose side hdone hok act := by
    have hopen : s.returned = none := by
      unfold returned
      rw [if_neg, if_neg]
      · rintro ⟨ha, hb⟩
        cases side
        · exact hdone ha
        · exact hdone hb
      · rintro (ha | hb)
        · exact hok .a2b ha
        · exact hok .b2a hb
    rw [step, if_pos hopen, Option.isSome_map]

theorem flushed_of_prompt (h : ∀ side, (s.dir side).Inv) (hprompt : ∀ side, (s.dir side).Prompt) :
    s.Flushed := by
  intro ha hb side
  have hphase : (s.dir side).phase = .reading := by
    cases side
    · exact ha
    · exact hb
  rw [hprompt side, List.take_length]
  exact (h side).accepted_eq (.inl hphase)

end Splice

/-- **What a splice owes.** In every run, whatever the chunks, the writers and the interleaving, each side
is written a prefix of what was read from the other, all of it while that direction waits for input; a
direction goes on after the other has ended; and the counts returned are exact, with each writer shut down
once. If the writers pass on what they take, then what was read has also arrived whenever both directions
wait. -/
theorem splice_faithful (acts : List (Side × CopyAct)) :
    Lts.Always Splice.step Splice.Faithful {} acts ∧
    (Lts.Steps Splice.step Splice.PassesOn {} acts → Lts.Always Splice.step Splice.Flushed {} acts) := by
  have hstart : ∀ side, (Splice.dir {} side).Inv := by
    intro side
    cases side <;> exact CopyOne.inv_start
  have hinv : ∀ (s : Splice) act s', (∀ side, (s.dir side).Inv) → s.step act = some s' →
      ∀ side, (s'.dir side).Inv := fun s act s' h hstep =>
    Splice.forall_dir_step h (fun c' hmove => (h act.1).moved hmove) hstep
  constructor
  · exact Lts.always_of_inv (fun s act s' h (_ : True) hstep => hinv s act s' h hstep)
      (fun s h => Splice.faithful_of_inv h) hstart (Lts.steps_of_forall fun _ _ => trivial)
  · intro hpass
    refine Lts.always_of_inv (I := fun s => (∀ side, (s.dir side).Inv) ∧ ∀ side, (s.dir side).Prompt)
      (fun s act s' h hon hstep => ⟨hinv s act s' h.1 hstep, ?_⟩)
      (fun s h => Splice.flushed_of_prompt h.1 h.2) ⟨hstart, ?_⟩ hpass
    · exact Splice.forall_dir_step h.2 (fun c' hmove => (h.2 act.1).moved hon hmove) hstep
    · intro side
      cases side <;> rfl

/-- Bytes each way through writers that hold nothing back, and a clean end. -/
def promptSplice : List (Side × CopyAct) :=
  [(.a2b, .read [104, 105]), (.a2b, .write 1 1), (.b2a, .read [33]), (.a2b, .write 1 1), (.b2a, .write 1 1),
    (.a2b, .read []), (.a2b, .shutdown true), (.b2a, .read [])]

theorem splice_faithful_prompt : (Lts.run Splice.step {} promptSplice).isSome = true ∧
    Lts.Always Splice.step Splice.Flushed {} promptSplice := by
  exact ⟨by decide, (splice_faithful promptSplice).2 (by decide)⟩

/-- A byte that the writer has taken and keeps, while both directions wait. -/
theorem byte_held_while_waiting : ∃ s,
    Lts.run Splice.step {} [(.a2b, .read [104]), (.a2b, .write 1 0)] = some s ∧
    s.a2b.phase = .reading ∧ s.b2a.phase = .reading ∧ s.a2b.received = [104] ∧
    s.a2b.writer.passedOn = 0 ∧ ¬ s.Flushed := by
  refine ⟨_, rfl, rfl, rfl, rfl, rfl, fun h => ?_⟩
  exact absurd (h rfl rfl .a2b) (by decide)

end EtherTunnel
