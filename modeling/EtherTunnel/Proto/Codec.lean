import EtherTunnel.Proto.Wire

/-!
# Length-prefixed frames

| here | there |
| --- | --- |
| `CodecError`, `isEof` | `codec.rs:19-37` |
| `writeFrame`, `readFrame` | `codec.rs:40`, `:61` |
| `writePreamble`, `readPreamble` | `codec.rs:77`, `:89` |
| `Reader` | the bytes a stream still delivers, and how it ends after them |
| `readExact` | `read_exact`: all `n` bytes, or the stream is read to its end |

A writer is the bytes written to it; a frame whose `write_all` failed is not on the wire.
-/

namespace EtherTunnel

open Postcard

/-- `std::io::ErrorKind`; the code only looks for `UnexpectedEof`. -/
inductive IoErrorKind where
  | unexpectedEof
  | other (code : Nat)
deriving DecidableEq, Repr

inductive CodecError where
  | io (kind : IoErrorKind)
  | postcard (e : Postcard.Error)
  | tooLarge (len max : Nat)
  | badMagic
deriving DecidableEq, Repr

def CodecError.isEof : CodecError → Bool
  | .io .unexpectedEof => true
  | _ => false

/-! ## Streams -/

/-- The bytes still to come; after them the stream ends, or fails with `failure`. -/
structure Reader where
  bytes : List UInt8
  failure : Option IoErrorKind := none
deriving DecidableEq

def readExact (n : Nat) (r : Reader) : Except CodecError (List UInt8) × Reader :=
  if n ≤ r.bytes.length then (.ok (r.bytes.take n), { r with bytes := r.bytes.drop n })
  else (.error (.io (r.failure.getD .unexpectedEof)), { r with bytes := [] })

/-- `u32::to_le_bytes`. -/
def toLeBytes (v : UInt32) : List UInt8 :=
  [UInt8.ofNat v.toNat, UInt8.ofNat (v.toNat / 256), UInt8.ofNat (v.toNat / 65536),
    UInt8.ofNat (v.toNat / 16777216)]

/-- `u32::from_le_bytes`, `u16::from_le_bytes`. -/
def fromLeBytes : List UInt8 → Nat
  | [] => 0
  | b :: bs => b.toNat + 256 * fromLeBytes bs

/-! ## Frames -/

section frames

variable {α : Type} (c : Codec α)

def writeFrame (w : List UInt8) (frame : α) (max : Nat) : Except CodecError (List UInt8) :=
  let bytes := c.enc frame
  if max < bytes.length then .error (.tooLarge bytes.length max)
  else .ok (w ++ toLeBytes (UInt32.ofNat bytes.length) ++ bytes)

def readFrame (r : Reader) (max : Nat) : Except CodecError α × Reader :=
  match readExact 4 r with
  | (.error e, r) => (.error e, r)
  | (.ok lenBuf, r) =>
    let len := fromLeBytes lenBuf
    if max < len then (.error (.tooLarge len max), r)
    else
      match readExact len r with
      | (.error e, r) => (.error e, r)
      | (.ok buf, r) =>
        match fromBytes c buf with
        | .error e => (.error (.postcard e), r)
        | .ok frame => (.ok frame, r)

/-- One frame after another, as long as each is accepted. -/
def writeFrames (max : Nat) : List UInt8 → List α → Except CodecError (List UInt8)
  | w, [] => .ok w
  | w, frame :: frames =>
    match writeFrame c w frame max with
    | .error e => .error e
    | .ok w => writeFrames max w frames

/-- Up to `n` reads: the frames read, and the stream after them or the first error. -/
def readFrames (max : Nat) : Nat → Reader → List α × Except CodecError Reader
  | 0, r => ([], .ok r)
  | n + 1, r =>
    match readFrame c r max with
    | (.error e, _) => ([], .error e)
    | (.ok frame, r) =>
      let (frames, last) := readFrames max n r
      (frame :: frames, last)

end frames

/-! ## The preamble -/

/-- `CONTROL_MAGIC`: `"ETUN"` (`lib.rs:23`). -/
def controlMagic : List UInt8 := [69, 84, 85, 78]

def protocolVersion : UInt16 := 3

def writePreamble (w : List UInt8) : List UInt8 :=
  w ++ controlMagic ++ [UInt8.ofNat protocolVersion.toNat, UInt8.ofNat (protocolVersion.toNat / 256)]

def readPreamble (r : Reader) : Except CodecError UInt16 × Reader :=
  match readExact 4 r with
  | (.error e, r) => (.error e, r)
  | (.ok magic, r) =>
    if magic ≠ controlMagic then (.error .badMagic, r)
    else
      match readExact 2 r with
      | (.error e, r) => (.error e, r)
      | (.ok ver, r) => (.ok (UInt16.ofNat (fromLeBytes ver)), r)

/-! ## Reading -/

section reading

variable {r : Reader} {n : Nat}

theorem readExact_append {l rest : List UInt8} {failure : Option IoErrorKind} (h : l.length = n) :
    readExact n ⟨l ++ rest, failure⟩ = (.ok l, ⟨rest, failure⟩) := by
  rw [readExact, if_pos (by rw [List.length_append]; omega)]
  simp only [List.take_left' h, List.drop_left' h]

theorem readExact_short {l : List UInt8} (h : l.length < n) :
    readExact n ⟨l, none⟩ = (.error (.io .unexpectedEof), ⟨[], none⟩) := by
  rw [readExact, if_neg (by simp only; omega)]
  rfl

/-- `read_exact(n)` takes at most `n` bytes off the front of the stream. -/
theorem readExact_takes (n : Nat) (r : Reader) :
    ∃ taken, r.bytes = taken ++ (readExact n r).2.bytes ∧ taken.length ≤ n := by
  unfold readExact
  split
  · exact ⟨r.bytes.take n, (List.take_append_drop ..).symm, by rw [List.length_take]; omega⟩
  · exact ⟨r.bytes, (List.append_nil _).symm, by omega⟩

theorem fromLeBytes_toLeBytes (v : UInt32) : fromLeBytes (toLeBytes v) = v.toNat := by
  have := v.toNat_lt
  simp only [toLeBytes, fromLeBytes, UInt8.toNat_ofNat']
  omega

theorem readPreamble_writePreamble (rest : List UInt8) (failure : Option IoErrorKind) :
    readPreamble ⟨writePreamble [] ++ rest, failure⟩ = (.ok protocolVersion, ⟨rest, failure⟩) := by
  rw [readPreamble, writePreamble, List.nil_append, List.append_assoc, readExact_append (n := 4) rfl]
  simp only [ne_eq, not_true_eq_false, if_false]
  rw [readExact_append (n := 2) rfl]
  rfl

end reading

section frames

variable {α : Type} {c : Codec α} {max : Nat} {frame : α}

/-- What `write_frame` puts on the wire. -/
def frameBytes (c : Codec α) (frame : α) : List UInt8 :=
  toLeBytes (UInt32.ofNat (c.enc frame).length) ++ c.enc frame

theorem writeFrame_ok {w w' : List UInt8} (h : writeFrame c w frame max = .ok w') :
    (c.enc frame).length ≤ max ∧ w' = w ++ frameBytes c frame := by
  rw [writeFrame] at h
  by_cases hlen : max < (c.enc frame).length
  · simp only [if_pos hlen] at h
    cases h
  · simp only [if_neg hlen] at h
    cases h
    exact ⟨Nat.le_of_not_lt hlen, by rw [frameBytes, List.append_assoc]⟩

theorem writeFrame_of_fits (h : (c.enc frame).length ≤ max) (w : List UInt8) :
    writeFrame c w frame max = .ok (w ++ frameBytes c frame) := by
  rw [writeFrame]
  simp only [if_neg (Nat.not_lt_of_le h)]
  rw [frameBytes, List.append_assoc]

theorem writeFrames_ok {frames : List α} : ∀ {w w' : List UInt8}, writeFrames c max w frames = .ok w' →
    (∀ frame ∈ frames, (c.enc frame).length ≤ max) ∧ w' = w ++ frames.flatMap (frameBytes c) := by
  induction frames with
  | nil =>
    intro w w' h
    cases h
    exact ⟨by simp, by simp⟩
  | cons frame frames ih =>
    intro w w' h
    rw [writeFrames] at h
    cases hw : writeFrame c w frame max with
    | error e =>
      rw [hw] at h
      cases h
    | ok w₁ =>
      rw [hw] at h
      obtain ⟨hlen, rfl⟩ := writeFrame_ok hw
      obtain ⟨hall, rfl⟩ := ih h
      refine ⟨fun f hf => ?_, by simp⟩
      rcases List.mem_cons.1 hf with rfl | hf
      · exact hlen
      · exact hall f hf

theorem writeFrames_of_fits {frames : List α} (h : ∀ frame ∈ frames, (c.enc frame).length ≤ max) :
    ∀ w, writeFrames c max w frames = .ok (w ++ frames.flatMap (frameBytes c)) := by
  induction frames with
  | nil => intro w; simp [writeFrames]
  | cons frame frames ih =>
    intro w
    rw [writeFrames, writeFrame_of_fits (h frame (by simp))]
    dsimp only
    rw [ih fun f hf => h f (by simp [hf])]
    simp

/-- The length on the wire is the length of the payload. -/
theorem prefix_length {len : Nat} (hlen : len ≤ max) (hmax : max ≤ 2 ^ 32 - 1) :
    fromLeBytes (toLeBytes (UInt32.ofNat len)) = len := by
  rw [fromLeBytes_toLeBytes, UInt32.toNat_ofNat']
  omega

/-- **One frame.** It is read back, and what follows it is left. -/
theorem readFrame_frameBytes (hmax : max ≤ 2 ^ 32 - 1) (hlen : (c.enc frame).length ≤ max)
    (rest : List UInt8) (failure : Option IoErrorKind) :
    readFrame c ⟨frameBytes c frame ++ rest, failure⟩ max = (.ok frame, ⟨rest, failure⟩) := by
  rw [readFrame, frameBytes, List.append_assoc, readExact_append (n := 4) rfl]
  simp only [prefix_length hlen hmax, if_neg (by omega : ¬max < (c.enc frame).length)]
  rw [readExact_append rfl]
  simp only [fromBytes_enc c (by omega : (c.enc frame).length < 2 ^ 64)]

/-- A frame that `write_frame` accepts as the first on a stream is what the other end reads. -/
theorem readFrame_writeFrame {w : List UInt8} (hmax : max ≤ 2 ^ 32 - 1)
    (h : writeFrame c [] frame max = .ok w) : readFrame c ⟨w, none⟩ max = (.ok frame, ⟨[], none⟩) := by
  obtain ⟨hlen, rfl⟩ := writeFrame_ok h
  have hread := readFrame_frameBytes hmax hlen [] none
  rwa [List.append_nil] at hread

/-- A frame cut short reads as the end of the stream. -/
theorem readFrame_cut (hmax : max ≤ 2 ^ 32 - 1) (hlen : (c.enc frame).length ≤ max) {l tail : List UInt8}
    (hcut : l ++ tail = frameBytes c frame) (htail : tail ≠ []) :
    (readFrame c ⟨l, none⟩ max).1 = .error (.io .unexpectedEof) := by
  have hpos := List.length_pos_iff.2 htail
  have htotal := congrArg List.length hcut
  rw [frameBytes, List.length_append, List.length_append] at htotal
  by_cases hshort : l.length < 4
  · rw [readFrame, readExact_short hshort]
  · -- the prefix is whole, the payload is not
    have h4 : (toLeBytes (UInt32.ofNat (c.enc frame).length)).length = 4 := rfl
    obtain ⟨body, hbody⟩ : ∃ body, l = toLeBytes (UInt32.ofNat (c.enc frame).length) ++ body := by
      refine ⟨l.drop 4, ?_⟩
      have htake := congrArg (List.take 4) hcut
      rw [List.take_append_of_le_length (by omega), frameBytes, List.take_left' h4] at htake
      rw [← htake, List.take_append_drop]
    rw [hbody, List.length_append, h4] at htotal
    rw [readFrame, hbody, readExact_append h4]
    simp only [prefix_length hlen hmax, if_neg (by omega : ¬max < (c.enc frame).length)]
    rw [readExact_short (by omega)]

theorem readFrames_flatMap (hmax : max ≤ 2 ^ 32 - 1) (failure : Option IoErrorKind) {frames : List α}
    (hall : ∀ frame ∈ frames, (c.enc frame).length ≤ max) (n : Nat) (rest : List UInt8) :
    readFrames c max (frames.length + n) ⟨frames.flatMap (frameBytes c) ++ rest, failure⟩ =
      (frames ++ (readFrames c max n ⟨rest, failure⟩).1, (readFrames c max n ⟨rest, failure⟩).2) := by
  induction frames with
  | nil => simp
  | cons frame frames ih =>
    have hlen := hall frame (by simp)
    have ih := ih fun f hf => hall f (by simp [hf])
    rw [List.length_cons, Nat.add_right_comm, readFrames, List.flatMap_cons, List.append_assoc,
      readFrame_frameBytes hmax hlen]
    simp only [ih, List.cons_append]

/-- Where a strict beginning of the output ends: after some whole frames, inside the next. -/
theorem cut_point : ∀ {frames : List α} {l : List UInt8}, l <+: frames.flatMap (frameBytes c) →
    l ≠ frames.flatMap (frameBytes c) → ∃ done frame rest cut tail, frames = done ++ frame :: rest ∧
      l = done.flatMap (frameBytes c) ++ cut ∧ cut ++ tail = frameBytes c frame ∧ tail ≠ []
  | [], l, h, hne => by
    rw [List.flatMap_nil, List.prefix_nil] at h
    exact absurd h hne
  | frame :: frames, l, h, hne => by
    rw [List.flatMap_cons] at h hne
    by_cases hlen : l.length < (frameBytes c frame).length
    · obtain ⟨tail, htail⟩ : l <+: frameBytes c frame :=
        List.prefix_of_prefix_length_le h (List.prefix_append ..) (by omega)
      refine ⟨[], frame, frames, l, tail, rfl, rfl, htail, ?_⟩
      rintro rfl
      rw [List.append_nil] at htail
      rw [htail] at hlen
      omega
    · obtain ⟨l', rfl⟩ : frameBytes c frame <+: l :=
        List.prefix_of_prefix_length_le (List.prefix_append ..) h (by omega)
      rw [List.prefix_append_right_inj] at h
      obtain ⟨done, f, rest, cut, tail, rfl, rfl, hcut, htail⟩ :=
        cut_point h fun he => hne (by rw [he])
      exact ⟨frame :: done, f, rest, cut, tail, rfl, by simp, hcut, htail⟩

/-- `read_frame` takes at most `4 + max` bytes, whatever it is fed. -/
theorem readFrame_takes (c : Codec α) (max : Nat) (r : Reader) :
    ∃ taken, r.bytes = taken ++ (readFrame c r max).2.bytes ∧ taken.length ≤ 4 + max := by
  obtain ⟨head, hhead, hhlen⟩ := readExact_takes 4 r
  rw [readFrame]
  rcases h4 : readExact 4 r with ⟨e | lenBuf, r'⟩
  · rw [h4] at hhead
    exact ⟨head, hhead, by omega⟩
  · rw [h4] at hhead
    dsimp only at hhead ⊢
    split
    · exact ⟨head, hhead, by omega⟩
    · rename_i hle
      obtain ⟨body, hbody, hblen⟩ := readExact_takes (fromLeBytes lenBuf) r'
      have hboth : r.bytes = (head ++ body) ++ (readExact (fromLeBytes lenBuf) r').2.bytes := by
        rw [hhead, List.append_assoc, ← hbody]
      have hsum : (head ++ body).length ≤ 4 + max := by rw [List.length_append]; omega
      rcases hb : readExact (fromLeBytes lenBuf) r' with ⟨e | buf, r''⟩
      · rw [hb] at hboth
        exact ⟨_, hboth, hsum⟩
      · rw [hb] at hboth
        dsimp only
        split <;> exact ⟨_, hboth, hsum⟩

/-- **What the framing of a type guarantees.** -/
structure Framed (c : Codec α) (max : Nat) : Prop where
  /-- Frames that `write_frame` accepts are read back, and nothing is left over. -/
  roundTrip : ∀ frames w, writeFrames c max [] frames = .ok w →
    readFrames c max frames.length ⟨w, none⟩ = (frames, .ok ⟨[], none⟩)
  /-- A read takes at most `4 + max` bytes off any stream. -/
  bounded : ∀ r : Reader, ∃ taken, r.bytes = taken ++ (readFrame c r max).2.bytes ∧
    taken.length ≤ 4 + max
  /-- A length above `max` is refused once its four bytes are read. -/
  oversize : ∀ r : Reader, 4 ≤ r.bytes.length → max < fromLeBytes (r.bytes.take 4) →
    readFrame c r max =
      (.error (.tooLarge (fromLeBytes (r.bytes.take 4)) max), { r with bytes := r.bytes.drop 4 })
  /-- A stream that ends early yields its whole frames, then an end-of-stream error. -/
  truncated : ∀ frames w, writeFrames c max [] frames = .ok w → ∀ l, l <+: w → l ≠ w →
    ∃ done frame rest whole cut e, frames = done ++ frame :: rest ∧
      writeFrames c max [] done = .ok whole ∧ l = whole ++ cut ∧
      cut.length < 4 + (c.enc frame).length ∧
      readFrames c max (done.length + 1) ⟨l, none⟩ = (done, .error e) ∧ e.isEof = true

theorem Codec.framed (c : Codec α) {max : Nat} (hmax : max ≤ 2 ^ 32 - 1) : Framed c max where
  roundTrip frames w h := by
    obtain ⟨hall, rfl⟩ := writeFrames_ok h
    have := readFrames_flatMap hmax none hall 0 []
    simpa [readFrames] using this
  bounded r := readFrame_takes c max r
  oversize r h4 hbig := by
    rw [readFrame, readExact, if_pos h4]
    simp only [if_pos hbig]
  truncated frames w h l hl hne := by
    obtain ⟨hall, rfl⟩ := writeFrames_ok h
    rw [List.nil_append] at hl hne
    obtain ⟨done, frame, rest, cut, tail, rfl, rfl, hcut, htail⟩ := cut_point hl hne
    have hlen := hall frame (by simp)
    have hdone : ∀ f ∈ done, (c.enc f).length ≤ max := fun f hf => hall f (by simp [hf])
    refine ⟨done, frame, rest, _, cut, .io .unexpectedEof, rfl, writeFrames_of_fits hdone [], by simp, ?_,
      ?_, rfl⟩
    · have := congrArg List.length hcut
      have := List.length_pos_iff.2 htail
      simp only [frameBytes, toLeBytes, List.length_append, List.length_cons, List.length_nil] at *
      omega
    · have hlast := readFrame_cut hmax hlen hcut htail
      rw [readFrames_flatMap hmax none hdone 1 cut, readFrames]
      rcases hr : readFrame c ⟨cut, none⟩ max with ⟨e | f, r⟩
      · rw [hr] at hlast
        cases hlast
        simp
      · rw [hr] at hlast
        cases hlast

end frames

/-- **The wire codec is self-delimiting.** -/
theorem wire_self_delimiting {max : Nat} (hmax : max ≤ 2 ^ 32 - 1) :
    Framed ControlFrame.wire max ∧ Framed Resource.wire max ∧ Framed DenyCode.wire max ∧
      Framed ErrorCode.wire max ∧ Framed StreamHeader.wire max :=
  ⟨Codec.framed _ hmax, Codec.framed _ hmax, Codec.framed _ hmax, Codec.framed _ hmax,
    Codec.framed _ hmax⟩

/-- A denial and a goodbye, read back from their nine and five bytes. -/
theorem wire_self_delimiting_two :
    let frames : List ControlFrame := [.denied .notOwner "no", .goodbye]
    let wire : List UInt8 := [5, 0, 0, 0, 2, 2, 2, 110, 111, 1, 0, 0, 0, 8]
    writeFrames ControlFrame.wire 65536 [] frames = .ok wire ∧
      readFrames ControlFrame.wire 65536 frames.length ⟨wire, none⟩ = (frames, .ok ⟨[], none⟩) := by
  intro frames wire
  have hwire : writeFrames ControlFrame.wire 65536 [] frames = .ok wire := by decide
  exact ⟨hwire, (wire_self_delimiting (by decide)).1.roundTrip frames wire hwire⟩

end EtherTunnel
