import EtherTunnel.Proto.Codec
import EtherTunnel.Registry.Labels
import Mathlib.Data.Nat.Digits.Defs

/-!
# Sizes of frames

`write_frame` has a limit on the encoding of a frame (`codec.rs:45-50`), 64 KiB for control frames. The
encoding of a text is the text with its length in front, and a longer text has no shorter length, so for
each variant the limit on the frame is a limit on its texts: `fits_denied_iff` for a message,
`entriesSize` for the entries of a request or its reply.
-/

namespace EtherTunnel

open Postcard

/-- `write_frame` accepts the frame. -/
def ControlFrame.Fits (frame : ControlFrame) : Prop :=
  (ControlFrame.wire.enc frame).length ≤ maxControlFrame

instance (frame : ControlFrame) : Decidable frame.Fits := inferInstanceAs (Decidable (_ ≤ _))

/-! ## Strings -/

theorem utf8ByteSize_eq_sum (s : String) : s.utf8ByteSize = (s.toList.map Char.utf8Size).sum := by
  have hsize : s.utf8ByteSize = (bytes s).length := rfl
  rw [hsize, bytes_eq_flatMap, List.length_flatMap]
  simp only [String.length_utf8EncodeChar]

theorem utf8Size_toLower (c : Char) : c.toLower.utf8Size = c.utf8Size := by
  rcases toLower_cases c with h | ⟨hlo, hhi, hlow⟩
  · rw [h]
  · rw [← String.length_utf8EncodeChar, ← String.length_utf8EncodeChar, utf8EncodeChar_ascii (by omega),
      utf8EncodeChar_ascii (by omega)]
    rfl

theorem utf8ByteSize_toAsciiLowercase (s : String) : (toAsciiLowercase s).utf8ByteSize = s.utf8ByteSize := by
  rw [utf8ByteSize_eq_sum, utf8ByteSize_eq_sum, toAsciiLowercase, String.toList_ofList, List.map_map]
  simp only [Function.comp_def, utf8Size_toLower]

theorem utf8ByteSize_le (s : String) : s.utf8ByteSize ≤ 4 * s.length := by
  rw [utf8ByteSize_eq_sum, ← String.length_toList]
  induction s.toList with
  | nil => exact Nat.le_refl 0
  | cons c cs ih =>
    have hc := c.utf8Size_le_four
    rw [List.map_cons, List.sum_cons, List.length_cons]
    omega

theorem utf8ByteSize_repr_le {n e : Nat} (he : 0 < e) (h : n < 10 ^ e) : n.repr.utf8ByteSize ≤ 4 * e := by
  have hlen := Nat.repr_length n e he h
  have hsize := utf8ByteSize_le n.repr
  omega

theorem utf8ByteSize_port_le (p : UInt16) : (toString p).utf8ByteSize ≤ 20 :=
  utf8ByteSize_repr_le (e := 5) (by decide) (by have := p.toNat_lt; omega)

/-! ## Numbers and texts on the wire -/

/-- The bytes of a number: seven bits in each, at most ten of them. -/
def varintSize (v : Nat) : Nat := min 10 (Nat.log 128 v + 1)

theorem length_usizeEnc (v : Nat) : (usizeEnc v).length = varintSize v := length_varintEnc 9 v

theorem length_u16 (p : UInt16) : (u16.enc p).length = varintSize p.toNat := by
  have henc : u16.enc p = varintEnc 3 p.toNat := rfl
  have hlog : Nat.log 128 p.toNat < 3 := Nat.log_lt_of_lt_pow' (by decide) (by have := p.toNat_lt; omega)
  rw [henc, length_varintEnc, varintSize]
  omega

theorem length_i64 {m : Int} (hlo : 0 ≤ m) (hhi : m < 2 ^ 63) :
    (i64.enc (Int64.ofInt m)).length = varintSize (2 * m.toNat) := by
  have henc : i64.enc (Int64.ofInt m) = varintEnc 10 (zigzag (Int64.ofInt m)).toNat := rfl
  have hint : (Int64.ofInt m).toInt = m := Int64.toInt_ofInt_of_le (by omega) hhi
  have hzigzag : (zigzag (Int64.ofInt m)).toNat = 2 * m.toNat := by
    rw [zigzag, hint, if_pos hlo, UInt64.toNat_ofNat']
    exact Nat.mod_eq_of_lt (by omega)
  rw [henc, hzigzag]
  exact length_varintEnc 9 _

/-- The bytes of a text of `n` bytes. -/
def textSize (n : Nat) : Nat := varintSize n + n

theorem length_text (s : String) : (string.enc s).length = textSize s.utf8ByteSize := by
  rw [length_string, length_usizeEnc, textSize]

theorem length_list {α : Type} {c : Codec α} {hne : ∀ a, c.enc a ≠ []} (as : List α) :
    ((list c hne).enc as).length = (usizeEnc as.length).length + (as.map fun a => (c.enc a).length).sum := by
  simp only [list, List.length_append, List.length_flatMap]

theorem length_hostnames (hosts : List String) : (hostnames.enc hosts).length =
    varintSize hosts.length + (hosts.map fun h => textSize h.utf8ByteSize).sum := by
  have hlist : (hostnames.enc hosts).length = _ := length_list hosts
  rw [hlist, length_usizeEnc]
  simp only [length_text]

theorem length_tcpPorts (ports : List UInt16) : (tcpPorts.enc ports).length =
    varintSize ports.length + (ports.map fun p => varintSize p.toNat).sum := by
  have hlist : (tcpPorts.enc ports).length = _ := length_list ports
  rw [hlist, length_usizeEnc]
  simp only [length_u16]

/-! ## Messages -/

/-- What is left for the text of a `Denied` frame: the variant and the code take a byte each, the length of
a text of this size three. -/
def messageRoom : Nat := maxControlFrame - 5

theorem length_denyCode (code : DenyCode) : (DenyCode.wire.enc code).length = 1 := by
  cases code <;> rfl

theorem length_denied (code : DenyCode) (message : String) :
    (ControlFrame.wire.enc (.denied code message)).length =
      2 + ((usizeEnc message.utf8ByteSize).length + message.utf8ByteSize) := by
  have henc : ControlFrame.wire.enc (.denied code message) =
      2 :: (DenyCode.wire.enc code ++ string.enc message) := rfl
  rw [henc, List.length_cons, List.length_append, length_denyCode, length_string]
  omega

theorem fits_denied_iff {code : DenyCode} {message : String} :
    (ControlFrame.denied code message).Fits ↔ message.utf8ByteSize ≤ messageRoom := by
  have hmax : maxControlFrame = 65536 := rfl
  have hroom : messageRoom = 65531 := rfl
  rw [ControlFrame.Fits, length_denied, hmax, hroom]
  constructor
  · intro h
    by_contra hlong
    have hmono := length_varintEnc_mono 10 (show 65532 ≤ message.utf8ByteSize by omega)
    have hthree : (varintEnc 10 65532).length = 3 := rfl
    rw [usizeEnc] at h
    omega
  · intro h
    have hmono := length_varintEnc_mono 10 h
    have hthree : (varintEnc 10 65531).length = 3 := rfl
    rw [usizeEnc]
    omega

/-! ## Entries -/

/-- The size of a `Claim`, `Granted`, `Release` or `Released`. -/
def entriesSize (hosts : List String) (ports : List UInt16) : Nat :=
  (hostnames.enc hosts).length + (tcpPorts.enc ports).length + 1

theorem length_entries (variant : UInt8) (hosts : List String) (ports : List UInt16) :
    (variant :: (hostnames.enc hosts ++ tcpPorts.enc ports)).length = entriesSize hosts ports := by
  rw [List.length_cons, List.length_append]
  rfl

section entries

variable {hosts : List String} {ports : List UInt16}

theorem fits_claim_iff : (ControlFrame.claim hosts ports).Fits ↔ entriesSize hosts ports ≤ maxControlFrame := by
  rw [← length_entries 3]
  rfl

theorem fits_granted_iff :
    (ControlFrame.granted hosts ports).Fits ↔ entriesSize hosts ports ≤ maxControlFrame := by
  rw [← length_entries 4]
  rfl

theorem fits_release_iff :
    (ControlFrame.release hosts ports).Fits ↔ entriesSize hosts ports ≤ maxControlFrame := by
  rw [← length_entries 11]
  rfl

theorem fits_released_iff :
    (ControlFrame.released hosts ports).Fits ↔ entriesSize hosts ports ≤ maxControlFrame := by
  rw [← length_entries 12]
  rfl

/-- Lower case letters take the room of upper case ones. -/
theorem entriesSize_lowercase (hosts : List String) (ports : List UInt16) :
    entriesSize (hosts.map toAsciiLowercase) ports = entriesSize hosts ports := by
  have hhost : ∀ h, (string.enc (toAsciiLowercase h)).length = (string.enc h).length := by
    intro h
    rw [length_string, length_string, utf8ByteSize_toAsciiLowercase]
  rw [entriesSize, entriesSize, hostnames, length_list_map hhost]

theorem entriesSize_of_sublist {hosts' : List String} {ports' : List UInt16} (hh : hosts'.Sublist hosts)
    (hp : ports'.Sublist ports) : entriesSize hosts' ports' ≤ entriesSize hosts ports := by
  have hhosts : (hostnames.enc hosts').length ≤ (hostnames.enc hosts).length := length_list_of_sublist hh
  have hports : (tcpPorts.enc ports').length ≤ (tcpPorts.enc ports).length := length_list_of_sublist hp
  unfold entriesSize
  omega

/-- A `Superseded` is no longer than the claim that it comes from. -/
theorem fits_superseded {x : Resource} (hx : x ∈ resources hosts ports)
    (hfits : entriesSize hosts ports ≤ maxControlFrame) : (ControlFrame.superseded x).Fits := by
  cases x with
  | host name =>
    have henc : ControlFrame.wire.enc (.superseded (.host name)) = 7 :: 0 :: string.enc name := rfl
    have hname : (string.enc name).length < (hostnames.enc hosts).length :=
      length_enc_lt_list (host_mem_resources.1 hx)
    rw [ControlFrame.Fits, henc, List.length_cons, List.length_cons]
    unfold entriesSize at hfits
    omega
  | port p =>
    have henc : ControlFrame.wire.enc (.superseded (.port p)) = 7 :: 1 :: varintEnc 3 p.toNat := rfl
    have hport := length_varintEnc_le 3 p.toNat
    have hmax : maxControlFrame = 65536 := rfl
    rw [ControlFrame.Fits, henc, List.length_cons, List.length_cons]
    omega

theorem fits_owned_iff {hosts : List String} {ports : List UInt16} {maxTunnels : Option Int64} :
    (ControlFrame.owned hosts ports maxTunnels).Fits ↔
      entriesSize hosts ports + ((option i64).enc maxTunnels).length ≤ maxControlFrame := by
  have henc : ControlFrame.wire.enc (.owned hosts ports maxTunnels) =
      14 :: (hostnames.enc hosts ++ (tcpPorts.enc ports ++ (option i64).enc maxTunnels)) := rfl
  rw [ControlFrame.Fits, henc, List.length_cons, List.length_append, List.length_append]
  unfold entriesSize
  omega

end entries

theorem fits_pong (nonce : UInt64) : (ControlFrame.pong nonce).Fits := by
  have henc : ControlFrame.wire.enc (.pong nonce) = 6 :: varintEnc 10 nonce.toNat := rfl
  have hnonce := length_varintEnc_le 10 nonce.toNat
  have hmax : maxControlFrame = 65536 := rfl
  rw [ControlFrame.Fits, henc, List.length_cons]
  omega

end EtherTunnel
