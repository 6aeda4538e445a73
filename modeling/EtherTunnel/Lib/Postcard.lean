import Mathlib.Algebra.Group.Nat.Defs
import Mathlib.Data.List.Basic
import Mathlib.Data.List.Flatten
import Mathlib.Data.Nat.Log

/-!
# The postcard 1.x wire format

A `Codec α` is a serializer with its deserializer and the law that ties them: what was written reads
back, whatever follows it, and the reader stops where the writer did. The format is not
self-describing, so the law is all a reader has.

| here | postcard 1.x |
| --- | --- |
| `varintEnc`, `varintDec` | `varint_u16` … `varint_usize`, `try_take_varint_*`: at most `n` bytes, the last at most `last` |
| `zigzag`, `unzigzag` | `zig_zag_i64`, `de_zig_zag_i64` |
| `u16`, `u32`, `u64`, `i64`, `raw`, `string`, `list`, `option` | the serde data model; `raw n` is a `[u8; n]` |
| `pair`, `unit`, `Variant`, `enum` | fields one after another; an enum is its variant index as a `u32`, then the fields |
| `fromBytes` | `from_bytes`: bytes after the value are ignored |

The law is stated for encodings shorter than `2 ^ 64` bytes, which is every encoding a 64-bit machine
holds: that is what makes a length fit its `usize`.
-/

namespace Postcard

inductive Error where
  | unexpectedEnd
  | badVarint
  | badUtf8
  | badOption
  | custom
deriving DecidableEq, Repr

structure Codec (α : Type) where
  enc : α → List UInt8
  dec : List UInt8 → Except Error (α × List UInt8)
  dec_enc : ∀ a rest, (enc a).length < 2 ^ 64 → dec (enc a ++ rest) = .ok (a, rest)

/-- `from_bytes`. -/
def fromBytes {α : Type} (c : Codec α) (bs : List UInt8) : Except Error α := (c.dec bs).map (·.1)

theorem fromBytes_enc {α : Type} (c : Codec α) {a : α} (h : (c.enc a).length < 2 ^ 64) :
    fromBytes c (c.enc a) = .ok a := by
  have hdec := c.dec_enc a [] h
  rw [List.append_nil] at hdec
  rw [fromBytes, hdec]
  rfl

/-! ## Varints -/

/-- LEB128 in at most `n` bytes: seven bits a byte, lowest first, the high bit on all but the last. -/
def varintEnc : Nat → Nat → List UInt8
  | 0, _ => []
  | n + 1, v => if v < 128 then [UInt8.ofNat v] else UInt8.ofNat (v % 128 + 128) :: varintEnc n (v / 128)

/-- At most `n` bytes; if all `n` are used, the last may not exceed `last`. Padded forms are accepted. -/
def varintDec (last : Nat) : Nat → List UInt8 → Except Error (Nat × List UInt8)
  | 0, _ => .error .badVarint
  | _ + 1, [] => .error .unexpectedEnd
  | n + 1, b :: bs =>
    if b.toNat < 128 then
      if n = 0 ∧ last < b.toNat then .error .badVarint else .ok (b.toNat, bs)
    else
      match varintDec last n bs with
      | .error e => .error e
      | .ok (v, rest) => .ok (b.toNat - 128 + 128 * v, rest)

theorem varintEnc_ne_nil (n v : Nat) : varintEnc (n + 1) v ≠ [] := by
  rw [varintEnc]
  split <;> simp

theorem varintDec_enc {last : Nat} (hlast : last < 128) (n : Nat) : ∀ {v : Nat} (rest : List UInt8),
    v < 128 ^ n * (last + 1) → varintDec last (n + 1) (varintEnc (n + 1) v ++ rest) = .ok (v, rest) := by
  induction n with
  | zero =>
    intro v rest hv
    have hsmall : v < 128 := by omega
    have hbyte : (UInt8.ofNat v).toNat = v := by rw [UInt8.toNat_ofNat']; omega
    simp only [varintEnc, if_pos hsmall, List.singleton_append, varintDec, hbyte, true_and]
    rw [if_neg (by omega)]
  | succ n ih =>
    intro v rest hv
    rw [varintEnc]
    split
    · rename_i hsmall
      have hbyte : (UInt8.ofNat v).toNat = v := by rw [UInt8.toNat_ofNat']; omega
      simp [varintDec, hbyte, hsmall]
    · have hbyte : (UInt8.ofNat (v % 128 + 128)).toNat = v % 128 + 128 := by
        rw [UInt8.toNat_ofNat']; omega
      have hrest : v / 128 < 128 ^ n * (last + 1) := by
        rw [Nat.div_lt_iff_lt_mul (by decide)]
        calc v < 128 ^ (n + 1) * (last + 1) := hv
          _ = 128 ^ n * (last + 1) * 128 := by rw [Nat.pow_succ]; ac_rfl
      rw [List.cons_append, varintDec, hbyte, if_neg (by omega), ih rest hrest]
      simp only [Except.ok.injEq, Prod.mk.injEq, and_true]
      omega

/-- A machine word as a varint. -/
def word {α : Type} (toNat : α → Nat) (ofNat : Nat → α) (n last : Nat) (hlast : last < 128)
    (hlt : ∀ a, toNat a < 128 ^ n * (last + 1)) (hof : ∀ a, ofNat (toNat a) = a) : Codec α where
  enc a := varintEnc (n + 1) (toNat a)
  dec bs :=
    match varintDec last (n + 1) bs with
    | .error e => .error e
    | .ok (v, rest) => .ok (ofNat v, rest)
  dec_enc a rest _ := by rw [varintDec_enc hlast n rest (hlt a)]; simp only [hof]

def u16 : Codec UInt16 := word UInt16.toNat UInt16.ofNat 2 3 (by decide)
  (fun a => by have := a.toNat_lt; omega) fun _ => UInt16.ofNat_toNat

def u32 : Codec UInt32 := word UInt32.toNat UInt32.ofNat 4 15 (by decide)
  (fun a => by have := a.toNat_lt; omega) fun _ => UInt32.ofNat_toNat

def u64 : Codec UInt64 := word UInt64.toNat UInt64.ofNat 9 1 (by decide)
  (fun a => by have := a.toNat_lt; omega) fun _ => UInt64.ofNat_toNat

/-- A length; `usize` has 64 bits. -/
def usizeEnc (n : Nat) : List UInt8 := varintEnc 10 n

def usizeDec : List UInt8 → Except Error (Nat × List UInt8) := varintDec 1 10

theorem usizeDec_enc {n : Nat} (rest : List UInt8) (h : n < 2 ^ 64) :
    usizeDec (usizeEnc n ++ rest) = .ok (n, rest) :=
  varintDec_enc (by decide) 9 rest (by omega)

/-! ## Combinators -/

section combinators

variable {α β : Type}

/-- The same bytes, for a type with another view of the value. -/
def Codec.map (c : Codec α) (make : α → β) (view : β → α) (h : ∀ b, make (view b) = b) : Codec β where
  enc b := c.enc (view b)
  dec bs :=
    match c.dec bs with
    | .error e => .error e
    | .ok (a, rest) => .ok (make a, rest)
  dec_enc b rest hlen := by rw [c.dec_enc _ rest hlen]; simp only [h]

def zigzag (i : Int64) : UInt64 :=
  UInt64.ofNat (if 0 ≤ i.toInt then 2 * i.toInt.toNat else 2 * (-i.toInt).toNat - 1)

def unzigzag (u : UInt64) : Int64 :=
  Int64.ofInt (if u.toNat % 2 = 0 then (u.toNat / 2 : Nat) else -(u.toNat / 2 : Nat) - 1)

theorem unzigzag_zigzag (i : Int64) : unzigzag (zigzag i) = i := by
  have hlo := i.le_toInt
  have hhi := i.toInt_lt
  have hsmall : (if 0 ≤ i.toInt then 2 * i.toInt.toNat else 2 * (-i.toInt).toNat - 1) < 2 ^ 64 := by
    split <;> omega
  have hword : (zigzag i).toNat =
      if 0 ≤ i.toInt then 2 * i.toInt.toNat else 2 * (-i.toInt).toNat - 1 := by
    rw [zigzag, UInt64.toNat_ofNat']; exact Nat.mod_eq_of_lt hsmall
  have hback : (if (zigzag i).toNat % 2 = 0 then (((zigzag i).toNat / 2 : Nat) : Int)
      else -((zigzag i).toNat / 2 : Nat) - 1) = i.toInt := by
    rw [hword]
    split <;> split <;> omega
  rw [unzigzag, hback, Int64.ofInt_toInt]

def i64 : Codec Int64 := u64.map unzigzag zigzag unzigzag_zigzag

def unit : Codec Unit where
  enc _ := []
  dec bs := .ok ((), bs)
  dec_enc _ _ _ := rfl

/-- One field after another. -/
def pair (c : Codec α) (d : Codec β) : Codec (α × β) where
  enc x := c.enc x.1 ++ d.enc x.2
  dec bs :=
    match c.dec bs with
    | .error e => .error e
    | .ok (a, rest) =>
      match d.dec rest with
      | .error e => .error e
      | .ok (b, rest) => .ok ((a, b), rest)
  dec_enc x rest hlen := by
    rw [List.length_append] at hlen
    rw [List.append_assoc, c.dec_enc x.1 _ (by omega)]
    simp only [d.dec_enc x.2 rest (by omega)]

def option (c : Codec α) : Codec (Option α) where
  enc
    | none => [0]
    | some a => 1 :: c.enc a
  dec
    | [] => .error .unexpectedEnd
    | b :: bs =>
      if b = 0 then .ok (none, bs)
      else if b = 1 then
        match c.dec bs with
        | .error e => .error e
        | .ok (a, rest) => .ok (some a, rest)
      else .error .badOption
  dec_enc x rest hlen := by
    cases x with
    | none => rfl
    | some a =>
      rw [List.length_cons] at hlen
      have hdec := c.dec_enc a rest (by omega)
      simp [hdec]

/-- `n` bytes as they are. -/
def raw (n : Nat) : Codec (Vector UInt8 n) where
  enc v := v.toList
  dec bs :=
    if h : n ≤ bs.length then .ok (⟨(bs.take n).toArray, by simp [h]⟩, bs.drop n)
    else .error .unexpectedEnd
  dec_enc v rest _ := by
    have hlen : v.toList.length = n := v.length_toList
    rw [dif_pos (by rw [List.length_append]; omega)]
    simp only [List.take_left' hlen, List.drop_left' hlen]
    rfl

/-- The UTF-8 bytes of a string. -/
def utf8 (s : String) : List UInt8 := s.toByteArray.data.toList

def ofUtf8 (bs : List UInt8) : Option String := String.fromUTF8? ⟨bs.toArray⟩

theorem ofUtf8_utf8 (s : String) : ofUtf8 (utf8 s) = some s := by
  rw [ofUtf8, utf8, String.fromUTF8?]
  exact dif_pos s.isValidUTF8

def string : Codec String where
  enc s := usizeEnc (utf8 s).length ++ utf8 s
  dec bs :=
    match usizeDec bs with
    | .error e => .error e
    | .ok (n, rest) =>
      if n ≤ rest.length then
        match ofUtf8 (rest.take n) with
        | some s => .ok (s, rest.drop n)
        | none => .error .badUtf8
      else .error .unexpectedEnd
  dec_enc s rest hlen := by
    rw [List.length_append] at hlen
    rw [List.append_assoc, usizeDec_enc _ (by omega)]
    simp only [List.length_append, Nat.le_add_right, if_true, List.take_left, List.drop_left, ofUtf8_utf8]

/-- `n` elements one after another. -/
def decN (c : Codec α) : Nat → List UInt8 → Except Error (List α × List UInt8)
  | 0, bs => .ok ([], bs)
  | n + 1, bs =>
    match c.dec bs with
    | .error e => .error e
    | .ok (a, rest) =>
      match decN c n rest with
      | .error e => .error e
      | .ok (as, rest) => .ok (a :: as, rest)

theorem decN_enc (c : Codec α) (rest : List UInt8) : ∀ as : List α, (as.flatMap c.enc).length < 2 ^ 64 →
    decN c as.length (as.flatMap c.enc ++ rest) = .ok (as, rest)
  | [], _ => rfl
  | a :: as, h => by
    rw [List.flatMap_cons, List.length_append] at h
    rw [List.flatMap_cons, List.append_assoc, List.length_cons, decN, c.dec_enc a _ (by omega)]
    simp only [decN_enc c rest as (by omega)]

/-- A sequence of values that take at least one byte each. -/
def list (c : Codec α) (hne : ∀ a, c.enc a ≠ []) : Codec (List α) where
  enc as := usizeEnc as.length ++ as.flatMap c.enc
  dec bs :=
    match usizeDec bs with
    | .error e => .error e
    | .ok (n, rest) => decN c n rest
  dec_enc as rest hlen := by
    have hle : ∀ as : List α, as.length ≤ (as.flatMap c.enc).length := by
      intro as
      induction as with
      | nil => exact Nat.le_refl 0
      | cons a as ih =>
        have := List.length_pos_iff.2 (hne a)
        rw [List.flatMap_cons, List.length_append, List.length_cons]
        omega
    have := hle as
    rw [List.length_append] at hlen
    rw [List.append_assoc, usizeDec_enc _ (by omega)]
    exact decN_enc c rest as (by omega)

end combinators

/-! ## Lengths -/

theorem length_varintEnc_le : ∀ n v : Nat, (varintEnc n v).length ≤ n
  | 0, _ => Nat.le_refl 0
  | n + 1, v => by
    have ih := length_varintEnc_le n (v / 128)
    rw [varintEnc]
    split
    · exact Nat.succ_le_succ (Nat.zero_le n)
    · exact Nat.succ_le_succ ih

/-- Seven bits a byte. -/
theorem length_varintEnc : ∀ n v : Nat, (varintEnc (n + 1) v).length = min (n + 1) (Nat.log 128 v + 1)
  | 0, v => by
    have hlen := length_varintEnc_le (0 + 1) v
    have hpos := List.length_pos_iff.2 (varintEnc_ne_nil 0 v)
    omega
  | n + 1, v => by
    rw [varintEnc]
    split
    · rename_i hsmall
      rw [Nat.log_of_lt hsmall]
      rfl
    · rename_i hlarge
      rw [List.length_cons, length_varintEnc n, Nat.log_of_one_lt_of_le (by decide) (Nat.le_of_not_lt hlarge)]
      omega

theorem length_varintEnc_mono : ∀ (n : Nat) {v w : Nat}, v ≤ w →
    (varintEnc n v).length ≤ (varintEnc n w).length
  | 0, _, _, _ => Nat.le_refl 0
  | n + 1, v, w, h => by
    have ih := length_varintEnc_mono n (Nat.div_le_div_right (c := 128) h)
    rw [varintEnc, varintEnc]
    split
    · split
      · exact Nat.le_refl 1
      · exact Nat.succ_le_succ (Nat.zero_le _)
    · rw [if_neg (by omega)]
      exact Nat.succ_le_succ ih

theorem length_string (s : String) :
    (string.enc s).length = (usizeEnc s.utf8ByteSize).length + s.utf8ByteSize :=
  List.length_append

section lists

variable {α : Type} {c : Codec α} {hne : ∀ a, c.enc a ≠ []}

theorem length_list_of_sublist {as bs : List α} (h : as.Sublist bs) :
    ((list c hne).enc as).length ≤ ((list c hne).enc bs).length := by
  have hcount := length_varintEnc_mono 10 h.length_le
  have hitems : (as.flatMap c.enc).length ≤ (bs.flatMap c.enc).length := (h.flatMap c.enc).length_le
  simp only [list, usizeEnc, List.length_append]
  omega

theorem length_list_map {f : α → α} (h : ∀ a, (c.enc (f a)).length = (c.enc a).length) (as : List α) :
    ((list c hne).enc (as.map f)).length = ((list c hne).enc as).length := by
  simp only [list, List.length_append, List.length_map, List.length_flatMap, List.map_map,
    Function.comp_def, h]

/-- An element leaves room for the count. -/
theorem length_enc_lt_list {a : α} {as : List α} (h : a ∈ as) :
    (c.enc a).length < ((list c hne).enc as).length := by
  have hone : ((list c hne).enc [a]).length ≤ ((list c hne).enc as).length :=
    length_list_of_sublist (List.singleton_sublist.2 h)
  have hcount : (usizeEnc 1).length = 1 := rfl
  simp only [list, List.length_append, List.length_singleton, List.flatMap_singleton, hcount] at hone ⊢
  omega

end lists

/-! ## Enums -/

/-- A variant: its fields, and how to make and recognise a value of it. -/
structure Variant (α : Type) where
  Fields : Type
  codec : Codec Fields
  make : Fields → α
  fields? : α → Option Fields
  make_fields : ∀ a x, fields? a = some x → make x = a := by
    intro a x h
    cases a <;> cases h <;> rfl

/-- A variant without fields. -/
def Variant.bare {α : Type} [DecidableEq α] (a : α) : Variant α where
  Fields := Unit
  codec := unit
  make _ := a
  fields? b := if b = a then some () else none
  make_fields b _ h := by
    split at h
    · rename_i hb; exact hb.symm
    · cases h

section enum

variable {α : Type}

/-- The index of the variant `a` belongs to, counted from `i`, then its fields. -/
def encVariant : List (Variant α) → Nat → α → List UInt8
  | [], _, _ => []
  | v :: vs, i, a =>
    match v.fields? a with
    | some x => varintEnc 5 i ++ v.codec.enc x
    | none => encVariant vs (i + 1) a

theorem encVariant_eq {a : α} : ∀ {vs : List (Variant α)} (i : Nat),
    (∃ v ∈ vs, (v.fields? a).isSome) → ∃ j v x, vs[j]? = some v ∧ v.make x = a ∧
      encVariant vs i a = varintEnc 5 (i + j) ++ v.codec.enc x
  | [], _, h => by obtain ⟨v, hv, -⟩ := h; cases hv
  | v :: vs, i, h => by
    cases hx : v.fields? a with
    | some x => exact ⟨0, v, x, rfl, v.make_fields a x hx, by rw [encVariant, hx]; rfl⟩
    | none =>
      obtain ⟨w, hw, hsome⟩ := h
      rcases List.mem_cons.1 hw with rfl | hw
      · rw [hx] at hsome; cases hsome
      · obtain ⟨j, w', x, hj, hmake, henc⟩ := encVariant_eq (i + 1) ⟨w, hw, hsome⟩
        refine ⟨j + 1, w', x, hj, hmake, ?_⟩
        rw [encVariant, hx, show i + (j + 1) = i + 1 + j by omega]
        exact henc

/-- The variants in the order of their indices. -/
def enum (vs : List (Variant α)) (hall : ∀ a, vs.any (fun v => (v.fields? a).isSome) = true)
    (hfew : vs.length ≤ 2 ^ 32) : Codec α where
  enc a := encVariant vs 0 a
  dec bs :=
    match varintDec 15 5 bs with
    | .error e => .error e
    | .ok (i, rest) =>
      match vs[i]? with
      | none => .error .custom
      | some v =>
        match v.codec.dec rest with
        | .error e => .error e
        | .ok (x, rest) => .ok (v.make x, rest)
  dec_enc a rest hlen := by
    obtain ⟨j, v, x, hj, hmake, henc⟩ := encVariant_eq 0 (List.any_eq_true.1 (hall a))
    have hjlt : j < vs.length := (List.getElem?_eq_some_iff.1 hj).1
    rw [henc, List.length_append] at hlen
    rw [Nat.zero_add] at henc hlen
    rw [henc, List.append_assoc, varintDec_enc (by decide) 4 _ (by omega)]
    simp only [hj, v.codec.dec_enc x rest (by omega), hmake]

end enum

end Postcard
