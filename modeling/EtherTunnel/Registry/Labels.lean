import Mathlib.Data.List.Basic

/-!
# Hostname labels

| here | there |
| --- | --- |
| `toAsciiLowercase` | `str::to_ascii_lowercase`, applied to every requested hostname (`session.rs:614`, `:822`) |
| `reservedLabels`, `validateLabel` | `RESERVED_LABELS`, `validate_label` (`registry.rs:46-68`) |
| `stripSuffix` | `str::strip_suffix` |
| `fqdn` | `format!("{label}{}", self.suffix)` (`registry.rs:419`), `format!("{label}.{}", rec.domain)` (`polar.rs:932`) |
| `labelOf` | `Registry::label_of` (`registry.rs:791`) |

The registry stores labels, the router full names. `labelOf_eq_some` is the bridge: `label_of` inverts
`fqdn` on exactly the valid labels.
-/

namespace EtherTunnel

/-- `str::as_bytes`. -/
def bytes (s : String) : List UInt8 := s.toByteArray.data.toList

def toAsciiLowercase (s : String) : String := String.ofList (s.toList.map Char.toLower)

def reservedLabels : List String := ["connect", "www", "admin", "api", "docs", "status", "mail"]

/-- `is_ascii_lowercase() || is_ascii_digit()`. -/
def okEdge (b : UInt8) : Bool := (97 ≤ b && b ≤ 122) || (48 ≤ b && b ≤ 57)

/-- A byte allowed anywhere in a label (`registry.rs:60`). -/
def okByte (b : UInt8) : Bool := okEdge b || b == 45

/-- `validate_label`: a single DNS label, lowercase, not reserved. -/
def validateLabel (label : String) : Except String Unit :=
  let bs := bytes label
  if bs = [] ∨ 63 < bs.length then .error "must be 1..=63 characters"
  else if !okEdge (bs.headD 0) || !okEdge (bs.getLastD 0) then
    .error "must start and end with a-z0-9"
  else if !bs.all okByte then .error "only a-z, 0-9 and '-' are allowed"
  else if label ∈ reservedLabels then .error "this label is reserved"
  else .ok ()

def stripSuffix (s suffix : String) : Option String :=
  if suffix.toList <:+ s.toList then
    some (String.ofList (s.toList.take (s.length - suffix.length)))
  else none

/-- The full name of a label under the relay's apex. -/
def fqdn (domain label : String) : String := label ++ ("." ++ domain)

/-- `label_of`: the label of a name directly under the apex, if it is a valid one. -/
def labelOf (domain name : String) : Option String :=
  match stripSuffix name ("." ++ domain) with
  | none => none
  | some label =>
    if label = "" ∨ '.' ∈ label.toList then none
    else if (validateLabel label).isOk then some label
    else none

/-! ## Bytes and characters -/

theorem bytes_eq_flatMap (s : String) : bytes s = s.toList.flatMap String.utf8EncodeChar := by
  have h : s.toByteArray = s.toList.utf8Encode := String.utf8Encode_toList.symm
  rw [bytes, h, List.utf8Encode, List.data_toByteArray]

theorem bytes_injective : Function.Injective bytes := by
  intro s t h
  exact String.toByteArray_inj.1 (ByteArray.ext (Array.toList_inj.1 h))

theorem utf8EncodeChar_ascii {c : Char} (h : c.toNat < 128) :
    String.utf8EncodeChar c = [UInt8.ofNat c.toNat] := by
  have hle : c.val.toNat ≤ 127 := Nat.le_of_lt_succ h
  simp only [String.utf8EncodeChar]
  rw [if_pos hle]
  rfl

theorem mem_bytes {s : String} {c : Char} {b : UInt8} (h : c ∈ s.toList)
    (hb : b ∈ String.utf8EncodeChar c) : b ∈ bytes s := by
  rw [bytes_eq_flatMap]
  exact List.mem_flatMap.2 ⟨c, h, hb⟩

theorem validateLabel_bytes {label : String} (h : validateLabel label = .ok ()) :
    label ≠ "" ∧ ∀ b ∈ bytes label, okByte b = true := by
  simp only [validateLabel] at h
  split at h
  · cases h
  · rename_i hlen
    split at h
    · cases h
    · split at h
      · cases h
      · rename_i hall
        refine ⟨?_, by simpa using hall⟩
        rintro rfl
        exact hlen (Or.inl (by decide))

theorem validateLabel_ok {label : String} (h : validateLabel label = .ok ()) :
    label ≠ "" ∧ '.' ∉ label.toList := by
  obtain ⟨hne, hok⟩ := validateLabel_bytes h
  refine ⟨hne, fun hdot => ?_⟩
  exact absurd (hok 46 (mem_bytes hdot (by decide))) (by decide)

theorem validateLabel_noColon {label : String} (h : validateLabel label = .ok ()) :
    ':' ∉ label.toList := by
  intro hcolon
  exact absurd ((validateLabel_bytes h).2 58 (mem_bytes hcolon (by decide))) (by decide)

/-! ## `label_of` inverts `fqdn` -/

theorem stripSuffix_eq_some {s suffix label : String} :
    stripSuffix s suffix = some label ↔ s = label ++ suffix := by
  have hlen : ∀ l : List Char, (l ++ suffix.toList).length - suffix.toList.length = l.length := by
    intro l; simp
  unfold stripSuffix
  constructor
  · intro h
    split at h
    · rename_i hs
      obtain ⟨pre, hpre⟩ := hs
      simp only [Option.some.injEq] at h
      rw [String.length, String.length, ← hpre, hlen, List.take_left] at h
      rw [← String.toList_inj, ← hpre, String.toList_append, ← h, String.toList_ofList]
    · cases h
  · rintro rfl
    rw [if_pos (by rw [String.toList_append]; exact List.suffix_append _ _)]
    rw [String.length, String.length, String.toList_append, hlen, List.take_left, String.ofList_toList]

/-- **`label_of`** answers `label` for a name iff the name is the label's full name and the label is
valid. -/
theorem labelOf_eq_some {domain name label : String} :
    labelOf domain name = some label ↔ name = fqdn domain label ∧ validateLabel label = .ok () := by
  unfold labelOf
  constructor
  · intro h
    split at h
    · cases h
    · rename_i l hl
      split at h
      · cases h
      · split at h
        · rename_i hok
          simp only [Option.some.injEq] at h
          subst h
          refine ⟨stripSuffix_eq_some.1 hl, ?_⟩
          cases hv : validateLabel l with
          | ok u => rfl
          | error e => simp [hv, Except.isOk, Except.toBool] at hok
        · cases h
  · rintro ⟨rfl, hv⟩
    have hs : stripSuffix (fqdn domain label) ("." ++ domain) = some label :=
      stripSuffix_eq_some.2 rfl
    obtain ⟨hne, hdot⟩ := validateLabel_ok hv
    simp [hs, hne, hdot, hv, Except.isOk, Except.toBool]

theorem fqdn_injective (domain : String) : Function.Injective (fqdn domain) := by
  intro a b h
  exact (String.append_left_inj _).1 h

theorem labelOf_fqdn {domain label l : String} (h : labelOf domain (fqdn domain label) = some l) :
    l = label :=
  (fqdn_injective domain (labelOf_eq_some.1 h).1).symm

example : labelOf "d.io" "my-app.d.io" = some "my-app" ∧ labelOf "d.io" "a.b.d.io" = none ∧
    labelOf "d.io" "www.d.io" = none := by decide

/-! ## Lower case -/

theorem toAsciiLowercase_append (a b : String) :
    toAsciiLowercase (a ++ b) = toAsciiLowercase a ++ toAsciiLowercase b := by
  simp [toAsciiLowercase]

theorem toAsciiLowercase_eq_self {s : String} :
    toAsciiLowercase s = s ↔ ∀ c ∈ s.toList, c.toLower = c := by
  have hmap : s.toList.map Char.toLower = s.toList ↔ s.toList.map Char.toLower = s.toList.map id := by
    rw [List.map_id]
  rw [toAsciiLowercase, ← String.toList_inj, String.toList_ofList, hmap, List.map_inj_left]
  rfl

theorem toLower_of_not_upper {c : Char} (h : ¬ (65 ≤ c.toNat ∧ c.toNat ≤ 90)) : c.toLower = c := by
  refine dif_neg fun hupper => h ?_
  rwa [ge_iff_le, UInt32.le_iff_toNat_le, UInt32.le_iff_toNat_le] at hupper

theorem toNat_toLower {c : Char} (h : 65 ≤ c.toNat ∧ c.toNat ≤ 90) : c.toLower.toNat = c.toNat + 32 := by
  have hupper : 'A'.val ≤ c.val ∧ c.val ≤ 'Z'.val := by
    rw [UInt32.le_iff_toNat_le, UInt32.le_iff_toNat_le]
    exact h
  have hval : c.toLower.val = c.val + ('a'.val - 'A'.val) := congrArg Char.val (dif_pos hupper)
  have hdiff : ('a'.val - 'A'.val).toNat = 32 := rfl
  have hnat : c.toNat = c.val.toNat := rfl
  rw [← Char.toNat_val, hval, UInt32.toNat_add, hdiff]
  omega

/-- A character is its own lower case, or a letter of the upper range. -/
theorem toLower_cases (c : Char) :
    c.toLower = c ∨ (65 ≤ c.toNat ∧ c.toNat ≤ 90 ∧ c.toLower.toNat = c.toNat + 32) := by
  by_cases h : 65 ≤ c.toNat ∧ c.toNat ≤ 90
  · exact .inr ⟨h.1, h.2, toNat_toLower h⟩
  · exact .inl (toLower_of_not_upper h)

theorem toLower_toLower (c : Char) : c.toLower.toLower = c.toLower := by
  rcases toLower_cases c with h | ⟨hlo, hhi, hlow⟩
  · rw [h, h]
  · exact toLower_of_not_upper (by omega)

theorem toAsciiLowercase_idem (s : String) :
    toAsciiLowercase (toAsciiLowercase s) = toAsciiLowercase s := by
  rw [toAsciiLowercase_eq_self]
  intro c hc
  rw [toAsciiLowercase, String.toList_ofList] at hc
  obtain ⟨d, -, rfl⟩ := List.mem_map.1 hc
  exact toLower_toLower d

/-- An upper case letter is no byte of a label. -/
theorem okByte_upper {c : Char} (h : c.toLower ≠ c) :
    ∃ b ∈ String.utf8EncodeChar c, okByte b = false := by
  obtain ⟨hlo, hhi, -⟩ := (toLower_cases c).resolve_left h
  have hbyte : ∀ n < 91, 65 ≤ n → okByte (UInt8.ofNat n) = false := by decide
  refine ⟨UInt8.ofNat c.toNat, ?_, hbyte _ (by omega) hlo⟩
  rw [utf8EncodeChar_ascii (by omega)]
  exact List.mem_singleton_self _

/-- A valid label is in lower case. -/
theorem toAsciiLowercase_label {label : String} (h : validateLabel label = .ok ()) :
    toAsciiLowercase label = label := by
  rw [toAsciiLowercase_eq_self]
  intro c hc
  by_contra hne
  obtain ⟨b, hb, hbad⟩ := okByte_upper hne
  rw [(validateLabel_bytes h).2 b (mem_bytes hc hb)] at hbad
  cases hbad

theorem toAsciiLowercase_fqdn (domain label : String) :
    toAsciiLowercase (fqdn domain label) = fqdn (toAsciiLowercase domain) (toAsciiLowercase label) := by
  rw [fqdn, toAsciiLowercase_append, toAsciiLowercase_append]
  rfl

end EtherTunnel
