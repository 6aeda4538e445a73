import EtherTunnel.Registry.Schema

/-!
# The license cache

| here | there |
| --- | --- |
| `LicenseRow`, `LicenseStatus` | a row of `license_validation` (`polar.rs:332-344`, `:383`); `status` only ever holds `"granted"` or `"not_licensed"` |
| `LicenseCache` | the table, `key_hash` its PRIMARY KEY (`polar.rs:360-399`) |
| `get`, `upsert`, `sweepNegative`, `setActivation` | `polar.rs:401`, `:452`, `:480`, `:489` |
| `CustomerCap`, `capForCustomer` | `polar.rs:353`, `:425` |

Each method takes the connection's lock, so it is one atomic step on the table. `get_upsert`,
`get_sweepNegative` and `get_setActivation` say what a later read sees.
-/

namespace EtherTunnel

inductive LicenseStatus where
  | granted
  | notLicensed
deriving DecidableEq

structure LicenseRow where
  keyHash : List UInt8
  customerId : String
  benefitId : String
  maxTunnels : Option Int
  status : LicenseStatus
  activationId : Option String
  validatedAt : Int
deriving DecidableEq

structure LicenseCache where
  rows : List LicenseRow
  key : (rows.map (·.keyHash)).Nodup

structure CustomerCap where
  rows : Int
  maxTunnels : Option Int
deriving DecidableEq

namespace LicenseCache

@[ext] theorem ext' {a b : LicenseCache} (h : a.rows = b.rows) : a = b := by
  cases a; cases b; simp_all

instance : DecidableEq LicenseCache := fun a b =>
  decidable_of_iff (a.rows = b.rows) ⟨ext', fun h => h ▸ rfl⟩

def empty : LicenseCache := ⟨[], by simp⟩

variable (cache : LicenseCache)

def get (keyHash : List UInt8) : Option LicenseRow := cache.rows.find? (·.keyHash == keyHash)

/-- `ON CONFLICT(key_hash) DO UPDATE`: everything is overwritten but the activation id, which is
`COALESCE(excluded.activation_id, license_validation.activation_id)`. -/
def overwrite (row old : LicenseRow) : LicenseRow :=
  { row with activationId := row.activationId.or old.activationId }

theorem map_keyHash {f : LicenseRow → LicenseRow} (hf : ∀ r ∈ cache.rows, (f r).keyHash = r.keyHash) :
    ((cache.rows.map f).map (·.keyHash)).Nodup := by
  rw [List.map_map, List.map_congr_left (g := (·.keyHash)) hf]
  exact cache.key

def upsert (row : LicenseRow) : LicenseCache :=
  if h : row.keyHash ∈ cache.rows.map (·.keyHash) then
    { rows := cache.rows.map fun r => if r.keyHash = row.keyHash then overwrite row r else r
      key := cache.map_keyHash fun r _ => by split <;> simp_all [overwrite] }
  else { rows := cache.rows ++ [row], key := nodup_map_concat cache.key h }

/-- `DELETE … WHERE customer_id = '' AND validated_at < older_than`. -/
def sweepNegative (olderThan : Int) : LicenseCache where
  rows := cache.rows.filter fun r => !(r.customerId == "" && decide (r.validatedAt < olderThan))
  key := nodup_map_filter _ cache.key

/-- `UPDATE … SET activation_id = ? WHERE key_hash = ?`. -/
def setActivation (keyHash : List UInt8) (activationId : Option String) : LicenseCache where
  rows := cache.rows.map fun r =>
    if r.keyHash = keyHash then { r with activationId := activationId } else r
  key := cache.map_keyHash fun r _ => by split <;> rfl

/-- The rows of one customer. -/
def rowsOf (customerId : String) : List LicenseRow := cache.rows.filter (·.customerId == customerId)

/-- `CASE WHEN status = 'granted' AND max_tunnels IS NOT NULL AND validated_at >= min AND
validated_at <= now THEN max_tunnels END`. -/
def qualifyingCap (minValidatedAt now : Int) (r : LicenseRow) : Option Int :=
  if r.status = .granted ∧ minValidatedAt ≤ r.validatedAt ∧ r.validatedAt ≤ now then r.maxTunnels
  else none

def capForCustomer (customerId : String) (minValidatedAt now : Int) : CustomerCap where
  rows := (cache.rowsOf customerId).length
  maxTunnels := ((cache.rowsOf customerId).filterMap (qualifyingCap minValidatedAt now)).max?

/-! ## What a read sees -/

section reads

variable {cache} {k k' : List UInt8} {r row : LicenseRow}

theorem get_eq_some : cache.get k = some r ↔ r ∈ cache.rows ∧ r.keyHash = k := by
  constructor
  · intro h
    exact ⟨List.mem_of_find?_eq_some h, by simpa using List.find?_some h⟩
  · rintro ⟨hr, rfl⟩
    cases hf : cache.rows.find? (·.keyHash == r.keyHash) with
    | none => exact absurd (List.find?_eq_none.1 hf r hr) (by simp)
    | some r' =>
      have hk : r'.keyHash = r.keyHash := by simpa using List.find?_some hf
      rw [get, hf, List.inj_on_of_nodup_map cache.key (List.mem_of_find?_eq_some hf) hr hk]

theorem mem_rows_iff : r ∈ cache.rows ↔ cache.get r.keyHash = some r := by
  rw [get_eq_some]; simp

theorem keyHash_of_get (h : cache.get k = some r) : r.keyHash = k := (get_eq_some.1 h).2

theorem get_eq_none : cache.get k = none ↔ k ∉ cache.rows.map (·.keyHash) := by
  simp [get]

/-- Reads after a row-wise update that keeps the key. -/
theorem find?_map {f : LicenseRow → LicenseRow} (hf : ∀ r, (f r).keyHash = r.keyHash)
    (l : List LicenseRow) :
    (l.map f).find? (·.keyHash == k) = (l.find? (·.keyHash == k)).map f := by
  rw [List.find?_map]
  simp only [Function.comp_def, hf]

theorem get_upsert : (cache.upsert row).get k =
    if k = row.keyHash then
      some (match cache.get k with
        | some old => overwrite row old
        | none => row)
    else cache.get k := by
  unfold upsert
  split
  · rename_i hmem
    have hf : ∀ r : LicenseRow,
        (if r.keyHash = row.keyHash then overwrite row r else r).keyHash = r.keyHash := by
      intro r; split <;> simp_all [overwrite]
    simp only [get, find?_map hf]
    cases hk : cache.rows.find? (·.keyHash == k) with
    | none =>
      have hne : k ≠ row.keyHash := by
        rintro rfl; exact get_eq_none.1 hk hmem
      simp [hne]
    | some old =>
      have hold : old.keyHash = k := keyHash_of_get hk
      by_cases he : k = row.keyHash <;> simp [hold, he]
  · rename_i hmem
    simp only [get, List.find?_append, List.find?_cons, List.find?_nil]
    by_cases he : k = row.keyHash
    · subst he
      have hnone : cache.rows.find? (·.keyHash == row.keyHash) = none := get_eq_none.2 hmem
      simp [hnone]
    · have : (row.keyHash == k) = false := by simpa using fun e => he e.symm
      simp [he, this]

theorem get_setActivation {a : Option String} : (cache.setActivation k' a).get k =
    if k = k' then (cache.get k).map fun r => { r with activationId := a } else cache.get k := by
  have hf : ∀ r : LicenseRow,
      (if r.keyHash = k' then { r with activationId := a } else r).keyHash = r.keyHash := by
    intro r; split <;> rfl
  simp only [get, setActivation, find?_map hf]
  cases hk : cache.rows.find? (·.keyHash == k) with
  | none => simp
  | some old =>
    have hold : old.keyHash = k := keyHash_of_get hk
    by_cases he : k = k' <;> simp [hold, he]

theorem get_sweepNegative {olderThan : Int} : (cache.sweepNegative olderThan).get k = some r ↔
    cache.get k = some r ∧ ¬ (r.customerId = "" ∧ r.validatedAt < olderThan) := by
  rw [get_eq_some, get_eq_some, sweepNegative, List.mem_filter]
  simp only [Bool.not_eq_true', Bool.and_eq_false_iff, beq_eq_false_iff_ne, decide_eq_false_iff_not]
  constructor
  · rintro ⟨⟨hr, hk⟩, rfl⟩; exact ⟨⟨hr, rfl⟩, fun hn => hk.elim (· hn.1) (· hn.2)⟩
  · rintro ⟨⟨hr, rfl⟩, hn⟩; exact ⟨⟨hr, by by_cases h : r.customerId = "" <;> simp_all⟩, rfl⟩

/-! ## The customer's cap -/

theorem mem_rowsOf {c : String} : r ∈ cache.rowsOf c ↔ r ∈ cache.rows ∧ r.customerId = c := by
  simp [rowsOf]

theorem capForCustomer_rows {c : String} {lo now : Int} :
    (cache.capForCustomer c lo now).rows = 0 ↔ ∀ r ∈ cache.rows, r.customerId ≠ c := by
  simp [capForCustomer, rowsOf, List.filter_eq_nil_iff]

theorem qualifyingCap_eq_some {lo now m : Int} : qualifyingCap lo now r = some m ↔
    (r.status = .granted ∧ lo ≤ r.validatedAt ∧ r.validatedAt ≤ now) ∧ r.maxTunnels = some m := by
  unfold qualifyingCap
  split <;> simp_all

/-- `MAX` is attained by a qualifying row of the customer and bounds all of them. -/
theorem capForCustomer_max {c : String} {lo now m : Int} :
    (cache.capForCustomer c lo now).maxTunnels = some m ↔
      (∃ r ∈ cache.rows, r.customerId = c ∧ qualifyingCap lo now r = some m) ∧
      ∀ r ∈ cache.rows, r.customerId = c → ∀ m', qualifyingCap lo now r = some m' → m' ≤ m := by
  rw [capForCustomer, List.max?_eq_some_iff]
  simp only [List.mem_filterMap, mem_rowsOf]
  constructor
  · rintro ⟨⟨r, ⟨hr, hc⟩, hq⟩, hle⟩
    exact ⟨⟨r, hr, hc, hq⟩, fun r' hr' hc' m' hm' => hle m' ⟨r', ⟨hr', hc'⟩, hm'⟩⟩
  · rintro ⟨⟨r, hr, hc, hq⟩, hle⟩
    exact ⟨⟨r, ⟨hr, hc⟩, hq⟩, fun m' ⟨r', ⟨hr', hc'⟩, hm'⟩ => hle r' hr' hc' m' hm'⟩

end reads

end LicenseCache

end EtherTunnel
