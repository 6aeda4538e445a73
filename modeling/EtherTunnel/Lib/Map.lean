import Mathlib.Data.Finmap

/-!
# Finite maps

A hash map or a keyed table as a `Finmap` with one value type. The first two lemmas say what a lookup
sees after a point update, as an `if`, so that `simp` can push lookups through any sequence of updates;
the others say what it sees in a map filled from a list, or of which a part is retained.
-/

abbrev Map (K V : Type) := Finmap fun _ : K => V

namespace Map

variable {K V : Type} [DecidableEq K] {m : Map K V} {k k' : K} {v : V}

@[simp] theorem lookup_insert_ite :
    Finmap.lookup k' (Finmap.insert k v m) = if k' = k then some v else Finmap.lookup k' m := by
  split
  · subst_vars; exact Finmap.lookup_insert m
  · exact Finmap.lookup_insert_of_ne m ‹_›

@[simp] theorem lookup_erase_ite :
    Finmap.lookup k' (Finmap.erase k m) = if k' = k then none else Finmap.lookup k' m := by
  split
  · subst_vars; exact Finmap.lookup_erase _ m
  · exact Finmap.lookup_erase_ne ‹_›

/-! ## Filling a map -/

section fill

variable {α : Type} {key : α → K} {val : α → V} {l : List α}

/-- Insert an entry for each element, a later one over an earlier one with its key. -/
def fill (key : α → K) (val : α → V) (m : Map K V) (l : List α) : Map K V :=
  l.foldl (fun m a => m.insert (key a) (val a)) m

theorem lookup_fill_of_notMem (hk : k ∉ l.map key) : (fill key val m l).lookup k = m.lookup k := by
  induction l generalizing m with
  | nil => rfl
  | cons a l ih =>
    rw [List.map_cons, List.mem_cons, not_or] at hk
    rw [fill, List.foldl_cons, ← fill, ih hk.2, lookup_insert_ite, if_neg hk.1]

/-- With distinct keys every entry is found. -/
theorem lookup_fill (hnodup : (l.map key).Nodup) {a : α} (ha : a ∈ l) :
    (fill key val m l).lookup (key a) = some (val a) := by
  induction l generalizing m with
  | nil => cases ha
  | cons b l ih =>
    rw [List.map_cons, List.nodup_cons] at hnodup
    rw [fill, List.foldl_cons, ← fill]
    rcases List.mem_cons.1 ha with rfl | ha
    · rw [lookup_fill_of_notMem hnodup.1, lookup_insert_ite, if_pos rfl]
    · exact ih hnodup.2 ha

/-- Nothing else is found. -/
theorem mem_of_lookup_fill (h : (fill key val (∅ : Map K V) l).lookup k = some v) : k ∈ l.map key := by
  by_contra hk
  rw [lookup_fill_of_notMem hk, Finmap.lookup_empty] at h
  cases h

end fill

/-! ## Retaining entries -/

section retain

variable {p : K → V → Bool}

/-- Keep the entries that pass. -/
def retain (m : Map K V) (p : K → V → Bool) : Map K V where
  entries := m.entries.filter fun e => p e.1 e.2
  nodupKeys := by
    obtain ⟨entries, h⟩ := m
    induction entries using Quotient.inductionOn with
    | h l => exact List.NodupKeys.sublist List.filter_sublist h

theorem lookup_retain : (m.retain p).lookup k = (m.lookup k).filter (p k) := by
  ext v
  rw [← Option.mem_def, Finmap.mem_lookup_iff, Option.filter_eq_some_iff, ← Option.mem_def,
    Finmap.mem_lookup_iff]
  exact Multiset.mem_filter

theorem keys_retain_subset : (m.retain p).keys ⊆ m.keys := by
  intro k hk
  rw [Finmap.mem_keys, ← Finmap.lookup_isSome, lookup_retain] at hk
  rw [Finmap.mem_keys, ← Finmap.lookup_isSome]
  exact Option.isSome_of_isSome_filter _ _ hk

theorem keys_insert : (Finmap.insert k v m).keys = insert k m.keys := by
  ext k'
  rw [Finset.mem_insert, Finmap.mem_keys, Finmap.mem_keys, Finmap.mem_insert]

end retain

end Map
