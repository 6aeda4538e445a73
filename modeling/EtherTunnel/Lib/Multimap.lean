import Mathlib.Data.List.Basic

/-!
# Multimaps

Keyed lines, several of which may share a key. What is read is the values of one key, in order
(`getAll`); the order between lines of different keys is not meant to matter. Each operation has one
lemma, which says what `getAll` sees after it as an `if`, so that `simp` can push reads through any
sequence of updates.
-/

structure Multimap (K V : Type) where
  lines : List (K × V)
deriving DecidableEq

namespace Multimap

variable {K V : Type} [DecidableEq K] (m : Multimap K V) (k : K)

/-- The values of a key, in the order of their lines. -/
def getAll : List V := (m.lines.filter (·.1 = k)).map Prod.snd

def get : Option V := (m.getAll k).head?

def contains : Bool := m.lines.any (·.1 = k)

def remove : Multimap K V := ⟨m.lines.filter (·.1 ≠ k)⟩

/-- The new value replaces all of the key's lines. -/
def insert (v : V) : Multimap K V := ⟨(m.remove k).lines ++ [(k, v)]⟩

def removeAll (ks : List K) : Multimap K V := ks.foldl remove m

variable {m k} {k' : K} {v : V}

theorem contains_iff_getAll : m.contains k = true ↔ m.getAll k ≠ [] := by
  simp [contains, getAll]

theorem contains_iff_mem : m.contains k = true ↔ ∃ l ∈ m.lines, l.1 = k := by
  simp [contains]

theorem getAll_of_not_contains (h : ¬ m.contains k = true) : m.getAll k = [] := by
  rwa [contains_iff_getAll, not_not] at h

@[simp] theorem getAll_remove : (m.remove k).getAll k' = if k' = k then [] else m.getAll k' := by
  unfold remove getAll
  rw [List.filter_filter]
  split
  · subst_vars
    simp
  · rename_i hne
    congr 1
    refine List.filter_congr fun l _ => ?_
    by_cases hl : l.1 = k' <;> simp [hl, hne]

@[simp] theorem getAll_insert :
    (m.insert k v).getAll k' = if k' = k then [v] else m.getAll k' := by
  have happ : (m.insert k v).getAll k' =
      (m.remove k).getAll k' ++ (Multimap.mk [(k, v)]).getAll k' := by
    simp [insert, getAll]
  rw [happ, getAll_remove]
  split
  · subst_vars
    simp [getAll]
  · rename_i hne
    simp [getAll, Ne.symm hne]

@[simp] theorem getAll_removeAll (ks : List K) (m : Multimap K V) :
    (m.removeAll ks).getAll k' = if k' ∈ ks then [] else m.getAll k' := by
  induction ks generalizing m with
  | nil => rfl
  | cons k ks ih =>
    rw [removeAll, List.foldl_cons, ← removeAll, ih, getAll_remove]
    by_cases hk : k' = k <;> by_cases hks : k' ∈ ks <;> simp [hk, hks]

end Multimap
