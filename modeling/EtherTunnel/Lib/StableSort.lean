import Mathlib.Data.List.Sort

/-!
# Keeping the first `n` in a stable order

A quota that keeps the `n` smallest entries sorts a list and cuts it. What a second, tighter cut finds
afterwards depends on sorting *what is left*; since the sort is stable, sorting commutes with
filtering, so the second cut continues where the first one ended (`past_filter_first`).
-/

namespace StableSort

variable {α β : Type} (r : α → α → Prop) [DecidableRel r] [Std.Total r] [IsTrans α r]

/-- The entries past the first `n`. -/
def past (n : Nat) (l : List α) : List α := (l.insertionSort r).drop n

/-- The first `n` entries. -/
def first (n : Nat) (l : List α) : List α := (l.insertionSort r).take n

omit [Std.Total r] in
theorem filter_orderedInsert (p : α → Bool) (a : α) : ∀ {l : List α}, l.Pairwise r →
    (l.orderedInsert r a).filter p =
      if p a then (l.filter p).orderedInsert r a else l.filter p
  | [], _ => by by_cases ha : p a <;> simp [ha]
  | b :: l, h => by
    have ih := filter_orderedInsert p a h.of_cons
    by_cases hab : r a b
    · rw [List.orderedInsert_cons_of_le r l hab, List.filter_cons]
      split
      · -- `a` stays in front: what is left of `b :: l` is above `b`, hence above `a`
        symm
        cases hf : (b :: l).filter p with
        | nil => rfl
        | cons c cs =>
          have hc : c ∈ b :: l := List.mem_of_mem_filter (hf ▸ List.mem_cons_self)
          have hac : r a c := by
            rcases List.mem_cons.1 hc with rfl | hc
            · exact hab
            · exact trans_of r hab (List.rel_of_pairwise_cons h hc)
          exact List.orderedInsert_cons_of_le r cs hac
      · rfl
    · rw [List.orderedInsert_of_not_le r l hab, List.filter_cons, List.filter_cons, ih]
      by_cases ha : p a <;> by_cases hb : p b <;> simp [ha, hb, hab]

/-- **Sorting commutes with filtering.** -/
theorem filter_insertionSort (p : α → Bool) : ∀ l : List α,
    (l.insertionSort r).filter p = (l.filter p).insertionSort r
  | [] => rfl
  | a :: l => by
    rw [List.insertionSort_cons, filter_orderedInsert r p a (List.pairwise_insertionSort r l),
      filter_insertionSort p l, List.filter_cons]
    split <;> rfl

omit [Std.Total r] [IsTrans α r] in
theorem first_append_past (n : Nat) (l : List α) : first r n l ++ past r n l = l.insertionSort r :=
  List.take_append_drop n _

omit [Std.Total r] [IsTrans α r] in
theorem mem_of_mem_past {n : Nat} {l : List α} {x : α} (h : x ∈ past r n l) : x ∈ l :=
  (List.mem_insertionSort r).1 (List.mem_of_mem_drop h)

omit [Std.Total r] [IsTrans α r] in
theorem mem_of_mem_first {n : Nat} {l : List α} {x : α} (h : x ∈ first r n l) : x ∈ l :=
  (List.mem_insertionSort r).1 (List.mem_of_mem_take h)

section keys

variable {r} {f : α → β} {l : List α}

omit [Std.Total r] [IsTrans α r] in
theorem nodup_map_sort (hf : (l.map f).Nodup) : ((l.insertionSort r).map f).Nodup :=
  ((List.perm_insertionSort r l).map f).nodup_iff.2 hf

omit [Std.Total r] [IsTrans α r] in
/-- No entry past the cut shares its key with one before it. -/
theorem first_past_disjoint (hf : (l.map f).Nodup) {n : Nat} {x y : α} (hx : x ∈ first r n l)
    (hy : y ∈ past r n l) : f x ≠ f y := by
  have hnd := nodup_map_sort (r := r) hf
  rw [← first_append_past r n l, List.map_append, List.nodup_append] at hnd
  exact hnd.2.2 _ (List.mem_map_of_mem hx) _ (List.mem_map_of_mem hy)

/-- What is left when everything past the first cut is removed, by key, sorts to the first part. -/
theorem sort_filter_first [DecidableEq β] (hf : (l.map f).Nodup) (n : Nat) :
    (l.filter fun x => f x ∉ (past r n l).map f).insertionSort r = first r n l := by
  rw [← filter_insertionSort]
  conv_lhs => rw [← first_append_past r n l]
  rw [List.filter_append]
  have h1 : (first r n l).filter (fun x => f x ∉ (past r n l).map f) = first r n l := by
    refine List.filter_eq_self.2 fun x hx => ?_
    simp only [List.mem_map, not_exists, not_and, decide_eq_true_eq]
    exact fun y hy he => first_past_disjoint hf hx hy he.symm
  have h2 : (past r n l).filter (fun x => f x ∉ (past r n l).map f) = [] := by
    refine List.filter_eq_nil_iff.2 fun x hx => ?_
    simpa using ⟨x, hx, rfl⟩
  rw [h1, h2, List.append_nil]

/-- **Two cuts.** A tighter cut after a looser one reaches exactly what the tighter one alone
reaches. -/
theorem mem_past_iff [DecidableEq β] (hf : (l.map f).Nodup) {m n : Nat} (h : m ≤ n) {x : α} :
    x ∈ past r m l ↔
      x ∈ past r n l ∨ x ∈ past r m (l.filter fun x => f x ∉ (past r n l).map f) := by
  have hsplit : past r m l = (first r n l).drop m ++ past r n l := by
    rw [past, ← first_append_past r n l, List.drop_append]
    congr 1
    rcases Nat.lt_or_ge (l.insertionSort r).length n with hlt | hge
    · have : past r n l = [] := by
        rw [past, List.drop_eq_nil_of_le (by omega)]
      rw [this, List.drop_nil]
    · have hlen : (first r n l).length = n := by
        rw [first, List.length_take]; omega
      rw [hlen, Nat.sub_eq_zero_of_le h, List.drop_zero]
  have hcut : past r m (l.filter fun x => f x ∉ (past r n l).map f) = (first r n l).drop m := by
    rw [past, sort_filter_first hf n]
  rw [hcut, hsplit, List.mem_append, or_comm]

end keys

end StableSort
