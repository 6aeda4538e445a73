import EtherTunnel.Lib.Lts

/-!
# Threads over one shared store

An interleaving is a schedule of atomic steps. Each step is taken by one thread, reads and writes
the shared store `σ` and that thread's own local state `τ`; or it is a step of the environment on
the shared store alone; or a new thread appears. Thread ids are list indices and never reused.

`step_inv` is the proof rule in the style of Owicki and Gries: a thread invariant `J i t s` must
survive the thread's own steps and may not be spoiled by the steps of the others.
-/

namespace Threads

universe u v w x

/-- The shared store and the local states of all threads started so far. -/
structure Sys (σ : Type u) (τ : Type v) where
  shared : σ
  threads : List τ

/-- One step of a schedule. -/
inductive Act (α : Type w) (ε : Type x) where
  | spawn
  | on (i : Nat) (a : α)
  | env (e : ε)
deriving DecidableEq

variable {σ : Type u} {τ : Type v} {α : Type w} {ε : Type x}

/-- The interleaving semantics of a thread step function and an environment step function. -/
def step (fresh : τ) (tstep : Nat → σ → τ → α → Option (σ × τ)) (estep : σ → ε → Option σ)
    (S : Sys σ τ) : Act α ε → Option (Sys σ τ)
  | .spawn => some { S with threads := S.threads ++ [fresh] }
  | .on i a =>
    match S.threads[i]? with
    | some t => (tstep i S.shared t a).map fun p => ⟨p.1, S.threads.set i p.2⟩
    | none => none
  | .env e => (estep S.shared e).map fun s => { S with shared := s }

variable {fresh : τ} {tstep : Nat → σ → τ → α → Option (σ × τ)} {estep : σ → ε → Option σ}

theorem step_on {S S' : Sys σ τ} {i : Nat} {a : α}
    (h : step fresh tstep estep S (.on i a) = some S') :
    ∃ t s' t', S.threads[i]? = some t ∧ tstep i S.shared t a = some (s', t') ∧
      S' = ⟨s', S.threads.set i t'⟩ := by
  simp only [step] at h
  split at h
  · rename_i t ht
    obtain ⟨⟨s', t'⟩, hp, rfl⟩ := Option.map_eq_some_iff.1 h
    exact ⟨t, s', t', ht, hp, rfl⟩
  · cases h

theorem step_env {S S' : Sys σ τ} {e : ε} (h : step fresh tstep estep S (.env e) = some S') :
    ∃ s', estep S.shared e = some s' ∧ S' = { S with shared := s' } := by
  obtain ⟨s', hs, rfl⟩ := Option.map_eq_some_iff.1 h
  exact ⟨s', hs, rfl⟩

/-- The local state of a thread after thread `i` moved to `t'`. -/
theorem getElem?_set_cases {l : List τ} {i j : Nat} {t t' u : τ} (hi : l[i]? = some t)
    (h : (l.set i t')[j]? = some u) : (j = i ∧ u = t') ∨ (j ≠ i ∧ l[j]? = some u) := by
  by_cases hij : j = i
  · subst hij
    have hlt : j < l.length := (List.getElem?_eq_some_iff.1 hi).1
    rw [List.getElem?_set_self hlt, Option.some.injEq] at h
    exact Or.inl ⟨rfl, h.symm⟩
  · rw [List.getElem?_set_ne (Ne.symm hij)] at h
    exact Or.inr ⟨hij, h⟩

/-- A thread that did not move. -/
theorem getElem?_set_other {l : List τ} {i j : Nat} {t' u : τ} (hij : j ≠ i) (h : l[j]? = some u) :
    (l.set i t')[j]? = some u := by
  rw [List.getElem?_set_ne (Ne.symm hij)]; exact h

/-- The thread that did move. -/
theorem getElem?_set_moved {l : List τ} {i : Nat} {t t' : τ} (hi : l[i]? = some t) :
    (l.set i t')[i]? = some t' :=
  List.getElem?_set_self (List.getElem?_eq_some_iff.1 hi).1

/-- A thread that was there before a new one appeared. -/
theorem getElem?_spawn_old {l : List τ} {j : Nat} {u : τ} (h : l[j]? = some u) :
    (l ++ [fresh])[j]? = some u := by
  rw [List.getElem?_append_left (List.getElem?_eq_some_iff.1 h).1]; exact h

theorem getElem?_spawn {l : List τ} {j : Nat} {u : τ} (h : (l ++ [fresh])[j]? = some u) :
    l[j]? = some u ∨ u = fresh := by
  by_cases hj : j < l.length
  · rw [List.getElem?_append_left hj] at h; exact Or.inl h
  · rw [List.getElem?_append_right (by omega)] at h
    have := List.mem_of_getElem? h
    exact Or.inr (by simpa using this)

/-! ## Counting threads -/

/-- The count of threads of some kind after one of them moved. -/
theorem countP_moved {l : List τ} {i : Nat} {t : τ} (p : τ → Bool) (t' : τ) (hi : l[i]? = some t) :
    (l.set i t').countP p + (if p t then 1 else 0) = l.countP p + (if p t' then 1 else 0) := by
  obtain ⟨hlt, rfl⟩ := List.getElem?_eq_some_iff.1 hi
  rw [List.countP_set hlt]
  by_cases ht : p l[i] = true
  · have hpos : 0 < l.countP p := List.countP_pos_iff.2 ⟨_, List.getElem_mem hlt, ht⟩
    rw [if_pos ht]
    omega
  · rw [if_neg ht]
    omega

theorem countP_spawn {l : List τ} {p : τ → Bool} (h : p fresh = false) :
    (l ++ [fresh]).countP p = l.countP p := by
  rw [List.countP_append, List.countP_singleton, if_neg (by simp [h]), Nat.add_zero]

/-- A kind of threads split in two. -/
theorem countP_le_add {p q r : τ → Bool} : ∀ {l : List τ},
    (∀ t ∈ l, p t = true → q t = true ∨ r t = true) → l.countP p ≤ l.countP q + l.countP r
  | [], _ => Nat.zero_le _
  | t :: l, h => by
    have hrest : l.countP p ≤ l.countP q + l.countP r :=
      countP_le_add fun u hu => h u (List.mem_cons_of_mem _ hu)
    simp only [List.countP_cons]
    by_cases hp : p t = true
    · rcases h t List.mem_cons_self hp with hq | hr
      · rw [if_pos hp, if_pos hq]
        omega
      · rw [if_pos hp, if_pos hr]
        omega
    · rw [if_neg hp]
      omega

/-! ## A thread alone -/

/-- Thread `i`, alone, can go from `t` to `t'` and take the store from `s` to `s'`. -/
def Alone (tstep : Nat → σ → τ → α → Option (σ × τ)) (i : Nat) (s : σ) (t : τ) (s' : σ) (t' : τ) :
    Prop :=
  ∃ acts : List α, Lts.run (fun (p : σ × τ) a => tstep i p.1 p.2 a) (s, t) acts = some (s', t')

namespace Alone

variable {i : Nat} {s m s' : σ} {t u t' : τ}

theorem stop : Alone tstep i s t s t := ⟨[], rfl⟩

theorem step (a : α) (h : tstep i s t a = some (m, u)) (hrest : Alone tstep i m u s' t') :
    Alone tstep i s t s' t' := by
  obtain ⟨acts, hacts⟩ := hrest
  exact ⟨a :: acts, (Lts.run_cons_eq_some _).2 ⟨(m, u), h, hacts⟩⟩

theorem trans (h : Alone tstep i s t m u) (hrest : Alone tstep i m u s' t') :
    Alone tstep i s t s' t' := by
  obtain ⟨as, has⟩ := h
  obtain ⟨bs, hbs⟩ := hrest
  exact ⟨as ++ bs, (Lts.run_append _).2 ⟨(m, u), has, hbs⟩⟩

/-- What a thread can do alone it can do in a system, while nobody else moves. -/
theorem sys {S : Sys σ τ} (ht : S.threads[i]? = some t) (h : Alone tstep i S.shared t s' t') :
    ∃ acts : List α,
      Lts.run (Threads.step fresh tstep estep) S (acts.map (.on i)) =
        some ⟨s', S.threads.set i t'⟩ := by
  obtain ⟨acts, hacts⟩ := h
  refine ⟨acts, ?_⟩
  induction acts generalizing S t with
  | nil =>
    simp only [Lts.run_nil, Option.some.injEq, Prod.mk.injEq] at hacts
    obtain ⟨hs, rfl⟩ := hacts
    subst hs
    obtain ⟨hi, rfl⟩ := List.getElem?_eq_some_iff.1 ht
    rw [List.map_nil, Lts.run_nil, List.set_getElem_self]
  | cons a acts ih =>
    obtain ⟨⟨m, u⟩, hstep, hrest⟩ := (Lts.run_cons_eq_some _).1 hacts
    have hmid := ih (S := ⟨m, S.threads.set i u⟩) (getElem?_set_moved ht) hrest
    rw [List.map_cons, Lts.run_cons_eq_some]
    refine ⟨⟨m, S.threads.set i u⟩, ?_, ?_⟩
    · simp only [Threads.step, ht]
      rw [hstep]; rfl
    · rw [hmid, List.set_set]

end Alone

/-- A condition on the steps of threads. -/
def OnStep (P : Sys σ τ → τ → α → Prop) (S : Sys σ τ) : Act α ε → Prop
  | .on i a => ∀ t ∈ S.threads[i]?, P S t a
  | _ => True

instance (P : Sys σ τ → τ → α → Prop) [∀ S t a, Decidable (P S t a)] (S : Sys σ τ) :
    (act : Act α ε) → Decidable (OnStep P S act)
  | .spawn => .isTrue trivial
  | .on i a => inferInstanceAs (Decidable (∀ t ∈ S.threads[i]?, P S t a))
  | .env _ => .isTrue trivial

/-- Every thread satisfies `J`. -/
def All (J : Nat → τ → σ → Prop) (S : Sys σ τ) : Prop :=
  ∀ i t, S.threads[i]? = some t → J i t S.shared

/-- **Owicki–Gries step rule.** A shared invariant `I` and a thread invariant `J` survive a step of
the system when the moving thread re-establishes both and disturbs nobody else's `J`. -/
theorem step_inv {I : σ → Prop} {J : Nat → τ → σ → Prop} {G : Sys σ τ → Act α ε → Prop}
    {S S' : Sys σ τ} {a : Act α ε} (hI : I S.shared) (hJ : All J S) (hG : G S a)
    (hs : step fresh tstep estep S a = some S')
    (hfresh : ∀ i s, I s → J i fresh s)
    (hown : ∀ i a t s' t', G S (.on i a) → S.threads[i]? = some t → J i t S.shared →
      tstep i S.shared t a = some (s', t') → I s' ∧ J i t' s')
    (hothers : ∀ i a t s' t', G S (.on i a) → S.threads[i]? = some t → J i t S.shared →
      tstep i S.shared t a = some (s', t') →
      ∀ j u, j ≠ i → S.threads[j]? = some u → J j u S.shared → J j u s')
    (henv : ∀ e s', G S (.env e) → estep S.shared e = some s' →
      I s' ∧ ∀ j u, S.threads[j]? = some u → J j u S.shared → J j u s') :
    I S'.shared ∧ All J S' := by
  cases a with
  | spawn =>
    simp only [step, Option.some.injEq] at hs
    subst hs
    refine ⟨hI, fun j u hu => ?_⟩
    rcases getElem?_spawn hu with hu | rfl
    · exact hJ j u hu
    · exact hfresh j _ hI
  | on i a =>
    obtain ⟨t, s', t', ht, hst, rfl⟩ := step_on hs
    obtain ⟨hI', hJ'⟩ := hown i a t s' t' hG ht (hJ i t ht) hst
    refine ⟨hI', fun j u hu => ?_⟩
    rcases getElem?_set_cases ht hu with ⟨rfl, rfl⟩ | ⟨hji, hu⟩
    · exact hJ'
    · exact hothers i a t s' t' hG ht (hJ i t ht) hst j u hji hu (hJ j u hu)
  | env e =>
    obtain ⟨s', hs', rfl⟩ := step_env hs
    obtain ⟨hI', hJ'⟩ := henv e s' hG hs'
    exact ⟨hI', fun j u hu => hJ' j u hu (hJ j u hu)⟩

end Threads
