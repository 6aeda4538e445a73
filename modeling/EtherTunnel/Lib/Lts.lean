import Mathlib.Data.List.Basic

/-!
# Schedules of a partial step function

A system is a step function `step : σ → α → Option σ`; `none` means that the action is not enabled
in the state. A *schedule* is a list of actions, a *run* a schedule all of whose actions are
enabled. Three notions are enough for safety arguments:

* `run`      — where a schedule leads, if every action is enabled (`trace` is the way there);
* `Always P` — `P` holds in every state the schedule goes through, the first and last included;
* `Steps G`  — every action of the schedule is taken in a state where `G` allows it.

`run_inv` is the invariant rule (one step preserves, so a run preserves); `always_iff_steps` turns a
property of states into a condition on steps; `cause_of_run` finds the step that brought a property about.
-/

namespace Lts

universe u v

variable {σ : Type u} {α : Type v} (step : σ → α → Option σ)

/-- Execute a schedule; `none` as soon as an action is not enabled. -/
def run : σ → List α → Option σ
  | s, [] => some s
  | s, a :: as => (step s a).bind fun s' => run s' as

/-- The actions of a schedule, each with the state it is taken in. -/
def trace : σ → List α → List (σ × α)
  | _, [] => []
  | s, a :: as => (s, a) :: (step s a).elim [] fun s' => trace s' as

/-- `P` holds in every state the schedule goes through. -/
def Always (P : σ → Prop) : σ → List α → Prop
  | s, [] => P s
  | s, a :: as => P s ∧ ∀ s' ∈ step s a, Always P s' as

/-- Every action of the schedule is taken in a state where `G` allows it. -/
def Steps (G : σ → α → Prop) : σ → List α → Prop
  | _, [] => True
  | s, a :: as => G s a ∧ ∀ s' ∈ step s a, Steps G s' as

@[simp] theorem run_nil (s : σ) : run step s [] = some s := rfl

theorem run_cons_eq_some {s s' : σ} {a : α} {as : List α} :
    run step s (a :: as) = some s' ↔ ∃ m, step s a = some m ∧ run step m as = some s' := by
  simp only [run, Option.bind_eq_some_iff]

theorem run_append {s s' : σ} {as bs : List α} :
    run step s (as ++ bs) = some s' ↔ ∃ m, run step s as = some m ∧ run step m bs = some s' := by
  induction as generalizing s with
  | nil => simp
  | cons a as ih =>
    simp only [List.cons_append, run_cons_eq_some, ih]
    constructor
    · rintro ⟨m, hm, k, hk, h⟩; exact ⟨k, ⟨m, hm, hk⟩, h⟩
    · rintro ⟨k, ⟨m, hm, hk⟩, h⟩; exact ⟨m, hm, k, hk, h⟩

theorem map_snd_trace : ∀ {s s' : σ} {as : List α}, run step s as = some s' →
    (trace step s as).map (·.2) = as
  | _, _, [], _ => rfl
  | s, s', a :: as, h => by
    obtain ⟨m, hm, hr⟩ := (run_cons_eq_some step).1 h
    simp only [trace, hm, Option.elim_some, List.map_cons, map_snd_trace hr]

/-- The way to a step of the trace. -/
theorem run_of_mem_trace : ∀ {s : σ} {as : List α} {p : σ × α}, p ∈ trace step s as →
    ∃ before, run step s before = some p.1 ∧ ∀ q ∈ trace step s before, q ∈ trace step s as
  | _, [], _, h => by cases h
  | s, a :: as, p, h => by
    rcases List.mem_cons.1 h with rfl | h
    · exact ⟨[], rfl, by rintro q ⟨⟩⟩
    · cases hs : step s a with
      | none =>
        rw [hs] at h
        cases h
      | some m =>
        rw [hs] at h
        obtain ⟨before, hrun, hmem⟩ := run_of_mem_trace h
        refine ⟨a :: before, by rw [run, hs]; exact hrun, fun q hq => ?_⟩
        simp only [trace, hs, Option.elim_some, List.mem_cons] at hq ⊢
        exact hq.imp_right (hmem q)

instance decidableSteps (G : σ → α → Prop) [∀ s a, Decidable (G s a)] :
    ∀ (s : σ) (as : List α), Decidable (Steps step G s as)
  | _, [] => .isTrue trivial
  | s, a :: as =>
    match h : step s a with
    | none => decidable_of_iff (G s a) (by simp [Steps, h])
    | some s' =>
      have := decidableSteps G s' as
      decidable_of_iff (G s a ∧ Steps step G s' as) (by simp [Steps, h])

variable {step}

theorem Steps.and {G H : σ → α → Prop} : ∀ {s : σ} {as : List α}, Steps step G s as →
    Steps step H s as → Steps step (fun s a => G s a ∧ H s a) s as
  | _, [], _, _ => trivial
  | _, _ :: _, hg, hh => ⟨⟨hg.1, hh.1⟩, fun s' hs' => (hg.2 s' hs').and (hh.2 s' hs')⟩

/-- A condition on actions alone. -/
theorem steps_of_forall {P : α → Prop} : ∀ {s : σ} {as : List α}, (∀ a ∈ as, P a) →
    Steps step (fun _ a => P a) s as
  | _, [], _ => trivial
  | _, a :: _, h =>
    ⟨h a (by simp), fun _ _ => steps_of_forall fun b hb => h b (List.mem_cons_of_mem a hb)⟩

theorem Steps.left {G : σ → α → Prop} : ∀ {s : σ} {as bs : List α}, Steps step G s (as ++ bs) →
    Steps step G s as
  | _, [], _, _ => trivial
  | _, _ :: _, _, h => ⟨h.1, fun s' hs' => (h.2 s' hs').left⟩

theorem steps_append {G : σ → α → Prop} : ∀ {s m : σ} {as bs : List α}, Steps step G s (as ++ bs) →
    run step s as = some m → Steps step G m bs
  | s, m, [], bs, h, hr => by simp only [run_nil, Option.some.injEq] at hr; exact hr ▸ h
  | s, m, a :: as, bs, h, hr => by
    obtain ⟨k, hk, hr'⟩ := (run_cons_eq_some step).1 hr
    exact steps_append (h.2 k hk) hr'

/-- **Invariant rule.** An invariant that every allowed step preserves holds at the end of every
run all of whose steps are allowed. -/
theorem run_inv {I : σ → Prop} {G : σ → α → Prop}
    (hstep : ∀ s a s', I s → G s a → step s a = some s' → I s') :
    ∀ {s s' : σ} {as : List α}, I s → Steps step G s as → run step s as = some s' → I s'
  | s, s', [], h0, _, hr => by simp only [run_nil, Option.some.injEq] at hr; exact hr ▸ h0
  | s, s', a :: as, h0, hG, hr => by
    obtain ⟨m, hm, hr'⟩ := (run_cons_eq_some step).1 hr
    exact run_inv hstep (hstep s a m h0 hG.1 hm) (hG.2 m hm) hr'

/-- The invariant rule for conclusions about steps: what the invariant gives at one allowed step
holds at every step. -/
theorem steps_of_inv {I : σ → Prop} {G H : σ → α → Prop}
    (hstep : ∀ s a s', I s → G s a → step s a = some s' → I s')
    (hH : ∀ s a, I s → G s a → H s a) :
    ∀ {s : σ} {as : List α}, I s → Steps step G s as → Steps step H s as
  | _, [], _, _ => trivial
  | s, a :: _, h0, hG =>
    ⟨hH s a h0 hG.1, fun s' hs' => steps_of_inv hstep hH (hstep s a s' h0 hG.1 hs') (hG.2 s' hs')⟩

/-- The invariant rule for every state the schedule goes through. -/
theorem always_of_inv {I P : σ → Prop} {G : σ → α → Prop}
    (hstep : ∀ s a s', I s → G s a → step s a = some s' → I s') (hP : ∀ s, I s → P s) :
    ∀ {s : σ} {as : List α}, I s → Steps step G s as → Always step P s as
  | s, [], h0, _ => hP s h0
  | s, a :: _, h0, hG =>
    ⟨hP s h0, fun s' hs' => always_of_inv hstep hP (hstep s a s' h0 hG.1 hs') (hG.2 s' hs')⟩

theorem Always.head {P : σ → Prop} : ∀ {s : σ} {as : List α}, Always step P s as → P s
  | _, [], h => h
  | _, _ :: _, h => h.1

theorem Always.last {P : σ → Prop} : ∀ {s s' : σ} {as : List α}, Always step P s as →
    run step s as = some s' → P s'
  | _, _, [], h, hr => Option.some_inj.1 hr ▸ h
  | _, _, _ :: _, h, hr => by
    obtain ⟨m, hm, hr'⟩ := (run_cons_eq_some step).1 hr
    exact (h.2 m hm).last hr'

/-- A run to a state outside `P`. -/
theorem not_always {P : σ → Prop} {s s' : σ} {as : List α} (hr : run step s as = some s') (hP : ¬ P s') :
    ¬ Always step P s as :=
  fun h => hP (h.last hr)

/-- **States and steps.** When, among the states of an invariant, the steps that `G` allows are exactly the
enabled ones that keep `P`, a schedule stays in `P` iff all its steps are allowed. -/
theorem always_iff_steps_of_inv {I P : σ → Prop} {G : σ → α → Prop}
    (hinv : ∀ s a s', I s → step s a = some s' → I s')
    (hkeep : ∀ s a s', I s → P s → G s a → step s a = some s' → P s')
    (hneed : ∀ s a s', I s → P s → step s a = some s' → P s' → G s a)
    (hoff : ∀ s a, step s a = none → G s a) :
    ∀ {s : σ} {as : List α}, I s → P s → (Always step P s as ↔ Steps step G s as)
  | s, [], _, hp => iff_of_true hp trivial
  | s, a :: as, hi, hp => by
    cases hs : step s a with
    | none => simp [Always, Steps, hs, hp, hoff s a hs]
    | some m =>
      simp only [Always, Steps, hs, Option.mem_def, Option.some.injEq, forall_eq', hp, true_and]
      have him := hinv s a m hi hs
      constructor
      · intro h
        exact ⟨hneed s a m hi hp hs h.head,
          (always_iff_steps_of_inv hinv hkeep hneed hoff him h.head).1 h⟩
      · rintro ⟨hg, h⟩
        exact (always_iff_steps_of_inv hinv hkeep hneed hoff him (hkeep s a m hi hp hg hs)).2 h

theorem always_iff_steps {P : σ → Prop} {G : σ → α → Prop}
    (hkeep : ∀ s a s', P s → G s a → step s a = some s' → P s')
    (hneed : ∀ s a s', P s → step s a = some s' → P s' → G s a)
    (hoff : ∀ s a, step s a = none → G s a) {s : σ} {as : List α} (hp : P s) :
    Always step P s as ↔ Steps step G s as :=
  always_iff_steps_of_inv (I := fun _ => True) (fun _ _ _ _ _ => trivial)
    (fun s a s' _ => hkeep s a s') (fun s a s' _ => hneed s a s') hoff trivial hp

/-- **Causes.** When a step brings `P` about only through `C`, a run that ends in `P` began in it or took such
a step. -/
theorem cause_of_run {P : σ → Prop} {G C : σ → α → Prop}
    (hstep : ∀ s a s', G s a → step s a = some s' → P s' → P s ∨ C s a) :
    ∀ {s s' : σ} {as : List α}, Steps step G s as → run step s as = some s' → P s' →
      P s ∨ ∃ p ∈ trace step s as, C p.1 p.2
  | s, s', [], _, hr, hP => .inl (by simp only [run_nil, Option.some.injEq] at hr; exact hr ▸ hP)
  | s, s', a :: as, hG, hr, hP => by
    obtain ⟨m, hm, hr'⟩ := (run_cons_eq_some step).1 hr
    have htrace : trace step s (a :: as) = (s, a) :: trace step m as := by simp only [trace, hm, Option.elim_some]
    rw [htrace]
    rcases cause_of_run hstep (hG.2 m hm) hr' hP with hP | ⟨p, hp, hC⟩
    · rcases hstep s a m hG.1 hm hP with hP | hC
      · exact .inl hP
      · exact .inr ⟨(s, a), List.mem_cons_self, hC⟩
    · exact .inr ⟨p, List.mem_cons_of_mem _ hp, hC⟩

end Lts
