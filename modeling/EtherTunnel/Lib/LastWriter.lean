import EtherTunnel.Lib.Lts
import Mathlib.Data.List.Induction

/-!
# Last writer wins

A cell that is written and cleared over a history. A clearing names the values it is about; it does
nothing to a cell that holds another value. `value log` folds the history; `value_eq_some` says what it
is without the fold: the value of the latest write, if nothing after that write cleared it. A value
that was overwritten does not come back when the one that replaced it is cleared. `run_value` is the
use of it: a part of a system's state on which every step acts as an event is such a cell.
-/

namespace LastWriter

/-- What one entry of a history does to a cell. -/
inductive Event (V : Type) where
  | write (v : V)
  | clear (p : V → Bool)
  | keep

variable {V : Type}

def apply (cell : Option V) : Event V → Option V
  | .write v => some v
  | .clear p => cell.filter (!p ·)
  | .keep => cell

/-- The cell after a history, empty at first. -/
def value (log : List (Event V)) : Option V := log.foldl apply none

/-- The event neither overwrites nor clears the value. -/
def Event.Spares (v : V) : Event V → Prop
  | .write _ => False
  | .clear p => p v = false
  | .keep => True

theorem apply_eq_some {cell : Option V} {e : Event V} {v : V} :
    apply cell e = some v ↔ e = .write v ∨ cell = some v ∧ e.Spares v := by
  cases e with
  | write w => simp [apply, Event.Spares]
  | clear p => simp [apply, Event.Spares, Option.filter_eq_some_iff]
  | keep => simp [apply, Event.Spares]

theorem value_concat (log : List (Event V)) (e : Event V) :
    value (log ++ [e]) = apply (value log) e := by
  rw [value, List.foldl_append]; rfl

/-- **The latest write.** -/
theorem value_eq_some {log : List (Event V)} {v : V} :
    value log = some v ↔
      ∃ pre post, log = pre ++ .write v :: post ∧ ∀ e ∈ post, e.Spares v := by
  induction log using List.reverseRecOn with
  | nil => simp [value]
  | append_singleton log e ih =>
    rw [value_concat, apply_eq_some, ih]
    constructor
    · rintro (rfl | ⟨⟨pre, post, rfl, hpost⟩, hspare⟩)
      · exact ⟨log, [], rfl, by simp⟩
      · refine ⟨pre, post ++ [e], by simp, fun e' he' => ?_⟩
        rcases List.mem_append.1 he' with he' | he'
        · exact hpost e' he'
        · rw [List.mem_singleton.1 he']; exact hspare
    · rintro ⟨pre, post, hlog, hpost⟩
      rcases List.eq_nil_or_concat post with rfl | ⟨init, last, rfl⟩
      · exact Or.inl (List.singleton_inj.1 (List.append_inj' hlog rfl).2)
      · rw [List.concat_eq_append] at hlog hpost
        rw [← List.cons_append, ← List.append_assoc] at hlog
        obtain ⟨rfl, hlast⟩ := List.append_inj' hlog rfl
        refine Or.inr ⟨⟨pre, init, rfl, fun e' he' => hpost e' (List.mem_append_left _ he')⟩, ?_⟩
        rw [List.singleton_inj.1 hlast]
        exact hpost last (by simp)

/-- The latest write, in a history of anything that acts on the cell. -/
theorem value_map_eq_some {α : Type} {event : α → Event V} {log : List α} {v : V} :
    value (log.map event) = some v ↔
      ∃ pre a post, log = pre ++ a :: post ∧ event a = .write v ∧ ∀ b ∈ post, (event b).Spares v := by
  rw [value_eq_some]
  constructor
  · rintro ⟨pre, post, hlog, hpost⟩
    obtain ⟨pre', rest, rfl, rfl, hrest⟩ := List.map_eq_append_iff.1 hlog
    obtain ⟨a, post', rfl, ha, rfl⟩ := List.map_eq_cons_iff.1 hrest
    exact ⟨pre', a, post', rfl, ha, fun b hb => hpost _ (List.mem_map_of_mem hb)⟩
  · rintro ⟨pre, a, post, rfl, ha, hpost⟩
    refine ⟨pre.map event, post.map event, by simp [ha], fun e he => ?_⟩
    obtain ⟨b, hb, rfl⟩ := List.mem_map.1 he
    exact hpost b hb

/-- **A cell of a running system.** -/
theorem run_value {σ α : Type} {step : σ → α → Option σ} {f : σ → Option V}
    {event : σ × α → Event V} {G : σ → α → Prop}
    (hstep : ∀ s a s', G s a → step s a = some s' → f s' = apply (f s) (event (s, a))) :
    ∀ {s s' : σ} {as : List α}, Lts.Steps step G s as → Lts.run step s as = some s' →
      f s' = ((Lts.trace step s as).map event).foldl apply (f s)
  | s, s', [], _, hr => by cases hr; rfl
  | s, s', a :: as, hG, hr => by
    obtain ⟨m, hm, hr'⟩ := (Lts.run_cons_eq_some step).1 hr
    rw [run_value hstep (hG.2 m hm) hr', hstep s a m hG.1 hm]
    simp [Lts.trace, hm]

end LastWriter
