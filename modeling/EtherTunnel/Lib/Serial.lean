import EtherTunnel.Lib.Threads
import EtherTunnel.Lib.Txn

/-!
# Several processes on one database

Each process works through a list of jobs; a job is a program of statements (`Txn.Prog`) with the
failures it meets. A step is one statement of one process:

* outside a transaction a statement reads and writes the committed database;
* `begin_` takes the write lock and a private copy, `commit` publishes the copy, and a job that returns
  without committing drops it;
* a statement that opens a transaction, or changes the database outside one, waits until no other
  process has a transaction open; readers are never blocked.

`log` records the finished jobs in the order in which they returned. `apart_serial` is the sufficient
condition for that order to be a serial execution: whenever a process takes a step, the jobs other
processes are in the middle of have changed nothing yet, and the step changes nothing under them. What
such a job does next is then what it would do alone from the database the finished jobs leave (`Path`).
-/

namespace Txn

variable {σ ε ρ α β : Type}

/-! ## One statement at a time -/

/-- The program after its next statement; `none` when it has returned. -/
def tick : Prog σ ε α → Conn σ ε → Option (Prog σ ε α × Conn σ ε)
  | .ret _, _ => none
  | .stmt f k, c =>
    match c.fault with
    | some e => some (k (.error e), c.pop)
    | none =>
      match f c.view with
      | .ok (b, s) => some (k (.ok b), c.pop.write s)
      | .error e => some (k (.error e), c.pop)
  | .begin_ k, c =>
    match c.fault with
    | some e => some (k (.error e), c.pop)
    | none => some (k (.ok ()), { c.pop with tx := some c.db })
  | .commit k, c =>
    match c.fault with
    | some e => some (k (.error e), c.pop)
    | none => some (k (.ok ()), { c.pop with db := c.view, tx := none })

def Returned (p : Prog σ ε α) : Prop := ∃ a, p = .ret a

theorem exec_tick {p q : Prog σ ε α} {c d : Conn σ ε} (h : tick p c = some (q, d)) :
    exec p c = exec q d := by
  cases p with
  | ret a => cases h
  | stmt f k =>
    simp only [tick] at h
    simp only [exec]
    cases he : c.fault with
    | some e => rw [he] at h; cases h; rfl
    | none =>
      rw [he] at h
      dsimp only at h ⊢
      cases hf : f c.view with
      | ok r => rw [hf] at h; cases h; rfl
      | error e => rw [hf] at h; cases h; rfl
  | begin_ k =>
    simp only [tick] at h
    simp only [exec]
    cases he : c.fault with
    | some e => rw [he] at h; cases h; rfl
    | none => rw [he] at h; cases h; rfl
  | commit k =>
    simp only [tick] at h
    simp only [exec]
    cases he : c.fault with
    | some e => rw [he] at h; cases h; rfl
    | none => rw [he] at h; cases h; rfl

/-- Where the program `p`, run alone from `c`, comes to. -/
inductive Path (p : Prog σ ε α) (c : Conn σ ε) : Prog σ ε α → Conn σ ε → Prop where
  | start : Path p c p c
  | step {q q' : Prog σ ε α} {d d' : Conn σ ε} (h : Path p c q d) (ht : tick q d = some (q', d')) :
    Path p c q' d'

theorem Path.next {p q : Prog σ ε α} {c d : Conn σ ε} (h : Path p c q d) :
    Path p c ((tick q d).getD (q, d)).1 ((tick q d).getD (q, d)).2 := by
  cases ht : tick q d with
  | none => exact h
  | some r => exact h.step ht

theorem Path.exec {p q : Prog σ ε α} {c d : Conn σ ε} (h : Path p c q d) :
    Txn.exec p c = Txn.exec q d := by
  induction h with
  | start => rfl
  | step h ht ih => rw [ih, exec_tick ht]

/-! ## What a program lets others see -/

/-- `I` holds of the committed database at every point of the program, whichever statements fail. -/
def Sees (I : σ → Prop) : Prog σ ε α → σ → Option σ → Prop
  | .ret _, db, _ => I db
  | .stmt f k, db, tx =>
    I db ∧ (∀ e, Sees I (k (.error e)) db tx) ∧
      ∀ b s, f (tx.getD db) = .ok (b, s) →
        Sees I (k (.ok b)) (if tx.isSome then db else s) (tx.map fun _ => s)
  | .begin_ k, db, tx => I db ∧ (∀ e, Sees I (k (.error e)) db tx) ∧ Sees I (k (.ok ())) db (some db)
  | .commit k, db, tx => I db ∧ (∀ e, Sees I (k (.error e)) db tx) ∧ Sees I (k (.ok ())) (tx.getD db) none

section sees

variable {I : σ → Prop} {p q : Prog σ ε α} {c d : Conn σ ε}

theorem Sees.now {db : σ} {tx : Option σ} (h : Sees I p db tx) : I db := by
  cases p with
  | ret a => exact h
  | stmt f k => exact h.1
  | begin_ k => exact h.1
  | commit k => exact h.1

theorem Sees.tick (h : Sees I p c.db c.tx) (ht : tick p c = some (q, d)) : Sees I q d.db d.tx := by
  obtain ⟨db, tx, fs⟩ := c
  cases p with
  | ret a => cases ht
  | stmt f k =>
    simp only [Txn.tick] at ht
    split at ht
    · cases ht; exact h.2.1 _
    · split at ht
      · rename_i b s hf
        cases ht
        have hs := h.2.2 b s hf
        cases tx with
        | none => exact hs
        | some t => exact hs
      · cases ht; exact h.2.1 _
  | begin_ k =>
    simp only [Txn.tick] at ht
    split at ht
    · cases ht; exact h.2.1 _
    · cases ht; exact h.2.2
  | commit k =>
    simp only [Txn.tick] at ht
    split at ht
    · cases ht; exact h.2.1 _
    · cases ht; exact h.2.2

theorem Path.sees (h : Path p c q d) (hs : Sees I p c.db c.tx) : Sees I q d.db d.tx := by
  induction h with
  | start => exact hs
  | step h ht ih => exact ih.tick ht

variable {lift : ε → ρ} {db : σ} {tx : Option σ}

theorem sees_map {γ : Type} (f : α → γ) : ∀ {p : Prog σ ε α} {db : σ} {tx : Option σ},
    Sees I (p.map f) db tx ↔ Sees I p db tx
  | .ret _, _, _ => Iff.rfl
  | .stmt _ _, _, _ => and_congr_right fun _ => and_congr (forall_congr' fun _ => sees_map f)
    (forall_congr' fun _ => forall_congr' fun _ => imp_congr_right fun _ => sees_map f)
  | .begin_ _, _, _ => and_congr_right fun _ => and_congr (forall_congr' fun _ => sees_map f) (sees_map f)
  | .commit _, _, _ => and_congr_right fun _ => and_congr (forall_congr' fun _ => sees_map f) (sees_map f)

theorem sees_query (f : σ → β) (k : β → Prog σ ε (Except ρ α)) :
    Sees I (query lift f k) db tx ↔ I db ∧ Sees I (k (f (tx.getD db))) db tx := by
  cases tx <;> simp +contextual [query, tryStmt, Sees]

theorem sees_begin (k : Prog σ ε (Except ρ α)) :
    Sees I (begin lift k) db tx ↔ I db ∧ Sees I k db (some db) := by
  simp +contextual [begin, Sees]

theorem sees_commit (k : Prog σ ε (Except ρ α)) :
    Sees I (commit lift k) db tx ↔ I db ∧ Sees I k (tx.getD db) none := by
  simp +contextual [commit, Sees]

theorem sees_tryStmt_auto (f : σ → Except ε (β × σ)) (k : β → Prog σ ε (Except ρ α)) :
    Sees I (tryStmt lift f k) db none ↔ I db ∧ ∀ b s, f db = .ok (b, s) → Sees I (k b) s none := by
  simp +contextual [tryStmt, Sees]

theorem sees_write_tx (g : σ → β × σ) (k : β → Prog σ ε (Except ρ α)) (t : σ) :
    Sees I (tryStmt lift (fun s => .ok (g s)) k) db (some t) ↔
      I db ∧ Sees I (k (g t).1) db (some (g t).2) := by
  simp only [tryStmt, Sees, Option.getD_some, Option.isSome_some, if_true, Option.map_some,
    Except.ok.injEq]
  refine and_congr_right fun hI => ⟨fun h => h.2 _ _ rfl, fun h => ⟨fun _ => hI, fun b s hs => ?_⟩⟩
  rw [hs] at h; exact h

theorem sees_write_auto (g : σ → β × σ) (k : β → Prog σ ε (Except ρ α)) :
    Sees I (tryStmt lift (fun s => .ok (g s)) k) db none ↔
      I db ∧ Sees I (k (g db).1) (g db).2 none := by
  rw [sees_tryStmt_auto]
  refine and_congr_right fun _ => ⟨fun h => h _ _ rfl, fun h b s hs => ?_⟩
  rw [Except.ok.inj hs] at h; exact h

end sees

end Txn

/-! ## Processes -/

namespace Serial

open Txn

variable {σ ε α J : Type}

/-- A job that has been started: what is left of it, the private copy of its open transaction, the
failures it still meets, and whether it has changed the database. -/
structure Running (σ ε α J : Type) where
  job : J
  prog : Prog σ ε α
  tx : Option σ
  faults : List (Option ε)
  dirty : Bool

/-- A process: the job it is in, and the jobs still to be started. -/
structure Proc (σ ε α J : Type) where
  running : Option (Running σ ε α J)
  todo : List J

/-- The database, the processes, and the finished jobs with their results. -/
structure Sys (σ ε α J : Type) where
  db : σ
  procs : List (Proc σ ε α J)
  log : List (Nat × J × α)

/-- Every process is about to start its first job. -/
def start (db : σ) (jobs : List (List J)) : Sys σ ε α J := ⟨db, jobs.map fun js => ⟨none, js⟩, []⟩

namespace Running

/-- The process's connection while it is in the job. -/
def conn (r : Running σ ε α J) (db : σ) : Conn σ ε := ⟨db, r.tx, r.faults⟩

/-- What the next statement leaves. -/
def next (r : Running σ ε α J) (db : σ) : Prog σ ε α × Conn σ ε :=
  (tick r.prog (r.conn db)).getD (r.prog, r.conn db)

theorem next_cases (r : Running σ ε α J) (db : σ) :
    Returned (r.next db).1 ∨ tick r.prog (r.conn db) = some (r.next db) := by
  cases ht : tick r.prog (r.conn db) with
  | some q => rw [next, ht]; exact Or.inr rfl
  | none =>
    rw [next, ht]
    cases hp : r.prog with
    | ret a => exact Or.inl ⟨a, rfl⟩
    | stmt f k => rw [hp, tick] at ht; split at ht <;> (try split at ht) <;> cases ht
    | begin_ k => rw [hp, tick] at ht; split at ht <;> cases ht
    | commit k => rw [hp, tick] at ht; split at ht <;> cases ht

/-- The job after a statement. -/
def moved [DecidableEq σ] (r : Running σ ε α J) (db : σ) (q : Prog σ ε α) (d : Conn σ ε) :
    Running σ ε α J :=
  ⟨r.job, q, d.tx, d.faults, r.dirty || d.db ≠ db⟩

end Running

/-- The statement that leads from `c` to `d` needs the write lock: it opens a transaction, or changes
the database outside one. -/
def takesLock [DecidableEq σ] (c d : Conn σ ε) : Bool :=
  c.tx.isNone && (d.tx.isSome || d.db ≠ c.db)

def Proc.inTx (p : Proc σ ε α J) : Bool := p.running.any (·.tx.isSome)

/-- The processes other than `i`. -/
def Sys.others (S : Sys σ ε α J) (i : Nat) : List (Proc σ ε α J) := S.procs.eraseIdx i

/-- Process `i` goes on with `q` on the connection `d`, or is done with the job. -/
def Sys.settle [DecidableEq σ] (S : Sys σ ε α J) (i : Nat) (r : Running σ ε α J) (todo : List J)
    (q : Prog σ ε α) (d : Conn σ ε) : Sys σ ε α J :=
  match q with
  | .ret a => ⟨d.db, S.procs.set i ⟨none, todo⟩, S.log ++ [(i, r.job, a)]⟩
  | q => ⟨d.db, S.procs.set i ⟨some (r.moved S.db q d), todo⟩, S.log⟩

section system

variable (prog : J → Prog σ ε α) (faults : J → List (Option ε))

/-- The job the process is in, or the next one it starts. -/
def Proc.current (p : Proc σ ε α J) : Option (Running σ ε α J × List J) :=
  match p.running, p.todo with
  | some r, todo => some (r, todo)
  | none, j :: todo => some (⟨j, prog j, none, faults j, false⟩, todo)
  | none, [] => none

/-- One statement of process `i`. -/
def step [DecidableEq σ] (S : Sys σ ε α J) (i : Nat) : Option (Sys σ ε α J) :=
  match S.procs[i]? with
  | none => none
  | some p =>
    match p.current prog faults with
    | none => none
    | some (r, todo) =>
      if takesLock (r.conn S.db) (r.next S.db).2 && (S.others i).any (·.inTx) then none
      else some (S.settle i r todo (r.next S.db).1 (r.next S.db).2)

/-- Whole jobs, one after another: their results and the database they leave. -/
def serial : σ → List J → List α × σ
  | db, [] => ([], db)
  | db, j :: js =>
    let r := run (faults j) (prog j) db
    let rest := serial r.2 js
    (r.1 :: rest.1, rest.2)

theorem serial_concat (js : List J) (j : J) (db : σ) : serial prog faults db (js ++ [j]) =
    ((serial prog faults db js).1 ++ [(run (faults j) (prog j) (serial prog faults db js).2).1],
      (run (faults j) (prog j) (serial prog faults db js).2).2) := by
  induction js generalizing db with
  | nil => rfl
  | cons k js ih => simp only [List.cons_append, serial, ih]

/-- The finished jobs of each process, in its own order, are those of a serial execution with the same
results and the same final database. -/
def Serializable (db : σ) (S : Sys σ ε α J) : Prop :=
  ∃ order : List (Nat × J × α), (∀ i, order.filter (·.1 == i) = S.log.filter (·.1 == i)) ∧
    serial prog faults db (order.map (·.2.1)) = (order.map (·.2.2), S.db)

/-- Reordering across processes alone is a permutation. -/
theorem perm_of_filter {β : Type} {l m : List (Nat × β)}
    (h : ∀ i, l.filter (·.1 == i) = m.filter (·.1 == i)) : l.Perm m := by
  classical
  refine List.perm_iff_count.2 fun x => ?_
  have hx : ∀ k : List (Nat × β), (k.filter (·.1 == x.1)).count x = k.count x :=
    fun _ => List.count_filter (beq_self_eq_true x.1)
  rw [← hx l, h, hx m]

/-- When process `i` takes a step, the jobs the others are in have changed nothing yet, and the step
changes nothing under those that hold no transaction. -/
def Apart [DecidableEq σ] (S : Sys σ ε α J) (i : Nat) : Prop :=
  ∀ p ∈ S.others i, ∀ r ∈ p.running, r.dirty = false ∧
    (r.tx.isNone → ∀ S' ∈ step prog faults S i, S'.db = S.db)

instance [DecidableEq σ] (S : Sys σ ε α J) (i : Nat) : Decidable (Apart prog faults S i) :=
  inferInstanceAs (Decidable (∀ p ∈ S.others i, ∀ r ∈ p.running, r.dirty = false ∧
    (r.tx.isNone → ∀ S' ∈ step prog faults S i, S'.db = S.db)))

end system

/-! ## One step -/

section steps

variable {prog : J → Prog σ ε α} {faults : J → List (Option ε)} {S S' : Sys σ ε α J} {i : Nat}

/-- Process `i` is in the middle of `r`. -/
def Sys.In (S : Sys σ ε α J) (i : Nat) (r : Running σ ε α J) : Prop :=
  ∃ p, S.procs[i]? = some p ∧ p.running = some r

/-- Nobody is in a job at the start. -/
theorem start_in (db : σ) (jobs : List (List J)) (i : Nat) (r : Running σ ε α J) :
    ¬(start db jobs).In i r := by
  rintro ⟨p, hp, hr⟩
  obtain ⟨js, -, rfl⟩ := List.mem_map.1 (List.mem_of_getElem? hp)
  cases hr

theorem mem_others {p : Proc σ ε α J} : p ∈ S.others i ↔ ∃ j, j ≠ i ∧ S.procs[j]? = some p :=
  List.mem_eraseIdx_iff_getElem?

/-- Nobody but `i` has a transaction open. -/
theorem lock_free {j : Nat} {r : Running σ ε α J} (h : (S.others i).any (·.inTx) = false) (hj : j ≠ i)
    (hr : S.In j r) : r.tx = none := by
  obtain ⟨p, hp, hr⟩ := hr
  have := List.any_eq_false.1 h p (mem_others.2 ⟨j, hj, hp⟩)
  rw [Proc.inTx, hr] at this
  simpa using this

/-- The jobs of a process that are not finished. -/
def Proc.pending (p : Proc σ ε α J) : List J := (p.running.map (·.job)).toList ++ p.todo

variable [DecidableEq σ] {p : Proc σ ε α J} {r : Running σ ε α J} {todo : List J}

/-- **What a step does.** Process `i`, in state `p`, runs the next statement of `r`. -/
structure Step (prog : J → Prog σ ε α) (faults : J → List (Option ε)) (S S' : Sys σ ε α J) (i : Nat)
    (p : Proc σ ε α J) (r : Running σ ε α J) (todo : List J) : Prop where
  proc : S.procs[i]? = some p
  current : p.current prog faults = some (r, todo)
  free : takesLock (r.conn S.db) (r.next S.db).2 = true → (S.others i).any (·.inTx) = false
  eq : S' = S.settle i r todo (r.next S.db).1 (r.next S.db).2

theorem step_cases (h : step prog faults S i = some S') :
    ∃ p r todo, Step prog faults S S' i p r todo := by
  simp only [step] at h
  split at h
  · cases h
  · rename_i p hp
    split at h
    · cases h
    · rename_i r todo hc
      split at h
      · cases h
      · rename_i hfree
        refine ⟨p, r, todo, hp, hc, fun hl => ?_, (Option.some.inj h).symm⟩
        rw [hl, Bool.true_and, Bool.not_eq_true] at hfree
        exact hfree

/-- The job is done, or goes on. -/
theorem settle_cases (S : Sys σ ε α J) (i : Nat) (r : Running σ ε α J) (todo : List J)
    (q : Prog σ ε α) (d : Conn σ ε) :
    (∃ a, q = .ret a ∧
      S.settle i r todo q d = ⟨d.db, S.procs.set i ⟨none, todo⟩, S.log ++ [(i, r.job, a)]⟩) ∨
    (¬Returned q ∧
      S.settle i r todo q d = ⟨d.db, S.procs.set i ⟨some (r.moved S.db q d), todo⟩, S.log⟩) := by
  cases q with
  | ret a => exact Or.inl ⟨a, rfl, rfl⟩
  | stmt f k => exact Or.inr ⟨nofun, rfl⟩
  | begin_ k => exact Or.inr ⟨nofun, rfl⟩
  | commit k => exact Or.inr ⟨nofun, rfl⟩

namespace Step

variable (h : Step prog faults S S' i p r todo)
include h

theorem running : p.running = some r ∧ p.todo = todo ∨
    p.running = none ∧ p.todo = r.job :: todo ∧ r = ⟨r.job, prog r.job, none, faults r.job, false⟩ := by
  have hc := h.current
  obtain ⟨running, js⟩ := p
  cases running with
  | some r' => cases hc; exact Or.inl ⟨rfl, rfl⟩
  | none =>
    cases js with
    | nil => cases hc
    | cons j js => cases hc; exact Or.inr ⟨rfl, rfl, rfl⟩

/-- The process is already in the job, or starts it here. -/
theorem started : S.In i r ∨
    p.running = none ∧ r.prog = prog r.job ∧ r.tx = none ∧ r.faults = faults r.job ∧ r.dirty = false := by
  rcases h.running with ⟨hr, -⟩ | ⟨hr, -, hfresh⟩
  · exact Or.inl ⟨p, h.proc, hr⟩
  · rw [hfresh]; exact Or.inr ⟨hr, rfl, rfl, rfl, rfl⟩

theorem pending : p.pending = r.job :: todo := by
  rcases h.running with ⟨hr, ht⟩ | ⟨hr, ht, -⟩ <;> (rw [Proc.pending, hr, ht]; rfl)

/-- The job the process is in is the one it goes on with. -/
theorem in_self {r' : Running σ ε α J} (hr : S.In i r') : r' = r ∧ S.In i r := by
  obtain ⟨p', hp', hr'⟩ := hr
  obtain rfl := Option.some.inj (hp'.symm.trans h.proc)
  rcases h.running with ⟨hr, -⟩ | ⟨hr, -⟩
  · exact ⟨Option.some.inj (hr'.symm.trans hr), p', hp', hr⟩
  · rw [hr] at hr'; cases hr'

theorem cases :
    (∃ a, (r.next S.db).1 = .ret a ∧ S' = ⟨(r.next S.db).2.db, S.procs.set i ⟨none, todo⟩,
      S.log ++ [(i, r.job, a)]⟩) ∨
    (¬Returned (r.next S.db).1 ∧ S' = ⟨(r.next S.db).2.db,
      S.procs.set i ⟨some (r.moved S.db (r.next S.db).1 (r.next S.db).2), todo⟩, S.log⟩) := by
  rw [h.eq]
  exact settle_cases ..

theorem in_moved (hgo : S' = ⟨(r.next S.db).2.db,
      S.procs.set i ⟨some (r.moved S.db (r.next S.db).1 (r.next S.db).2), todo⟩, S.log⟩) :
    S'.In i (r.moved S.db (r.next S.db).1 (r.next S.db).2) := by
  rw [hgo]
  exact ⟨_, Threads.getElem?_set_moved h.proc, rfl⟩

theorem db_eq : S'.db = (r.next S.db).2.db := by
  rcases h.cases with ⟨a, -, rfl⟩ | ⟨-, rfl⟩ <;> rfl

/-- Who is in a job after the step. -/
theorem in_cases {j : Nat} {r' : Running σ ε α J} (hr : S'.In j r') :
    (j ≠ i ∧ S.In j r') ∨
    (j = i ∧ r' = r.moved S.db (r.next S.db).1 (r.next S.db).2 ∧ ¬Returned (r.next S.db).1) := by
  obtain ⟨p', hp', hr⟩ := hr
  rcases h.cases with ⟨a, -, rfl⟩ | ⟨hgo, rfl⟩
  · rcases Threads.getElem?_set_cases h.proc hp' with ⟨-, rfl⟩ | ⟨hj, hp'⟩
    · cases hr
    · exact Or.inl ⟨hj, p', hp', hr⟩
  · rcases Threads.getElem?_set_cases h.proc hp' with ⟨hj, rfl⟩ | ⟨hj, hp'⟩
    · exact Or.inr ⟨hj, (Option.some.inj hr).symm, hgo⟩
    · exact Or.inl ⟨hj, p', hp', hr⟩

/-- A transaction is opened only while nobody else has one open. -/
theorem opens {j : Nat} {r' : Running σ ε α J} (hj : j ≠ i) (hr' : S.In j r') (hin : r'.tx.isSome)
    (hopen : (r.next S.db).2.tx.isSome) : r.tx.isSome := by
  by_contra hnone
  have hr : r.tx = none := by simpa using hnone
  have hfree := h.free (by simp [takesLock, Running.conn, hr, hopen])
  rw [lock_free hfree hj hr'] at hin
  cases hin

/-- Outside a transaction the database is changed only while nobody else has one open. -/
theorem changes {j : Nat} {r' : Running σ ε α J} (hj : j ≠ i) (hr' : S.In j r') (hin : r'.tx.isSome)
    (hr : r.tx = none) : S'.db = S.db := by
  by_contra hne
  rw [h.db_eq] at hne
  have hfree := h.free (by simp [takesLock, Running.conn, hr, hne])
  rw [lock_free hfree hj hr'] at hin
  cases hin

end Step

end steps

/-! ## Serial runs -/

section serial

variable {prog : J → Prog σ ε α} {faults : J → List (Option ε)} {db₀ : σ} {jobs : List (List J)}
  {S S' : Sys σ ε α J} {i : Nat}

/-- The database the finished jobs leave when they run one after another. -/
def Sys.base (prog : J → Prog σ ε α) (faults : J → List (Option ε)) (db₀ : σ) (S : Sys σ ε α J) : σ :=
  (serial prog faults db₀ (S.log.map (·.2.1))).2

/-- The jobs process `i` has finished. -/
def Sys.finished (S : Sys σ ε α J) (i : Nat) : List J := (S.log.filter (·.1 == i)).map (·.2.1)

/-- The log is a serial execution; every job under way is where it would be alone after it; and as long
as none of them has changed the database, the database is the one the log leaves. -/
structure Inv (prog : J → Prog σ ε α) (faults : J → List (Option ε)) (db₀ : σ) (jobs : List (List J))
    (S : Sys σ ε α J) : Prop where
  results : (serial prog faults db₀ (S.log.map (·.2.1))).1 = S.log.map (·.2.2)
  path : ∀ i r, S.In i r →
    Path (prog r.job) ⟨S.base prog faults db₀, none, faults r.job⟩ r.prog (r.conn S.db)
  clean : (∀ i r, S.In i r → r.dirty = false) → S.db = S.base prog faults db₀
  alone : ∀ i j r r', S.In i r → r.dirty = true → S.In j r' → j = i
  lock : ∀ i j r r', S.In i r → r.tx.isSome → S.In j r' → r'.tx.isSome → j = i
  order : ∀ i p, S.procs[i]? = some p → S.finished i ++ p.pending = jobs.getD i []

/-- Between jobs the log is a serial execution. -/
theorem Inv.serializable (hI : Inv prog faults db₀ jobs S) (hidle : ∀ p ∈ S.procs, p.running = none) :
    Serializable prog faults db₀ S := by
  refine ⟨S.log, fun _ => rfl, Prod.ext hI.results (hI.clean fun i r hr => ?_).symm⟩
  obtain ⟨p, hp, hr⟩ := hr
  rw [hidle p (List.mem_of_getElem? hp)] at hr
  cases hr

theorem start_inv (db₀ : σ) (jobs : List (List J)) : Inv prog faults db₀ jobs (start db₀ jobs) := by
  have hnone := start_in (ε := ε) (α := α) db₀ jobs
  refine ⟨rfl, fun i r h => (hnone i r h).elim, fun _ => rfl, fun i _ r _ h => (hnone i r h).elim,
    fun i _ r _ h => (hnone i r h).elim, fun i p hp => ?_⟩
  rw [start, List.getElem?_map, Option.map_eq_some_iff] at hp
  obtain ⟨js, hjs, rfl⟩ := hp
  rw [List.getD_eq_getElem?_getD, hjs]
  rfl

namespace Inv

variable [DecidableEq σ] {p : Proc σ ε α J} {r : Running σ ε α J} {todo : List J}

/-- The others have changed nothing, and the step changes nothing under them. -/
theorem others (hI : Inv prog faults db₀ jobs S) (hap : Apart prog faults S i)
    (hS : Step prog faults S S' i p r todo) (hs : step prog faults S i = some S') {j : Nat}
    {r' : Running σ ε α J} (hj : j ≠ i) (hr' : S.In j r') : r'.dirty = false ∧ S'.db = S.db := by
  obtain ⟨p', hp', hrun⟩ := id hr'
  obtain ⟨hdirty, hdb⟩ := hap p' (mem_others.2 ⟨j, hj, hp'⟩) r' hrun
  refine ⟨hdirty, ?_⟩
  by_cases htx : r'.tx.isNone
  · exact hdb htx S' hs
  · have hin : r'.tx.isSome := by simpa [Option.isSome_iff_ne_none] using htx
    rcases hS.started with hr | ⟨-, -, hnone, -⟩
    · cases hrtx : r.tx with
      | none => exact hS.changes hj hr' hin hrtx
      | some t => exact absurd (hI.lock i j r r' hr (by rw [hrtx]; rfl) hr' hin) hj
    · exact hS.changes hj hr' hin hnone

/-- While another process is in a job, the database is the one the log leaves. -/
theorem quiet (hI : Inv prog faults db₀ jobs S) (hS : Step prog faults S S' i p r todo)
    (hothers : ∀ j r', j ≠ i → S.In j r' → r'.dirty = false)
    (hself : r.dirty = false ∨ ∃ j r', j ≠ i ∧ S.In j r') : S.db = S.base prog faults db₀ := by
  refine hI.clean fun k rk hk => ?_
  by_cases hki : k = i
  · subst hki
    obtain ⟨rfl, -⟩ := hS.in_self hk
    rcases hself with hself | ⟨j, r', hj, hr'⟩
    · exact hself
    · by_contra hd
      exact hj (hI.alone k j rk r' hk (by simpa using hd) hr')
  · exact hothers k rk hki hk

theorem lock_step (hI : Inv prog faults db₀ jobs S) (hS : Step prog faults S S' i p r todo) {k j : Nat}
    {rk rj : Running σ ε α J} (hk : S'.In k rk) (hktx : rk.tx.isSome) (hj : S'.In j rj)
    (hjtx : rj.tx.isSome) : j = k := by
  -- whoever holds the lock already is the only one who can be in a transaction next
  have hself : ∀ {j r'}, j ≠ i → S.In j r' → r'.tx.isSome → (r.next S.db).2.tx.isSome → False := by
    intro j r' hj hr' hin hopen
    have hr := hS.opens hj hr' hin hopen
    rcases hS.started with hin' | ⟨-, -, hnone, -⟩
    · exact hj (hI.lock i j r r' hin' hr hr' hin)
    · rw [hnone] at hr; cases hr
  rcases hS.in_cases hk with ⟨hki, hk⟩ | ⟨rfl, rfl, -⟩
  · rcases hS.in_cases hj with ⟨-, hj⟩ | ⟨rfl, rfl, -⟩
    · exact hI.lock k j rk rj hk hktx hj hjtx
    · exact (hself hki hk hktx hjtx).elim
  · rcases hS.in_cases hj with ⟨hjk, hj⟩ | ⟨rfl, -, -⟩
    · exact (hself hjk hj hjtx hktx).elim
    · rfl

theorem order_step (hI : Inv prog faults db₀ jobs S) (hS : Step prog faults S S' i p r todo) {k : Nat}
    {p' : Proc σ ε α J} (hp' : S'.procs[k]? = some p') :
    S'.finished k ++ p'.pending = jobs.getD k [] := by
  rcases hS.cases with ⟨a, -, rfl⟩ | ⟨-, rfl⟩
  · rcases Threads.getElem?_set_cases hS.proc hp' with ⟨rfl, rfl⟩ | ⟨hki, hp'⟩
    · rw [← hI.order k p hS.proc, hS.pending]
      simp [Sys.finished, Proc.pending]
    · rw [← hI.order k p' hp']
      simp [Sys.finished, Ne.symm hki]
  · rcases Threads.getElem?_set_cases hS.proc hp' with ⟨rfl, rfl⟩ | ⟨-, hp'⟩
    · rw [← hI.order k p hS.proc, hS.pending]
      rfl
    · exact hI.order k p' hp'

/-- Where the job of `i` is, alone, after the log. -/
theorem path_self (hI : Inv prog faults db₀ jobs S) (hS : Step prog faults S S' i p r todo)
    (hquiet : r.dirty = false → S.db = S.base prog faults db₀) :
    Path (prog r.job) ⟨S.base prog faults db₀, none, faults r.job⟩ r.prog (r.conn S.db) := by
  rcases hS.started with hr | ⟨-, hprog, htx, hfaults, hdirty⟩
  · exact hI.path i r hr
  · rw [Running.conn, hprog, htx, hfaults, ← hquiet hdirty]
    exact .start

/-- The job is done: the log grows by it, and the database is what the longer log leaves. -/
theorem done_step {a : α} (hI : Inv prog faults db₀ jobs S) (hS : Step prog faults S S' i p r todo)
    (hret : (r.next S.db).1 = .ret a) (hlog : S'.log = S.log ++ [(i, r.job, a)])
    (hothers : ∀ j r', j ≠ i → S.In j r' → r'.dirty = false ∧ S'.db = S.db) :
    Inv prog faults db₀ jobs S' := by
  have hquiet := hI.quiet hS fun j r' hj hr' => (hothers j r' hj hr').1
  have hrun : run (faults r.job) (prog r.job) (S.base prog faults db₀) = (a, S'.db) := by
    have hexec := (hI.path_self hS fun hd => hquiet (Or.inl hd)).next.exec
    change exec _ _ = exec (r.next S.db).1 (r.next S.db).2 at hexec
    rw [hret] at hexec
    rw [run, hexec, hS.db_eq]
    rfl
  have hserial : serial prog faults db₀ (S'.log.map (·.2.1)) = (S'.log.map (·.2.2), S'.db) := by
    rw [Sys.base] at hrun
    rw [hlog, List.map_append, List.map_append, List.map_singleton, List.map_singleton, serial_concat,
      hI.results, hrun]
  have hbase : S'.base prog faults db₀ = S'.db := congrArg Prod.snd hserial
  have hrest : ∀ {j r'}, S'.In j r' → j ≠ i ∧ S.In j r' := by
    intro j r' hr'
    rcases hS.in_cases hr' with h | ⟨-, -, hgo⟩
    · exact h
    · exact absurd ⟨a, hret⟩ hgo
  refine ⟨congrArg Prod.fst hserial, fun j r' hr' => ?_, fun _ => hbase.symm,
    fun k j rk _ hk hd _ => ?_, fun _ _ _ _ => hI.lock_step hS, fun _ _ => hI.order_step hS⟩
  · obtain ⟨hj, hr'⟩ := hrest hr'
    have hpath := hI.path j r' hr'
    rw [← hquiet (Or.inr ⟨j, r', hj, hr'⟩)] at hpath
    rw [hbase, (hothers j r' hj hr').2]
    exact hpath
  · obtain ⟨hki, hk⟩ := hrest hk
    rw [(hothers k rk hki hk).1] at hd
    cases hd

/-- The job goes on. -/
theorem moved_step (hI : Inv prog faults db₀ jobs S) (hS : Step prog faults S S' i p r todo)
    (hin : S'.In i (r.moved S.db (r.next S.db).1 (r.next S.db).2)) (hlog : S'.log = S.log)
    (hothers : ∀ j r', j ≠ i → S.In j r' → r'.dirty = false ∧ S'.db = S.db) :
    Inv prog faults db₀ jobs S' := by
  have hquiet := hI.quiet hS fun j r' hj hr' => (hothers j r' hj hr').1
  have hbase : S'.base prog faults db₀ = S.base prog faults db₀ := by rw [Sys.base, hlog]; rfl
  refine ⟨by rw [hlog]; exact hI.results, fun j r' hr' => ?_, fun hclean => ?_,
    fun k j rk rj hk hd hj => ?_, fun _ _ _ _ => hI.lock_step hS, fun _ _ => hI.order_step hS⟩
  · rw [hbase]
    rcases hS.in_cases hr' with ⟨hj, hr'⟩ | ⟨-, rfl, -⟩
    · rw [(hothers j r' hj hr').2]
      exact hI.path j r' hr'
    · rw [hS.db_eq]
      exact (hI.path_self hS fun hd => hquiet (Or.inl hd)).next
  · have hd := hclean i _ hin
    simp only [Running.moved, Bool.or_eq_false_iff, decide_eq_false_iff_not, not_not] at hd
    rw [hbase, hS.db_eq, hd.2]
    exact hquiet (Or.inl hd.1)
  · rcases hS.in_cases hk with ⟨hki, hk⟩ | ⟨rfl, rfl, -⟩
    · rw [(hothers k rk hki hk).1] at hd
      cases hd
    · rcases hS.in_cases hj with ⟨hjk, hj⟩ | ⟨rfl, -, -⟩
      · have hsame : (r.next S.db).2.db = S.db := hS.db_eq.symm.trans (hothers j rj hjk hj).2
        simp only [Running.moved, hsame, ne_eq, not_true_eq_false, decide_false, Bool.or_false] at hd
        rcases hS.started with hr | ⟨-, -, -, -, hclean⟩
        · exact hI.alone k j r rj hr hd hj
        · rw [hclean] at hd; cases hd
      · rfl

/-- **One step apart.** -/
theorem apart_step (hI : Inv prog faults db₀ jobs S) (hap : Apart prog faults S i)
    (hs : step prog faults S i = some S') : Inv prog faults db₀ jobs S' := by
  obtain ⟨p, r, todo, hS⟩ := step_cases hs
  have hothers := fun j r' (hj : j ≠ i) (hr' : S.In j r') => hI.others hap hS hs hj hr'
  rcases hS.cases with ⟨a, hret, hS'⟩ | ⟨-, hS'⟩
  · exact hI.done_step hS hret (by rw [hS']) hothers
  · exact hI.moved_step hS (hS.in_moved hS') (by rw [hS']) hothers

/-- What a job lets others see, alone and whatever fails, holds before and after each of its steps. -/
theorem step_sees {I : σ → Prop} (hI : Inv prog faults db₀ jobs S) (hap : Apart prog faults S i)
    (hs : step prog faults S i = some S') (hS : Step prog faults S S' i p r todo)
    (hsees : Sees I (prog r.job) (S.base prog faults db₀) none) : I S.db ∧ I S'.db := by
  have hquiet := hI.quiet hS fun j r' hj hr' => (hI.others hap hS hs hj hr').1
  have hpath := hI.path_self hS fun hd => hquiet (Or.inl hd)
  refine ⟨(hpath.sees hsees).now, ?_⟩
  rw [hS.db_eq]
  exact (hpath.next.sees hsees).now

end Inv

/-- **Steps apart give a serial execution.** -/
theorem apart_serial [DecidableEq σ] {acts : List Nat}
    (hap : Lts.Steps (step prog faults) (Apart prog faults) (start db₀ jobs) acts)
    (hrun : Lts.run (step prog faults) (start db₀ jobs) acts = some S) : Inv prog faults db₀ jobs S :=
  Lts.run_inv (fun _ _ _ hI hap hs => hI.apart_step hap hs) (start_inv db₀ jobs) hap hrun

end serial

/-! ## Jobs in one transaction -/

section oneTx

/-- Inside a transaction: nothing is published before the program returns. -/
def Closed : Prog σ ε α → Prop
  | .ret _ => True
  | .stmt _ k => ∀ r, Closed (k r)
  | .begin_ k => ∀ r, Closed (k r)
  | .commit k => ∀ r, Returned (k r)

/-- The program is a single statement, or all of it is in one transaction. -/
def OneTx : Prog σ ε α → Prop
  | .ret _ => True
  | .stmt _ k => ∀ r, Returned (k r)
  | .begin_ k => (∀ e, Returned (k (.error e))) ∧ Closed (k (.ok ()))
  | .commit k => ∀ r, Returned (k r)

theorem returned_map {γ : Type} (f : α → γ) {p : Prog σ ε α} : Returned p → Returned (p.map f)
  | ⟨a, h⟩ => ⟨f a, by rw [h]; rfl⟩

theorem closed_map {γ : Type} (f : α → γ) : ∀ {p : Prog σ ε α}, Closed p → Closed (p.map f)
  | .ret _, _ => trivial
  | .stmt _ _, h => fun r => closed_map f (h r)
  | .begin_ _, h => fun r => closed_map f (h r)
  | .commit _, h => fun r => returned_map f (h r)

theorem oneTx_map {γ : Type} (f : α → γ) : ∀ {p : Prog σ ε α}, OneTx p → OneTx (p.map f)
  | .ret _, _ => trivial
  | .stmt _ _, h => fun r => returned_map f (h r)
  | .begin_ _, h => ⟨fun e => returned_map f (h.1 e), closed_map f h.2⟩
  | .commit _, h => fun r => returned_map f (h r)

section rules

variable {ρ β : Type} {lift : ε → ρ} {k : Prog σ ε (Except ρ α)}

theorem closed_tryStmt {f : σ → Except ε (β × σ)} {k : β → Prog σ ε (Except ρ α)}
    (h : ∀ b, Closed (k b)) : Closed (tryStmt lift f k)
  | .ok b => h b
  | .error _ => trivial

theorem closed_commit (h : Returned k) : Closed (commit lift k)
  | .ok () => h
  | .error _ => ⟨_, rfl⟩

theorem oneTx_begin (h : Closed k) : OneTx (begin lift k) := ⟨fun _ => ⟨_, rfl⟩, h⟩

theorem oneTx_tryStmt {f : σ → Except ε (β × σ)} {k : β → Prog σ ε (Except ρ α)}
    (h : ∀ b, Returned (k b)) : OneTx (tryStmt lift f k)
  | .ok b => h b
  | .error _ => ⟨_, rfl⟩

end rules

theorem closed_tick {q q' : Prog σ ε α} {c d : Conn σ ε} (h : Closed q) (hc : c.tx.isSome)
    (ht : tick q c = some (q', d)) : Returned q' ∨ d.tx.isSome ∧ d.db = c.db ∧ Closed q' := by
  obtain ⟨db, tx, fs⟩ := c
  cases tx with
  | none => cases hc
  | some t =>
    cases q with
    | ret a => cases ht
    | stmt f k =>
      simp only [tick] at ht
      split at ht
      · cases ht; exact Or.inr ⟨rfl, rfl, h _⟩
      · split at ht <;> (cases ht; exact Or.inr ⟨rfl, rfl, h _⟩)
    | begin_ k =>
      simp only [tick] at ht
      split at ht <;> (cases ht; exact Or.inr ⟨rfl, rfl, h _⟩)
    | commit k =>
      simp only [tick] at ht
      split at ht <;> (cases ht; exact Or.inl (h _))

theorem oneTx_tick {q q' : Prog σ ε α} {c d : Conn σ ε} (h : OneTx q)
    (ht : tick q c = some (q', d)) : Returned q' ∨ d.tx.isSome ∧ d.db = c.db ∧ Closed q' := by
  cases q with
  | ret a => cases ht
  | stmt f k =>
    simp only [tick] at ht
    split at ht
    · cases ht; exact Or.inl (h _)
    · split at ht <;> (cases ht; exact Or.inl (h _))
  | begin_ k =>
    simp only [tick] at ht
    split at ht
    · cases ht; exact Or.inl (h.1 _)
    · cases ht; exact Or.inr ⟨rfl, rfl, h.2⟩
  | commit k =>
    simp only [tick] at ht
    split at ht <;> (cases ht; exact Or.inl (h _))

variable [DecidableEq σ] {prog : J → Prog σ ε α} {faults : J → List (Option ε)} {S S' : Sys σ ε α J}
  {i : Nat}

/-- Whoever is in a job holds a transaction and has published nothing. -/
structure InTx (prog : J → Prog σ ε α) (S : Sys σ ε α J) : Prop where
  running : ∀ i r, S.In i r → r.tx.isSome ∧ r.dirty = false ∧ Closed r.prog
  todo : ∀ p ∈ S.procs, ∀ j ∈ p.todo, OneTx (prog j)

theorem InTx.apart (h : InTx prog S) (i : Nat) : Apart prog faults S i := by
  intro p hp r hr
  obtain ⟨j, -, hj⟩ := mem_others.1 hp
  obtain ⟨htx, hdirty, -⟩ := h.running j r ⟨p, hj, hr⟩
  refine ⟨hdirty, fun hnone => ?_⟩
  rw [Option.isNone_iff_eq_none] at hnone
  rw [hnone] at htx
  cases htx

theorem InTx.step (h : InTx prog S) (hs : step prog faults S i = some S') : InTx prog S' := by
  obtain ⟨p, r, todo, hS⟩ := step_cases hs
  have hp := List.mem_of_getElem? hS.proc
  refine ⟨fun j r' hr' => ?_, fun p' hp' j hj => ?_⟩
  · rcases hS.in_cases hr' with ⟨-, hr'⟩ | ⟨rfl, rfl, hgo⟩
    · exact h.running j r' hr'
    · have htick := (r.next_cases S.db).resolve_left hgo
      have hdirty : r.dirty = false ∧ (Returned (r.next S.db).1 ∨
          (r.next S.db).2.tx.isSome ∧ (r.next S.db).2.db = S.db ∧ Closed (r.next S.db).1) := by
        rcases hS.running with ⟨hr, -⟩ | ⟨-, ht, hfresh⟩
        · obtain ⟨htx, hd, hclosed⟩ := h.running j r ⟨p, hS.proc, hr⟩
          exact ⟨hd, closed_tick hclosed htx htick⟩
        · have hone := h.todo p hp r.job (by rw [ht]; exact List.mem_cons_self)
          rw [hfresh] at htick ⊢
          exact ⟨rfl, oneTx_tick hone htick⟩
      obtain ⟨hd, hnext⟩ := hdirty
      obtain ⟨htx, hdb, hclosed⟩ := hnext.resolve_left hgo
      exact ⟨htx, by simp [Running.moved, hd, hdb], hclosed⟩
  · have hset : p' ∈ S.procs ∨ p'.todo = todo := by
      rcases hS.cases with ⟨a, -, rfl⟩ | ⟨-, rfl⟩ <;>
        exact (List.mem_or_eq_of_mem_set hp').imp_right fun h => by rw [h]
    rcases hset with hp' | htodo
    · exact h.todo p' hp' j hj
    · refine h.todo p hp j ?_
      rw [htodo] at hj
      rcases hS.running with ⟨-, ht⟩ | ⟨-, ht, -⟩
      · rw [ht]; exact hj
      · rw [ht]; exact List.mem_cons_of_mem _ hj

/-- **Jobs in one transaction need no care.** Whatever the interleaving, their steps are apart. -/
theorem oneTx_apart (db : σ) {jobs : List (List J)} (hjobs : ∀ js ∈ jobs, ∀ j ∈ js, OneTx (prog j))
    (acts : List Nat) : Lts.Steps (step prog faults) (Apart prog faults) (start db jobs) acts := by
  have h0 : InTx prog (start (ε := ε) (α := α) db jobs) := by
    refine ⟨fun i r hr => ?_, fun p hp j hj => ?_⟩
    · exact (start_in db jobs i r hr).elim
    · obtain ⟨js, hjs, rfl⟩ := List.mem_map.1 hp
      exact hjobs js hjs j hj
  exact Lts.steps_of_inv (fun _ _ _ h _ hs => h.step hs) (fun _ i h _ => h.apart i) h0
    (Lts.steps_of_forall (P := fun _ => True) fun _ _ => trivial)

end oneTx

end Serial
