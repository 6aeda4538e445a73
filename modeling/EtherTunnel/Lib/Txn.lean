import Mathlib.Data.List.Basic

/-!
# Programs of database statements

What a store operation does to its database, statement by statement, so that a failure can be put
at any of them. A `Prog` is a tree of statements; each statement reads and writes the database and
may fail, and the continuation sees the failure. Outside a transaction a statement commits at once
(autocommit). Between `begin_` and `commit` statements work on a private copy; a program that
returns without committing drops the copy, which is the rollback.

* `run faults p db` executes `p`; the list `faults` says which of its statements fail from outside
  (a busy lock, a full disk), in the order in which they are reached.
* `Post Q p db tx` is what must be checked of `p` so that `Q` holds of the result and the final
  database *whatever fails* (`post_run`).
* `ErrLeaves s faults p db`: if `p` fails under these failures, it leaves `s`; for programs without a
  transaction the rules compute it statement by statement.
* `Ends R n p db tx`: the result of `p` is in `R` just when none of its `n` statements fails from outside;
  `Takes` for success.
* `Keeps I p`: each statement of `p` keeps `I`, which is enough for `p` to keep it (`Keeps.run`).
-/

namespace Txn

/-- A program over databases `σ` whose statements fail with `ε`. -/
inductive Prog (σ ε : Type) (α : Type) : Type 1 where
  | ret (a : α)
  | stmt {β : Type} (f : σ → Except ε (β × σ)) (k : Except ε β → Prog σ ε α)
  | begin_ (k : Except ε Unit → Prog σ ε α)
  | commit (k : Except ε Unit → Prog σ ε α)

/-- A connection: the committed database, the private copy of an open transaction, and the
failures still to come. -/
structure Conn (σ ε : Type) where
  db : σ
  tx : Option σ
  faults : List (Option ε)

variable {σ ε ρ α β : Type}

/-- The failure the next statement meets, if any. -/
def Conn.fault (c : Conn σ ε) : Option ε := c.faults.head?.join

def Conn.pop (c : Conn σ ε) : Conn σ ε := { c with faults := c.faults.tail }

/-- The database as statements on this connection see it. -/
def Conn.view (c : Conn σ ε) : σ := c.tx.getD c.db

/-- Write the result of a statement: to the private copy inside a transaction, else for good. -/
def Conn.write (c : Conn σ ε) (s : σ) : Conn σ ε :=
  match c.tx with
  | some _ => { c with tx := some s }
  | none => { c with db := s }

def exec : Prog σ ε α → Conn σ ε → α × Conn σ ε
  | .ret a, c => (a, c)
  | .stmt f k, c =>
    match c.fault with
    | some e => exec (k (.error e)) c.pop
    | none =>
      match f c.view with
      | .ok (b, s) => exec (k (.ok b)) (c.pop.write s)
      | .error e => exec (k (.error e)) c.pop
  | .begin_ k, c =>
    match c.fault with
    | some e => exec (k (.error e)) c.pop
    | none => exec (k (.ok ())) { c.pop with tx := some c.db }
  | .commit k, c =>
    match c.fault with
    | some e => exec (k (.error e)) c.pop
    | none => exec (k (.ok ())) { c.pop with db := c.view, tx := none }

/-- The result of a program and the database it leaves committed. -/
def run (faults : List (Option ε)) (p : Prog σ ε α) (db : σ) : α × σ :=
  let r := exec p ⟨db, none, faults⟩
  (r.1, r.2.db)

/-- The same statements, with another view of the result. -/
def Prog.map {γ : Type} (f : α → γ) : Prog σ ε α → Prog σ ε γ
  | .ret a => .ret (f a)
  | .stmt g k => .stmt g fun r => (k r).map f
  | .begin_ k => .begin_ fun r => (k r).map f
  | .commit k => .commit fun r => (k r).map f

theorem exec_map {γ : Type} (f : α → γ) : ∀ (p : Prog σ ε α) (c : Conn σ ε),
    exec (p.map f) c = (f (exec p c).1, (exec p c).2)
  | .ret _, _ => rfl
  | .stmt g k, c => by
    simp only [Prog.map, exec]
    split
    · exact exec_map f _ _
    · split <;> exact exec_map f _ _
  | .begin_ k, c => by
    simp only [Prog.map, exec]
    split <;> exact exec_map f _ _
  | .commit k, c => by
    simp only [Prog.map, exec]
    split <;> exact exec_map f _ _

theorem run_map {γ : Type} (f : α → γ) (faults : List (Option ε)) (p : Prog σ ε α) (db : σ) :
    run faults (p.map f) db = (f (run faults p db).1, (run faults p db).2) := by
  simp only [run, exec_map]

/-! ## Programs that return `Result` -/

variable (lift : ε → ρ)

/-- A statement followed by `?`: its failure becomes the program's. -/
def tryStmt (f : σ → Except ε (β × σ)) (k : β → Prog σ ε (Except ρ α)) : Prog σ ε (Except ρ α) :=
  .stmt f fun
    | .ok b => k b
    | .error e => .ret (.error (lift e))

/-- A `SELECT` followed by `?`. -/
def query (f : σ → β) (k : β → Prog σ ε (Except ρ α)) : Prog σ ε (Except ρ α) :=
  tryStmt lift (fun s => .ok (f s, s)) k

/-- Open a transaction, `?`. -/
def begin (k : Prog σ ε (Except ρ α)) : Prog σ ε (Except ρ α) :=
  .begin_ fun
    | .ok () => k
    | .error e => .ret (.error (lift e))

/-- Commit the open transaction, `?`. -/
def commit (k : Prog σ ε (Except ρ α)) : Prog σ ε (Except ρ α) :=
  .commit fun
    | .ok () => k
    | .error e => .ret (.error (lift e))

/-! ## Postconditions under every failure -/

/-- `Q` holds of the result and of the committed database, whichever statements fail from outside.
`db` is the committed database, `tx` the private copy of an open transaction. -/
def Post (Q : α → σ → Prop) : Prog σ ε α → σ → Option σ → Prop
  | .ret a, db, _ => Q a db
  | .stmt f k, db, tx =>
    (∀ e, Post Q (k (.error e)) db tx) ∧
      ∀ b s, f (tx.getD db) = .ok (b, s) →
        Post Q (k (.ok b)) (if tx.isSome then db else s) (tx.map fun _ => s)
  | .begin_ k, db, tx => (∀ e, Post Q (k (.error e)) db tx) ∧ Post Q (k (.ok ())) db (some db)
  | .commit k, db, tx =>
    (∀ e, Post Q (k (.error e)) db tx) ∧ Post Q (k (.ok ())) (tx.getD db) none

theorem post_exec {Q : α → σ → Prop} : ∀ {p : Prog σ ε α} {c : Conn σ ε},
    Post Q p c.db c.tx → Q (exec p c).1 (exec p c).2.db
  | .ret a, c, h => h
  | .stmt f k, c, h => by
    simp only [exec]
    split
    · rename_i e _
      exact post_exec (c := c.pop) (h.1 e)
    · split
      · rename_i b s hf
        have := h.2 b s hf
        refine post_exec (c := c.pop.write s) ?_
        obtain ⟨db, tx, fs⟩ := c
        cases tx <;> simpa [Conn.write, Conn.pop] using this
      · rename_i e _
        exact post_exec (c := c.pop) (h.1 e)
  | .begin_ k, c, h => by
    simp only [exec]
    split
    · rename_i e _
      exact post_exec (c := c.pop) (h.1 e)
    · exact post_exec (c := { c.pop with tx := some c.db }) h.2
  | .commit k, c, h => by
    simp only [exec]
    split
    · rename_i e _
      exact post_exec (c := c.pop) (h.1 e)
    · exact post_exec (c := { c.pop with db := c.view, tx := none }) h.2

theorem Post.mono {Q R : α → σ → Prop} (hQR : ∀ a s, Q a s → R a s) : ∀ {p : Prog σ ε α} {db : σ}
    {tx : Option σ}, Post Q p db tx → Post R p db tx
  | .ret _, _, _, h => hQR _ _ h
  | .stmt _ _, _, _, h => ⟨fun e => (h.1 e).mono hQR, fun b s hs => (h.2 b s hs).mono hQR⟩
  | .begin_ _, _, _, h => ⟨fun e => (h.1 e).mono hQR, h.2.mono hQR⟩
  | .commit _, _, _, h => ⟨fun e => (h.1 e).mono hQR, h.2.mono hQR⟩

/-- **Soundness of `Post`.** -/
theorem post_run {Q : α → σ → Prop} {p : Prog σ ε α} {db : σ} (h : Post Q p db none)
    (faults : List (Option ε)) : Q (run faults p db).1 (run faults p db).2 :=
  post_exec (c := ⟨db, none, faults⟩) h

section rules

variable {lift} {Q : Except ρ α → σ → Prop} {db : σ} {tx : Option σ}

@[simp] theorem post_ret {Q : α → σ → Prop} (a : α) : Post (ε := ε) Q (.ret a) db tx ↔ Q a db :=
  Iff.rfl

@[simp] theorem post_query (f : σ → β) (k : β → Prog σ ε (Except ρ α)) :
    Post Q (query lift f k) db tx ↔
      (∀ e, Q (.error (lift e)) db) ∧ Post Q (k (f (tx.getD db))) db tx := by
  cases tx <;> simp [query, tryStmt, Post]

@[simp] theorem post_begin (k : Prog σ ε (Except ρ α)) :
    Post Q (begin lift k) db tx ↔ (∀ e, Q (.error (lift e)) db) ∧ Post Q k db (some db) := by
  simp [begin, Post]

@[simp] theorem post_commit (k : Prog σ ε (Except ρ α)) :
    Post Q (commit lift k) db tx ↔ (∀ e, Q (.error (lift e)) db) ∧ Post Q k (tx.getD db) none := by
  simp [commit, Post]

/-- A statement inside a transaction leaves the committed database alone. -/
@[simp] theorem post_tryStmt_tx (f : σ → Except ε (β × σ)) (k : β → Prog σ ε (Except ρ α)) (t : σ) :
    Post Q (tryStmt lift f k) db (some t) ↔
      (∀ e, Q (.error (lift e)) db) ∧ ∀ b s, f t = .ok (b, s) → Post Q (k b) db (some s) := by
  simp [tryStmt, Post]

/-- A statement outside a transaction is committed at once. -/
@[simp] theorem post_tryStmt_auto (f : σ → Except ε (β × σ)) (k : β → Prog σ ε (Except ρ α)) :
    Post Q (tryStmt lift f k) db none ↔
      (∀ e, Q (.error (lift e)) db) ∧ ∀ b s, f db = .ok (b, s) → Post Q (k b) s none := by
  simp [tryStmt, Post]

/-- A write that cannot fail by itself, inside a transaction. -/
theorem post_write_tx (g : σ → β × σ) (k : β → Prog σ ε (Except ρ α)) (t : σ) :
    Post Q (tryStmt lift (fun s => .ok (g s)) k) db (some t) ↔
      (∀ e, Q (.error (lift e)) db) ∧ Post Q (k (g t).1) db (some (g t).2) := by
  rw [post_tryStmt_tx]
  refine and_congr_right fun _ => ⟨fun h => h _ _ rfl, fun h b s hs => ?_⟩
  rw [Except.ok.inj hs] at h; exact h

/-- A write that cannot fail by itself, committed at once. -/
theorem post_write_auto (g : σ → β × σ) (k : β → Prog σ ε (Except ρ α)) :
    Post Q (tryStmt lift (fun s => .ok (g s)) k) db none ↔
      (∀ e, Q (.error (lift e)) db) ∧ Post Q (k (g db).1) (g db).2 none := by
  rw [post_tryStmt_auto]
  refine and_congr_right fun _ => ⟨fun h => h _ _ rfl, fun h b s hs => ?_⟩
  rw [Except.ok.inj hs] at h; exact h

end rules

/-! ## Runs without failures -/

section faultless

variable {lift} {db : σ} {tx : Option σ}

@[simp] theorem exec_query (f : σ → β) (k : β → Prog σ ε (Except ρ α)) :
    exec (query lift f k) ⟨db, tx, []⟩ = exec (k (f (tx.getD db))) ⟨db, tx, []⟩ := by
  cases tx <;> rfl

@[simp] theorem exec_begin (k : Prog σ ε (Except ρ α)) :
    exec (begin lift k) ⟨db, tx, []⟩ = exec k ⟨db, some db, []⟩ := rfl

@[simp] theorem exec_commit (k : Prog σ ε (Except ρ α)) :
    exec (commit lift k) ⟨db, tx, []⟩ = exec k ⟨tx.getD db, none, []⟩ := rfl

@[simp] theorem exec_write_tx (g : σ → β × σ) (k : β → Prog σ ε (Except ρ α)) (t : σ) :
    exec (tryStmt lift (fun s => .ok (g s)) k) ⟨db, some t, []⟩ =
      exec (k (g t).1) ⟨db, some (g t).2, []⟩ := rfl

@[simp] theorem exec_write_auto (g : σ → β × σ) (k : β → Prog σ ε (Except ρ α)) :
    exec (tryStmt lift (fun s => .ok (g s)) k) ⟨db, none, []⟩ =
      exec (k (g db).1) ⟨(g db).2, none, []⟩ := rfl

end faultless

/-! ## What a failing run leaves -/

/-- The `i`-th statement a run reaches fails from outside. -/
def fails (faults : List (Option ε)) (i : Nat) : Bool := faults[i]?.join.isSome

@[simp] theorem fails_tail (faults : List (Option ε)) (i : Nat) :
    fails faults.tail i = fails faults (i + 1) := by
  rw [fails, fails, List.getElem?_tail]

/-- A run that returns an error leaves `s`. -/
def ErrLeaves (s : σ) (faults : List (Option ε)) (p : Prog σ ε (Except ρ α)) (db : σ) : Prop :=
  ∀ e, (run faults p db).1 = .error e → (run faults p db).2 = s

section errLeaves

variable {lift} {s db : σ} {faults : List (Option ε)}

theorem errLeaves_of_post {p : Prog σ ε (Except ρ α)}
    (h : Post (fun res d => ∀ e, res = .error e → d = s) p db none) (faults : List (Option ε)) :
    ErrLeaves s faults p db :=
  post_run h faults

theorem errLeaves_map {γ : Type} {f : Except ρ α → Except ρ γ}
    (hf : ∀ r e, f r = .error e ↔ r = .error e) {p : Prog σ ε (Except ρ α)} :
    ErrLeaves s faults (p.map f) db ↔ ErrLeaves s faults p db := by
  simp only [ErrLeaves, run_map, hf]

@[simp] theorem errLeaves_ok (a : α) : ErrLeaves s faults (.ret (.ok a) : Prog σ ε (Except ρ α)) db :=
  nofun

@[simp] theorem errLeaves_error (r : ρ) :
    ErrLeaves s faults (.ret (.error r) : Prog σ ε (Except ρ α)) db ↔ db = s :=
  ⟨fun h => h r rfl, fun h _ _ => h⟩

/-- A statement committed at once: its own failure leaves what was there. -/
theorem errLeaves_tryStmt (f : σ → Except ε (β × σ)) (k : β → Prog σ ε (Except ρ α)) :
    ErrLeaves s faults (tryStmt lift f k) db ↔
      if fails faults 0 then db = s else
        match f db with
        | .ok (b, s') => ErrLeaves s faults.tail (k b) s'
        | .error _ => db = s := by
  have hhead : faults[0]? = faults.head? := List.head?_eq_getElem?.symm
  simp only [ErrLeaves, run, tryStmt, exec, Conn.fault, fails, hhead]
  cases faults.head?.join with
  | some e => simp [Conn.pop]
  | none =>
    simp only [Conn.view, Option.getD_none, Option.isSome_none, Bool.false_eq_true, if_false]
    cases f db with
    | error e => simp [Conn.pop]
    | ok r => rfl

theorem errLeaves_write (g : σ → β × σ) (k : β → Prog σ ε (Except ρ α)) :
    ErrLeaves s faults (tryStmt lift (fun s => .ok (g s)) k) db ↔
      if fails faults 0 then db = s else ErrLeaves s faults.tail (k (g db).1) (g db).2 :=
  errLeaves_tryStmt _ _

theorem errLeaves_query (f : σ → β) (k : β → Prog σ ε (Except ρ α)) :
    ErrLeaves s faults (query lift f k) db ↔
      if fails faults 0 then db = s else ErrLeaves s faults.tail (k (f db)) db :=
  errLeaves_tryStmt _ _

/-- A single statement. -/
theorem errLeaves_last (f : σ → Except ε (β × σ)) (a : β → α) :
    ErrLeaves db faults (tryStmt lift f fun b => .ret (.ok (a b))) db := by
  rw [errLeaves_tryStmt]
  split
  · rfl
  · split
    · exact errLeaves_ok _
    · rfl

end errLeaves

/-! ## Which failures make a run fail -/

/-- None of the first `n` statements a run reaches fails from outside. -/
def Clear (faults : List (Option ε)) (n : Nat) : Prop := ∀ i < n, fails faults i = false

instance (faults : List (Option ε)) (n : Nat) : Decidable (Clear faults n) :=
  inferInstanceAs (Decidable (∀ i < n, fails faults i = false))

theorem clear_nil (n : Nat) : Clear ([] : List (Option ε)) n := fun _ _ => rfl

theorem clear_succ {faults : List (Option ε)} {n : Nat} :
    Clear faults (n + 1) ↔ faults.head?.join = none ∧ Clear faults.tail n := by
  have hhead : fails faults 0 = false ↔ faults.head?.join = none := by
    rw [fails, ← List.head?_eq_getElem?, Option.isSome_eq_false_iff, Option.isNone_iff_eq_none]
  rw [← hhead]
  constructor
  · intro h
    refine ⟨h 0 (Nat.succ_pos n), fun i hi => ?_⟩
    rw [fails_tail]
    exact h (i + 1) (Nat.succ_lt_succ hi)
  · rintro ⟨hfirst, hrest⟩ i hi
    cases i with
    | zero => exact hfirst
    | succ i =>
      rw [← fails_tail]
      exact hrest i (Nat.lt_of_succ_lt_succ hi)

theorem clear_one {faults : List (Option ε)} : Clear faults 1 ↔ faults.headD none = none := by
  have hhead : faults.headD none = faults.head?.join := by cases faults <;> rfl
  rw [clear_succ, hhead]
  exact and_iff_left fun _ hi => absurd hi (Nat.not_lt_zero _)

/-- The program has `n` statements to run, and its result is in `R` just when none of them fails from
outside. -/
def Ends (R : Except ρ α → Prop) (n : Nat) (p : Prog σ ε (Except ρ α)) (db : σ) (tx : Option σ) : Prop :=
  ∀ faults, R (exec p ⟨db, tx, faults⟩).1 ↔ Clear faults n

/-- The program has `n` statements to run and succeeds just when none of them fails from outside. -/
abbrev Takes (n : Nat) (p : Prog σ ε (Except ρ α)) (db : σ) (tx : Option σ) : Prop :=
  Ends (fun r => ∃ a, r = .ok a) n p db tx

section ends

variable {R : Except ρ α → Prop} {lift : ε → ρ} {n : Nat} {db : σ} {tx : Option σ}

theorem not_ok (e : ε) : ¬ ∃ a : α, (.error (lift e) : Except ρ α) = .ok a := by
  rintro ⟨a, h⟩
  cases h

theorem ends_ret {r : Except ρ α} (h : R r) : Ends R 0 (.ret r : Prog σ ε (Except ρ α)) db tx :=
  fun _ => iff_of_true h fun _ hi => absurd hi (Nat.not_lt_zero _)

theorem takes_ok (a : α) : Takes 0 (.ret (.ok a) : Prog σ ε (Except ρ α)) db tx := ends_ret ⟨a, rfl⟩

/-- One statement more. -/
theorem ends_succ {p q : Prog σ ε (Except ρ α)} {db' : σ} {tx' : Option σ}
    (herr : ∀ faults e, faults.head?.join = some e → ¬ R (exec p ⟨db, tx, faults⟩).1)
    (hok : ∀ faults, faults.head?.join = none → exec p ⟨db, tx, faults⟩ = exec q ⟨db', tx', faults.tail⟩)
    (h : Ends R n q db' tx') : Ends R (n + 1) p db tx := by
  intro faults
  rw [clear_succ]
  cases hf : faults.head?.join with
  | some e => exact iff_of_false (herr faults e hf) fun h => by cases h.1
  | none => rw [hok faults hf, h faults.tail, eq_self_iff_true, true_and]

variable (hR : ∀ e, ¬ R (.error (lift e)))

include hR

theorem ends_query {f : σ → β} {k : β → Prog σ ε (Except ρ α)} (h : Ends R n (k (f (tx.getD db))) db tx) :
    Ends R (n + 1) (query lift f k) db tx := by
  refine ends_succ (fun faults e hf => ?_) (fun faults hf => ?_) h
  · simp only [query, tryStmt, exec, Conn.fault, hf]
    exact hR e
  · simp only [query, tryStmt, exec, Conn.fault, hf, Conn.view]
    cases tx <;> rfl

/-- A write that cannot fail by itself, inside a transaction. -/
theorem ends_write_tx {g : σ → β × σ} {k : β → Prog σ ε (Except ρ α)} {t : σ}
    (h : Ends R n (k (g t).1) db (some (g t).2)) :
    Ends R (n + 1) (tryStmt lift (fun s => .ok (g s)) k) db (some t) := by
  refine ends_succ (fun faults e hf => ?_) (fun faults hf => ?_) h
  · simp only [tryStmt, exec, Conn.fault, hf]
    exact hR e
  · simp only [tryStmt, exec, Conn.fault, hf, Conn.view, Option.getD_some]
    rfl

theorem ends_begin {k : Prog σ ε (Except ρ α)} (h : Ends R n k db (some db)) :
    Ends R (n + 1) (begin lift k) db tx := by
  refine ends_succ (fun faults e hf => ?_) (fun faults hf => ?_) h
  · simp only [begin, exec, Conn.fault, hf]
    exact hR e
  · simp only [begin, exec, Conn.fault, hf]
    rfl

theorem ends_commit {k : Prog σ ε (Except ρ α)} (h : Ends R n k (tx.getD db) none) :
    Ends R (n + 1) (commit lift k) db tx := by
  refine ends_succ (fun faults e hf => ?_) (fun faults hf => ?_) h
  · simp only [commit, exec, Conn.fault, hf]
    exact hR e
  · simp only [commit, exec, Conn.fault, hf]
    rfl

omit hR

theorem ends_run {p : Prog σ ε (Except ρ α)} (h : Ends R n p db none) (faults : List (Option ε)) :
    R (run faults p db).1 ↔ Clear faults n :=
  h faults

end ends

/-! ## Invariants of every statement -/

/-- Every statement of the program keeps `I`, whatever the others did. -/
def Keeps (I : σ → Prop) : Prog σ ε α → Prop
  | .ret _ => True
  | .stmt f k => (∀ s b s', I s → f s = .ok (b, s') → I s') ∧ ∀ r, Keeps I (k r)
  | .begin_ k => ∀ r, Keeps I (k r)
  | .commit k => ∀ r, Keeps I (k r)

theorem Keeps.post {I : σ → Prop} : ∀ {p : Prog σ ε α} {db : σ} {tx : Option σ},
    Keeps I p → I db → (∀ t ∈ tx, I t) → Post (fun _ s => I s) p db tx
  | .ret _, _, _, _, hdb, _ => hdb
  | .stmt f k, db, tx, h, hdb, htx => by
    refine ⟨fun e => (h.2 _).post hdb htx, fun b s hs => ?_⟩
    cases tx with
    | none => exact (h.2 _).post (h.1 db b s hdb hs) (by simp)
    | some t => exact (h.2 _).post hdb (by rintro t' ⟨⟩; exact h.1 t b s (htx t rfl) hs)
  | .begin_ k, db, _, h, hdb, htx =>
    ⟨fun e => (h _).post hdb htx, (h _).post hdb (by rintro t ⟨⟩; exact hdb)⟩
  | .commit k, db, tx, h, hdb, htx => by
    refine ⟨fun e => (h _).post hdb htx, ?_⟩
    cases tx with
    | none => exact (h _).post hdb (by simp)
    | some t => exact (h _).post (htx t rfl) (by simp)

/-- A program all of whose statements keep `I` keeps `I`. -/
theorem Keeps.run {I : σ → Prop} {p : Prog σ ε α} {db : σ} (h : Keeps I p) (hdb : I db)
    (faults : List (Option ε)) : I (run faults p db).2 :=
  post_run (h.post hdb (by simp)) faults

section keeps

variable {I : σ → Prop} {lift : ε → ρ}

@[simp] theorem keeps_map {γ : Type} (f : α → γ) : ∀ p : Prog σ ε α, Keeps I (p.map f) ↔ Keeps I p
  | .ret _ => Iff.rfl
  | .stmt _ k => and_congr_right fun _ => forall_congr' fun r => keeps_map f (k r)
  | .begin_ k => forall_congr' fun r => keeps_map f (k r)
  | .commit k => forall_congr' fun r => keeps_map f (k r)

@[simp] theorem keeps_tryStmt (f : σ → Except ε (β × σ)) (k : β → Prog σ ε (Except ρ α)) :
    Keeps I (tryStmt lift f k) ↔
      (∀ s b s', I s → f s = .ok (b, s') → I s') ∧ ∀ b, Keeps I (k b) := by
  refine and_congr_right fun _ => ⟨fun h b => h (.ok b), fun h r => ?_⟩
  cases r with
  | ok b => exact h b
  | error e => trivial

@[simp] theorem keeps_query (f : σ → β) (k : β → Prog σ ε (Except ρ α)) :
    Keeps I (query lift f k) ↔ ∀ b, Keeps I (k b) := by
  rw [query, keeps_tryStmt]
  refine ⟨fun h => h.2, fun h => ⟨fun s b s' hs he => ?_, h⟩⟩
  cases he; exact hs

@[simp] theorem keeps_begin (k : Prog σ ε (Except ρ α)) : Keeps I (begin lift k) ↔ Keeps I k := by
  refine ⟨fun h => h (.ok ()), fun h r => ?_⟩
  cases r with
  | ok u => exact h
  | error e => trivial

@[simp] theorem keeps_commit (k : Prog σ ε (Except ρ α)) : Keeps I (commit lift k) ↔ Keeps I k := by
  refine ⟨fun h => h (.ok ()), fun h r => ?_⟩
  cases r with
  | ok u => exact h
  | error e => trivial

end keeps

end Txn
