import EtherTunnel.Lib.Serial
import EtherTunnel.Registry.Mutations
import EtherTunnel.Registry.Pool
import Mathlib.Data.List.Permutation

/-!
# Several registry handles on one database

The relay and every `etun admin` command open the same SQLite file (`main.rs:480`). The mutex of a
`Registry` orders the calls made through one handle and nothing else; between two handles there is only
SQLite:

| here | there |
| --- | --- |
| `registryStep` | one statement of one handle; a call ends with its last statement |
| `Serial.takesLock` | `BEGIN IMMEDIATE` and autocommitted writes wait for an open write transaction |
| a statement that reads | WAL readers see the last commit and never wait |
| `Faults` | a statement that fails, a lock wait past `busy_timeout` included |

`Serial.Apart` is the condition under which an interleaving is a serial execution: a handle takes no
step while a call of another has changed the database and is not finished, and changes nothing while a
call of another is between statements outside a transaction. Calls that are one statement or one
`IMMEDIATE` transaction always keep to it (`transactional_calls_serializable`); `prune_owned_to_cap`,
which picks its victims before its transaction, and `remove_user`, which has none, do not.
-/

namespace EtherTunnel

open Txn

/-- A call on a handle. The methods that only read (`list_*`, `owned_*`, `count_*`, `lookup_user_id`,
`owned_over_cap`) run some `SELECT`s and fail only if one of them does. -/
inductive Call where
  | change (m : Mutation)
  | read (selects : Nat)

def selects : Nat → Op Unit
  | 0 => Op.ok ()
  | n + 1 => query .db (fun _ => ()) fun _ => selects n

def Call.program : Call → Op Unit
  | .change m => m.program
  | .read n => selects n

/-- A call with the failures its statements meet. -/
abbrev Job := Faults × Call

abbrev Handles := Serial.Sys Db SqlError (Except RegistryError Unit) Job

/-- One statement of handle `i`. -/
def registryStep : Handles → Nat → Option Handles := Serial.step (fun j : Job => j.2.program) (·.1)

/-- Handles about to start their calls. -/
def opened (db : Db) (jobs : List (List Job)) : Handles := Serial.start db jobs

/-- The final database and the outcome of every call are those of some serial execution of whole calls
that keeps the order of each handle. -/
def Serializable (db : Db) (S : Handles) : Prop :=
  Serial.Serializable (fun j : Job => j.2.program) (·.1) db S

def CallsApart (S : Handles) (i : Nat) : Prop := Serial.Apart (fun j : Job => j.2.program) (·.1) S i

instance (S : Handles) (i : Nat) : Decidable (CallsApart S i) :=
  inferInstanceAs (Decidable (Serial.Apart (fun j : Job => j.2.program) (·.1) S i))

/-- The call that handle `i` is in, or starts next. -/
def Handles.call (S : Handles) (i : Nat) : Option Call :=
  (S.procs[i]?.bind (·.current (fun j : Job => j.2.program) (·.1))).map (·.1.job.2)

/-! ## What a call lets others see -/

namespace Db

variable {db : Db}

theorem owns_nothing {id : Int} (h : db.countTokens id + db.countOwned id ≤ 0) :
    (db.deleteHostnames (·.userId == id)).2.hostnames = db.hostnames ∧
      (db.deletePorts (·.userId == id)).2.tcpPorts = db.tcpPorts := by
  have hhosts : db.hostnames.filter (·.userId == id) = [] := by
    rw [← List.length_eq_zero_iff]; unfold countTokens countOwned at h; omega
  have hports : db.tcpPorts.filter (·.userId == id) = [] := by
    rw [← List.length_eq_zero_iff]; unfold countTokens countOwned at h; omega
  rw [List.filter_eq_nil_iff] at hhosts hports
  exact ⟨List.filter_eq_self.2 fun r hr => by simpa using hhosts r hr,
    List.filter_eq_self.2 fun r hr => by simpa using hports r hr⟩

end Db

/-- The labels and ports are those of `db`. -/
def SameOwned (db d : Db) : Prop := d.hostnames = db.hostnames ∧ d.tcpPorts = db.tcpPorts

theorem deleteUser_sameOwned {db db' : Db} {id : Int} {x : Unit} (h : db.deleteUser id = .ok (x, db')) :
    SameOwned db db' := by
  unfold Db.deleteUser at h
  split at h
  · cases h
  · cases h; exact ⟨rfl, rfl⟩

theorem removeUser_sees (db : Db) (name : String) :
    Sees (SameOwned db) (removeUser name false) db none := by
  refine (sees_query _ _).2 ⟨⟨rfl, rfl⟩, ?_⟩
  rw [Option.getD_none]
  cases db.userIdOf name with
  | none => exact ⟨rfl, rfl⟩
  | some id =>
    refine (sees_query _ _).2 ⟨⟨rfl, rfl⟩, ?_⟩
    split
    · exact ⟨rfl, rfl⟩
    · rename_i howns
      have hnothing : db.countTokens id + db.countOwned id ≤ 0 := by
        by_contra hlt
        exact howns ⟨by rw [Option.getD_none]; omega, rfl⟩
      obtain ⟨hhosts, hports⟩ := Db.owns_nothing hnothing
      refine (sees_write_auto _ _).2 ⟨⟨rfl, rfl⟩, (sees_write_auto _ _).2 ⟨⟨rfl, rfl⟩,
        (sees_write_auto _ _).2 ⟨⟨hhosts, rfl⟩, (sees_tryStmt_auto _ _).2 ⟨⟨hhosts, hports⟩,
          fun x d hd => ?_⟩⟩⟩⟩
      obtain ⟨hh, hp⟩ := deleteUser_sameOwned hd
      exact ⟨hh.trans hhosts, hp.trans hports⟩

section prune

variable {I : Db → Prop} {db : Db} {u : Int} {α : Type} {k : Op α}

theorem sees_pruneHosts (hI : I db) : ∀ {ls : List String} {t : Db},
    Sees I k db (some (t.dropOwned u ls [])) → Sees I (pruneHosts u ls k) db (some t)
  | [], t, h => by rw [Db.dropOwned_nil] at h; exact h
  | l :: ls, t, h => by
    refine (sees_write_tx _ _ _).2 ⟨hI, sees_pruneHosts hI ?_⟩
    rw [Db.dropOwned_cons_host]; exact h

theorem sees_prunePorts (hI : I db) : ∀ {ps : List UInt16} {t : Db},
    Sees I k db (some (t.dropOwned u [] ps)) → Sees I (prunePorts u ps k) db (some t)
  | [], t, h => by rw [Db.dropOwned_nil] at h; exact h
  | p :: ps, t, h => by
    refine (sees_write_tx _ _ _).2 ⟨hI, sees_prunePorts hI ?_⟩
    rw [Db.dropOwned_cons_port]; exact h

end prune

/-- Nothing is pruned yet, or everything past the cap is. -/
def PruneSeen (db : Db) (u cap : Int) (d : Db) : Prop :=
  d = db ∨ d = db.dropOwned u (db.overCap u cap).1 (db.overCap u cap).2

theorem pruneOwnedToCap_sees (db : Db) (u cap : Int) :
    Sees (PruneSeen db u cap) (pruneOwnedToCap u cap) db none := by
  have h0 : PruneSeen db u cap db := Or.inl rfl
  refine (sees_query _ _).2 ⟨h0, (sees_query _ _).2 ⟨h0, ?_⟩⟩
  dsimp only
  split
  · exact h0
  · refine (sees_begin _).2 ⟨h0, sees_pruneHosts h0 (sees_prunePorts h0 ?_)⟩
    rw [Db.dropOwned_dropOwned]
    exact (sees_commit _).2 ⟨h0, Or.inr rfl⟩

/-- Between two points of a prune the user keeps what the cap allows them. -/
theorem PruneSeen.keeps {db d d' : Db} {u cap : Int} (h : PruneSeen db u cap d) (h' : PruneSeen db u cap d') :
    min (max cap 0) (d.countOwned u) ≤ d'.countOwned u := by
  have hpruned : (db.dropOwned u (db.overCap u cap).1 (db.overCap u cap).2).countOwned u = _ :=
    db.countOwned_pruned
  rcases h with rfl | rfl <;> rcases h' with rfl | rfl <;> omega

/-! ## Runs -/

/-- The prune's deletes leave the user `min(cap, what they owned when the deletes ran)`. -/
def PruneKeepsCap (S : Handles) (i : Nat) : Prop :=
  ∀ u cap, S.call i = some (.change (.pruneOwnedToCap u cap)) → ∀ S' ∈ registryStep S i,
    min (max cap 0) (S.db.countOwned u) ≤ S'.db.countOwned u

/-- `remove_user` without force deletes no label and no port. -/
def RemoveSparesOwned (S : Handles) (i : Nat) : Prop :=
  ∀ name, S.call i = some (.change (.removeUser name false)) → ∀ S' ∈ registryStep S i,
    SameOwned S.db S'.db

section

variable {db : Db} {jobs : List (List Job)} {S S' : Handles} {i : Nat}

/-- The call is that of the job whose statement runs. -/
theorem call_of_step {p r todo} (hS : Serial.Step (fun j : Job => j.2.program) (·.1) S S' i p r todo) :
    S.call i = some r.job.2 := by
  rw [Handles.call, hS.proc, Option.bind_some, hS.current]; rfl

theorem prune_step (hI : Serial.Inv (fun j : Job => j.2.program) (·.1) db jobs S)
    (hap : CallsApart S i) : PruneKeepsCap S i := by
  intro u cap hcall S' hs
  obtain ⟨p, r, todo, hS⟩ := Serial.step_cases hs
  have hjob : r.job.2 = .change (.pruneOwnedToCap u cap) :=
    Option.some.inj ((call_of_step hS).symm.trans hcall)
  obtain ⟨h, h'⟩ := hI.step_sees hap hs hS (by
    rw [hjob]
    exact (sees_map _).2 (pruneOwnedToCap_sees _ u cap))
  exact h.keeps h'

theorem remove_step (hI : Serial.Inv (fun j : Job => j.2.program) (·.1) db jobs S)
    (hap : CallsApart S i) : RemoveSparesOwned S i := by
  intro name hcall S' hs
  obtain ⟨p, r, todo, hS⟩ := Serial.step_cases hs
  have hjob : r.job.2 = .change (.removeUser name false) :=
    Option.some.inj ((call_of_step hS).symm.trans hcall)
  obtain ⟨h, h'⟩ := hI.step_sees hap hs hS (by
    rw [hjob]
    exact (sees_map _).2 (removeUser_sees _ name))
  exact ⟨h'.1.trans h.1.symm, h'.2.trans h.2.symm⟩

end

/-- **Calls kept apart are serializable.** Over any interleaving of any calls on any number of handles
whose steps are apart, every handle works through its calls in order; whenever no call is under way the
database and all outcomes so far are those of a serial execution; a prune leaves the user what its cap
allows of what they owned at its deletes; and an unforced removal deletes no label and no port. -/
theorem handles_apart_serializable {db : Db} {jobs : List (List Job)} {acts : List Nat} {S : Handles}
    (hap : Lts.Steps registryStep CallsApart (opened db jobs) acts)
    (hrun : Lts.run registryStep (opened db jobs) acts = some S) :
    (∀ i p, S.procs[i]? = some p → S.finished i ++ p.pending = jobs.getD i []) ∧
      ((∀ p ∈ S.procs, p.running = none) → Serializable db S) ∧
      Lts.Steps registryStep PruneKeepsCap (opened db jobs) acts ∧
      Lts.Steps registryStep RemoveSparesOwned (opened db jobs) acts := by
  have hI := Serial.apart_serial hap hrun
  exact ⟨hI.order, hI.serializable,
    Lts.steps_of_inv (fun _ _ _ hI hap hs => hI.apart_step hap hs) (fun _ _ => prune_step)
      (Serial.start_inv db jobs) hap,
    Lts.steps_of_inv (fun _ _ _ hI hap hs => hI.apart_step hap hs) (fun _ _ => remove_step)
      (Serial.start_inv db jobs) hap⟩

/-- `ann`, who owns nothing. -/
def annAdded : Db := (Mutation.addUser 0 "ann").exec [] Db.empty

/-- `ann` with the label `blog` and the younger label `shop`. -/
def annOwning : Db :=
  [Mutation.claimLabelCapped 1 1 "blog" none, Mutation.claimLabelCapped 2 1 "shop" none].foldl
    (fun db m => m.exec [] db) annAdded

/-- The relay prunes `ann` to one label; an admin command reads, then removes `ann` by force. -/
def pruneAndRead : List (List Job) :=
  [[([], .change (.pruneOwnedToCap 1 1))], [([], .read 1), ([], .change (.removeUser "ann" true))]]

/-- The read may fall between the statements of the prune; the removal comes after it. -/
theorem handles_apart_serializable_reads :
    Lts.Steps registryStep CallsApart (opened annOwning pruneAndRead) [0, 1, 0, 0, 0, 0, 1, 1, 1, 1, 1, 1] ∧
    ∃ S, Lts.run registryStep (opened annOwning pruneAndRead) [0, 1, 0, 0, 0, 0, 1, 1, 1, 1, 1, 1] =
      some S ∧ Serializable annOwning S := by
  have hap : Lts.Steps registryStep CallsApart (opened annOwning pruneAndRead)
      [0, 1, 0, 0, 0, 0, 1, 1, 1, 1, 1, 1] := by decide
  exact ⟨hap, _, rfl, (handles_apart_serializable hap rfl).2.1 (by decide)⟩

def removeAnn : Job := ([], .change (.removeUser "ann" false))

def claimShop : Job := ([], .change (.claimLabelCapped 0 1 "shop" none))

/-- No order of the two calls has both succeed. -/
theorem remove_claim_exclude {order : List (Nat × Job × Except RegistryError Unit)}
    (h : order.Perm [(1, claimShop, .ok ()), (0, removeAnn, .ok ())]) :
    (Serial.serial (fun j : Job => j.2.program) (·.1) annAdded (order.map (·.2.1))).1 ≠
      order.map (·.2.2) := by
  have hmem : order ∈ [[(1, claimShop, .ok ()), (0, removeAnn, .ok ())],
      [(0, removeAnn, .ok ()), (1, claimShop, .ok ())]] := List.mem_permutations'.2 h
  simp only [List.mem_cons, List.not_mem_nil, or_false] at hmem
  rcases hmem with rfl | rfl <;> decide

/-- A removal that has counted what `ann` owns lets a claim succeed and then deletes the claimed label:
no order of the two calls has both succeed. A prune that has picked `shop` to go deletes it after
`blog` has been removed: `ann`, who may keep one label and has one, is left with none. -/
theorem removal_races_claim :
    (∃ S, Lts.run registryStep (opened annAdded [[removeAnn], [claimShop]])
        [0, 0, 1, 1, 1, 1, 0, 0, 0, 0] = some S ∧
      S.log = [(1, claimShop, .ok ()), (0, removeAnn, .ok ())] ∧
      S.db.labelOwner "shop" = none ∧ ¬Serializable annAdded S) ∧
    ∃ S, Lts.run registryStep (opened annOwning
        [[([], .change (.pruneOwnedToCap 1 1))], [([], .change (.removeHostname "blog"))]])
        [0, 0, 1, 0, 0] = some S ∧
      S.db.countOwned 1 = 1 ∧ ∃ S', registryStep S 0 = some S' ∧ S'.db.countOwned 1 = 0 := by
  constructor
  · obtain ⟨S, hrun, hlog, hdb⟩ : ∃ S, Lts.run registryStep (opened annAdded [[removeAnn], [claimShop]])
        [0, 0, 1, 1, 1, 1, 0, 0, 0, 0] = some S ∧
        S.log = [(1, claimShop, .ok ()), (0, removeAnn, .ok ())] ∧
        S.db.labelOwner "shop" = none := ⟨_, rfl, rfl, by decide⟩
    refine ⟨S, hrun, hlog, hdb, ?_⟩
    rintro ⟨order, hfilter, hserial⟩
    rw [hlog] at hfilter
    exact remove_claim_exclude (Serial.perm_of_filter hfilter) (congrArg Prod.fst hserial)
  · exact ⟨_, rfl, by decide, _, rfl, by decide⟩

/-! ## Calls in one transaction -/

/-- The calls that are a single statement or a single `IMMEDIATE` transaction. -/
def Call.Transactional : Call → Prop
  | .change (.claimLabelCapped ..) | .change (.addPort ..) | .change (.releaseUserHostnames ..)
  | .change (.releaseHostnameOwned ..) | .change (.releasePortOwned ..) | .change (.removeHostname _)
  | .change (.removePort _) | .change (.revokeToken ..) => True
  | .change _ => False
  | .read n => n ≤ 1

section oneTx

open Serial

theorem closed_withUserId {α : Type} {name : String} {k : Int → Op α} (h : ∀ id, Closed (k id)) :
    Closed (withUserId name k) :=
  closed_tryStmt fun b => by
    cases b with
    | some id => exact h id
    | none => trivial

theorem claimInsert_closed (now u : Int) (label : String) : Closed (claimInsert now u label)
  | .ok _ => closed_commit ⟨_, rfl⟩
  | .error e => by cases e <;> trivial

theorem claimLabelCapped_oneTx (now u : Int) (label : String) (max : Option Int) :
    OneTx (claimLabelCapped now u label max) := by
  unfold claimLabelCapped
  split
  · trivial
  · refine oneTx_begin (closed_tryStmt fun owner => ?_)
    cases owner with
    | some id => dsimp only; split <;> trivial
    | none =>
      cases max with
      | none => exact claimInsert_closed now u label
      | some m =>
        refine closed_tryStmt fun owned => ?_
        split
        · trivial
        · exact claimInsert_closed now u label

theorem addPort_oneTx (now : Int) (port : UInt16) (user : String) : OneTx (addPort now port user) := by
  refine oneTx_begin (closed_withUserId fun id => closed_tryStmt fun taken => ?_)
  split
  · trivial
  · exact closed_tryStmt fun _ => closed_commit ⟨_, rfl⟩

theorem releaseUserHostnames_oneTx (name : String) (ports : Bool) :
    OneTx (releaseUserHostnames name ports) := by
  refine oneTx_begin (closed_withUserId fun id => closed_tryStmt fun _ => closed_tryStmt fun _ => ?_)
  split
  · exact closed_tryStmt fun _ => closed_tryStmt fun _ => closed_commit ⟨_, rfl⟩
  · exact closed_commit ⟨_, rfl⟩

theorem releaseHostnameOwned_oneTx (domain : String) (u : Int) (name : String) :
    OneTx (releaseHostnameOwned domain u name) := by
  unfold releaseHostnameOwned
  split
  · trivial
  · exact oneTx_tryStmt fun _ => ⟨_, rfl⟩

theorem Call.Transactional.oneTx : ∀ {c : Call}, c.Transactional → OneTx c.program
  | .change (.claimLabelCapped ..), _ => oneTx_map _ (claimLabelCapped_oneTx ..)
  | .change (.addPort ..), _ => oneTx_map _ (addPort_oneTx ..)
  | .change (.releaseUserHostnames ..), _ => oneTx_map _ (releaseUserHostnames_oneTx ..)
  | .change (.releaseHostnameOwned ..), _ => oneTx_map _ (releaseHostnameOwned_oneTx ..)
  | .change (.releasePortOwned ..), _ => oneTx_map _ (oneTx_tryStmt fun _ => ⟨_, rfl⟩)
  | .change (.removeHostname _), _ => oneTx_map _ (oneTx_tryStmt fun _ => ⟨_, rfl⟩)
  | .change (.removePort _), _ => oneTx_map _ (oneTx_tryStmt fun _ => ⟨_, rfl⟩)
  | .change (.revokeToken ..), _ => oneTx_map _ (oneTx_tryStmt fun _ => ⟨_, rfl⟩)
  | .read 0, _ => trivial
  | .read 1, _ => oneTx_tryStmt fun _ => ⟨_, rfl⟩

end oneTx

/-- **Transactions are enough.** Calls that are one statement or one `IMMEDIATE` transaction are
serializable under every interleaving. -/
theorem transactional_calls_serializable {db : Db} {jobs : List (List Job)} {acts : List Nat}
    {S : Handles} (hjobs : ∀ js ∈ jobs, ∀ j ∈ js, j.2.Transactional)
    (hrun : Lts.run registryStep (opened db jobs) acts = some S)
    (hidle : ∀ p ∈ S.procs, p.running = none) : Serializable db S :=
  (Serial.apart_serial (Serial.oneTx_apart db (fun js hjs j hj => (hjobs js hjs j hj).oneTx) acts)
    hrun).serializable hidle

end EtherTunnel
