import EtherTunnel.Registry.Ops

/-!
# Calls that change the registry

| here | there |
| --- | --- |
| `Mutation` | a call of one of the registry's mutating methods |
| `Mutation.program` | its statements, with the result reduced to success or the error |
| `Mutation.exec`, `Mutation.step` | the database the call leaves |
| `Reachable` | the databases any sequence of calls can leave, with any statement failing |

`Mutation.Keeps I m` lists the statements that `m` may run and says that each keeps `I`;
`program_keeps` walks through the fifteen programs once, so that an invariant of the registry is a
matter of single statements.
-/

namespace EtherTunnel

open Txn

/-! ## Calls -/

inductive Mutation where
  | addUser (now : Int) (name : String)
  | removeUser (name : String) (force : Bool)
  | provisionUserToken (now : Int) (token : String) (hash : List UInt8) (name : String)
  | rotateUserToken (now : Int) (token : String) (hash : List UInt8) (name : String)
  | createToken (now : Int) (token : String) (hash : List UInt8) (user : String) (label : Option String)
  | revokeToken (now id : Int)
  | addHostname (now : Int) (label user : String)
  | removeHostname (label : String)
  | addPort (now : Int) (port : UInt16) (user : String)
  | removePort (port : UInt16)
  | releaseUserHostnames (name : String) (releasePorts : Bool)
  | releaseHostnameOwned (domain : String) (userId : Int) (name : String)
  | releasePortOwned (userId : Int) (port : UInt16)
  | claimLabelCapped (now userId : Int) (label : String) (max : Option Int)
  | pruneOwnedToCap (userId cap : Int)

/-- An operation with its `Ok` value forgotten. -/
def Op.outcome {α : Type} (p : Op α) : Op Unit := p.map fun
  | .ok _ => .ok ()
  | .error e => .error e

theorem Op.run_outcome {α : Type} (p : Op α) (faults : Faults) (db : Db) :
    (run faults p.outcome db).2 = (run faults p db).2 := by
  rw [Op.outcome, run_map]

def Mutation.program : Mutation → Op Unit
  | .addUser now name => (EtherTunnel.addUser now name).outcome
  | .removeUser name force => (EtherTunnel.removeUser name force).outcome
  | .provisionUserToken now token hash name =>
    (EtherTunnel.provisionUserToken now token hash name).outcome
  | .rotateUserToken now token hash name => (EtherTunnel.rotateUserToken now token hash name).outcome
  | .createToken now token hash user label =>
    (EtherTunnel.createToken now token hash user label).outcome
  | .revokeToken now id => (EtherTunnel.revokeToken now id).outcome
  | .addHostname now label user => (EtherTunnel.addHostname now label user).outcome
  | .removeHostname label => (EtherTunnel.removeHostname label).outcome
  | .addPort now port user => (EtherTunnel.addPort now port user).outcome
  | .removePort port => (EtherTunnel.removePort port).outcome
  | .releaseUserHostnames name ports => (EtherTunnel.releaseUserHostnames name ports).outcome
  | .releaseHostnameOwned domain u name => (EtherTunnel.releaseHostnameOwned domain u name).outcome
  | .releasePortOwned u port => (EtherTunnel.releasePortOwned u port).outcome
  | .claimLabelCapped now u label max => (EtherTunnel.claimLabelCapped now u label max).outcome
  | .pruneOwnedToCap u cap => (EtherTunnel.pruneOwnedToCap u cap).outcome

/-- The database a call leaves. -/
def Mutation.exec (faults : Faults) (db : Db) (m : Mutation) : Db := (run faults m.program db).2

/-- Success, or the error the call returns. -/
def Mutation.result (faults : Faults) (db : Db) (m : Mutation) : Except RegistryError Unit :=
  (run faults m.program db).1

/-- The registry as a system: one call, with the failures its statements meet. -/
def Mutation.step (db : Db) (c : Faults × Mutation) : Option Db := some (c.2.exec c.1 db)

/-- What a sequence of calls can leave, whichever statements fail on the way. -/
inductive Reachable : Db → Prop where
  | empty : Reachable Db.empty
  | call {db : Db} (h : Reachable db) (faults : Faults) (m : Mutation) : Reachable (m.exec faults db)

theorem Reachable.calls : ∀ (ms : List Mutation) {db : Db}, Reachable db →
    Reachable (ms.foldl (fun db m => m.exec [] db) db)
  | [], _, h => h
  | m :: ms, _, h => Reachable.calls ms (h.call [] m)

/-! ## What every statement of a call keeps -/

/-- The label a call may insert. -/
def Mutation.label? : Mutation → Option String
  | .addHostname _ label _ | .claimLabelCapped _ _ label _ => some label
  | _ => none

/-- The port a call may insert. -/
def Mutation.port? : Mutation → Option UInt16
  | .addPort _ port _ => some port
  | _ => none

/-- The account a call may create. -/
def Mutation.account? : Mutation → Option String
  | .addUser _ name | .provisionUserToken _ _ _ name | .rotateUserToken _ _ _ name => some name
  | _ => none

/-- The account a call may remove. -/
def Mutation.removed? : Mutation → Option String
  | .removeUser name _ => some name
  | _ => none

/-- The statements that `m` may run keep `I`. -/
structure Mutation.Keeps (I : Db → Prop) (m : Mutation) : Prop where
  deleteTokens : ∀ db p, I db → I (db.deleteTokens p).2
  revokeTokens : ∀ db p now, I db → I (db.revokeTokens p now).2
  deleteHostnames : ∀ db p, I db → I (db.deleteHostnames p).2
  deletePorts : ∀ db p, I db → I (db.deletePorts p).2
  insertToken : ∀ db u hash label now id db', I db →
    db.insertToken u hash label now = .ok (id, db') → I db'
  insertUser : ∀ name ∈ m.account?, ∀ now db id db', I db →
    db.insertUser name now = .ok (id, db') → I db'
  deleteUser : m.removed?.isSome → ∀ id db x db', I db → db.deleteUser id = .ok (x, db') → I db'
  insertHostname : ∀ label ∈ m.label?, validateLabel label = .ok () → ∀ u now db b db', I db →
    db.insertHostname u label now = .ok (b, db') → I db'
  insertPort : ∀ port ∈ m.port?, ∀ u now db b db', I db →
    db.insertPort port u now = .ok (b, db') → I db'

section keeps

variable {I : Db → Prop} {α : Type}

/-- A write that cannot fail by itself. -/
theorem keeps_write {β : Type} {g : Db → β × Db} {k : β → Op α} (hg : ∀ db, I db → I (g db).2)
    (hk : ∀ b, Txn.Keeps I (k b)) : Txn.Keeps I (tryStmt .db (fun db => .ok (g db)) k) := by
  refine (keeps_tryStmt _ _).2 ⟨fun db b db' hdb h => ?_, hk⟩
  have hdb' := hg db hdb
  rw [Except.ok.inj h] at hdb'
  exact hdb'

theorem keeps_addUser {now : Int} {name : String}
    (hins : ∀ db id db', I db → db.insertUser name now = .ok (id, db') → I db') :
    Txn.Keeps I (EtherTunnel.addUser now name) := by
  unfold EtherTunnel.addUser
  split
  · trivial
  · split
    · trivial
    · refine (keeps_query _ _).2 fun found => ?_
      split
      · trivial
      · exact (keeps_tryStmt _ _).2 ⟨hins, fun _ => trivial⟩

theorem keeps_withUserId {name : String} {k : Int → Op α} (h : ∀ id, Txn.Keeps I (k id)) :
    Txn.Keeps I (withUserId name k) := by
  refine (keeps_query _ _).2 fun b => ?_
  cases b with
  | none => trivial
  | some id => exact h id

theorem keeps_withAccount {now : Int} {name : String} {k : Int → Bool → Op α}
    (hins : ∀ db id db', I db → db.insertUser name now = .ok (id, db') → I db')
    (h : ∀ id b, Txn.Keeps I (k id b)) : Txn.Keeps I (withAccount now name k) := by
  refine (keeps_query _ _).2 fun b => ?_
  cases b with
  | none => exact (keeps_tryStmt _ _).2 ⟨hins, fun id => h id true⟩
  | some id => exact h id false

theorem keeps_removeUser {name : String} {force : Bool}
    (htokens : ∀ db p, I db → I (db.deleteTokens p).2)
    (hhosts : ∀ db p, I db → I (db.deleteHostnames p).2)
    (hports : ∀ db p, I db → I (db.deletePorts p).2)
    (huser : ∀ id db x db', I db → db.deleteUser id = .ok (x, db') → I db') :
    Txn.Keeps I (EtherTunnel.removeUser name force) := by
  refine keeps_withUserId fun id => (keeps_query _ _).2 fun owns => ?_
  split
  · trivial
  · exact keeps_write (fun db => htokens db _) fun _ => keeps_write (fun db => hhosts db _) fun _ =>
      keeps_write (fun db => hports db _) fun _ => (keeps_tryStmt _ _).2 ⟨huser id, fun _ => trivial⟩

theorem keeps_claimLabelCapped (now u : Int) (label : String) (max : Option Int)
    (hins : validateLabel label = .ok () → ∀ db b db', I db →
      db.insertHostname u label now = .ok (b, db') → I db') :
    Txn.Keeps I (claimLabelCapped now u label max) := by
  unfold claimLabelCapped
  split
  · trivial
  · rename_i hl
    have hins : Txn.Keeps I (claimInsert now u label) := by
      refine ⟨hins hl, fun r => ?_⟩
      cases r with
      | ok b => exact (keeps_commit _).2 trivial
      | error e => cases e <;> trivial
    refine (keeps_begin _).2 ((keeps_query _ _).2 fun owner => ?_)
    cases owner with
    | some id => dsimp only; split <;> trivial
    | none =>
      cases max with
      | none => exact hins
      | some m =>
        refine (keeps_query _ _).2 fun owned => ?_
        split
        · trivial
        · exact hins

theorem keeps_addHostname {now : Int} {label user : String}
    (hins : validateLabel label = .ok () → ∀ u db b db', I db →
      db.insertHostname u label now = .ok (b, db') → I db') :
    Txn.Keeps I (EtherTunnel.addHostname now label user) := by
  unfold EtherTunnel.addHostname
  split
  · trivial
  · rename_i hl
    refine keeps_withUserId fun id => (keeps_query _ _).2 fun owner => ?_
    split
    · trivial
    · exact (keeps_tryStmt _ _).2 ⟨hins hl id, fun _ => trivial⟩

theorem keeps_addPort {now : Int} {port : UInt16} {user : String}
    (hins : ∀ u db b db', I db → db.insertPort port u now = .ok (b, db') → I db') :
    Txn.Keeps I (EtherTunnel.addPort now port user) := by
  refine (keeps_begin _).2 (keeps_withUserId fun id => (keeps_query _ _).2 fun taken => ?_)
  split
  · trivial
  · exact (keeps_tryStmt _ _).2 ⟨hins id, fun _ => (keeps_commit _).2 trivial⟩

theorem keeps_releaseUserHostnames {name : String} {ports : Bool}
    (hhosts : ∀ db p, I db → I (db.deleteHostnames p).2)
    (hports : ∀ db p, I db → I (db.deletePorts p).2) :
    Txn.Keeps I (EtherTunnel.releaseUserHostnames name ports) := by
  refine (keeps_begin _).2 (keeps_withUserId fun id => (keeps_query _ _).2 fun hosts =>
    keeps_write (fun db => hhosts db _) fun _ => ?_)
  split
  · exact (keeps_query _ _).2 fun _ => keeps_write (fun db => hports db _) fun _ =>
      (keeps_commit _).2 trivial
  · exact (keeps_commit _).2 trivial

theorem keeps_releaseHostnameOwned {domain name : String} {u : Int}
    (hhosts : ∀ db p, I db → I (db.deleteHostnames p).2) :
    Txn.Keeps I (EtherTunnel.releaseHostnameOwned domain u name) := by
  unfold EtherTunnel.releaseHostnameOwned
  split
  · trivial
  · exact keeps_write (fun db => hhosts db _) fun _ => trivial

/-- The two delete loops of a prune. -/
theorem keeps_prune {u : Int} {k : Op α} (hhosts : ∀ db p, I db → I (db.deleteHostnames p).2)
    (hports : ∀ db p, I db → I (db.deletePorts p).2) (hk : Txn.Keeps I k) :
    ∀ (ls : List String) (ps : List UInt16), Txn.Keeps I (pruneHosts u ls (prunePorts u ps k))
  | [], [] => hk
  | [], _ :: ps => keeps_write (fun db => hports db _) fun _ => keeps_prune hhosts hports hk [] ps
  | _ :: ls, ps => keeps_write (fun db => hhosts db _) fun _ => keeps_prune hhosts hports hk ls ps

theorem keeps_pruneOwnedToCap {u cap : Int} (hhosts : ∀ db p, I db → I (db.deleteHostnames p).2)
    (hports : ∀ db p, I db → I (db.deletePorts p).2) :
    Txn.Keeps I (EtherTunnel.pruneOwnedToCap u cap) := by
  refine (keeps_query _ _).2 fun hosts => (keeps_query _ _).2 fun ports => ?_
  dsimp only
  split
  · trivial
  · exact (keeps_begin _).2 (keeps_prune hhosts hports ((keeps_commit _).2 (by trivial)) _ _)

/-- **What a call keeps.** -/
theorem Mutation.program_keeps : ∀ {m : Mutation}, m.Keeps I → Txn.Keeps I m.program
  | .addUser now name, h => (keeps_map _ _).2 (keeps_addUser (h.insertUser name rfl now))
  | .removeUser .., h => (keeps_map _ _).2
    (keeps_removeUser h.deleteTokens h.deleteHostnames h.deletePorts (h.deleteUser rfl))
  | .provisionUserToken now _ _ name, h => (keeps_map _ _).2
    (keeps_withAccount (h.insertUser name rfl now) fun _ _ =>
      (keeps_tryStmt _ _).2 ⟨fun db => h.insertToken db _ _ _ _, fun _ => trivial⟩)
  | .rotateUserToken now _ _ name, h => (keeps_map _ _).2
    (keeps_withAccount (h.insertUser name rfl now) fun _ _ =>
      keeps_write (fun db => h.revokeTokens db _ _) fun _ =>
        (keeps_tryStmt _ _).2 ⟨fun db => h.insertToken db _ _ _ _, fun _ => trivial⟩)
  | .createToken .., h => (keeps_map _ _).2 (keeps_withUserId fun _ =>
      (keeps_tryStmt _ _).2 ⟨fun db => h.insertToken db _ _ _ _, fun _ => trivial⟩)
  | .revokeToken .., h => (keeps_map _ _).2
    (keeps_write (fun db => h.revokeTokens db _ _) fun _ => trivial)
  | .addHostname now label _, h => (keeps_map _ _).2
    (keeps_addHostname fun hl u => h.insertHostname label rfl hl u now)
  | .removeHostname _, h => (keeps_map _ _).2
    (keeps_write (fun db => h.deleteHostnames db _) fun _ => trivial)
  | .addPort now port _, h => (keeps_map _ _).2 (keeps_addPort fun u => h.insertPort port rfl u now)
  | .removePort _, h => (keeps_map _ _).2
    (keeps_write (fun db => h.deletePorts db _) fun _ => trivial)
  | .releaseUserHostnames .., h => (keeps_map _ _).2
    (keeps_releaseUserHostnames h.deleteHostnames h.deletePorts)
  | .releaseHostnameOwned .., h => (keeps_map _ _).2 (keeps_releaseHostnameOwned h.deleteHostnames)
  | .releasePortOwned .., h => (keeps_map _ _).2
    (keeps_write (fun db => h.deletePorts db _) fun _ => trivial)
  | .claimLabelCapped now u label max, h => (keeps_map _ _).2
    (keeps_claimLabelCapped now u label max fun hl => h.insertHostname label rfl hl u now)
  | .pruneOwnedToCap .., h => (keeps_map _ _).2 (keeps_pruneOwnedToCap h.deleteHostnames h.deletePorts)

theorem Mutation.exec_of_keeps {m : Mutation} (h : m.Keeps I) {db : Db} (hdb : I db) (faults : Faults) :
    I (m.exec faults db) :=
  (Mutation.program_keeps h).run hdb faults

end keeps

end EtherTunnel
