import EtherTunnel.Lib.Files
import EtherTunnel.Lib.Threads

/-!
# Replacing a file

| here | there |
| --- | --- |
| `DiskPath.withExtension` | `Path::with_extension`, for a path that has a file name |
| `WriteCall.step` | `atomic_write` (`paths.rs:60-87` of the client, `acme.rs:356-380` of the relay: the same body) |
| `Disk.sys` | any number of them, in any number of processes, over one file system |

Tokens, the configuration, the status snapshot, the certificate, its key and the ACME account are all written
this way. A process may be killed at any system call, any call may fail, and the machine may lose power.
`remove_file` and `sync_all` have their results ignored; `write_all` takes as many writes as it takes. `maker`
is carried along: the thread that created a file.
-/

namespace EtherTunnel

open Files Threads

structure DiskPath where
  parent : String
  fileStem : String
  extension : Option String
deriving DecidableEq

def DiskPath.withExtension (path : DiskPath) (extension : String) : DiskPath :=
  { path with extension := some extension }

/-- One `atomic_write(path, bytes, mode)`. -/
structure WriteCall where
  path : DiskPath
  bytes : List UInt8
  mode : UInt32
deriving DecidableEq

def WriteCall.tmp (c : WriteCall) : DiskPath := c.path.withExtension "tmp"

inductive WritePhase where
  | removing
  | creating
  | writing (n : Nat) (rest : List UInt8)
  | syncing (n : Nat)
  | renaming (n : Nat)
deriving DecidableEq

inductive Writer where
  | idle
  | running (boot : Nat) (c : WriteCall) (phase : WritePhase)
  | returned (ok : Bool)
  | killed
deriving DecidableEq

/-- A system call, and whether it succeeds; `write` takes `k + 1` more bytes. -/
inductive WriterAct where
  | call (c : WriteCall)
  | remove (ok : Bool)
  | create (ok : Bool)
  | write (k : Nat) (ok : Bool)
  | sync (ok : Bool)
  | rename (ok : Bool)
  | kill
deriving DecidableEq

inductive DiskEvent where
  | flushInode (n : Nat)
  | flushName (path : DiskPath)
  | plant (path : DiskPath) (node : Node DiskPath)
  | powerLoss

structure Disk where
  fs : Fs DiskPath
  boot : Nat := 0
  maker : Nat → Option Nat := fun _ => none

section steps

variable (umask : UInt32)

def WriteCall.step (c : WriteCall) (i : Nat) (d : Disk) (boot : Nat) :
    WritePhase → WriterAct → Option (Disk × Writer)
  | .removing, .remove ok =>
    some (if ok then { d with fs := d.fs.unlink c.tmp } else d, .running boot c .creating)
  | .creating, .create true =>
    match d.fs.createNew c.tmp (c.mode &&& ~~~umask) with
    | some fs =>
      some ({ d with fs := fs, maker := Function.update d.maker d.fs.next (some i) },
        .running boot c (.writing d.fs.next c.bytes))
    | none => some (d, .returned false)
  | .creating, .create false => some (d, .returned false)
  | .writing n rest, .write k true =>
    if rest = [] then some (d, .running boot c (.syncing n))
    else
      some ({ d with fs := d.fs.append n (rest.take (k + 1)) },
        .running boot c (.writing n (rest.drop (k + 1))))
  | .writing _ _, .write _ false => some (d, .returned false)
  | .syncing n, .sync ok =>
    some (if ok then { d with fs := d.fs.flushInode n } else d, .running boot c (.renaming n))
  | .renaming _, .rename true =>
    match d.fs.rename c.tmp c.path with
    | some fs => some ({ d with fs := fs }, .returned true)
    | none => some (d, .returned false)
  | .renaming _, .rename false => some (d, .returned false)
  | _, .kill => some (d, .killed)
  | _, _ => none

def Disk.writer (i : Nat) (d : Disk) : Writer → WriterAct → Option (Disk × Writer)
  | .idle, .call c => some (d, .running d.boot c .removing)
  | .running boot c phase, a => if boot = d.boot then c.step umask i d boot phase a else none
  | _, _ => none

def Disk.env (d : Disk) : DiskEvent → Option Disk
  | .flushInode n => some { d with fs := d.fs.flushInode n }
  | .flushName path => some { d with fs := d.fs.flushName path }
  | .plant path node => some { d with fs := d.fs.plant path node }
  | .powerLoss => some { d with fs := d.fs.powerLoss, boot := d.boot + 1 }

abbrev DiskSys := Sys Disk Writer

def Disk.sys : DiskSys → Act WriterAct DiskEvent → Option DiskSys :=
  Threads.step .idle (Disk.writer umask) Disk.env

end steps

/-! ## One step -/

section moves

variable {umask : UInt32} {c : WriteCall} {i : Nat} {d d' : Disk} {boot : Nat} {phase : WritePhase}
  {a : WriterAct} {w : Writer}

/-- What one system call does. -/
inductive WriteCall.Moved (umask : UInt32) (c : WriteCall) (i : Nat) (d : Disk) (boot : Nat) :
    WritePhase → WriterAct → Disk → Writer → Prop where
  | failed {phase : WritePhase} {a : WriterAct} : Moved umask c i d boot phase a d (.returned false)
  | killed {phase : WritePhase} : Moved umask c i d boot phase .kill d .killed
  | kept : Moved umask c i d boot .removing (.remove false) d (.running boot c .creating)
  | removed :
      Moved umask c i d boot .removing (.remove true) { d with fs := d.fs.unlink c.tmp }
        (.running boot c .creating)
  | created (hfree : d.fs.dir c.tmp = none) :
      Moved umask c i d boot .creating (.create true)
        { d with
          fs := d.fs.createFile c.tmp (c.mode &&& ~~~umask) []
          maker := Function.update d.maker d.fs.next (some i) }
        (.running boot c (.writing d.fs.next c.bytes))
  | wrote {n k : Nat} {rest : List UInt8} :
      Moved umask c i d boot (.writing n rest) (.write k true)
        { d with fs := d.fs.append n (rest.take (k + 1)) }
        (.running boot c (.writing n (rest.drop (k + 1))))
  | complete {n k : Nat} :
      Moved umask c i d boot (.writing n []) (.write k true) d (.running boot c (.syncing n))
  | unsynced {n : Nat} :
      Moved umask c i d boot (.syncing n) (.sync false) d (.running boot c (.renaming n))
  | synced {n : Nat} :
      Moved umask c i d boot (.syncing n) (.sync true) { d with fs := d.fs.flushInode n }
        (.running boot c (.renaming n))
  | renamed {n : Nat} {fs : Fs DiskPath} (hrename : d.fs.rename c.tmp c.path = some fs) :
      Moved umask c i d boot (.renaming n) (.rename true) { d with fs := fs } (.returned true)

theorem WriteCall.moved (h : c.step umask i d boot phase a = some (d', w)) :
    c.Moved umask i d boot phase a d' w := by
  cases a with
  | call c' => cases phase <;> cases h
  | remove ok =>
    cases phase <;> cases ok <;> cases h
    · exact .kept
    · exact .removed
  | create ok =>
    cases phase <;> cases ok <;> try cases h
    · exact .failed
    · simp only [WriteCall.step] at h
      split at h
      · rename_i fs hfs
        obtain ⟨hfree, rfl⟩ := Fs.createNew_eq_some hfs
        cases h
        exact .created hfree
      · cases h
        exact .failed
  | write k ok =>
    cases phase <;> cases ok <;> try cases h
    · exact .failed
    · simp only [WriteCall.step] at h
      split at h
      · rename_i hrest
        subst hrest
        cases h
        exact .complete
      · cases h
        exact .wrote
  | sync ok =>
    cases phase <;> cases ok <;> cases h
    · exact .unsynced
    · exact .synced
  | rename ok =>
    cases phase <;> cases ok <;> try cases h
    · exact .failed
    · simp only [WriteCall.step] at h
      split at h
      · rename_i fs hfs
        cases h
        exact .renamed hfs
      · cases h
        exact .failed
  | kill => cases phase <;> cases h <;> exact .killed

/-- A step of a thread: a call begins, or one that runs on this boot goes on. -/
theorem Disk.writer_moved {t : Writer} (h : Disk.writer umask i d t a = some (d', w)) :
    (∃ c, t = .idle ∧ a = .call c ∧ d' = d ∧ w = .running d.boot c .removing) ∨
    ∃ c phase, t = .running d.boot c phase ∧ c.Moved umask i d d.boot phase a d' w := by
  cases t with
  | idle =>
    cases a <;> cases h
    exact .inl ⟨_, rfl, rfl, rfl, rfl⟩
  | running boot c phase =>
    obtain ⟨rfl, hstep⟩ := Option.ite_none_right_eq_some.1 h
    exact .inr ⟨c, phase, rfl, WriteCall.moved hstep⟩
  | returned ok => cases h
  | killed => cases h

end moves

/-! ## Old or new -/

/-- Not a temporary file. -/
def DiskPath.Target (path : DiskPath) : Prop := path.extension ≠ some "tmp"

instance (path : DiskPath) : Decidable path.Target := inferInstanceAs (Decidable (_ ≠ _))

theorem WriteCall.tmp_not_target (c : WriteCall) : ¬ c.tmp.Target := fun h => h rfl

/-- The file that a call has open, or has closed and is about to rename. -/
def WritePhase.file : WritePhase → Option Nat
  | .removing | .creating => none
  | .writing n _ | .syncing n | .renaming n => some n

def WritePhase.rest : WritePhase → List UInt8
  | .writing _ rest => rest
  | _ => []

/-- Between its `create_new` and its `rename`, on a machine that still runs. -/
def Writer.holdsAt (boot : Nat) (path : DiskPath) : Writer → Bool
  | .running b c phase => decide (b = boot) && phase.file.isSome && decide (c.tmp = path)
  | _ => false

def Writer.tmp : Writer → Option DiskPath
  | .running _ c _ => some c.tmp
  | _ => none

/-- Nobody is between creating and renaming the temporary file. -/
def NoHolder (S : DiskSys) (path : DiskPath) : Prop := ∀ w ∈ S.threads, w.holdsAt S.shared.boot path = false

instance (S : DiskSys) (path : DiskPath) : Decidable (NoHolder S path) :=
  inferInstanceAs (Decidable (∀ _ ∈ _, _))

/-- No call is for a temporary name, and no other call, and nobody else, makes a temporary file that a call
is about to rename. -/
def Exclusive (S : DiskSys) : Act WriterAct DiskEvent → Prop
  | .on _ (.call c) => c.path.Target
  | .on i (.create true) => ∀ w ∈ S.threads[i]?, ∀ path ∈ w.tmp, NoHolder S path
  | .env (.plant path _) => ¬ path.Target ∧ NoHolder S path
  | _ => True

instance (S : DiskSys) : ∀ act, Decidable (Exclusive S act)
  | .on _ (.call c) => inferInstanceAs (Decidable c.path.Target)
  | .on i (.create true) => inferInstanceAs (Decidable (∀ w ∈ S.threads[i]?, ∀ path ∈ w.tmp, NoHolder S path))
  | .env (.plant path _) => inferInstanceAs (Decidable (¬ path.Target ∧ NoHolder S path))
  | .spawn | .on _ (.remove _) | .on _ (.create false) | .on _ (.write ..) | .on _ (.sync _)
  | .on _ (.rename _) | .on _ .kill | .env (.flushInode _) | .env (.flushName _) | .env .powerLoss =>
    .isTrue trivial

/-- What a name that is nobody's temporary file leads to: what it led to at first, or all of one call. -/
inductive Whole (umask : UInt32) (C : WriteCall → Prop) (D : Prop) (start fs : Fs DiskPath) (path : DiskPath) :
    Option (Entry DiskPath) → Prop where
  | first (hinode : ∀ n, start.dir path = some (.file n) → fs.inode n = start.inode n) :
      Whole umask C D start fs path (start.dir path)
  | written {c : WriteCall} {n : Nat} (hc : C c) (hpath : c.path = path)
      (hmode : (fs.inode n).mode = c.mode &&& ~~~umask) (hcontent : (fs.inode n).content = c.bytes)
      (hdurable : D → (fs.inode n).durable = c.bytes) : Whole umask C D start fs path (some (.file n))

section inv

variable (umask : UInt32) (C : WriteCall → Prop) (D : Prop) (start : Fs DiskPath)

structure DiskInv (d : Disk) : Prop where
  known : d.fs.Known
  dir : ∀ path, path.Target → Whole umask C D start d.fs path (d.fs.dir path)
  stable : ∀ path, path.Target → Whole umask C D start d.fs path (d.fs.stable path)

/-- The file is the thread's own, no name but the temporary one leads to it, and it has what was written. -/
structure Holding (i : Nat) (c : WriteCall) (phase : WritePhase) (n : Nat) (d : Disk) : Prop where
  made : n < d.fs.next
  maker : d.maker n = some i
  hidden : d.fs.Hidden DiskPath.Target n
  temp : d.fs.dir c.tmp = some (.file n) ∨ d.fs.dir c.tmp = none
  mode : (d.fs.inode n).mode = c.mode &&& ~~~umask
  content : (d.fs.inode n).content ++ phase.rest = c.bytes
  durable : D → phase = .renaming n → (d.fs.inode n).durable = c.bytes

structure WriterInv (i : Nat) (boot : Nat) (c : WriteCall) (phase : WritePhase) (d : Disk) : Prop where
  called : C c
  path : c.path.Target
  booted : boot ≤ d.boot
  holding : boot = d.boot → ∀ n, phase.file = some n → Holding umask D i c phase n d

def Writer.Ok (i : Nat) (w : Writer) (d : Disk) : Prop :=
  ∀ boot c phase, w = .running boot c phase → WriterInv umask C D i boot c phase d

end inv

section keep

variable {umask : UInt32} {C : WriteCall → Prop} {D : Prop} {start fs fs' : Fs DiskPath} {path : DiskPath}
  {e : Option (Entry DiskPath)}

namespace Whole

theorem congr (h : Whole umask C D start fs path e)
    (hsame : ∀ n, e = some (.file n) → fs'.inode n = fs.inode n) : Whole umask C D start fs' path e := by
  cases h with
  | first hinode => exact .first fun n hn => (hsame n hn).trans (hinode n hn)
  | @written c n hc hpath hmode hcontent hdurable =>
    have hn := hsame n rfl
    exact .written hc hpath (by rw [hn, hmode]) (by rw [hn, hcontent]) fun hD => by rw [hn, hdurable hD]

theorem flushInode (hsettled : start.Settled) (h : Whole umask C D start fs path e) (m : Nat) :
    Whole umask C D start (fs.flushInode m) path e := by
  cases h with
  | first hinode =>
    refine .first fun n hn => ?_
    rw [← hinode n hn]
    by_cases hnm : n = m
    · subst hnm
      have hdurable := hsettled.durable n
      rw [← hinode n hn] at hdurable
      simp only [Fs.flushInode, Function.update_self]
      exact Inode.eq_of_durable hdurable
    · exact Function.update_of_ne hnm _ _
  | @written c n hc hpath hmode hcontent hdurable =>
    by_cases hnm : n = m
    · subst hnm
      refine .written hc hpath ?_ ?_ fun _ => ?_ <;> simp only [Fs.flushInode, Function.update_self]
      · exact hmode
      · exact hcontent
      · exact hcontent
    · have hsame : (fs.flushInode m).inode n = fs.inode n := Function.update_of_ne hnm _ _
      exact .written hc hpath (by rw [hsame, hmode]) (by rw [hsame, hcontent])
        fun hD => by rw [hsame, hdurable hD]

theorem powerLoss (hsettled : start.Settled) (hD : D) (h : Whole umask C D start fs path e) :
    Whole umask C D start fs.powerLoss path e := by
  cases h with
  | first hinode =>
    refine .first fun n hn => ?_
    have hdurable := hsettled.durable n
    rw [← hinode n hn] at hdurable ⊢
    simp only [Fs.powerLoss]
    rw [hdurable]
    exact Inode.eq_of_durable hdurable
  | written hc hpath hmode hcontent hdurable =>
    exact .written hc hpath hmode (hdurable hD) hdurable

end Whole

variable {d d' : Disk}

namespace DiskInv

/-- A change that is nobody's business but the temporary names'. -/
theorem untouched (h : DiskInv umask C D start d) (hknown : d'.fs.Known)
    (hu : d.fs.Untouched DiskPath.Target d'.fs) : DiskInv umask C D start d' where
  known := hknown
  dir path hpath := by
    rw [hu.dir path hpath]
    exact (h.dir path hpath).congr fun n hn => hu.inode path n hpath (.inl hn)
  stable path hpath := by
    rw [hu.stable path hpath]
    exact (h.stable path hpath).congr fun n hn => hu.inode path n hpath (.inr hn)

theorem flushInode (hsettled : start.Settled) (h : DiskInv umask C D start d) (n : Nat) :
    DiskInv umask C D start { d with fs := d.fs.flushInode n } where
  known := ⟨h.known.dir, h.known.stable⟩
  dir path hpath := (h.dir path hpath).flushInode hsettled n
  stable path hpath := (h.stable path hpath).flushInode hsettled n

theorem flushName (h : DiskInv umask C D start d) (p : DiskPath) :
    DiskInv umask C D start { d with fs := d.fs.flushName p } where
  known := h.known.flushName p
  dir path hpath := (h.dir path hpath).congr fun _ _ => rfl
  stable path hpath := by
    simp only [Fs.flushName, Function.update_apply]
    split
    · rename_i he
      subst he
      exact (h.dir _ hpath).congr fun _ _ => rfl
    · exact (h.stable path hpath).congr fun _ _ => rfl

theorem powerLoss (hsettled : start.Settled) (hD : D) (h : DiskInv umask C D start d) (boot : Nat) :
    DiskInv umask C D start { d with fs := d.fs.powerLoss, boot := boot } where
  known := h.known.powerLoss
  dir path hpath := (h.stable path hpath).powerLoss hsettled hD
  stable path hpath := (h.stable path hpath).powerLoss hsettled hD

/-- The rename: the name leads to all of the call. -/
theorem move (h : DiskInv umask C D start d) {c : WriteCall} {n : Nat} (hc : C c)
    (htemp : d.fs.dir c.tmp = some (.file n)) (hmode : (d.fs.inode n).mode = c.mode &&& ~~~umask)
    (hcontent : (d.fs.inode n).content = c.bytes) (hdurable : D → (d.fs.inode n).durable = c.bytes) :
    DiskInv umask C D start { d with fs := d.fs.move c.tmp c.path (.file n) } where
  known := h.known.move htemp
  dir path hpath := by
    simp only [Fs.move, Function.update_apply]
    split
    · rename_i he
      exact .written hc he.symm hmode hcontent hdurable
    · rw [if_neg (Fs.ne_of_not hpath c.tmp_not_target)]
      exact (h.dir path hpath).congr fun _ _ => rfl
  stable path hpath := (h.stable path hpath).congr fun _ _ => rfl

end DiskInv

variable {i : Nat} {c : WriteCall} {phase : WritePhase} {n boot : Nat}

namespace Holding

/-- The file stays as it is, and the names that do not lead to it still do not. -/
theorem frame (h : Holding umask D i c phase n d) (hnext : d.fs.next ≤ d'.fs.next)
    (hmaker : d'.maker n = d.maker n) (hinode : d'.fs.inode n = d.fs.inode n)
    (hhidden : d'.fs.Hidden DiskPath.Target n)
    (htemp : d'.fs.dir c.tmp = d.fs.dir c.tmp ∨ d'.fs.dir c.tmp = none) :
    Holding umask D i c phase n d' where
  made := Nat.lt_of_lt_of_le h.made hnext
  maker := hmaker.trans h.maker
  hidden := hhidden
  temp := htemp.elim (fun he => by rw [he]; exact h.temp) .inr
  mode := by rw [hinode]; exact h.mode
  content := by rw [hinode]; exact h.content
  durable := by rw [hinode]; exact h.durable

theorem unlink (h : Holding umask D i c phase n d) {tmp : DiskPath} (htmp : ¬ tmp.Target) :
    Holding umask D i c phase n { d with fs := d.fs.unlink tmp } := by
  refine h.frame (Nat.le_refl _) rfl rfl (h.hidden.untouched (Fs.untouched_unlink htmp)) ?_
  simp only [Fs.unlink, Function.update_apply]
  split
  · exact .inr rfl
  · exact .inl rfl

theorem createFile (h : Holding umask D i c phase n d) (hknown : d.fs.Known) {tmp : DiskPath}
    (htmp : ¬ tmp.Target) (hother : c.tmp ≠ tmp) (mode : UInt32) (content : List UInt8)
    {maker : Nat → Option Nat} (hmaker : maker n = d.maker n) :
    Holding umask D i c phase n { d with fs := d.fs.createFile tmp mode content, maker := maker } :=
  h.frame (Nat.le_succ _) hmaker (Function.update_of_ne (Nat.ne_of_lt h.made) _ _)
    (h.hidden.untouched (Fs.untouched_createFile hknown htmp mode content))
    (.inl (Function.update_of_ne hother _ _))

theorem plant (h : Holding umask D i c phase n d) (hknown : d.fs.Known) {tmp : DiskPath}
    (htmp : ¬ tmp.Target) (hother : c.tmp ≠ tmp) (node : Node DiskPath) :
    Holding umask D i c phase n { d with fs := d.fs.plant tmp node } := by
  cases node with
  | file mode content => exact h.createFile hknown htmp hother mode content rfl
  | link target =>
    exact h.frame (Nat.le_refl _) rfl rfl (h.hidden.untouched (Fs.untouched_plant hknown htmp (.link target)))
      (.inl (Function.update_of_ne hother _ _))

theorem append (h : Holding umask D i c phase n d) {m : Nat} (hother : n ≠ m) (bytes : List UInt8) :
    Holding umask D i c phase n { d with fs := d.fs.append m bytes } :=
  h.frame (Nat.le_refl _) rfl (Function.update_of_ne hother _ _) ⟨h.hidden.dir, h.hidden.stable⟩ (.inl rfl)

theorem content_of_rest (h : Holding umask D i c phase n d) (hrest : phase.rest = []) :
    (d.fs.inode n).content = c.bytes := by
  have hcontent := h.content
  rwa [hrest, List.append_nil] at hcontent

theorem flushInode (h : Holding umask D i c phase n d) (m : Nat) :
    Holding umask D i c phase n { d with fs := d.fs.flushInode m } := by
  by_cases hnm : n = m
  · subst hnm
    refine ⟨h.made, h.maker, ⟨h.hidden.dir, h.hidden.stable⟩, h.temp, ?_, ?_, fun _ hphase => ?_⟩ <;>
      simp only [Fs.flushInode, Function.update_self]
    · exact h.mode
    · exact h.content
    · subst hphase
      exact h.content_of_rest rfl
  · exact h.frame (Nat.le_refl _) rfl (Function.update_of_ne hnm _ _) ⟨h.hidden.dir, h.hidden.stable⟩
      (.inl rfl)

theorem flushName (h : Holding umask D i c phase n d) (p : DiskPath) :
    Holding umask D i c phase n { d with fs := d.fs.flushName p } :=
  h.frame (Nat.le_refl _) rfl rfl (h.hidden.flushName p) (.inl rfl)

/-- Another call's rename. -/
theorem move (h : Holding umask D i c phase n d) {c' : WriteCall} {m : Nat} (hpath : c'.path.Target)
    (hother : n ≠ m) : Holding umask D i c phase n { d with fs := d.fs.move c'.tmp c'.path (.file m) } := by
  refine h.frame (Nat.le_refl _) rfl rfl (h.hidden.move hother c'.tmp_not_target) ?_
  simp only [Fs.move, Function.update_apply]
  rw [if_neg (Fs.ne_of_not hpath c.tmp_not_target).symm]
  split
  · exact .inr rfl
  · exact .inl rfl

/-- The own rename finds the call's file at the temporary name, and nothing else. -/
theorem renamed {fs : Fs DiskPath} (h : Holding umask D i c phase n d) (hpath : c.path.Target)
    (hrename : d.fs.rename c.tmp c.path = some fs) :
    d.fs.dir c.tmp = some (.file n) ∧ fs = d.fs.move c.tmp c.path (.file n) := by
  rcases h.temp with htemp | htemp
  · rw [Fs.rename_file htemp (h.hidden.dir _ hpath)] at hrename
    cases hrename
    exact ⟨htemp, rfl⟩
  · simp only [Fs.rename, htemp] at hrename
    cases hrename

end Holding

variable {t w : Writer} {a : WriterAct}

theorem Writer.Ok.returned (ok : Bool) : (Writer.returned ok).Ok umask C D i d := by
  rintro _ _ _ ⟨⟩

theorem Writer.Ok.killed : Writer.killed.Ok umask C D i d := by
  rintro _ _ _ ⟨⟩

/-- Before its file is there. -/
theorem WriterInv.unopened (hcalled : C c) (hpath : c.path.Target) (hbooted : boot ≤ d.boot)
    (hfile : phase.file = none) : WriterInv umask C D i boot c phase d := by
  refine ⟨hcalled, hpath, hbooted, fun _ n hn => ?_⟩
  rw [hfile] at hn
  cases hn

/-- The own steps of a call. -/
theorem WriteCall.Moved.own (hsettled : start.Settled) (hsync : a = .sync false → ¬ D)
    (hI : DiskInv umask C D start d) (hJ : WriterInv umask C D i d.boot c phase d)
    (h : c.Moved umask i d d.boot phase a d' w) : DiskInv umask C D start d' ∧ w.Ok umask C D i d' := by
  cases h with
  | failed => exact ⟨hI, .returned false⟩
  | killed => exact ⟨hI, .killed⟩
  | kept =>
    refine ⟨hI, ?_⟩
    rintro _ _ _ ⟨⟩
    exact .unopened hJ.called hJ.path hJ.booted rfl
  | removed =>
    refine ⟨hI.untouched (hI.known.unlink c.tmp) (Fs.untouched_unlink c.tmp_not_target), ?_⟩
    rintro _ _ _ ⟨⟩
    exact .unopened hJ.called hJ.path hJ.booted rfl
  | created hfree =>
    refine ⟨hI.untouched (hI.known.createFile c.tmp _ [])
      (Fs.untouched_createFile hI.known c.tmp_not_target _ []), ?_⟩
    rintro _ _ _ ⟨⟩
    refine ⟨hJ.called, hJ.path, hJ.booted, fun _ n hn => ?_⟩
    cases hn
    refine ⟨Nat.lt_succ_self _, Function.update_self _ _ _, ⟨fun path hpath he => ?_, fun path hpath he => ?_⟩,
      .inl (Function.update_self _ _ _), ?_, ?_, fun _ h => by cases h⟩
    · simp only [Fs.createFile,
        Function.update_of_ne (Fs.ne_of_not hpath c.tmp_not_target)] at he
      exact Nat.lt_irrefl _ (hI.known.dir path _ he)
    · exact Nat.lt_irrefl _ (hI.known.stable path _ he)
    · simp only [Fs.createFile, Function.update_self]
    · simp only [Fs.createFile, Function.update_self]
      rfl
  | @wrote n k rest =>
    have hold := hJ.holding rfl n rfl
    refine ⟨hI.untouched ⟨hI.known.dir, hI.known.stable⟩ (Fs.untouched_append hold.hidden _), ?_⟩
    rintro _ _ _ ⟨⟩
    refine ⟨hJ.called, hJ.path, hJ.booted, fun _ m hm => ?_⟩
    cases hm
    refine ⟨hold.made, hold.maker, ⟨hold.hidden.dir, hold.hidden.stable⟩, hold.temp, ?_, ?_, fun _ h => by cases h⟩
    · simp only [Fs.append, Function.update_self]
      exact hold.mode
    · simp only [Fs.append, Function.update_self, WritePhase.rest]
      rw [List.append_assoc, List.take_append_drop]
      exact hold.content
  | @complete n k =>
    have hold := hJ.holding rfl n rfl
    refine ⟨hI, ?_⟩
    rintro _ _ _ ⟨⟩
    refine ⟨hJ.called, hJ.path, hJ.booted, fun _ m hm => ?_⟩
    cases hm
    exact ⟨hold.made, hold.maker, hold.hidden, hold.temp, hold.mode, hold.content, fun _ h => by cases h⟩
  | @unsynced n =>
    have hold := hJ.holding rfl n rfl
    refine ⟨hI, ?_⟩
    rintro _ _ _ ⟨⟩
    refine ⟨hJ.called, hJ.path, hJ.booted, fun _ m hm => ?_⟩
    cases hm
    exact ⟨hold.made, hold.maker, hold.hidden, hold.temp, hold.mode, hold.content,
      fun hD _ => absurd hD (hsync rfl)⟩
  | @synced n =>
    have hold := hJ.holding rfl n rfl
    refine ⟨hI.flushInode hsettled n, ?_⟩
    rintro _ _ _ ⟨⟩
    refine ⟨hJ.called, hJ.path, hJ.booted, fun _ m hm => ?_⟩
    cases hm
    have hflushed := hold.flushInode n
    refine ⟨hold.made, hold.maker, hflushed.hidden, hold.temp, hflushed.mode, hflushed.content,
      fun _ _ => ?_⟩
    simp only [Fs.flushInode, Function.update_self]
    exact hold.content_of_rest rfl
  | @renamed n fs' hrename =>
    have hold := hJ.holding rfl n rfl
    obtain ⟨htemp, rfl⟩ := hold.renamed hJ.path hrename
    exact ⟨hI.move hJ.called htemp hold.mode (hold.content_of_rest rfl) (hold.durable · rfl), .returned true⟩

/-- A call's step and the calls of the others. -/
theorem WriteCall.Moved.others {j boot : Nat} {c' : WriteCall} {phase' : WritePhase} (hij : j ≠ i)
    (hI : DiskInv umask C D start d) (hJ : WriterInv umask C D i d.boot c phase d)
    (h : c.Moved umask i d d.boot phase a d' w)
    (hfree : a = .create true → boot = d.boot → phase'.file.isSome → c'.tmp ≠ c.tmp)
    (hu : WriterInv umask C D j boot c' phase' d) : WriterInv umask C D j boot c' phase' d' := by
  have hne : ∀ {m n}, Holding umask D i c phase m d → Holding umask D j c' phase' n d → n ≠ m := by
    rintro m n hm hn rfl
    exact hij (Option.some.inj (hn.maker.symm.trans hm.maker))
  cases h with
  | failed | killed | kept | complete | unsynced => exact hu
  | removed =>
    exact ⟨hu.called, hu.path, hu.booted, fun hboot n hn => (hu.holding hboot n hn).unlink c.tmp_not_target⟩
  | created =>
    refine ⟨hu.called, hu.path, hu.booted, fun hboot n hn => ?_⟩
    have hold := hu.holding hboot n hn
    exact hold.createFile hI.known c.tmp_not_target (hfree rfl hboot (Option.isSome_of_eq_some hn)) _ _
      (Function.update_of_ne (Nat.ne_of_lt hold.made) _ _)
  | wrote =>
    refine ⟨hu.called, hu.path, hu.booted, fun hboot n hn => ?_⟩
    have hold := hu.holding hboot n hn
    exact hold.append (hne (hJ.holding rfl _ rfl) hold) _
  | synced =>
    exact ⟨hu.called, hu.path, hu.booted, fun hboot n hn => (hu.holding hboot n hn).flushInode _⟩
  | @renamed n fs' hrename =>
    have hmine := hJ.holding rfl n rfl
    obtain ⟨-, rfl⟩ := hmine.renamed hJ.path hrename
    refine ⟨hu.called, hu.path, hu.booted, fun hboot m hm => ?_⟩
    have hold := hu.holding hboot m hm
    exact hold.move hJ.path (hne hmine hold)

end keep

section system

variable {umask : UInt32} {C : WriteCall → Prop} {D : Prop} {start : Fs DiskPath} {S S' : DiskSys}
  {act : Act WriterAct DiskEvent}

/-- What the schedule may do, for the invariant. -/
structure Allowed (C : WriteCall → Prop) (D : Prop) (S : DiskSys) (act : Act WriterAct DiskEvent) : Prop where
  exclusive : Exclusive S act
  called : ∀ i c, act = .on i (.call c) → C c
  sync : ∀ i, act = .on i (.sync false) → ¬ D
  powerLoss : act = .env .powerLoss → D

def DiskSys.Inv (umask : UInt32) (C : WriteCall → Prop) (D : Prop) (start : Fs DiskPath) (S : DiskSys) : Prop :=
  DiskInv umask C D start S.shared ∧ All (fun i w d => Writer.Ok umask C D i w d) S

theorem NoHolder.ne {path : DiskPath} (h : NoHolder S path) {j boot : Nat} {c : WriteCall} {phase : WritePhase}
    (hj : S.threads[j]? = some (.running boot c phase)) (hboot : boot = S.shared.boot)
    (hfile : phase.file.isSome) : c.tmp ≠ path := by
  rintro rfl
  have hno := h _ (List.mem_of_getElem? hj)
  simp [Writer.holdsAt, hboot, hfile] at hno

/-- One step of the machine. -/
theorem DiskSys.Inv.step (hsettled : start.Settled) (h : DiskSys.Inv umask C D start S)
    (hallowed : Allowed C D S act) (hs : Disk.sys umask S act = some S') :
    DiskSys.Inv umask C D start S' := by
  refine step_inv (G := Allowed C D) h.1 h.2 hallowed hs (fun _ _ _ => nofun) ?_ ?_ ?_
  · intro i a t d' w hG ht hJ hstep
    rcases Disk.writer_moved hstep with ⟨c, rfl, rfl, rfl, rfl⟩ | ⟨c, phase, rfl, hmoved⟩
    · refine ⟨h.1, ?_⟩
      rintro _ _ _ ⟨⟩
      exact ⟨hG.called i c rfl, hG.exclusive, Nat.le_refl _, fun _ _ => nofun⟩
    · exact hmoved.own hsettled (fun ha => hG.sync i (ha ▸ rfl)) h.1 (hJ _ _ _ rfl)
  · intro i a t d' w hG ht hJ hstep j u hij hu hju boot c' phase' hrunning
    subst hrunning
    have hinv := hju _ _ _ rfl
    rcases Disk.writer_moved hstep with ⟨c, rfl, rfl, rfl, rfl⟩ | ⟨c, phase, rfl, hmoved⟩
    · exact hinv
    · refine hmoved.others hij h.1 (hJ _ _ _ rfl) (fun ha hboot hfile => ?_) hinv
      subst ha
      exact (hG.exclusive _ ht _ rfl).ne hu hboot hfile
  · intro e d' hG hstep
    cases e with
    | flushInode n =>
      cases hstep
      refine ⟨h.1.flushInode hsettled n, fun j u _ hju boot c phase hrunning => ?_⟩
      have hinv := hju _ _ _ hrunning
      exact ⟨hinv.called, hinv.path, hinv.booted, fun hb m hm => (hinv.holding hb m hm).flushInode n⟩
    | flushName p =>
      cases hstep
      refine ⟨h.1.flushName p, fun j u _ hju boot c phase hrunning => ?_⟩
      have hinv := hju _ _ _ hrunning
      exact ⟨hinv.called, hinv.path, hinv.booted, fun hb m hm => (hinv.holding hb m hm).flushName p⟩
    | plant p node =>
      cases hstep
      obtain ⟨htmp, hfree⟩ := hG.exclusive
      refine ⟨h.1.untouched (h.1.known.plant p node) (Fs.untouched_plant h.1.known htmp node),
        fun j u hu hju boot c phase hrunning => ?_⟩
      subst hrunning
      have hinv := hju _ _ _ rfl
      refine ⟨hinv.called, hinv.path, hinv.booted, fun hb m hm => ?_⟩
      exact (hinv.holding hb m hm).plant h.1.known htmp
        (hfree.ne hu hb (Option.isSome_of_eq_some hm)) node
    | powerLoss =>
      cases hstep
      refine ⟨h.1.powerLoss hsettled (hG.powerLoss rfl) _, fun j u _ hju boot c phase hrunning => ?_⟩
      have hinv := hju _ _ _ hrunning
      -- what ran before the power loss does not run again
      refine ⟨hinv.called, hinv.path, Nat.le_succ_of_le hinv.booted, fun hb => ?_⟩
      have hlt := Nat.lt_succ_of_le hinv.booted
      exact absurd hb (Nat.ne_of_lt hlt)

/-- What the name of a finished call shows. -/
def WriteCall.node (umask : UInt32) (c : WriteCall) : Node DiskPath := .file (c.mode &&& ~~~umask) c.bytes

theorem Whole.node {fs : Fs DiskPath} {path : DiskPath}
    (h : Whole umask C D start fs path (fs.dir path)) :
    fs.node path = start.node path ∨ ∃ c, C c ∧ c.path = path ∧ fs.node path = some (c.node umask) := by
  unfold Fs.node
  generalize fs.dir path = e at h ⊢
  cases h with
  | first hinode =>
    refine .inl (Option.map_congr fun e he => ?_)
    cases e with
    | link target => rfl
    | file n => rw [Fs.nodeOf, Fs.nodeOf, hinode n he]
  | @written c n hc hpath hmode hcontent hdurable =>
    refine .inr ⟨c, hc, hpath, ?_⟩
    rw [Option.map_some, Fs.nodeOf, hmode, hcontent, WriteCall.node]

/-- A step that replaces nothing, and returns from no call with `Ok`. -/
def Quiet (S S' : DiskSys) : Prop :=
  (∀ path, path.Target → S'.shared.fs.node path = S.shared.fs.node path) ∧
  ∀ i : Nat, S'.threads[i]? = some (.returned true) → S.threads[i]? = some (.returned true)

/-- The step with which a call returns `Ok`: all of its bytes take the place of what was there, and nothing
else changes. -/
def Replaces (umask : UInt32) (S : DiskSys) (act : Act WriterAct DiskEvent) (S' : DiskSys) : Prop :=
  ∃ i boot c n, act = .on i (.rename true) ∧ S.threads[i]? = some (.running boot c (.renaming n)) ∧
    S'.threads[i]? = some (.returned true) ∧
    ∀ path, path.Target → S'.shared.fs.node path =
      Function.update S.shared.fs.node c.path (some (c.node umask)) path

theorem quiet_of_thread {i : Nat} {t w : Writer} {d' : Disk} (ht : S.threads[i]? = some t)
    (hw : w ≠ .returned true)
    (hnode : ∀ path, path.Target → d'.fs.node path = S.shared.fs.node path) :
    Quiet S ⟨d', S.threads.set i w⟩ := by
  refine ⟨hnode, fun j hj => ?_⟩
  rcases getElem?_set_cases ht hj with ⟨rfl, he⟩ | ⟨-, hj⟩
  · exact absurd he.symm hw
  · exact hj

/-- Atomic replacement, one step. -/
theorem DiskSys.Inv.refines (h : DiskSys.Inv umask C D start S) (hexclusive : Exclusive S act)
    (hpower : act ≠ .env .powerLoss) (hs : Disk.sys umask S act = some S') :
    Quiet S S' ∨ Replaces umask S act S' := by
  cases act with
  | spawn =>
    cases hs
    refine .inl ⟨fun _ _ => rfl, fun i hi => ?_⟩
    rcases getElem?_spawn hi with hi | hi
    · exact hi
    · cases hi
  | env e =>
    left
    cases e with
    | flushInode n =>
      cases hs
      exact ⟨fun path _ => Fs.node_flushInode n path, fun _ => id⟩
    | flushName p =>
      cases hs
      exact ⟨fun _ _ => rfl, fun _ => id⟩
    | plant p node =>
      cases hs
      exact ⟨fun _ hpath => (Fs.untouched_plant h.1.known hexclusive.1 node).node hpath, fun _ => id⟩
    | powerLoss => exact absurd rfl hpower
  | on i a =>
    obtain ⟨t, d', w, ht, hstep, rfl⟩ := step_on hs
    rcases Disk.writer_moved hstep with ⟨c, rfl, rfl, rfl, rfl⟩ | ⟨c, phase, rfl, hmoved⟩
    · exact .inl (quiet_of_thread ht nofun fun _ _ => rfl)
    have hJ := h.2 i _ ht _ _ _ rfl
    cases hmoved with
    | failed | killed | kept | complete | unsynced =>
      exact .inl (quiet_of_thread ht (by simp) fun _ _ => rfl)
    | removed =>
      exact .inl (quiet_of_thread ht (by simp)
        fun _ hpath => (Fs.untouched_unlink c.tmp_not_target).node hpath)
    | created =>
      exact .inl (quiet_of_thread ht (by simp)
        fun _ hpath => (Fs.untouched_createFile h.1.known c.tmp_not_target _ []).node hpath)
    | @wrote n k rest =>
      exact .inl (quiet_of_thread ht (by simp)
        fun _ hpath => (Fs.untouched_append (hJ.holding rfl n rfl).hidden _).node hpath)
    | @synced n =>
      exact .inl (quiet_of_thread ht (by simp) fun path _ => Fs.node_flushInode n path)
    | @renamed n fs hrename =>
      have hold := hJ.holding rfl n rfl
      obtain ⟨-, rfl⟩ := hold.renamed hJ.path hrename
      refine .inr ⟨i, _, c, n, rfl, ht, getElem?_set_moved ht, fun path hpath => ?_⟩
      simp only [Fs.node, Fs.move, Function.update_apply]
      split
      · rw [Option.map_some, Fs.nodeOf, hold.mode, hold.content_of_rest rfl, WriteCall.node]
      · rw [if_neg (Fs.ne_of_not hpath c.tmp_not_target)]
        rfl

end system

/-- **Old or new.** Any number of writes of any files, in any interleaving, with calls that fail, processes
that are killed, and power that is lost at any instant: what a name shows is what it showed at first, or all
the bytes of one write of that name, with its mode. A write takes effect at one instant, the one at which it
returns `Ok`. That a `sync_all` has failed is ignored, so then the power may not be lost; and no two writes
share a temporary file at one time. -/
theorem atomic_write_whole (umask : UInt32) (start : Fs DiskPath) (sched : List (Act WriterAct DiskEvent))
    (S : DiskSys) (hsettled : start.Settled)
    (hexclusive : Lts.Steps (Disk.sys umask) Exclusive ⟨{ fs := start }, []⟩ sched)
    (hsync : (∀ i, .on i (.sync false) ∉ sched) ∨ .env .powerLoss ∉ sched)
    (hrun : Lts.run (Disk.sys umask) ⟨{ fs := start }, []⟩ sched = some S) :
    (∀ path, path.Target → S.shared.fs.node path = start.node path ∨
      ∃ i c, .on i (.call c) ∈ sched ∧ c.path = path ∧ S.shared.fs.node path = some (c.node umask)) ∧
    ∀ act S', Exclusive S act → act ≠ .env .powerLoss → Disk.sys umask S act = some S' →
      Quiet S S' ∨ Replaces umask S act S' := by
  have hinit : DiskSys.Inv umask (fun c => ∃ i, .on i (.call c) ∈ sched) (∀ i, .on i (.sync false) ∉ sched)
      start ⟨{ fs := start }, []⟩ := by
    refine ⟨⟨hsettled.known, fun _ _ => .first fun _ _ => rfl, fun _ _ => ?_⟩, nofun⟩
    show Whole _ _ _ _ _ _ (start.stable _)
    rw [hsettled.stable]
    exact .first fun _ _ => rfl
  have hallowed : Lts.Steps (Disk.sys umask) (Allowed (fun c => ∃ i, .on i (.call c) ∈ sched)
      (∀ i, .on i (.sync false) ∉ sched)) ⟨{ fs := start }, []⟩ sched := by
    have hacts : Lts.Steps (Disk.sys umask) (fun _ act => act ∈ sched) ⟨{ fs := start }, []⟩ sched :=
      Lts.steps_of_forall fun _ => id
    refine Lts.steps_of_inv (I := fun _ => True) (fun _ _ _ _ _ _ => trivial) ?_ trivial
      (hexclusive.and hacts)
    rintro T act - ⟨hex, hmem⟩
    refine ⟨hex, fun i c he => ⟨i, he ▸ hmem⟩, fun i he hall => hall i (he ▸ hmem), fun he => ?_⟩
    exact hsync.resolve_right fun hno => hno (he ▸ hmem)
  have hinv := Lts.run_inv (fun _ _ _ h hG hs => h.step hsettled hG hs) hinit hallowed hrun
  refine ⟨fun path hpath => ?_, fun act S' hex hpower hs => hinv.refines hex hpower hs⟩
  rcases (hinv.1.dir path hpath).node with hfirst | ⟨c, ⟨i, hi⟩, hc, hnode⟩
  · exact .inl hfirst
  · exact .inr ⟨i, c, hi, hc, hnode⟩

/-- No file at all. -/
def emptyDisk : Fs DiskPath := ⟨fun _ => ⟨0, [], []⟩, 0, fun _ => none, fun _ => none⟩

theorem emptyDisk_settled : emptyDisk.Settled := ⟨⟨nofun, nofun⟩, rfl, fun _ => rfl⟩

def configToml : DiskPath := ⟨"etun", "config", some "toml"⟩

/-- All of a call that nobody disturbs, in pieces of one byte. -/
def wholeCall (i : Nat) (c : WriteCall) : List (Act WriterAct DiskEvent) :=
  [.spawn, .on i (.call c), .on i (.remove true), .on i (.create true)] ++
    c.bytes.map (fun _ => .on i (.write 0 true)) ++
    [.on i (.write 0 true), .on i (.sync true), .on i (.rename true)]

/-- A first configuration; a second that is killed half way; a link in the place of its leftover; the power is
lost; and a third. -/
def savedConfigs : List (Act WriterAct DiskEvent) :=
  wholeCall 0 ⟨configToml, [1, 2], 0o644⟩ ++
    (wholeCall 1 ⟨configToml, [3, 4], 0o644⟩).take 5 ++
    [.on 1 .kill, .env (.flushName configToml),
      .env (.plant (configToml.withExtension "tmp") (.link configToml)), .env .powerLoss] ++
    wholeCall 2 ⟨configToml, [5], 0o644⟩

theorem atomic_write_whole_saved : ∃ S,
    Lts.run (Disk.sys 0o022) ⟨{ fs := emptyDisk }, []⟩ savedConfigs = some S ∧
    S.shared.fs.node configToml = some (.file 0o644 [5]) ∧
    ∃ i c, .on i (.call c) ∈ savedConfigs ∧ c.path = configToml ∧
      S.shared.fs.node configToml = some (c.node 0o022) := by
  have hend : (Lts.run (Disk.sys 0o022) ⟨{ fs := emptyDisk }, []⟩ savedConfigs).map
      (·.shared.fs.node configToml) = some (some (.file 0o644 [5])) := by
    decide +kernel
  obtain ⟨S, hrun, hnode⟩ := Option.map_eq_some_iff.1 hend
  have hwhole := atomic_write_whole 0o022 emptyDisk savedConfigs S emptyDisk_settled (by decide +kernel)
    (.inl (by simp [savedConfigs, wholeCall])) hrun
  refine ⟨S, hrun, hnode, (hwhole.1 configToml (by decide)).resolve_left fun hfirst => ?_⟩
  rw [hnode] at hfirst
  cases hfirst

/-- Two writes of one name at one time: the first returns `Ok` and shows half of the second. -/
example :
    (Lts.run (Disk.sys 0o022) ⟨{ fs := emptyDisk }, []⟩
      ((wholeCall 0 ⟨configToml, [1, 2], 0o644⟩).take 5 ++ (wholeCall 1 ⟨configToml, [3, 4], 0o644⟩).take 5 ++
        (wholeCall 0 ⟨configToml, [1, 2], 0o644⟩).drop 5)).map
      (fun S => (S.shared.fs.node configToml, S.threads[0]?)) =
      some (some (.file 0o644 [3]), some (.returned true)) := by
  decide +kernel

end EtherTunnel
