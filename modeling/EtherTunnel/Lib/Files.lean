import Mathlib.Logic.Function.Basic

/-!
# Files, names and power loss

A directory leads from names to files. Neither what is written to a file nor a change of the directory is on
disk at once: `durable` and `stable` are what a power loss leaves, and they catch up with `flushInode` (an
`fsync`, or the kernel's own writeback) and `flushName`, at any time and in any order.
-/

namespace Files

universe u

structure Inode where
  mode : UInt32
  content : List UInt8
  /-- What the disk has of it. -/
  durable : List UInt8
deriving DecidableEq

theorem Inode.eq_of_durable {x : Inode} (h : x.durable = x.content) :
    (⟨x.mode, x.content, x.content⟩ : Inode) = x := by
  obtain ⟨mode, content, durable⟩ := x
  cases h
  rfl

inductive Entry (α : Type u) where
  | file (n : Nat)
  | link (target : α)
deriving DecidableEq

/-- What a name shows to somebody who opens it, or reads the link. -/
inductive Node (α : Type u) where
  | file (mode : UInt32) (content : List UInt8)
  | link (target : α)
deriving DecidableEq

structure Fs (α : Type u) where
  inode : Nat → Inode
  next : Nat
  dir : α → Option (Entry α)
  /-- The directory on disk. -/
  stable : α → Option (Entry α)

namespace Fs

variable {α : Type u} (fs : Fs α)

def nodeOf : Entry α → Node α
  | .file n => .file (fs.inode n).mode (fs.inode n).content
  | .link target => .link target

def node (p : α) : Option (Node α) := (fs.dir p).map fs.nodeOf

def append (n : Nat) (bytes : List UInt8) : Fs α :=
  { fs with
    inode := Function.update fs.inode n
      ⟨(fs.inode n).mode, (fs.inode n).content ++ bytes, (fs.inode n).durable⟩ }

def flushInode (n : Nat) : Fs α :=
  { fs with
    inode := Function.update fs.inode n ⟨(fs.inode n).mode, (fs.inode n).content, (fs.inode n).content⟩ }

/-- The machine goes down, and comes up with what is on disk. -/
def powerLoss : Fs α :=
  { fs with
    inode := fun n => ⟨(fs.inode n).mode, (fs.inode n).durable, (fs.inode n).durable⟩
    dir := fs.stable }

variable {fs} in
theorem node_flushInode (n : Nat) (p : α) : (fs.flushInode n).node p = fs.node p := by
  refine Option.map_congr fun e _ => ?_
  cases e with
  | link target => rfl
  | file m =>
    by_cases hmn : m = n
    · subst hmn
      simp only [nodeOf, flushInode, Function.update_self]
    · simp only [nodeOf, flushInode, Function.update_of_ne hmn]

variable [DecidableEq α]

def unlink (p : α) : Fs α := { fs with dir := Function.update fs.dir p none }

def createFile (p : α) (mode : UInt32) (content : List UInt8) : Fs α :=
  { fs with
    inode := Function.update fs.inode fs.next ⟨mode, content, []⟩
    next := fs.next + 1
    dir := Function.update fs.dir p (some (.file fs.next)) }

/-- `O_CREAT | O_EXCL`: whatever stands at the name, a link included, makes it fail. -/
def createNew (p : α) (mode : UInt32) : Option (Fs α) :=
  if fs.dir p = none then some (fs.createFile p mode []) else none

def move (old new : α) (e : Entry α) : Fs α :=
  { fs with dir := Function.update (Function.update fs.dir old none) new (some e) }

/-- The entry itself moves, and takes the place of the one at the new name; two names of one file are both
kept. -/
def rename (old new : α) : Option (Fs α) :=
  match fs.dir old, fs.dir new with
  | none, _ => none
  | some (.file n), some (.file m) => if n = m then some fs else some (fs.move old new (.file n))
  | some e, _ => some (fs.move old new e)

def flushName (p : α) : Fs α := { fs with stable := Function.update fs.stable p (fs.dir p) }

/-- Somebody puts a file or a link at a name. -/
def plant (p : α) : Node α → Fs α
  | .file mode content => fs.createFile p mode content
  | .link target => { fs with dir := Function.update fs.dir p (some (.link target)) }

variable {fs}

theorem createNew_eq_some {p : α} {mode : UInt32} {fs' : Fs α} (h : fs.createNew p mode = some fs') :
    fs.dir p = none ∧ fs' = fs.createFile p mode [] := by
  obtain ⟨hfree, ⟨⟩⟩ := Option.ite_none_right_eq_some.1 h
  exact ⟨hfree, rfl⟩

theorem rename_file {old new : α} {n : Nat} (hold : fs.dir old = some (.file n))
    (hnew : fs.dir new ≠ some (.file n)) : fs.rename old new = some (fs.move old new (.file n)) := by
  unfold rename
  rw [hold]
  split
  · rename_i h
    cases h
  · rename_i m k hm hk
    cases hm
    rw [if_neg]
    rintro rfl
    exact hnew hk
  · rename_i e he _
    cases he
    rfl

/-- Every entry leads to a file that was made. -/
structure Known (fs : Fs α) : Prop where
  dir : ∀ p n, fs.dir p = some (.file n) → n < fs.next
  stable : ∀ p n, fs.stable p = some (.file n) → n < fs.next

namespace Known

theorem unlink (h : fs.Known) (p : α) : (fs.unlink p).Known := by
  refine ⟨fun q n hq => ?_, h.stable⟩
  simp only [Fs.unlink, Function.update_apply] at hq
  split at hq
  · cases hq
  · exact h.dir q n hq

theorem createFile (h : fs.Known) (p : α) (mode : UInt32) (content : List UInt8) :
    (fs.createFile p mode content).Known := by
  refine ⟨fun q n hq => ?_, fun q n hq => Nat.lt_succ_of_lt (h.stable q n hq)⟩
  simp only [Fs.createFile, Function.update_apply] at hq
  split at hq
  · cases hq
    exact Nat.lt_succ_self _
  · exact Nat.lt_succ_of_lt (h.dir q n hq)

theorem move (h : fs.Known) {old new : α} {n : Nat} (hold : fs.dir old = some (.file n)) :
    (fs.move old new (.file n)).Known := by
  refine ⟨fun q m hq => ?_, h.stable⟩
  simp only [Fs.move, Function.update_apply] at hq
  split at hq
  · cases hq
    exact h.dir old n hold
  · split at hq
    · cases hq
    · exact h.dir q m hq

theorem flushName (h : fs.Known) (p : α) : (fs.flushName p).Known := by
  refine ⟨h.dir, fun q n hq => ?_⟩
  simp only [Fs.flushName, Function.update_apply] at hq
  split at hq
  · exact h.dir p n hq
  · exact h.stable q n hq

omit [DecidableEq α] in
theorem powerLoss (h : fs.Known) : fs.powerLoss.Known := ⟨h.stable, h.stable⟩

theorem plant (h : fs.Known) (p : α) (node : Node α) : (fs.plant p node).Known := by
  cases node with
  | file mode content => exact h.createFile p mode content
  | link target =>
    refine ⟨fun q n hq => ?_, h.stable⟩
    simp only [Fs.plant, Function.update_apply] at hq
    split at hq
    · cases hq
    · exact h.dir q n hq

end Known

/-- All of it is on disk. -/
structure Settled (fs : Fs α) : Prop where
  known : fs.Known
  stable : fs.stable = fs.dir
  durable : ∀ n, (fs.inode n).durable = (fs.inode n).content

section names

variable {P : α → Prop} {fs' : Fs α}

/-- No name of `P` leads to the file, now or after a power loss. -/
structure Hidden (P : α → Prop) (n : Nat) (fs : Fs α) : Prop where
  dir : ∀ p, P p → fs.dir p ≠ some (.file n)
  stable : ∀ p, P p → fs.stable p ≠ some (.file n)

/-- The names of `P`, and the files that they lead to, are as they were. -/
structure Untouched (P : α → Prop) (fs fs' : Fs α) : Prop where
  dir : ∀ p, P p → fs'.dir p = fs.dir p
  stable : ∀ p, P p → fs'.stable p = fs.stable p
  inode : ∀ p n, P p → fs.dir p = some (.file n) ∨ fs.stable p = some (.file n) →
    fs'.inode n = fs.inode n

omit [DecidableEq α] in
theorem Untouched.node (h : Untouched P fs fs') {p : α} (hp : P p) : fs'.node p = fs.node p := by
  unfold Fs.node
  rw [h.dir p hp]
  refine Option.map_congr fun e he => ?_
  cases e with
  | file n => rw [nodeOf, nodeOf, h.inode p n hp (.inl he)]
  | link target => rfl

omit [DecidableEq α] in
theorem ne_of_not {p q : α} (hp : P p) (hq : ¬ P q) : p ≠ q := by
  rintro rfl
  exact hq hp

theorem untouched_unlink {q : α} (hq : ¬ P q) : Untouched P fs (fs.unlink q) :=
  ⟨fun _ hp => Function.update_of_ne (ne_of_not hp hq) _ _, fun _ _ => rfl, fun _ _ _ _ => rfl⟩

theorem untouched_createFile (h : fs.Known) {q : α} (hq : ¬ P q) (mode : UInt32) (content : List UInt8) :
    Untouched P fs (fs.createFile q mode content) := by
  refine ⟨fun _ hp => Function.update_of_ne (ne_of_not hp hq) _ _, fun _ _ => rfl, fun p n _ hn => ?_⟩
  have hlt : n < fs.next := hn.elim (h.dir p n) (h.stable p n)
  exact Function.update_of_ne (Nat.ne_of_lt hlt) _ _

theorem untouched_plant (h : fs.Known) {q : α} (hq : ¬ P q) (node : Node α) :
    Untouched P fs (fs.plant q node) := by
  cases node with
  | file mode content => exact untouched_createFile h hq mode content
  | link target =>
    exact ⟨fun _ hp => Function.update_of_ne (ne_of_not hp hq) _ _, fun _ _ => rfl, fun _ _ _ _ => rfl⟩

omit [DecidableEq α] in
theorem untouched_append {n : Nat} (h : fs.Hidden P n) (bytes : List UInt8) :
    Untouched P fs (fs.append n bytes) := by
  refine ⟨fun _ _ => rfl, fun _ _ => rfl, fun p m hp hm => Function.update_of_ne ?_ _ _⟩
  rintro rfl
  exact hm.elim (h.dir p hp) (h.stable p hp)

namespace Hidden

omit [DecidableEq α] in
theorem untouched {n : Nat} (h : fs.Hidden P n) (hu : Untouched P fs fs') : fs'.Hidden P n :=
  ⟨fun p hp => by rw [hu.dir p hp]; exact h.dir p hp, fun p hp => by rw [hu.stable p hp]; exact h.stable p hp⟩

theorem flushName {n : Nat} (h : fs.Hidden P n) (q : α) : (fs.flushName q).Hidden P n := by
  refine ⟨h.dir, fun p hp => ?_⟩
  simp only [Fs.flushName, Function.update_apply]
  split
  · rename_i he
    exact h.dir q (he ▸ hp)
  · exact h.stable p hp

theorem move {n m : Nat} (h : fs.Hidden P n) (hnm : n ≠ m) {old new : α} (hold : ¬ P old) :
    (fs.move old new (.file m)).Hidden P n := by
  refine ⟨fun p hp => ?_, h.stable⟩
  simp only [Fs.move, Function.update_apply]
  split
  · simpa using hnm.symm
  · rw [if_neg (ne_of_not hp hold)]
    exact h.dir p hp

end Hidden

end names

end Fs

end Files
