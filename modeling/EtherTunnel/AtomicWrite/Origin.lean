import EtherTunnel.AtomicWrite

/-!
# No other file

The temporary name of an `atomic_write` can be guessed. Here the schedule is under no condition: others put
what they like at any name, at any time, and writes of one name overlap. `O_EXCL` is what keeps the bytes of a
write, a token or a private key, out of every file that the write did not make itself.
-/

namespace EtherTunnel

open Files Threads

/-- Where a file and its bytes come from; `B` are the files that others plant, `C` the calls of each thread. -/
inductive Origin (umask : UInt32) (C : Nat → WriteCall → Prop) (B : UInt32 → List UInt8 → Prop)
    (start : Fs DiskPath) (n : Nat) (x : Inode) : Option Nat → Prop where
  | first (hn : n < start.next) (hx : x = start.inode n) : Origin umask C B start n x none
  | planted {bytes : List UInt8} (hB : B x.mode bytes) (hcontent : x.content <+: bytes)
      (hdurable : x.durable <+: bytes) : Origin umask C B start n x none
  /-- The thread that made the file wrote its bytes. -/
  | call {i : Nat} {c : WriteCall} (hc : C i c) (hmode : x.mode = c.mode &&& ~~~umask)
      (hcontent : x.content <+: c.bytes) (hdurable : x.durable <+: c.bytes) :
      Origin umask C B start n x (some i)

section origin

variable {umask : UInt32} {C : Nat → WriteCall → Prop} {B : UInt32 → List UInt8 → Prop} {start : Fs DiskPath}

namespace Origin

variable {n : Nat} {x : Inode} {maker : Option Nat}

theorem flushed (hsettled : start.Settled) (h : Origin umask C B start n x maker) :
    Origin umask C B start n ⟨x.mode, x.content, x.content⟩ maker := by
  cases h with
  | first hn hx =>
    subst hx
    exact .first hn (Inode.eq_of_durable (hsettled.durable n))
  | planted hB hcontent hdurable => exact .planted hB hcontent hcontent
  | call hc hmode hcontent hdurable => exact .call hc hmode hcontent hcontent

theorem lost (hsettled : start.Settled) (h : Origin umask C B start n x maker) :
    Origin umask C B start n ⟨x.mode, x.durable, x.durable⟩ maker := by
  cases h with
  | first hn hx =>
    subst hx
    rw [hsettled.durable n]
    exact .first hn (Inode.eq_of_durable (hsettled.durable n))
  | planted hB hcontent hdurable => exact .planted hB hdurable hdurable
  | call hc hmode hcontent hdurable => exact .call hc hmode hdurable hdurable

end Origin

/-- The open file of a call: its own, and with what it has written so far. -/
structure Opened (umask : UInt32) (i : Nat) (c : WriteCall) (phase : WritePhase) (n : Nat) (d : Disk) : Prop where
  made : n < d.fs.next
  maker : d.maker n = some i
  mode : (d.fs.inode n).mode = c.mode &&& ~~~umask
  content : (d.fs.inode n).content ++ phase.rest = c.bytes
  durable : (d.fs.inode n).durable <+: c.bytes

structure OpenedInv (umask : UInt32) (C : Nat → WriteCall → Prop) (i boot : Nat) (c : WriteCall) (phase : WritePhase)
    (d : Disk) : Prop where
  called : C i c
  booted : boot ≤ d.boot
  opened : boot = d.boot → ∀ n, phase.file = some n → Opened umask i c phase n d

def Writer.Owns (umask : UInt32) (C : Nat → WriteCall → Prop) (i : Nat) (w : Writer) (d : Disk) : Prop :=
  ∀ boot c phase, w = .running boot c phase → OpenedInv umask C i boot c phase d

structure Traced (umask : UInt32) (C : Nat → WriteCall → Prop) (B : UInt32 → List UInt8 → Prop)
    (start : Fs DiskPath) (d : Disk) : Prop where
  origin : ∀ n < d.fs.next, Origin umask C B start n (d.fs.inode n) (d.maker n)
  unmade : ∀ n, d.fs.next ≤ n → d.maker n = none

variable {d d' : Disk} {i : Nat} {c : WriteCall} {phase : WritePhase} {n : Nat} {a : WriterAct} {w : Writer}

namespace Opened

theorem frame (h : Opened umask i c phase n d) (hnext : d.fs.next ≤ d'.fs.next)
    (hmaker : d'.maker n = d.maker n) (hinode : d'.fs.inode n = d.fs.inode n) :
    Opened umask i c phase n d' where
  made := Nat.lt_of_lt_of_le h.made hnext
  maker := hmaker.trans h.maker
  mode := by rw [hinode]; exact h.mode
  content := by rw [hinode]; exact h.content
  durable := by rw [hinode]; exact h.durable

theorem content_prefix (h : Opened umask i c phase n d) : (d.fs.inode n).content <+: c.bytes :=
  ⟨phase.rest, h.content⟩

theorem flushInode (h : Opened umask i c phase n d) (m : Nat) :
    Opened umask i c phase n { d with fs := d.fs.flushInode m } := by
  by_cases hnm : n = m
  · subst hnm
    refine ⟨h.made, h.maker, ?_, ?_, ?_⟩ <;> simp only [Fs.flushInode, Function.update_self]
    · exact h.mode
    · exact h.content
    · exact h.content_prefix
  · exact h.frame (Nat.le_refl _) rfl (Function.update_of_ne hnm _ _)

theorem createFile (h : Opened umask i c phase n d) (path : DiskPath) (mode : UInt32)
    (content : List UInt8) {maker : Nat → Option Nat} (hmaker : maker n = d.maker n) :
    Opened umask i c phase n { d with fs := d.fs.createFile path mode content, maker := maker } :=
  h.frame (Nat.le_succ _) hmaker (Function.update_of_ne (Nat.ne_of_lt h.made) _ _)

end Opened

namespace Traced

theorem flushInode (hsettled : start.Settled) (h : Traced umask C B start d) (m : Nat) :
    Traced umask C B start { d with fs := d.fs.flushInode m } := by
  refine ⟨fun n hn => ?_, h.unmade⟩
  by_cases hnm : n = m
  · subst hnm
    simp only [Fs.flushInode, Function.update_self]
    exact (h.origin n hn).flushed hsettled
  · simp only [Fs.flushInode, Function.update_of_ne hnm]
    exact h.origin n hn

/-- A new file, whoever made it. -/
theorem createFile (h : Traced umask C B start d) (path : DiskPath) {mode : UInt32} {content : List UInt8}
    {maker : Option Nat} (hnew : Origin umask C B start d.fs.next ⟨mode, content, []⟩ maker) :
    Traced umask C B start { d with
      fs := d.fs.createFile path mode content
      maker := Function.update d.maker d.fs.next maker } := by
  refine ⟨fun n hn => ?_, fun n hn => ?_⟩
  · simp only [Fs.createFile, Function.update_apply]
    by_cases he : n = d.fs.next
    · subst he
      rw [if_pos rfl, if_pos rfl]
      exact hnew
    · rw [if_neg he, if_neg he]
      exact h.origin n (Nat.lt_of_le_of_ne (Nat.le_of_lt_succ hn) he)
  · have hlt : d.fs.next < n := hn
    dsimp only
    rw [Function.update_of_ne (Nat.ne_of_gt hlt)]
    exact h.unmade n (Nat.le_of_lt hlt)

/-- A file that others make has no maker among the threads. -/
theorem plant (h : Traced umask C B start d) (path : DiskPath) {mode : UInt32} {content : List UInt8}
    (hB : B mode content) : Traced umask C B start { d with fs := d.fs.createFile path mode content } := by
  have hmaker : Function.update d.maker d.fs.next none = d.maker := by
    rw [← h.unmade d.fs.next (Nat.le_refl _), Function.update_eq_self]
  have hnew := h.createFile path (.planted hB (List.prefix_refl content) List.nil_prefix)
  rwa [hmaker] at hnew

/-- The call's own file, after some more of it was written. -/
theorem append (h : Traced umask C B start d) (hc : C i c) {bytes : List UInt8}
    (hopened : Opened umask i c phase n d) (hmore : (d.fs.inode n).content ++ bytes <+: c.bytes) :
    Traced umask C B start { d with fs := d.fs.append n bytes } := by
  refine ⟨fun m hm => ?_, h.unmade⟩
  by_cases hmn : m = n
  · subst hmn
    simp only [Fs.append, Function.update_self]
    rw [hopened.maker]
    exact .call hc hopened.mode hmore hopened.durable
  · simp only [Fs.append, Function.update_of_ne hmn]
    exact h.origin m hm

end Traced

theorem rename_inode {fs fs' : Fs DiskPath} {old new : DiskPath} (h : fs.rename old new = some fs') :
    fs'.inode = fs.inode ∧ fs'.next = fs.next := by
  unfold Fs.rename at h
  split at h
  · cases h
  · split at h <;> cases h <;> exact ⟨rfl, rfl⟩
  · cases h
    exact ⟨rfl, rfl⟩

theorem Writer.Owns.returned (ok : Bool) : (Writer.returned ok).Owns umask C i d := by
  rintro _ _ _ ⟨⟩

theorem Writer.Owns.killed : Writer.killed.Owns umask C i d := by
  rintro _ _ _ ⟨⟩

theorem OpenedInv.unopened {boot : Nat} (hcalled : C i c) (hbooted : boot ≤ d.boot)
    (hfile : phase.file = none) : OpenedInv umask C i boot c phase d := by
  refine ⟨hcalled, hbooted, fun _ n hn => ?_⟩
  rw [hfile] at hn
  cases hn

theorem WriteCall.Moved.traced (hsettled : start.Settled) (hI : Traced umask C B start d)
    (hJ : OpenedInv umask C i d.boot c phase d) (h : c.Moved umask i d d.boot phase a d' w) :
    Traced umask C B start d' ∧ w.Owns umask C i d' := by
  cases h with
  | failed => exact ⟨hI, .returned false⟩
  | killed => exact ⟨hI, .killed⟩
  | kept =>
    refine ⟨hI, ?_⟩
    rintro _ _ _ ⟨⟩
    exact .unopened hJ.called hJ.booted rfl
  | removed =>
    refine ⟨⟨hI.origin, hI.unmade⟩, ?_⟩
    rintro _ _ _ ⟨⟩
    exact .unopened hJ.called hJ.booted rfl
  | created hfree =>
    refine ⟨hI.createFile c.tmp (.call hJ.called rfl List.nil_prefix List.nil_prefix), ?_⟩
    rintro _ _ _ ⟨⟩
    refine ⟨hJ.called, hJ.booted, fun _ n hn => ?_⟩
    cases hn
    refine ⟨Nat.lt_succ_self _, Function.update_self _ _ _, ?_, ?_, ?_⟩ <;>
      simp only [Fs.createFile, Function.update_self]
    · rfl
    · exact List.nil_prefix
  | @wrote n k rest =>
    have hopened := hJ.opened rfl n rfl
    have hcontent : (d.fs.inode n).content ++ rest.take (k + 1) ++ rest.drop (k + 1) = c.bytes := by
      rw [List.append_assoc, List.take_append_drop]
      exact hopened.content
    refine ⟨hI.append hJ.called hopened ⟨_, hcontent⟩, ?_⟩
    rintro _ _ _ ⟨⟩
    refine ⟨hJ.called, hJ.booted, fun _ m hm => ?_⟩
    cases hm
    refine ⟨hopened.made, hopened.maker, ?_, ?_, ?_⟩ <;> simp only [Fs.append, Function.update_self]
    · exact hopened.mode
    · exact hcontent
    · exact hopened.durable
  | @complete n k =>
    have hopened := hJ.opened rfl n rfl
    refine ⟨hI, ?_⟩
    rintro _ _ _ ⟨⟩
    refine ⟨hJ.called, hJ.booted, fun _ m hm => ?_⟩
    cases hm
    exact ⟨hopened.made, hopened.maker, hopened.mode, hopened.content, hopened.durable⟩
  | @unsynced n =>
    have hopened := hJ.opened rfl n rfl
    refine ⟨hI, ?_⟩
    rintro _ _ _ ⟨⟩
    refine ⟨hJ.called, hJ.booted, fun _ m hm => ?_⟩
    cases hm
    exact ⟨hopened.made, hopened.maker, hopened.mode, hopened.content, hopened.durable⟩
  | @synced n =>
    have hopened := (hJ.opened rfl n rfl).flushInode n
    refine ⟨hI.flushInode hsettled n, ?_⟩
    rintro _ _ _ ⟨⟩
    refine ⟨hJ.called, hJ.booted, fun _ m hm => ?_⟩
    cases hm
    exact ⟨hopened.made, hopened.maker, hopened.mode, hopened.content, hopened.durable⟩
  | renamed hrename =>
    obtain ⟨hinode, hnext⟩ := rename_inode hrename
    refine ⟨⟨fun n hn => ?_, fun n hn => ?_⟩, .returned true⟩
    · dsimp only at hn ⊢
      rw [hnext] at hn
      rw [hinode]
      exact hI.origin n hn
    · dsimp only at hn
      rw [hnext] at hn
      exact hI.unmade n hn

theorem WriteCall.Moved.traced_others {j boot : Nat} {c' : WriteCall} {phase' : WritePhase} (hij : j ≠ i)
    (hJ : OpenedInv umask C i d.boot c phase d) (h : c.Moved umask i d d.boot phase a d' w)
    (hu : OpenedInv umask C j boot c' phase' d) : OpenedInv umask C j boot c' phase' d' := by
  cases h with
  | failed | killed | kept | complete | unsynced => exact hu
  | removed =>
    exact ⟨hu.called, hu.booted, fun hb n hn => (hu.opened hb n hn).frame (Nat.le_refl _) rfl rfl⟩
  | created =>
    refine ⟨hu.called, hu.booted, fun hb n hn => ?_⟩
    have hopened := hu.opened hb n hn
    exact hopened.createFile c.tmp _ _ (Function.update_of_ne (Nat.ne_of_lt hopened.made) _ _)
  | @wrote m k rest =>
    refine ⟨hu.called, hu.booted, fun hb n hn => ?_⟩
    have hopened := hu.opened hb n hn
    refine hopened.frame (Nat.le_refl _) rfl (Function.update_of_ne ?_ _ _)
    rintro rfl
    exact hij (Option.some.inj (hopened.maker.symm.trans (hJ.opened rfl n rfl).maker))
  | synced =>
    exact ⟨hu.called, hu.booted, fun hb n hn => (hu.opened hb n hn).flushInode _⟩
  | renamed hrename =>
    obtain ⟨hinode, hnext⟩ := rename_inode hrename
    exact ⟨hu.called, hu.booted, fun hb n hn =>
      (hu.opened hb n hn).frame (Nat.le_of_eq hnext.symm) rfl (congrFun hinode n)⟩

/-- One step of the machine, whatever it is. -/
theorem traced_step {S S' : DiskSys} {act : Act WriterAct DiskEvent} (hsettled : start.Settled)
    (hcalled : ∀ i c, act = .on i (.call c) → C i c)
    (hplanted : ∀ path mode bytes, act = .env (.plant path (.file mode bytes)) → B mode bytes)
    (h : Traced umask C B start S.shared ∧ All (fun i w d => w.Owns umask C i d) S)
    (hs : Disk.sys umask S act = some S') :
    Traced umask C B start S'.shared ∧ All (fun i w d => w.Owns umask C i d) S' := by
  refine step_inv (G := fun _ act' => act' = act) h.1 h.2 rfl hs (fun _ _ _ => nofun) ?_ ?_ ?_
  · rintro i a t d' w rfl ht hJ hstep
    rcases Disk.writer_moved hstep with ⟨c, rfl, rfl, rfl, rfl⟩ | ⟨c, phase, rfl, hmoved⟩
    · refine ⟨h.1, ?_⟩
      rintro _ _ _ ⟨⟩
      exact ⟨hcalled i c rfl, Nat.le_refl _, fun _ _ => nofun⟩
    · exact hmoved.traced hsettled h.1 (hJ _ _ _ rfl)
  · rintro i a t d' w rfl ht hJ hstep j u hij hu hju boot c' phase' hrunning
    have hinv := hju _ _ _ hrunning
    rcases Disk.writer_moved hstep with ⟨c, rfl, rfl, rfl, rfl⟩ | ⟨c, phase, rfl, hmoved⟩
    · exact hinv
    · exact hmoved.traced_others hij (hJ _ _ _ rfl) hinv
  · rintro e d' rfl hstep
    cases e with
    | flushInode n =>
      cases hstep
      refine ⟨h.1.flushInode hsettled n, fun j u _ hju boot c phase hrunning => ?_⟩
      have hinv := hju _ _ _ hrunning
      exact ⟨hinv.called, hinv.booted, fun hb m hm => (hinv.opened hb m hm).flushInode n⟩
    | flushName p =>
      cases hstep
      refine ⟨⟨h.1.origin, h.1.unmade⟩, fun j u _ hju boot c phase hrunning => ?_⟩
      have hinv := hju _ _ _ hrunning
      exact ⟨hinv.called, hinv.booted, fun hb m hm => (hinv.opened hb m hm).frame (Nat.le_refl _) rfl rfl⟩
    | plant p node =>
      cases hstep
      cases node with
      | file mode content =>
        refine ⟨h.1.plant p (hplanted p mode content rfl), fun j u _ hju boot c phase hrunning => ?_⟩
        have hinv := hju _ _ _ hrunning
        exact ⟨hinv.called, hinv.booted, fun hb m hm => (hinv.opened hb m hm).createFile p mode content rfl⟩
      | link target =>
        refine ⟨⟨h.1.origin, h.1.unmade⟩, fun j u _ hju boot c phase hrunning => ?_⟩
        have hinv := hju _ _ _ hrunning
        exact ⟨hinv.called, hinv.booted,
          fun hb m hm => (hinv.opened hb m hm).frame (Nat.le_refl _) rfl rfl⟩
    | powerLoss =>
      cases hstep
      refine ⟨⟨fun n hn => (h.1.origin n hn).lost hsettled, h.1.unmade⟩, fun j u _ hju boot c phase hrunning => ?_⟩
      have hinv := hju _ _ _ hrunning
      refine ⟨hinv.called, Nat.le_succ_of_le hinv.booted, fun hb => ?_⟩
      have hlt := Nat.lt_succ_of_le hinv.booted
      exact absurd hb (Nat.ne_of_lt hlt)

end origin

/-- **No other file.** Whatever others plant at the temporary names, files or links, and whenever; whatever
fails, is killed or loses power; and however the writes overlap: every file is one that was there at first, as
it was, or one that somebody else made, with no byte that they did not put there, or one that a write itself
created, with the mode asked for, and that has a prefix of that write's bytes. No write made a file of the
first two kinds. -/
theorem writes_only_own_files (umask : UInt32) (start : Fs DiskPath)
    (sched : List (Act WriterAct DiskEvent)) (S : DiskSys) (hsettled : start.Settled)
    (hrun : Lts.run (Disk.sys umask) ⟨{ fs := start }, []⟩ sched = some S) :
    ∀ n < S.shared.fs.next,
      (S.shared.maker n = none ∧ n < start.next ∧ S.shared.fs.inode n = start.inode n) ∨
      (S.shared.maker n = none ∧
        ∃ path bytes, .env (.plant path (.file (S.shared.fs.inode n).mode bytes)) ∈ sched ∧
          (S.shared.fs.inode n).content <+: bytes) ∨
      ∃ i c, S.shared.maker n = some i ∧ .on i (.call c) ∈ sched ∧
        (S.shared.fs.inode n).mode = c.mode &&& ~~~umask ∧ (S.shared.fs.inode n).content <+: c.bytes := by
  have hinv := Lts.run_inv (G := fun _ act => act ∈ sched)
    (I := fun S => Traced umask (fun i c => .on i (.call c) ∈ sched)
      (fun mode bytes => ∃ path, .env (.plant path (.file mode bytes)) ∈ sched) start S.shared ∧
      All (fun i w d => w.Owns umask (fun i c => .on i (.call c) ∈ sched) i d) S)
    (fun _ _ _ h hmem hs => traced_step hsettled (fun i c he => he ▸ hmem)
      (fun path mode bytes he => ⟨path, he ▸ hmem⟩) h hs)
    ⟨⟨fun n hn => .first hn rfl, fun _ _ => rfl⟩, nofun⟩ (Lts.steps_of_forall fun _ => id) hrun
  intro n hn
  have horigin := hinv.1.origin n hn
  generalize S.shared.maker n = maker at horigin ⊢
  cases horigin with
  | first hn hx => exact .inl ⟨rfl, hn, hx⟩
  | planted hB hcontent hdurable =>
    obtain ⟨path, hpath⟩ := hB
    exact .inr (.inl ⟨rfl, path, _, hpath, hcontent⟩)
  | call hc hmode hcontent hdurable => exact .inr (.inr ⟨_, _, rfl, hc, hmode, hcontent⟩)

/-- A key: a file of another mode is put at the temporary name after the `remove_file`; a second try. -/
def keyTwice : List (Act WriterAct DiskEvent) :=
  (wholeCall 0 ⟨⟨"state", "key", some "pem"⟩, [7], 0o600⟩).take 3 ++
    [.env (.plant ⟨"state", "key", some "tmp"⟩ (.file 0o666 [])), .on 0 (.create true)] ++
    wholeCall 1 ⟨⟨"state", "key", some "pem"⟩, [7], 0o600⟩

theorem writes_only_own_files_key : ∃ S,
    Lts.run (Disk.sys 0o022) ⟨{ fs := emptyDisk }, []⟩ keyTwice = some S ∧ S.shared.fs.next = 2 ∧
    S.shared.fs.inode 1 = ⟨0o600, [7], [7]⟩ ∧
    ∃ i c, S.shared.maker 1 = some i ∧ .on i (.call c) ∈ keyTwice ∧
      (S.shared.fs.inode 1).mode = c.mode &&& ~~~0o022 ∧ (S.shared.fs.inode 1).content <+: c.bytes := by
  have hend : (Lts.run (Disk.sys 0o022) ⟨{ fs := emptyDisk }, []⟩ keyTwice).map
      (fun S => (S.shared.fs.next, S.shared.fs.inode 1)) = some (2, ⟨0o600, [7], [7]⟩) := by
    decide +kernel
  obtain ⟨S, hrun, hS⟩ := Option.map_eq_some_iff.1 hend
  rw [Prod.mk.injEq] at hS
  obtain ⟨hnext, hinode⟩ := hS
  refine ⟨S, hrun, hnext, hinode, ?_⟩
  rcases writes_only_own_files 0o022 emptyDisk keyTwice S emptyDisk_settled hrun 1 (by omega) with
    ⟨-, hfirst, -⟩ | ⟨-, path, bytes, hmem, -⟩ | hcall
  · exact absurd hfirst (Nat.not_lt_zero 1)
  · rw [hinode] at hmem
    simp [keyTwice, wholeCall] at hmem
  · exact hcall

end EtherTunnel
