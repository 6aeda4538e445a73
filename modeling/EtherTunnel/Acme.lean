import EtherTunnel.Lib.Lts
import Mathlib.Data.Nat.Basic

/-!
# The certificate on disk

| here | there |
| --- | --- |
| `CertPem`, `KeyPem`, `certifiedKeyFromPem`, `certNotAfter` | `tls.rs:82-98`, `:111-120`; a text that does not parse is `unparsed` |
| `StateDir.loadCached` | `load_cached` (`acme.rs:92-97`) |
| `Acme.boot` | `boot` (`acme.rs:124-158`), with a self-signed pair that could be generated |
| `AcmeProc.check` | `ensure_cert` up to `issue` (`acme.rs:184-200`) |
| the phases `ensuringDir`, `writingCert`, `writingKey` | `save` (`acme.rs:114-119`) |
| `AcmeProc.install` | `ensure_cert` after `save` (`acme.rs:204-213`) |
| `RenewPhase.sleeping` | the sleep of `run` (`acme.rs:162-180`) |

A private key is a number, and a leaf has the number of the key that it certifies. `CertifiedKey::new` does
not compare them. Times are in seconds. The process may die in any phase; `atomic_write` is all or nothing,
but `save` is two of them, and the module doc's "cached cert expired/missing → install a self-signed
stopgap" has no test of the expiry behind it.
-/

namespace EtherTunnel

/-! ## Key material -/

structure Leaf where
  key : Nat
  /-- What `cert_not_after` can read. -/
  notAfter : Option Nat
deriving DecidableEq

inductive CertPem where
  | chain (leaf : Leaf)
  | unparsed
deriving DecidableEq

inductive KeyPem where
  | key (id : Nat)
  | unparsed
deriving DecidableEq

structure CertifiedKey where
  leaf : Leaf
  key : Nat
deriving DecidableEq

def certifiedKeyFromPem : CertPem → KeyPem → Option CertifiedKey
  | .chain leaf, .key id => some ⟨leaf, id⟩
  | .unparsed, _ | .chain _, .unparsed => none

def certNotAfter : CertPem → Option Nat
  | .chain leaf => leaf.notAfter
  | .unparsed => none

/-- What an issuance returns: the key was made for the certificate. -/
structure IssuedPair where
  cert : CertPem
  key : KeyPem
  matched : ∀ leaf id, cert = .chain leaf → key = .key id → leaf.key = id
deriving DecidableEq

/-- What the resolver serves. -/
inductive Material where
  | selfSigned
  | pair (ck : CertifiedKey)
deriving DecidableEq

/-! ## The manager -/

structure StateDir where
  cert : Option CertPem := none
  key : Option KeyPem := none
deriving DecidableEq

def StateDir.loadCached (dir : StateDir) : Option (CertPem × KeyPem) :=
  match dir.cert, dir.key with
  | some cert, some key => if (certifiedKeyFromPem cert key).isSome then some (cert, key) else none
  | none, _ | some _, none => none

inductive RenewPhase where
  | checking
  | issuing
  | ensuringDir (issued : IssuedPair)
  | writingCert (issued : IssuedPair)
  | writingKey (issued : IssuedPair)
  | installing (issued : IssuedPair)
  /-- Until the renewal window, or until the next attempt. -/
  | sleeping (wait : Nat) (untilWindow : Bool)
deriving DecidableEq

structure AcmeProc where
  bootedAt : Nat
  booted : Material
  installed : Material
  phase : RenewPhase
deriving DecidableEq

structure Acme where
  dir : StateDir := {}
  proc : Option AcmeProc := none
deriving DecidableEq

inductive AcmeEvent where
  | boot (now : Nat)
  | check (now : Nat)
  | issueFails
  | issued (issued : IssuedPair)
  | ensureStateDir (ok : Bool)
  | writeCert (ok : Bool)
  | writeKey (ok : Bool)
  | install (now : Nat)
  | wake
  | die

def renewBefore : Nat := 30 * 24 * 60 * 60

def retryAfter : Nat := 5 * 60

def Acme.boot (dir : StateDir) (now : Nat) : AcmeProc :=
  let booted :=
    match dir.loadCached with
    | some (cert, key) => (certifiedKeyFromPem cert key).elim .selfSigned .pair
    | none => .selfSigned
  ⟨now, booted, booted, .checking⟩

namespace AcmeProc

variable (p : AcmeProc)

def retry : AcmeProc := { p with phase := .sleeping retryAfter false }

def check (dir : StateDir) (now : Nat) : AcmeProc :=
  match dir.loadCached.bind fun (cert, _) => certNotAfter cert with
  | some notAfter =>
    if renewBefore < notAfter - now then
      { p with phase := .sleeping (notAfter - now - renewBefore) true }
    else { p with phase := .issuing }
  | none => { p with phase := .issuing }

def install (issued : IssuedPair) (now : Nat) : AcmeProc :=
  match certifiedKeyFromPem issued.cert issued.key with
  | none => p.retry
  | some ck =>
    match certNotAfter issued.cert with
    | none => { p with installed := .pair ck }.retry
    | some notAfter =>
      { p with installed := .pair ck, phase := .sleeping (max (notAfter - now - renewBefore) 3600) true }

end AcmeProc

namespace Acme

def step (S : Acme) : AcmeEvent → Option Acme
  | .boot now => if S.proc = none then some { S with proc := some (boot S.dir now) } else none
  | .die => some { S with proc := none }
  | ev =>
    S.proc.bind fun p =>
      match p.phase, ev with
      | .checking, .check now => some { S with proc := some (p.check S.dir now) }
      | .issuing, .issueFails => some { S with proc := some p.retry }
      | .issuing, .issued issued => some { S with proc := some { p with phase := .ensuringDir issued } }
      | .ensuringDir issued, .ensureStateDir ok =>
        some { S with proc := some (if ok then { p with phase := .writingCert issued } else p.retry) }
      | .writingCert issued, .writeCert ok =>
        if ok then some ⟨{ S.dir with cert := some issued.cert }, some { p with phase := .writingKey issued }⟩
        else some { S with proc := some p.retry }
      | .writingKey issued, .writeKey ok =>
        if ok then some ⟨{ S.dir with key := some issued.key }, some { p with phase := .installing issued }⟩
        else some { S with proc := some p.retry }
      | .installing issued, .install now => some { S with proc := some (p.install issued now) }
      | .sleeping _ _, .wake => some { S with proc := some { p with phase := .checking } }
      | _, _ => none

end Acme

/-! ## What is served and what is cached -/

/-- The leaf has an expiry that can be read and has not passed. -/
def Leaf.ValidAt (leaf : Leaf) (now : Nat) : Prop := ∃ notAfter ∈ leaf.notAfter, now ≤ notAfter

instance (leaf : Leaf) (now : Nat) : Decidable (leaf.ValidAt now) :=
  inferInstanceAs (Decidable (∃ notAfter ∈ leaf.notAfter, now ≤ notAfter))

/-- The ladder of the module doc: a self-signed pair, or a valid leaf with its own key. -/
def Material.GoodAt (now : Nat) : Material → Prop
  | .selfSigned => True
  | .pair ck => ck.leaf.ValidAt now ∧ ck.leaf.key = ck.key

/-- The pair that a boot would serve from the directory. -/
def StateDir.cached (dir : StateDir) : Option CertifiedKey :=
  dir.loadCached.bind fun (cert, key) => certifiedKeyFromPem cert key

/-- No mismatched pair is cached. -/
def StateDir.Matched (dir : StateDir) : Prop := ∀ ck ∈ dir.cached, ck.leaf.key = ck.key

instance (dir : StateDir) : Decidable dir.Matched :=
  inferInstanceAs (Decidable (∀ ck ∈ dir.cached, ck.leaf.key = ck.key))

theorem boot_booted (dir : StateDir) (now : Nat) :
    (Acme.boot dir now).booted = dir.cached.elim .selfSigned .pair := by
  unfold Acme.boot StateDir.cached
  cases dir.loadCached <;> rfl

theorem cached_eq_some {dir : StateDir} {ck : CertifiedKey} (h : dir.cached = some ck) :
    dir.cert = some (.chain ck.leaf) ∧ dir.key = some (.key ck.key) := by
  obtain ⟨⟨cert, key⟩, hload, hck⟩ := Option.bind_eq_some_iff.1 h
  obtain ⟨_ | _, _ | _⟩ := dir
  · cases hload
  · cases hload
  · cases hload
  · obtain ⟨-, ⟨⟩⟩ := Option.ite_none_right_eq_some.1 hload
    cases cert <;> cases key <;> cases hck
    exact ⟨rfl, rfl⟩

/-- The two files of one issuance. -/
theorem matched_of_issued {dir : StateDir} {issued : IssuedPair} (hcert : dir.cert = some issued.cert)
    (hkey : dir.key = some issued.key) : dir.Matched := by
  intro ck hck
  obtain ⟨hc, hk⟩ := cached_eq_some hck
  rw [hcert] at hc
  rw [hkey] at hk
  exact issued.matched _ _ (Option.some_inj.1 hc) (Option.some_inj.1 hk)

namespace Acme

/-- What the boot installed was good at its time, and the manager does not sleep until the renewal window
over a mismatched pair. -/
structure Sound (S : Acme) : Prop where
  booted : ∀ p ∈ S.proc, p.booted.GoodAt p.bootedAt
  asleep : ∀ p ∈ S.proc, ∀ wait, p.phase = .sleeping wait true → S.dir.Matched

/-- The process does not die, and the second write does not fail, while the first write has left the new
chain beside the old key; and no boot finds a cached chain that is past its expiry. -/
def Clean (S : Acme) : AcmeEvent → Prop
  | .boot now => ∀ ck ∈ S.dir.cached, ck.leaf.ValidAt now
  | .die | .writeKey false => S.dir.Matched
  | _ => True

instance (S : Acme) : ∀ ev, Decidable (S.Clean ev)
  | .boot now => inferInstanceAs (Decidable (∀ ck ∈ S.dir.cached, ck.leaf.ValidAt now))
  | .die | .writeKey false => inferInstanceAs (Decidable S.dir.Matched)
  | .check _ | .issueFails | .issued _ | .ensureStateDir _ | .writeCert _ | .writeKey true | .install _
  | .wake => .isTrue trivial

/-- What one event does: only the two writes of a save touch the directory. -/
inductive Moved (S : Acme) : AcmeEvent → Acme → Prop where
  | boot {now : Nat} (hdown : S.proc = none) :
      Moved S (.boot now) { S with proc := some (Acme.boot S.dir now) }
  | die : Moved S .die { S with proc := none }
  | goesOn {ev : AcmeEvent} {p p' : AcmeProc} (hp : S.proc = some p)
      (hbooted : p'.bootedAt = p.bootedAt ∧ p'.booted = p.booted)
      (hfrom : ∀ issued, p.phase ≠ .writingKey issued) (hto : ∀ issued, p'.phase ≠ .writingKey issued) :
      Moved S ev { S with proc := some p' }
  | certWritten {p : AcmeProc} {issued : IssuedPair} (hp : S.proc = some p)
      (hphase : p.phase = .writingCert issued) :
      Moved S (.writeCert true)
        ⟨{ S.dir with cert := some issued.cert }, some { p with phase := .writingKey issued }⟩
  | keyWritten {p : AcmeProc} {issued : IssuedPair} (hp : S.proc = some p)
      (hphase : p.phase = .writingKey issued) :
      Moved S (.writeKey true)
        ⟨{ S.dir with key := some issued.key }, some { p with phase := .installing issued }⟩
  | keyLost {p : AcmeProc} {issued : IssuedPair} (hp : S.proc = some p)
      (hphase : p.phase = .writingKey issued) :
      Moved S (.writeKey false) { S with proc := some p.retry }

end Acme

namespace AcmeProc

variable {p : AcmeProc}

theorem check_goesOn (dir : StateDir) (now : Nat) :
    ((p.check dir now).bootedAt = p.bootedAt ∧ (p.check dir now).booted = p.booted) ∧
      ∀ issued, (p.check dir now).phase ≠ .writingKey issued := by
  unfold check
  split
  · split <;> exact ⟨⟨rfl, rfl⟩, nofun⟩
  · exact ⟨⟨rfl, rfl⟩, nofun⟩

theorem install_goesOn (issued : IssuedPair) (now : Nat) :
    ((p.install issued now).bootedAt = p.bootedAt ∧ (p.install issued now).booted = p.booted) ∧
      ∀ issued', (p.install issued now).phase ≠ .writingKey issued' := by
  unfold install
  split
  · exact ⟨⟨rfl, rfl⟩, nofun⟩
  · split <;> exact ⟨⟨rfl, rfl⟩, nofun⟩

end AcmeProc

namespace Acme

variable {S S' : Acme} {ev : AcmeEvent}

theorem moved (h : step S ev = some S') : Moved S ev S' := by
  cases ev with
  | boot now =>
    obtain ⟨hdown, ⟨⟩⟩ := Option.ite_none_right_eq_some.1 h
    exact .boot hdown
  | die =>
    cases h
    exact .die
  | check now =>
    obtain ⟨p, hp, h⟩ := Option.bind_eq_some_iff.1 h
    cases hphase : p.phase <;> rw [hphase] at h <;> cases h
    obtain ⟨hbooted, hto⟩ := p.check_goesOn S.dir now
    exact .goesOn hp hbooted (by simp [hphase]) hto
  | issueFails =>
    obtain ⟨p, hp, h⟩ := Option.bind_eq_some_iff.1 h
    cases hphase : p.phase <;> rw [hphase] at h <;> cases h
    exact .goesOn hp ⟨rfl, rfl⟩ (by simp [hphase]) nofun
  | issued issued =>
    obtain ⟨p, hp, h⟩ := Option.bind_eq_some_iff.1 h
    cases hphase : p.phase <;> rw [hphase] at h <;> cases h
    exact .goesOn hp ⟨rfl, rfl⟩ (by simp [hphase]) nofun
  | ensureStateDir ok =>
    obtain ⟨p, hp, h⟩ := Option.bind_eq_some_iff.1 h
    cases hphase : p.phase <;> rw [hphase] at h <;> cases h
    cases ok <;> exact .goesOn hp ⟨rfl, rfl⟩ (by simp [hphase]) nofun
  | writeCert ok =>
    obtain ⟨p, hp, h⟩ := Option.bind_eq_some_iff.1 h
    cases hphase : p.phase <;> rw [hphase] at h <;> cases ok <;> cases h
    · exact .goesOn hp ⟨rfl, rfl⟩ (by simp [hphase]) nofun
    · exact .certWritten hp hphase
  | writeKey ok =>
    obtain ⟨p, hp, h⟩ := Option.bind_eq_some_iff.1 h
    cases hphase : p.phase <;> rw [hphase] at h <;> cases ok <;> cases h
    · exact .keyLost hp hphase
    · exact .keyWritten hp hphase
  | install now =>
    obtain ⟨p, hp, h⟩ := Option.bind_eq_some_iff.1 h
    cases hphase : p.phase <;> rw [hphase] at h <;> cases h
    obtain ⟨hbooted, hto⟩ := p.install_goesOn _ now
    exact .goesOn hp hbooted (by simp [hphase]) hto
  | wake =>
    obtain ⟨p, hp, h⟩ := Option.bind_eq_some_iff.1 h
    cases hphase : p.phase <;> rw [hphase] at h <;> cases h
    exact .goesOn hp ⟨rfl, rfl⟩ (by simp [hphase]) nofun

/-- Only between its two writes may a save leave a mismatched pair, and then the chain is the new one. -/
structure Inv (S : Acme) : Prop where
  booted : ∀ p ∈ S.proc, p.booted.GoodAt p.bootedAt
  matched : (∀ p ∈ S.proc, ∀ issued, p.phase ≠ .writingKey issued) → S.dir.Matched
  written : ∀ p ∈ S.proc, ∀ issued, p.phase = .writingKey issued → S.dir.cert = some issued.cert

theorem Inv.sound (hinv : S.Inv) : S.Sound where
  booted := hinv.booted
  asleep p hp wait hphase := by
    refine hinv.matched fun q hq issued hsave => ?_
    cases Option.mem_unique hp hq
    rw [hphase] at hsave
    cases hsave

theorem goodAt_boot {dir : StateDir} {now : Nat} (hmatched : dir.Matched)
    (hvalid : ∀ ck ∈ dir.cached, ck.leaf.ValidAt now) : (boot dir now).booted.GoodAt now := by
  rw [boot_booted]
  cases hcached : dir.cached with
  | none => trivial
  | some ck => exact ⟨hvalid ck hcached, hmatched ck hcached⟩

/-- One step. -/
theorem Inv.step (hinv : S.Inv) (hclean : S.Clean ev) (h : step S ev = some S') : S'.Inv := by
  cases moved h with
  | @boot now hdown =>
    have hmatched : S.dir.Matched := hinv.matched (by simp [hdown])
    refine ⟨?_, fun _ => hmatched, ?_⟩
    · rintro _ ⟨⟩
      exact goodAt_boot hmatched hclean
    · rintro _ ⟨⟩ _ ⟨⟩
  | die =>
    exact ⟨nofun, fun _ => hclean, nofun⟩
  | @goesOn _ p p' hp hbooted hfrom hto =>
    have hmatched : S.dir.Matched := by
      refine hinv.matched fun q hq => ?_
      cases Option.mem_unique hp hq
      exact hfrom
    refine ⟨?_, fun _ => hmatched, ?_⟩
    · rintro _ ⟨⟩
      rw [hbooted.1, hbooted.2]
      exact hinv.booted p hp
    · rintro _ ⟨⟩ issued hphase
      exact absurd hphase (hto issued)
  | @certWritten p issued hp hphase =>
    refine ⟨?_, fun hno => absurd rfl (hno _ rfl issued), ?_⟩
    · rintro _ ⟨⟩
      exact hinv.booted p hp
    · rintro _ ⟨⟩ _ ⟨⟩
      rfl
  | @keyWritten p issued hp hphase =>
    have hcert := hinv.written p hp issued hphase
    refine ⟨?_, fun _ => matched_of_issued hcert rfl, ?_⟩
    · rintro _ ⟨⟩
      exact hinv.booted p hp
    · rintro _ ⟨⟩ _ ⟨⟩
  | @keyLost p issued hp hphase =>
    refine ⟨?_, fun _ => hclean, ?_⟩
    · rintro _ ⟨⟩
      exact hinv.booted p hp
    · rintro _ ⟨⟩ _ ⟨⟩

/-- **The boot ladder.** From an empty state directory, through any number of renewals, failed saves,
deaths and restarts: as long as nothing stops a save between its two writes over an older key, and no boot
meets an expired chain, every boot installs a self-signed pair or a valid leaf with its key, and the manager
never sleeps until the renewal window over a mismatched pair. -/
theorem boot_ladder {events : List AcmeEvent} (hclean : Lts.Steps step Clean {} events) :
    Lts.Always step Sound {} events :=
  Lts.always_of_inv (fun _ _ _ hinv hclean h => Inv.step hinv hclean h) (fun _ hinv => hinv.sound)
    ⟨nofun, fun _ => nofun, nofun⟩ hclean

end Acme

/-- A certificate of ninety days for the key `id`. -/
def ninetyDays (id now : Nat) : IssuedPair where
  cert := .chain ⟨id, some (now + 3 * renewBefore)⟩
  key := .key id
  matched := by
    rintro _ _ ⟨⟩ ⟨⟩
    rfl

/-- The first certificate, saved and installed at time 0. -/
def firstIssuance : List AcmeEvent :=
  [.boot 0, .check 0, .issued (ninetyDays 1 0), .ensureStateDir true, .writeCert true, .writeKey true,
    .install 0]

/-- A first save that dies between its writes, a restart, and a renewal that is saved. -/
theorem boot_ladder_restarted :
    Lts.Always Acme.step Acme.Sound {}
      ([.boot 0, .check 0, .issued (ninetyDays 7 0), .ensureStateDir true, .writeCert true, .die] ++
        firstIssuance ++
        [.wake, .check (2 * renewBefore), .issued (ninetyDays 2 (2 * renewBefore)), .ensureStateDir true,
          .writeCert true, .writeKey true, .install (2 * renewBefore), .die, .boot (3 * renewBefore)]) :=
  Acme.boot_ladder (by decide)

/-- A renewal that dies after `cert.pem`: the next boot serves the new leaf with the old key, and sleeps
until that leaf is due. And a relay that was down for longer than the certificate serves it expired. -/
theorem mismatched_pair_served :
    (∃ S, Lts.run Acme.step {} (firstIssuance ++
        [.wake, .check (2 * renewBefore), .issued (ninetyDays 2 (2 * renewBefore)), .ensureStateDir true,
          .writeCert true, .die, .boot (2 * renewBefore), .check (2 * renewBefore)]) = some S ∧
      S.proc.map (·.booted) = some (.pair ⟨⟨2, some (5 * renewBefore)⟩, 1⟩) ∧
      S.proc.map (·.phase) = some (.sleeping (2 * renewBefore) true) ∧ ¬ S.dir.Matched ∧ ¬ S.Sound) ∧
    ∃ S, Lts.run Acme.step {} (firstIssuance ++ [.die, .boot (4 * renewBefore)]) = some S ∧
      S.proc.map (·.booted) = some (.pair ⟨⟨1, some (3 * renewBefore)⟩, 1⟩) ∧
      S.proc.map (·.bootedAt) = some (4 * renewBefore) ∧ ¬ S.Sound := by
  constructor
  · refine ⟨_, rfl, rfl, rfl, by decide, fun h => ?_⟩
    exact absurd (h.asleep _ rfl _ rfl) (by decide)
  · refine ⟨_, rfl, rfl, rfl, fun h => ?_⟩
    exact absurd (h.booted _ rfl).1 (by decide)

end EtherTunnel
