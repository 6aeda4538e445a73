import EtherTunnel.Session.Control
import Mathlib.Order.Bounds.Basic

/-!
# The handshake

`control_task` reads the handshake before anything else (`session.rs:335-403`). Until it has sent `Welcome`
it holds no session and no user, only a stream of bytes from somebody.

| here | there |
| --- | --- |
| `negotiate` | `session.rs:148-151` |
| `Greeter` | what `control_task` knows before it knows the peer |
| `Greeter.handshake` | `session.rs:342-401` |

A refusal is one `Denied` frame, after which the stream is only drained (`deny`, `session.rs:878`). The
`Welcome` is the first frame in a channel of 64, so `push` fails only if the writer is gone
(`HandshakeIo.stalled`).

`handshake_safe` is about every stream of bytes. Who is not welcomed moves no route and no holding, and
without a version in common learns nothing about a token; who is has named a version range that meets the
relay's, and a token that the relay resolved.
-/

namespace EtherTunnel

/-! ## Versions -/

def negotiate (peerMin peerMax : UInt16) : Option UInt16 :=
  let v := if peerMax ≤ protocolVersion then peerMax else protocolVersion
  if peerMin ≤ v ∧ 1 ≤ v then some v else none

/-- The versions both ends speak. -/
def commonVersions (peerMin peerMax : UInt16) : Set UInt16 :=
  {v | (peerMin ≤ v ∧ v ≤ peerMax) ∧ 1 ≤ v ∧ v ≤ protocolVersion}

/-- `peer_max.min(PROTOCOL_VERSION)`. -/
theorem le_negotiated {peerMax w : UInt16} :
    w ≤ (if peerMax ≤ protocolVersion then peerMax else protocolVersion) ↔
      w ≤ peerMax ∧ w ≤ protocolVersion := by
  simp only [UInt16.le_iff_toNat_le]
  split <;> omega

theorem negotiate_eq_some {peerMin peerMax v : UInt16} :
    negotiate peerMin peerMax = some v ↔ IsGreatest (commonVersions peerMin peerMax) v := by
  unfold negotiate
  constructor
  · intro h
    obtain ⟨⟨hmin, hone⟩, heq⟩ := Option.ite_none_right_eq_some.1 h
    cases heq
    obtain ⟨hmax, hproto⟩ := le_negotiated.1 (UInt16.le_refl _)
    refine ⟨⟨⟨hmin, hmax⟩, hone, hproto⟩, ?_⟩
    rintro w ⟨⟨-, hw⟩, -, hwp⟩
    exact le_negotiated.2 ⟨hw, hwp⟩
  · rintro ⟨⟨⟨hmin, hmax⟩, hone, hproto⟩, hgreatest⟩
    have hle := le_negotiated.2 ⟨hmax, hproto⟩
    obtain ⟨hmax', hproto'⟩ := le_negotiated.1 (UInt16.le_refl _)
    have hv := hgreatest ⟨⟨UInt16.le_trans hmin hle, hmax'⟩, UInt16.le_trans hone hle, hproto'⟩
    dsimp only
    rw [UInt16.le_antisymm hv hle, if_pos ⟨hmin, hone⟩]

theorem negotiate_eq_none {peerMin peerMax : UInt16} :
    negotiate peerMin peerMax = none ↔ commonVersions peerMin peerMax = ∅ := by
  rw [Set.eq_empty_iff_forall_notMem]
  constructor
  · rintro h v ⟨⟨hmin, hmax⟩, hone, hproto⟩
    have hle := le_negotiated.2 ⟨hmax, hproto⟩
    unfold negotiate at h
    dsimp only at h
    rw [if_pos ⟨UInt16.le_trans hmin hle, UInt16.le_trans hone hle⟩] at h
    cases h
  · intro h
    cases hv : negotiate peerMin peerMax with
    | none => rfl
    | some v => exact absurd (negotiate_eq_some.1 hv).1 (h v)

/-! ## The handshake -/

/-- What a control task starts with. -/
structure Greeter where
  ctx : SessionCtx
  hashToken : String → List UInt8
  serverVersion : String
  revalidate : Nat
  sessionId : Nat

structure HandshakeIo where
  /-- Ten seconds without the whole preamble. -/
  preambleLate : Bool := false
  /-- Ten more without a whole frame. -/
  helloLate : Bool := false
  credential : CredentialIo := {}
  /-- How the write of a `Denied` fails. -/
  denyFails : Option CodecError := none
  /-- The writer is gone before it took the `Welcome`. -/
  stalled : Bool := false

/-- Where a handshake leaves things; `task` is the loop that follows, if one does. -/
structure Handshake where
  relay : Relay
  rest : Reader
  written : List ControlFrame := []
  notices : Notices := []
  task : Option ControlTask := none
  exit : Except CodecError Unit := .ok ()

namespace Greeter

variable (greeter : Greeter)

def deny (io : HandshakeIo) (why : Refusal) (relay : Relay) (rest : Reader) : Handshake :=
  match io.denyFails with
  | some e => { relay, rest, exit := .error e }
  | none => { relay, rest, written := [why.frame] }

def versionUnsupported : Refusal :=
  (.versionUnsupported, "relay speaks protocol " ++ toString protocolVersion)

def welcome (proto : UInt16) : ControlFrame :=
  .welcome proto greeter.serverVersion (UInt64.ofNat greeter.sessionId)

def controlTask (user : AuthedUser) (token : Secret) : ControlTask where
  ctx := greeter.ctx
  hashToken := greeter.hashToken
  handle := ⟨greeter.sessionId, user.userId⟩
  user := user
  token := token
  revalidate := greeter.revalidate

/-- From the `Hello` on. -/
def onHello (io : HandshakeIo) (relay : Relay) (rest : Reader) (token : Secret)
    (protoMin protoMax : UInt16) : Handshake :=
  match negotiate protoMin protoMax with
  | none => deny io versionUnsupported relay rest
  | some proto =>
    match greeter.ctx.authenticateAny greeter.hashToken io.credential relay token.expose with
    | (none, notices, relay) =>
      { deny io (.authFailed, "authentication failed") relay rest with notices }
    | (some user, notices, relay) =>
      if io.stalled then { relay, rest, notices }
      else
        { relay, rest, notices, written := [greeter.welcome proto]
          task := some (greeter.controlTask user token) }

def handshake (io : HandshakeIo) (relay : Relay) (rd : Reader) : Handshake :=
  if io.preambleLate then { relay, rest := rd }
  else
    match readPreamble rd with
    | (.error e, rd) => { relay, rest := rd, exit := .error e }
    | (.ok _, rd) =>
      if io.helloLate then { relay, rest := rd }
      else
        match readFrame ControlFrame.wire rd maxControlFrame with
        | (.error e, rd) => { relay, rest := rd, exit := .error e }
        | (.ok (.hello token _ protoMin protoMax), rd) =>
          greeter.onHello io relay rd token protoMin protoMax
        | (.ok _, rd) => deny io (.protocolError, "expected Hello") relay rd

end Greeter

/-! ## What a stranger can do -/

/-- The same holdings, routes and listeners; accounts may have come. -/
structure SameHoldings (relay relay' : Relay) : Prop where
  hostnames : relay'.db.hostnames = relay.db.hostnames
  tcpPorts : relay'.db.tcpPorts = relay.db.tcpPorts
  router : relay'.router = relay.router
  bound : relay'.bound = relay.bound

theorem SameHoldings.refl (relay : Relay) : SameHoldings relay relay := ⟨rfl, rfl, rfl, rfl⟩

/-- The holdings of a registry that only gets accounts. -/
def Holds (db db' : Db) : Prop := db'.hostnames = db.hostnames ∧ db'.tcpPorts = db.tcpPorts

theorem holds_lookupUserId {db : Db} (name : String) : Txn.Keeps (Holds db) (lookupUserId name) :=
  (Txn.keeps_query _ _).2 fun _ => trivial

theorem holds_addUser {db : Db} (now : Int) (name : String) : Txn.Keeps (Holds db) (addUser now name) := by
  refine keeps_addUser fun m id m' hm hins => ?_
  unfold Db.insertUser at hins
  split at hins
  · cases hins
  · cases hins
    exact hm

theorem resolveUser_holds (io : ResolveIo) (db : Db) (customerId : String) :
    Holds db (resolveUser io db customerId).2 := by
  have hself : Holds db db := ⟨rfl, rfl⟩
  have hlookup : Holds db (Txn.run io.lookup (lookupUserId customerId) db).2 :=
    (holds_lookupUserId customerId).run hself io.lookup
  unfold resolveUser
  split
  · exact hself
  · split
    · rename_i heq
      rwa [heq] at hlookup
    · rename_i heq
      rwa [heq] at hlookup
    · rename_i db₁ heq
      rw [heq] at hlookup
      have hadd : Holds db (Txn.run io.add (addUser io.now customerId) db₁).2 :=
        (holds_addUser io.now customerId).run hlookup io.add
      split
      · rename_i heq
        rwa [heq] at hadd
      · rename_i db₂ heq
        rw [heq] at hadd
        have hagain : Holds db (Txn.run io.again (lookupUserId customerId) db₂).2 :=
          (holds_lookupUserId customerId).run hadd io.again
        split
        · rename_i heq
          rwa [heq] at hagain
        · rename_i heq
          rwa [heq] at hagain
      · rename_i heq
        rwa [heq] at hadd

/-- An answer of nobody leaves holdings and routes as they were, and nobody is told anything. -/
structure Unmoved (live : Live) (r : AuthResult) : Prop where
  holds : Holds live.db r.live.db
  router : r.live.router = live.router
  notices : r.notices = []

section gate

variable {gate : PolarGate} {io : AuthIo} {cache : LicenseCache} {live : Live}

theorem Unmoved.rfl {user : Option AuthedUser} {asked : Bool} : Unmoved live ⟨user, asked, cache, live, []⟩ :=
  ⟨⟨Eq.refl _, Eq.refl _⟩, Eq.refl _, Eq.refl _⟩

theorem fromCache_unmoved (asked : Bool) (row : LicenseRow) :
    Unmoved live (PolarGate.fromCache io cache live asked row) :=
  ⟨resolveUser_holds io.resolve live.db row.customerId, rfl, rfl⟩

/-- Only a resolved user has their holdings brought under a cap. -/
theorem onGranted_unmoved {domain customerId benefitId : String} {keyHash : List UInt8}
    (h : (gate.onGranted io cache live domain keyHash customerId benefitId).user = none) :
    Unmoved live (gate.onGranted io cache live domain keyHash customerId benefitId) := by
  unfold PolarGate.onGranted at h ⊢
  by_cases hfails : io.upsertFails = true
  · rw [if_pos hfails]
    exact .rfl
  · rw [if_neg hfails] at h ⊢
    dsimp only at h ⊢
    split
    · exact .rfl
    · rename_i cap hcap
      rw [hcap] at h
      dsimp only at h
      have hholds := resolveUser_holds io.resolve live.db customerId
      rcases hres : resolveUser io.resolve live.db customerId with ⟨_ | user, db⟩
      · rw [hres] at hholds
        exact ⟨hholds, rfl, rfl⟩
      · rw [hres] at h
        cases h

theorem authenticate_unmoved {key : String} (h : (gate.authenticate io cache live key).user = none) :
    Unmoved live (gate.authenticate io cache live key) := by
  unfold PolarGate.authenticate at h ⊢
  split at h
  · rw [if_pos ‹_›]
    exact .rfl
  · rw [if_neg ‹_›]
    split at h
    · exact .rfl
    · dsimp only at h ⊢
      split at h
      · rw [if_pos ‹_›]
        exact .rfl
      · rw [if_neg ‹_›]
        split at h
        · split
          · exact fromCache_unmoved _ _
          · exact .rfl
        · split at h
          · exact onGranted_unmoved h
          · exact .rfl
          · split
            · exact fromCache_unmoved _ _
            · exact .rfl

end gate

theorem authenticateAny_unmoved {ctx : SessionCtx} {hashToken : String → List UInt8} {io : CredentialIo}
    {relay : Relay} {token : String} (h : (ctx.authenticateAny hashToken io relay token).1 = none) :
    SameHoldings relay (ctx.authenticateAny hashToken io relay token).2.2 ∧
      (ctx.authenticateAny hashToken io relay token).2.1 = [] := by
  unfold SessionCtx.authenticateAny at h ⊢
  split at h
  · cases h
  · split at h
    · obtain ⟨⟨hhosts, hports⟩, hrouter, hnotices⟩ := authenticate_unmoved h
      exact ⟨⟨hhosts, hports, hrouter, rfl⟩, hnotices⟩
    · exact ⟨.refl relay, rfl⟩

/-! ## Every stream of bytes -/

namespace Greeter

variable (greeter : Greeter) (io : HandshakeIo) (relay : Relay) (rd : Reader)

/-- The stream starts with a preamble and a `Hello`, each in time. -/
def Opens (io : HandshakeIo) (rd : Reader) (token : Secret) (protoMin protoMax : UInt16) : Prop :=
  io.preambleLate = false ∧ io.helloLate = false ∧ ∃ v agent rd₁ rd₂, readPreamble rd = (.ok v, rd₁) ∧
    readFrame ControlFrame.wire rd₁ maxControlFrame = (.ok (.hello token agent protoMin protoMax), rd₂)

/-- What the relay makes of a token. -/
def resolves (token : Secret) : Option AuthedUser × Notices × Relay :=
  greeter.ctx.authenticateAny greeter.hashToken io.credential relay token.expose

/-- What can come of a handshake. -/
inductive Met : Handshake → Prop
  | dropped (rest : Reader) (exit : Except CodecError Unit)
      (hno : ∀ token lo hi, ¬ Opens io rd token lo hi) : Met { relay, rest, exit }
  | refused (rest : Reader) (why : Refusal)
      (hno : ∀ token lo hi, Opens io rd token lo hi → negotiate lo hi = none) :
      Met (deny io why relay rest)
  | stranger {token : Secret} {lo hi proto : UInt16} {notices : Notices} {relay' : Relay} (rest : Reader)
      (why : Refusal) (hopens : Opens io rd token lo hi) (hproto : negotiate lo hi = some proto)
      (hauth : greeter.resolves io relay token = (none, notices, relay')) :
      Met { deny io why relay' rest with notices }
  | stalled {token : Secret} {lo hi proto : UInt16} {user : AuthedUser} {notices : Notices}
      {relay' : Relay} (rest : Reader) (hopens : Opens io rd token lo hi)
      (hproto : negotiate lo hi = some proto)
      (hauth : greeter.resolves io relay token = (some user, notices, relay'))
      (hstalled : io.stalled = true) : Met { relay := relay', rest, notices }
  | welcomed {token : Secret} {lo hi proto : UInt16} {user : AuthedUser} {notices : Notices}
      {relay' : Relay} (rest : Reader) (hopens : Opens io rd token lo hi)
      (hproto : negotiate lo hi = some proto)
      (hauth : greeter.resolves io relay token = (some user, notices, relay'))
      (hstalled : io.stalled = false) :
      Met { relay := relay', rest, notices, written := [greeter.welcome proto]
            task := some (greeter.controlTask user token) }

variable {io rd}

/-- A stream starts with one `Hello` at most. -/
theorem Opens.unique {token token' : Secret} {lo hi lo' hi' : UInt16} (h : Opens io rd token lo hi)
    (h' : Opens io rd token' lo' hi') : token' = token ∧ lo' = lo ∧ hi' = hi := by
  obtain ⟨-, -, v, agent, rd₁, rd₂, hpre, hframe⟩ := h
  obtain ⟨-, -, v', agent', rd₁', rd₂', hpre', hframe'⟩ := h'
  rw [hpre] at hpre'
  cases hpre'
  rw [hframe] at hframe'
  cases hframe'
  exact ⟨rfl, rfl, rfl⟩

theorem onHello_met {token : Secret} {lo hi : UInt16} {rest : Reader} (hopens : Opens io rd token lo hi) :
    greeter.Met io relay rd (greeter.onHello io relay rest token lo hi) := by
  unfold onHello
  cases hproto : negotiate lo hi with
  | none =>
    refine .refused rest _ fun token' lo' hi' hopens' => ?_
    obtain ⟨-, rfl, rfl⟩ := hopens.unique hopens'
    exact hproto
  | some proto =>
    rcases hauth : greeter.resolves io relay token with ⟨_ | user, notices, relay'⟩
    · rw [resolves] at hauth
      rw [hauth]
      exact .stranger rest _ hopens hproto hauth
    · have hauth' := hauth
      rw [resolves] at hauth'
      rw [hauth']
      dsimp only
      split
      · exact .stalled rest hopens hproto hauth ‹_›
      · exact .welcomed rest hopens hproto hauth (Bool.eq_false_iff.2 ‹_›)

variable (io rd)

theorem handshake_met : greeter.Met io relay rd (greeter.handshake io relay rd) := by
  unfold handshake
  by_cases hlate : io.preambleLate = true
  · rw [if_pos hlate]
    exact .dropped _ _ fun _ _ _ h => absurd (hlate.symm.trans h.1) (by decide)
  rw [if_neg hlate]
  rcases hpre : readPreamble rd with ⟨e | v, rd₁⟩
  · refine .dropped _ _ ?_
    rintro token lo hi ⟨-, -, v, agent, rd₁', rd₂, hpre', -⟩
    rw [hpre] at hpre'
    cases hpre'
  dsimp only
  by_cases hlate' : io.helloLate = true
  · rw [if_pos hlate']
    exact .dropped _ _ fun _ _ _ h => absurd (hlate'.symm.trans h.2.1) (by decide)
  rw [if_neg hlate']
  have hframe_of : ∀ {token lo hi}, Opens io rd token lo hi → ∃ agent rd₂,
      readFrame ControlFrame.wire rd₁ maxControlFrame = (.ok (.hello token agent lo hi), rd₂) := by
    rintro token lo hi ⟨-, -, v', agent, rd₁', rd₂, hpre', hframe⟩
    rw [hpre] at hpre'
    cases hpre'
    exact ⟨agent, rd₂, hframe⟩
  split
  · rename_i e rd₂ hframe
    refine .dropped _ _ fun token lo hi h => ?_
    obtain ⟨agent, rd₂', hframe'⟩ := hframe_of h
    rw [hframe] at hframe'
    cases hframe'
  · rename_i token agent lo hi rd₂ hframe
    exact greeter.onHello_met relay ⟨Bool.eq_false_iff.2 hlate, Bool.eq_false_iff.2 hlate', v, agent, rd₁, rd₂,
      hpre, hframe⟩
  · rename_i frame rd₂ hnot hframe
    refine .refused _ _ fun token lo hi h => ?_
    obtain ⟨agent, rd₂', hframe'⟩ := hframe_of h
    rw [hframe] at hframe'
    cases hframe'
    exact absurd rfl (hnot token agent lo hi)

/-- What a handshake does for whoever is at the other end. -/
structure HandshakeSafe (h : Handshake) : Prop where
  /-- The session is for the user the token resolves to, in the best version of both. -/
  session : ∀ task, h.task = some task → ∃ lo hi proto, Opens io rd task.token lo hi ∧
    IsGreatest (commonVersions lo hi) proto ∧ h.written = [greeter.welcome proto] ∧
    greeter.resolves io relay task.token = (some task.user, h.notices, h.relay) ∧
    task.handle = ⟨greeter.sessionId, task.user.userId⟩
  /-- Whoever can have one gets one. -/
  served : ∀ token lo hi, Opens io rd token lo hi → (commonVersions lo hi).Nonempty →
    (greeter.resolves io relay token).1.isSome → io.stalled = false → h.task.isSome
  /-- A token is looked at only after the versions agree: until then the handshake is the same whatever the
  stores hold and whatever a lookup would answer, -/
  unasked : (∀ token lo hi, Opens io rd token lo hi → commonVersions lo hi = ∅) →
    ∀ credential relay', greeter.handshake { io with credential } relay' rd = { h with relay := relay' }
  /-- and whichever token the `Hello` has. -/
  blind : ∀ token lo hi, Opens io rd token lo hi → commonVersions lo hi = ∅ →
    ∀ credential relay' rd' token', Opens io rd' token' lo hi →
      ∃ rest, greeter.handshake { io with credential } relay' rd' = { h with relay := relay', rest }
  /-- A stranger moves nothing, and no other session hears of it. -/
  stranger : (∀ token lo hi, Opens io rd token lo hi → (greeter.resolves io relay token).1 = none) →
    SameHoldings relay h.relay ∧ h.notices = []
  /-- Without a session there is one `Denied` or nothing. -/
  refusal : h.task = none → h.written = [] ∨ ∃ why : Refusal, h.written = [why.frame]

theorem deny_frames (why : Refusal) (rest : Reader) : (deny io why relay rest).task = none ∧
    (deny io why relay rest).relay = relay ∧ (deny io why relay rest).notices = [] ∧
      ((deny io why relay rest).written = [] ∨ (deny io why relay rest).written = [why.frame]) := by
  unfold deny
  cases io.denyFails with
  | none => exact ⟨rfl, rfl, rfl, .inr rfl⟩
  | some e => exact ⟨rfl, rfl, rfl, .inl rfl⟩

/-- Without a version in common the handshake looks at nothing but the stream. -/
theorem handshake_unasked (hnone : ∀ token lo hi, Opens io rd token lo hi → commonVersions lo hi = ∅)
    (credential : CredentialIo) (relay' : Relay) :
    greeter.handshake { io with credential } relay' rd =
      { greeter.handshake io relay rd with relay := relay' } := by
  have hdeny : ∀ why rest, deny { io with credential } why relay' rest =
      { deny io why relay rest with relay := relay' } := by
    intro why rest
    unfold deny
    cases io.denyFails <;> rfl
  unfold handshake
  by_cases hlate : io.preambleLate = true
  · rw [if_pos hlate, if_pos hlate]
  rw [if_neg hlate, if_neg hlate]
  rcases hpre : readPreamble rd with ⟨e | v, rd₁⟩
  · rfl
  dsimp only
  by_cases hlate' : io.helloLate = true
  · rw [if_pos hlate', if_pos hlate']
  rw [if_neg hlate', if_neg hlate']
  split
  · rfl
  · rename_i token agent lo hi rd₂ hframe
    have hopens : Opens io rd token lo hi :=
      ⟨Bool.eq_false_iff.2 hlate, Bool.eq_false_iff.2 hlate', v, agent, rd₁, rd₂, hpre, hframe⟩
    unfold onHello
    rw [negotiate_eq_none.2 (hnone token lo hi hopens)]
    exact hdeny _ _
  · exact hdeny _ _

/-- A `Hello` without a version in common. -/
theorem handshake_opens {token : Secret} {lo hi : UInt16} (hopens : Opens io rd token lo hi)
    (hnone : commonVersions lo hi = ∅) :
    ∃ rest, greeter.handshake io relay rd = deny io versionUnsupported relay rest := by
  obtain ⟨hlate, hlate', v, agent, rd₁, rd₂, hpre, hframe⟩ := hopens
  refine ⟨rd₂, ?_⟩
  unfold handshake
  rw [if_neg (by rw [hlate]; exact Bool.false_ne_true), hpre]
  dsimp only
  rw [if_neg (by rw [hlate']; exact Bool.false_ne_true), hframe]
  dsimp only [onHello]
  rw [negotiate_eq_none.2 hnone]

theorem handshake_blind {token : Secret} {lo hi : UInt16} (hopens : Opens io rd token lo hi)
    (hnone : commonVersions lo hi = ∅) (credential : CredentialIo) (relay' : Relay) {rd' : Reader}
    {token' : Secret} (hopens' : Opens io rd' token' lo hi) :
    ∃ rest, greeter.handshake { io with credential } relay' rd' =
      { greeter.handshake io relay rd with relay := relay', rest } := by
  obtain ⟨rest, hrest⟩ := greeter.handshake_opens io relay rd hopens hnone
  obtain ⟨rest', hrest'⟩ := greeter.handshake_opens { io with credential } relay' rd' hopens' hnone
  refine ⟨rest', ?_⟩
  rw [hrest, hrest']
  unfold deny
  cases io.denyFails <;> rfl

/-- **Handshake.** From any bytes, in any state of the relay: a session is given exactly to a peer whose
`Hello` names a version in common and a token that resolves, for the user it resolves to; without a version
in common nothing depends on the token; a peer whose token resolves to nobody leaves every route, every
holding and every other session as they were. -/
theorem handshake_safe : greeter.HandshakeSafe io relay rd (greeter.handshake io relay rd) := by
  have hmet := greeter.handshake_met io relay rd
  have hunasked := greeter.handshake_unasked io relay rd
  have hblind := fun token lo hi hopens hnone credential relay' rd' token' hopens' =>
    @handshake_blind greeter io relay rd token lo hi hopens hnone credential relay' rd' token' hopens'
  generalize greeter.handshake io relay rd = h at hmet hunasked hblind
  cases hmet with
  | dropped rest exit hno =>
    exact ⟨nofun, fun token lo hi hopens => absurd hopens (hno token lo hi), hunasked, hblind,
      fun _ => ⟨.refl relay, rfl⟩, fun _ => .inl rfl⟩
  | refused rest why hno =>
    obtain ⟨htask, hrelay, hnotices, hwritten⟩ := deny_frames io relay why rest
    refine ⟨fun task h => ?_, fun token lo hi hopens hcommon => ?_, hunasked, hblind, fun _ => ?_, fun _ => ?_⟩
    · rw [htask] at h
      cases h
    · exact absurd (negotiate_eq_none.1 (hno token lo hi hopens)) hcommon.ne_empty
    · rw [hrelay]
      exact ⟨.refl relay, hnotices⟩
    · exact hwritten.imp_right fun h => ⟨why, h⟩
  | @stranger token lo hi proto notices relay' rest why hopens hproto hauth =>
    obtain ⟨htask, hrelay, -, hwritten⟩ := deny_frames io relay' why rest
    have hnobody : (greeter.resolves io relay token).1 = none := by rw [hauth]
    refine ⟨fun task h => ?_, fun token' lo' hi' hopens' _ hsome => ?_, hunasked, hblind, fun _ => ?_,
      fun _ => hwritten.imp_right fun h => ⟨why, h⟩⟩
    · cases htask.symm.trans h
    · obtain ⟨rfl, -, -⟩ := hopens.unique hopens'
      rw [hnobody] at hsome
      cases hsome
    · have hunmoved := authenticateAny_unmoved hnobody
      rw [← resolves, hauth] at hunmoved
      dsimp only
      rwa [hrelay]
  | @stalled token lo hi proto user notices relay' rest hopens hproto hauth hstalled =>
    refine ⟨nofun, fun _ _ _ _ _ _ h => ?_, hunasked, hblind, fun hnobody => ?_, fun _ => .inl rfl⟩
    · rw [hstalled] at h
      cases h
    · have := hnobody token lo hi hopens
      rw [hauth] at this
      cases this
  | @welcomed token lo hi proto user notices relay' rest hopens hproto hauth hstalled =>
    refine ⟨?_, fun _ _ _ _ _ _ _ => rfl, hunasked, hblind, fun hnobody => ?_, nofun⟩
    · rintro task ⟨⟩
      exact ⟨lo, hi, proto, hopens, negotiate_eq_some.1 hproto, rfl, hauth, rfl⟩
    · have := hnobody token lo hi hopens
      rw [hauth] at this
      cases this

end Greeter

end EtherTunnel
