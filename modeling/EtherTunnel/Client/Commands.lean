import EtherTunnel.Client.EndToEnd
import EtherTunnel.Client.Plan
import EtherTunnel.Lib.Lts

/-!
# The commands

One machine with its two files and its running daemons, and the relays it can reach. A command reads the files,
may change one or both, and may talk to a relay; between commands, and while one waits, the relays do anything
else.

`etun up` loads the files once. Its daemon connects with what was loaded, and connects again with the same until
it is interrupted, whatever the files say by then.

| here | there |
| --- | --- |
| `resolveRelay` | `client/src/commands.rs:26` |
| `LoginInput.readToken`, `World.login` | `login` (`commands.rs:32`) |
| `readVerify`, `Greeter.verify` | `verify` (`client/src/login.rs:59`) from the preamble on |
| `TokenEnv.override`, `credsResolve` | `resolve` (`client/src/creds.rs:52`) |
| `World.relayCreds` | `commands.rs:113` |
| `World.fetchOwned`, `World.add` | the request of `advise_plan` (`commands.rs:151`); `add` (`commands.rs:81`) |
| `tunnelResource`, `releaseTarget` | `commands.rs:183`, and the `match` of `release` (`commands.rs:322`) |
| `listLines`, `remoteReconcile`, `World.list` | `commands.rs:193-285` |
| `World.remove`, `World.release` | `commands.rs:291`, `:319` |
| `World.up` | `up` (`commands.rs:431`) until its supervisor runs |
| `World.supervise`, `Greeter.connectOnce` | a turn of the loop of `run_supervisor` (`supervisor.rs:151`); `connect_once` (`:215`) from the preamble to its claim |

A save is `atomic_write`: it takes place or nothing does. Which of the loads and saves of a command fail is in
its `CommandIo`, and so is what the network does.
-/

namespace EtherTunnel

/-! ## Texts and tokens -/

def defaultRelay : String := "ethertunnel.com"

def resolveRelay (arg : Option String) (configured : String) : String :=
  (arg.or (if configured = "" then none else some configured)).getD defaultRelay

/-- `char::is_whitespace`. -/
def isWhiteSpace (c : Char) : Bool :=
  (9 ≤ c.toNat && c.toNat ≤ 13) || (0x2000 ≤ c.toNat && c.toNat ≤ 0x200a) ||
    c.toNat ∈ [0x20, 0x85, 0xa0, 0x1680, 0x2028, 0x2029, 0x202f, 0x205f, 0x3000]

def trim (s : String) : String :=
  String.ofList ((s.toList.dropWhile isWhiteSpace).reverse.dropWhile isWhiteSpace).reverse

def nonEmpty (s : String) : Option String := if s = "" then none else some s

structure TokenEnv where
  /-- The text of the file that a non-empty `ETUN_TOKEN_FILE` names, if it can be read. -/
  tokenFile : Option String := none
  /-- `ETUN_TOKEN`, and `ETUN_LICENSE_KEY` below. -/
  token : Option String := none
  licenseKey : Option String := none

/-- What comes before the file of credentials. -/
def TokenEnv.override (env : TokenEnv) : Option String :=
  ((env.tokenFile.bind fun text => nonEmpty (trim text)).or (env.token.bind nonEmpty)).or
    (env.licenseKey.bind nonEmpty)

inductive CommandError where
  /-- A file that cannot be read, parsed or written. -/
  | file
  | bail (text : String)
  | unreachable
  | remote (e : ControlError)

structure CommandIo where
  configLoads : Bool := true
  configSaves : Bool := true
  credsLoad : Bool := true
  credsSave : Bool := true
  /-- `trust_mode` has its certificate. -/
  trusted : Bool := true
  env : TokenEnv := {}
  /-- There is a connection to the relay. -/
  reached : Bool := true
  request : RequestIo := {}

/-- One connection of a daemon. -/
structure ConnectIo where
  reached : Bool := true
  request : RequestIo := {}
  claim : ClaimIo := {}

/-- `CredFile`: the tokens by relay. -/
abbrev CredFile := Map String String

def credsResolve (io : CommandIo) (creds : CredFile) (relay : String) : Except CommandError (Option String) :=
  match io.env.override with
  | some token => .ok (some token)
  | none => if io.credsLoad then .ok (creds.lookup relay) else .error .file

structure LoginInput where
  tokenStdin : Bool := false
  stdin : Option String := none
  terminal : Bool := false
  prompt : Option String := none

/-- Here a variable that is set is taken as it is, even if it is empty. -/
def LoginInput.readToken (input : LoginInput) (env : TokenEnv) : Except CommandError String :=
  if input.tokenStdin then input.stdin.elim (.error .file) fun text => .ok (trim text)
  else
    match env.token.or env.licenseKey with
    | some token => .ok token
    | none =>
      if input.terminal then input.prompt.elim (.error .file) fun text => .ok (trim text)
      else .error (.bail "provide the token via --token-stdin or the ETUN_TOKEN / ETUN_LICENSE_KEY env var")

/-! ## The relay's verdict on a token -/

structure VerifyOk where
  sessionId : UInt64
  proto : UInt16
deriving DecidableEq

def readVerify (late : Bool) (rd : Reader) : Except ControlError VerifyOk :=
  if late then .error .noWelcome
  else
    match (readFrame ControlFrame.wire rd maxControlFrame).1 with
    | .ok (.welcome proto _ sessionId) => .ok ⟨sessionId, proto⟩
    | .ok (.denied .authFailed _) => .error .rejected
    | .ok (.denied code message) => .error (.denied code message)
    | .ok other => .error (.unexpectedWelcome other)
    | .error e => .error (.reading e)

def Greeter.verify (greeter : Greeter) (io : RequestIo) (relay : Relay) (token : String) :
    Except ControlError VerifyOk × Relay :=
  match openBytes io.agentVersion token with
  | .error e => (.error (.writing e), relay)
  | .ok sent =>
    let h := greeter.handshake io.handshake relay ⟨sent, none⟩
    (readVerify io.welcomeLate ⟨(spawnWriter [] h.written).1, none⟩, h.relay)

/-- The daemon's connection: it sends its claim once it has read a `Welcome`. -/
def Greeter.connectOnce (greeter : Greeter) (io : RequestIo) (claim : ClaimIo) (relay : Relay)
    (client : ClientConfig) : Relay :=
  match openBytes io.agentVersion client.token with
  | .error _ => relay
  | .ok sent =>
    let h := greeter.handshake io.handshake relay ⟨sent, none⟩
    match readVerify false ⟨(spawnWriter [] h.written).1, none⟩, h.task with
    | .ok _, some task => client.claimExchange task.ctx claim (io.between h.relay) task.handle task.user
    | _, _ => h.relay

/-! ## Tunnels and what the relay calls them -/

/-- A tunnel appended, in the place of any of its name. -/
def FileConfig.put (cfg : FileConfig) (t : TunnelConfig) : FileConfig :=
  { cfg with tunnels := cfg.tunnels.filter (fun old => old.name ≠ t.name) ++ [t] }

/-- The first tunnel of this name removed. -/
def FileConfig.drop (cfg : FileConfig) (name : String) : FileConfig :=
  { cfg with tunnels := cfg.tunnels.eraseP (·.name = name) }

def tunnelResource (cfg : FileConfig) (t : TunnelConfig) : List String × List UInt16 :=
  match t.protocol with
  | .http => ([cfg.fqdn t], [])
  | .tcp => ([], t.publicPort.toList)

/-- A tunnel's name comes first; anything else is a name under the relay, never a port. -/
def releaseTarget (cfg : FileConfig) (target : String) : List String × List UInt16 :=
  match cfg.tunnels.find? (·.name = target) with
  | some t => tunnelResource cfg t
  | none => ([if '.' ∈ target.toList then target else fqdn cfg.relay target], [])

def padTo (width : Nat) (s : String) : String := s ++ String.ofList (List.replicate (width - s.length) ' ')

def listLines (cfg : FileConfig) : List String :=
  if cfg.tunnels = [] then ["no tunnels configured (use `etun add`)"]
  else cfg.tunnels.map fun t =>
    match t.protocol with
    | .http => padTo 14 t.name ++ " https://" ++ cfg.fqdn t ++ "  ->  " ++ t.localHost ++ ":" ++ toString t.port
    | .tcp => padTo 14 t.name ++ " tcp " ++ cfg.relay ++ ":" ++ toString (t.publicPort.getD 0) ++ "  ->  " ++
        t.localHost ++ ":" ++ toString t.port

def reconcileLine (known : Bool) (resource : String) : String :=
  "  " ++ resource ++ (if known then "  (in config)" else "  (orphan — not in local config)")

/-- `print_remote_reconcile`. -/
def remoteReconcile (cfg : FileConfig) (owned : OwnedSet) : List String :=
  let localHosts := cfg.httpTunnels.map cfg.fqdn
  let lines := (planLine owned).toList.map ("\n" ++ ·)
  if owned.hostnames = [] ∧ owned.tcpPorts = [] then lines ++ ["Relay owns nothing for this account."]
  else
    let orphans := owned.hostnames.any (· ∉ localHosts) || owned.tcpPorts.any (· ∉ cfg.publicPorts)
    lines ++ ["\nRelay-owned (authoritative):"] ++
      owned.hostnames.map (fun h => reconcileLine (h ∈ localHosts) h) ++
      owned.tcpPorts.map (fun p => reconcileLine (p ∈ cfg.publicPorts) ("tcp " ++ toString p)) ++
      (if orphans then ["\nOrphans still count against your plan's tunnel limit. " ++
        "Free one with `etun release <name-or-label>`."] else [])

/-! ## The machine and its relays -/

structure World where
  cfg : FileConfig
  creds : CredFile
  relays : String → Relay
  /-- The daemons that run, each with the configuration of its start. -/
  daemons : List ClientConfig := []

/-- What `etun remove` tells: the tunnel is gone from the file, and how the release went. -/
structure Removal where
  released : Except CommandError ReleasedSet

namespace World

def setRelay (W : World) (name : String) (relay : Relay) : World :=
  { W with relays := Function.update W.relays name relay }

variable (greeters : String → Greeter) (W : World) (io : CommandIo)

def login (arg : Option String) (input : LoginInput) : Except CommandError VerifyOk × World :=
  if !io.configLoads then (.error .file, W)
  else
    let relay := resolveRelay arg W.cfg.relay
    match input.readToken io.env with
    | .error e => (.error e, W)
    | .ok token =>
      if token = "" then (.error (.bail "empty token"), W)
      else if !io.trusted then (.error .file, W)
      else if !io.reached then (.error .unreachable, W)
      else
        match (greeters relay).verify io.request (W.relays relay) token with
        | (.error e, R) => (.error (.remote e), W.setRelay relay R)
        | (.ok ok, R) =>
          let W := W.setRelay relay R
          if !(io.credsLoad && io.credsSave) then (.error .file, W)
          else
            let W := { W with creds := W.creds.insert relay token }
            if W.cfg.relay ≠ "" then (.ok ok, W)
            else if !io.configSaves then (.error .file, W)
            else (.ok ok, { W with cfg := { W.cfg with relay := relay } })

def relayCreds : Except CommandError String :=
  if W.cfg.relay = "" then .error (.bail "no relay configured; run `etun login` first")
  else
    match credsResolve io W.creds W.cfg.relay with
    | .error e => .error e
    | .ok none => .error (.bail ("not logged in to " ++ W.cfg.relay ++ "; run `etun login`"))
    | .ok (some token) => if io.trusted then .ok token else .error .file

def fetchOwned : Except CommandError OwnedSet × World :=
  match W.relayCreds io with
  | .error e => (.error e, W)
  | .ok token =>
    if !io.reached then (.error .unreachable, W)
    else
      let r := (greeters W.cfg.relay).listOwned io.request (W.relays W.cfg.relay) token
      (r.1.mapError .remote, W.setRelay W.cfg.relay r.2)

/-- The line about the plan, if there is one to show. -/
def add (name : String) (port : UInt16) (hostname : Option String) (tcpPublicPort : Option UInt16)
    (localHost : Option String) : Except CommandError (Option String) × World :=
  if !io.configLoads then (.error .file, W)
  else
    let t : TunnelConfig :=
      { name, port, localHost := localHost.getD "127.0.0.1"
        protocol := if tcpPublicPort.isSome then .tcp else .http, hostname, publicPort := tcpPublicPort }
    if !io.configSaves then (.error .file, W)
    else
      let r := { W with cfg := W.cfg.put t }.fetchOwned greeters io
      (.ok (r.1.toOption.bind planLine), r.2)

def list (json : Bool) : Except CommandError (List String) × World :=
  if !io.configLoads then (.error .file, W)
  else if json then (.ok [], W)
  else
    let r := W.fetchOwned greeters io
    (.ok (listLines W.cfg ++ r.1.toOption.elim [] (remoteReconcile W.cfg)), r.2)

def requestRelease (resource : List String × List UInt16) : Except CommandError ReleasedSet × World :=
  match W.relayCreds io with
  | .error e => (.error e, W)
  | .ok token =>
    if !io.reached then (.error .unreachable, W)
    else
      let r := (greeters W.cfg.relay).release io.request (W.relays W.cfg.relay) token resource.1 resource.2
      (r.1.mapError .remote, W.setRelay W.cfg.relay r.2)

def remove (name : String) : Except CommandError Removal × World :=
  if !io.configLoads then (.error .file, W)
  else
    match W.cfg.tunnels.find? (·.name = name) with
    | none => (.error (.bail ("no such tunnel: " ++ name)), W)
    | some t =>
      if !io.configSaves then (.error .file, W)
      else
        let r := { W with cfg := W.cfg.drop name }.requestRelease greeters io (tunnelResource W.cfg t)
        (.ok ⟨r.1⟩, r.2)

def release (target : String) : Except CommandError ReleasedSet × World :=
  if !io.configLoads then (.error .file, W)
  else W.requestRelease greeters io (releaseTarget W.cfg target)

/-- It returns when it is interrupted; from here on its daemon runs. -/
def up : Except CommandError Unit × World :=
  if !io.configLoads then (.error .file, W)
  else
    match credsResolve io W.creds W.cfg.relay with
    | .error e => (.error e, W)
    | .ok none => (.error (.bail "no token for this relay; run `etun login` first"), W)
    | .ok (some token) =>
      if !io.trusted then (.error .file, W)
      else
        match W.cfg.toClientConfig token with
        | .error e => (.error (.bail e), W)
        | .ok client => (.ok (), { W with daemons := W.daemons ++ [client] })

/-- A daemon connects, for the first time or again. The files are not read. -/
def supervise (io : ConnectIo) (client : ClientConfig) : World :=
  if !io.reached then W
  else
    W.setRelay client.relayHost
      ((greeters client.relayHost).connectOnce io.request io.claim (W.relays client.relayHost) client)

end World

inductive Command where
  | login (arg : Option String) (input : LoginInput)
  | add (name : String) (port : UInt16) (hostname : Option String) (tcpPublicPort : Option UInt16)
      (localHost : Option String)
  | list (json : Bool)
  | remove (name : String)
  | release (target : String)
  | up

inductive CliAct where
  | command (io : CommandIo) (cmd : Command)
  /-- The `i`-th daemon connects. -/
  | connect (i : Nat) (io : ConnectIo)
  /-- Ctrl-C ends the `i`-th daemon. -/
  | interrupt (i : Nat)
  /-- Whatever else happens at a relay. -/
  | others (relay : String) (f : Relay → Relay)

namespace World

variable (greeters : String → Greeter) (W : World)

def exec (io : CommandIo) : Command → World
  | .login arg input => (W.login greeters io arg input).2
  | .add name port hostname tcpPublicPort localHost =>
    (W.add greeters io name port hostname tcpPublicPort localHost).2
  | .list json => (W.list greeters io json).2
  | .remove name => (W.remove greeters io name).2
  | .release target => (W.release greeters io target).2
  | .up => (W.up io).2

def step : CliAct → Option World
  | .command io cmd => some (W.exec greeters io cmd)
  | .connect i io => W.daemons[i]?.map (W.supervise greeters io)
  | .interrupt i => W.daemons[i]?.map fun _ => { W with daemons := W.daemons.eraseIdx i }
  | .others relay f => some (W.setRelay relay (f (W.relays relay)))

end World

/-! ## A token that the relay has welcomed -/

theorem readVerify_ok {late : Bool} {rd : Reader} {ok : VerifyOk} (h : readVerify late rd = .ok ok) :
    ∃ rd', readWelcome late rd = (.ok ok.proto, rd') := by
  unfold readVerify at h
  unfold readWelcome
  cases late with
  | true => cases h
  | false =>
    rw [if_neg Bool.false_ne_true] at h ⊢
    generalize readFrame ControlFrame.wire rd maxControlFrame = r at h ⊢
    obtain ⟨e | frame, rd'⟩ := r
    · cases h
    · cases frame with
      | welcome proto version id =>
        cases h
        exact ⟨rd', rfl⟩
      | denied code message => cases code <;> cases h
      | _ => cases h

namespace Greeter

variable {greeter : Greeter} {io : RequestIo} {relay : Relay} {token : String}

/-- A token that passes is a user's. -/
theorem verify_ok {ok : VerifyOk} (h : (greeter.verify io relay token).1 = .ok ok) :
    (greeter.resolves io.handshake relay ⟨token⟩).1.isSome := by
  unfold verify at h
  cases hopen : openBytes io.agentVersion token with
  | error e =>
    rw [hopen] at h
    cases h
  | ok sent =>
    rw [hopen] at h
    obtain ⟨hello, rfl⟩ := writeFrame_ok hopen
    obtain ⟨rd, hread⟩ := readVerify_ok h
    have hmet := greeter.handshake_met io.handshake relay
      ⟨writePreamble [] ++ frameBytes ControlFrame.wire (helloFrame io.agentVersion token), none⟩
    obtain ⟨-, -, version, id, hwritten, -⟩ := readWelcome_ok hmet.one hread
    obtain ⟨-, -, secret, lo, hi, user, notices, mid, hopens, -, hauth, -⟩ := hmet.user hwritten
    obtain ⟨-, -, rfl, -, -⟩ := opens_hello hello hopens
    rw [hauth]
    rfl

end Greeter

/-! ## What a command does to the files -/

section files

variable {greeters : String → Greeter} {W W' : World} {io : CommandIo}

/-- The files after a command, by what it may have changed. -/
inductive Filed (greeters : String → Greeter) (W : World) (io : CommandIo) : Command → World → Prop where
  | kept {cmd : Command} {W' : World} (hcfg : W'.cfg = W.cfg) (hcreds : W'.creds = W.creds) :
      Filed greeters W io cmd W'
  | edited {cmd : Command} {W' : World} (tunnels : List TunnelConfig) (hcfg : W'.cfg = { W.cfg with tunnels })
      (hnames : (W.cfg.tunnels.map (·.name)).Nodup → (tunnels.map (·.name)).Nodup)
      (hcreds : W'.creds = W.creds) : Filed greeters W io cmd W'
  | loggedIn {arg : Option String} {input : LoginInput} {W' : World} (token : String)
      (hread : input.readToken io.env = .ok token)
      (hwelcome : ((greeters (resolveRelay arg W.cfg.relay)).resolves io.request.handshake
        (W.relays (resolveRelay arg W.cfg.relay)) ⟨token⟩).1.isSome)
      (hcfg : W'.cfg = W.cfg ∨ W.cfg.relay = "" ∧
        W'.cfg = { W.cfg with relay := resolveRelay arg W.cfg.relay })
      (hcreds : W'.creds = W.creds.insert (resolveRelay arg W.cfg.relay) token) :
      Filed greeters W io (.login arg input) W'

theorem filed_login (arg : Option String) (input : LoginInput) :
    Filed greeters W io (.login arg input) (W.login greeters io arg input).2 := by
  unfold World.login
  split
  · exact .kept rfl rfl
  · dsimp only
    split
    · exact .kept rfl rfl
    · rename_i token hread
      split
      · exact .kept rfl rfl
      split
      · exact .kept rfl rfl
      split
      · exact .kept rfl rfl
      split
      · exact .kept rfl rfl
      · rename_i ok R hverify
        have hwelcome := Greeter.verify_ok (congrArg Prod.fst hverify)
        split
        · exact .kept rfl rfl
        split
        · exact .loggedIn token hread hwelcome (.inl rfl) rfl
        · rename_i hunset
          split
          · exact .loggedIn token hread hwelcome (.inl rfl) rfl
          · exact .loggedIn token hread hwelcome (.inr ⟨not_not.1 hunset, rfl⟩) rfl

theorem fetchOwned_files (W : World) (io : CommandIo) :
    (W.fetchOwned greeters io).2.cfg = W.cfg ∧ (W.fetchOwned greeters io).2.creds = W.creds := by
  unfold World.fetchOwned
  split
  · exact ⟨rfl, rfl⟩
  · split <;> exact ⟨rfl, rfl⟩

theorem requestRelease_files (W : World) (io : CommandIo) (resource : List String × List UInt16) :
    (W.requestRelease greeters io resource).2.cfg = W.cfg ∧
      (W.requestRelease greeters io resource).2.creds = W.creds := by
  unfold World.requestRelease
  split
  · exact ⟨rfl, rfl⟩
  · split <;> exact ⟨rfl, rfl⟩

theorem nodup_names_add {tunnels : List TunnelConfig} (t : TunnelConfig) (h : (tunnels.map (·.name)).Nodup) :
    ((tunnels.filter (fun old => old.name ≠ t.name) ++ [t]).map (·.name)).Nodup := by
  rw [List.map_append, List.nodup_append]
  refine ⟨h.sublist (List.filter_sublist.map _), by simp, ?_⟩
  rintro name hname name' hname' rfl
  obtain ⟨old, hold, rfl⟩ := List.mem_map.1 hname
  obtain ⟨t', ht', hsame⟩ := List.mem_map.1 hname'
  obtain rfl := List.mem_singleton.1 ht'
  exact of_decide_eq_true (List.mem_filter.1 hold).2 hsame.symm

theorem filed_add (name : String) (port : UInt16) (hostname : Option String) (tcpPublicPort : Option UInt16)
    (localHost : Option String) : Filed greeters W io (.add name port hostname tcpPublicPort localHost)
      (W.add greeters io name port hostname tcpPublicPort localHost).2 := by
  unfold World.add
  split
  · exact .kept rfl rfl
  · dsimp only
    split
    · exact .kept rfl rfl
    · exact .edited _ (fetchOwned_files _ io).1 (fun h => nodup_names_add _ h) (fetchOwned_files _ io).2

theorem filed_remove (name : String) :
    Filed greeters W io (.remove name) (W.remove greeters io name).2 := by
  unfold World.remove
  split
  · exact .kept rfl rfl
  · split
    · exact .kept rfl rfl
    · split
      · exact .kept rfl rfl
      · exact .edited _ (requestRelease_files _ io _).1
          (fun h => h.sublist ((List.eraseP_sublist).map _)) (requestRelease_files _ io _).2

theorem up_files (W : World) (io : CommandIo) :
    (W.up io).2.cfg = W.cfg ∧ (W.up io).2.creds = W.creds ∧ (W.up io).2.relays = W.relays := by
  unfold World.up
  repeat' split
  all_goals exact ⟨rfl, rfl, rfl⟩

theorem supervise_files (W : World) (io : ConnectIo) (client : ClientConfig) :
    (W.supervise greeters io client).cfg = W.cfg ∧ (W.supervise greeters io client).creds = W.creds := by
  unfold World.supervise
  split <;> exact ⟨rfl, rfl⟩

theorem filed_exec (cmd : Command) : Filed greeters W io cmd (W.exec greeters io cmd) := by
  cases cmd with
  | login arg input => exact filed_login arg input
  | add name port hostname tcpPublicPort localHost => exact filed_add name port hostname tcpPublicPort localHost
  | remove name => exact filed_remove name
  | list json =>
    change Filed greeters W io (.list json) (W.list greeters io json).2
    unfold World.list
    split
    · exact .kept rfl rfl
    · split
      · exact .kept rfl rfl
      · exact .kept (fetchOwned_files W io).1 (fetchOwned_files W io).2
  | release target =>
    change Filed greeters W io (.release target) (W.release greeters io target).2
    unfold World.release
    split
    · exact .kept rfl rfl
    · exact .kept (requestRelease_files W io _).1 (requestRelease_files W io _).2
  | up => exact .kept (up_files W io).1 (up_files W io).2.1

theorem fetchOwned_daemons (W : World) (io : CommandIo) :
    (W.fetchOwned greeters io).2.daemons = W.daemons := by
  unfold World.fetchOwned
  split
  · rfl
  · split <;> rfl

theorem requestRelease_daemons (W : World) (io : CommandIo) (resource : List String × List UInt16) :
    (W.requestRelease greeters io resource).2.daemons = W.daemons := by
  unfold World.requestRelease
  split
  · rfl
  · split <;> rfl

theorem supervise_daemons (W : World) (io : ConnectIo) (client : ClientConfig) :
    (W.supervise greeters io client).daemons = W.daemons := by
  unfold World.supervise
  split <;> rfl

/-- Only `up` starts a daemon, with the file as it is. -/
theorem exec_daemons (cmd : Command) : (W.exec greeters io cmd).daemons = W.daemons ∨
    cmd = .up ∧ ∃ client, (∃ token, credsResolve io W.creds W.cfg.relay = .ok (some token) ∧
      W.cfg.toClientConfig token = .ok client) ∧ (W.exec greeters io cmd).daemons = W.daemons ++ [client] := by
  cases cmd with
  | login arg input =>
    left
    dsimp only [World.exec]
    unfold World.login
    split
    · rfl
    · dsimp only
      repeat' split
      all_goals rfl
  | add name port hostname tcpPublicPort localHost =>
    left
    dsimp only [World.exec]
    unfold World.add
    split
    · rfl
    · dsimp only
      split
      · rfl
      · exact fetchOwned_daemons _ io
  | list json =>
    left
    dsimp only [World.exec]
    unfold World.list
    split
    · rfl
    · split
      · rfl
      · exact fetchOwned_daemons W io
  | remove name =>
    left
    dsimp only [World.exec]
    unfold World.remove
    split
    · rfl
    · split
      · rfl
      · split
        · rfl
        · exact requestRelease_daemons _ io _
  | release target =>
    left
    dsimp only [World.exec]
    unfold World.release
    split
    · rfl
    · exact requestRelease_daemons W io _
  | up =>
    dsimp only [World.exec]
    unfold World.up
    split
    · exact .inl rfl
    · split
      · exact .inl rfl
      · exact .inl rfl
      · rename_i token htoken
        split
        · exact .inl rfl
        · split
          · exact .inl rfl
          · rename_i client hclient
            exact .inr ⟨rfl, client, ⟨token, htoken, hclient⟩, rfl⟩

/-- Only a command changes a file. -/
theorem step_filed {act : CliAct} (hs : W.step greeters act = some W') :
    (W'.cfg = W.cfg ∧ W'.creds = W.creds) ∨ ∃ io cmd, act = .command io cmd ∧ Filed greeters W io cmd W' := by
  cases act with
  | command io cmd =>
    cases hs
    exact .inr ⟨io, cmd, rfl, filed_exec cmd⟩
  | connect i io =>
    obtain ⟨client, -, rfl⟩ := Option.map_eq_some_iff.1 hs
    exact .inl (supervise_files W io client)
  | interrupt i =>
    obtain ⟨client, -, rfl⟩ := Option.map_eq_some_iff.1 hs
    exact .inl ⟨rfl, rfl⟩
  | others name f =>
    cases hs
    exact .inl ⟨rfl, rfl⟩

end files

/-! ## Logged in -/

/-- The configured relay has a token, and no two tunnels share a name. -/
structure WellFiled (W : World) : Prop where
  loggedIn : W.cfg.relay ≠ "" → (W.creds.lookup W.cfg.relay).isSome
  names : (W.cfg.tunnels.map (·.name)).Nodup

theorem Filed.wellFiled {greeters : String → Greeter} {W W' : World} {io : CommandIo} {cmd : Command}
    (h : Filed greeters W io cmd W') (hW : WellFiled W) : WellFiled W' := by
  cases h with
  | kept hcfg hcreds => exact ⟨by rw [hcfg, hcreds]; exact hW.loggedIn, by rw [hcfg]; exact hW.names⟩
  | edited tunnels hcfg hnames hcreds =>
    exact ⟨by rw [hcfg, hcreds]; exact hW.loggedIn, by rw [hcfg]; exact hnames hW.names⟩
  | loggedIn token hread hwelcome hcfg hcreds =>
    rcases hcfg with hcfg | ⟨-, hcfg⟩
    · refine ⟨fun hset => ?_, by rw [hcfg]; exact hW.names⟩
      rw [hcfg] at hset ⊢
      rw [hcreds, Map.lookup_insert_ite]
      split
      · rfl
      · exact hW.loggedIn hset
    · refine ⟨fun _ => ?_, by rw [hcfg]; exact hW.names⟩
      rw [hcfg, hcreds, Map.lookup_insert_ite, if_pos rfl]
      rfl

theorem Filed.relay {greeters : String → Greeter} {W W' : World} {io : CommandIo} {cmd : Command}
    (h : Filed greeters W io cmd W') (hset : W.cfg.relay ≠ "") : W'.cfg.relay = W.cfg.relay := by
  cases h with
  | kept hcfg => rw [hcfg]
  | edited tunnels hcfg => rw [hcfg]
  | loggedIn token hread hwelcome hcfg =>
    rcases hcfg with hcfg | ⟨hunset, -⟩
    · rw [hcfg]
    · exact absurd hunset hset

/-- The login that a stored token comes from: it read this token, and the relay knew whose it is. -/
def LoginOf (greeters : String → Greeter) (relay token : String) (V : World) : CliAct → Prop
  | .command io (.login arg input) => input.readToken io.env = .ok token ∧
      relay = resolveRelay arg V.cfg.relay ∧
      ((greeters relay).resolves io.request.handshake (V.relays relay) ⟨token⟩).1.isSome
  | _ => False

theorem loginOf_step {greeters : String → Greeter} {W W' : World} {act : CliAct} {relay token : String}
    (hs : W.step greeters act = some W') (h : W'.creds.lookup relay = some token) :
    W.creds.lookup relay = some token ∨ LoginOf greeters relay token W act := by
  rcases step_filed hs with ⟨-, hcreds⟩ | ⟨io, cmd, rfl, hfiled⟩
  · exact .inl (hcreds ▸ h)
  · cases hfiled with
    | kept hcfg hcreds => exact .inl (hcreds ▸ h)
    | edited tunnels hcfg hnames hcreds => exact .inl (hcreds ▸ h)
    | loggedIn token' hread hwelcome hcfg hcreds =>
      rw [hcreds, Map.lookup_insert_ite] at h
      split at h
      · rename_i hrelay
        cases h
        subst hrelay
        exact .inr ⟨hread, rfl, hwelcome⟩
      · exact .inl h

theorem step_wellFiled {greeters : String → Greeter} {W W' : World} {act : CliAct}
    (hs : W.step greeters act = some W') (hW : WellFiled W) : WellFiled W' := by
  rcases step_filed hs with ⟨hcfg, hcreds⟩ | ⟨io, cmd, -, hfiled⟩
  · exact ⟨by rw [hcfg, hcreds]; exact hW.loggedIn, by rw [hcfg]; exact hW.names⟩
  · exact hfiled.wellFiled hW

theorem step_relay {greeters : String → Greeter} {W W' : World} {act : CliAct}
    (hs : W.step greeters act = some W') (hset : W.cfg.relay ≠ "") : W'.cfg.relay = W.cfg.relay := by
  rcases step_filed hs with ⟨hcfg, -⟩ | ⟨io, cmd, -, hfiled⟩
  · rw [hcfg]
  · exact hfiled.relay hset

theorem relayCreds_of_wellFiled {W : World} {io : CommandIo} (hW : WellFiled W) (hset : W.cfg.relay ≠ "")
    (hio : io.credsLoad = true ∧ io.trusted = true) :
    ∃ token, W.relayCreds io = .ok token ∧
      (io.env.override = some token ∨ W.creds.lookup W.cfg.relay = some token) := by
  obtain ⟨stored, hstored⟩ := Option.isSome_iff_exists.1 (hW.loggedIn hset)
  unfold World.relayCreds credsResolve
  rw [if_neg hset, hio.1, hio.2, hstored]
  cases io.env.override with
  | some token => exact ⟨token, rfl, .inl rfl⟩
  | none => exact ⟨stored, rfl, .inr rfl⟩

/-- **Credentials.** On a machine that started without a relay and without credentials, after any commands and
whatever failed or happened at the relays: every stored token was read by some login to the relay it is stored
for, and was a user's there. A configured relay has such a token, so a command whose files can be read
finds its credentials; and once a relay is configured, no command changes it. -/
theorem stored_tokens_welcomed (greeters : String → Greeter) (W W' : World) (acts : List CliAct)
    (hfresh : W.cfg.relay = "" ∧ W.creds = ∅ ∧ (W.cfg.tunnels.map (·.name)).Nodup)
    (hrun : Lts.run (World.step greeters) W acts = some W') :
    (∀ relay token, W'.creds.lookup relay = some token →
      ∃ p ∈ Lts.trace (World.step greeters) W acts, LoginOf greeters relay token p.1 p.2) ∧
    (W'.cfg.relay ≠ "" → ∀ io : CommandIo, io.credsLoad = true ∧ io.trusted = true →
      ∃ token, W'.relayCreds io = .ok token ∧
        (io.env.override = some token ∨ W'.creds.lookup W'.cfg.relay = some token)) ∧
    (W'.cfg.tunnels.map (·.name)).Nodup ∧
    (W'.cfg.relay ≠ "" → ∀ more W'', Lts.run (World.step greeters) W' more = some W'' →
      W''.cfg.relay = W'.cfg.relay) := by
  obtain ⟨hunset, hnone, hnames⟩ := hfresh
  have hany : ∀ {V : World} {more : List CliAct},
      Lts.Steps (World.step greeters) (fun _ _ => True) V more := fun {_ _} =>
    Lts.steps_of_forall fun _ _ => trivial
  have hfiled : WellFiled W' := Lts.run_inv (G := fun _ _ => True) (fun _ _ _ h _ hs => step_wellFiled hs h)
    ⟨fun h => absurd hunset h, hnames⟩ hany hrun
  refine ⟨fun relay token h => ?_, fun hset io => relayCreds_of_wellFiled hfiled hset, hfiled.names,
    fun hset more W'' hmore => ?_⟩
  · rcases Lts.cause_of_run (P := fun V => V.creds.lookup relay = some token) (G := fun _ _ => True)
      (C := LoginOf greeters relay token) (fun _ _ _ _ hs => loginOf_step hs) hany hrun h with h | h
    · rw [hnone] at h
      cases h
    · exact h
  · refine Lts.run_inv (I := fun V => V.cfg.relay = W'.cfg.relay) (G := fun _ _ => True)
      (fun V act V' h _ hs => ?_) rfl hany hmore
    exact (step_relay hs (h ▸ hset)).trans h

def newMachine : World := { cfg := ⟨"", []⟩, creds := ∅, relays := hostedRelay }

/-- `etun login --relay d.io --token-stdin`: one that the relay refuses, and one that it welcomes. -/
def firstLogins : List CliAct :=
  [.command {} (.login (some "d.io") { tokenStdin := true, stdin := some "t2\n" }),
    .command {} (.login (some "d.io") { tokenStdin := true, stdin := some "t1\n" })]

theorem stored_tokens_welcomed_first :
    ∃ W', Lts.run (World.step Greeter.plainGreeter) newMachine firstLogins = some W' ∧
    W'.cfg.relay = "d.io" ∧ W'.creds.lookup "d.io" = some "t1" ∧
    (∃ p ∈ Lts.trace (World.step Greeter.plainGreeter) newMachine firstLogins,
      LoginOf Greeter.plainGreeter "d.io" "t1" p.1 p.2) ∧
    ∃ token, W'.relayCreds {} = .ok token := by
  have hend : (Lts.run (World.step Greeter.plainGreeter) newMachine firstLogins).map
      (fun W => (W.cfg.relay, W.creds.lookup "d.io")) = some ("d.io", some "t1") := by decide +kernel
  obtain ⟨W', hrun, hfiles⟩ := Option.map_eq_some_iff.1 hend
  rw [Prod.mk.injEq] at hfiles
  obtain ⟨hwelcome, hcreds, -⟩ :=
    stored_tokens_welcomed Greeter.plainGreeter newMachine W' firstLogins ⟨rfl, rfl, by decide⟩ hrun
  obtain ⟨token, htoken, -⟩ := hcreds (by rw [hfiles.1]; decide) {} ⟨rfl, rfl⟩
  exact ⟨W', hrun, hfiles.1, hfiles.2, hwelcome "d.io" "t1" hfiles.2, token, htoken⟩

end EtherTunnel
