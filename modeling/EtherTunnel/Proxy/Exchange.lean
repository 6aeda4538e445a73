import EtherTunnel.Proxy.Route

/-!
# One request and its answer

| here | there |
| --- | --- |
| `page`, `switchingProtocols` | `proxy.rs:61-78` |
| `relay404`, `relay502`, `relay504` | `proxy.rs:84-114` |
| `isUpgrade` | `proxy.rs:479-486` |
| `scrubResponse` | `proxy.rs:517-527` |
| `Upstream`, `sentRequest`, `proxyRequest` | `proxy.rs:386-476`, from the lookup of the host on |
| `isWebsocketUpgrade`, `handleControlUpgrade` | `listener.rs:459-472`, `:374-446` |
| `answer` | `route` (`listener.rs:325-370`) with the answer of each branch |

A connection serves one request after the other until a `101`; then its socket belongs to the task that
the branch spawned. `Handoff` is which task that is. The two must agree: a `101` without a task leaves a
visitor who speaks another protocol to nobody, and a task without a `101` waits for a socket that still
reads requests. `exchange_safe` says that they agree, and what of the daemon's answer reaches the visitor.

The library's part is outside: the framing of bodies, and the `Date` and length lines of a response.
`deriveAcceptKey` is the handshake digest of the WebSocket library.
-/

namespace EtherTunnel

/-! ## Requests and responses -/

inductive Method where
  | get
  | other (name : String)
deriving DecidableEq

structure HttpRequest where
  method : Method
  headers : HeaderMap

structure Resp where
  status : UInt16
  headers : HeaderMap
  body : List UInt8

namespace HeaderName

def contentType : HeaderName := ⟨"content-type", by decide⟩
def cacheControl : HeaderName := ⟨"cache-control", by decide⟩
def secWebsocketKey : HeaderName := ⟨"sec-websocket-key", by decide⟩
def secWebsocketAccept : HeaderName := ⟨"sec-websocket-accept", by decide⟩
def server : HeaderName := ⟨"server", by decide⟩

end HeaderName

def textPlain : HeaderValue := ⟨bytes "text/plain; charset=utf-8", by decide⟩
def textHtml : HeaderValue := ⟨bytes "text/html; charset=utf-8", by decide⟩
def noStore : HeaderValue := ⟨bytes "no-store", by decide⟩
def upgradeValue : HeaderValue := ⟨bytes "upgrade", by decide⟩

theorem websocket_valid : (bytes "websocket").all valueByte = true := by decide

def websocketValue : HeaderValue := ⟨bytes "websocket", websocket_valid⟩

def page (status : UInt16) (contentType : HeaderValue) (body : String) : Resp :=
  ⟨status, ⟨[(.contentType, contentType), (.cacheControl, noStore)]⟩, bytes body⟩

def switchingProtocols (headers : List (HeaderName × HeaderValue)) : Resp := ⟨101, ⟨headers⟩, []⟩

def relay404 : Resp :=
  page 404 textHtml ("<!doctype html><meta charset=utf-8><title>404</title>" ++
    "<h1>404 - no such tunnel</h1><p>No tunnel is registered for this hostname.</p>")

def relay502 : Resp :=
  page 502 textHtml ("<!doctype html><meta charset=utf-8><title>502</title>" ++
    "<h1>502 - tunnel unavailable</h1>" ++
    "<p>The tunnel is registered but its daemon is not reachable.</p>")

def relay504 : Resp :=
  page 504 textHtml ("<!doctype html><meta charset=utf-8><title>504</title>" ++
    "<h1>504 - upstream timeout</h1><p>The tunnel's local service did not respond in time.</p>")

/-! ## The two upgrades -/

/-- The first line of the name is text and contains the needle, whatever its case. -/
def headerContains (headers : HeaderMap) (name : HeaderName) (needle : String) : Bool :=
  ((headers.get name).bind HeaderValue.toStr).any fun v =>
    decide (needle.toList <:+: (toAsciiLowercase v).toList)

/-- Any `Upgrade` line will do, text or not. -/
def isUpgrade (req : HttpRequest) : Bool :=
  headerContains req.headers .connection "upgrade" && req.headers.contains .upgrade

def isWebsocketUpgrade (req : HttpRequest) : Bool :=
  headerContains req.headers .upgrade "websocket" && headerContains req.headers .connection "upgrade"

def scrubResponse (resp : Resp) : Resp :=
  { resp with headers := (stripHopByHop resp.headers (resp.status = 101)).remove .server }

/-- The task that has the socket after the answer. -/
inductive Handoff where
  /-- The connection itself: it reads the next request. -/
  | stays
  /-- The splice that `proxy_http` spawned. -/
  | splice
  /-- The session that `handle_control_upgrade` spawned. -/
  | session
deriving DecidableEq

/-- How a request went on the daemon's side. -/
inductive Upstream where
  /-- `open_stream`, the handshake on the stream or `send_request` failed. -/
  | failed
  /-- No response head in 30 seconds. -/
  | late
  | answered (resp : Resp)

/-- The request as the daemon's side is sent it. -/
def sentRequest (req : HttpRequest) (peerIp hostname : String) : HttpRequest :=
  { req with headers := scrubRequest req.headers peerIp hostname (isUpgrade req) }

def proxyRequest (router : Router) (hostname : String) (req : HttpRequest) (upstream : Upstream) :
    Resp × Handoff :=
  match router.get (.host hostname) with
  | none => (relay404, .stays)
  | some _ =>
    match upstream with
    | .failed => (relay502, .stays)
    | .late => (relay504, .stays)
    | .answered resp =>
      if resp.status = 101 then
        -- the visitor never asked: a bare 101 would leave it out of step
        if isUpgrade req then (scrubResponse resp, .splice) else (relay502, .stays)
      else (scrubResponse resp, .stays)

section answers

variable (deriveAcceptKey : List UInt8 → HeaderValue)

/-- `admitted` is what the session limiter says; it is asked last. -/
def handleControlUpgrade (req : HttpRequest) (admitted : Bool) : Resp × Handoff :=
  if req.method ≠ .get ∨ isWebsocketUpgrade req = false then
    (page 400 textPlain "expected websocket upgrade", .stays)
  else
    match req.headers.get .secWebsocketKey with
    | none => (page 400 textPlain "missing Sec-WebSocket-Key", .stays)
    | some key =>
      if admitted then
        (switchingProtocols [(.connection, upgradeValue), (.upgrade, websocketValue),
          (.secWebsocketAccept, deriveAcceptKey key.bytes)], .session)
      else (page 503 textPlain "relay at capacity", .stays)

def answer (domain apexResponse : String) (router : Router) (req : HttpRequest) (admitted : Bool)
    (upstream : Upstream) : Resp × Handoff :=
  match route domain req.headers with
  | .control => handleControlUpgrade deriveAcceptKey req admitted
  | .apex => (page 200 textPlain apexResponse, .stays)
  | .proxy hostname => proxyRequest router hostname req upstream
  | .notFound => (page 404 textPlain "not found", .stays)

end answers

/-! ## What each branch answers -/

/-- The control upgrade reaches the session limiter. -/
def AsksForSession (req : HttpRequest) : Prop :=
  req.method = .get ∧ isWebsocketUpgrade req = true ∧ req.headers.contains .secWebsocketKey = true

instance (req : HttpRequest) : Decidable (AsksForSession req) := inferInstanceAs (Decidable (_ ∧ _ ∧ _))

/-- A request that goes to a daemon which switches protocols as the visitor asked. -/
def Switches (router : Router) (hostname : String) (req : HttpRequest) (upstream : Upstream) : Prop :=
  (router.get (.host hostname)).isSome ∧ isUpgrade req = true ∧
    ∃ resp, upstream = .answered resp ∧ resp.status = 101

/-- A header line that is only for the hop it was sent on. -/
def ForThisHop (name : HeaderName) : Prop := name ∈ hopByHop ∨ name = .connection ∨ name = .upgrade

/-- An answer that leaves the connection as it is says nothing about the connection. -/
def Plain (resp : Resp) : Prop :=
  resp.status ≠ 101 ∧ ¬ resp.headers.contains .server = true ∧
    ∀ name, ForThisHop name → ¬ resp.headers.contains name = true

theorem contains_page {status : UInt16} {contentType : HeaderValue} {body : String} {name : HeaderName}
    (h : (page status contentType body).headers.contains name = true) :
    name = .contentType ∨ name = .cacheControl := by
  obtain ⟨l, hl, rfl⟩ := Multimap.contains_iff_mem.1 h
  have : l = (.contentType, contentType) ∨ l = (.cacheControl, noStore) := by simpa [page] using hl
  rcases this with rfl | rfl
  · exact .inl rfl
  · exact .inr rfl

theorem page_plain {status : UInt16} {contentType : HeaderValue} {body : String} (h : status ≠ 101) :
    Plain (page status contentType body) := by
  refine ⟨h, fun hs => ?_, fun name hop hn => ?_⟩
  · exact absurd (contains_page hs) (by decide)
  · rcases contains_page hn with rfl | rfl
    · exact absurd hop (by unfold ForThisHop; decide)
    · exact absurd hop (by unfold ForThisHop; decide)

open Classical in
theorem getAll_scrubResponse {resp : Resp} {name : HeaderName} :
    (scrubResponse resp).headers.getAll name =
      if name = .server ∨ Stripped resp.headers (resp.status = 101) name then []
      else resp.headers.getAll name := by
  unfold scrubResponse
  rw [Multimap.getAll_remove, getAll_stripHopByHop]
  by_cases hserver : name = .server
  · rw [if_pos hserver, if_pos (.inl hserver)]
  · rw [if_neg hserver]
    refine if_congr ⟨.inr, fun h => h.resolve_left hserver⟩ rfl rfl

theorem not_contains_scrubResponse {resp : Resp} {name : HeaderName}
    (h : name = .server ∨ Stripped resp.headers (resp.status = 101) name) :
    ¬ (scrubResponse resp).headers.contains name = true := by
  rw [Multimap.contains_iff_getAll, getAll_scrubResponse, if_pos h]
  exact fun hne => hne rfl

theorem scrubResponse_plain {resp : Resp} (h : resp.status ≠ 101) : Plain (scrubResponse resp) := by
  refine ⟨h, not_contains_scrubResponse (.inl rfl), fun name hop => ?_⟩
  refine not_contains_scrubResponse (.inr ?_)
  rcases hop with hop | hop
  · exact .inr (.inr (.inl hop))
  · exact .inr (.inr (.inr ⟨decide_eq_false h, hop⟩))

/-- What the visitor gets of the daemon's answer. -/
structure Relayed (reply resp : Resp) : Prop where
  status : resp.status = reply.status
  body : resp.body = reply.body
  noServer : ¬ resp.headers.contains .server = true
  /-- Every line that does not concern the hop, and no other, in the order it came. -/
  lines : ∀ name, name ≠ .server → ¬ Stripped reply.headers (reply.status = 101) name →
    resp.headers.getAll name = reply.headers.getAll name
  hop : ∀ name ∈ hopByHop, ¬ resp.headers.contains name = true

theorem scrubResponse_relayed (reply : Resp) : Relayed reply (scrubResponse reply) where
  status := rfl
  body := rfl
  noServer := not_contains_scrubResponse (.inl rfl)
  lines name hserver hkept := by
    rw [getAll_scrubResponse, if_neg]
    exact not_or.2 ⟨hserver, hkept⟩
  hop name hname := not_contains_scrubResponse (.inr (.inr (.inr (.inl hname))))

/-- A daemon is asked to switch only on behalf of a visitor who asked. -/
theorem isUpgrade_of_sentRequest {req : HttpRequest} {peerIp hostname : String}
    (h : isUpgrade (sentRequest req peerIp hostname) = true) : isUpgrade req = true := by
  by_contra hno
  rw [Bool.not_eq_true] at hno
  rw [isUpgrade, Bool.and_eq_true, sentRequest, hno] at h
  have hfwd : HeaderName.upgrade ∉ forwarding := by decide
  obtain ⟨-, hkept, -⟩ := (contains_scrubRequest.1 h.2).resolve_left fun hf => hfwd hf.1
  exact hkept (.inr (.inr (.inr ⟨rfl, .inr rfl⟩)))

/-- The three ways an exchange ends. -/
inductive Outcome (router : Router) (req : HttpRequest) (admitted : Bool) (upstream : Upstream) :
    RouteTo → Resp × Handoff → Prop where
  | plain {dest : RouteTo} {resp : Resp} : Plain resp →
      (dest = .control → ¬ (AsksForSession req ∧ admitted = true)) →
      (∀ hostname, dest = .proxy hostname → ¬ Switches router hostname req upstream) →
      Outcome router req admitted upstream dest (resp, .stays)
  | splice {hostname : String} {reply resp : Resp} : (router.get (.host hostname)).isSome →
      isUpgrade req = true → upstream = .answered reply → reply.status = 101 → Relayed reply resp →
      Outcome router req admitted upstream (.proxy hostname) (resp, .splice)
  | session {resp : Resp} : AsksForSession req → admitted = true → resp.status = 101 →
      ¬ resp.headers.contains .server = true →
      Outcome router req admitted upstream .control (resp, .session)

variable {router : Router} {req : HttpRequest} {admitted : Bool} {upstream : Upstream}

theorem proxyRequest_outcome (hostname : String) :
    Outcome router req admitted upstream (.proxy hostname)
      (proxyRequest router hostname req upstream) := by
  have hplain {resp : Resp} (hp : Plain resp) (hno : ¬ Switches router hostname req upstream) :
      Outcome router req admitted upstream (.proxy hostname) (resp, .stays) :=
    .plain hp nofun fun _ h => by cases h; exact hno
  unfold proxyRequest
  cases hget : router.get (.host hostname) with
  | none =>
    refine hplain (page_plain (by decide)) ?_
    rintro ⟨hsome, -⟩
    rw [hget] at hsome
    cases hsome
  | some handle =>
    cases upstream with
    | failed => exact hplain (page_plain (by decide)) fun h => by obtain ⟨-, -, _, h, -⟩ := h; cases h
    | late => exact hplain (page_plain (by decide)) fun h => by obtain ⟨-, -, _, h, -⟩ := h; cases h
    | answered reply =>
      dsimp only
      by_cases hstatus : reply.status = 101
      · rw [if_pos hstatus]
        by_cases hup : isUpgrade req = true
        · rw [if_pos hup]
          exact .splice (by rw [hget]; rfl) hup rfl hstatus (scrubResponse_relayed reply)
        · rw [if_neg hup]
          exact hplain (page_plain (by decide)) fun h => hup h.2.1
      · rw [if_neg hstatus]
        refine hplain (scrubResponse_plain hstatus) ?_
        rintro ⟨-, -, _, heq, h101⟩
        cases heq
        exact hstatus h101

theorem handleControlUpgrade_outcome (deriveAcceptKey : List UInt8 → HeaderValue) :
    Outcome router req admitted upstream .control (handleControlUpgrade deriveAcceptKey req admitted) := by
  have hplain {resp : Resp} (hp : Plain resp) (hno : ¬ (AsksForSession req ∧ admitted = true)) :
      Outcome router req admitted upstream .control (resp, .stays) := .plain hp (fun _ => hno) nofun
  unfold handleControlUpgrade
  by_cases hbad : req.method ≠ .get ∨ isWebsocketUpgrade req = false
  · rw [if_pos hbad]
    refine hplain (page_plain (by decide)) ?_
    rintro ⟨⟨hget, hws, -⟩, -⟩
    rcases hbad with hbad | hbad
    · exact hbad hget
    · rw [hws] at hbad
      cases hbad
  · rw [if_neg hbad]
    simp only [not_or, ne_eq, not_not, Bool.not_eq_false] at hbad
    cases hkey : req.headers.get .secWebsocketKey with
    | none =>
      refine hplain (page_plain (by decide)) ?_
      rintro ⟨⟨-, -, hin⟩, -⟩
      exact Multimap.contains_iff_getAll.1 hin (List.head?_eq_none_iff.1 hkey)
    | some key =>
      dsimp only
      have hin : req.headers.contains .secWebsocketKey = true :=
        Multimap.contains_iff_getAll.2 (List.ne_nil_of_mem (List.mem_of_mem_head? hkey))
      cases admitted with
      | false =>
        rw [if_neg Bool.false_ne_true]
        exact hplain (page_plain (by decide)) fun h => Bool.false_ne_true h.2
      | true =>
        rw [if_pos rfl]
        refine .session ⟨hbad.1, hbad.2, hin⟩ rfl rfl ?_
        simp [switchingProtocols, Multimap.contains, HeaderName.connection, HeaderName.upgrade,
          HeaderName.secWebsocketAccept, HeaderName.server]

theorem answer_outcome (deriveAcceptKey : List UInt8 → HeaderValue) (domain apexResponse : String) :
    Outcome router req admitted upstream (route domain req.headers)
      (answer deriveAcceptKey domain apexResponse router req admitted upstream) := by
  unfold answer
  cases route domain req.headers with
  | control => exact handleControlUpgrade_outcome deriveAcceptKey
  | proxy hostname => exact proxyRequest_outcome hostname
  | apex | notFound => exact .plain (page_plain (by decide)) nofun nofun

/-! ## Switching protocols -/

/-- What a visitor and the relay's tasks can rely on after one exchange. -/
structure ExchangeSafe (domain : String) (router : Router) (req : HttpRequest) (admitted : Bool)
    (upstream : Upstream) (resp : Resp) (handoff : Handoff) : Prop where
  /-- A `101` goes out exactly when another task takes the socket over. -/
  switched : resp.status = 101 ↔ handoff ≠ .stays
  splice : handoff = .splice ↔
    ∃ hostname, route domain req.headers = .proxy hostname ∧ Switches router hostname req upstream
  session : handoff = .session ↔
    route domain req.headers = .control ∧ AsksForSession req ∧ admitted = true
  noServer : ¬ resp.headers.contains .server = true
  /-- No line about the connection on a connection that stays. -/
  quiet : handoff = .stays → ∀ name, ForThisHop name → ¬ resp.headers.contains name = true
  /-- A spliced visitor gets the daemon's own `101`. -/
  relayed : handoff = .splice → ∃ reply, upstream = .answered reply ∧ Relayed reply resp
  /-- The daemon is asked to switch only where the visitor asked. -/
  asked : ∀ peerIp hostname, isUpgrade (sentRequest req peerIp hostname) = true → isUpgrade req = true

/-- **A `101` goes out exactly when a task is there for it**, for every request, routing table and
daemon: a daemon cannot switch a visitor who did not ask, no visitor gets a session without a place for
it, and no answer names the relay's software or leaks a line meant for another hop. -/
theorem exchange_safe (deriveAcceptKey : List UInt8 → HeaderValue) (domain apexResponse : String)
    (router : Router) (req : HttpRequest) (admitted : Bool) (upstream : Upstream) :
    ExchangeSafe domain router req admitted upstream
      (answer deriveAcceptKey domain apexResponse router req admitted upstream).1
      (answer deriveAcceptKey domain apexResponse router req admitted upstream).2 := by
  have hout : Outcome router req admitted upstream (route domain req.headers)
      (answer deriveAcceptKey domain apexResponse router req admitted upstream) :=
    answer_outcome deriveAcceptKey domain apexResponse
  generalize answer deriveAcceptKey domain apexResponse router req admitted upstream = out at hout
  generalize hdest : route domain req.headers = dest at hout
  cases hout with
  | plain hplain hcontrol hproxy =>
    exact {
      switched := iff_of_false hplain.1 fun h => h rfl
      splice := iff_of_false nofun fun ⟨hostname, h, hs⟩ => hproxy hostname (hdest ▸ h) hs
      session := iff_of_false nofun fun ⟨h, hs⟩ => hcontrol (hdest ▸ h) hs
      noServer := hplain.2.1
      quiet := fun _ => hplain.2.2
      relayed := nofun
      asked := fun _ _ => isUpgrade_of_sentRequest }
  | splice hsome hup hans hstatus hrel =>
    exact {
      switched := iff_of_true (hrel.status.trans hstatus) nofun
      splice := iff_of_true rfl ⟨_, hdest, hsome, hup, _, hans, hstatus⟩
      session := iff_of_false nofun fun ⟨h, _⟩ => by rw [hdest] at h; cases h
      noServer := hrel.noServer
      quiet := nofun
      relayed := fun _ => ⟨_, hans, hrel⟩
      asked := fun _ _ => isUpgrade_of_sentRequest }
  | session hasks hadm hstatus hserver =>
    exact {
      switched := iff_of_true hstatus nofun
      splice := iff_of_false nofun fun ⟨_, h, _⟩ => by rw [hdest] at h; cases h
      session := iff_of_true rfl ⟨hdest, hasks, hadm⟩
      noServer := hserver
      quiet := nofun
      relayed := nofun
      asked := fun _ _ => isUpgrade_of_sentRequest }

end EtherTunnel
