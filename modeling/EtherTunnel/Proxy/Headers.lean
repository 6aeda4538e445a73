import EtherTunnel.Lib.Multimap
import EtherTunnel.Registry.Labels
import Mathlib.Data.List.DropRight

/-!
# Header scrubbing

| here | there |
| --- | --- |
| `HeaderName`, `HeaderValue`, `HeaderMap` | `http::HeaderName`, `HeaderValue`, `HeaderMap` |
| `HeaderName.parse` | the normalisation of a `&str` key in `HeaderMap::remove` |
| `HeaderValue.toStr`, `fromStr` | `HeaderValue::to_str`, `from_str` |
| `hopByHop` | `HOP_BY_HOP` (`proxy.rs:48-58`) |
| `tokens`, `listed` | `proxy.rs:534-543` |
| `removeListed` | the loop over `listed` (`proxy.rs:545-550`) |
| `stripHopByHop` | `strip_hop_by_hop` (`proxy.rs:532-565`) |
| `forwarding`, `addForwarding` | the four names removed and the three lines added (`proxy.rs:498-512`) |
| `scrubRequest` | `scrub_request` (`proxy.rs:490-515`) |

`stripHopByHop` collects the tokens of one `Connection` line only, the first: `HeaderMap::get` returns
no other. `Nominated` is what the header means, the tokens of all lines. `getAll_stripHopByHop` and
`getAll_scrubRequest` say what is left of each name; both main theorems compare that with `Nominated`.
-/

namespace EtherTunnel

/-! ## Names, values, maps -/

/-- A character of a header name, which are kept in lower case. -/
def headerChar (c : Char) : Bool :=
  c.isLower || c.isDigit || "!#$%&'*+-.^_`|~".toList.contains c

/-- A non-empty lower-case token. -/
@[ext] structure HeaderName where
  text : String
  valid : text ≠ "" ∧ text.toList.all headerChar = true
deriving DecidableEq

def HeaderName.parse (key : String) : Option HeaderName :=
  let text := toAsciiLowercase key
  if h : text ≠ "" ∧ text.toList.all headerChar = true then some ⟨text, h⟩ else none

/-- Any byte but the controls, of which only the tab is allowed. -/
def valueByte (b : UInt8) : Bool := (32 ≤ b && b != 127) || b == 9

def visibleAscii (b : UInt8) : Bool := (32 ≤ b && b < 127) || b == 9

structure HeaderValue where
  bytes : List UInt8
  valid : bytes.all valueByte = true
deriving DecidableEq

namespace HeaderValue

def fromStr (s : String) : Option HeaderValue :=
  if h : (EtherTunnel.bytes s).all valueByte = true then some ⟨EtherTunnel.bytes s, h⟩ else none

/-- The value's bytes as characters. -/
def text (v : HeaderValue) : String := String.ofList (v.bytes.map fun b => Char.ofNat b.toNat)

def toStr (v : HeaderValue) : Option String :=
  if v.bytes.all visibleAscii then some v.text else none

end HeaderValue

abbrev HeaderMap := Multimap HeaderName HeaderValue

namespace HeaderName

def connection : HeaderName := ⟨"connection", by decide⟩
def contentLength : HeaderName := ⟨"content-length", by decide⟩
def host : HeaderName := ⟨"host", by decide⟩
def te : HeaderName := ⟨"te", by decide⟩
def transferEncoding : HeaderName := ⟨"transfer-encoding", by decide⟩
def upgrade : HeaderName := ⟨"upgrade", by decide⟩
def xForwardedFor : HeaderName := ⟨"x-forwarded-for", by decide⟩
def xForwardedProto : HeaderName := ⟨"x-forwarded-proto", by decide⟩
def xForwardedHost : HeaderName := ⟨"x-forwarded-host", by decide⟩

end HeaderName

def hopByHop : List HeaderName :=
  [⟨"keep-alive", by decide⟩, ⟨"proxy-connection", by decide⟩, ⟨"proxy-authenticate", by decide⟩,
    ⟨"proxy-authorization", by decide⟩, .te, ⟨"trailer", by decide⟩, .transferEncoding]

def forwarding : List HeaderName :=
  [.xForwardedFor, .xForwardedProto, .xForwardedHost, ⟨"forwarded", by decide⟩]

/-! ## Scrubbing -/

/-- The comma-separated items in lower case. The only white space that visible ASCII has, and so the only
one `trim` can meet, is the blank and the tab. -/
def tokens (line : String) : List String :=
  let blank := fun c => c == ' ' || c == '\t'
  ((line.toList.splitOn ',').map fun t =>
    toAsciiLowercase (String.ofList ((t.dropWhile blank).rdropWhile blank))).filter (· ≠ "")

def listed (headers : HeaderMap) : List String :=
  ((headers.get .connection).bind HeaderValue.toStr).elim [] tokens

def removeListed (keepUpgrade : Bool) (headers : HeaderMap) (token : String) : HeaderMap :=
  if keepUpgrade && token = "upgrade" then headers
  else (HeaderName.parse token).elim headers headers.remove

def stripHopByHop (headers : HeaderMap) (keepUpgrade : Bool) : HeaderMap :=
  let listed := listed headers
  let headers := listed.foldl (removeListed keepUpgrade) headers
  let headers :=
    if headers.contains .transferEncoding || listed.any (· = "transfer-encoding") then
      headers.remove .contentLength
    else headers
  let headers := headers.removeAll hopByHop
  if !keepUpgrade then (headers.remove .connection).remove .upgrade else headers

/-- `if let Ok(v) = HeaderValue::from_str(text) { headers.insert(name, v); }`. -/
def insertText (headers : HeaderMap) (name : HeaderName) (text : String) : HeaderMap :=
  (HeaderValue.fromStr text).elim headers (headers.insert name)

def https : HeaderValue := ⟨bytes "https", by decide⟩

/-- `peerIp` is the text of the visitor's address, `hostname` the name the request was routed by. -/
def addForwarding (headers : HeaderMap) (peerIp hostname : String) : HeaderMap :=
  let headers := insertText headers .xForwardedFor peerIp
  let headers := headers.insert .xForwardedProto https
  insertText headers .xForwardedHost hostname

def scrubRequest (headers : HeaderMap) (peerIp hostname : String) (upgrading : Bool) : HeaderMap :=
  addForwarding ((stripHopByHop headers upgrading).removeAll forwarding) peerIp hostname

/-! ## What is left of each name -/

/-- A `Connection` line has the name among its tokens. -/
def Nominated (headers : HeaderMap) (name : HeaderName) : Prop :=
  ∃ v ∈ headers.getAll .connection, name.text ∈ tokens v.text

instance (headers : HeaderMap) (name : HeaderName) : Decidable (Nominated headers name) :=
  inferInstanceAs (Decidable (∃ v ∈ headers.getAll .connection, name.text ∈ tokens v.text))

variable {headers : HeaderMap} {keep : Bool} {name : HeaderName} {peerIp hostname : String}

theorem lower_of_mem_tokens {line t : String} (h : t ∈ tokens line) : toAsciiLowercase t = t := by
  obtain ⟨item, -, rfl⟩ := List.mem_map.1 (List.mem_filter.1 h).1
  exact toAsciiLowercase_idem _

theorem lower_of_mem_listed {t : String} (h : t ∈ listed headers) : toAsciiLowercase t = t := by
  unfold listed at h
  cases hline : (headers.get .connection).bind HeaderValue.toStr with
  | none => simp [hline] at h
  | some line =>
    rw [hline] at h
    exact lower_of_mem_tokens h

/-- What the first line lists is nominated. -/
theorem nominated_of_listed (h : name.text ∈ listed headers) : Nominated headers name := by
  unfold listed at h
  cases hget : headers.get .connection with
  | none => simp [hget] at h
  | some v =>
    rw [hget, Option.bind_some, HeaderValue.toStr] at h
    split at h
    · exact ⟨v, List.mem_of_mem_head? hget, h⟩
    · simp at h

theorem parse_eq_some {t : String} (hlow : toAsciiLowercase t = t) :
    HeaderName.parse t = some name ↔ t = name.text := by
  unfold HeaderName.parse
  simp only [hlow]
  constructor
  · intro h
    split at h
    · cases h
      rfl
    · cases h
  · rintro rfl
    rw [dif_pos name.valid]

theorem getAll_removeListed {t : String} (hlow : toAsciiLowercase t = t) :
    (removeListed keep headers t).getAll name =
      if name.text = t ∧ ¬ (keep = true ∧ name = .upgrade) then [] else headers.getAll name := by
  have hparse : HeaderName.parse t = some name ↔ t = name.text := parse_eq_some hlow
  unfold removeListed
  by_cases hskip : (keep && t = "upgrade") = true
  · rw [if_pos hskip, if_neg]
    rintro ⟨rfl, hup⟩
    rw [Bool.and_eq_true, decide_eq_true_eq] at hskip
    exact hup ⟨hskip.1, HeaderName.ext hskip.2⟩
  · rw [if_neg hskip]
    cases hp : HeaderName.parse t with
    | none =>
      rw [if_neg]
      · rfl
      · rintro ⟨rfl, -⟩
        rw [hparse.2 rfl] at hp
        cases hp
    | some n =>
      have hn : name = n ↔ name.text = t := by
        rw [eq_comm (a := name.text), ← hparse, hp, Option.some_inj, eq_comm]
      simp only [Option.elim, Multimap.getAll_remove, hn]
      refine if_congr ⟨fun ht => ⟨ht, fun hup => hskip ?_⟩, And.left⟩ rfl rfl
      rw [Bool.and_eq_true, decide_eq_true_eq, ← ht, hup.2]
      exact ⟨hup.1, rfl⟩

theorem getAll_foldl_removeListed {ts : List String} (hlow : ∀ t ∈ ts, toAsciiLowercase t = t)
    (headers : HeaderMap) :
    (ts.foldl (removeListed keep) headers).getAll name =
      if name.text ∈ ts ∧ ¬ (keep = true ∧ name = .upgrade) then [] else headers.getAll name := by
  induction ts generalizing headers with
  | nil => simp
  | cons t ts ih =>
    rw [List.foldl_cons, ih fun s hs => hlow s (List.mem_cons_of_mem _ hs),
      getAll_removeListed (hlow t List.mem_cons_self)]
    by_cases hup : keep = true ∧ name = .upgrade
    · simp [hup]
    · by_cases ht : name.text = t <;> by_cases hts : name.text ∈ ts <;> simp [hup, ht, hts]

/-- `Content-Length` goes, whatever the tokens say of it. -/
def DropsLength (headers : HeaderMap) : Prop :=
  headers.contains .transferEncoding = true ∨ HeaderName.transferEncoding.text ∈ listed headers

/-- The names of which nothing is left. -/
def Stripped (headers : HeaderMap) (keep : Bool) (name : HeaderName) : Prop :=
  (name.text ∈ listed headers ∧ ¬ (keep = true ∧ name = .upgrade)) ∨
  (name = .contentLength ∧ DropsLength headers) ∨ name ∈ hopByHop ∨
  (keep = false ∧ (name = .connection ∨ name = .upgrade))

theorem dropsLength_iff :
    (((listed headers).foldl (removeListed keep) headers).contains .transferEncoding ||
      (listed headers).any (· = "transfer-encoding")) = true ↔ DropsLength headers := by
  rw [Bool.or_eq_true, Multimap.contains_iff_getAll,
    getAll_foldl_removeListed fun _ => lower_of_mem_listed]
  by_cases hl : HeaderName.transferEncoding.text ∈ listed headers
  · exact iff_of_true (.inr (List.any_eq_true.2 ⟨_, hl, rfl⟩)) (.inr hl)
  · rw [if_neg fun h => hl h.1, ← Multimap.contains_iff_getAll]
    refine or_congr_right (iff_of_false (fun h => ?_) hl)
    obtain ⟨t, ht, heq⟩ := List.any_eq_true.1 h
    obtain rfl : t = "transfer-encoding" := of_decide_eq_true heq
    exact hl ht

open Classical in
theorem getAll_stripHopByHop :
    (stripHopByHop headers keep).getAll name =
      if Stripped headers keep name then [] else headers.getAll name := by
  have hfold : ((listed headers).foldl (removeListed keep) headers).getAll name =
      if name.text ∈ listed headers ∧ ¬ (keep = true ∧ name = .upgrade) then []
      else headers.getAll name :=
    getAll_foldl_removeListed (fun _ => lower_of_mem_listed) headers
  unfold stripHopByHop Stripped
  simp only [dropsLength_iff]
  by_cases hd : DropsLength headers <;> cases keep <;> simp [hd, hfold] <;> grind

theorem contains_stripHopByHop : (stripHopByHop headers keep).contains name = true ↔
    ¬ Stripped headers keep name ∧ headers.contains name = true := by
  rw [Multimap.contains_iff_getAll, Multimap.contains_iff_getAll, getAll_stripHopByHop]
  split <;> simp [*]

/-- The lines that the relay adds. -/
def rewritten (peerIp hostname : String) : HeaderMap := addForwarding ⟨[]⟩ peerIp hostname

theorem getAll_insertText {key : HeaderName} {text : String} :
    (insertText headers key text).getAll name =
      if name = key then (HeaderValue.fromStr text).elim (headers.getAll key) ([·])
      else headers.getAll name := by
  unfold insertText
  cases HeaderValue.fromStr text with
  | none =>
    split
    · subst_vars
      rfl
    · rfl
  | some v => exact Multimap.getAll_insert

/-- Only the added names change, and of the others nothing is read. -/
theorem getAll_addForwarding (hnone : ∀ n ∈ forwarding, headers.getAll n = []) :
    (addForwarding headers peerIp hostname).getAll name =
      if name ∈ forwarding then (rewritten peerIp hostname).getAll name else headers.getAll name := by
  unfold rewritten addForwarding
  simp only [getAll_insertText, Multimap.getAll_insert]
  by_cases hname : name ∈ forwarding
  · have hempty : (⟨[]⟩ : HeaderMap).getAll name = [] := rfl
    have hfor : (⟨[]⟩ : HeaderMap).getAll .xForwardedFor = [] := rfl
    have hhost : (⟨[]⟩ : HeaderMap).getAll .xForwardedHost = [] := rfl
    rw [if_pos hname, hnone name hname, hnone .xForwardedFor (by decide), hempty, hfor,
      hnone .xForwardedHost (by decide), hhost]
  · have hne : ∀ n ∈ forwarding, name ≠ n := fun n hn h => hname (h ▸ hn)
    rw [if_neg hname, if_neg (hne _ (by decide)), if_neg (hne _ (by decide)), if_neg (hne _ (by decide))]

theorem getAll_scrubRequest :
    (scrubRequest headers peerIp hostname keep).getAll name =
      if name ∈ forwarding then (rewritten peerIp hostname).getAll name
      else (stripHopByHop headers keep).getAll name := by
  rw [scrubRequest, getAll_addForwarding]
  · split
    · rfl
    · rw [Multimap.getAll_removeAll, if_neg ‹_›]
  · intro n hn
    rw [Multimap.getAll_removeAll, if_pos hn]

theorem contains_scrubRequest : (scrubRequest headers peerIp hostname keep).contains name = true ↔
    (name ∈ forwarding ∧ (rewritten peerIp hostname).contains name = true) ∨
    (name ∉ forwarding ∧ ¬ Stripped headers keep name ∧ headers.contains name = true) := by
  rw [← contains_stripHopByHop]
  simp only [Multimap.contains_iff_getAll, getAll_scrubRequest]
  split <;> simp [*]

theorem rewritten_names {l : HeaderName × HeaderValue} (h : l ∈ (rewritten peerIp hostname).lines) :
    l.1 ∈ forwarding := by
  by_contra hl
  have hsome : (rewritten peerIp hostname).contains l.1 = true := Multimap.contains_iff_mem.2 ⟨l, h, rfl⟩
  rw [Multimap.contains_iff_getAll, rewritten, getAll_addForwarding fun _ _ => rfl, if_neg hl] at hsome
  exact hsome rfl

/-! ## No hop-by-hop header survives -/

/-- What the stripper is for. The last clause is about the request as it is forwarded: the next hop would
drop what a kept `Connection` line names. -/
structure HopByHopGone (headers : HeaderMap) (keep : Bool) (peerIp hostname : String) : Prop where
  fixed : ∀ n ∈ hopByHop, ¬ (stripHopByHop headers keep).contains n = true
  nominated : ∀ n, Nominated headers n → n ≠ .host →
    ¬ (keep = true ∧ (n = .connection ∨ n = .upgrade)) →
    ¬ (stripHopByHop headers keep).contains n = true
  connection : keep = false → ¬ (stripHopByHop headers keep).contains .connection = true ∧
    ¬ (stripHopByHop headers keep).contains .upgrade = true
  kept : keep = true → ∀ n, Nominated (scrubRequest headers peerIp hostname keep) n →
    (scrubRequest headers peerIp hostname keep).contains n = true → n = .upgrade

/-- Every header of the request that a `Connection` line names is named by the first of them, or is one
that goes or may stay whoever names it. -/
def NamedFirst (headers : HeaderMap) : Prop :=
  ∀ l ∈ headers.lines, Nominated headers l.1 →
    l.1.text ∈ listed headers ∨ l.1 ∈ hopByHop ∨ l.1 ∈ [.host, .connection, .upgrade] ∨
      (l.1 = .contentLength ∧ DropsLength headers)

/-- The first `Connection` line names `Connection` itself, so that no such line is kept; or none of the
lines names what is forwarded in any case. -/
def KeptNamesNothing (headers : HeaderMap) (peerIp hostname : String) : Prop :=
  HeaderName.connection.text ∈ listed headers ∨
  (¬ Nominated headers .connection ∧
    (Nominated headers .host → headers.contains .host = true → HeaderName.host.text ∈ listed headers) ∧
    ∀ l ∈ (rewritten peerIp hostname).lines, ¬ Nominated headers l.1)

theorem stripped_keep_connection :
    Stripped headers true .connection ↔ HeaderName.connection.text ∈ listed headers := by
  have hfixed : HeaderName.connection ∉ hopByHop := by decide
  have hup : HeaderName.connection ≠ .upgrade := by decide
  have hlen : HeaderName.connection ≠ .contentLength := by decide
  simp [Stripped, hfixed, hup, hlen]

/-- The `Connection` lines of an upgrade are forwarded as they came, or not at all. -/
theorem nominated_scrubRequest : Nominated (scrubRequest headers peerIp hostname true) name ↔
    HeaderName.connection.text ∉ listed headers ∧ Nominated headers name := by
  have hfwd : HeaderName.connection ∉ forwarding := by decide
  unfold Nominated
  rw [getAll_scrubRequest, if_neg hfwd, getAll_stripHopByHop]
  simp only [stripped_keep_connection]
  split <;> simp [*]

theorem stripped_of_namedFirst (h : NamedFirst headers) (hname : headers.contains name = true)
    (hnom : Nominated headers name) (hhost : name ≠ .host)
    (hkeep : ¬ (keep = true ∧ (name = .connection ∨ name = .upgrade))) : Stripped headers keep name := by
  obtain ⟨l, hl, rfl⟩ := Multimap.contains_iff_mem.1 hname
  rcases h l hl hnom with hlist | hfixed | hfree | hlen
  · exact .inl ⟨hlist, fun hk => hkeep ⟨hk.1, .inr hk.2⟩⟩
  · exact .inr (.inr (.inl hfixed))
  · have hcu : l.1 = .connection ∨ l.1 = .upgrade := by
      simpa [hhost] using hfree
    cases keep with
    | false => exact .inr (.inr (.inr ⟨rfl, hcu⟩))
    | true => exact absurd ⟨rfl, hcu⟩ hkeep
  · exact .inr (.inl hlen)

theorem HopByHopGone.namedFirst (h : HopByHopGone headers keep peerIp hostname) : NamedFirst headers := by
  intro l hl hnom
  by_contra hcon
  simp only [not_or] at hcon
  obtain ⟨hlist, hfixed, hfree, hlen⟩ := hcon
  have hfree' : l.1 ≠ .host ∧ l.1 ≠ .connection ∧ l.1 ≠ .upgrade := by simpa using hfree
  refine h.nominated l.1 hnom hfree'.1 (fun hk => ?_) (contains_stripHopByHop.2 ⟨?_, ?_⟩)
  · exact hk.2.elim hfree'.2.1 hfree'.2.2
  · rintro (hs | hs | hs | hs)
    · exact hlist hs.1
    · exact hlen hs
    · exact hfixed hs
    · exact hs.2.elim hfree'.2.1 hfree'.2.2
  · exact Multimap.contains_iff_mem.2 ⟨l, hl, rfl⟩

theorem HopByHopGone.keptNamesNothing (h : HopByHopGone headers true peerIp hostname) :
    KeptNamesNothing headers peerIp hostname := by
  by_cases hconn : HeaderName.connection.text ∈ listed headers
  · exact .inl hconn
  · have hnot : ∀ n, Nominated headers n → n ≠ .upgrade →
        ¬ (scrubRequest headers peerIp hostname true).contains n = true := fun n hnom hup hin =>
      hup (h.kept rfl n (nominated_scrubRequest.2 ⟨hconn, hnom⟩) hin)
    refine .inr ⟨fun hnom => ?_, fun hnom hin => ?_, fun l hl hnom => ?_⟩
    · refine hnot _ hnom (by decide) (contains_scrubRequest.2 (.inr ⟨by decide, ?_, ?_⟩))
      · exact fun hs => hconn (stripped_keep_connection.1 hs)
      · obtain ⟨v, hv, -⟩ := hnom
        exact Multimap.contains_iff_getAll.2 (List.ne_nil_of_mem hv)
    · by_contra hlist
      refine hnot _ hnom (by decide) (contains_scrubRequest.2 (.inr ⟨by decide, ?_, hin⟩))
      rintro (hs | hs | hs | hs)
      · exact hlist hs.1
      · exact absurd hs.1 (by decide)
      · exact absurd hs (by decide)
      · exact absurd hs.1 (by decide)
    · have hfwd := rewritten_names hl
      refine hnot _ hnom (fun hup => absurd (hup ▸ hfwd) (by decide)) (contains_scrubRequest.2 ?_)
      exact .inl ⟨hfwd, Multimap.contains_iff_mem.2 ⟨l, hl, rfl⟩⟩

/-- What an upgrade still names after scrubbing is `Upgrade`, or gone. -/
theorem upgrade_of_kept (hfirst : NamedFirst headers) (hkeep : KeptNamesNothing headers peerIp hostname)
    (hnom : Nominated (scrubRequest headers peerIp hostname true) name)
    (hin : (scrubRequest headers peerIp hostname true).contains name = true) : name = .upgrade := by
  obtain ⟨hconn, hnom⟩ := nominated_scrubRequest.1 hnom
  obtain ⟨hself, hhost, hadded⟩ := hkeep.resolve_left hconn
  rcases contains_scrubRequest.1 hin with ⟨-, hin⟩ | ⟨-, hs, hin⟩
  · obtain ⟨l, hl, rfl⟩ := Multimap.contains_iff_mem.1 hin
    exact absurd hnom (hadded l hl)
  · by_contra hup
    refine hs ?_
    by_cases hn : name = .host
    · subst hn
      exact .inl ⟨hhost hnom hin, fun h => hup h.2⟩
    · refine stripped_of_namedFirst hfirst hin hnom hn fun h => h.2.elim (fun hc => ?_) hup
      exact hself (hc ▸ hnom)

/-- **When no hop-by-hop header survives**: exactly when no header of the request is named by a
`Connection` line after the first only, and, for an upgrade, the kept lines name nothing that is
forwarded. -/
theorem hop_by_hop_gone_iff (headers : HeaderMap) (keep : Bool) (peerIp hostname : String) :
    HopByHopGone headers keep peerIp hostname ↔
      NamedFirst headers ∧ (keep = true → KeptNamesNothing headers peerIp hostname) := by
  constructor
  · intro h
    refine ⟨h.namedFirst, ?_⟩
    rintro rfl
    exact h.keptNamesNothing
  · rintro ⟨hfirst, hkeep⟩
    refine ⟨fun n hn hin => ?_, fun n hnom hhost hexc hin => ?_, ?_, ?_⟩
    · exact (contains_stripHopByHop.1 hin).1 (.inr (.inr (.inl hn)))
    · obtain ⟨hs, hin⟩ := contains_stripHopByHop.1 hin
      exact hs (stripped_of_namedFirst hfirst hin hnom hhost hexc)
    · rintro rfl
      constructor <;> intro hin
      · exact (contains_stripHopByHop.1 hin).1 (.inr (.inr (.inr ⟨rfl, .inl rfl⟩)))
      · exact (contains_stripHopByHop.1 hin).1 (.inr (.inr (.inr ⟨rfl, .inr rfl⟩)))
    · rintro rfl n hnom hin
      exact upgrade_of_kept hfirst (hkeep rfl) hnom hin


def xSecret : HeaderName := ⟨"x-secret", by decide⟩

/-- A hop-by-hop header of the visitor's own, nominated in a second `Connection` line. -/
def secretRequest : HeaderMap :=
  ⟨[(.host, ⟨bytes "app.t.example", by decide⟩), (.connection, ⟨bytes "close", by decide⟩),
    (.connection, ⟨bytes "X-Secret", by decide⟩), (xSecret, ⟨bytes "1", by decide⟩)]⟩

/-- An upgrade whose only `Connection` line names a header that the relay adds. -/
def websocketRequest : HeaderMap :=
  ⟨[(.host, ⟨bytes "app.t.example", by decide⟩),
    (.connection, ⟨bytes "Upgrade, X-Forwarded-For", by decide⟩),
    (.upgrade, ⟨bytes "websocket", by decide⟩)]⟩

theorem nominated_header_forwarded :
    (Nominated secretRequest xSecret ∧
      (stripHopByHop secretRequest false).getAll xSecret = secretRequest.getAll xSecret ∧
      ¬ HopByHopGone secretRequest false "203.0.113.7" "app.t.example") ∧
    (Nominated (scrubRequest websocketRequest "203.0.113.7" "app.t.example" true) .xForwardedFor ∧
      (scrubRequest websocketRequest "203.0.113.7" "app.t.example" true).getAll .xForwardedFor =
        [⟨bytes "203.0.113.7", by decide⟩] ∧
      ¬ HopByHopGone websocketRequest true "203.0.113.7" "app.t.example") := by
  have hsecret : Nominated secretRequest xSecret := by decide
  have hfwd : Nominated (scrubRequest websocketRequest "203.0.113.7" "app.t.example" true)
      .xForwardedFor := by decide
  refine ⟨⟨hsecret, by decide, fun h => ?_⟩, ⟨hfwd, by decide, fun h => ?_⟩⟩
  · exact h.nominated _ hsecret (by decide) (by decide) (by decide)
  · exact absurd (h.kept rfl _ hfwd (by decide)) (by decide)

/-! ## End-to-end headers survive -/

/-- What the visitor may expect of the request that is forwarded. -/
structure EndToEndKept (headers : HeaderMap) (peerIp hostname : String) (upgrading : Bool) : Prop where
  host : (scrubRequest headers peerIp hostname upgrading).getAll .host = headers.getAll .host
  others : ∀ n, n ∉ hopByHop → n ∉ forwarding → n ∉ [.connection, .upgrade, .contentLength] →
    ¬ Nominated headers n →
    (scrubRequest headers peerIp hostname upgrading).getAll n = headers.getAll n
  length : (scrubRequest headers peerIp hostname upgrading).getAll .contentLength =
    if headers.contains .transferEncoding = true ∨ Nominated headers .contentLength ∨
      Nominated headers .transferEncoding then [] else headers.getAll .contentLength
  framing : ¬ ((scrubRequest headers peerIp hostname upgrading).contains .contentLength = true ∧
    (scrubRequest headers peerIp hostname upgrading).contains .transferEncoding = true)

theorem stripped_host : Stripped headers keep .host ↔ HeaderName.host.text ∈ listed headers := by
  have hfixed : HeaderName.host ∉ hopByHop := by decide
  have hup : HeaderName.host ≠ .upgrade := by decide
  have hlen : HeaderName.host ≠ .contentLength := by decide
  have hconn : HeaderName.host ≠ .connection := by decide
  simp [Stripped, hfixed, hup, hlen, hconn]

theorem stripped_contentLength : Stripped headers keep .contentLength ↔
    headers.contains .transferEncoding = true ∨ HeaderName.contentLength.text ∈ listed headers ∨
      HeaderName.transferEncoding.text ∈ listed headers := by
  have hfixed : HeaderName.contentLength ∉ hopByHop := by decide
  have hup : HeaderName.contentLength ≠ .upgrade := by decide
  have hconn : HeaderName.contentLength ≠ .connection := by decide
  simp only [Stripped, DropsLength, hfixed, hup, hconn]
  tauto

/-- The framing clause needs no condition: `Transfer-Encoding` is never forwarded. -/
theorem not_contains_transferEncoding :
    ¬ (scrubRequest headers peerIp hostname keep).contains .transferEncoding = true := by
  intro h
  rcases contains_scrubRequest.1 h with ⟨hfwd, -⟩ | ⟨-, hs, -⟩
  · exact absurd hfwd (by decide)
  · exact hs (.inr (.inr (.inl (by decide))))

theorem getAll_scrubRequest_of_ne (hfixed : name ∉ hopByHop) (hfwd : name ∉ forwarding)
    (hfree : name ∉ [.connection, .upgrade, .contentLength]) (hnom : ¬ Nominated headers name) :
    (scrubRequest headers peerIp hostname keep).getAll name = headers.getAll name := by
  rw [getAll_scrubRequest, if_neg hfwd, getAll_stripHopByHop, if_neg]
  simp only [List.mem_cons, List.not_mem_nil, or_false, not_or] at hfree
  rintro (hs | hs | hs | hs)
  · exact hnom (nominated_of_listed hs.1)
  · exact hfree.2.2 hs.1
  · exact hfixed hs
  · exact hs.2.elim hfree.1 hfree.2.1

/-- **When the end-to-end headers survive**: exactly when the first `Connection` line does not name a
`Host` that is there, and no other line alone nominates the length of a request that has one. -/
theorem end_to_end_kept_iff (headers : HeaderMap) (peerIp hostname : String) (upgrading : Bool) :
    EndToEndKept headers peerIp hostname upgrading ↔
      (headers.contains .host = true → HeaderName.host.text ∉ listed headers) ∧
      (headers.contains .contentLength = true →
        Nominated headers .contentLength ∨ Nominated headers .transferEncoding →
        headers.contains .transferEncoding = true ∨ HeaderName.contentLength.text ∈ listed headers ∨
          HeaderName.transferEncoding.text ∈ listed headers) := by
  have hhost : (scrubRequest headers peerIp hostname upgrading).getAll .host =
      if HeaderName.host.text ∈ listed headers then [] else headers.getAll .host := by
    rw [getAll_scrubRequest, if_neg (by decide), getAll_stripHopByHop]
    simp only [stripped_host]
  have hlength : (scrubRequest headers peerIp hostname upgrading).getAll .contentLength =
      if headers.contains .transferEncoding = true ∨ HeaderName.contentLength.text ∈ listed headers ∨
        HeaderName.transferEncoding.text ∈ listed headers then [] else headers.getAll .contentLength := by
    rw [getAll_scrubRequest, if_neg (by decide), getAll_stripHopByHop]
    simp only [stripped_contentLength]
  constructor
  · intro h
    refine ⟨fun hin hlist => ?_, fun hin hnom => ?_⟩
    · have hsame := h.host
      rw [hhost, if_pos hlist] at hsame
      exact Multimap.contains_iff_getAll.1 hin hsame.symm
    · by_contra hcon
      have hsame := h.length
      rw [hlength, if_neg hcon, if_pos (.inr hnom)] at hsame
      exact Multimap.contains_iff_getAll.1 hin hsame
  · rintro ⟨hkeep, hnominated⟩
    refine ⟨?_, fun n hf hw hc hn => getAll_scrubRequest_of_ne hf hw hc hn, ?_, fun h =>
      not_contains_transferEncoding h.2⟩
    · rw [hhost]
      split
      · by_contra hne
        exact hkeep (Multimap.contains_iff_getAll.2 (Ne.symm hne)) ‹_›
      · rfl
    · rw [hlength]
      by_cases hin : headers.contains .contentLength = true
      · refine if_congr ⟨?_, ?_⟩ rfl rfl
        · rintro (hte | hlist | hlist)
          · exact .inl hte
          · exact .inr (.inl (nominated_of_listed hlist))
          · exact .inr (.inr (nominated_of_listed hlist))
        · rintro (hte | hnom)
          · exact .inl hte
          · exact hnominated hin hnom
      · rw [Multimap.getAll_of_not_contains hin, ite_self, ite_self]

/-- `Connection: host`. -/
def hostlessRequest : HeaderMap :=
  ⟨[(.host, ⟨bytes "app.t.example", by decide⟩), (.connection, ⟨bytes "Host", by decide⟩)]⟩

/-- The length nominated in a second `Connection` line. -/
def lengthRequest : HeaderMap :=
  ⟨[(.host, ⟨bytes "app.t.example", by decide⟩), (.connection, ⟨bytes "keep-alive", by decide⟩),
    (.connection, ⟨bytes "Content-Length", by decide⟩), (.contentLength, ⟨bytes "5", by decide⟩)]⟩

theorem visitor_host_dropped :
    ((scrubRequest hostlessRequest "203.0.113.7" "app.t.example" false).getAll .host = [] ∧
      ¬ EndToEndKept hostlessRequest "203.0.113.7" "app.t.example" false) ∧
    ((scrubRequest lengthRequest "203.0.113.7" "app.t.example" false).contains .contentLength = true ∧
      ¬ EndToEndKept lengthRequest "203.0.113.7" "app.t.example" false) := by
  have hdropped : (scrubRequest hostlessRequest "203.0.113.7" "app.t.example" false).getAll .host = [] := by
    decide
  have hin : (scrubRequest lengthRequest "203.0.113.7" "app.t.example" false).contains
      .contentLength = true := by
    decide
  have hnom : Nominated lengthRequest .contentLength := by decide
  refine ⟨⟨hdropped, fun h => ?_⟩, ⟨hin, fun h => ?_⟩⟩
  · have hhost := hdropped.symm.trans h.host
    exact absurd hhost (by decide)
  · rw [Multimap.contains_iff_getAll, h.length, if_pos (.inr (.inl hnom))] at hin
    exact hin rfl

end EtherTunnel
