import EtherTunnel.Proto.Codec
import EtherTunnel.Proxy.Headers
import EtherTunnel.Router.Index

/-!
# From a visitor's request to a session

| here | there |
| --- | --- |
| `connectHost`, `isTunnelHost` | `relay/src/config.rs:373-401` |
| `hostOf` | `listener.rs:447-457` |
| `route`, `RouteTo` | `listener.rs:325-370`; which of its four answers |
| `proxyHttp` | `proxy.rs:377-405`: the session of the host, and the preamble on the stream opened to it |

`NamesHost` is what a visitor may write for a name: any case, with or without a port.
`hostOf_of_namesHost` says for which names all of these are understood.
-/

namespace EtherTunnel

def connectHost (domain : String) : String := fqdn domain "connect"

def isTunnelHost (domain host : String) : Bool :=
  if host = connectHost domain ∨ host = domain then false
  else
    match stripSuffix host ("." ++ domain) with
    | none => false
    | some label => if label = "" ∨ '.' ∈ label.toList then false else !reservedLabels.contains label

/-- `raw.split(':').next()` is what stands before the first colon. -/
def hostOf (headers : HeaderMap) : Option String :=
  match headers.getAll .host with
  | [] => none
  | v :: rest => v.toStr.bind fun raw =>
    if rest ≠ [] then none
    else some (toAsciiLowercase (String.ofList (raw.toList.takeWhile (· ≠ ':'))))

inductive RouteTo where
  | control
  | apex
  | proxy (host : String)
  | notFound
deriving DecidableEq

def route (domain : String) (headers : HeaderMap) : RouteTo :=
  let host := hostOf headers
  if host = some (connectHost domain) then .control
  else if host = some domain then .apex
  else
    match host with
    | some host => if isTunnelHost domain host then .proxy host else .notFound
    | none => .notFound

/-- `none` is a 404 or a 502: no session, or no preamble of that size. -/
def proxyHttp (router : Router) (host : String) (peerIp : IpAddr) (peerPort : UInt16) :
    Option (SessionHandle × List UInt8) :=
  match router.get (.host host) with
  | none => none
  | some session =>
    match writeFrame StreamHeader.wire [] (.http host peerIp peerPort) maxStreamHeader with
    | .ok bytes => some (session, bytes)
    | .error _ => none

/-- A visitor's request, as far as the daemon's first bytes. -/
def visit (domain : String) (router : Router) (headers : HeaderMap) (peerIp : IpAddr)
    (peerPort : UInt16) : Option (SessionHandle × List UInt8) :=
  match route domain headers with
  | .proxy host => proxyHttp router host peerIp peerPort
  | .control | .apex | .notFound => none

/-! ## Visible text -/

def visibleChar (c : Char) : Bool := (32 ≤ c.toNat && c.toNat < 127) || c == '\t'

/-- Text that `to_str` accepts. -/
def Visible (s : String) : Prop := ∀ c ∈ s.toList, visibleChar c = true

instance (s : String) : Decidable (Visible s) :=
  decidable_of_iff (s.toList.all visibleChar = true) List.all_eq_true

/-- The first byte of a character beyond ASCII. -/
theorem utf8EncodeChar_wide {c : Char} (h : 128 ≤ c.toNat) :
    ∃ n rest, String.utf8EncodeChar c = UInt8.ofNat n :: rest ∧ 192 ≤ n ∧ n < 256 := by
  have hwide : ¬ c.val.toNat ≤ 127 := Nat.not_le_of_lt h
  simp only [String.utf8EncodeChar]
  rw [if_neg hwide]
  split
  · exact ⟨_, _, rfl, by omega, by omega⟩
  · split
    · exact ⟨_, _, rfl, by omega, by omega⟩
    · exact ⟨_, _, rfl, by omega, by omega⟩

theorem visibleChar_iff {c : Char} :
    visibleChar c = true ↔ (32 ≤ c.toNat ∧ c.toNat < 127) ∨ c.toNat = 9 := by
  have htab : c = '\t' ↔ c.toNat = 9 := ⟨fun h => h ▸ rfl, fun h => Char.toNat_inj.1 h⟩
  simp [visibleChar, htab]

theorem visibleAscii_ofNat {n : Nat} (h : n < 256) :
    visibleAscii (UInt8.ofNat n) = true ↔ (32 ≤ n ∧ n < 127) ∨ n = 9 := by
  have hn : (UInt8.ofNat n).toNat = n := by rw [UInt8.toNat_ofNat', Nat.mod_eq_of_lt h]
  simp [visibleAscii, UInt8.le_iff_toNat_le, UInt8.lt_iff_toNat_lt, ← UInt8.toNat_inj, hn]

theorem utf8EncodeChar_visible (c : Char) :
    (String.utf8EncodeChar c).all visibleAscii = true ↔ visibleChar c = true := by
  rw [visibleChar_iff]
  by_cases hc : c.toNat < 128
  · rw [utf8EncodeChar_ascii hc, List.all_cons, List.all_nil, Bool.and_true,
      visibleAscii_ofNat (by omega)]
  · obtain ⟨n, rest, henc, hlo, hhi⟩ := utf8EncodeChar_wide (Nat.le_of_not_lt hc)
    rw [henc, List.all_cons, Bool.and_eq_true, visibleAscii_ofNat hhi]
    omega

theorem bytes_visible {s : String} : (bytes s).all visibleAscii = true ↔ Visible s := by
  rw [bytes_eq_flatMap, List.all_flatMap, List.all_eq_true]
  exact forall₂_congr fun c _ => utf8EncodeChar_visible c

theorem visibleChar_lt {c : Char} (h : visibleChar c = true) : c.toNat < 128 := by
  rw [visibleChar_iff] at h
  omega

/-- Visible text is one byte a character. -/
theorem text_of_visible {v : HeaderValue} {s : String} (hv : v.bytes = bytes s) (hs : Visible s) :
    v.text = s := by
  have hlist : ∀ l : List Char, (∀ c ∈ l, visibleChar c = true) →
      (l.flatMap String.utf8EncodeChar).map (fun b => Char.ofNat b.toNat) = l := by
    intro l hl
    induction l with
    | nil => rfl
    | cons c l ih =>
      have hc := visibleChar_lt (hl c List.mem_cons_self)
      have hback : Char.ofNat (UInt8.ofNat c.toNat).toNat = c := by
        rw [UInt8.toNat_ofNat', Nat.mod_eq_of_lt (by omega), Char.ofNat_toNat]
      rw [List.flatMap_cons, utf8EncodeChar_ascii hc, List.singleton_append, List.map_cons, hback,
        ih fun d hd => hl d (List.mem_cons_of_mem _ hd)]
  rw [HeaderValue.text, hv, bytes_eq_flatMap, hlist _ hs, String.ofList_toList]

/-! ## Case -/

/-- What letter case cannot change holds of a text in any case. -/
theorem forall_mem_lowercase {P : Char → Prop} (hP : ∀ c, P c.toLower ↔ P c) (s : String) :
    (∀ c ∈ (toAsciiLowercase s).toList, P c) ↔ ∀ c ∈ s.toList, P c := by
  rw [toAsciiLowercase, String.toList_ofList]
  simp [hP]

theorem visibleChar_toLower (c : Char) : visibleChar c.toLower = true ↔ visibleChar c = true := by
  rcases toLower_cases c with h | ⟨hlo, hhi, hlow⟩
  · rw [h]
  · rw [visibleChar_iff, visibleChar_iff]
    omega

theorem toLower_ne_colon (c : Char) : c.toLower ≠ ':' ↔ c ≠ ':' := by
  rcases toLower_cases c with h | ⟨hlo, hhi, hlow⟩
  · rw [h]
  · refine iff_of_true ?_ ?_
    · intro h
      rw [h] at hlow
      have : ':'.toNat = 58 := rfl
      omega
    · rintro rfl
      have : ':'.toNat = 58 := rfl
      omega

theorem visible_lowercase {s : String} : Visible (toAsciiLowercase s) ↔ Visible s :=
  forall_mem_lowercase visibleChar_toLower s

theorem noColon_lowercase {s : String} : ':' ∉ (toAsciiLowercase s).toList ↔ ':' ∉ s.toList := by
  have h : (∀ c ∈ (toAsciiLowercase s).toList, c ≠ ':') ↔ ∀ c ∈ s.toList, c ≠ ':' :=
    forall_mem_lowercase toLower_ne_colon s
  constructor
  · intro hn hin
    exact h.1 (fun c hc heq => hn (heq ▸ hc)) _ hin rfl
  · intro hn hin
    exact h.2 (fun c hc heq => hn (heq ▸ hc)) _ hin rfl

/-! ## Hosts -/

/-- The only `Host` line is the name, up to ASCII case, with or without a port. -/
def NamesHost (headers : HeaderMap) (name : String) : Prop :=
  ∃ v spelled port, headers.getAll .host = [v] ∧ v.bytes = bytes (spelled ++ port) ∧
    toAsciiLowercase spelled = toAsciiLowercase name ∧
    (port = "" ∨ ∃ digits : String, port = ":" ++ digits ∧ digits.toList.all Char.isDigit = true)

variable {headers : HeaderMap} {name : String}

theorem hostOf_single {v : HeaderValue} (h : headers.getAll .host = [v]) :
    hostOf headers = v.toStr.map fun raw =>
      toAsciiLowercase (String.ofList (raw.toList.takeWhile (· ≠ ':'))) := by
  unfold hostOf
  rw [h]
  cases hs : v.toStr <;> simp [hs]

theorem visibleChar_digit {c : Char} (h : c.isDigit = true) : visibleChar c = true := by
  have hlo : '0'.val.toNat = 48 := rfl
  have hhi : '9'.val.toNat = 57 := rfl
  have hval : c.toNat = c.val.toNat := rfl
  simp only [Char.isDigit, ge_iff_le, Bool.and_eq_true, decide_eq_true_eq, UInt32.le_iff_toNat_le] at h
  rw [visibleChar_iff]
  omega

/-- A visible name without a colon is understood however it is spelled. -/
theorem hostOf_of_namesHost (h : NamesHost headers name) (hvis : Visible name)
    (hcolon : ':' ∉ name.toList) : hostOf headers = some (toAsciiLowercase name) := by
  obtain ⟨v, spelled, port, hget, hbytes, hcase, hport⟩ := h
  have hspelled : Visible spelled := by
    rw [← visible_lowercase, hcase, visible_lowercase]
    exact hvis
  have hsc : ':' ∉ spelled.toList := by
    rw [← noColon_lowercase, hcase, noColon_lowercase]
    exact hcolon
  have hpv : Visible port := by
    rcases hport with rfl | ⟨digits, rfl, hdigits⟩
    · nofun
    · intro c hc
      rw [String.toList_append, List.mem_append] at hc
      rcases hc with hc | hc
      · rw [show (":" : String).toList = [':'] from rfl, List.mem_singleton] at hc
        subst hc
        decide
      · exact visibleChar_digit (List.all_eq_true.1 hdigits c hc)
  have hall : Visible (spelled ++ port) := by
    intro c hc
    rw [String.toList_append, List.mem_append] at hc
    exact hc.elim (hspelled c) (hpv c)
  have htake : (spelled ++ port).toList.takeWhile (· ≠ ':') = spelled.toList := by
    have hnone : port.toList.takeWhile (· ≠ ':') = [] := by
      rcases hport with rfl | ⟨digits, rfl, -⟩
      · rfl
      · rw [String.toList_append]
        rfl
    rw [String.toList_append, List.takeWhile_append_of_pos, hnone, List.append_nil]
    intro c hc
    exact decide_eq_true fun heq => hsc (heq ▸ hc)
  rw [hostOf_single hget, HeaderValue.toStr, hbytes, if_pos (bytes_visible.2 hall), Option.map_some,
    text_of_visible hbytes hall, htake, String.ofList_toList, hcase]

/-- The plain spelling is read up to its first colon, and only if it is visible. -/
theorem hostOf_plain {v : HeaderValue} {host : String} (hget : headers.getAll .host = [v])
    (hbytes : v.bytes = bytes name) (h : hostOf headers = some host) :
    Visible name ∧ host = toAsciiLowercase (String.ofList (name.toList.takeWhile (· ≠ ':'))) := by
  rw [hostOf_single hget, HeaderValue.toStr, hbytes] at h
  split at h
  · rename_i hall
    have hvis := bytes_visible.1 hall
    rw [Option.map_some, Option.some_inj, text_of_visible hbytes hvis] at h
    exact ⟨hvis, h.symm⟩
  · cases h

theorem noColon_upToColon (s : String) :
    ':' ∉ (toAsciiLowercase (String.ofList (s.toList.takeWhile (· ≠ ':')))).toList := by
  rw [noColon_lowercase, String.toList_ofList]
  intro hin
  have hne := List.mem_takeWhile_imp hin
  simp at hne

theorem isTunnelHost_of_labelOf {domain host l : String} (h : labelOf domain host = some l) :
    isTunnelHost domain host = true ∧ host ≠ connectHost domain ∧ host ≠ domain := by
  obtain ⟨rfl, hv⟩ := labelOf_eq_some.1 h
  obtain ⟨hne, hdot⟩ := validateLabel_ok hv
  have hreserved : l ∉ reservedLabels := by
    intro hin
    have hnone : ∀ label ∈ reservedLabels, validateLabel label ≠ .ok () := by decide
    exact hnone l hin hv
  have hconnect : fqdn domain l ≠ connectHost domain := by
    intro heq
    exact hreserved (fqdn_injective domain heq ▸ by decide)
  have hapex : fqdn domain l ≠ domain := by
    intro heq
    have hlen := congrArg String.length heq
    rw [fqdn, String.length_append, String.length_append] at hlen
    have : ("." : String).length = 1 := rfl
    omega
  refine ⟨?_, hconnect, hapex⟩
  have hstrip : stripSuffix (fqdn domain l) ("." ++ domain) = some l := stripSuffix_eq_some.2 rfl
  rw [isTunnelHost, if_neg (not_or.2 ⟨hconnect, hapex⟩), hstrip]
  simp [hne, hdot, hreserved]

/-- A tunnel host ends in the domain. -/
theorem isTunnelHost_suffix {domain host : String} (h : isTunnelHost domain host = true) :
    ∃ label, host = label ++ ("." ++ domain) := by
  unfold isTunnelHost at h
  split at h
  · cases h
  · split at h
    · cases h
    · rename_i label hlabel
      exact ⟨label, stripSuffix_eq_some.1 hlabel⟩

theorem route_eq_proxy {domain host : String} (h : route domain headers = .proxy host) :
    hostOf headers = some host ∧ isTunnelHost domain host = true := by
  unfold route at h
  dsimp only at h
  split at h
  · cases h
  · split at h
    · cases h
    · cases hhost : hostOf headers with
      | none =>
        rw [hhost] at h
        cases h
      | some host' =>
        rw [hhost] at h
        dsimp only at h
        split at h
        · cases h
          exact ⟨rfl, ‹_›⟩
        · cases h

theorem route_of_labelOf {domain host l : String} (hhost : hostOf headers = some host)
    (hl : labelOf domain host = some l) : route domain headers = .proxy host := by
  obtain ⟨htunnel, hconnect, hapex⟩ := isTunnelHost_of_labelOf hl
  unfold route
  rw [hhost]
  simp [hconnect, hapex, htunnel]

section visit

variable {domain : String} {router : Router} {peerIp : IpAddr} {peerPort : UInt16}
  {session : SessionHandle} {preamble : List UInt8}

theorem visit_of_route {host : String} (hroute : route domain headers = .proxy host)
    (hget : router.get (.host host) = some session)
    (hwrite : writeFrame StreamHeader.wire [] (.http host peerIp peerPort) maxStreamHeader = .ok preamble) :
    visit domain router headers peerIp peerPort = some (session, preamble) := by
  rw [visit, hroute]
  dsimp only
  rw [proxyHttp, hget]
  dsimp only
  rw [hwrite]

theorem visit_eq_some
    (h : visit domain router headers peerIp peerPort = some (session, preamble)) :
    ∃ host, hostOf headers = some host ∧ isTunnelHost domain host = true ∧
      writeFrame StreamHeader.wire [] (.http host peerIp peerPort) maxStreamHeader = .ok preamble := by
  unfold visit at h
  cases hroute : route domain headers with
  | control | apex | notFound =>
    rw [hroute] at h
    cases h
  | proxy host =>
    obtain ⟨hhost, htunnel⟩ := route_eq_proxy hroute
    refine ⟨host, hhost, htunnel, ?_⟩
    rw [hroute] at h
    dsimp only [proxyHttp] at h
    cases hget : router.get (.host host) with
    | none =>
      rw [hget] at h
      cases h
    | some s =>
      rw [hget] at h
      cases hwrite : writeFrame StreamHeader.wire [] (.http host peerIp peerPort) maxStreamHeader with
      | error e =>
        rw [hwrite] at h
        cases h
      | ok out =>
        rw [hwrite] at h
        cases h
        rfl

end visit

/-- A host without a colon is under a domain without one, and so is every name there. -/
theorem noColon_of_isTunnelHost {domain host l : String} (hhost : ':' ∉ host.toList)
    (htunnel : isTunnelHost domain host = true) (hl : labelOf domain (toAsciiLowercase name) = some l) :
    ':' ∉ name.toList := by
  obtain ⟨label, rfl⟩ := isTunnelHost_suffix htunnel
  obtain ⟨hname, hvalid⟩ := labelOf_eq_some.1 hl
  rw [← noColon_lowercase, hname, fqdn, String.toList_append, List.mem_append]
  rintro (hin | hin)
  · exact validateLabel_noColon hvalid hin
  · rw [String.toList_append, List.mem_append] at hhost
    exact hhost (.inr hin)

/-! ### Names that can stand in a header -/

theorem utf8EncodeChar_letter {c : Char} (hlo : 65 ≤ c.toNat) (hhi : c.toNat ≤ 122) :
    (String.utf8EncodeChar c).all valueByte = true := by
  have hn : (UInt8.ofNat c.toNat).toNat = c.toNat := by
    rw [UInt8.toNat_ofNat', Nat.mod_eq_of_lt (by omega)]
  rw [utf8EncodeChar_ascii (by omega), List.all_cons, List.all_nil, Bool.and_true]
  simp only [valueByte, Bool.or_eq_true, Bool.and_eq_true, decide_eq_true_eq, UInt8.le_iff_toNat_le,
    bne_iff_ne, ne_eq, ← UInt8.toNat_inj, hn]
  refine .inl ⟨?_, ?_⟩
  · exact le_trans (by decide) hlo
  · have : (127 : UInt8).toNat = 127 := rfl
    omega

theorem valueByte_toLower (c : Char) : (String.utf8EncodeChar c.toLower).all valueByte = true ↔
    (String.utf8EncodeChar c).all valueByte = true := by
  rcases toLower_cases c with h | ⟨hlo, hhi, hlow⟩
  · rw [h]
  · exact iff_of_true (utf8EncodeChar_letter (by omega) (by omega))
      (utf8EncodeChar_letter hlo (by omega))

theorem bytes_valueByte {s : String} : (bytes s).all valueByte = true ↔
    ∀ c ∈ s.toList, (String.utf8EncodeChar c).all valueByte = true := by
  rw [bytes_eq_flatMap, List.all_flatMap, List.all_eq_true]

/-- A name in a `Host` line, in whatever case, is a header value. -/
theorem NamesHost.fromStr (h : NamesHost headers name) : (HeaderValue.fromStr name).isSome := by
  obtain ⟨v, spelled, port, -, hbytes, hcase, -⟩ := h
  have hspelled : (bytes spelled).all valueByte = true := by
    have hall := v.valid
    rw [hbytes, bytes_valueByte] at hall
    rw [bytes_valueByte]
    intro c hc
    exact hall c (by rw [String.toList_append]; exact List.mem_append_left _ hc)
  have hname : (bytes name).all valueByte = true := by
    rw [bytes_valueByte, ← forall_mem_lowercase valueByte_toLower, ← hcase,
      forall_mem_lowercase valueByte_toLower, ← bytes_valueByte]
    exact hspelled
  rw [HeaderValue.fromStr, dif_pos hname]
  rfl

/-- The plain request for a name. -/
theorem namesHost_plain {v : HeaderValue} (h : HeaderValue.fromStr name = some v) :
    NamesHost ⟨[(.host, v)]⟩ name ∧ v.bytes = bytes name := by
  have hbytes : v.bytes = bytes name := by
    unfold HeaderValue.fromStr at h
    split at h
    · cases h
      rfl
    · cases h
  refine ⟨⟨v, name, "", rfl, ?_, rfl, .inl rfl⟩, hbytes⟩
  rw [hbytes, String.append_empty]

end EtherTunnel
