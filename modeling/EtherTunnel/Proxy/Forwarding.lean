import EtherTunnel.Proxy.Route

/-!
# The forwarding headers

| here | there |
| --- | --- |
| `IpAddr.text` | `IpAddr::to_string`, as `scrub_request` writes it (`proxy.rs:506`) |
| `segments`, `zeroSpan` | `Ipv6Addr::segments` and the search for the run that `::` stands for in its `Display` |

`scrub_request` drops what the visitor says of the forwarding names and says it again itself. The order
matters: the tokens of `Connection` are worked off first, so that a visitor who nominates
`X-Forwarded-For` removes their own line and not the relay's. `forwarding_not_spoofable` is the statement
about two requests: what they say of the four names makes no difference to what is forwarded.
-/

namespace EtherTunnel

/-! ## Addresses as text -/

def dotted (octets : List UInt8) : String := ".".intercalate (octets.map fun b => toString b.toNat)

def segments : List UInt8 → List Nat
  | hi :: lo :: rest => (256 * hi.toNat + lo.toNat) :: segments rest
  | _ => []

/-- The first of the longest runs of zeros, as its start and its length. -/
def zeroSpan : List Nat → Nat → Nat × Nat → Nat × Nat → Nat × Nat
  | [], _, _, longest => longest
  | segment :: rest, i, current, longest =>
    if segment = 0 then
      let current := (if current.2 = 0 then i else current.1, current.2 + 1)
      zeroSpan rest (i + 1) current (if longest.2 < current.2 then current else longest)
    else zeroSpan rest (i + 1) (0, 0) longest

def fmtSubslice (chunk : List Nat) : String :=
  ":".intercalate (chunk.map fun n => String.ofList (Nat.toDigits 16 n))

def IpAddr.text : IpAddr → String
  | .v4 octets => dotted octets.toList
  | .v6 octets =>
    -- `to_ipv4_mapped`
    if octets.toList.take 12 = [0, 0, 0, 0, 0, 0, 0, 0, 0, 0, 255, 255] then
      "::ffff:" ++ dotted (octets.toList.drop 12)
    else
      let segments := segments octets.toList
      let (start, len) := zeroSpan segments 0 (0, 0) (0, 0)
      if 1 < len then fmtSubslice (segments.take start) ++ "::" ++ fmtSubslice (segments.drop (start + len))
      else fmtSubslice segments

example : (IpAddr.v4 #v[203, 0, 113, 7]).text = "203.0.113.7" ∧
    (IpAddr.v6 #v[0x20, 1, 0xd, 0xb8, 0, 0, 0, 1, 0, 0, 0, 0, 0, 0, 0, 0x2a]).text = "2001:db8:0:1::2a" ∧
    (IpAddr.v6 #v[0, 0, 0, 0, 0, 0, 0, 0, 0, 0, 255, 255, 10, 0, 0, 1]).text = "::ffff:10.0.0.1" := by
  decide

theorem visibleChar_digitChar (n : Nat) : visibleChar n.digitChar = true := by
  by_cases h : n < 16
  · have hall : ∀ n < 16, visibleChar n.digitChar = true := by decide
    exact hall n h
  · have hstar : n.digitChar = '*' := by
      unfold Nat.digitChar
      repeat rw [if_neg (by omega)]
    rw [hstar]
    decide

theorem visibleChar_toDigits {b n : Nat} (hb : 1 < b) :
    ∀ c ∈ Nat.toDigits b n, visibleChar c = true := by
  induction n using Nat.strongRecOn with
  | ind n ih =>
    intro c hc
    rw [Nat.toDigits_eq_if hb] at hc
    split at hc
    · rw [List.mem_singleton.1 hc]
      exact visibleChar_digitChar n
    · rename_i hn
      rcases List.mem_append.1 hc with hc | hc
      · exact ih (n / b) (Nat.div_lt_self (by omega) hb) c hc
      · rw [List.mem_singleton.1 hc]
        exact visibleChar_digitChar _

theorem Visible.append {s t : String} (hs : Visible s) (ht : Visible t) : Visible (s ++ t) := by
  intro c hc
  rw [String.toList_append, List.mem_append] at hc
  exact hc.elim (hs c) (ht c)

theorem Visible.intercalate {s : String} (hs : Visible s) :
    ∀ {l : List String}, (∀ t ∈ l, Visible t) → Visible (s.intercalate l)
  | [], _ => by
    rw [String.intercalate_nil]
    decide
  | [t], h => by
    rw [String.intercalate_singleton]
    exact h t List.mem_cons_self
  | t :: u :: l, h => by
    rw [String.intercalate_cons_cons]
    exact ((h t List.mem_cons_self).append hs).append
      (Visible.intercalate hs fun v hv => h v (List.mem_cons_of_mem _ hv))

theorem visible_dotted (octets : List UInt8) : Visible (dotted octets) := by
  refine Visible.intercalate (by decide) fun t ht => ?_
  obtain ⟨b, -, rfl⟩ := List.mem_map.1 ht
  intro c hc
  rw [Nat.toString_eq_repr, Nat.toList_repr] at hc
  exact visibleChar_toDigits (by decide) c hc

theorem visible_fmtSubslice (chunk : List Nat) : Visible (fmtSubslice chunk) := by
  refine Visible.intercalate (by decide) fun t ht => ?_
  obtain ⟨n, -, rfl⟩ := List.mem_map.1 ht
  intro c hc
  rw [String.toList_ofList] at hc
  exact visibleChar_toDigits (by decide) c hc

theorem IpAddr.visible_text (ip : IpAddr) : Visible ip.text := by
  cases ip with
  | v4 octets => exact visible_dotted _
  | v6 octets =>
    unfold IpAddr.text
    dsimp only
    split
    · exact Visible.append (by decide) (visible_dotted _)
    · split
      · exact ((visible_fmtSubslice _).append (by decide)).append (visible_fmtSubslice _)
      · exact visible_fmtSubslice _

theorem valueByte_of_visibleAscii {b : UInt8} (h : visibleAscii b = true) : valueByte b = true := by
  simp only [visibleAscii, valueByte, Bool.or_eq_true, Bool.and_eq_true, decide_eq_true_eq, bne_iff_ne] at h ⊢
  refine h.imp_left fun hb => ⟨hb.1, fun heq => ?_⟩
  rw [heq] at hb
  exact absurd hb.2 (by decide)

/-- Visible text is a header value. -/
theorem Visible.fromStr {s : String} (hs : Visible s) : (HeaderValue.fromStr s).isSome := by
  have hall : (bytes s).all valueByte = true := by
    rw [List.all_eq_true]
    intro b hb
    exact valueByte_of_visibleAscii (List.all_eq_true.1 (bytes_visible.2 hs) b hb)
  rw [HeaderValue.fromStr, dif_pos hall]
  rfl

/-! ## The lines that are added -/

theorem forwarded_valid : "forwarded" ≠ "" ∧ "forwarded".toList.all headerChar = true := by decide

def HeaderName.forwarded : HeaderName := ⟨"forwarded", forwarded_valid⟩

/-- What the relay says of where a request comes from. -/
structure Attested (sent : HeaderMap) (peerIp : IpAddr) (hostname : String) : Prop where
  peer : (sent.getAll .xForwardedFor).map (·.bytes) = [bytes peerIp.text]
  scheme : (sent.getAll .xForwardedProto).map (·.bytes) = [bytes "https"]
  forwarded : sent.getAll .forwarded = []
  host : (HeaderValue.fromStr hostname).isSome →
    (sent.getAll .xForwardedHost).map (·.bytes) = [bytes hostname]

theorem getAll_rewritten (peerIp hostname : String) (name : HeaderName) :
    (rewritten peerIp hostname).getAll name =
      if name = .xForwardedHost then (HeaderValue.fromStr hostname).toList
      else if name = .xForwardedProto then [https]
      else if name = .xForwardedFor then (HeaderValue.fromStr peerIp).toList
      else [] := by
  have hproto : HeaderName.xForwardedHost ≠ .xForwardedProto := by decide
  have hfor : HeaderName.xForwardedHost ≠ .xForwardedFor := by decide
  have hnone : ∀ n, (⟨[]⟩ : HeaderMap).getAll n = [] := fun _ => rfl
  unfold rewritten addForwarding
  simp only [getAll_insertText, Multimap.getAll_insert, hproto, hfor, hnone, if_false]
  cases HeaderValue.fromStr hostname <;> cases HeaderValue.fromStr peerIp <;> rfl

theorem map_bytes_fromStr {s : String} (h : (HeaderValue.fromStr s).isSome) :
    (HeaderValue.fromStr s).toList.map (·.bytes) = [bytes s] := by
  unfold HeaderValue.fromStr at h ⊢
  split at h
  · rename_i hall
    rw [dif_pos hall]
    rfl
  · cases h

variable {headers other : HeaderMap} {upgrading : Bool} {peerIp : IpAddr} {hostname : String}

theorem attested_scrubRequest : Attested (scrubRequest headers peerIp.text hostname upgrading) peerIp hostname := by
  have hget : ∀ n ∈ forwarding, (scrubRequest headers peerIp.text hostname upgrading).getAll n =
      (rewritten peerIp.text hostname).getAll n := by
    intro n hn
    rw [getAll_scrubRequest, if_pos hn]
  refine ⟨?_, ?_, ?_, fun hlegal => ?_⟩
  · rw [hget _ (by decide), getAll_rewritten, if_neg (by decide), if_neg (by decide), if_pos rfl]
    exact map_bytes_fromStr peerIp.visible_text.fromStr
  · rw [hget _ (by decide), getAll_rewritten, if_neg (by decide), if_pos rfl]
    rfl
  · rw [hget _ (by decide), getAll_rewritten, if_neg (by decide), if_neg (by decide), if_neg (by decide)]
  · rw [hget _ (by decide), getAll_rewritten, if_pos rfl]
    exact map_bytes_fromStr hlegal

/-! ## Two requests -/

/-- The requests differ in what they say of the forwarding names only. -/
def SameButForwarding (headers other : HeaderMap) : Prop :=
  ∀ n, n ∉ forwarding → headers.getAll n = other.getAll n

/-- Which names go is read off `Connection` and `Transfer-Encoding`. -/
theorem SameButForwarding.stripped (h : SameButForwarding headers other) (name : HeaderName) :
    Stripped headers upgrading name ↔ Stripped other upgrading name := by
  have hlisted : listed headers = listed other := by
    have hconn := h .connection (by decide)
    rw [listed, listed, Multimap.get, hconn, Multimap.get]
  have hte : headers.contains .transferEncoding = true ↔ other.contains .transferEncoding = true := by
    rw [Multimap.contains_iff_getAll, Multimap.contains_iff_getAll, h .transferEncoding (by decide)]
  unfold Stripped DropsLength
  rw [hlisted, hte]

theorem SameButForwarding.scrubRequest (h : SameButForwarding headers other) (peer : String)
    (name : HeaderName) :
    (EtherTunnel.scrubRequest headers peer hostname upgrading).getAll name =
      (EtherTunnel.scrubRequest other peer hostname upgrading).getAll name := by
  classical
  rw [getAll_scrubRequest, getAll_scrubRequest]
  by_cases hname : name ∈ forwarding
  · rw [if_pos hname, if_pos hname]
  · rw [if_neg hname, if_neg hname, getAll_stripHopByHop, getAll_stripHopByHop, h name hname]
    simp only [h.stripped]

/-- **The forwarding headers cannot be spoofed.** Whatever lines a request has, the one that is sent on
names the peer, `https` and the routed host, once each, and has no `Forwarded`; and of two requests that
differ in the forwarding names only, the same is sent on. -/
theorem forwarding_not_spoofable (headers : HeaderMap) (peerIp : IpAddr) (hostname : String)
    (upgrading : Bool) :
    Attested (scrubRequest headers peerIp.text hostname upgrading) peerIp hostname ∧
    ∀ other, SameButForwarding headers other → ∀ name,
      (scrubRequest headers peerIp.text hostname upgrading).getAll name =
        (scrubRequest other peerIp.text hostname upgrading).getAll name :=
  ⟨attested_scrubRequest, fun _ h name => h.scrubRequest peerIp.text name⟩

/-- An upgrade that says it comes from elsewhere, and nominates the header it says it in. -/
def spoofedRequest : HeaderMap :=
  ⟨websocketRequest.lines ++ [(.xForwardedFor, ⟨bytes "10.0.0.1", by decide⟩),
    (.xForwardedFor, ⟨bytes "10.0.0.2", by decide⟩), (.forwarded, ⟨bytes "for=10.0.0.1", by decide⟩)]⟩

theorem forwarding_not_spoofable_spoofed : SameButForwarding spoofedRequest websocketRequest ∧
    (scrubRequest spoofedRequest (IpAddr.v4 #v[203, 0, 113, 7]).text "app.t.example" true).getAll
        .xForwardedFor =
      (scrubRequest websocketRequest (IpAddr.v4 #v[203, 0, 113, 7]).text "app.t.example" true).getAll
        .xForwardedFor := by
  have hsame : SameButForwarding spoofedRequest websocketRequest := by
    intro n hn
    have hfor : HeaderName.xForwardedFor ≠ n := fun h => hn (h ▸ by decide)
    have hfwd : HeaderName.forwarded ≠ n := fun h => hn (h ▸ by decide)
    rw [Multimap.getAll, spoofedRequest, List.filter_append, List.map_append, Multimap.getAll]
    simp [hfor, hfwd]
  exact ⟨hsame, (forwarding_not_spoofable _ _ _ _).2 _ hsame _⟩

end EtherTunnel
