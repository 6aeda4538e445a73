import EtherTunnel.Proxy.Route
import EtherTunnel.Session.Claim

/-!
# The four readings of a hostname

A name is read in four places: `Registry::label_of` decides who may claim it, `Config::is_tunnel_host`
whether a visitor is sent to it, and `owned_hostnames` (`registry.rs:410`) and `tear_down_routes`
(`polar.rs:929`) write it again from the stored label. `hostname_gates_agree` says that they mean the
same name, for every domain: the configuration puts no condition on `domain`.

The router answers for the name it is given. A domain that no `Host` line can spell (one with a colon,
or one that is not visible ASCII) has names that pass every gate and that no request carries.
-/

namespace EtherTunnel

/-- What `validate_label` accepts, on bytes. -/
structure ValidLabel (label : String) : Prop where
  length : 1 ≤ (bytes label).length ∧ (bytes label).length ≤ 63
  chars : ∀ b ∈ bytes label, (97 ≤ b ∧ b ≤ 122) ∨ (48 ≤ b ∧ b ≤ 57) ∨ b = 45
  first : (bytes label).head? ≠ some 45
  last : (bytes label).getLast? ≠ some 45
  free : label ∉ reservedLabels

theorem okEdge_iff {b : UInt8} : okEdge b = true ↔ (97 ≤ b ∧ b ≤ 122) ∨ (48 ≤ b ∧ b ≤ 57) := by
  simp [okEdge]

theorem okByte_iff {b : UInt8} :
    okByte b = true ↔ (97 ≤ b ∧ b ≤ 122) ∨ (48 ≤ b ∧ b ≤ 57) ∨ b = 45 := by
  rw [okByte, Bool.or_eq_true, okEdge_iff, beq_iff_eq, or_assoc]

/-- Among the bytes of a label, the hyphen is the one that may not stand at an edge. -/
theorem okEdge_of_okByte {b : UInt8} (h : okByte b = true) : okEdge b = true ↔ b ≠ 45 := by
  constructor
  · rintro hedge rfl
    cases hedge
  · intro hne
    rw [okByte, Bool.or_eq_true, beq_iff_eq] at h
    exact h.resolve_right hne

theorem validateLabel_iff {label : String} : validateLabel label = .ok () ↔ ValidLabel label := by
  have hedges : ∀ b bs, bytes label = b :: bs → (∀ b ∈ bytes label, okByte b = true) →
      ((okEdge ((bytes label).headD 0) = true ↔ (bytes label).head? ≠ some 45) ∧
        (okEdge ((bytes label).getLastD 0) = true ↔ (bytes label).getLast? ≠ some 45)) := by
    intro b bs hbs hall
    have hlast : (bytes label).getLast? = some ((bytes label).getLastD 0) := by
      rw [hbs, List.getLastD_cons, List.getLast?_cons, List.getLastD_eq_getLast?]
    have hhead : (bytes label).head? = some ((bytes label).headD 0) := by rw [hbs]; rfl
    rw [hhead, hlast, ne_eq, Option.some_inj, ne_eq, Option.some_inj]
    exact ⟨okEdge_of_okByte (hall _ (List.mem_of_head? hhead)),
      okEdge_of_okByte (hall _ (List.mem_of_getLast? hlast))⟩
  cases hbs : bytes label with
  | nil =>
    refine iff_of_false (fun h => ?_) fun h => ?_
    · simp [validateLabel, hbs] at h
    · have := h.length.1
      rw [hbs] at this
      cases this
  | cons b bs =>
    constructor
    · intro h
      have hall := (validateLabel_bytes h).2
      obtain ⟨hfirst, hlast⟩ := hedges b bs hbs hall
      simp only [validateLabel] at h
      split at h
      · cases h
      · rename_i hlen
        split at h
        · cases h
        · rename_i hedge
          split at h
          · cases h
          · split at h
            · cases h
            · rename_i hfree
              rw [Bool.or_eq_true, not_or, Bool.not_eq_true', Bool.not_eq_true', Bool.not_eq_false,
                Bool.not_eq_false] at hedge
              refine ⟨⟨?_, ?_⟩, fun b hb => okByte_iff.1 (hall b hb), hfirst.1 hedge.1, hlast.1 hedge.2,
                hfree⟩
              · rw [hbs, List.length_cons]
                omega
              · exact Nat.le_of_not_lt fun hlong => hlen (.inr hlong)
    · intro h
      have hall : ∀ b ∈ bytes label, okByte b = true := fun b hb => okByte_iff.2 (h.chars b hb)
      obtain ⟨hfirst, hlast⟩ := hedges b bs hbs hall
      have hlen : ¬ (bytes label = [] ∨ 63 < (bytes label).length) := by
        have := h.length
        rw [hbs] at this ⊢
        rintro (hnil | hlong)
        · cases hnil
        · omega
      simp only [validateLabel]
      rw [if_neg hlen, hfirst.2 h.first, hlast.2 h.last, List.all_eq_true.2 hall, if_neg h.free]
      rfl

/-! ## The name of an admitted label -/

/-- What the rest of the relay makes of a name and its label. -/
structure Admitted (domain h l : String) : Prop where
  tunnel : isTunnelHost domain h = true
  notApex : h ≠ domain
  notConnect : h ≠ connectHost domain
  owned : ∀ db u, h ∈ Registry.ownedHostnames [] db domain u ↔
    ∃ r ∈ db.hostnames, r.userId = u ∧ r.label = l
  tornDown : ∀ router labels ports, (tearDownRoutes domain router labels ports).1.get (.host h) =
    if l ∈ labels then none else router.get (.host h)
  routed : ∀ headers, hostOf headers = some h → route domain headers = .proxy h

variable {domain h l : String}

theorem get_tearDownRoutes (router : Router) (labels : List String) (ports : List UInt16) :
    (tearDownRoutes domain router labels ports).1.get (.host (fqdn domain l)) =
      if l ∈ labels then none else router.get (.host (fqdn domain l)) := by
  have hmem : (Resource.host (fqdn domain l)) ∈ resources (labels.map (fqdn domain)) ports ↔ l ∈ labels := by
    rw [host_mem_resources, List.mem_map_of_injective (fqdn_injective domain)]
  rw [tearDownRoutes, Router.get_evictRoutes]
  simp only [hmem]

theorem admitted_of_labelOf (hl : labelOf domain h = some l) : Admitted domain h l := by
  obtain ⟨htunnel, hconnect, hapex⟩ := isTunnelHost_of_labelOf hl
  refine ⟨htunnel, hapex, hconnect, fun db u => ?_, fun router labels ports => ?_, fun headers hhost => ?_⟩
  · obtain ⟨rfl, -⟩ := labelOf_eq_some.1 hl
    rw [mem_ownedHostnames]
    simp only [(fqdn_injective domain).eq_iff]
  · obtain ⟨rfl, -⟩ := labelOf_eq_some.1 hl
    exact get_tearDownRoutes router labels ports
  · exact route_of_labelOf hhost hl

/-! ## Keys that are routed, labels that are pruned -/

/-- A claim routes lowercased names with a label. -/
theorem labelOf_of_routed {ctx : SessionCtx} {io : ClaimIo} {relay : Relay} {handle : SessionHandle}
    {user : AuthedUser} {token : String} {hostnames : List String} {ports : List UInt16}
    (hnew : (ctx.handleClaim io relay handle user token hostnames ports).2.2.router.get (.host h) ≠
      relay.router.get (.host h)) :
    (∃ l, labelOf ctx.domain h = some l) ∧ toAsciiLowercase h = h := by
  have hrun := (handleClaim_run ctx io relay handle user token hostnames ports).1
  generalize ctx.handleClaim io relay handle user token hostnames ports = res at hrun hnew
  cases hrun with
  | refused why hsplit hrouter hreg => exact absurd (by rw [hrouter]) hnew
  | granted notices hports hrouter hreg =>
    by_cases hin : Resource.host h ∈ resources (hostnames.map toAsciiLowercase) ports
    · rw [host_mem_resources] at hin
      obtain ⟨l, hl, -⟩ := Db.owns_host_iff.1 (hreg.owned h hin)
      obtain ⟨spelled, -, rfl⟩ := List.mem_map.1 hin
      exact ⟨⟨l, hl⟩, toAsciiLowercase_idem spelled⟩
    · refine absurd ?_ hnew
      rw [hrouter, Router.get_claim, if_neg hin]

theorem visible_of_validateLabel (hvalid : validateLabel l = .ok ()) : Visible l := by
  rw [← bytes_visible, List.all_eq_true]
  intro b hb
  have hok := okByte_iff.1 ((validateLabel_bytes hvalid).2 b hb)
  simp only [UInt8.le_iff_toNat_le, ← UInt8.toNat_inj] at hok
  have hlo : 32 ≤ b.toNat ∧ b.toNat < 127 := by
    rcases hok with ⟨h1, h2⟩ | ⟨h1, h2⟩ | h1
    · exact ⟨le_trans (by decide) h1, lt_of_le_of_lt h2 (by decide)⟩
    · exact ⟨le_trans (by decide) h1, lt_of_le_of_lt h2 (by decide)⟩
    · rw [h1]
      decide
  rw [← UInt8.ofNat_toNat (x := b), visibleAscii_ofNat b.toNat_lt]
  exact .inl hlo

/-- A name under a domain that a `Host` line can spell is reached by everyone who asks for it. -/
theorem route_of_namesHost {headers : HeaderMap} (hl : labelOf domain h = some l)
    (hlower : toAsciiLowercase h = h) (hvis : Visible domain) (hcolon : ':' ∉ domain.toList)
    (hnames : NamesHost headers h) : route domain headers = .proxy h := by
  obtain ⟨rfl, hvalid⟩ := labelOf_eq_some.1 hl
  have hname : Visible (fqdn domain l) := by
    intro c hc
    rw [fqdn, String.toList_append, String.toList_append, List.mem_append, List.mem_append] at hc
    rcases hc with hc | hc | hc
    · exact visible_of_validateLabel hvalid c hc
    · obtain rfl : c = '.' := List.mem_singleton.1 hc
      decide
    · exact hvis c hc
  have hnone : ':' ∉ (fqdn domain l).toList := by
    rw [fqdn, String.toList_append, String.toList_append, List.mem_append, List.mem_append]
    rintro (hc | hc | hc)
    · exact validateLabel_noColon hvalid hc
    · exact absurd (List.mem_singleton.1 hc) (by decide)
    · exact hcolon hc
  refine route_of_labelOf ?_ hl
  rw [hostOf_of_namesHost hnames hname hnone, hlower]

theorem reconcileUserCap_tornDown {faults : Faults} {live : Live} {u cap : Int} {labels : List String}
    {ports : List UInt16} {db : Db}
    (hrun : Txn.run faults (pruneOwnedToCap u cap) live.db = (.ok (labels, ports), db)) (hmem : l ∈ labels)
    (hl : labelOf domain h = some l) :
    (reconcileUserCap domain faults live u cap).1.router.get (.host h) = none := by
  have hsome : ¬ (labels = [] ∧ ports = []) := by
    rintro ⟨rfl, -⟩
    cases hmem
  rw [reconcileUserCap, hrun]
  dsimp only
  rw [if_neg hsome]
  dsimp only
  rw [(admitted_of_labelOf hl).tornDown, if_pos hmem]

/-- **The hostname gates agree.** `label_of` answers a label for exactly its name under the domain, if
`validate_label` accepts it, and that is a matter of its bytes and the reserved list. Such a name passes
`is_tunnel_host`, is neither the apex nor the control host, and is what `owned_hostnames` and
`tear_down_routes` write for the label. So a key that a claim has routed is one the listener sends to
the proxy, and the label of a key that is pruned takes that very key with it. -/
theorem hostname_gates_agree (domain h : String) :
    (∀ l, labelOf domain h = some l ↔ h = l ++ "." ++ domain ∧ validateLabel l = .ok ()) ∧
    (∀ l, validateLabel l = .ok () ↔ ValidLabel l) ∧
    (∀ l, labelOf domain h = some l → Admitted domain h l) ∧
    (∀ (ctx : SessionCtx) (io : ClaimIo) (relay : Relay) (handle : SessionHandle) (user : AuthedUser)
        (token : String) (hostnames : List String) (ports : List UInt16), ctx.domain = domain →
      (ctx.handleClaim io relay handle user token hostnames ports).2.2.router.get (.host h) ≠
        relay.router.get (.host h) →
      (∃ l, labelOf domain h = some l) ∧
      (∀ headers, hostOf headers = some h → route domain headers = .proxy h) ∧
      (Visible domain → ':' ∉ domain.toList →
        ∀ headers, NamesHost headers h → route domain headers = .proxy h)) ∧
    (∀ (faults : Faults) (live : Live) (u cap : Int) (labels : List String) (ports : List UInt16)
        (db : Db) (l : String),
      Txn.run faults (pruneOwnedToCap u cap) live.db = (.ok (labels, ports), db) → l ∈ labels →
      labelOf domain h = some l →
      (reconcileUserCap domain faults live u cap).1.router.get (.host h) = none) := by
  refine ⟨fun l => ?_, fun l => validateLabel_iff, fun l => admitted_of_labelOf, ?_, ?_⟩
  · rw [labelOf_eq_some, fqdn, String.append_assoc]
  · rintro ctx io relay handle user token hostnames ports rfl hnew
    obtain ⟨⟨l, hl⟩, hlower⟩ := labelOf_of_routed hnew
    exact ⟨⟨l, hl⟩, (admitted_of_labelOf hl).routed,
      fun hvis hcolon headers => route_of_namesHost hl hlower hvis hcolon⟩
  · intro faults live u cap labels ports db l hrun hmem hl
    exact reconcileUserCap_tornDown hrun hmem hl

theorem hostname_gates_agree_myApp : labelOf "d.io" "my-app.d.io" = some "my-app" ∧
    Admitted "d.io" "my-app.d.io" "my-app" :=
  ⟨by decide, (hostname_gates_agree _ _).2.2.1 _ (by decide)⟩

end EtherTunnel
