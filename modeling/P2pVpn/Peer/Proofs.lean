import P2pVpn.Addr.Schemes
import P2pVpn.Addr.Subnet
import P2pVpn.Config
import P2pVpn.Peer.Control

set_option autoImplicit false

/-! # Which addresses a peer accepts

The loop of `validate_addresses` is characterized by membership (`mem_validateAddresses_iff`), the
request handler by its result (`handleControlRequest_ok_iff`). On top of these:

* what an accepted `Advertise` can contain under the default allowed networks, in terms of the
  prefix lengths the peer chose to sign (`handleControlRequest_owned_iff`);
* the `Advertise` a node builds for itself is accepted exactly when its configuration is
  (`ownAdvertise_accepted_iff_configured`). -/

namespace P2pVpn

section

variable {SecretKey PublicKey Signature : Type} (L : Library SecretKey PublicKey Signature)

/-! ## Specifications of the loop and the handler -/

theorem validateAddress_ok_iff (host : HostAddress) (key : PublicKey) (net : IpNet) :
    validateAddress L host key = .ok net ↔
      L.parseNet host.peerNetwork = some net ∧
        ∃ sig, L.scheme.tryFrom host.peerNetworkSignature = some sig ∧
          verifySignedIpnet L.scheme net key sig = .ok () := by
  unfold validateAddress
  cases hparse : L.parseNet host.peerNetwork with
  | none => simp
  | some n =>
      cases hsig : L.scheme.tryFrom host.peerNetworkSignature with
      | none => simp
      | some sig =>
          cases hver : verifySignedIpnet L.scheme n key sig with
          | error e =>
              simp only [hver, reduceCtorEq, false_iff, Option.some.injEq, not_and, not_exists]
              rintro rfl sig' rfl h
              exact absurd (hver.symm.trans h) (by simp)
          | ok u =>
              simp only [hver, Except.ok.injEq, Option.some.injEq]
              constructor
              · rintro rfl
                exact ⟨rfl, sig, rfl, hver⟩
              · exact fun h => h.1

theorem mem_foldl_validateStep (allowed : List IpNet) (key : PublicKey) (hosts : List HostAddress)
    (acc : List IpNet × List AddrErrorContext) (net : IpNet) :
    net ∈ (hosts.foldl (validateStep L allowed key) acc).1 ↔
      net ∈ acc.1 ∨ ∃ host ∈ hosts, validateAddress L host key = .ok net ∧
        isSubnetOfAny net allowed = true := by
  induction hosts generalizing acc with
  | nil => simp
  | cons host rest ih =>
      rw [List.foldl_cons, ih]
      have hstep : net ∈ (validateStep L allowed key acc host).1 ↔
          net ∈ acc.1 ∨ (validateAddress L host key = .ok net ∧ isSubnetOfAny net allowed = true) := by
        unfold validateStep
        cases hval : validateAddress L host key with
        | error e => simp
        | ok n =>
            by_cases hsub : isSubnetOfAny n allowed = true
            · simp only [if_pos hsub, List.mem_append, List.mem_singleton, Except.ok.injEq]
              constructor
              · rintro (h | rfl)
                · exact Or.inl h
                · exact Or.inr ⟨rfl, hsub⟩
              · rintro (h | ⟨rfl, -⟩)
                · exact Or.inl h
                · exact Or.inr rfl
            · simp only [if_neg hsub, Except.ok.injEq]
              constructor
              · exact Or.inl
              · rintro (h | ⟨rfl, h⟩)
                · exact h
                · exact absurd h hsub
      rw [hstep, or_assoc]
      simp only [List.mem_cons, exists_eq_or_imp]

/-- The accepted networks are the entries that verify and lie inside an allowed network. -/
theorem mem_validateAddresses_iff (allowed : List IpNet) (adv : Advertise) (key : PublicKey)
    (net : IpNet) :
    net ∈ (validateAddresses L allowed adv key).1 ↔
      ∃ host ∈ adv.ownAddresses, validateAddress L host key = .ok net ∧
        isSubnetOfAny net allowed = true := by
  rw [validateAddresses, mem_foldl_validateStep]
  simp

theorem handleControlRequest_ok_iff (common : CommonPeerConfig) (key : PublicKey)
    (request : ControlRequest) (routes : RoutesChanged) :
    (handleControlRequest L common key request).result = .ok (some routes) ↔
      ∃ adv, request.command = some adv ∧ routes.routes ≠ [] ∧
        routes.routes = (validateAddresses L common.allowedNetworks adv key).1.map IpNet.addr := by
  unfold handleControlRequest
  cases hcmd : request.command with
  | none => simp
  | some adv =>
      simp only [Option.some.injEq, exists_eq_left']
      split_ifs with hempty
      · simp only [false_iff, not_and]
        intro hne heq
        rw [heq] at hne
        exact absurd (List.isEmpty_iff.1 hempty) hne
      · simp only [Except.ok.injEq, Option.some.injEq]
        constructor
        · rintro rfl
          exact ⟨fun h => hempty (List.isEmpty_iff.2 h), rfl⟩
        · rintro ⟨-, h⟩
          rw [← h]

/-- The handler closes the connection exactly when it returns an error, with that error. -/
theorem handleControlRequest_closedWith (common : CommonPeerConfig) (key : PublicKey)
    (request : ControlRequest) (status : ThinStatus) :
    (handleControlRequest L common key request).result = .error status ↔
      (handleControlRequest L common key request).closedWith = some status := by
  unfold handleControlRequest
  cases request.command with
  | none => simp
  | some adv => simp only []; split_ifs <;> simp

/-! ## Addresses of one's own -/

/-- The host bits of an address inside its `/64`. -/
def interfaceId (a : Ipv6Addr) : BitVec 128 := a &&& ~~~(slash64 a).netmask

/-- The host bits `sk`'s signature of the `/64` around an address derives. -/
def ownInterfaceId (sk : SecretKey) (a : Ipv6Addr) : BitVec 128 :=
  entropy128 L.scheme (L.scheme.sign sk (serializeNetwork (.v6 (slash64 a).trunc)))
    &&& ~~~(slash64 a).netmask

/-- Inside the allowed range, the address a key generates in a legal subnet is the one whose host
    bits are the key's own. -/
theorem generated_in_subnet_iff (sk : SecretKey) (a : Ipv6Addr)
    (h : VPN_IPV6_DEFAULT_ALLOWED.containsAddr a = true) :
    (∃ s ≤ MAX_SUBNET, IpAddr.v6 a = (generateSignedIpnet L.scheme (.v6 (vpnSubnet s)) sk).1.addr) ↔
      interfaceId a = ownInterfaceId L sk a := by
  have htrunc : ∀ s, (slash64 a).trunc = vpnSubnet s → (vpnSubnet s).trunc = (slash64 a).trunc :=
    fun s hs => by rw [← hs, PrefixNet.trunc_trunc]
  constructor
  · rintro ⟨s, -, ha⟩
    have ha' : a = deriveIpv6 (vpnSubnet s)
        (entropy128 L.scheme (L.scheme.sign sk (serializeNetwork (.v6 (vpnSubnet s).trunc)))) :=
      IpAddr.v6.inj ha
    have hs : (slash64 a).trunc = vpnSubnet s := by rw [ha']; exact slash64_deriveIpv6 s _
    rw [htrunc s hs] at ha'
    calc interfaceId a = a &&& ~~~(vpnSubnet s).netmask := rfl
      _ = ownInterfaceId L sk a := by
        conv_lhs => rw [ha']
        exact (vpnSubnet s).or_host_and_hostmask (vpnSubnet s).addr _
  · intro hid
    obtain ⟨hle, hs⟩ := slash64_trunc_of_allowed a h
    refine ⟨subnetOf a, hle, congrArg IpAddr.v6 ?_⟩
    have hnet : a &&& (slash64 a).netmask = (vpnSubnet (subnetOf a)).addr := by
      rw [← hs]; rfl
    show a = deriveIpv6 (vpnSubnet (subnetOf a)) (entropy128 L.scheme
      (L.scheme.sign sk (serializeNetwork (.v6 (vpnSubnet (subnetOf a)).trunc))))
    rw [htrunc _ hs, ← deriveIpv6_trunc, htrunc _ hs, deriveIpv6_trunc]
    calc a = (a &&& (slash64 a).netmask) ||| interfaceId a :=
          ((slash64 a).and_netmask_or_and_hostmask a).symm
      _ = deriveIpv6 (slash64 a) _ := by rw [hid]; rfl

/-- A key that signs a `/64` has no choice of host bits: the signature is the key's only one for
    that network, and the verifier fixes the host bits from it. -/
theorem interfaceId_of_prefixLen_64 (hS : L.scheme.Ideal) (sk : SecretKey) (n : Ipv6Net)
    (sig : Signature) (h64 : n.prefixLen = 64)
    (h : verifySignedIpnet L.scheme (.v6 n) (L.scheme.publicKey sk) sig = .ok ()) :
    interfaceId n.addr = ownInterfaceId L sk n.addr := by
  obtain ⟨hv, ha⟩ := (verifySignedIpnet_ok_iff L.scheme _ _ _).1 h
  have hn : n = slash64 n.addr := PrefixNet.ext rfl h64
  have hsig : sig = L.scheme.sign sk (serializeNetwork (.v6 (slash64 n.addr).trunc)) := by
    rw [← hn]
    exact hS.unique _ _ _ _ hv (hS.correct sk _)
  have ha' : n.addr = deriveIpv6 n (entropy128 L.scheme sig) := IpAddr.v6.inj ha
  have hmask : (slash64 n.addr).netmask = n.netmask :=
    PrefixNet.netmask_eq_of_prefixLen_eq h64.symm
  unfold interfaceId ownInterfaceId
  rw [← hsig, hmask]
  conv_lhs => rw [ha']
  exact n.or_host_and_hostmask n.addr _

theorem isSubnetOfAny_default (net : IpNet) (gateway : IcmpGateway) :
    isSubnetOfAny net (CommonPeerConfig.new gateway).allowedNetworks = true ↔
      ∃ n, net = .v6 n ∧ VPN_IPV6_DEFAULT_ALLOWED.contains n = true := by
  cases net with
  | v4 n => simp [isSubnetOfAny, CommonPeerConfig.new, IpNet.contains]
  | v6 n => simp [isSubnetOfAny, CommonPeerConfig.new, IpNet.contains]

/-- **Address ownership, exactly.** Every route a peer gets accepted under the default allowed
    networks is the address its key generates in a legal subnet, if and only if each entry it signed
    inside the allowed range is for a `/64`, or happens to carry the host bits the key generates in
    the `/64` around it. -/
theorem handleControlRequest_owned_iff (hS : L.scheme.Ideal) (gateway : IcmpGateway)
    (sk : SecretKey) (adv : Advertise) :
    (∀ routes, (handleControlRequest L (.new gateway) (L.scheme.publicKey sk) ⟨some adv⟩).result
        = .ok (some routes) →
      ∀ a ∈ routes.routes, ∃ s ≤ MAX_SUBNET,
        a = (generateSignedIpnet L.scheme (.v6 (vpnSubnet s)) sk).1.addr) ↔
      ∀ host ∈ adv.ownAddresses, ∀ (n : Ipv6Net) (sig : Signature),
        L.parseNet host.peerNetwork = some (.v6 n) →
        L.scheme.tryFrom host.peerNetworkSignature = some sig →
        VPN_IPV6_DEFAULT_ALLOWED.contains n = true →
        verifySignedIpnet L.scheme (.v6 n) (L.scheme.publicKey sk) sig = .ok () →
        n.prefixLen = 64 ∨ interfaceId n.addr = ownInterfaceId L sk n.addr := by
  constructor
  · intro hown host hhost n sig hparse hsig hallowed hver
    right
    rw [← generated_in_subnet_iff L sk n.addr ((PrefixNet.contains_iff _ _).1 hallowed).2]
    have hmem : IpNet.v6 n ∈ (validateAddresses L (CommonPeerConfig.new gateway).allowedNetworks adv
        (L.scheme.publicKey sk)).1 :=
      (mem_validateAddresses_iff L _ _ _ _).2 ⟨host, hhost,
        (validateAddress_ok_iff L _ _ _).2 ⟨hparse, sig, hsig, hver⟩,
        (isSubnetOfAny_default _ gateway).2 ⟨n, rfl, hallowed⟩⟩
    have hroute : IpAddr.v6 n.addr ∈ (validateAddresses L
        (CommonPeerConfig.new gateway).allowedNetworks adv (L.scheme.publicKey sk)).1.map IpNet.addr :=
      List.mem_map.2 ⟨_, hmem, rfl⟩
    exact hown ⟨_⟩ ((handleControlRequest_ok_iff L _ _ _ _).2
      ⟨adv, rfl, List.ne_nil_of_mem hroute, rfl⟩) _ hroute
  · intro hcond routes hres a ha
    obtain ⟨adv', hadv, -, hroutes⟩ := (handleControlRequest_ok_iff L _ _ _ _).1 hres
    obtain rfl := Option.some.inj hadv
    rw [hroutes] at ha
    obtain ⟨net, hnet, rfl⟩ := List.mem_map.1 ha
    obtain ⟨host, hhost, hval, hsub⟩ := (mem_validateAddresses_iff L _ _ _ _).1 hnet
    obtain ⟨n, rfl, hallowed⟩ := (isSubnetOfAny_default _ gateway).1 hsub
    obtain ⟨hparse, sig, hsig, hver⟩ := (validateAddress_ok_iff L _ _ _).1 hval
    refine (generated_in_subnet_iff L sk n.addr ((PrefixNet.contains_iff _ _).1 hallowed).2).2 ?_
    rcases hcond host hhost n sig hparse hsig hallowed hver with h64 | hid
    · exact interfaceId_of_prefixLen_64 L hS sk n sig h64 hver
    · exact hid

/-- The address key 7 generates in subnet 0 under the concrete schemes, as a `/64`. -/
def sampleNet : IpNet :=
  .v6 ⟨0xfdbd_a6ce_654d_0000_65ce_a6bd_fd40_1107#128, 64, subnetPrefixLen_le⟩

/-- The text of the address key 7 generates in subnet 0. -/
def sampleText : String := "fdbd:a6ce:654d:0:65ce:a6bd:fd40:1107/64"

/-- The address key 8 generates in subnet 0, as a `/128`. -/
def victimNet : IpNet := .v6 ⟨0xfdbd_a6ce_654d_0000_65ce_a6bd_fd40_1108#128, 128, by decide⟩

/-- The address key 8 generates in subnet 0, as a `/128`. -/
def victimText : String := "fdbd:a6ce:654d:0:65ce:a6bd:fd40:1108/128"

/-- The transparent scheme, with `text` as the text of `shown`. -/
def transparentLibrary (text : String) (shown : IpNet) :
    Library UInt8 UInt8 (UInt8 × List UInt8) :=
  ⟨transparentScheme, parseNetWith text shown, showNetWith text shown, fun _ => "[]"⟩

theorem transparentLibrary_netText (text : String) (shown : IpNet) (h : 17 < text.length) :
    (transparentLibrary text shown).NetTextRoundTrip :=
  parseNetWith_showNetWith text shown h

/-- A node that advertises the address its key generates gets just that address accepted. -/
theorem handleControlRequest_owned_sample :
    (handleControlRequest (transparentLibrary sampleText sampleNet) (.new default)
        (transparentScheme.publicKey 7)
        ⟨some (ownAdvertise (transparentLibrary sampleText sampleNet) 0 7)⟩).result
      = .ok (some ⟨[sampleNet.addr]⟩) ∧
    ∀ routes, (handleControlRequest (transparentLibrary sampleText sampleNet) (.new default)
        (transparentScheme.publicKey 7)
        ⟨some (ownAdvertise (transparentLibrary sampleText sampleNet) 0 7)⟩).result
        = .ok (some routes) →
      ∀ a ∈ routes.routes, ∃ s ≤ MAX_SUBNET,
        a = (generateSignedIpnet transparentScheme (.v6 (vpnSubnet s)) 7).1.addr := by
  refine ⟨by decide, (handleControlRequest_owned_iff (transparentLibrary sampleText sampleNet)
    transparentScheme_ideal default 7 _).2 ?_⟩
  intro host hhost n sig hparse _ _ _
  obtain rfl := List.mem_singleton.1 hhost
  have htext := transparentLibrary_netText sampleText sampleNet (by decide)
    (generateSignedIpnet transparentScheme (.v6 (vpnSubnet 0)) 7).1
  have hown := hparse.symm.trans htext
  left
  exact congrArg IpNet.prefixLen (Option.some.inj hown)

/-- Key 7 signs the `/128` of the address that key 8 generates in subnet 0, and a peer accepts it as
    a route to key 7, although key 7 generates it in no subnet. -/
theorem handleControlRequest_accepts_foreign_slash128 :
    (handleControlRequest (transparentLibrary victimText victimNet) (.new default)
        (transparentScheme.publicKey 7)
        ⟨some ⟨[⟨victimText,
          (transparentScheme.toBytes
            (transparentScheme.sign 7 (serializeNetwork victimNet))).toList⟩]⟩⟩).result
      = .ok (some ⟨[(generateSignedIpnet transparentScheme (.v6 (vpnSubnet 0)) 8).1.addr]⟩) ∧
    ¬ ∃ s ≤ MAX_SUBNET, (generateSignedIpnet transparentScheme (.v6 (vpnSubnet 0)) 8).1.addr
        = (generateSignedIpnet transparentScheme (.v6 (vpnSubnet s)) 7).1.addr := by
  have hvictim : (generateSignedIpnet transparentScheme (.v6 (vpnSubnet 0)) 8).1.addr
      = .v6 0xfdbd_a6ce_654d_0000_65ce_a6bd_fd40_1108#128 := by decide
  rw [hvictim]
  refine ⟨by decide, ?_⟩
  intro hown
  have hid := (generated_in_subnet_iff (transparentLibrary victimText victimNet) 7 _ (by decide)).1 hown
  exact absurd hid (by decide)

/-! ## The advertise a node builds for itself -/

theorem validateAddress_ownAdvertise (hc : L.scheme.Correct) (hb : L.scheme.BytesRoundTrip)
    (ht : L.NetTextRoundTrip) (s : BitVec 16) (sk : SecretKey) :
    validateAddress L
        ⟨L.showNet (generateSignedIpnet L.scheme (.v6 (vpnSubnet s)) sk).1,
          (L.scheme.toBytes (generateSignedIpnet L.scheme (.v6 (vpnSubnet s)) sk).2).toList⟩
        (L.scheme.publicKey sk)
      = .ok (generateSignedIpnet L.scheme (.v6 (vpnSubnet s)) sk).1 :=
  (validateAddress_ok_iff L _ _ _).2 ⟨ht _, _, hb _,
    verifySignedIpnet_generateSignedIpnet L.scheme hc _ sk
      (containsAddr_generateSignedIpnet_v6 L.scheme (vpnSubnet s) sk)⟩

theorem isSubnetOfAny_ownAdvertise (gateway : IcmpGateway) (s : BitVec 16) (sk : SecretKey) :
    isSubnetOfAny (generateSignedIpnet L.scheme (.v6 (vpnSubnet s)) sk).1
        (CommonPeerConfig.new gateway).allowedNetworks = true ↔ s ≤ MAX_SUBNET := by
  have hmem := slash64_deriveIpv6 s
    (entropy128 L.scheme (generateSignedIpnet L.scheme (.v6 (vpnSubnet s)) sk).2)
  rw [isSubnetOfAny_default, ← defaultAllowed_containsAddr_of_mem _ s hmem]
  constructor
  · rintro ⟨n, hn, hcontains⟩
    obtain rfl := IpNet.v6.inj hn
    exact ((PrefixNet.contains_iff _ _).1 hcontains).2
  · intro hin
    exact ⟨_, rfl, (PrefixNet.contains_iff _ _).2 ⟨by show (49 : Nat) ≤ 64; decide, hin⟩⟩

/-- **The two ends agree on which subnets are legal.** A node whose configuration is accepted
    advertises an address that every peer with the default settings accepts as its only route,
    without an error; had the configuration been rejected for its subnet, the same advertise would
    be skipped and the request answered by closing the connection. -/
theorem ownAdvertise_accepted_iff_configured {Discovery : Type} (hc : L.scheme.Correct)
    (hb : L.scheme.BytesRoundTrip) (ht : L.NetTextRoundTrip) (fromZ32 : String → Option PublicKey)
    (raw : RawConfig Discovery) (sk : SecretKey) (gateway : IcmpGateway) :
    (∀ config, Config.tryFrom fromZ32 raw = .ok config →
      validateAddresses L (CommonPeerConfig.new gateway).allowedNetworks
          (ownAdvertise L config.subnet sk) (L.scheme.publicKey sk)
        = ([(generateSignedIpnet L.scheme (.v6 (vpnSubnet config.subnet)) sk).1], []) ∧
      handleControlRequest L (.new gateway) (L.scheme.publicKey sk)
          ⟨some (ownAdvertise L config.subnet sk)⟩
        = ⟨.ok (some ⟨[(generateSignedIpnet L.scheme (.v6 (vpnSubnet config.subnet)) sk).1.addr]⟩),
          none⟩) ∧
    (Config.tryFrom fromZ32 raw = .error (.subnetOutOfRange raw.host.subnet MAX_SUBNET) →
      validateAddresses L (CommonPeerConfig.new gateway).allowedNetworks
          (ownAdvertise L raw.host.subnet sk) (L.scheme.publicKey sk) = ([], []) ∧
      handleControlRequest L (.new gateway) (L.scheme.publicKey sk)
          ⟨some (ownAdvertise L raw.host.subnet sk)⟩
        = ⟨.error (noRoutesStatus L []), some (noRoutesStatus L [])⟩) := by
  have hvalid : ∀ s, validateAddresses L (CommonPeerConfig.new gateway).allowedNetworks
      (ownAdvertise L s sk) (L.scheme.publicKey sk)
        = if s ≤ MAX_SUBNET then ([(generateSignedIpnet L.scheme (.v6 (vpnSubnet s)) sk).1], [])
          else ([], []) := by
    intro s
    simp only [validateAddresses, ownAdvertise, List.foldl_cons, List.foldl_nil, validateStep,
      validateAddress_ownAdvertise L hc hb ht s sk, isSubnetOfAny_ownAdvertise L gateway s sk,
      List.nil_append]
  constructor
  · intro config hok
    obtain ⟨hsub, hle⟩ := Config.tryFrom_ok hok
    have hval := hvalid config.subnet
    rw [if_pos (hsub ▸ hle)] at hval
    exact ⟨hval, by simp [handleControlRequest, hval]⟩
  · intro herr
    have hval := hvalid raw.host.subnet
    rw [if_neg (by simpa using (Config.tryFrom_subnetOutOfRange_iff fromZ32 raw).1 herr)] at hval
    exact ⟨hval, by simp [handleControlRequest, hval]⟩

/-- A configuration with the largest legal subnet and no peers. -/
def sampleRawConfig : RawConfig Unit where
  host := ⟨0x7fff#16, "zeroconf-p2p-vpn_private.key"⟩
  peers := []
  peers_nodup := by simp
  tun := ⟨none, none⟩
  discovery := ()
  dns := none

/-- The address key 7 generates in subnet 0x7fff. -/
def edgeNet : IpNet :=
  .v6 ⟨0xfdbd_a6ce_654d_7fff_65ce_a6bd_fd40_1107#128, 64, subnetPrefixLen_le⟩

/-- The address key 7 generates in the last legal subnet. -/
def edgeText : String := "fdbd:a6ce:654d:7fff:65ce:a6bd:fd40:1107/64"

/-- The packed scheme, with `text` as the text of `shown`. -/
def packedLibrary (text : String) (shown : IpNet) : Library UInt8 UInt8 (Vector UInt8 64) :=
  ⟨packedScheme, parseNetWith text shown, showNetWith text shown, fun _ => "[]"⟩

theorem ownAdvertise_accepted_at_edge :
    handleControlRequest (packedLibrary edgeText edgeNet) (.new default) (packedScheme.publicKey 7)
        ⟨some (ownAdvertise (packedLibrary edgeText edgeNet) 0x7fff#16 7)⟩
      = ⟨.ok (some ⟨[(generateSignedIpnet packedScheme (.v6 (vpnSubnet 0x7fff#16)) 7).1.addr]⟩),
        none⟩ :=
  ((ownAdvertise_accepted_iff_configured (packedLibrary edgeText edgeNet) packedScheme_correct
    packedScheme_bytesRoundTrip (parseNetWith_showNetWith edgeText edgeNet (by decide))
    (fun _ => none) sampleRawConfig 7 default).1 _ rfl).2

end

end P2pVpn
